import IntraCloud.Organizations.Members
import IntraCloud.Permissions.Catalog

/-!
# Who may do what

The control-plane rows that carry authority, and the calls that create them: `assign_role` of
`permissions/services.py`, `organizations/services.py` and the views of `organizations/views.py`.
-/

namespace Organizations

open Audit Permissions

/-- A row of `User`. -/
structure User where
  id : Uuid
  email : String
  mfaEnabled : Bool
  deriving DecidableEq, Repr

/-- A row of `Organization`. -/
structure Organization where
  id : Uuid
  name : String
  slug : String
  deriving DecidableEq, Repr

/-- A row of `Team` with its name. -/
structure NamedTeam extends Team where
  name : String
  deriving DecidableEq, Repr

/-- A row of `Application`, with the identity user of its service account. -/
structure Application where
  id : Uuid
  organization : Uuid
  name : String
  identityUser : Uuid
  deriving DecidableEq, Repr

/-- The rows these calls read and write. -/
structure Directory where
  users : List User
  organizations : List Organization
  teams : List NamedTeam
  memberships : List Membership
  applications : List Application
  tables : Tables
  nextUuid : Uuid
  deriving DecidableEq, Repr

/-- `FEATURE_INTERNET_GATEWAY_ENABLED`, Django's `slugify`, and the `UPPER` of PostgreSQL by which
`iexact` compares. -/
structure Settings where
  internetGateway : Bool
  slugify : String → String
  upper : String → String

/-- The log after an `audit.record`, as the rows it leaves. -/
def Directory.record (d : Directory) (e : AuditEvent) : Option Directory :=
  (Audit.record d.tables.audit e).map fun audit => { d with tables := { d.tables with audit } }

/-! ## Roles -/

/-- The exceptions of `assign_role`. -/
inductive RoleError where
  /-- `Role.DoesNotExist`. -/
  | doesNotExist
  /-- `PermissionError_`. -/
  | permissionError (message : String)
  /-- The constraint `unique_role_assignment`. -/
  | integrityError
  | dataError
  deriving DecidableEq, Repr

/-- The gateway refuses an administrative role to a user without MFA, where another one assigns it. -/
def Settings.refusesRole (cfg : Settings) (user : User) (role : Role) (grantedBy : Option Uuid) :
    Bool :=
  cfg.internetGateway && grantedBy.any (· != user.id) && !user.mfaEnabled &&
    role.permissions.any (ADMIN_PERMISSION_CODES.contains ·)

/-- The row of the constraint `unique_role_assignment`, which tells no two NULLs equal. -/
def Directory.assigned (d : Directory) (user : Uuid) (slug : String) (organization : Option Uuid) :
    Bool :=
  organization.isSome && d.tables.roleAssignments.any fun a =>
    a.user == user && a.role.slug == slug && a.organization == organization

/-- `assign_role`. -/
def assignRole (cfg : Settings) (d : Directory) (user : User) (slug : String)
    (organization grantedBy : Option Uuid) : Except RoleError Directory :=
  match systemRole? slug with
  | none => .error .doesNotExist
  | some role =>
    if organization = none ∧ role.slug ≠ PLATFORM_WIDE_ROLE_SLUG then
      .error (.permissionError ("Only the '" ++ PLATFORM_WIDE_ROLE_SLUG ++
        "' role may be assigned platform-wide (organization=None)."))
    else if cfg.refusesRole user role grantedBy then
      .error (.permissionError ("Cannot assign '" ++ slug ++
        "': internet gateway mode requires the target user to " ++
        "have MFA enabled before an administrative role can be granted."))
    else if d.assigned user.id slug organization then .error .integrityError
    else
      let d := { d with tables := { d.tables with
        roleAssignments := d.tables.roleAssignments ++
          [({ user := user.id, role, organization } : RoleAssignment)] } }
      match d.record
          { actor := grantedBy, organization := organization, action := "permissions.role.assign",
            resourceType := "user", resourceId := some user.id,
            context := [("role", .str slug)] } with
      | none => .error .dataError
      | some d => .ok d

/-! ## Organizations and teams -/

/-- The exceptions of `create_organization` and of the view calls. -/
inductive ViewError where
  | notFound
  | forbidden
  | badRequest (detail : String)
  | conflict (detail : String)
  /-- An exception that nothing maps to a response. -/
  | serverError
  deriving DecidableEq, Repr

/-- The columns `name` and `slug`, and the unique slug. -/
def Directory.organizationInsertable (d : Directory) (name slug : String) : Bool :=
  varcharFits 200 name && varcharFits 200 slug && !d.organizations.any (·.slug == slug)

/-- `create_organization`, with the id of the new row. `slug or slugify(name)` is `slug` here. -/
def createOrganization (cfg : Settings) (d : Directory) (name slug : String) (createdBy : User) :
    Except ViewError (Directory × Uuid) :=
  if !d.organizationInsertable name slug then .error .serverError
  else
    let id := d.nextUuid
    let inserted := { d with
      organizations := d.organizations ++ [({ id, name, slug } : Organization)]
      memberships := d.memberships ++ [(⟨createdBy.id, id, none, .active⟩ : Membership)]
      nextUuid := d.nextUuid + 1 }
    match assignRole cfg inserted createdBy ORGANIZATION_ADMINISTRATOR (some id)
        (some createdBy.id) with
    | .error _ => .error .serverError
    | .ok d =>
      match d.record
          { actor := some createdBy.id, organization := some id, action := "organization.create",
            resourceType := "organization", resourceId := some id,
            context := [("name", .str name)] } with
      | none => .error .serverError
      | some d => .ok (d, id)

/-- `get_member_organization`. -/
def getMemberOrganization (d : Directory) (user id : Uuid) : Option Organization :=
  d.organizations.find? fun o => o.id == id && isMember d.memberships user o.id

/-- `get_member_team`. -/
def getMemberTeam (d : Directory) (user id : Uuid) : Option NamedTeam :=
  d.teams.find? fun t => t.id == id && isMember d.memberships user t.organization

/-- `get_member_application`. -/
def getMemberApplication (d : Directory) (user id : Uuid) : Option Application :=
  d.applications.find? fun a => a.id == id && isMember d.memberships user a.organization

/-- What `User.objects.get(email__iexact=email)` ends in. -/
inductive UserLookup where
  | found (user : User)
  | doesNotExist
  | multiple
  deriving DecidableEq, Repr

/-- `User.objects.get(email__iexact=email)`. -/
def userByEmail (cfg : Settings) (users : List User) (email : String) : UserLookup :=
  match users.filter fun u => cfg.upper u.email == cfg.upper email with
  | [] => .doesNotExist
  | [user] => .found user
  | _ => .multiple

/-- The user has a membership of the organization, whatever its status. -/
def Directory.hasMembership (d : Directory) (user organization : Uuid) : Bool :=
  d.memberships.any fun m => m.user == user && m.organization == organization

/-- The event is recorded after the change; where it does not fit, the change stays. -/
def Directory.recordThen (d : Directory) (e : AuditEvent) : Directory × Except ViewError Unit :=
  match d.record e with
  | none => (d, .error .serverError)
  | some d => (d, .ok ())

/-- `OrganizationListCreateView.post`. -/
def postOrganization (cfg : Settings) (d : Directory) (actor : User) (name : String) :
    Directory × Except ViewError Unit :=
  match createOrganization cfg d name (cfg.slugify name) actor with
  | .error e => (d, .error e)
  | .ok (d, _) => (d, .ok ())

/-- `MembershipListCreateView.post`. -/
def postMembership (cfg : Settings) (now : Nat) (d : Directory) (actor organization : Uuid)
    (email : String) : Directory × Except ViewError Unit :=
  match getMemberOrganization d actor organization with
  | none => (d, .error .notFound)
  | some org =>
    if !hasPermission d.tables now actor "users.manage" org.id none then (d, .error .forbidden)
    else
      match userByEmail cfg d.users email with
      | .doesNotExist => (d, .error .notFound)
      | .multiple => (d, .error .serverError)
      | .found target =>
        if d.hasMembership target.id org.id then
          (d, .error (.conflict "This user is already a member."))
        else
          let d := { d with
            memberships := d.memberships ++ [(⟨target.id, org.id, none, .active⟩ : Membership)] }
          d.recordThen
            { actor := some actor, organization := some org.id, action := "organization.member.add",
              resourceType := "user", resourceId := some target.id }

/-- `MembershipRoleAssignView.post`. There is one membership of a user in an organization, so the user
stands for its id. -/
def postRole (cfg : Settings) (now : Nat) (d : Directory) (actor organization member : Uuid)
    (slug : String) : Directory × Except ViewError Unit :=
  match getMemberOrganization d actor organization with
  | none => (d, .error .notFound)
  | some org =>
    if !hasPermission d.tables now actor "permissions.manage" org.id none then
      (d, .error .forbidden)
    else if !d.hasMembership member org.id then (d, .error .notFound)
    else
      match d.users.find? (·.id == member) with
      | none => (d, .error .notFound)
      | some user =>
        if (systemRole? slug).isNone then (d, .error (.badRequest "Unknown role."))
        else
          match assignRole cfg d user slug (some org.id) (some actor) with
          | .error _ => (d, .error .serverError)
          | .ok d => (d, .ok ())

/-- `TeamListCreateView.post`. -/
def postTeam (now : Nat) (d : Directory) (actor organization : Uuid) (name : String) :
    Directory × Except ViewError Unit :=
  match getMemberOrganization d actor organization with
  | none => (d, .error .notFound)
  | some org =>
    if !hasPermission d.tables now actor "users.manage" org.id none then (d, .error .forbidden)
    else if d.teams.any (fun t => t.organization == org.id && t.name == name) then
      (d, .error (.conflict "A team with this name already exists."))
    else
      let team : NamedTeam := { id := d.nextUuid, organization := org.id, name }
      let d := { d with teams := d.teams ++ [team], nextUuid := d.nextUuid + 1 }
      d.recordThen
        { actor := some actor, organization := some org.id, action := "organization.team.create",
          resourceType := "team", resourceId := some team.id, context := [("name", .str name)] }

/-- The user's membership of the organization, with its team set where `current` allows it. -/
def Directory.setTeam (d : Directory) (user organization : Uuid) (current : Option Uuid → Bool)
    (team : Option Uuid) : Directory :=
  { d with memberships := d.memberships.map fun m =>
      if m.user = user ∧ m.organization = organization ∧ current m.team = true then
        { m with team }
      else m }

/-- `TeamMemberListCreateView.post` and `add_team_member`. -/
def postTeamMember (now : Nat) (d : Directory) (actor teamId user : Uuid) :
    Directory × Except ViewError Unit :=
  match getMemberTeam d actor teamId with
  | none => (d, .error .notFound)
  | some team =>
    if !hasPermission d.tables now actor "users.manage" team.organization none then
      (d, .error .forbidden)
    else if !d.hasMembership user team.organization then (d, .error .notFound)
    else
      let d := d.setTeam user team.organization (fun _ => true) (some team.id)
      d.recordThen
        { actor := some actor, organization := some team.organization,
          action := "organization.team.member_add", resourceType := "team",
          resourceId := some team.id, context := [("user", .uuid user)] }

/-- `TeamMemberDetailView.delete` and `remove_team_member`. -/
def deleteTeamMember (now : Nat) (d : Directory) (actor teamId user : Uuid) :
    Directory × Except ViewError Unit :=
  match getMemberTeam d actor teamId with
  | none => (d, .error .notFound)
  | some team =>
    if !hasPermission d.tables now actor "users.manage" team.organization none then
      (d, .error .forbidden)
    else if !d.memberships.any (fun m =>
        m.user == user && m.organization == team.organization && m.team == some team.id) then
      (d, .error .notFound)
    else
      let d := d.setTeam user team.organization (· == some team.id) none
      d.recordThen
        { actor := some actor, organization := some team.organization,
          action := "organization.team.member_remove", resourceType := "team",
          resourceId := some team.id, context := [("user", .uuid user)] }

/-! ## Applications -/

/-- `register_application`: the application, its identity user and its membership in one transaction. -/
def registerApplication (d : Directory) (actor organization : Uuid) (name : String) :
    Directory × Except ViewError Unit :=
  if d.applications.any (fun a => a.organization == organization && a.name == name) ∨
      !varcharFits 200 name then
    (d, .error .serverError)
  else
    let application : Application :=
      { id := d.nextUuid, organization, name, identityUser := d.nextUuid + 1 }
    let email := "service-account+" ++ String.ofList (Nat.toDigits 16 application.id) ++
      "@service.internal"
    let d := { d with
      users := d.users ++ [(⟨application.identityUser, email, false⟩ : User)]
      applications := d.applications ++ [application]
      memberships := d.memberships ++
        [(⟨application.identityUser, organization, none, .active⟩ : Membership)]
      nextUuid := d.nextUuid + 2 }
    d.recordThen
      { actor := some actor, organization := some organization, action := "application.create",
        resourceType := "application", resourceId := some application.id,
        context := [("name", .str name)] }

/-- `ApplicationListCreateView.post`. -/
def postApplication (now : Nat) (d : Directory) (actor organization : Uuid) (name : String) :
    Directory × Except ViewError Unit :=
  match getMemberOrganization d actor organization with
  | none => (d, .error .notFound)
  | some org =>
    if !hasPermission d.tables now actor "application.create" org.id none then
      (d, .error .forbidden)
    else registerApplication d actor org.id name

/-- `ApplicationResourceGrantListCreateView.post`. -/
def postApplicationGrant (now : Nat) (d : Directory) (actor application : Uuid)
    (permission resourceType : String) (resourceId : Uuid) (expiresAt : Option Nat) :
    Directory × Except ViewError Unit :=
  match getMemberApplication d actor application with
  | none => (d, .error .notFound)
  | some app =>
    if !hasPermission d.tables now actor "permissions.manage" app.organization none then
      (d, .error .forbidden)
    else
      match grantResourcePermission d.tables
          { user := app.identityUser, permission, organization := app.organization, resourceType,
            resourceId, grantedBy := some actor, expiresAt, origin := .direct } with
      | .ok tables => ({ d with tables }, .ok ())
      | .error .unknownPermission =>
        (d, .error (.badRequest ("Unknown permission: '" ++ permission ++ "'")))
      | .error _ => (d, .error .serverError)

end Organizations
