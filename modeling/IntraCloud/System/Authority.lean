import IntraCloud.Exports.Memberships
import IntraCloud.Sharing.Services
import IntraCloud.Transition.Runs

/-!
# Who got which authority from where

The directory with every request that adds a membership, a role or a grant to it: organizations, members,
roles, teams, applications, shares and restores, and the command that makes the first administrator. The
content of the organizations may change in any way; what belongs to whom is read off it, as each
`get_member_*` query does.
-/

namespace Authority

open Audit Exports Organizations Permissions Sharing

/-! ## Content -/

/-- The tables below an organization that a lookup reads. -/
inductive Kind where
  | workspace
  | project
  | bucket
  | file
  | tenantDatabase
  | table
  | column
  | connectedDatabase
  | importJob
  | exportJob
  | dashboard
  deriving DecidableEq, Repr

/-- The tables its foreign keys pass through on the way to the organization. -/
def Kind.above : Kind → List Kind
  | .workspace | .exportJob => []
  | .project => [.workspace]
  | .bucket | .tenantDatabase | .connectedDatabase => [.project, .workspace]
  | .file => [.bucket, .project, .workspace]
  | .table | .dashboard => [.tenantDatabase, .project, .workspace]
  | .column | .importJob => [.table, .tenantDatabase, .project, .workspace]

/-- A row of such a table, with the key of the row it belongs to. -/
structure Row where
  kind : Kind
  id : Uuid
  parent : Uuid
  deriving DecidableEq, Repr

/-- A row of `ApplicationCredential`, with its service account's application. -/
structure Credential where
  id : Uuid
  application : Uuid
  deriving DecidableEq, Repr

/-- The key the foreign keys end at. -/
def climb (rows : List Row) : List Kind → Uuid → Option Uuid
  | [], id => some id
  | kind :: kinds, id =>
    (rows.find? fun r => r.kind == kind && r.id == id).bind fun r => climb rows kinds r.parent

/-- The organization a row belongs to. -/
def Row.organization (rows : List Row) (r : Row) : Option Uuid := climb rows r.kind.above r.parent

/-- The directory, the content and the clock. -/
structure State where
  now : Nat
  directory : Directory
  rows : List Row
  credentials : List Credential
  shareGrants : List ShareGrant
  deriving DecidableEq, Repr

/-- The resource type under which a row can be shared. -/
def Kind.resourceType : Kind → Option String
  | .bucket => some RESOURCE_TYPE_BUCKET
  | .tenantDatabase => some RESOURCE_TYPE_TENANT_DATABASE
  | .connectedDatabase => some RESOURCE_TYPE_CONNECTED_DATABASE
  | _ => none

/-- The resources that can be shared. -/
def State.resources (s : State) : List Resource :=
  s.rows.filterMap fun r => do
    let resourceType ← r.kind.resourceType
    let organization ← r.organization s.rows
    return ⟨resourceType, r.id, organization⟩

/-! ## Lookups -/

/-- The query of a `get_member_*` lookup: the row under this key, of an organization the user is an active
member of. -/
def getMember (kind : Kind) (s : State) (user id : Uuid) : Option Row :=
  s.rows.find? fun r => r.kind == kind && r.id == id &&
    (r.organization s.rows).any (isMember s.directory.memberships user)

/-- `get_member_workspace`. -/
def getMemberWorkspace := getMember .workspace

/-- `get_member_project`. -/
def getMemberProject := getMember .project

/-- `get_member_bucket`. -/
def getMemberBucket := getMember .bucket

/-- `get_member_file`. -/
def getMemberFile := getMember .file

/-- `get_member_tenant_database`. -/
def getMemberTenantDatabase := getMember .tenantDatabase

/-- `get_member_table`. -/
def getMemberTable := getMember .table

/-- `get_member_column`. -/
def getMemberColumn := getMember .column

/-- `get_member_connected_database`. -/
def getMemberConnectedDatabase := getMember .connectedDatabase

/-- `get_member_import_job`. -/
def getMemberImportJob := getMember .importJob

/-- `get_member_export_job`. -/
def getMemberExportJob := getMember .exportJob

/-- `get_member_dashboard`. -/
def getMemberDashboard := getMember .dashboard

/-- `_get_member_credential`. -/
def getMemberCredential (s : State) (user application id : Uuid) : Option Credential :=
  (getMemberApplication s.directory user application).bind fun app =>
    s.credentials.find? fun c => c.application == app.id && c.id == id

/-! ## Requests -/

/-- What `sharing/services.py` sees of the state. -/
def State.sharing (s : State) : Sharing.State :=
  { now := s.now, users := s.directory.users.map (·.id),
    teams := s.directory.teams.map (·.toTeam), memberships := s.directory.memberships,
    resources := s.resources, tables := s.directory.tables, shareGrants := s.shareGrants,
    nextUuid := s.directory.nextUuid }

/-- What `sharing/services.py` leaves of it. -/
def State.withSharing (s : State) (t : Sharing.State) : State :=
  { s with directory := { s.directory with tables := t.tables, nextUuid := t.nextUuid },
           shareGrants := t.shareGrants }

/-- The requests that add authority, or take it away. A member is named by user. -/
inductive Request where
  | createOrganization (name : String)
  | addMember (organization : Uuid) (email : String)
  | assignRole (organization member : Uuid) (slug : String)
  | createTeam (organization : Uuid) (name : String)
  | addTeamMember (team user : Uuid)
  | removeTeamMember (team user : Uuid)
  | registerApplication (organization : Uuid) (name : String)
  | grantApplication (application : Uuid) (permission resourceType : String) (resourceId : Uuid)
      (expiresAt : Option Nat)
  | createShare (r : ShareRequest)
  | revokeShare (shareId : Uuid) (requestId : String)
  | restore (draws : List String) (pkg : Package)
  deriving DecidableEq, Repr

/-- What happens: a request, the command line, a change of the accounts or of the content. -/
inductive Action where
  | request (actor : Uuid) (r : Request)
  | bootstrapSuperAdministrator (email : String)
  | register (email : String)
  | setMfa (user : Uuid) (enabled : Bool)
  | changeContent (rows : List Row) (credentials : List Credential)
  | advance (seconds : Nat)
  deriving DecidableEq, Repr

/-- `restore_package` on the directory. -/
def restore (cfg : Settings) (d : Directory) (actor : User) (draws : List String)
    (pkg : Package) : Directory :=
  match restorePackage cfg d actor draws pkg with
  | none => d
  | some (d, _, _) => d

/-- One request of an authenticated user. -/
def serve (cfg : Settings) (s : State) (actor : User) : Request → State
  | .createOrganization name =>
    { s with directory := (postOrganization cfg s.directory actor name).1 }
  | .addMember organization email =>
    { s with directory := (postMembership cfg s.now s.directory actor.id organization email).1 }
  | .assignRole organization member slug =>
    { s with directory := (postRole cfg s.now s.directory actor.id organization member slug).1 }
  | .createTeam organization name =>
    { s with directory := (postTeam s.now s.directory actor.id organization name).1 }
  | .addTeamMember team user =>
    { s with directory := (postTeamMember s.now s.directory actor.id team user).1 }
  | .removeTeamMember team user =>
    { s with directory := (deleteTeamMember s.now s.directory actor.id team user).1 }
  | .registerApplication organization name =>
    { s with directory := (postApplication s.now s.directory actor.id organization name).1 }
  | .grantApplication application permission resourceType resourceId expiresAt =>
    { s with directory := (postApplicationGrant s.now s.directory actor.id application permission
        resourceType resourceId expiresAt).1 }
  | .createShare r => s.withSharing (postShareGrant s.sharing { r with actor := actor.id }).1
  | .revokeShare shareId requestId =>
    s.withSharing (deleteShareGrant s.sharing actor.id shareId requestId).1
  | .restore draws pkg => { s with directory := restore cfg s.directory actor draws pkg }

/-- The account with the email, made where there is none. -/
def createUser (d : Directory) (email : String) : Directory × User :=
  let user : User := ⟨d.nextUuid, email, false⟩
  ({ d with users := d.users ++ [user], nextUuid := d.nextUuid + 1 }, user)

/-- `bootstrap_super_administrator`: the first user with the email, or a new one, in one transaction. -/
def bootstrapSuperAdministrator (cfg : Settings) (d : Directory) (email : String) : Directory :=
  let (created, user) :=
    match d.users.find? fun u => cfg.upper u.email == cfg.upper email with
    | some user => (d, user)
    | none => createUser d email
  match assignRole cfg created user PLATFORM_WIDE_ROLE_SLUG none none with
  | .ok d => d
  | .error _ => d

/-- `RegisterView.post`. -/
def register (cfg : Settings) (d : Directory) (email : String) : Directory :=
  if d.users.any fun u => cfg.upper u.email == cfg.upper email then d else (createUser d email).1

/-- One action. -/
def step (cfg : Settings) (s : State) : Action → State
  | .request actor r =>
    match s.directory.users.find? (·.id == actor) with
    | none => s
    | some user => serve cfg s user r
  | .bootstrapSuperAdministrator email =>
    { s with directory := bootstrapSuperAdministrator cfg s.directory email }
  | .register email => { s with directory := register cfg s.directory email }
  | .setMfa user mfaEnabled =>
    { s with directory := { s.directory with users := s.directory.users.map fun u =>
        if u.id = user then { u with mfaEnabled } else u } }
  | .changeContent rows credentials => { s with rows, credentials }
  | .advance seconds => { s with now := s.now + seconds }

/-- A platform with the permission catalog and nobody on it. -/
def start : State :=
  { now := 0,
    directory := { users := [], organizations := [], teams := [], memberships := [],
                   applications := [], tables := ⟨PERMISSIONS, [], [], []⟩, nextUuid := 0 },
    rows := [], credentials := [], shareGrants := [] }

/-! ## Super-administrators -/

/-- The user holds the role platform-wide. -/
def PlatformWide (d : Directory) (user : Uuid) : Prop :=
  ∃ a ∈ d.tables.roleAssignments,
    a.user = user ∧ a.role.slug = PLATFORM_WIDE_ROLE_SLUG ∧ a.organization = none

instance (d : Directory) (user : Uuid) : Decidable (PlatformWide d user) := by
  unfold PlatformWide; infer_instance

/-- `system.admin`, in whatever organization, is for platform-wide super-administrators. -/
def OnlyPlatformWide (s : State) : Prop :=
  ∀ user organization,
    hasPermission s.directory.tables s.now user "system.admin" organization none = true →
      PlatformWide s.directory user

/-- The request passes the checks of `MembershipRoleAssignView` and `assign_role`. -/
def AssignsRole (cfg : Settings) (s : State) (actor organization member : Uuid) (slug : String) :
    Prop :=
  (getMemberOrganization s.directory actor organization).isSome = true ∧
    hasPermission s.directory.tables s.now actor "permissions.manage" organization none = true ∧
    s.directory.hasMembership member organization = true ∧
    ∃ user ∈ s.directory.users.find? (·.id == member), ∃ role ∈ systemRole? slug,
      cfg.refusesRole user role (some actor) = false ∧
        s.directory.assigned user.id slug (some organization) = false

/-- The restore goes through and is committed. -/
def Restores (cfg : Settings) (s : State) (actor : User) (draws : List String) (pkg : Package) :
    Prop :=
  ∃ d o report, restorePackage cfg s.directory actor draws pkg = some (d, o, report) ∧
    o ∈ d.organizations.map (·.id)

/-- The step gives nobody the role of super-administrator inside an organization who does not hold it
platform-wide: neither a role assignment that goes through nor a package that is restored. -/
def Contained (cfg : Settings) (s : State) : Action → Prop
  | .request actor (.assignRole organization member slug) =>
    slug = PLATFORM_WIDE_ROLE_SLUG → (s.directory.users.find? (·.id == actor)).isSome = true →
      AssignsRole cfg s actor organization member slug → PlatformWide s.directory member
  | .request actor (.restore draws pkg) =>
    ∀ user ∈ s.directory.users.find? (·.id == actor), Restores cfg s user draws pkg →
      ∀ entry ∈ pkg.memberships, PLATFORM_WIDE_ROLE_SLUG ∈ entry.roleSlugs →
        ∀ member, userByEmail cfg s.directory.users entry.email = .found member →
          PlatformWide s.directory member.id
  | _ => True

/-! ## Provenance -/

/-- The actor holds the permission in the organization. -/
def Holds (s : State) (actor : Uuid) (code : String) (organization : Uuid) : Prop :=
  hasPermission s.directory.tables s.now actor code organization none = true

/-- The action creates or restores the organization. -/
def Founds (cfg : Settings) (s : State) (a : Action) (organization : Uuid) : Prop :=
  ((∃ actor name, a = .request actor (.createOrganization name)) ∨
      ∃ actor draws pkg, a = .request actor (.restore draws pkg)) ∧
    (∀ o ∈ s.directory.organizations, o.id ≠ organization) ∧
    ∃ o ∈ (step cfg s a).directory.organizations, o.id = organization

/-- Where a membership may come from. -/
def MembershipSource (cfg : Settings) (organization : Uuid) (s : State) (a : Action) : Prop :=
  Founds cfg s a organization ∨
    (∃ actor name, a = .request actor (.registerApplication organization name)) ∨
    ∃ actor email, a = .request actor (.addMember organization email) ∧
      Holds s actor "users.manage" organization

/-- Where a role may come from. -/
def RoleSource (cfg : Settings) (organization : Uuid) (s : State) (a : Action) : Prop :=
  Founds cfg s a organization ∨
    ∃ actor member slug, a = .request actor (.assignRole organization member slug) ∧
      Holds s actor "permissions.manage" organization

/-- Where a grant may come from. -/
def GrantSource (organization : Uuid) (s : State) (a : Action) : Prop :=
  (∃ actor application permission resourceType resourceId expiresAt,
      a = .request actor
        (.grantApplication application permission resourceType resourceId expiresAt) ∧
      (∃ app ∈ s.directory.applications, app.id = application ∧ app.organization = organization) ∧
      Holds s actor "permissions.manage" organization) ∨
    ∃ actor r, a = .request actor (.createShare r) ∧ r.organization = organization ∧
      Holds s actor "sharing.manage" organization

/-- The user is an active member of the organization. -/
def Member (user organization : Uuid) (s : State) : Prop :=
  ∃ m ∈ s.directory.memberships,
    m.user = user ∧ m.organization = organization ∧ m.status = .active

/-- Every authority in an organization has a source: a step of the run that made it, and since which it
has been there. -/
structure Sourced (cfg : Settings) (as : List Action) : Prop where
  memberships : ∀ user organization,
    Member user organization (Transition.run (step cfg) start as) →
      Transition.Made (step cfg) (Member user organization) (MembershipSource cfg organization)
        start as
  roles : ∀ a ∈ (Transition.run (step cfg) start as).directory.tables.roleAssignments,
    ∀ organization ∈ a.organization,
      Transition.Made (step cfg) (fun s => a ∈ s.directory.tables.roleAssignments)
        (RoleSource cfg organization) start as
  grants : ∀ g ∈ (Transition.run (step cfg) start as).directory.tables.resourceGrants,
    Transition.Made (step cfg) (fun s => g ∈ s.directory.tables.resourceGrants)
      (GrantSource g.organization) start as

/-- The user has no membership, role or grant in the organization, and no platform-wide role. -/
structure Outsider (s : State) (user organization : Uuid) : Prop where
  membership : ¬ Member user organization s
  role : ∀ a ∈ s.directory.tables.roleAssignments, a.user = user →
    a.organization ≠ some organization ∧ a.organization ≠ none
  grant : ∀ g ∈ s.directory.tables.resourceGrants, g.user = user → g.organization ≠ organization

/-- Every lookup of something of the organization ends in `Http404`, and every check is negative. -/
structure ShutOut (s : State) (user organization : Uuid) : Prop where
  itself : getMemberOrganization s.directory user organization = none
  team : ∀ id, (∀ t ∈ s.directory.teams, t.id = id → t.organization = organization) →
    getMemberTeam s.directory user id = none
  application : ∀ id, (∀ a ∈ s.directory.applications, a.id = id → a.organization = organization) →
    getMemberApplication s.directory user id = none ∧
      ∀ credential, getMemberCredential s user id credential = none
  share : ∀ id, (∀ sh ∈ s.shareGrants, sh.id = id → sh.organization = organization) →
    getMemberShare s.sharing user id = none
  content : ∀ kind id, (∀ r ∈ s.rows, r.kind = kind → r.id = id →
    r.organization s.rows = some organization) → getMember kind s user id = none
  permission : ∀ code resource,
    hasPermission s.directory.tables s.now user code organization resource = false
  resourcePermission : ∀ code resourceType resourceId,
    hasResourcePermission s.directory.tables s.now user code organization resourceType
      resourceId = false

/-! ## MFA behind administrative roles

What gateway mode asks of every role assignment a request makes, and which requests comply with it. -/

/-- The role bundles a code of `ADMIN_PERMISSION_CODES`. -/
def Administrative (role : Role) : Prop := ∃ code ∈ role.permissions, code ∈ ADMIN_PERMISSION_CODES

instance (role : Role) : Decidable (Administrative role) := by
  unfold Administrative; infer_instance

/-- `user.mfa_enabled`. -/
def HasMfa (d : Directory) (user : Uuid) : Prop := ∃ u ∈ d.users, u.id = user ∧ u.mfaEnabled = true

instance (d : Directory) (user : Uuid) : Decidable (HasMfa d user) := by
  unfold HasMfa; infer_instance

/-- The role assignments the step has inserted. -/
def inserted (cfg : Settings) (s : State) (a : Action) : List RoleAssignment :=
  (step cfg s a).directory.tables.roleAssignments.drop s.directory.tables.roleAssignments.length

/-- The assignment makes the user administrator of an organization that her own request founds. -/
def Bootstraps (cfg : Settings) (s : State) (a : Action) (r : RoleAssignment) : Prop :=
  (∃ request, a = .request r.user request) ∧ r.role.slug = ORGANIZATION_ADMINISTRATOR ∧
    ∃ organization ∈ r.organization, Founds cfg s a organization

/-- Every administrative role that the request assigns goes to a user with MFA, or is that of a founder. -/
def Guarded (cfg : Settings) (s : State) (a : Action) : Prop :=
  match a with
  | .request _ _ =>
    ∀ r ∈ inserted cfg s a, Administrative r.role → HasMfa s.directory r.user ∨ Bootstraps cfg s a r
  | _ => True

/-- An administrative role that a user assigns to herself, or that a restored package names for an account,
meets MFA. -/
def Enrolled (cfg : Settings) (s : State) : Action → Prop
  | .request actor (.assignRole organization member slug) =>
    actor = member → (s.directory.users.find? (·.id == actor)).isSome = true →
      AssignsRole cfg s actor organization member slug →
        ∀ role ∈ systemRole? slug, Administrative role → HasMfa s.directory member
  | .request actor (.restore draws pkg) =>
    ∀ user ∈ s.directory.users.find? (·.id == actor), Restores cfg s user draws pkg →
      ∀ entry ∈ pkg.memberships, ∀ slug ∈ entry.roleSlugs, slug ≠ ORGANIZATION_ADMINISTRATOR →
        ∀ role ∈ systemRole? slug, Administrative role →
          ∀ member, userByEmail cfg s.directory.users entry.email = .found member →
            HasMfa s.directory member.id
  | _ => True

end Authority
