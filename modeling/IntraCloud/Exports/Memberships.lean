import IntraCloud.Organizations.Services
import IntraCloud.Python.Uuid

/-!
# Members and roles in a package

The part of `exports/builder.py` that writes the organization's teams, members and roles into the
manifest, and the part of `exports/restorer.py` that reads them into a new organization. What a package
holds under its workspaces is restored in between.
-/

namespace Exports

open Audit Organizations Permissions Python

/-- An entry of `manifest["organization"]["memberships"]`. -/
structure MembershipEntry where
  email : String
  team : Option String
  roleSlugs : List String
  deriving DecidableEq, Repr

/-- What restoring the workspaces does to the rows here: the events it records and the keys it takes. -/
structure Contents where
  events : List AuditEvent
  keys : Nat
  deriving DecidableEq, Repr

/-- The manifest's `organization`; the contents are none where restoring them raises. -/
structure Package where
  name : String
  teams : List String
  memberships : List MembershipEntry
  contents : Option Contents
  deriving DecidableEq, Repr

/-! ## Export -/

/-- The slugs of the user's roles in the organization. -/
def roleSlugs (d : Directory) (user organization : Uuid) : List String :=
  (d.tables.roleAssignments.filter fun a =>
    a.user == user && a.organization == some organization &&
      SYSTEM_ROLES.any (·.slug == a.role.slug)).map (·.role.slug)

/-- `membership.user.email`. -/
def emailOf (d : Directory) (user : Uuid) : String :=
  ((d.users.find? (·.id == user)).map (·.email)).getD ""

/-- The name of a team. -/
def teamName (d : Directory) (team : Uuid) : Option String :=
  (d.teams.find? (·.id == team)).map (·.name)

/-- An entry of `memberships_payload`. -/
def exportMembership (d : Directory) (m : Membership) : MembershipEntry :=
  { email := emailOf d m.user, team := m.team.bind (teamName d),
    roleSlugs := roleSlugs d m.user m.organization }

/-- The members, roles and teams `build_export` writes. -/
def exportOrganization (d : Directory) (organization : Organization)
    (contents : Option Contents) : Package :=
  { name := organization.name,
    teams := (d.teams.filter (·.organization == organization.id)).map (·.name),
    memberships := (d.memberships.filter fun m =>
      m.organization == organization.id && m.status == .active).map (exportMembership d),
    contents }

/-! ## Restore -/

/-- A `varchar(n)` column takes the string; it cannot hold the character NUL. -/
def columnAccepts (n : Nat) (s : String) : Bool :=
  varcharFits n s && !s.toList.contains '\x00'

/-- A warning `could not restore role ... for ...`. -/
structure RoleWarning where
  roleSlug : String
  email : String
  deriving DecidableEq, Repr

/-- What `RestoreReport` says of the members. -/
structure RestoreReport where
  membershipsRestored : Nat := 0
  membershipsSkipped : List String := []
  warnings : List RoleWarning := []
  deriving DecidableEq, Repr

/-- A restore under way. Once a statement has failed in the transaction, PostgreSQL refuses every other
one until it ends, and its `COMMIT` is a rollback. -/
structure Restoring where
  directory : Directory
  aborted : Bool
  report : RestoreReport
  deriving DecidableEq, Repr

/-- The loop over `org_data["teams"]`; a failed insert raises. -/
def restoreTeams (organization : Uuid) : List String → Directory → Option Directory
  | [], d => some d
  | name :: names, d =>
    if !columnAccepts 200 name ||
        d.teams.any (fun t => t.organization == organization && t.name == name) then none
    else
      restoreTeams organization names
        { d with
          teams := d.teams ++ [({ id := d.nextUuid, organization, name } : NamedTeam)]
          nextUuid := d.nextUuid + 1 }

/-- `team_by_name.get(name) if name else None`. -/
def teamByName (d : Directory) (organization : Uuid) (name : Option String) : Option Uuid :=
  match name with
  | none => none
  | some name =>
    if name = "" then none
    else (d.teams.find? fun t => t.organization == organization && t.name == name).map (·.id)

/-- One role of an entry: every failure becomes a warning. -/
def restoreRole (cfg : Settings) (organization : Uuid) (user : User) (email : String)
    (s : Restoring) (slug : String) : Restoring :=
  if slug = ORGANIZATION_ADMINISTRATOR then s
  else
    let warned := { s.report with warnings := s.report.warnings ++ [⟨slug, email⟩] }
    if s.aborted then { s with report := warned }
    else
      match assignRole cfg s.directory user slug (some organization) none with
      | .ok directory => { s with directory }
      | .error .doesNotExist | .error (.permissionError _) => { s with report := warned }
      | .error .integrityError | .error .dataError => { s with aborted := true, report := warned }

/-- `Membership.objects.get_or_create`. -/
def getOrCreateMembership (d : Directory) (organization : Uuid) (user : Uuid)
    (team : Option Uuid) : Directory :=
  if d.hasMembership user organization then d
  else { d with memberships := d.memberships ++ [(⟨user, organization, team, .active⟩ : Membership)] }

/-- The account an entry is restored to. -/
def account (cfg : Settings) (users : List User) (entry : MembershipEntry) : Option User :=
  match userByEmail cfg users entry.email with
  | .found user => some user
  | .doesNotExist | .multiple => none

/-- The body of the loop of `_restore_memberships`. -/
def restoreMembership (cfg : Settings) (organization : Uuid) (s : Restoring)
    (entry : MembershipEntry) : Option Restoring :=
  if s.aborted || entry.email.toList.contains '\x00' then none
  else
    match userByEmail cfg s.directory.users entry.email with
    | .multiple => none
    | .doesNotExist =>
      some { s with report := { s.report with
        membershipsSkipped := s.report.membershipsSkipped ++ [entry.email] } }
    | .found user =>
      let team := teamByName s.directory organization entry.team
      let s := { s with directory := getOrCreateMembership s.directory organization user.id team }
      let s := entry.roleSlugs.foldl (restoreRole cfg organization user entry.email) s
      some { s with report := { s.report with
        membershipsRestored := s.report.membershipsRestored + 1 } }

/-- `_restore_memberships`. -/
def restoreMemberships (cfg : Settings) (organization : Uuid) :
    List MembershipEntry → Restoring → Option Restoring
  | [], s => some s
  | entry :: entries, s =>
    (restoreMembership cfg organization s entry).bind (restoreMemberships cfg organization entries)

/-- The events and keys of the contents. -/
def Contents.apply (c : Contents) (d : Directory) : Directory :=
  { d with tables := { d.tables with audit := d.tables.audit ++ c.events },
           nextUuid := d.nextUuid + c.keys }

/-- `restore_package`, with the id of the new organization, or `none` where it raises. The draws are the
random parts of the slug; one is drawn until the slug is free. -/
def restorePackage (cfg : Settings) (d : Directory) (actor : User) (draws : List String)
    (pkg : Package) : Option (Directory × Uuid × RestoreReport) :=
  if !columnAccepts 200 pkg.name then none
  else do
    let draw ← draws.find? fun draw =>
      !d.organizations.any (·.slug == cfg.slugify pkg.name ++ "-" ++ draw)
    let (created, organization) ←
      (createOrganization cfg d pkg.name (cfg.slugify pkg.name ++ "-" ++ draw) actor).toOption
    let withTeams ← restoreTeams organization pkg.teams created
    let contents ← pkg.contents
    let s ← restoreMemberships cfg organization pkg.memberships
      { directory := contents.apply withTeams, aborted := false, report := {} }
    return (if s.aborted then d else s.directory, organization, s.report)

/-! ## The slug of a restored organization -/

/-- `uuid.uuid4().hex[:8]`. -/
def uuidDraw (uuid : Nat) : String := String.ofList ((hexText 32 uuid).take 8)

/-- The slug with a draw. -/
def drawnSlug (cfg : Settings) (name : String) (uuid : Nat) : String :=
  cfg.slugify name ++ "-" ++ uuidDraw uuid

/-- `Organization.objects.filter(slug=slug).exists()`. -/
def hasSlug (d : Directory) (slug : String) : Bool := d.organizations.any (·.slug == slug)

/-- The slug that `restore_package` generates, where the draws come to one that is free. -/
def restoredSlug? (cfg : Settings) (d : Directory) (name : String) (uuids : List Nat) : Option String :=
  (uuids.map (drawnSlug cfg name)).find? fun slug => !hasSlug d slug

/-- Whatever organizations there are and whatever is drawn, once a draw is free the generated slug is unused and
fits its column, and the organization can be created. -/
def RestoresUnderSlug (cfg : Settings) (name : String) : Prop :=
  ∀ (d : Directory) (uuids : List Nat),
    (∃ uuid ∈ uuids, hasSlug d (drawnSlug cfg name uuid) = false) →
      ∃ slug, restoredSlug? cfg d name uuids = some slug ∧ hasSlug d slug = false ∧ slug.length ≤ 200 ∧
        d.organizationInsertable name slug = true

/-! ## What a restore owes the members

Each exported member with an account is to end up with the roles and the team of the package's entry, or the
report is to name what was dropped. `Portable` is the condition on the entries and the accounts under which
this happens. -/

/-- The user's rows in the organization. -/
def membershipRows (organization user : Uuid) (memberships : List Membership) : List Membership :=
  memberships.filter fun m => m.user == user && m.organization == organization

/-- The member has in the organization what the entry says: one active membership, in the team of that
name, and exactly the roles, but for those the report names. -/
structure Faithful (d : Directory) (organization : Uuid) (report : RestoreReport) (user : Uuid)
    (entry : MembershipEntry) : Prop where
  member : ∃ team, membershipRows organization user d.memberships =
    [⟨user, organization, team, .active⟩] ∧ team.bind (teamName d) = entry.team
  roles : ∀ slug ∈ entry.roleSlugs, d.assigned user slug (some organization) = true ∨
    ⟨slug, entry.email⟩ ∈ report.warnings
  only : ∀ slug, d.assigned user slug (some organization) = true → slug ∈ entry.roleSlugs

/-- Every entry with an account is restored faithfully. -/
def RestoresMembers (cfg : Settings) (target : Directory) (pkg : Package)
    (result : Directory × Uuid × RestoreReport) : Prop :=
  ∀ entry ∈ pkg.memberships, ∀ user, userByEmail cfg target.users entry.email = .found user →
    Faithful result.1 result.2.1 result.2.2 user.id entry

/-- Two entries do not meet in one account, unless they say the same and no role has to be assigned. -/
def Independent (cfg : Settings) (users : List User) (e f : MembershipEntry) : Prop :=
  ∀ user ∈ account cfg users e, ∀ user' ∈ account cfg users f, user.id = user'.id →
    (∀ slug ∈ e.roleSlugs, slug = ORGANIZATION_ADMINISTRATOR) ∧
      (∀ slug ∈ f.roleSlugs, slug = ORGANIZATION_ADMINISTRATOR) ∧ e.team = f.team

/-- Nobody but the restoring user is an administrator of the organization, or in a team without a name; the
restoring user, if exported, is one and in no team; and entries are independent. -/
structure Portable (cfg : Settings) (users : List User) (actor : User)
    (memberships : List MembershipEntry) : Prop where
  others : ∀ entry ∈ memberships, ∀ user ∈ account cfg users entry, user.id ≠ actor.id →
    ORGANIZATION_ADMINISTRATOR ∉ entry.roleSlugs ∧ entry.team ≠ some ""
  restoring : ∀ entry ∈ memberships, ∀ user ∈ account cfg users entry, user.id = actor.id →
    ORGANIZATION_ADMINISTRATOR ∈ entry.roleSlugs ∧ entry.team = none
  independent : memberships.Pairwise (Independent cfg users)

end Exports
