import IntraCloud.Organizations.Services

/-!
# What the calls of the directory change

For each call, the state it was made in and the rows it adds: an inversion lemma that names the checks the
request has passed. The audit log is left open throughout.
-/

namespace Organizations

open Audit Permissions

/-- The directory under another audit log. -/
def Directory.withAudit (d : Directory) (audit : List AuditEvent) : Directory :=
  { d with tables := { d.tables with audit } }

section withAudit

variable (d : Directory) (log : List AuditEvent)

@[simp] theorem withAudit_users : (d.withAudit log).users = d.users := rfl
@[simp] theorem withAudit_organizations : (d.withAudit log).organizations = d.organizations := rfl
@[simp] theorem withAudit_teams : (d.withAudit log).teams = d.teams := rfl
@[simp] theorem withAudit_memberships : (d.withAudit log).memberships = d.memberships := rfl
@[simp] theorem withAudit_applications : (d.withAudit log).applications = d.applications := rfl
@[simp] theorem withAudit_nextUuid : (d.withAudit log).nextUuid = d.nextUuid := rfl
@[simp] theorem withAudit_permissions :
    (d.withAudit log).tables.permissions = d.tables.permissions := rfl
@[simp] theorem withAudit_roleAssignments :
    (d.withAudit log).tables.roleAssignments = d.tables.roleAssignments := rfl
@[simp] theorem withAudit_resourceGrants :
    (d.withAudit log).tables.resourceGrants = d.tables.resourceGrants := rfl

end withAudit

theorem record_withAudit {d d' : Directory} {e : AuditEvent} (h : d.record e = some d') :
    ∃ log, d' = d.withAudit log := by
  obtain ⟨log, _, rfl⟩ := Option.map_eq_some_iff.1 h
  exact ⟨log, rfl⟩

theorem record_fits {d : Directory} {e : AuditEvent} (h : e.fits = true) :
    d.record e = some (d.withAudit (d.tables.audit ++ [e])) := by
  unfold Directory.record
  rw [Audit.record_of_fits h]
  rfl

theorem recordThen_withAudit (d : Directory) (e : AuditEvent) :
    ∃ log, (d.recordThen e).1 = d.withAudit log := by
  unfold Directory.recordThen
  cases h : d.record e with
  | none => exact ⟨d.tables.audit, rfl⟩
  | some d' => exact record_withAudit h

/-! ## Roles -/

/-- The directory with one more role assignment. -/
def Directory.withRole (d : Directory) (a : RoleAssignment) : Directory :=
  { d with tables := { d.tables with roleAssignments := d.tables.roleAssignments ++ [a] } }

section withRole

variable (d : Directory) (a : RoleAssignment)

@[simp] theorem withRole_users : (d.withRole a).users = d.users := rfl
@[simp] theorem withRole_organizations : (d.withRole a).organizations = d.organizations := rfl
@[simp] theorem withRole_teams : (d.withRole a).teams = d.teams := rfl
@[simp] theorem withRole_memberships : (d.withRole a).memberships = d.memberships := rfl
@[simp] theorem withRole_applications : (d.withRole a).applications = d.applications := rfl
@[simp] theorem withRole_nextUuid : (d.withRole a).nextUuid = d.nextUuid := rfl
@[simp] theorem withRole_permissions :
    (d.withRole a).tables.permissions = d.tables.permissions := rfl
@[simp] theorem withRole_roleAssignments :
    (d.withRole a).tables.roleAssignments = d.tables.roleAssignments ++ [a] := rfl
@[simp] theorem withRole_resourceGrants :
    (d.withRole a).tables.resourceGrants = d.tables.resourceGrants := rfl

end withRole

/-- The user is assigned the role of the slug there. -/
theorem assigned_iff {d : Directory} {user : Uuid} {slug : String} {organization : Uuid} :
    d.assigned user slug (some organization) = true ↔
      ∃ a ∈ d.tables.roleAssignments, a.user = user ∧ a.role.slug = slug ∧
        a.organization = some organization := by
  simp only [Directory.assigned, Option.isSome_some, Bool.true_and, List.any_eq_true,
    Bool.and_eq_true, beq_iff_eq, and_assoc]

/-- The checks of `assign_role`. -/
structure Assigns (cfg : Settings) (d : Directory) (user : User) (slug : String)
    (organization grantedBy : Option Uuid) (role : Role) : Prop where
  known : systemRole? slug = some role
  platformWide : organization = none → slug = PLATFORM_WIDE_ROLE_SLUG
  allowed : cfg.refusesRole user role grantedBy = false
  fresh : d.assigned user.id slug organization = false

/-- The row `assign_role` inserts is always recorded. -/
theorem roleAssigned_record (d : Directory) (actor organization user : Option Uuid)
    (context : List (String × ContextValue)) :
    ∃ log, d.record
        { actor := actor, organization := organization, action := "permissions.role.assign",
          resourceType := "user", resourceId := user, context := context } =
      some (d.withAudit log) := by
  have haction : varcharFits 100 "permissions.role.assign" = true := by decide
  have htype : varcharFits 100 "user" = true := by decide
  exact ⟨_, record_fits (fits_eq haction htype)⟩

/-- A role that is assigned has passed every check, and its row is all that is added. -/
theorem assignRole_ok {cfg : Settings} {d d' : Directory} {user : User} {slug : String}
    {organization grantedBy : Option Uuid}
    (h : assignRole cfg d user slug organization grantedBy = .ok d') :
    ∃ role log, Assigns cfg d user slug organization grantedBy role ∧
      d' = (d.withRole ⟨user.id, role, organization⟩).withAudit log := by
  unfold assignRole at h
  split at h
  · cases h
  rename_i role hrole
  split at h
  · cases h
  rename_i hplatform
  split at h
  · cases h
  rename_i hallowed
  split at h
  · cases h
  rename_i hfresh
  dsimp only at h
  split at h
  · cases h
  rename_i hrecord
  cases h
  obtain ⟨log, rfl⟩ := record_withAudit hrecord
  refine ⟨role, log, ⟨hrole, ?_, ?_, ?_⟩, rfl⟩
  · intro hnone
    have hslug : role.slug = slug := systemRole?_slug hrole
    by_cases heq : slug = PLATFORM_WIDE_ROLE_SLUG
    · exact heq
    · exact absurd ⟨hnone, by rw [hslug]; exact heq⟩ hplatform
  · simpa using hallowed
  · simpa using hfresh

/-- A role that passes every check is assigned. -/
theorem assignRole_of_assigns {cfg : Settings} {d : Directory} {user : User} {slug : String}
    {organization grantedBy : Option Uuid} {role : Role}
    (h : Assigns cfg d user slug organization grantedBy role) :
    ∃ log, assignRole cfg d user slug organization grantedBy =
      .ok ((d.withRole ⟨user.id, role, organization⟩).withAudit log) := by
  have hslug : role.slug = slug := systemRole?_slug h.known
  have hplatform : ¬ (organization = none ∧ role.slug ≠ PLATFORM_WIDE_ROLE_SLUG) := by
    rintro ⟨hnone, hne⟩
    exact hne (hslug.trans (h.platformWide hnone))
  obtain ⟨log, hlog⟩ := roleAssigned_record (d.withRole ⟨user.id, role, organization⟩) grantedBy
    organization (some user.id) [("role", .str slug)]
  refine ⟨log, ?_⟩
  unfold assignRole
  rw [h.known]
  simp only [hplatform, if_false, h.allowed, h.fresh, Bool.false_eq_true]
  split
  · rename_i hnone
    cases hlog.symm.trans hnone
  · rename_i recorded hsome
    exact congrArg Except.ok (Option.some.inj (hsome.symm.trans hlog))

/-- Of the failures of `assign_role` in an organization, only two concern the database. -/
theorem assignRole_error {cfg : Settings} {d : Directory} {user : User} {slug : String}
    {organization : Uuid} {e : RoleError}
    (h : assignRole cfg d user slug (some organization) none = .error e) :
    (e = .doesNotExist ∧ systemRole? slug = none) ∨
      (e = .integrityError ∧ d.assigned user.id slug (some organization) = true) := by
  unfold assignRole at h
  split at h
  · cases h
    exact Or.inl ⟨rfl, by assumption⟩
  rename_i role hrole
  rw [if_neg (by rintro ⟨hnone, -⟩; cases hnone)] at h
  have hrefuses : cfg.refusesRole user role none = false := by
    simp [Settings.refusesRole]
  rw [hrefuses, if_neg (by decide)] at h
  split at h
  · rename_i hassigned
    cases h
    exact Or.inr ⟨rfl, hassigned⟩
  · obtain ⟨log, hlog⟩ := roleAssigned_record
      (d.withRole ⟨user.id, role, some organization⟩) none (some organization) (some user.id)
      [("role", .str slug)]
    dsimp only at h
    split at h
    · rename_i hnone
      cases hlog.symm.trans hnone
    · cases h

/-! ## Organizations -/

/-- The rows of a new organization. -/
def Directory.withOrganization (d : Directory) (name slug : String) (creator : Uuid) : Directory :=
  { d with
    organizations := d.organizations ++ [({ id := d.nextUuid, name, slug } : Organization)]
    memberships := d.memberships ++ [(⟨creator, d.nextUuid, none, .active⟩ : Membership)]
    nextUuid := d.nextUuid + 1 }

/-- Its creator is its administrator. -/
theorem createOrganization_ok {cfg : Settings} {d d' : Directory} {name slug : String}
    {creator : User} {id : Uuid} (h : createOrganization cfg d name slug creator = .ok (d', id)) :
    ∃ role log, systemRole? ORGANIZATION_ADMINISTRATOR = some role ∧ id = d.nextUuid ∧
      d' = ((d.withOrganization name slug creator.id).withRole
        ⟨creator.id, role, some id⟩).withAudit log := by
  unfold createOrganization at h
  split at h
  · cases h
  dsimp only at h
  split at h
  · cases h
  rename_i created hassign
  obtain ⟨role, log, hassigns, rfl⟩ := assignRole_ok hassign
  split at h
  · cases h
  rename_i hrecord
  cases h
  obtain ⟨log', rfl⟩ := record_withAudit hrecord
  exact ⟨role, log', hassigns.known, rfl, rfl⟩

theorem postOrganization_cases (cfg : Settings) (d : Directory) (actor : User) (name : String) :
    (postOrganization cfg d actor name).1 = d ∨
      ∃ role log, systemRole? ORGANIZATION_ADMINISTRATOR = some role ∧
        (postOrganization cfg d actor name).1 =
          ((d.withOrganization name (cfg.slugify name) actor.id).withRole
            ⟨actor.id, role, some d.nextUuid⟩).withAudit log := by
  unfold postOrganization
  cases h : createOrganization cfg d name (cfg.slugify name) actor with
  | error e => exact Or.inl rfl
  | ok created =>
    obtain ⟨d', id⟩ := created
    obtain ⟨role, log, hrole, rfl, rfl⟩ := createOrganization_ok h
    exact Or.inr ⟨role, log, hrole, rfl⟩

/-! ## Lookups -/

theorem getMemberOrganization_some {d : Directory} {user id : Uuid} {o : Organization}
    (h : getMemberOrganization d user id = some o) :
    o ∈ d.organizations ∧ o.id = id ∧ isMember d.memberships user id = true := by
  have hfound := List.find?_some h
  simp only [Bool.and_eq_true, beq_iff_eq] at hfound
  obtain ⟨hid, hmember⟩ := hfound
  refine ⟨List.mem_of_find?_eq_some h, hid, ?_⟩
  rwa [hid] at hmember

theorem getMemberTeam_some {d : Directory} {user id : Uuid} {t : NamedTeam}
    (h : getMemberTeam d user id = some t) :
    t ∈ d.teams ∧ t.id = id ∧ isMember d.memberships user t.organization = true := by
  have hfound := List.find?_some h
  simp only [Bool.and_eq_true, beq_iff_eq] at hfound
  exact ⟨List.mem_of_find?_eq_some h, hfound.1, hfound.2⟩

theorem getMemberApplication_some {d : Directory} {user id : Uuid} {a : Application}
    (h : getMemberApplication d user id = some a) :
    a ∈ d.applications ∧ a.id = id ∧ isMember d.memberships user a.organization = true := by
  have hfound := List.find?_some h
  simp only [Bool.and_eq_true, beq_iff_eq] at hfound
  exact ⟨List.mem_of_find?_eq_some h, hfound.1, hfound.2⟩

/-! ## Members -/

/-- A membership that is added was asked for by someone who may manage users. -/
theorem postMembership_cases (cfg : Settings) (now : Nat) (d : Directory)
    (actor organization : Uuid) (email : String) :
    (postMembership cfg now d actor organization email).1 = d ∨
      ∃ target log, userByEmail cfg d.users email = .found target ∧
        hasPermission d.tables now actor "users.manage" organization none = true ∧
        (∃ o ∈ d.organizations, o.id = organization) ∧
        d.hasMembership target.id organization = false ∧
        (postMembership cfg now d actor organization email).1 =
          Directory.withAudit { d with memberships :=
            d.memberships ++ [⟨target.id, organization, none, .active⟩] } log := by
  unfold postMembership
  cases horg : getMemberOrganization d actor organization with
  | none => exact Or.inl rfl
  | some org =>
    obtain ⟨hmem, rfl, hmember⟩ := getMemberOrganization_some horg
    by_cases hperm : hasPermission d.tables now actor "users.manage" org.id none = true
    · cases htarget : userByEmail cfg d.users email with
      | doesNotExist => simp [hperm]
      | multiple => simp [hperm]
      | found target =>
        by_cases hexists : d.hasMembership target.id org.id = true
        · simp [hperm, hexists]
        · right
          obtain ⟨log, hlog⟩ := recordThen_withAudit
            { d with memberships := d.memberships ++ [⟨target.id, org.id, none, .active⟩] }
            { actor := some actor, organization := some org.id, action := "organization.member.add",
              resourceType := "user", resourceId := some target.id }
          refine ⟨target, log, rfl, hperm, ⟨org, hmem, rfl⟩, by simpa using hexists, ?_⟩
          simpa [hperm, hexists] using hlog
    · simp [hperm]

/-- A role that is assigned was assigned by someone who may manage permissions, to a member. -/
theorem postRole_cases (cfg : Settings) (now : Nat) (d : Directory)
    (actor organization member : Uuid) (slug : String) :
    (postRole cfg now d actor organization member slug).1 = d ∨
      ∃ user role log, d.users.find? (·.id == member) = some user ∧
        (getMemberOrganization d actor organization).isSome = true ∧
        hasPermission d.tables now actor "permissions.manage" organization none = true ∧
        d.hasMembership member organization = true ∧
        Assigns cfg d user slug (some organization) (some actor) role ∧
        (postRole cfg now d actor organization member slug).1 =
          (d.withRole ⟨user.id, role, some organization⟩).withAudit log := by
  unfold postRole
  cases horg : getMemberOrganization d actor organization with
  | none => exact Or.inl rfl
  | some org =>
    obtain ⟨hmem, rfl, hmember⟩ := getMemberOrganization_some horg
    by_cases hperm : hasPermission d.tables now actor "permissions.manage" org.id none = true
    · by_cases hexists : d.hasMembership member org.id = true
      · cases huser : d.users.find? (·.id == member) with
        | none => simp [hperm, hexists]
        | some user =>
          by_cases hknown : (systemRole? slug).isNone = true
          · simp [hperm, hexists, hknown]
          · cases hassign : assignRole cfg d user slug (some org.id) (some actor) with
            | error e => simp [hperm, hexists, hknown, hassign]
            | ok d' =>
              obtain ⟨role, log, hassigns, rfl⟩ := assignRole_ok hassign
              right
              refine ⟨user, role, log, rfl, rfl, hperm, hexists, hassigns, ?_⟩
              simp [hperm, hexists, hknown, hassign]
      · simp [hperm, hexists]
    · simp [hperm]

/-- A request that passes those checks does assign the role. -/
theorem postRole_of_assigns {cfg : Settings} {now : Nat} {d : Directory}
    {actor organization member : Uuid} {slug : String} {org : Organization} {user : User}
    {role : Role} (horg : getMemberOrganization d actor organization = some org)
    (hperm : hasPermission d.tables now actor "permissions.manage" organization none = true)
    (hexists : d.hasMembership member organization = true)
    (huser : d.users.find? (·.id == member) = some user)
    (h : Assigns cfg d user slug (some organization) (some actor) role) :
    ∃ log, (postRole cfg now d actor organization member slug).1 =
      (d.withRole ⟨user.id, role, some organization⟩).withAudit log := by
  obtain ⟨hmem, rfl, hmember⟩ := getMemberOrganization_some horg
  obtain ⟨log, hlog⟩ := assignRole_of_assigns h
  refine ⟨log, ?_⟩
  unfold postRole
  simp [horg, hperm, hexists, huser, h.known, hlog]

theorem postTeam_cases (now : Nat) (d : Directory) (actor organization : Uuid) (name : String) :
    (postTeam now d actor organization name).1 = d ∨
      ∃ log, (∃ o ∈ d.organizations, o.id = organization) ∧
        d.teams.any (fun t => t.organization == organization && t.name == name) = false ∧
        (postTeam now d actor organization name).1 =
          Directory.withAudit { d with
            teams := d.teams ++ [({ id := d.nextUuid, organization, name } : NamedTeam)]
            nextUuid := d.nextUuid + 1 } log := by
  unfold postTeam
  cases horg : getMemberOrganization d actor organization with
  | none => exact Or.inl rfl
  | some org =>
    obtain ⟨hmem, rfl, hmember⟩ := getMemberOrganization_some horg
    by_cases hperm : hasPermission d.tables now actor "users.manage" org.id none = true
    · by_cases hname : d.teams.any (fun t => t.organization == org.id && t.name == name) = true
      · left
        simp only [hperm, hname, Bool.not_true, Bool.false_eq_true, if_false, if_true]
      · right
        obtain ⟨log, hlog⟩ := recordThen_withAudit
          { d with
            teams := d.teams ++ [({ id := d.nextUuid, organization := org.id, name } : NamedTeam)]
            nextUuid := d.nextUuid + 1 }
          { actor := some actor, organization := some org.id,
            action := "organization.team.create", resourceType := "team",
            resourceId := some d.nextUuid, context := [("name", .str name)] }
        refine ⟨log, ⟨org, hmem, rfl⟩, by simpa using hname, ?_⟩
        simp only [hperm, hname, Bool.not_true, Bool.false_eq_true, if_false]
        exact hlog
    · simp [hperm]

/-- Team requests move members of the team's organization only. -/
theorem postTeamMember_cases (now : Nat) (d : Directory) (actor teamId user : Uuid) :
    (postTeamMember now d actor teamId user).1 = d ∨
      ∃ team log, team ∈ d.teams ∧ team.id = teamId ∧
        (postTeamMember now d actor teamId user).1 =
          (d.setTeam user team.organization (fun _ => true) (some team.id)).withAudit log := by
  unfold postTeamMember
  cases hteam : getMemberTeam d actor teamId with
  | none => exact Or.inl rfl
  | some team =>
    obtain ⟨hmem, hid, hmember⟩ := getMemberTeam_some hteam
    by_cases hperm : hasPermission d.tables now actor "users.manage" team.organization none = true
    · by_cases hexists : d.hasMembership user team.organization = true
      · right
        obtain ⟨log, hlog⟩ := recordThen_withAudit
          (d.setTeam user team.organization (fun _ => true) (some team.id))
          { actor := some actor, organization := some team.organization,
            action := "organization.team.member_add", resourceType := "team",
            resourceId := some team.id, context := [("user", .uuid user)] }
        refine ⟨team, log, hmem, hid, ?_⟩
        simpa [hperm, hexists] using hlog
      · simp [hperm, hexists]
    · simp [hperm]

theorem deleteTeamMember_cases (now : Nat) (d : Directory) (actor teamId user : Uuid) :
    (deleteTeamMember now d actor teamId user).1 = d ∨
      ∃ team : NamedTeam, ∃ log, (deleteTeamMember now d actor teamId user).1 =
        (d.setTeam user team.organization (· == some team.id) none).withAudit log := by
  unfold deleteTeamMember
  cases hteam : getMemberTeam d actor teamId with
  | none => exact Or.inl rfl
  | some team =>
    dsimp only
    split
    · exact Or.inl rfl
    split
    · exact Or.inl rfl
    right
    obtain ⟨log, hlog⟩ := recordThen_withAudit
      (d.setTeam user team.organization (· == some team.id) none)
      { actor := some actor, organization := some team.organization,
        action := "organization.team.member_remove", resourceType := "team",
        resourceId := some team.id, context := [("user", .uuid user)] }
    exact ⟨team, log, hlog⟩

/-- A membership after a team request is the one before, up to its team. -/
theorem mem_setTeam {d : Directory} {user organization : Uuid} {current : Option Uuid → Bool}
    {team : Option Uuid} {m : Membership}
    (h : m ∈ (d.setTeam user organization current team).memberships) :
    ∃ old ∈ d.memberships, m.user = old.user ∧ m.organization = old.organization ∧
      m.status = old.status ∧ (m = old ∨ (m.organization = organization ∧ m.team = team)) := by
  obtain ⟨old, hold, heq⟩ := List.mem_map.1 h
  refine ⟨old, hold, ?_⟩
  by_cases hcond : old.user = user ∧ old.organization = organization ∧ current old.team = true
  · rw [if_pos hcond] at heq
    subst heq
    exact ⟨rfl, rfl, rfl, Or.inr ⟨hcond.2.1, rfl⟩⟩
  · rw [if_neg hcond] at heq
    subst heq
    exact ⟨rfl, rfl, rfl, Or.inl rfl⟩

/-! ## Applications -/

theorem registerApplication_cases (d : Directory) (actor organization : Uuid) (name : String) :
    (registerApplication d actor organization name).1 = d ∨
      ∃ log email, (registerApplication d actor organization name).1 =
        Directory.withAudit { d with
          users := d.users ++ [⟨d.nextUuid + 1, email, false⟩]
          applications := d.applications ++ [⟨d.nextUuid, organization, name, d.nextUuid + 1⟩]
          memberships := d.memberships ++ [⟨d.nextUuid + 1, organization, none, .active⟩]
          nextUuid := d.nextUuid + 2 } log := by
  unfold registerApplication
  split
  · exact Or.inl rfl
  · right
    dsimp only
    obtain ⟨log, hlog⟩ := recordThen_withAudit
      { d with
        users := d.users ++ [⟨d.nextUuid + 1, "service-account+" ++
          String.ofList (Nat.toDigits 16 d.nextUuid) ++ "@service.internal", false⟩]
        applications := d.applications ++ [⟨d.nextUuid, organization, name, d.nextUuid + 1⟩]
        memberships := d.memberships ++ [⟨d.nextUuid + 1, organization, none, .active⟩]
        nextUuid := d.nextUuid + 2 }
      { actor := some actor, organization := some organization, action := "application.create",
        resourceType := "application", resourceId := some d.nextUuid,
        context := [("name", .str name)] }
    exact ⟨log, _, hlog⟩

theorem postApplication_cases (now : Nat) (d : Directory) (actor organization : Uuid)
    (name : String) :
    (postApplication now d actor organization name).1 = d ∨
      ((∃ o ∈ d.organizations, o.id = organization) ∧
        (postApplication now d actor organization name).1 =
          (registerApplication d actor organization name).1) := by
  unfold postApplication
  cases horg : getMemberOrganization d actor organization with
  | none => exact Or.inl rfl
  | some org =>
    obtain ⟨hmem, rfl, hmember⟩ := getMemberOrganization_some horg
    by_cases hperm : hasPermission d.tables now actor "application.create" org.id none = true
    · right
      refine ⟨⟨org, hmem, rfl⟩, ?_⟩
      simp [hperm]
    · simp [hperm]

/-- A grant to an application was given by someone who may manage permissions. -/
theorem postApplicationGrant_cases (now : Nat) (d : Directory) (actor application : Uuid)
    (permission resourceType : String) (resourceId : Uuid) (expiresAt : Option Nat) :
    (postApplicationGrant now d actor application permission resourceType resourceId expiresAt).1 = d ∨
      ∃ app grant tables, app ∈ d.applications ∧ app.id = application ∧
        hasPermission d.tables now actor "permissions.manage" app.organization none = true ∧
        grant.organization = app.organization ∧
        tables.roleAssignments = d.tables.roleAssignments ∧
        tables.resourceGrants = d.tables.resourceGrants ++ [grant] ∧
        (postApplicationGrant now d actor application permission resourceType resourceId
          expiresAt).1 = { d with tables } := by
  unfold postApplicationGrant
  cases happ : getMemberApplication d actor application with
  | none => exact Or.inl rfl
  | some app =>
    obtain ⟨hmem, hid, hmember⟩ := getMemberApplication_some happ
    by_cases hperm : hasPermission d.tables now actor "permissions.manage" app.organization none = true
    · simp only [hperm, Bool.not_true, Bool.false_eq_true, if_false]
      split
      · rename_i tables hgrant
        obtain ⟨hgrants, hpermissions, hroles, hfresh⟩ := grantResourcePermission_ok hgrant
        right
        exact ⟨app, _, tables, hmem, hid, hperm, rfl, hroles, hgrants, rfl⟩
      · exact Or.inl rfl
      · exact Or.inl rfl
    · simp [hperm]

end Organizations
