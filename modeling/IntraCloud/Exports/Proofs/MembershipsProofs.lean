import IntraCloud.Exports.Memberships
import IntraCloud.Organizations.Proofs.DirectoryProofs

/-!
# What a restore does to the directory

The role rows a list of entries comes to, and why the transaction survives exactly where no role is
assigned twice: `Ran` describes a stretch of the restore, one role, one entry or all of them.
-/

namespace Exports

open Audit Organizations Permissions

/-! ## Rows -/

/-- The row a role of an entry comes to. -/
def restoredRole (organization : Uuid) (user : Uuid) (slug : String) : Option RoleAssignment :=
  if slug = ORGANIZATION_ADMINISTRATOR then none
  else (systemRole? slug).map fun role => ⟨user, role, some organization⟩

/-- The rows an entry comes to. -/
def entryRoles (cfg : Settings) (users : List User) (organization : Uuid)
    (entry : MembershipEntry) : List RoleAssignment :=
  match account cfg users entry with
  | none => []
  | some user => entry.roleSlugs.filterMap (restoredRole organization user.id)

theorem restoredRole_some {organization user : Uuid} {slug : String} {a : RoleAssignment}
    (h : restoredRole organization user slug = some a) :
    slug ≠ ORGANIZATION_ADMINISTRATOR ∧ systemRole? slug = some a.role ∧ a.role.slug = slug ∧
      a.user = user ∧ a.organization = some organization := by
  unfold restoredRole at h
  split at h
  · cases h
  rename_i hslug
  obtain ⟨role, hrole, rfl⟩ := Option.map_eq_some_iff.1 h
  exact ⟨hslug, hrole, systemRole?_slug hrole, rfl, rfl⟩

theorem mem_entryRoles {cfg : Settings} {users : List User} {organization : Uuid}
    {entry : MembershipEntry} {a : RoleAssignment}
    (h : a ∈ entryRoles cfg users organization entry) :
    ∃ user, account cfg users entry = some user ∧ ∃ slug ∈ entry.roleSlugs,
      restoredRole organization user.id slug = some a := by
  unfold entryRoles at h
  cases haccount : account cfg users entry with
  | none => rw [haccount] at h; cases h
  | some user =>
    rw [haccount] at h
    obtain ⟨slug, hslug, ha⟩ := List.mem_filterMap.1 h
    exact ⟨user, rfl, slug, hslug, ha⟩

theorem entryRoles_organization {cfg : Settings} {users : List User} {organization : Uuid}
    {entry : MembershipEntry} {a : RoleAssignment}
    (h : a ∈ entryRoles cfg users organization entry) : a.organization = some organization := by
  obtain ⟨user, -, slug, -, ha⟩ := mem_entryRoles h
  exact (restoredRole_some ha).2.2.2.2

/-! ## A stretch of the restore -/

/-- The rows a restore of members does not touch. -/
structure SameRows (d d' : Directory) : Prop where
  users : d'.users = d.users
  organizations : d'.organizations = d.organizations
  teams : d'.teams = d.teams
  applications : d'.applications = d.applications
  permissions : d'.tables.permissions = d.tables.permissions
  resourceGrants : d'.tables.resourceGrants = d.tables.resourceGrants
  nextUuid : d'.nextUuid = d.nextUuid

theorem SameRows.refl (d : Directory) : SameRows d d := ⟨rfl, rfl, rfl, rfl, rfl, rfl, rfl⟩

theorem SameRows.trans {d d' d'' : Directory} (h : SameRows d d') (h' : SameRows d' d'') :
    SameRows d d'' :=
  ⟨h'.users.trans h.users, h'.organizations.trans h.organizations, h'.teams.trans h.teams,
    h'.applications.trans h.applications, h'.permissions.trans h.permissions,
    h'.resourceGrants.trans h.resourceGrants, h'.nextUuid.trans h.nextUuid⟩

/-- From `s`, whose transaction is alive, the restore went on to `s'` by way of these role rows: it is
still alive where they repeat nothing, and then they are what was added. -/
structure Ran (organization : Uuid) (rows : List RoleAssignment) (s s' : Restoring) : Prop where
  rest : SameRows s.directory s'.directory
  alive : s'.aborted = false ↔ (rolesIn organization s.directory ++ roleKeys rows).Nodup
  roles : s'.aborted = false →
    s'.directory.tables.roleAssignments = s.directory.tables.roleAssignments ++ rows
  warnings : s'.aborted = false → ∀ w ∈ s'.report.warnings,
    w ∈ s.report.warnings ∨ systemRole? w.roleSlug = none

/-- A stretch that adds no role. -/
theorem Ran.of_same {organization : Uuid} {s s' : Restoring}
    (hnodup : (rolesIn organization s.directory).Nodup) (hrest : SameRows s.directory s'.directory)
    (halive : s'.aborted = false)
    (hroles : s'.directory.tables.roleAssignments = s.directory.tables.roleAssignments)
    (hwarnings : ∀ w ∈ s'.report.warnings,
      w ∈ s.report.warnings ∨ systemRole? w.roleSlug = none) :
    Ran organization [] s s' := by
  refine ⟨hrest, ?_, fun _ => by rw [hroles, List.append_nil], fun _ => hwarnings⟩
  have happend : rolesIn organization s.directory ++ roleKeys [] =
      rolesIn organization s.directory := List.append_nil _
  rw [happend]
  exact ⟨fun _ => hnodup, fun _ => halive⟩

/-- One stretch after another; once the transaction is aborted it stays so. -/
theorem Ran.trans {organization : Uuid} {rows rows' : List RoleAssignment} {s s' s'' : Restoring}
    (h : Ran organization rows s s') (hrows : ∀ a ∈ rows, a.organization = some organization)
    (hrest : SameRows s'.directory s''.directory)
    (hdead : s'.aborted = true → s''.aborted = true)
    (h' : s'.aborted = false → Ran organization rows' s' s'') :
    Ran organization (rows ++ rows') s s'' := by
  have hkeys : rolesIn organization s.directory ++ roleKeys (rows ++ rows') =
      (rolesIn organization s.directory ++ roleKeys rows) ++ roleKeys rows' := by
    rw [List.append_assoc]
    exact congrArg _ List.map_append
  have hback : s''.aborted = false → s'.aborted = false := by
    intro halive
    cases hs : s'.aborted with
    | false => rfl
    | true => rw [hdead hs] at halive; cases halive
  have hroles : s'.aborted = false → rolesIn organization s'.directory =
      rolesIn organization s.directory ++ roleKeys rows :=
    fun halive => rolesIn_append (h.roles halive) hrows
  refine ⟨h.rest.trans hrest, ?_, fun halive => ?_, fun halive w hw => ?_⟩
  · rw [hkeys]
    constructor
    · intro halive
      rw [← hroles (hback halive)]
      exact (h' (hback halive)).alive.1 halive
    · intro hnodup
      have halive : s'.aborted = false := h.alive.2 (List.nodup_append.1 hnodup).1
      rw [← hroles halive] at hnodup
      exact (h' halive).alive.2 hnodup
  · rw [(h' (hback halive)).roles halive, h.roles (hback halive), List.append_assoc]
  · rcases (h' (hback halive)).warnings halive w hw with hw | hw
    · exact h.warnings (hback halive) w hw
    · exact Or.inr hw

/-! ## One role -/

section Role

variable {cfg : Settings} {organization : Uuid} {user : User} {email : String}

theorem restoreRole_memberships (s : Restoring) (slug : String) :
    (restoreRole cfg organization user email s slug).directory.memberships =
      s.directory.memberships := by
  unfold restoreRole
  split
  · rfl
  split
  · rfl
  split
  · rename_i hok
    obtain ⟨role, log, -, rfl⟩ := assignRole_ok hok
    rfl
  all_goals rfl

theorem restoreRole_rest (s : Restoring) (slug : String) :
    SameRows s.directory (restoreRole cfg organization user email s slug).directory := by
  unfold restoreRole
  split
  · exact SameRows.refl _
  split
  · exact SameRows.refl _
  split
  · rename_i hok
    obtain ⟨role, log, -, rfl⟩ := assignRole_ok hok
    exact ⟨rfl, rfl, rfl, rfl, rfl, rfl, rfl⟩
  all_goals exact SameRows.refl _

theorem restoreRole_aborted {s : Restoring} (slug : String) (h : s.aborted = true) :
    (restoreRole cfg organization user email s slug).aborted = true := by
  unfold restoreRole
  split
  · exact h
  · simp [h]

theorem restoreRole_ran {s : Restoring} (slug : String) (h : s.aborted = false)
    (hnodup : (rolesIn organization s.directory).Nodup) :
    Ran organization (restoredRole organization user.id slug).toList s
      (restoreRole cfg organization user email s slug) := by
  have hrest : SameRows s.directory
      (restoreRole cfg organization user email s slug).directory := restoreRole_rest s slug
  by_cases hadmin : slug = ORGANIZATION_ADMINISTRATOR
  · have hrow : restoredRole organization user.id slug = none := by simp [restoredRole, hadmin]
    have hsame : restoreRole cfg organization user email s slug = s := by
      simp [restoreRole, hadmin]
    rw [hrow, hsame]
    exact Ran.of_same hnodup (SameRows.refl _) h rfl fun w hw => Or.inl hw
  cases hassign : assignRole cfg s.directory user slug (some organization) none with
  | error e =>
    rcases assignRole_error hassign with ⟨rfl, hunknown⟩ | ⟨rfl, hassigned⟩
    · have hrow : restoredRole organization user.id slug = none := by
        simp [restoredRole, hadmin, hunknown]
      rw [hrow]
      refine Ran.of_same hnodup hrest ?_ ?_ ?_
      · simp [restoreRole, hadmin, h, hassign]
      · simp [restoreRole, hadmin, h, hassign]
      · intro w hw
        simp only [restoreRole, hadmin, if_false, h, Bool.false_eq_true, hassign] at hw
        rcases List.mem_append.1 hw with hw | hw
        · exact Or.inl hw
        · rw [List.mem_singleton.1 hw]
          exact Or.inr hunknown
    · -- the constraint refuses the row, and with it every later statement
      have haborted : (restoreRole cfg organization user email s slug).aborted = true := by
        simp [restoreRole, hadmin, h, hassign]
      obtain ⟨role, hrole⟩ : ∃ role, systemRole? slug = some role := by
        obtain ⟨a, ha⟩ : ∃ a, systemRole? slug = a := ⟨_, rfl⟩
        cases a with
        | some role => exact ⟨role, ha⟩
        | none => simp [assignRole, ha] at hassign
      have hrow : restoredRole organization user.id slug =
          some ⟨user.id, role, some organization⟩ := by
        simp [restoredRole, hadmin, hrole]
      refine ⟨hrest, ?_, fun halive => ?_, fun halive => ?_⟩
      · rw [haborted, hrow]
        constructor
        · intro hfalse
          cases hfalse
        intro hnodup
        have hmem : (user.id, role.slug) ∈ rolesIn organization s.directory := by
          rw [mem_rolesIn, systemRole?_slug hrole]
          exact hassigned
        have hdisjoint := (List.nodup_append.1 hnodup).2.2
        exact absurd rfl (hdisjoint _ hmem _ (List.mem_singleton.2 rfl))
      · rw [haborted] at halive; cases halive
      · rw [haborted] at halive; cases halive
  | ok d =>
    obtain ⟨role, log, hassigns, rfl⟩ := assignRole_ok hassign
    have hrow : restoredRole organization user.id slug =
        some ⟨user.id, role, some organization⟩ := by
      simp [restoredRole, hadmin, hassigns.known]
    have hnew : restoreRole cfg organization user email s slug =
        { s with directory :=
            (s.directory.withRole ⟨user.id, role, some organization⟩).withAudit log } := by
      simp [restoreRole, hadmin, h, hassign]
    refine ⟨hrest, ?_, fun _ => ?_, fun _ w hw => ?_⟩
    · rw [hnew, hrow]
      refine ⟨fun _ => ?_, fun _ => h⟩
      refine List.nodup_append.2 ⟨hnodup, List.nodup_singleton _, ?_⟩
      intro a ha b hb hab
      have hkey : a = (user.id, slug) := by
        rw [hab, List.mem_singleton.1 hb, ← systemRole?_slug hassigns.known]
      rw [hkey, mem_rolesIn, hassigns.fresh] at ha
      cases ha
    · rw [hnew, hrow]
      rfl
    · rw [hnew] at hw
      exact Or.inl hw

/-! ## The roles of an entry -/

theorem restoreRoles_memberships (slugs : List String) (s : Restoring) :
    (slugs.foldl (restoreRole cfg organization user email) s).directory.memberships =
      s.directory.memberships := by
  induction slugs generalizing s with
  | nil => rfl
  | cons slug slugs ih => exact (ih _).trans (restoreRole_memberships s slug)

theorem restoreRoles_rest (slugs : List String) (s : Restoring) :
    SameRows s.directory
      (slugs.foldl (restoreRole cfg organization user email) s).directory := by
  induction slugs generalizing s with
  | nil => exact SameRows.refl _
  | cons slug slugs ih => exact (restoreRole_rest s slug).trans (ih _)

theorem restoreRoles_aborted (slugs : List String) {s : Restoring} (h : s.aborted = true) :
    (slugs.foldl (restoreRole cfg organization user email) s).aborted = true := by
  induction slugs generalizing s with
  | nil => exact h
  | cons slug slugs ih => exact ih (restoreRole_aborted slug h)

theorem restoreRoles_ran (slugs : List String) {s : Restoring} (h : s.aborted = false)
    (hnodup : (rolesIn organization s.directory).Nodup) :
    Ran organization (slugs.filterMap (restoredRole organization user.id)) s
      (slugs.foldl (restoreRole cfg organization user email) s) := by
  induction slugs generalizing s with
  | nil =>
    exact Ran.of_same hnodup (SameRows.refl _) h rfl fun w hw => Or.inl hw
  | cons slug slugs ih =>
    have hfirst : Ran organization (restoredRole organization user.id slug).toList s
        (restoreRole cfg organization user email s slug) := restoreRole_ran slug h hnodup
    have hrows : ∀ a ∈ (restoredRole organization user.id slug).toList,
        a.organization = some organization := by
      intro a ha
      exact (restoredRole_some (Option.mem_toList.1 ha)).2.2.2.2
    have hsplit : (slug :: slugs).filterMap (restoredRole organization user.id) =
        (restoredRole organization user.id slug).toList ++
          slugs.filterMap (restoredRole organization user.id) := by
      cases hrow : restoredRole organization user.id slug <;> simp [hrow]
    rw [hsplit]
    refine hfirst.trans hrows (restoreRoles_rest slugs _) (restoreRoles_aborted slugs) ?_
    intro halive
    refine ih halive ?_
    rw [rolesIn_append (hfirst.roles halive) hrows]
    exact hfirst.alive.1 halive

end Role

/-! ## Entries -/

theorem hasMembership_iff {d : Directory} {user organization : Uuid} :
    d.hasMembership user organization = true ↔
      membershipRows organization user d.memberships ≠ [] := by
  simp [Directory.hasMembership, membershipRows, List.filter_eq_nil_iff]

/-- `get_or_create` adds a row for a user who has none, and changes no one else's. -/
theorem membershipRows_getOrCreate (d : Directory) (organization user other : Uuid)
    (team : Option Uuid) :
    membershipRows organization other
        (getOrCreateMembership d organization user team).memberships =
      if other = user ∧ membershipRows organization user d.memberships = [] then
        [⟨user, organization, team, .active⟩]
      else membershipRows organization other d.memberships := by
  unfold getOrCreateMembership
  by_cases hexists : d.hasMembership user organization = true
  · have hrows := hasMembership_iff.1 hexists
    rw [if_pos hexists, if_neg (fun h => hrows h.2)]
  · have hrows : membershipRows organization user d.memberships = [] := by
      by_cases hrows : membershipRows organization user d.memberships = []
      · exact hrows
      · exact absurd (hasMembership_iff.2 hrows) hexists
    rw [if_neg hexists]
    have happend : membershipRows organization other
        (d.memberships ++ [⟨user, organization, team, .active⟩]) =
        membershipRows organization other d.memberships ++
          membershipRows organization other [⟨user, organization, team, .active⟩] :=
      List.filter_append _ _
    by_cases hother : other = user
    · subst hother
      rw [if_pos ⟨rfl, hrows⟩]
      change membershipRows organization other (d.memberships ++ _) = _
      rw [happend, hrows]
      simp [membershipRows]
    · rw [if_neg (fun h => hother h.1)]
      change membershipRows organization other (d.memberships ++ _) = _
      have hne : ¬ user = other := fun h => hother h.symm
      rw [happend]
      simp [membershipRows, hne]

theorem sameRows_getOrCreate (d : Directory) (organization user : Uuid) (team : Option Uuid) :
    SameRows d (getOrCreateMembership d organization user team) := by
  unfold getOrCreateMembership
  split
  · exact SameRows.refl d
  · exact ⟨rfl, rfl, rfl, rfl, rfl, rfl, rfl⟩

theorem tables_getOrCreate (d : Directory) (organization user : Uuid) (team : Option Uuid) :
    (getOrCreateMembership d organization user team).tables = d.tables := by
  unfold getOrCreateMembership
  split <;> rfl

section Entries

variable {cfg : Settings} {organization : Uuid}

/-- One entry: its roles, and a membership for its account. -/
theorem restoreMembership_some {s s' : Restoring} {entry : MembershipEntry}
    (hnodup : (rolesIn organization s.directory).Nodup)
    (h : restoreMembership cfg organization s entry = some s') :
    s.aborted = false ∧
      Ran organization (entryRoles cfg s.directory.users organization entry) s s' ∧
      s'.directory.memberships = match account cfg s.directory.users entry with
        | none => s.directory.memberships
        | some user => (getOrCreateMembership s.directory organization user.id
            (teamByName s.directory organization entry.team)).memberships := by
  unfold restoreMembership at h
  split at h
  · cases h
  rename_i hguard
  have halive : s.aborted = false := by
    cases hs : s.aborted with
    | false => rfl
    | true => simp [hs] at hguard
  refine ⟨halive, ?_⟩
  split at h
  · cases h
  · rename_i hlookup
    have haccount : account cfg s.directory.users entry = none := by
      unfold account; rw [hlookup]
    cases h
    rw [entryRoles, haccount]
    exact ⟨Ran.of_same hnodup (SameRows.refl _) halive rfl fun w hw => Or.inl hw, rfl⟩
  · rename_i user hlookup
    have haccount : account cfg s.directory.users entry = some user := by
      unfold account; rw [hlookup]
    cases h
    rw [entryRoles, haccount]
    dsimp only
    have hsame := sameRows_getOrCreate s.directory organization user.id
      (teamByName s.directory organization entry.team)
    have htables := tables_getOrCreate s.directory organization user.id
      (teamByName s.directory organization entry.team)
    generalize getOrCreateMembership s.directory organization user.id
      (teamByName s.directory organization entry.team) = joined at hsame htables
    have hrolesIn : rolesIn organization joined = rolesIn organization s.directory := by
      unfold rolesIn
      rw [htables]
    have hnodup' : (rolesIn organization joined).Nodup := by
      rw [hrolesIn]
      exact hnodup
    have hran : Ran organization (entry.roleSlugs.filterMap (restoredRole organization user.id))
        ⟨joined, s.aborted, s.report⟩ (entry.roleSlugs.foldl
          (restoreRole cfg organization user entry.email) ⟨joined, s.aborted, s.report⟩) :=
      restoreRoles_ran entry.roleSlugs halive hnodup'
    refine ⟨⟨hsame.trans hran.rest, ?_, fun ha => ?_, hran.warnings⟩, ?_⟩
    · rw [← hrolesIn]
      exact hran.alive
    · rw [← htables]
      exact hran.roles ha
    · exact restoreRoles_memberships entry.roleSlugs _

/-- The row the entries leave for a user who had none: of the first entry with this account. -/
def firstRow (cfg : Settings) (d : Directory) (organization user : Uuid)
    (entries : List MembershipEntry) : List Membership :=
  ((entries.find? fun e => (account cfg d.users e).any (·.id == user)).map fun e =>
    (⟨user, organization, teamByName d organization e.team, .active⟩ : Membership)).toList

/-- `firstRow` looks at users and teams only. -/
theorem firstRow_congr {d d' : Directory} (h : SameRows d d') (organization user : Uuid)
    (entries : List MembershipEntry) :
    firstRow cfg d' organization user entries = firstRow cfg d organization user entries := by
  unfold firstRow teamByName
  rw [h.users, h.teams]

theorem restoreMemberships_some {entries : List MembershipEntry} {s s' : Restoring}
    (halive : s.aborted = false) (hnodup : (rolesIn organization s.directory).Nodup)
    (h : restoreMemberships cfg organization entries s = some s') :
    Ran organization (entries.flatMap (entryRoles cfg s.directory.users organization)) s s' ∧
      ∀ user, membershipRows organization user s'.directory.memberships =
        if membershipRows organization user s.directory.memberships = [] then
          firstRow cfg s.directory organization user entries
        else membershipRows organization user s.directory.memberships := by
  induction entries generalizing s with
  | nil =>
    obtain rfl : s = s' := Option.some.inj h
    refine ⟨Ran.of_same hnodup (SameRows.refl _) halive rfl fun w hw => Or.inl hw, fun user => ?_⟩
    by_cases hrows : membershipRows organization user s.directory.memberships = []
    · rw [if_pos hrows, hrows]
      rfl
    · rw [if_neg hrows]
  | cons entry entries ih =>
    obtain ⟨middle, hentry, hrest⟩ := Option.bind_eq_some_iff.1 h
    obtain ⟨-, hran, hmembers⟩ := restoreMembership_some hnodup hentry
    have hrows : ∀ a ∈ entryRoles cfg s.directory.users organization entry,
        a.organization = some organization := fun a ha => entryRoles_organization ha
    -- where the entry breaks the transaction, there is no entry after it
    have hsplit : middle.aborted = false ∨ (middle.aborted = true ∧ entries = [] ∧ s' = middle) := by
      cases hm : middle.aborted with
      | false => exact Or.inl rfl
      | true =>
        right
        cases entries with
        | nil => cases hrest; exact ⟨rfl, rfl, rfl⟩
        | cons e es =>
          obtain ⟨m, he, -⟩ := Option.bind_eq_some_iff.1 hrest
          simp [restoreMembership, hm] at he
    have hall : Ran organization
        ((entry :: entries).flatMap (entryRoles cfg s.directory.users organization)) s s' ∧
        ∀ user, membershipRows organization user s'.directory.memberships =
          if membershipRows organization user middle.directory.memberships = [] then
            firstRow cfg s.directory organization user entries
          else membershipRows organization user middle.directory.memberships := by
      rcases hsplit with hm | ⟨hm, rfl, rfl⟩
      · have hnodup' : (rolesIn organization middle.directory).Nodup := by
          rw [rolesIn_append (hran.roles hm) hrows]
          exact hran.alive.1 hm
        obtain ⟨hran', hmembers'⟩ := ih hm hnodup' hrest
        rw [hran.rest.users] at hran'
        refine ⟨?_, fun user => ?_⟩
        · exact hran.trans hrows hran'.rest
            (fun hdead => by rw [hm] at hdead; cases hdead) (fun _ => hran')
        · rw [hmembers' user, firstRow_congr hran.rest]
      · refine ⟨?_, fun user => ?_⟩
        · have hone : ([entry].flatMap (entryRoles cfg s.directory.users organization)) =
              entryRoles cfg s.directory.users organization entry := by simp
          rw [hone]
          exact hran
        · by_cases hnone : membershipRows organization user s'.directory.memberships = []
          · rw [if_pos hnone, hnone]
            rfl
          · rw [if_neg hnone]
    refine ⟨hall.1, fun user => ?_⟩
    rw [hall.2 user, hmembers]
    cases haccount : account cfg s.directory.users entry with
    | none =>
      have hskip : firstRow cfg s.directory organization user (entry :: entries) =
          firstRow cfg s.directory organization user entries := by
        simp [firstRow, haccount]
      rw [hskip]
    | some found =>
      dsimp only
      rw [membershipRows_getOrCreate]
      by_cases huser : user = found.id
      · have hfirst : firstRow cfg s.directory organization user (entry :: entries) =
            [⟨user, organization, teamByName s.directory organization entry.team, .active⟩] := by
          simp [firstRow, haccount, huser]
        subst huser
        by_cases hnone : membershipRows organization found.id s.directory.memberships = []
        · simp [hnone, hfirst]
        · simp [hnone]
      · have hskip : firstRow cfg s.directory organization user (entry :: entries) =
            firstRow cfg s.directory organization user entries := by
          have hne : ¬ found.id = user := fun h => huser h.symm
          simp [firstRow, haccount, hne]
        simp [huser, hskip]

/-- Every membership afterwards was there or is of the new organization. -/
theorem mem_restoreMemberships {entries : List MembershipEntry} {s s' : Restoring}
    (halive : s.aborted = false) (hnodup : (rolesIn organization s.directory).Nodup)
    (h : restoreMemberships cfg organization entries s = some s') {m : Membership}
    (hm : m ∈ s'.directory.memberships) :
    m ∈ s.directory.memberships ∨
      (m.organization = organization ∧
        ∃ name, m.team = teamByName s.directory organization name) := by
  induction entries generalizing s with
  | nil =>
    obtain rfl : s = s' := Option.some.inj h
    exact Or.inl hm
  | cons entry entries ih =>
    obtain ⟨middle, hentry, hrest⟩ := Option.bind_eq_some_iff.1 h
    obtain ⟨-, hran, hmembers⟩ := restoreMembership_some hnodup hentry
    have hmiddle : m ∈ middle.directory.memberships ∨
        (m.organization = organization ∧
          ∃ name, m.team = teamByName s.directory organization name) := by
      cases entries with
      | nil =>
        obtain rfl : middle = s' := Option.some.inj hrest
        exact Or.inl hm
      | cons e es =>
        obtain ⟨m', he, -⟩ := Option.bind_eq_some_iff.1 hrest
        have hm' : middle.aborted = false := by
          cases hcase : middle.aborted with
          | false => rfl
          | true => simp [restoreMembership, hcase] at he
        have hnodup' : (rolesIn organization middle.directory).Nodup := by
          rw [rolesIn_append (hran.roles hm') fun a ha => entryRoles_organization ha]
          exact hran.alive.1 hm'
        rcases ih hm' hnodup' hrest with hin | ⟨horg, name, hteam⟩
        · exact Or.inl hin
        · refine Or.inr ⟨horg, name, ?_⟩
          rw [hteam]
          unfold teamByName
          rw [hran.rest.teams]
    rcases hmiddle with hin | hnew
    · rw [hmembers] at hin
      cases haccount : account cfg s.directory.users entry with
      | none =>
        rw [haccount] at hin
        exact Or.inl hin
      | some user =>
        rw [haccount] at hin
        dsimp only at hin
        unfold getOrCreateMembership at hin
        split at hin
        · exact Or.inl hin
        · rcases List.mem_append.1 hin with hin | hin
          · exact Or.inl hin
          · rw [List.mem_singleton.1 hin]
            exact Or.inr ⟨rfl, _, rfl⟩
    · exact Or.inr hnew

end Entries

/-- A team found by name is a team of the organization. -/
theorem teamByName_some {d : Directory} {organization : Uuid} {name : Option String} {id : Uuid}
    (h : id ∈ teamByName d organization name) :
    ∃ t ∈ d.teams, t.organization = organization ∧ t.id = id := by
  unfold teamByName at h
  split at h
  · cases h
  split at h
  · cases h
  obtain ⟨t, hfound, rfl⟩ := Option.map_eq_some_iff.1 h
  have hcond := List.find?_some hfound
  simp only [Bool.and_eq_true, beq_iff_eq] at hcond
  exact ⟨t, List.mem_of_find?_eq_some hfound, hcond.1, rfl⟩

/-! ## The whole restore -/

theorem restoreTeams_some {organization : Uuid} {names : List String} {d d' : Directory}
    (h : restoreTeams organization names d = some d') :
    ∃ new : List NamedTeam,
      d' = { d with teams := d.teams ++ new, nextUuid := d.nextUuid + names.length } ∧
        new.map (·.name) = names ∧ (∀ t ∈ new, t.organization = organization) ∧
        ∀ t ∈ new, d.nextUuid ≤ t.id := by
  induction names generalizing d with
  | nil =>
    cases h
    refine ⟨[], ?_, rfl, List.forall_mem_nil _, List.forall_mem_nil _⟩
    rw [List.append_nil]
    rfl
  | cons name names ih =>
    unfold restoreTeams at h
    split at h
    · cases h
    obtain ⟨new, rfl, hnames, horg, hids⟩ := ih h
    refine ⟨{ id := d.nextUuid, organization, name } :: new, ?_, ?_, ?_, ?_⟩
    · simp only [List.append_assoc, List.singleton_append, List.length_cons]
      congr 1
      exact Nat.add_right_comm _ _ _
    · rw [List.map_cons, hnames]
    · intro t ht
      rcases List.mem_cons.1 ht with rfl | ht
      · rfl
      · exact horg t ht
    · intro t ht
      rcases List.mem_cons.1 ht with rfl | ht
      · exact Nat.le_refl _
      · exact Nat.le_of_succ_le (hids t ht)

theorem sound_restoreTeams {organization : Uuid} {names : List String} {d d' : Directory}
    (hd : d.Sound) (h : restoreTeams organization names d = some d') : d'.Sound := by
  induction names generalizing d with
  | nil =>
    cases h
    exact hd
  | cons name names ih =>
    unfold restoreTeams at h
    split at h
    · cases h
    · exact ih (hd.withTeam organization name) h

/-- The directory the members are restored into. -/
structure Staged (d : Directory) (actor : User) (pkg : Package) (base : Directory) : Prop where
  users : base.users = d.users
  applications : base.applications = d.applications
  organizations : ∃ slug,
    base.organizations = d.organizations ++ [({ id := d.nextUuid, name := pkg.name, slug })]
  teams : ∃ new : List NamedTeam, base.teams = d.teams ++ new ∧ new.map (·.name) = pkg.teams ∧
    (∀ t ∈ new, t.organization = d.nextUuid) ∧ ∀ t ∈ new, d.nextUuid < t.id
  memberships : base.memberships = d.memberships ++ [⟨actor.id, d.nextUuid, none, .active⟩]
  permissions : base.tables.permissions = d.tables.permissions
  resourceGrants : base.tables.resourceGrants = d.tables.resourceGrants
  roles : ∃ role, systemRole? ORGANIZATION_ADMINISTRATOR = some role ∧
    base.tables.roleAssignments =
      d.tables.roleAssignments ++ [⟨actor.id, role, some d.nextUuid⟩]
  sound : d.Sound → base.Sound
  fresh : d.nextUuid < base.nextUuid

/-- A restore that goes through makes the organization and its teams, then restores the members. -/
theorem restorePackage_some {cfg : Settings} {d d' : Directory} {actor : User}
    {draws : List String} {pkg : Package} {o : Uuid} {report : RestoreReport}
    (h : restorePackage cfg d actor draws pkg = some (d', o, report)) :
    o = d.nextUuid ∧ ∃ base s, Staged d actor pkg base ∧
      restoreMemberships cfg o pkg.memberships ⟨base, false, {}⟩ = some s ∧
      d' = (if s.aborted then d else s.directory) ∧ report = s.report := by
  unfold restorePackage at h
  split at h
  · cases h
  simp only [Option.bind_eq_bind, Option.bind_eq_some_iff] at h
  obtain ⟨draw, -, ⟨created, organization⟩, hcreated, withTeams, hteams, contents, -, s, hs,
    hresult⟩ := h
  have hok : createOrganization cfg d pkg.name (cfg.slugify pkg.name ++ "-" ++ draw) actor =
      .ok (created, organization) := by
    cases hcase : createOrganization cfg d pkg.name (cfg.slugify pkg.name ++ "-" ++ draw) actor with
    | error e => rw [hcase] at hcreated; cases hcreated
    | ok result =>
      rw [hcase] at hcreated
      exact congrArg _ (Option.some.inj hcreated)
  obtain ⟨role, log, hrole, rfl, hcreated'⟩ := createOrganization_ok hok
  obtain ⟨new, hnew, hnames, horg, hids⟩ := restoreTeams_some hteams
  cases hresult
  refine ⟨rfl, contents.apply withTeams, s, ?_, hs, rfl, rfl⟩
  have hsound : d.Sound → (contents.apply withTeams).Sound := by
    intro hd
    have hc : created.Sound := by
      rw [hcreated']
      exact (hd.withAdministrator _ _ _ hrole).withAudit log
    exact ((sound_restoreTeams hc hteams).skip contents.keys).withAudit _
  refine ⟨?_, ?_, ⟨cfg.slugify pkg.name ++ "-" ++ draw, ?_⟩, ⟨new, ?_, hnames, horg, ?_⟩, ?_, ?_,
    ?_, ⟨role, hrole, ?_⟩, hsound, ?_⟩
  all_goals rw [hnew, hcreated'] at *
  all_goals try rfl
  · intro t ht
    exact hids t ht
  · change d.nextUuid < d.nextUuid + 1 + pkg.teams.length + contents.keys
    exact Nat.lt_of_lt_of_le (Nat.lt_succ_self _)
      (Nat.le_trans (Nat.le_add_right _ _) (Nat.le_add_right _ _))

end Exports
