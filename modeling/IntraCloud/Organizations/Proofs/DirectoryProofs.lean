import IntraCloud.Organizations.Proofs.ServicesProofs
import Mathlib.Data.List.Nodup

/-!
# The calls keep the directory sound

The keys and references of its rows. The unique constraints and foreign keys of the tables are among
these; that a member's team is of the same organization is kept by the calls alone.
-/

namespace Organizations

open Audit Permissions

/-- The user and the role of each row. -/
def roleKeys (rows : List RoleAssignment) : List (Uuid × String) :=
  rows.map fun a => (a.user, a.role.slug)

/-- The roles assigned in the organization. -/
def rolesIn (organization : Uuid) (d : Directory) : List (Uuid × String) :=
  roleKeys (d.tables.roleAssignments.filter (·.organization == some organization))

/-- Keys are fresh, references resolve, and no role is assigned twice. -/
structure Directory.Sound (d : Directory) : Prop where
  organizations : ∀ o ∈ d.organizations, o.id < d.nextUuid
  teams : ∀ t ∈ d.teams, t.id < d.nextUuid
  memberships : ∀ m ∈ d.memberships, m.organization < d.nextUuid
  roles : ∀ a ∈ d.tables.roleAssignments, ∀ o ∈ a.organization, o < d.nextUuid
  known : ∀ a ∈ d.tables.roleAssignments, systemRole? a.role.slug = some a.role
  once : ∀ o, (rolesIn o d).Nodup
  teamIds : (d.teams.map (·.id)).Nodup
  teamOf : ∀ m ∈ d.memberships, ∀ id ∈ m.team,
    ∃ t ∈ d.teams, t.id = id ∧ t.organization = m.organization

/-! ## Roles -/

theorem mem_rolesIn {organization : Uuid} {d : Directory} {user : Uuid} {slug : String} :
    (user, slug) ∈ rolesIn organization d ↔ d.assigned user slug (some organization) = true := by
  rw [assigned_iff]
  simp only [rolesIn, roleKeys, List.mem_map, List.mem_filter, beq_iff_eq, Prod.mk.injEq]
  constructor
  · rintro ⟨a, ⟨ha, horg⟩, huser, hslug⟩
    exact ⟨a, ha, huser, hslug, horg⟩
  · rintro ⟨a, ha, huser, hslug, horg⟩
    exact ⟨a, ⟨ha, horg⟩, huser, hslug⟩

theorem rolesIn_append {organization : Uuid} {d d' : Directory} {rows : List RoleAssignment}
    (h : d'.tables.roleAssignments = d.tables.roleAssignments ++ rows)
    (hrows : ∀ a ∈ rows, a.organization = some organization) :
    rolesIn organization d' = rolesIn organization d ++ roleKeys rows := by
  have hfilter : rows.filter (·.organization == some organization) = rows := by
    refine List.filter_eq_self.2 fun a ha => ?_
    rw [hrows a ha]
    exact beq_self_eq_true _
  unfold rolesIn
  rw [h, List.filter_append, hfilter]
  exact List.map_append

/-- Rows of one organization say nothing about another. -/
theorem rolesIn_append_other {other : Uuid} {d d' : Directory}
    {rows : List RoleAssignment}
    (h : d'.tables.roleAssignments = d.tables.roleAssignments ++ rows)
    (hrows : ∀ a ∈ rows, a.organization ≠ some other) :
    rolesIn other d' = rolesIn other d := by
  have hfilter : rows.filter (·.organization == some other) = [] := by
    refine List.filter_eq_nil_iff.2 fun a ha => ?_
    have hne := hrows a ha
    simpa using hne
  unfold rolesIn
  rw [h, List.filter_append, hfilter, List.append_nil]

/-- In an organization that does not exist yet nobody has a role. -/
theorem Directory.Sound.rolesIn_fresh {d : Directory} (h : d.Sound) :
    rolesIn d.nextUuid d = [] := by
  have hnone : d.tables.roleAssignments.filter (·.organization == some d.nextUuid) = [] := by
    refine List.filter_eq_nil_iff.2 fun a ha horg => ?_
    exact absurd (h.roles a ha d.nextUuid (beq_iff_eq.1 horg)) (Nat.lt_irrefl _)
  unfold rolesIn
  rw [hnone]
  rfl

theorem Directory.Sound.withAudit {d : Directory} (h : d.Sound) (log : List AuditEvent) :
    (d.withAudit log).Sound :=
  ⟨h.organizations, h.teams, h.memberships, h.roles, h.known, h.once, h.teamIds, h.teamOf⟩

/-- Keys may be passed over. -/
theorem Directory.Sound.skip {d : Directory} (h : d.Sound) (n : Nat) :
    Directory.Sound { d with nextUuid := d.nextUuid + n } := by
  have hle : ∀ {k : Nat}, k < d.nextUuid → k < d.nextUuid + n := by omega
  exact ⟨fun o ho => hle (h.organizations o ho), fun t ht => hle (h.teams t ht),
    fun m hm => hle (h.memberships m hm), fun a ha o ho => hle (h.roles a ha o ho), h.known, h.once,
    h.teamIds, h.teamOf⟩

/-- Role rows of one organization, of known roles, none of them assigned before. -/
theorem Directory.Sound.withRoles {d d' : Directory} (h : d.Sound) (organization : Uuid)
    {rows : List RoleAssignment} (horganizations : d'.organizations = d.organizations)
    (hteams : d'.teams = d.teams) (hmemberships : d'.memberships = d.memberships)
    (hnext : d'.nextUuid = d.nextUuid)
    (hroles : d'.tables.roleAssignments = d.tables.roleAssignments ++ rows)
    (hrows : ∀ a ∈ rows, a.organization = some organization ∧ systemRole? a.role.slug = some a.role)
    (hfresh : organization < d.nextUuid)
    (hnodup : (rolesIn organization d ++ roleKeys rows).Nodup) : d'.Sound := by
  refine ⟨?_, ?_, ?_, ?_, ?_, ?_, ?_, ?_⟩
  · rw [horganizations, hnext]
    exact h.organizations
  · rw [hteams, hnext]
    exact h.teams
  · rw [hmemberships, hnext]
    exact h.memberships
  · intro a ha o ho
    rw [hnext]
    rw [hroles] at ha
    rcases List.mem_append.1 ha with ha | ha
    · exact h.roles a ha o ho
    · rw [(hrows a ha).1] at ho
      cases ho
      exact hfresh
  · intro a ha
    rw [hroles] at ha
    rcases List.mem_append.1 ha with ha | ha
    · exact h.known a ha
    · exact (hrows a ha).2
  · intro o
    by_cases ho : o = organization
    · subst ho
      rw [rolesIn_append hroles fun a ha => (hrows a ha).1]
      exact hnodup
    · have hother : ∀ a ∈ rows, a.organization ≠ some o := by
        intro a ha heq
        rw [(hrows a ha).1] at heq
        exact ho (Option.some.inj heq).symm
      rw [rolesIn_append_other hroles hother]
      exact h.once o
  · rw [hteams]
    exact h.teamIds
  · rw [hteams, hmemberships]
    exact h.teamOf

/-- One such row. -/
theorem Directory.Sound.withRole {d : Directory} (h : d.Sound) {user organization : Uuid}
    {slug : String} {role : Role} (hrole : systemRole? slug = some role)
    (hfresh : d.assigned user slug (some organization) = false)
    (hlt : organization < d.nextUuid) :
    (d.withRole ⟨user, role, some organization⟩).Sound := by
  have hslug := systemRole?_slug hrole
  refine h.withRoles organization rfl rfl rfl rfl rfl ?_ hlt ?_
  · intro a ha
    rw [List.mem_singleton.1 ha]
    exact ⟨rfl, by rw [hslug]; exact hrole⟩
  · refine List.nodup_append.2 ⟨h.once organization, List.nodup_singleton _, ?_⟩
    intro a ha b hb hab
    have hkey : a = (user, slug) := by
      rw [hab, List.mem_singleton.1 hb, ← hslug]
    rw [hkey, mem_rolesIn, hfresh] at ha
    cases ha

/-- A platform-wide role. -/
theorem Directory.Sound.withPlatformRole {d : Directory} (h : d.Sound) {user : Uuid}
    {slug : String} {role : Role} (hrole : systemRole? slug = some role) :
    (d.withRole ⟨user, role, none⟩).Sound := by
  refine ⟨h.organizations, h.teams, h.memberships, ?_, ?_, ?_, h.teamIds, h.teamOf⟩
  · intro a ha o ho
    rcases List.mem_append.1 ha with ha | ha
    · exact h.roles a ha o ho
    · rw [List.mem_singleton.1 ha] at ho
      cases ho
  · intro a ha
    rcases List.mem_append.1 ha with ha | ha
    · exact h.known a ha
    · rw [List.mem_singleton.1 ha, systemRole?_slug hrole]
      exact hrole
  · intro o
    have hother : ∀ a ∈ [(⟨user, role, none⟩ : RoleAssignment)], a.organization ≠ some o := by
      intro a ha
      rw [List.mem_singleton.1 ha]
      intro heq
      cases heq
    have hsame : rolesIn o (d.withRole ⟨user, role, none⟩) = rolesIn o d :=
      rolesIn_append_other rfl hother
    rw [hsame]
    exact h.once o

theorem Directory.Sound.withUser {d : Directory} (h : d.Sound) (user : User) :
    Directory.Sound { d with users := d.users ++ [user], nextUuid := d.nextUuid + 1 } := by
  have hskip := h.skip 1
  exact ⟨hskip.organizations, hskip.teams, hskip.memberships, hskip.roles, h.known, h.once,
    h.teamIds, h.teamOf⟩

theorem Directory.Sound.withOrganization {d : Directory} (h : d.Sound) (name slug : String)
    (creator : Uuid) : (d.withOrganization name slug creator).Sound := by
  have hskip := h.skip 1
  refine ⟨?_, hskip.teams, ?_, hskip.roles, h.known, h.once, h.teamIds, ?_⟩
  · intro o ho
    rcases List.mem_append.1 ho with ho | ho
    · exact hskip.organizations o ho
    · rw [List.mem_singleton.1 ho]
      exact Nat.lt_succ_self _
  · intro m hm
    rcases List.mem_append.1 hm with hm | hm
    · exact hskip.memberships m hm
    · rw [List.mem_singleton.1 hm]
      exact Nat.lt_succ_self _
  · intro m hm id hid
    rcases List.mem_append.1 hm with hm | hm
    · exact h.teamOf m hm id hid
    · rw [List.mem_singleton.1 hm] at hid
      cases hid

/-- The rows of a new organization, with its administrator. -/
theorem Directory.Sound.withAdministrator {d : Directory} (h : d.Sound) (name slug : String)
    (creator : Uuid) {role : Role} (hrole : systemRole? ORGANIZATION_ADMINISTRATOR = some role) :
    ((d.withOrganization name slug creator).withRole ⟨creator, role, some d.nextUuid⟩).Sound := by
  refine (h.withOrganization name slug creator).withRole hrole ?_ (Nat.lt_succ_self _)
  cases hassigned : (d.withOrganization name slug creator).assigned creator
      ORGANIZATION_ADMINISTRATOR (some d.nextUuid) with
  | false => rfl
  | true =>
    have hmem := mem_rolesIn.2 hassigned
    have hnone : rolesIn d.nextUuid (d.withOrganization name slug creator) = [] := h.rolesIn_fresh
    rw [hnone] at hmem
    cases hmem

theorem Directory.Sound.withMembership {d : Directory} (h : d.Sound) {m : Membership}
    (hlt : m.organization < d.nextUuid)
    (hteam : ∀ id ∈ m.team, ∃ t ∈ d.teams, t.id = id ∧ t.organization = m.organization) :
    Directory.Sound { d with memberships := d.memberships ++ [m] } := by
  refine ⟨h.organizations, h.teams, ?_, h.roles, h.known, h.once, h.teamIds, ?_⟩
  · intro m' hm
    rcases List.mem_append.1 hm with hm | hm
    · exact h.memberships m' hm
    · rw [List.mem_singleton.1 hm]
      exact hlt
  · intro m' hm id hid
    rcases List.mem_append.1 hm with hm | hm
    · exact h.teamOf m' hm id hid
    · rw [List.mem_singleton.1 hm] at hid ⊢
      exact hteam id hid

theorem Directory.Sound.withTeam {d : Directory} (h : d.Sound) (organization : Uuid)
    (name : String) :
    Directory.Sound { d with
      teams := d.teams ++ [({ id := d.nextUuid, organization, name } : NamedTeam)]
      nextUuid := d.nextUuid + 1 } := by
  have hskip := h.skip 1
  refine ⟨hskip.organizations, ?_, hskip.memberships, hskip.roles, h.known, h.once, ?_, ?_⟩
  · intro t ht
    rcases List.mem_append.1 ht with ht | ht
    · exact hskip.teams t ht
    · rw [List.mem_singleton.1 ht]
      exact Nat.lt_succ_self _
  · rw [List.map_append]
    refine List.nodup_append.2 ⟨h.teamIds, List.nodup_singleton _, ?_⟩
    intro a ha b hb hab
    obtain ⟨t, ht, rfl⟩ := List.mem_map.1 ha
    have hlt : t.id < b := by
      rw [List.mem_singleton.1 hb]
      exact h.teams t ht
    exact absurd hab (Nat.ne_of_lt hlt)
  · intro m hm id hid
    obtain ⟨t, ht, heq⟩ := h.teamOf m hm id hid
    exact ⟨t, List.mem_append_left _ ht, heq⟩

theorem Directory.Sound.setTeam {d : Directory} (h : d.Sound) (user organization : Uuid)
    (current : Option Uuid → Bool) {team : Option Uuid}
    (hteam : ∀ id ∈ team, ∃ t ∈ d.teams, t.id = id ∧ t.organization = organization) :
    (d.setTeam user organization current team).Sound := by
  refine ⟨h.organizations, h.teams, ?_, h.roles, h.known, h.once, h.teamIds, ?_⟩
  · intro m hm
    obtain ⟨old, hold, -, horg, -⟩ := mem_setTeam hm
    rw [horg]
    exact h.memberships old hold
  · intro m hm id hid
    obtain ⟨old, hold, -, -, -, rfl | ⟨horg, hteam'⟩⟩ := mem_setTeam hm
    · exact h.teamOf m hold id hid
    · rw [hteam'] at hid
      rw [horg]
      exact hteam id hid

/-! ## The calls -/

section Calls

variable {d : Directory}

theorem sound_postOrganization (h : d.Sound) (cfg : Settings) (actor : User) (name : String) :
    (postOrganization cfg d actor name).1.Sound := by
  rcases postOrganization_cases cfg d actor name with heq | ⟨role, log, hrole, heq⟩ <;> rw [heq]
  · exact h
  · exact (h.withAdministrator name _ actor.id hrole).withAudit log

theorem sound_postMembership (h : d.Sound) (cfg : Settings) (now : Nat)
    (actor organization : Uuid) (email : String) :
    (postMembership cfg now d actor organization email).1.Sound := by
  rcases postMembership_cases cfg now d actor organization email with heq |
    ⟨target, log, -, -, ⟨o, ho, rfl⟩, -, heq⟩ <;> rw [heq]
  · exact h
  · refine (h.withMembership (h.organizations o ho) ?_).withAudit log
    intro id hid
    cases hid

theorem sound_postRole (h : d.Sound) (cfg : Settings) (now : Nat)
    (actor organization member : Uuid) (slug : String) :
    (postRole cfg now d actor organization member slug).1.Sound := by
  rcases postRole_cases cfg now d actor organization member slug with heq |
    ⟨user, role, log, -, horg, -, -, hassigns, heq⟩ <;> rw [heq]
  · exact h
  · have hlt : organization < d.nextUuid := by
      obtain ⟨org, horg⟩ := Option.isSome_iff_exists.1 horg
      obtain ⟨-, -, hmember⟩ := getMemberOrganization_some horg
      obtain ⟨m, hm, hcond⟩ := List.any_eq_true.1 hmember
      simp only [Bool.and_eq_true, beq_iff_eq] at hcond
      rw [← hcond.1.2]
      exact h.memberships m hm
    exact (h.withRole hassigns.known hassigns.fresh hlt).withAudit log

theorem sound_postTeam (h : d.Sound) (now : Nat) (actor organization : Uuid) (name : String) :
    (postTeam now d actor organization name).1.Sound := by
  rcases postTeam_cases now d actor organization name with heq | ⟨log, -, -, heq⟩ <;> rw [heq]
  · exact h
  · exact (h.withTeam organization name).withAudit log

theorem sound_postTeamMember (h : d.Sound) (now : Nat) (actor teamId user : Uuid) :
    (postTeamMember now d actor teamId user).1.Sound := by
  rcases postTeamMember_cases now d actor teamId user with heq |
    ⟨team, log, hteam, -, heq⟩ <;> rw [heq]
  · exact h
  · refine (h.setTeam user team.organization _ ?_).withAudit log
    intro id hid
    cases hid
    exact ⟨team, hteam, rfl, rfl⟩

theorem sound_deleteTeamMember (h : d.Sound) (now : Nat) (actor teamId user : Uuid) :
    (deleteTeamMember now d actor teamId user).1.Sound := by
  rcases deleteTeamMember_cases now d actor teamId user with heq | ⟨team, log, heq⟩ <;> rw [heq]
  · exact h
  · refine (h.setTeam user team.organization _ ?_).withAudit log
    intro id hid
    cases hid

theorem sound_postApplication (h : d.Sound) (now : Nat) (actor organization : Uuid)
    (name : String) : (postApplication now d actor organization name).1.Sound := by
  rcases postApplication_cases now d actor organization name with heq |
    ⟨⟨o, ho, rfl⟩, heq⟩ <;> rw [heq]
  · exact h
  rcases registerApplication_cases d actor o.id name with heq | ⟨log, email, heq⟩ <;> rw [heq]
  · exact h
  · have hskip := h.skip 2
    have hmember := hskip.withMembership (m := ⟨d.nextUuid + 1, o.id, none, .active⟩)
      (hskip.organizations o ho) (fun id hid => by cases hid)
    refine Directory.Sound.withAudit ?_ log
    exact ⟨hmember.organizations, hmember.teams, hmember.memberships, hmember.roles, h.known,
      h.once, h.teamIds, hmember.teamOf⟩

theorem sound_postApplicationGrant (h : d.Sound) (now : Nat) (actor application : Uuid)
    (permission resourceType : String) (resourceId : Uuid) (expiresAt : Option Nat) :
    (postApplicationGrant now d actor application permission resourceType resourceId
      expiresAt).1.Sound := by
  rcases postApplicationGrant_cases now d actor application permission resourceType resourceId
    expiresAt with heq | ⟨app, grant, tables, -, -, -, -, hroles, -, heq⟩ <;> rw [heq]
  · exact h
  · refine ⟨h.organizations, h.teams, h.memberships, ?_, ?_, ?_, h.teamIds, h.teamOf⟩
    · rw [hroles]
      exact h.roles
    · rw [hroles]
      exact h.known
    · intro o
      unfold rolesIn
      rw [hroles]
      exact h.once o

end Calls

end Organizations
