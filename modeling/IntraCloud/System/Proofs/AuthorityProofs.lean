import IntraCloud.Exports.Proofs.MembershipsProofs
import IntraCloud.Sharing.Proofs.FanOutProofs
import IntraCloud.System.Authority
import IntraCloud.Transition.Proofs.RunsProofs

/-!
# Authority has a source, and system.admin is platform-wide

What one step does to the memberships, the role assignments and the grants; from it, over runs, where
every row comes from, what someone without rows can reach, and who holds `system.admin`.
-/

namespace Authority

open Audit Exports Organizations Permissions Sharing

/-! ## Restores and shares -/

/-- A restore leaves the directory alone, or it is committed. -/
theorem restore_cases (cfg : Settings) (d : Directory) (actor : User) (draws : List String)
    (pkg : Package) :
    restore cfg d actor draws pkg = d ∨
      ∃ base s, Staged d actor pkg base ∧
        restoreMemberships cfg d.nextUuid pkg.memberships ⟨base, false, {}⟩ = some s ∧
        s.aborted = false ∧
        restorePackage cfg d actor draws pkg = some (s.directory, d.nextUuid, s.report) ∧
        restore cfg d actor draws pkg = s.directory := by
  unfold restore
  cases h : restorePackage cfg d actor draws pkg with
  | none => exact Or.inl rfl
  | some result =>
    obtain ⟨d', o, report⟩ := result
    obtain ⟨rfl, base, s, hstaged, hmembers, rfl, rfl⟩ := restorePackage_some h
    cases haborted : s.aborted with
    | true => simp
    | false =>
      right
      refine ⟨base, s, hstaged, hmembers, haborted, ?_, ?_⟩ <;> simp

/-- The role rows a restore adds. -/
theorem restore_roles {cfg : Settings} {d base : Directory} {actor : User} {pkg : Package}
    {s : Restoring} (hd : d.Sound) (hstaged : Staged d actor pkg base)
    (hmembers : restoreMemberships cfg d.nextUuid pkg.memberships ⟨base, false, {}⟩ = some s) :
    ∃ role, systemRole? ORGANIZATION_ADMINISTRATOR = some role ∧
      (rolesIn d.nextUuid base).Nodup ∧ rolesIn d.nextUuid base = [(actor.id, role.slug)] ∧
      Ran d.nextUuid (pkg.memberships.flatMap (entryRoles cfg d.users d.nextUuid))
        ⟨base, false, {}⟩ s ∧
      (s.aborted = false → s.directory.tables.roleAssignments =
        d.tables.roleAssignments ++ (⟨actor.id, role, some d.nextUuid⟩ ::
          pkg.memberships.flatMap (entryRoles cfg d.users d.nextUuid))) := by
  obtain ⟨role, hrole, hroles⟩ := hstaged.roles
  have hin : rolesIn d.nextUuid base = [(actor.id, role.slug)] := by
    rw [rolesIn_append hroles fun a ha => by rw [List.mem_singleton.1 ha], hd.rolesIn_fresh]
    rfl
  have hnodup : (rolesIn d.nextUuid base).Nodup := by
    rw [hin]
    exact List.nodup_singleton _
  obtain ⟨hran, -⟩ := restoreMemberships_some rfl hnodup hmembers
  rw [hstaged.users] at hran
  refine ⟨role, hrole, hnodup, hin, hran, fun halive => ?_⟩
  rw [hran.roles halive]
  change base.tables.roleAssignments ++ _ = _
  rw [hroles, List.append_assoc]
  rfl

/-- Sharing assigns no roles, and its grants are given by someone who may manage shares. -/
theorem postShareGrant_rows (s : Sharing.State) (r : ShareRequest) :
    (postShareGrant s r).1.tables.roleAssignments = s.tables.roleAssignments ∧
      s.nextUuid ≤ (postShareGrant s r).1.nextUuid ∧
      ∀ g ∈ (postShareGrant s r).1.tables.resourceGrants, g ∈ s.tables.resourceGrants ∨
        (g.organization = r.organization ∧
          hasPermission s.tables s.now r.actor "sharing.manage" r.organization none = true) := by
  rcases postShareGrant_cases s r with hrec | ⟨tables, haccepts, hgrants, hrec⟩
  · obtain ⟨audit, heq⟩ := hrec
    rw [heq]
    exact ⟨rfl, Nat.le_refl _, fun g hg => Or.inl hg⟩
  · obtain ⟨audit, heq⟩ := hrec
    rw [heq]
    have hroles : tables.roleAssignments = s.tables.roleAssignments :=
      grantAll_roleAssignments hgrants
    refine ⟨hroles, Nat.le_succ _, fun g hg => ?_⟩
    rcases (grantAll_rows hgrants).2 g hg with hg | hg
    · exact Or.inl hg
    · obtain ⟨code, -, user, huser, rfl⟩ := mem_fanOut.1 hg
      exact Or.inr ⟨rfl, (haccepts user huser).2.2.2.1⟩

theorem deleteShareGrant_rows (s : Sharing.State) (actor shareId : Uuid) (requestId : String) :
    (deleteShareGrant s actor shareId requestId).1.tables.roleAssignments =
        s.tables.roleAssignments ∧
      (deleteShareGrant s actor shareId requestId).1.nextUuid = s.nextUuid ∧
      ∀ g ∈ (deleteShareGrant s actor shareId requestId).1.tables.resourceGrants,
        g ∈ s.tables.resourceGrants := by
  rcases deleteShareGrant_cases s actor shareId requestId with hrec | ⟨share, -, -, -, hrec⟩
  · obtain ⟨audit, heq⟩ := hrec
    rw [heq]
    exact ⟨rfl, rfl, fun g hg => hg⟩
  · obtain ⟨audit, heq⟩ := hrec
    rw [heq]
    exact ⟨rfl, rfl, fun g hg => (List.mem_filter.1 hg).1⟩

/-! ## Soundness of the directory -/

theorem sound_restore {d : Directory} (hd : d.Sound) (cfg : Settings) (actor : User)
    (draws : List String) (pkg : Package) : (restore cfg d actor draws pkg).Sound := by
  rcases restore_cases cfg d actor draws pkg with heq |
    ⟨base, s, hstaged, hmembers, halive, -, heq⟩ <;> rw [heq]
  · exact hd
  obtain ⟨role, hrole, hnodup, -, hran, -⟩ := restore_roles hd hstaged hmembers
  have hbase := hstaged.sound hd
  have hnext : s.directory.nextUuid = base.nextUuid := hran.rest.nextUuid
  have hteams : s.directory.teams = base.teams := hran.rest.teams
  have hroles : Directory.Sound { s.directory with memberships := base.memberships } := by
    refine hbase.withRoles d.nextUuid hran.rest.organizations hteams rfl hnext
      (hran.roles halive) ?_ hstaged.fresh (hran.alive.1 halive)
    intro a ha
    obtain ⟨entry, -, ha⟩ := List.mem_flatMap.1 ha
    obtain ⟨user, -, slug, -, hrow⟩ := mem_entryRoles ha
    obtain ⟨-, hknown, hslug, -, horg⟩ := restoredRole_some hrow
    exact ⟨horg, by rw [hslug]; exact hknown⟩
  refine ⟨hroles.organizations, hroles.teams, ?_, hroles.roles, hroles.known, hroles.once,
    hroles.teamIds, ?_⟩
  · intro m hm
    rcases mem_restoreMemberships rfl hnodup hmembers hm with hm | ⟨horg, -⟩
    · exact hroles.memberships m hm
    · rw [horg, hnext]
      exact hstaged.fresh
  · intro m hm id hid
    rcases mem_restoreMemberships rfl hnodup hmembers hm with hm | ⟨horg, name, hteam⟩
    · exact hroles.teamOf m hm id hid
    · rw [hteam] at hid
      obtain ⟨t, ht, htorg, rfl⟩ := teamByName_some hid
      rw [horg]
      refine ⟨t, ?_, rfl, htorg⟩
      rw [hteams]
      exact ht

theorem sound_createUser {d : Directory} (h : d.Sound) (email : String) :
    (createUser d email).1.Sound :=
  h.withUser _

/-- The command adds an account at most, and its platform-wide role. -/
theorem bootstrap_cases (cfg : Settings) (d : Directory) (email : String) :
    bootstrapSuperAdministrator cfg d email = d ∨
      ∃ created user role log, (created = d ∨ created = (createUser d email).1) ∧
        systemRole? PLATFORM_WIDE_ROLE_SLUG = some role ∧
        bootstrapSuperAdministrator cfg d email =
          (created.withRole ⟨user, role, none⟩).withAudit log := by
  unfold bootstrapSuperAdministrator
  cases d.users.find? fun u => cfg.upper u.email == cfg.upper email with
  | some user =>
    dsimp only
    cases hassign : assignRole cfg d user PLATFORM_WIDE_ROLE_SLUG none none with
    | error e => exact Or.inl rfl
    | ok d' =>
      obtain ⟨role, log, hassigns, rfl⟩ := assignRole_ok hassign
      exact Or.inr ⟨d, user.id, role, log, Or.inl rfl, hassigns.known, rfl⟩
  | none =>
    dsimp only
    cases hassign : assignRole cfg (createUser d email).1 (createUser d email).2
        PLATFORM_WIDE_ROLE_SLUG none none with
    | error e => exact Or.inl rfl
    | ok d' =>
      obtain ⟨role, log, hassigns, rfl⟩ := assignRole_ok hassign
      exact Or.inr ⟨_, _, role, log, Or.inr rfl, hassigns.known, rfl⟩

theorem sound_withSharing {s : State} (h : s.directory.Sound) {t : Sharing.State}
    (hroles : t.tables.roleAssignments = s.directory.tables.roleAssignments)
    (hnext : s.directory.nextUuid ≤ t.nextUuid) : (s.withSharing t).directory.Sound := by
  refine ⟨fun o ho => Nat.lt_of_lt_of_le (h.organizations o ho) hnext,
    fun x hx => Nat.lt_of_lt_of_le (h.teams x hx) hnext,
    fun m hm => Nat.lt_of_lt_of_le (h.memberships m hm) hnext, ?_, ?_, ?_, h.teamIds, h.teamOf⟩
  · intro a ha o ho
    have ha' : a ∈ s.directory.tables.roleAssignments := by rw [← hroles]; exact ha
    exact Nat.lt_of_lt_of_le (h.roles a ha' o ho) hnext
  · intro a ha
    have ha' : a ∈ s.directory.tables.roleAssignments := by rw [← hroles]; exact ha
    exact h.known a ha'
  · intro o
    have hsame : rolesIn o (s.withSharing t).directory = rolesIn o s.directory := by
      unfold rolesIn
      rw [← hroles]
      rfl
    rw [hsame]
    exact h.once o

theorem sound_serve {s : State} (h : s.directory.Sound) (cfg : Settings) (actor : User)
    (r : Request) : (serve cfg s actor r).directory.Sound := by
  cases r with
  | createOrganization name => exact sound_postOrganization h cfg actor name
  | addMember organization email =>
    exact sound_postMembership h cfg s.now actor.id organization email
  | assignRole organization member slug =>
    exact sound_postRole h cfg s.now actor.id organization member slug
  | createTeam organization name => exact sound_postTeam h s.now actor.id organization name
  | addTeamMember team user => exact sound_postTeamMember h s.now actor.id team user
  | removeTeamMember team user => exact sound_deleteTeamMember h s.now actor.id team user
  | registerApplication organization name =>
    exact sound_postApplication h s.now actor.id organization name
  | grantApplication application permission resourceType resourceId expiresAt =>
    exact sound_postApplicationGrant h s.now actor.id application permission resourceType
      resourceId expiresAt
  | createShare r =>
    obtain ⟨hroles, hnext, -⟩ := postShareGrant_rows s.sharing { r with actor := actor.id }
    exact sound_withSharing h hroles hnext
  | revokeShare shareId requestId =>
    obtain ⟨hroles, hnext, -⟩ := deleteShareGrant_rows s.sharing actor.id shareId requestId
    exact sound_withSharing h hroles (Nat.le_of_eq hnext.symm)
  | restore draws pkg => exact sound_restore h cfg actor draws pkg

theorem sound_step (cfg : Settings) (s : State) (a : Action) (h : s.directory.Sound) :
    (step cfg s a).directory.Sound := by
  cases a with
  | request actor r =>
    unfold step
    dsimp only
    split
    · exact h
    · exact sound_serve h cfg _ r
  | bootstrapSuperAdministrator email =>
    change (bootstrapSuperAdministrator cfg s.directory email).Sound
    rcases bootstrap_cases cfg s.directory email with heq |
      ⟨created, user, role, log, hcreated, hrole, heq⟩ <;> rw [heq]
    · exact h
    · rcases hcreated with rfl | rfl
      · exact (h.withPlatformRole hrole).withAudit log
      · exact ((sound_createUser h email).withPlatformRole hrole).withAudit log
  | register email =>
    change (register cfg s.directory email).Sound
    unfold register
    split
    · exact h
    · exact sound_createUser h email
  | setMfa user enabled =>
    exact ⟨h.organizations, h.teams, h.memberships, h.roles, h.known, h.once, h.teamIds, h.teamOf⟩
  | changeContent rows credentials => exact h
  | advance seconds => exact h

theorem sound_start : start.directory.Sound := by
  refine ⟨?_, ?_, ?_, ?_, ?_, fun o => List.nodup_nil, List.nodup_nil, ?_⟩ <;> simp [start]

/-! ## Where rows come from -/

theorem id_of_find {users : List User} {id : Uuid} {user : User}
    (h : users.find? (·.id == id) = some user) : user.id = id := by
  have hfound := List.find?_some h
  exact beq_iff_eq.1 hfound

theorem founds_createOrganization {cfg : Settings} {s : State} (h : s.directory.Sound)
    {actor : Uuid} {user : User} {name : String}
    (hactor : s.directory.users.find? (·.id == actor) = some user)
    (hrows : ∃ d : Directory, (postOrganization cfg s.directory user name).1 = d ∧
      ∃ o ∈ d.organizations, o.id = s.directory.nextUuid) :
    Founds cfg s (.request actor (.createOrganization name)) s.directory.nextUuid := by
  refine ⟨Or.inl ⟨actor, name, rfl⟩, fun o ho heq => ?_, ?_⟩
  · exact absurd (h.organizations o ho) (by rw [heq]; exact Nat.lt_irrefl _)
  · obtain ⟨d, rfl, hin⟩ := hrows
    simpa [step, hactor, serve] using hin

theorem founds_restore {cfg : Settings} {s : State} (h : s.directory.Sound) {actor : Uuid}
    {user : User} {draws : List String} {pkg : Package} {base : Directory} {r : Restoring}
    (hactor : s.directory.users.find? (·.id == actor) = some user)
    (hstaged : Staged s.directory user pkg base)
    (hmembers : restoreMemberships cfg s.directory.nextUuid pkg.memberships ⟨base, false, {}⟩ =
      some r)
    (heq : restore cfg s.directory user draws pkg = r.directory) :
    Founds cfg s (.request actor (.restore draws pkg)) s.directory.nextUuid := by
  refine ⟨Or.inr ⟨actor, draws, pkg, rfl⟩, fun o ho hid => ?_, ?_⟩
  · exact absurd (h.organizations o ho) (by rw [hid]; exact Nat.lt_irrefl _)
  · obtain ⟨role, -, -, -, hran, -⟩ := restore_roles h hstaged hmembers
    obtain ⟨slug, horganizations⟩ := hstaged.organizations
    have hin : (⟨s.directory.nextUuid, pkg.name, slug⟩ : Organization) ∈
        r.directory.organizations := by
      rw [hran.rest.organizations]
      change _ ∈ base.organizations
      rw [horganizations]
      exact List.mem_append_right _ (List.mem_singleton.2 rfl)
    refine ⟨⟨s.directory.nextUuid, pkg.name, slug⟩, ?_, rfl⟩
    simpa [step, hactor, serve, heq] using hin

/-- A step makes an active membership only where it may. -/
theorem membership_source {cfg : Settings} {s : State} {a : Action} {user organization : Uuid}
    (h : s.directory.Sound) (hbefore : ¬ Member user organization s)
    (hafter : Member user organization (step cfg s a)) :
    MembershipSource cfg organization s a := by
  obtain ⟨m, hm, rfl, rfl, hactive⟩ := hafter
  have hnot : m ∉ s.directory.memberships := fun hin => hbefore ⟨m, hin, rfl, rfl, hactive⟩
  cases a with
  | request actor r =>
    cases hactor : s.directory.users.find? (·.id == actor) with
    | none =>
      simp only [step, hactor] at hm
      exact absurd hm hnot
    | some user =>
      simp only [step, hactor] at hm
      have hid := id_of_find hactor
      cases r with
      | createOrganization name =>
        change m ∈ (postOrganization cfg s.directory user name).1.memberships at hm
        rcases postOrganization_cases cfg s.directory user name with heq | ⟨role, log, -, heq⟩
        · rw [heq] at hm
          exact absurd hm hnot
        · have horg : m.organization = s.directory.nextUuid := by
            rw [heq] at hm
            rcases List.mem_append.1 hm with hm | hm
            · exact absurd hm hnot
            · rw [List.mem_singleton.1 hm]
          rw [horg]
          refine Or.inl (founds_createOrganization h hactor ⟨_, heq, ?_⟩)
          exact ⟨_, List.mem_append_right _ (List.mem_singleton.2 rfl), rfl⟩
      | addMember organization email =>
        change m ∈ (postMembership cfg s.now s.directory user.id organization email).1.memberships
          at hm
        rcases postMembership_cases cfg s.now s.directory user.id organization email with heq |
          ⟨target, log, -, hperm, -, -, heq⟩
        · rw [heq] at hm
          exact absurd hm hnot
        · rw [heq] at hm
          rcases List.mem_append.1 hm with hm | hm
          · exact absurd hm hnot
          · rw [List.mem_singleton.1 hm]
            rw [hid] at hperm
            exact Or.inr (Or.inr ⟨actor, email, rfl, hperm⟩)
      | assignRole organization member slug =>
        change m ∈ (postRole cfg s.now s.directory user.id organization member slug).1.memberships
          at hm
        rcases postRole_cases cfg s.now s.directory user.id organization member slug with heq |
          ⟨target, role, log, -, -, -, -, -, heq⟩ <;> rw [heq] at hm <;> exact absurd hm hnot
      | createTeam organization name =>
        change m ∈ (postTeam s.now s.directory user.id organization name).1.memberships at hm
        rcases postTeam_cases s.now s.directory user.id organization name with heq |
          ⟨log, -, -, heq⟩ <;> rw [heq] at hm <;> exact absurd hm hnot
      | addTeamMember team target =>
        change m ∈ (postTeamMember s.now s.directory user.id team target).1.memberships at hm
        rcases postTeamMember_cases s.now s.directory user.id team target with heq |
          ⟨t, log, -, -, heq⟩
        · rw [heq] at hm
          exact absurd hm hnot
        · rw [heq, withAudit_memberships] at hm
          obtain ⟨old, hold, huser, horg, hstatus, -⟩ := mem_setTeam hm
          exact absurd ⟨old, hold, huser.symm, horg.symm, hstatus ▸ hactive⟩ hbefore
      | removeTeamMember team target =>
        change m ∈ (deleteTeamMember s.now s.directory user.id team target).1.memberships at hm
        rcases deleteTeamMember_cases s.now s.directory user.id team target with heq |
          ⟨t, log, heq⟩
        · rw [heq] at hm
          exact absurd hm hnot
        · rw [heq, withAudit_memberships] at hm
          obtain ⟨old, hold, huser, horg, hstatus, -⟩ := mem_setTeam hm
          exact absurd ⟨old, hold, huser.symm, horg.symm, hstatus ▸ hactive⟩ hbefore
      | registerApplication organization name =>
        change m ∈ (postApplication s.now s.directory user.id organization name).1.memberships at hm
        rcases postApplication_cases s.now s.directory user.id organization name with heq |
          ⟨-, heq⟩ <;> rw [heq] at hm
        · exact absurd hm hnot
        rcases registerApplication_cases s.directory user.id organization name with heq |
          ⟨log, email, heq⟩ <;> rw [heq] at hm
        · exact absurd hm hnot
        · rcases List.mem_append.1 hm with hm | hm
          · exact absurd hm hnot
          · rw [List.mem_singleton.1 hm]
            exact Or.inr (Or.inl ⟨actor, name, rfl⟩)
      | grantApplication application permission resourceType resourceId expiresAt =>
        change m ∈ (postApplicationGrant s.now s.directory user.id application permission
          resourceType resourceId expiresAt).1.memberships at hm
        rcases postApplicationGrant_cases s.now s.directory user.id application permission
          resourceType resourceId expiresAt with heq | ⟨app, grant, tables, -, -, -, -, -, -, heq⟩
          <;> rw [heq] at hm <;> exact absurd hm hnot
      | createShare r => exact absurd hm hnot
      | revokeShare shareId requestId => exact absurd hm hnot
      | restore draws pkg =>
        change m ∈ (restore cfg s.directory user draws pkg).memberships at hm
        rcases restore_cases cfg s.directory user draws pkg with heq |
          ⟨base, r, hstaged, hmembers, -, -, heq⟩
        · rw [heq] at hm
          exact absurd hm hnot
        · have horg : m.organization = s.directory.nextUuid := by
            obtain ⟨role, -, hnodup, -⟩ := restore_roles h hstaged hmembers
            rw [heq] at hm
            rcases mem_restoreMemberships rfl hnodup hmembers hm with hm | ⟨horg, -⟩
            · change m ∈ base.memberships at hm
              rw [hstaged.memberships] at hm
              rcases List.mem_append.1 hm with hm | hm
              · exact absurd hm hnot
              · rw [List.mem_singleton.1 hm]
            · exact horg
          rw [horg]
          exact Or.inl (founds_restore h hactor hstaged hmembers heq)
  | bootstrapSuperAdministrator email =>
    change m ∈ (bootstrapSuperAdministrator cfg s.directory email).memberships at hm
    rcases bootstrap_cases cfg s.directory email with heq |
      ⟨created, user, role, log, rfl | rfl, -, heq⟩ <;> rw [heq] at hm <;> exact absurd hm hnot
  | register email =>
    change m ∈ (register cfg s.directory email).memberships at hm
    unfold register at hm
    split at hm <;> exact absurd hm hnot
  | setMfa user enabled => exact absurd hm hnot
  | changeContent rows credentials => exact absurd hm hnot
  | advance seconds => exact absurd hm hnot

/-- What a step adds to the role assignments: nothing, the administrator of a new organization, a role
assigned to a member, the roles of a restored package, or the first administrator. -/
theorem roles_step (cfg : Settings) {s : State} (h : s.directory.Sound) (a : Action) :
    ∃ rows, (step cfg s a).directory.tables.roleAssignments =
        s.directory.tables.roleAssignments ++ rows ∧
      (rows = [] ∨
        (∃ actor name role, a = .request actor (.createOrganization name) ∧
          systemRole? ORGANIZATION_ADMINISTRATOR = some role ∧
          rows = [⟨actor, role, some s.directory.nextUuid⟩] ∧ Founds cfg s a s.directory.nextUuid) ∨
        (∃ actor organization member slug user role,
          a = .request actor (.assignRole organization member slug) ∧
          s.directory.users.find? (·.id == member) = some user ∧
          AssignsRole cfg s actor organization member slug ∧ systemRole? slug = some role ∧
          (s.directory.users.find? (·.id == actor)).isSome = true ∧
          rows = [⟨user.id, role, some organization⟩]) ∨
        (∃ actor user draws pkg role, a = .request actor (.restore draws pkg) ∧
          s.directory.users.find? (·.id == actor) = some user ∧ Restores cfg s user draws pkg ∧
          systemRole? ORGANIZATION_ADMINISTRATOR = some role ∧
          Founds cfg s a s.directory.nextUuid ∧
          rows = ⟨user.id, role, some s.directory.nextUuid⟩ ::
            pkg.memberships.flatMap (entryRoles cfg s.directory.users s.directory.nextUuid)) ∨
        ∃ email user role, a = .bootstrapSuperAdministrator email ∧
          systemRole? PLATFORM_WIDE_ROLE_SLUG = some role ∧ rows = [⟨user, role, none⟩]) := by
  have hnone : ∀ {d : Directory},
      d.tables.roleAssignments = s.directory.tables.roleAssignments →
      d.tables.roleAssignments = s.directory.tables.roleAssignments ++ [] := by
    intro d heq
    rw [heq, List.append_nil]
  cases a with
  | request actor r =>
    cases hactor : s.directory.users.find? (·.id == actor) with
    | none =>
      refine ⟨[], hnone ?_, Or.inl rfl⟩
      simp only [step, hactor]
    | some user =>
      have hid := id_of_find hactor
      have hstep : ∀ r, step cfg s (.request actor r) = serve cfg s user r := by
        intro r
        simp only [step, hactor]
      rw [hstep]
      cases r with
      | createOrganization name =>
        rcases postOrganization_cases cfg s.directory user name with heq | ⟨role, log, hrole, heq⟩
        · exact ⟨[], hnone (congrArg (·.tables.roleAssignments) heq), Or.inl rfl⟩
        · refine ⟨_, congrArg (·.tables.roleAssignments) heq,
            Or.inr (Or.inl ⟨actor, name, role, rfl, hrole, by rw [hid], ?_⟩)⟩
          refine founds_createOrganization h hactor ⟨_, heq, ?_⟩
          exact ⟨_, List.mem_append_right _ (List.mem_singleton.2 rfl), rfl⟩
      | addMember organization email =>
        refine ⟨[], hnone ?_, Or.inl rfl⟩
        rcases postMembership_cases cfg s.now s.directory user.id organization email with heq |
          ⟨target, log, -, -, -, -, heq⟩ <;> exact congrArg (·.tables.roleAssignments) heq
      | assignRole organization member slug =>
        rcases postRole_cases cfg s.now s.directory user.id organization member slug with heq |
          ⟨target, role, log, htarget, horg, hperm, hexists, hassigns, heq⟩
        · exact ⟨[], hnone (congrArg (·.tables.roleAssignments) heq), Or.inl rfl⟩
        · refine ⟨_, congrArg (·.tables.roleAssignments) heq, Or.inr (Or.inr (Or.inl ?_))⟩
          refine ⟨actor, organization, member, slug, target, role, rfl, htarget, ?_,
            hassigns.known, by rw [hactor]; rfl, rfl⟩
          rw [hid] at horg hperm hassigns
          exact ⟨horg, hperm, hexists, target, htarget, role, hassigns.known, hassigns.allowed,
            hassigns.fresh⟩
      | createTeam organization name =>
        refine ⟨[], hnone ?_, Or.inl rfl⟩
        rcases postTeam_cases s.now s.directory user.id organization name with heq |
          ⟨log, -, -, heq⟩ <;> exact congrArg (·.tables.roleAssignments) heq
      | addTeamMember team target =>
        refine ⟨[], hnone ?_, Or.inl rfl⟩
        rcases postTeamMember_cases s.now s.directory user.id team target with heq |
          ⟨t, log, -, -, heq⟩ <;> exact congrArg (·.tables.roleAssignments) heq
      | removeTeamMember team target =>
        refine ⟨[], hnone ?_, Or.inl rfl⟩
        rcases deleteTeamMember_cases s.now s.directory user.id team target with heq |
          ⟨t, log, heq⟩ <;> exact congrArg (·.tables.roleAssignments) heq
      | registerApplication organization name =>
        refine ⟨[], hnone ?_, Or.inl rfl⟩
        rcases postApplication_cases s.now s.directory user.id organization name with heq |
          ⟨-, heq⟩
        · exact congrArg (·.tables.roleAssignments) heq
        rcases registerApplication_cases s.directory user.id organization name with heq' |
          ⟨log, email, heq'⟩ <;> exact congrArg (·.tables.roleAssignments) (heq.trans heq')
      | grantApplication application permission resourceType resourceId expiresAt =>
        refine ⟨[], hnone ?_, Or.inl rfl⟩
        rcases postApplicationGrant_cases s.now s.directory user.id application permission
          resourceType resourceId expiresAt with heq |
          ⟨app, grant, tables, -, -, -, -, hroles, -, heq⟩
        · exact congrArg (·.tables.roleAssignments) heq
        · exact (congrArg (·.tables.roleAssignments) heq).trans hroles
      | createShare r =>
        exact ⟨[], hnone (postShareGrant_rows s.sharing { r with actor := user.id }).1, Or.inl rfl⟩
      | revokeShare shareId requestId =>
        exact ⟨[], hnone (deleteShareGrant_rows s.sharing user.id shareId requestId).1, Or.inl rfl⟩
      | restore draws pkg =>
        rcases restore_cases cfg s.directory user draws pkg with heq |
          ⟨base, r, hstaged, hmembers, halive, hpackage, heq⟩
        · exact ⟨[], hnone (congrArg (·.tables.roleAssignments) heq), Or.inl rfl⟩
        · obtain ⟨role, hrole, -, -, -, hroles⟩ := restore_roles h hstaged hmembers
          have hfounds := founds_restore h hactor hstaged hmembers heq
          refine ⟨_, (congrArg (·.tables.roleAssignments) heq).trans (hroles halive),
            Or.inr (Or.inr (Or.inr (Or.inl
              ⟨actor, user, draws, pkg, role, rfl, hactor, ?_, hrole, hfounds, rfl⟩)))⟩
          obtain ⟨-, -, o, ho, hid'⟩ := hfounds
          refine ⟨r.directory, s.directory.nextUuid, r.report, hpackage, ?_⟩
          rw [hstep] at ho
          change o ∈ (restore cfg s.directory user draws pkg).organizations at ho
          rw [heq] at ho
          exact List.mem_map.2 ⟨o, ho, hid'⟩
  | bootstrapSuperAdministrator email =>
    rcases bootstrap_cases cfg s.directory email with heq |
      ⟨created, user, role, log, hcreated, hrole, heq⟩
    · exact ⟨[], hnone (congrArg (·.tables.roleAssignments) heq), Or.inl rfl⟩
    · refine ⟨[⟨user, role, none⟩], ?_,
        Or.inr (Or.inr (Or.inr (Or.inr ⟨email, user, role, rfl, hrole, rfl⟩)))⟩
      rcases hcreated with rfl | rfl <;> exact congrArg (·.tables.roleAssignments) heq
  | register email =>
    refine ⟨[], hnone ?_, Or.inl rfl⟩
    change (register cfg s.directory email).tables.roleAssignments = _
    unfold register
    split <;> rfl
  | setMfa user enabled => exact ⟨[], hnone rfl, Or.inl rfl⟩
  | changeContent rows credentials => exact ⟨[], hnone rfl, Or.inl rfl⟩
  | advance seconds => exact ⟨[], hnone rfl, Or.inl rfl⟩

/-- A request that passes the checks assigns the role. -/
theorem roles_of_assignsRole {cfg : Settings} {s : State} {actor organization member : Uuid}
    {slug : String} (hactor : (s.directory.users.find? (·.id == actor)).isSome = true)
    (hassigns : AssignsRole cfg s actor organization member slug) :
    ∃ role, systemRole? slug = some role ∧
      (step cfg s (.request actor (.assignRole organization member slug))
        ).directory.tables.roleAssignments =
          s.directory.tables.roleAssignments ++ [⟨member, role, some organization⟩] := by
  obtain ⟨user, huser⟩ := Option.isSome_iff_exists.1 hactor
  have hid := id_of_find huser
  obtain ⟨horg, hperm, hexists, target, htarget, role, hrole, hallowed, hfresh⟩ := hassigns
  obtain ⟨org, horg⟩ := Option.isSome_iff_exists.1 horg
  rw [← hid] at horg hperm hallowed
  have hchecks : Assigns cfg s.directory target slug (some organization) (some user.id) role :=
    ⟨hrole, (by intro hnone; cases hnone), hallowed, hfresh⟩
  obtain ⟨log, hpost⟩ := postRole_of_assigns horg hperm hexists htarget hchecks
  refine ⟨role, hrole, ?_⟩
  simp only [step, huser, serve, hpost]
  rw [← id_of_find htarget]
  rfl

/-- A restore that is committed adds the administrator and the rows of its entries. -/
theorem roles_of_restores {cfg : Settings} {s : State} (h : s.directory.Sound) {actor : Uuid}
    {user : User} (huser : s.directory.users.find? (·.id == actor) = some user)
    {draws : List String} {pkg : Package} (hrestores : Restores cfg s user draws pkg) :
    ∃ role, (step cfg s (.request actor (.restore draws pkg))
      ).directory.tables.roleAssignments = s.directory.tables.roleAssignments ++
        (⟨user.id, role, some s.directory.nextUuid⟩ ::
          pkg.memberships.flatMap (entryRoles cfg s.directory.users s.directory.nextUuid)) := by
  obtain ⟨d', o, report, hpackage, ho⟩ := hrestores
  rcases restore_cases cfg s.directory user draws pkg with hsame |
    ⟨base, r, hstaged, hmembers, halive, -, hrestore⟩
  · obtain ⟨rfl, base, r, hstaged, hmembers, hd', -⟩ := restorePackage_some hpackage
    have hd : d' = s.directory := by
      unfold restore at hsame
      rw [hpackage] at hsame
      exact hsame
    rw [hd] at ho
    obtain ⟨x, hx, hxid⟩ := List.mem_map.1 ho
    exact absurd (h.organizations x hx) (by rw [hxid]; exact Nat.lt_irrefl _)
  · obtain ⟨role, -, -, -, -, hroles⟩ := restore_roles h hstaged hmembers
    refine ⟨role, ?_⟩
    rw [← hroles halive]
    simp only [step, huser, serve, hrestore]

/-- The row of a package's entry, where the entry names the role. -/
theorem mem_restored_roles {cfg : Settings} {d : Directory} (organization : Uuid)
    {pkg : Package} {entry : MembershipEntry} {user : User} {slug : String} {role : Role}
    (hentry : entry ∈ pkg.memberships)
    (huser : userByEmail cfg d.users entry.email = .found user) (hslug : slug ∈ entry.roleSlugs)
    (hne : slug ≠ ORGANIZATION_ADMINISTRATOR) (hrole : systemRole? slug = some role) :
    (⟨user.id, role, some organization⟩ : RoleAssignment) ∈
      pkg.memberships.flatMap (entryRoles cfg d.users organization) := by
  refine List.mem_flatMap.2 ⟨entry, hentry, ?_⟩
  have haccount : account cfg d.users entry = some user := by
    unfold account
    rw [huser]
  unfold entryRoles
  rw [haccount]
  refine List.mem_filterMap.2 ⟨slug, hslug, ?_⟩
  unfold restoredRole
  rw [if_neg hne, hrole]
  rfl

/-- Whose row it is. -/
theorem found_of_account {cfg : Settings} {users : List User} {entry : MembershipEntry} {user : User}
    (h : account cfg users entry = some user) : userByEmail cfg users entry.email = .found user := by
  unfold account at h
  split at h
  · rename_i hlookup
    rw [← Option.some.inj h]
    exact hlookup
  · cases h
  · cases h

/-- A step adds a grant only where it may. -/
theorem grant_source {cfg : Settings} {s : State} {a : Action} {g : ResourceGrant}
    (h : s.directory.Sound) (hbefore : g ∉ s.directory.tables.resourceGrants)
    (hafter : g ∈ (step cfg s a).directory.tables.resourceGrants) :
    GrantSource g.organization s a := by
  have hsame : ∀ {d : Directory}, d.tables.resourceGrants = s.directory.tables.resourceGrants →
      g ∈ d.tables.resourceGrants → GrantSource g.organization s a := by
    intro d heq hg
    rw [heq] at hg
    exact absurd hg hbefore
  cases a with
  | request actor r =>
    cases hactor : s.directory.users.find? (·.id == actor) with
    | none =>
      simp only [step, hactor] at hafter
      exact absurd hafter hbefore
    | some user =>
      simp only [step, hactor] at hafter
      have hid := id_of_find hactor
      cases r with
      | createOrganization name =>
        refine hsame ?_ hafter
        rcases postOrganization_cases cfg s.directory user name with heq | ⟨role, log, -, heq⟩ <;>
          exact congrArg (·.tables.resourceGrants) heq
      | addMember organization email =>
        refine hsame ?_ hafter
        rcases postMembership_cases cfg s.now s.directory user.id organization email with heq |
          ⟨target, log, -, -, -, -, heq⟩ <;> exact congrArg (·.tables.resourceGrants) heq
      | assignRole organization member slug =>
        refine hsame ?_ hafter
        rcases postRole_cases cfg s.now s.directory user.id organization member slug with heq |
          ⟨target, role, log, -, -, -, -, -, heq⟩ <;> exact congrArg (·.tables.resourceGrants) heq
      | createTeam organization name =>
        refine hsame ?_ hafter
        rcases postTeam_cases s.now s.directory user.id organization name with heq |
          ⟨log, -, -, heq⟩ <;> exact congrArg (·.tables.resourceGrants) heq
      | addTeamMember team target =>
        refine hsame ?_ hafter
        rcases postTeamMember_cases s.now s.directory user.id team target with heq |
          ⟨t, log, -, -, heq⟩ <;> exact congrArg (·.tables.resourceGrants) heq
      | removeTeamMember team target =>
        refine hsame ?_ hafter
        rcases deleteTeamMember_cases s.now s.directory user.id team target with heq |
          ⟨t, log, heq⟩ <;> exact congrArg (·.tables.resourceGrants) heq
      | registerApplication organization name =>
        refine hsame ?_ hafter
        rcases postApplication_cases s.now s.directory user.id organization name with heq |
          ⟨-, heq⟩
        · exact congrArg (·.tables.resourceGrants) heq
        rcases registerApplication_cases s.directory user.id organization name with heq' |
          ⟨log, email, heq'⟩ <;> exact congrArg (·.tables.resourceGrants) (heq.trans heq')
      | grantApplication application permission resourceType resourceId expiresAt =>
        rcases postApplicationGrant_cases s.now s.directory user.id application permission
          resourceType resourceId expiresAt with heq |
          ⟨app, grant, tables, happ, happId, hperm, horg, -, hgrants, heq⟩
        · exact hsame (congrArg (·.tables.resourceGrants) heq) hafter
        · have hg : g ∈ tables.resourceGrants := by
            change g ∈ (postApplicationGrant s.now s.directory user.id application permission
              resourceType resourceId expiresAt).1.tables.resourceGrants at hafter
            rw [heq] at hafter
            exact hafter
          rw [hgrants] at hg
          rcases List.mem_append.1 hg with hg | hg
          · exact absurd hg hbefore
          · rw [List.mem_singleton.1 hg, horg]
            rw [hid] at hperm
            exact Or.inl ⟨actor, application, permission, resourceType, resourceId, expiresAt, rfl,
              ⟨app, happ, happId, rfl⟩, hperm⟩
      | createShare r =>
        obtain ⟨-, -, hgrants⟩ := postShareGrant_rows s.sharing { r with actor := user.id }
        rcases hgrants g hafter with hg | ⟨horg, hperm⟩
        · exact absurd hg hbefore
        · rw [hid] at hperm
          rw [horg]
          exact Or.inr ⟨actor, r, rfl, rfl, hperm⟩
      | revokeShare shareId requestId =>
        obtain ⟨-, -, hgrants⟩ := deleteShareGrant_rows s.sharing user.id shareId requestId
        exact absurd (hgrants g hafter) hbefore
      | restore draws pkg =>
        refine hsame ?_ hafter
        change (restore cfg s.directory user draws pkg).tables.resourceGrants = _
        rcases restore_cases cfg s.directory user draws pkg with heq |
          ⟨base, r, hstaged, hmembers, -, -, heq⟩ <;> rw [heq]
        obtain ⟨role, -, -, -, hran, -⟩ := restore_roles h hstaged hmembers
        exact hran.rest.resourceGrants.trans hstaged.resourceGrants
  | bootstrapSuperAdministrator email =>
    refine hsame ?_ hafter
    rcases bootstrap_cases cfg s.directory email with heq |
      ⟨created, user, role, log, rfl | rfl, -, heq⟩ <;> exact congrArg (·.tables.resourceGrants) heq
  | register email =>
    refine hsame ?_ hafter
    change (register cfg s.directory email).tables.resourceGrants = _
    unfold register
    split <;> rfl
  | setMfa user enabled => exact absurd hafter hbefore
  | changeContent rows credentials => exact absurd hafter hbefore
  | advance seconds => exact absurd hafter hbefore

/-- A step adds a role of an organization only where it may. -/
theorem role_source {cfg : Settings} {s : State} {a : Action} {r : RoleAssignment}
    {organization : Uuid} (h : s.directory.Sound)
    (hbefore : r ∉ s.directory.tables.roleAssignments)
    (hafter : r ∈ (step cfg s a).directory.tables.roleAssignments)
    (horg : r.organization = some organization) : RoleSource cfg organization s a := by
  obtain ⟨rows, heq, hrows⟩ := roles_step cfg h a
  rw [heq] at hafter
  have hnew : r ∈ rows := (List.mem_append.1 hafter).resolve_left hbefore
  rcases hrows with rfl | ⟨actor, name, role, -, -, rfl, hfounds⟩ |
    ⟨actor, o, member, slug, user, role, rfl, -, hassigns, -, -, rfl⟩ |
    ⟨actor, user, draws, pkg, role, -, -, -, -, hfounds, rfl⟩ | ⟨email, user, role, -, -, rfl⟩
  · cases hnew
  · rw [List.mem_singleton.1 hnew] at horg
    cases horg
    exact Or.inl hfounds
  · rw [List.mem_singleton.1 hnew] at horg
    cases horg
    exact Or.inr ⟨actor, member, slug, rfl, hassigns.2.1⟩
  · have hsame : organization = s.directory.nextUuid := by
      rcases List.mem_cons.1 hnew with rfl | hnew
      · exact (Option.some.inj horg).symm
      · obtain ⟨entry, -, hentry⟩ := List.mem_flatMap.1 hnew
        rw [entryRoles_organization hentry] at horg
        exact (Option.some.inj horg).symm
    rw [hsame]
    exact Or.inl hfounds
  · rw [List.mem_singleton.1 hnew] at horg
    cases horg

end Authority
