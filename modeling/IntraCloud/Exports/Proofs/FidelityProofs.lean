import IntraCloud.Exports.Memberships
import IntraCloud.System.Proofs.AuthorityProofs
import Mathlib.Data.List.Pairwise

/-!
# Members and roles survive exactly where the package is portable

What an export writes is well formed; what a restore of such a package leaves is read off the rows it adds.
-/

namespace Exports

open Audit Organizations Permissions Authority Transition

/-! ## Exported packages -/

/-- The roles are system roles, each named once, and the teams are listed. -/
structure WellFormed (pkg : Package) : Prop where
  nodup : ∀ e ∈ pkg.memberships, e.roleSlugs.Nodup
  known : ∀ e ∈ pkg.memberships, ∀ slug ∈ e.roleSlugs, (systemRole? slug).isSome = true
  teams : ∀ e ∈ pkg.memberships, ∀ name ∈ e.team, name ∈ pkg.teams

theorem roleSlugs_nodup {d : Directory} (h : d.Sound) (user organization : Uuid) :
    (roleSlugs d user organization).Nodup := by
  -- the slugs with the user are keys of the organization's rows
  have hsub : ((roleSlugs d user organization).map fun slug => (user, slug)).Sublist
      (rolesIn organization d) := by
    have hfilter : d.tables.roleAssignments.filter (fun a =>
        a.user == user && a.organization == some organization &&
          SYSTEM_ROLES.any (·.slug == a.role.slug)) =
        (d.tables.roleAssignments.filter (·.organization == some organization)).filter
          fun a => a.user == user && SYSTEM_ROLES.any (·.slug == a.role.slug) := by
      rw [List.filter_filter]
      refine List.filter_congr fun a _ => ?_
      cases a.user == user <;> cases a.organization == some organization <;> simp
    have hkeys : (roleSlugs d user organization).map (fun slug => (user, slug)) =
        roleKeys ((d.tables.roleAssignments.filter (·.organization == some organization)).filter
          fun a => a.user == user && SYSTEM_ROLES.any (·.slug == a.role.slug)) := by
      unfold roleSlugs roleKeys
      rw [hfilter, List.map_map]
      refine List.map_congr_left fun a ha => ?_
      have hcond := (List.mem_filter.1 ha).2
      rw [Bool.and_eq_true, beq_iff_eq] at hcond
      rw [hcond.1]
      rfl
    rw [hkeys]
    exact List.Sublist.map _ List.filter_sublist
  exact List.Nodup.of_map _ (List.Nodup.sublist hsub (h.once organization))

theorem roleSlugs_known {d : Directory} (h : d.Sound) {user organization : Uuid} {slug : String}
    (hslug : slug ∈ roleSlugs d user organization) : (systemRole? slug).isSome = true := by
  obtain ⟨a, ha, rfl⟩ := List.mem_map.1 hslug
  rw [h.known a (List.mem_filter.1 ha).1]
  rfl

theorem teamName_some {d : Directory} (h : d.Sound) {t : NamedTeam} (ht : t ∈ d.teams) :
    teamName d t.id = some t.name := by
  unfold teamName
  have hfound : d.teams.find? (·.id == t.id) = some t := by
    cases hfind : d.teams.find? (·.id == t.id) with
    | none =>
      have hnone := List.find?_eq_none.1 hfind t ht
      exact absurd (beq_self_eq_true t.id) hnone
    | some t' =>
      have hid := List.find?_some hfind
      have heq : t' = t :=
        List.inj_on_of_nodup_map h.teamIds (List.mem_of_find?_eq_some hfind) ht (beq_iff_eq.1 hid)
      rw [heq]
  rw [hfound]
  rfl

theorem wellFormed_export {d : Directory} (h : d.Sound) (organization : Organization)
    (contents : Option Contents) :
    WellFormed (exportOrganization d organization contents) := by
  refine ⟨fun e he => ?_, fun e he slug hslug => ?_, fun e he name hname => ?_⟩
  · obtain ⟨m, -, rfl⟩ := List.mem_map.1 he
    exact roleSlugs_nodup h m.user m.organization
  · obtain ⟨m, -, rfl⟩ := List.mem_map.1 he
    exact roleSlugs_known h hslug
  · obtain ⟨m, hm, rfl⟩ := List.mem_map.1 he
    obtain ⟨hmem, hcond⟩ := List.mem_filter.1 hm
    rw [Bool.and_eq_true, beq_iff_eq, beq_iff_eq] at hcond
    obtain ⟨id, hid, hteam⟩ := Option.bind_eq_some_iff.1 hname
    obtain ⟨t, ht, rfl, horg⟩ := h.teamOf m hmem id hid
    rw [teamName_some h ht] at hteam
    cases hteam
    refine List.mem_map.2 ⟨t, List.mem_filter.2 ⟨ht, ?_⟩, rfl⟩
    rw [horg, hcond.1]
    exact beq_self_eq_true _

/-! ## What is restored -/

section Restored

variable {cfg : Settings} {users : List User} {organization : Uuid}

theorem mem_account {entry : MembershipEntry} {user : User} :
    user ∈ account cfg users entry ↔ userByEmail cfg users entry.email = .found user := by
  unfold account
  cases userByEmail cfg users entry.email <;> simp [eq_comm]

/-- The keys of the rows an entry comes to. -/
theorem mem_entryKeys {entry : MembershipEntry} {user : Uuid} {slug : String}
    (hknown : ∀ slug ∈ entry.roleSlugs, (systemRole? slug).isSome = true) :
    (user, slug) ∈ roleKeys (entryRoles cfg users organization entry) ↔
      (∃ u ∈ account cfg users entry, u.id = user) ∧ slug ∈ entry.roleSlugs ∧
        slug ≠ ORGANIZATION_ADMINISTRATOR := by
  constructor
  · intro h
    obtain ⟨a, ha, heq⟩ := List.mem_map.1 h
    cases heq
    obtain ⟨u, hu, slug', hmem, hrow⟩ := mem_entryRoles ha
    obtain ⟨hne, -, hslug, huser, -⟩ := restoredRole_some hrow
    rw [hslug]
    exact ⟨⟨u, hu, huser.symm⟩, hmem, hne⟩
  · rintro ⟨⟨u, hu, rfl⟩, hmem, hne⟩
    obtain ⟨role, hrole⟩ := Option.isSome_iff_exists.1 (hknown slug hmem)
    refine List.mem_map.2 ⟨⟨u.id, role, some organization⟩, ?_, ?_⟩
    · unfold entryRoles
      rw [Option.mem_def.1 hu]
      refine List.mem_filterMap.2 ⟨slug, hmem, ?_⟩
      unfold restoredRole
      rw [if_neg hne, hrole]
      rfl
    · rw [systemRole?_slug hrole]

/-- Within an entry no row is repeated. -/
theorem entryKeys_nodup {entry : MembershipEntry} (hnodup : entry.roleSlugs.Nodup) :
    (roleKeys (entryRoles cfg users organization entry)).Nodup := by
  unfold entryRoles
  cases account cfg users entry with
  | none => exact List.nodup_nil
  | some user =>
    have hsub : ((entry.roleSlugs.filterMap (restoredRole organization user.id)).map
        fun a => a.role.slug).Sublist entry.roleSlugs := by
      generalize entry.roleSlugs = slugs
      induction slugs with
      | nil => exact List.Sublist.refl _
      | cons slug slugs ih =>
        cases hrow : restoredRole organization user.id slug with
        | none =>
          rw [List.filterMap_cons_none hrow]
          exact ih.cons _
        | some a =>
          rw [List.filterMap_cons_some hrow, List.map_cons, (restoredRole_some hrow).2.2.1]
          exact ih.cons_cons _
    have hslugs := List.Nodup.sublist hsub hnodup
    refine List.Nodup.of_map Prod.snd ?_
    unfold roleKeys
    rw [List.map_map]
    exact hslugs

theorem roleKeys_flatMap (entries : List MembershipEntry) :
    roleKeys (entries.flatMap (entryRoles cfg users organization)) =
      entries.flatMap fun e => roleKeys (entryRoles cfg users organization e) := by
  unfold roleKeys
  rw [List.map_flatMap]

/-- The transaction survives a portable package. -/
theorem nodup_of_portable {pkg : Package} (hpkg : WellFormed pkg) {actor : User}
    (h : Portable cfg users actor pkg.memberships) :
    ([(actor.id, ORGANIZATION_ADMINISTRATOR)] ++
      roleKeys (pkg.memberships.flatMap (entryRoles cfg users organization))).Nodup := by
  rw [roleKeys_flatMap]
  refine List.nodup_append.2 ⟨List.nodup_singleton _, List.nodup_flatMap.2 ⟨?_, ?_⟩, ?_⟩
  · exact fun e he => entryKeys_nodup (hpkg.nodup e he)
  · refine List.Pairwise.imp_of_mem ?_ h.independent
    intro e f he hf hind key hkeyE hkeyF
    obtain ⟨user, slug⟩ := key
    obtain ⟨⟨u, hu, huid⟩, hmem, hne⟩ := (mem_entryKeys (hpkg.known e he)).1 hkeyE
    obtain ⟨⟨v, hv, hvid⟩, -, -⟩ := (mem_entryKeys (hpkg.known f hf)).1 hkeyF
    exact hne ((hind u hu v hv (huid.trans hvid.symm)).1 slug hmem)
  · intro key hkey key' hkey' heq
    obtain ⟨e, he, hmem⟩ := List.mem_flatMap.1 hkey'
    rw [← heq, List.mem_singleton.1 hkey] at hmem
    exact ((mem_entryKeys (hpkg.known e he)).1 hmem).2.2 rfl

end Restored

/-- What is known of a restore of a well-formed package that leaves its transaction alive. -/
structure Committed (cfg : Settings) (target : Directory) (actor : User) (pkg : Package)
    (d : Directory) (report : RestoreReport) : Prop where
  pairwise : pkg.memberships.Pairwise fun e f =>
    ∀ key ∈ roleKeys (entryRoles cfg target.users target.nextUuid e),
      key ∉ roleKeys (entryRoles cfg target.users target.nextUuid f)
  assigned : ∀ user slug, d.assigned user slug (some target.nextUuid) = true ↔
    (user = actor.id ∧ slug = ORGANIZATION_ADMINISTRATOR) ∨
      ∃ e ∈ pkg.memberships, (∃ u ∈ account cfg target.users e, u.id = user) ∧
        slug ∈ e.roleSlugs ∧ slug ≠ ORGANIZATION_ADMINISTRATOR
  warnings : ∀ w ∈ report.warnings, systemRole? w.roleSlug = none
  restoring : membershipRows target.nextUuid actor.id d.memberships =
    [⟨actor.id, target.nextUuid, none, .active⟩]
  others : ∀ user, user ≠ actor.id →
    ∀ e ∈ pkg.memberships, (∃ u ∈ account cfg target.users e, u.id = user) →
    ∃ first ∈ pkg.memberships, (∃ u ∈ account cfg target.users first, u.id = user) ∧
      ∃ team, membershipRows target.nextUuid user d.memberships =
          [⟨user, target.nextUuid, team, .active⟩] ∧
        (first.team = some "" → team = none) ∧
        (first.team ≠ some "" → team.bind (teamName d) = first.team) ∧
        team.bind (teamName d) ≠ some ""

/-- The name of a team found by name. -/
theorem teamName_teamByName {base d : Directory} (hbase : base.Sound) (hteams : d.teams = base.teams)
    (organization : Uuid) (name : Option String) :
    (teamByName base organization name).bind (teamName d) ≠ some "" ∧
      (name = some "" → teamByName base organization name = none) ∧
      (name ≠ some "" → (∀ n ∈ name, ∃ t ∈ base.teams, t.organization = organization ∧ t.name = n) →
        (teamByName base organization name).bind (teamName d) = name) := by
  have hname : ∀ t ∈ base.teams, teamName d t.id = some t.name := by
    intro t ht
    have hsame : teamName d t.id = teamName base t.id := by
      unfold teamName
      rw [hteams]
    rw [hsame, teamName_some hbase ht]
  cases name with
  | none => simp [teamByName]
  | some n =>
    by_cases hempty : n = ""
    · subst hempty
      simp [teamByName]
    · have hlookup : teamByName base organization (some n) =
          (base.teams.find? fun t => t.organization == organization && t.name == n).map (·.id) := by
        simp [teamByName, hempty]
      rw [hlookup]
      cases hfind : base.teams.find? fun t => t.organization == organization && t.name == n with
      | none =>
        refine ⟨by simp, by simp, fun _ hlisted => ?_⟩
        obtain ⟨t, ht, horg, hn⟩ := hlisted n rfl
        have hnone := List.find?_eq_none.1 hfind t ht
        simp [horg, hn] at hnone
      | some t =>
        have hcond := List.find?_some hfind
        rw [Bool.and_eq_true, beq_iff_eq, beq_iff_eq] at hcond
        have hteam : teamName d t.id = some n := by
          rw [hname t (List.mem_of_find?_eq_some hfind), hcond.2]
        refine ⟨?_, ?_, fun _ _ => ?_⟩
        · simpa [hteam] using hempty
        · simpa using hempty
        · simpa using hteam

theorem committed {cfg : Settings} {target base : Directory} {actor : User} {pkg : Package}
    {s : Restoring} (htarget : target.Sound) (hpkg : WellFormed pkg)
    (hstaged : Staged target actor pkg base)
    (hmembers : restoreMemberships cfg target.nextUuid pkg.memberships ⟨base, false, {}⟩ = some s)
    (halive : s.aborted = false) :
    Committed cfg target actor pkg s.directory s.report := by
  obtain ⟨role, hrole, hnodup, hbaseRoles, hran, -⟩ := restore_roles htarget hstaged hmembers
  have hbase := hstaged.sound htarget
  rw [systemRole?_slug hrole] at hbaseRoles
  have hall := hran.alive.1 halive
  have hrolesIn : rolesIn target.nextUuid s.directory =
      [(actor.id, ORGANIZATION_ADMINISTRATOR)] ++ roleKeys
        (pkg.memberships.flatMap (entryRoles cfg target.users target.nextUuid)) := by
    rw [← hbaseRoles]
    refine rolesIn_append (hran.roles halive) fun a ha => ?_
    obtain ⟨e, -, he⟩ := List.mem_flatMap.1 ha
    exact entryRoles_organization he
  obtain ⟨-, hrows⟩ := restoreMemberships_some rfl hnodup hmembers
  have hbaseRows : ∀ user, membershipRows target.nextUuid user base.memberships =
      if user = actor.id then [⟨actor.id, target.nextUuid, none, .active⟩] else [] := by
    intro user
    have hold : membershipRows target.nextUuid user target.memberships = [] := by
      refine List.filter_eq_nil_iff.2 fun m hm hcond => ?_
      rw [Bool.and_eq_true, beq_iff_eq, beq_iff_eq] at hcond
      exact absurd (htarget.memberships m hm) (by rw [hcond.2]; exact Nat.lt_irrefl _)
    have happend : membershipRows target.nextUuid user base.memberships =
        membershipRows target.nextUuid user target.memberships ++
          membershipRows target.nextUuid user [⟨actor.id, target.nextUuid, none, .active⟩] := by
      rw [hstaged.memberships]
      exact List.filter_append _ _
    rw [happend, hold, List.nil_append]
    by_cases huser : user = actor.id
    · simp [membershipRows, huser]
    · have hne : ¬ actor.id = user := fun h => huser h.symm
      simp [membershipRows, huser, hne]
  refine ⟨?_, fun user slug => ?_, fun w hw => ?_, ?_, fun user huser e he haccount => ?_⟩
  · -- no key occurs twice, so no two entries share one
    rw [hbaseRoles, roleKeys_flatMap] at hall
    have hpairs := (List.nodup_flatMap.1 (List.nodup_append.1 hall).2.1).2
    exact hpairs.imp fun hdisjoint key hkey hkey' => hdisjoint hkey hkey'
  · rw [← mem_rolesIn, hrolesIn, roleKeys_flatMap, List.mem_append, List.mem_singleton,
      Prod.mk.injEq, List.mem_flatMap]
    refine or_congr Iff.rfl ?_
    constructor
    · rintro ⟨e, he, hmem⟩
      exact ⟨e, he, (mem_entryKeys (hpkg.known e he)).1 hmem⟩
    · rintro ⟨e, he, hmem⟩
      exact ⟨e, he, (mem_entryKeys (hpkg.known e he)).2 hmem⟩
  · rcases hran.warnings halive w hw with hw | hw
    · cases hw
    · exact hw
  · have hself := hrows actor.id
    rw [hbaseRows, if_pos rfl] at hself
    rw [hself]
    simp
  · have hself := hrows user
    rw [hbaseRows, if_neg huser, if_pos rfl] at hself
    obtain ⟨u, hu, huid⟩ := haccount
    have hentry : ∃ first, pkg.memberships.find?
        (fun f => (account cfg base.users f).any (·.id == user)) = some first := by
      refine Option.isSome_iff_exists.1 (List.find?_isSome.2 ⟨e, he, ?_⟩)
      rw [hstaged.users, Option.mem_def.1 hu, Option.any_some]
      exact beq_iff_eq.2 huid
    obtain ⟨first, hfirst⟩ := hentry
    have hcond := List.find?_some hfirst
    have hmemFirst := List.mem_of_find?_eq_some hfirst
    rw [hstaged.users] at hcond
    obtain ⟨v, hv, hvid⟩ := (Option.any_eq_true _ _).1 hcond
    have hrow : firstRow cfg base target.nextUuid user pkg.memberships =
        [⟨user, target.nextUuid, teamByName base target.nextUuid first.team, .active⟩] := by
      unfold firstRow
      rw [hfirst]
      rfl
    obtain ⟨hne, hnone, hsome⟩ := teamName_teamByName hbase
      (hran.rest.teams : s.directory.teams = base.teams) target.nextUuid first.team
    refine ⟨first, hmemFirst, ⟨v, hv, beq_iff_eq.1 hvid⟩, _, hself.trans hrow, hnone,
      fun hteam => hsome hteam fun n hn => ?_, hne⟩
    obtain ⟨new, hteams, hnames, hnewOrg, -⟩ := hstaged.teams
    have hlisted := hpkg.teams first hmemFirst n hn
    rw [← hnames] at hlisted
    obtain ⟨t, ht, htname⟩ := List.mem_map.1 hlisted
    refine ⟨t, ?_, hnewOrg t ht, htname⟩
    rw [hteams]
    exact List.mem_append_right _ ht

/-! ## The condition -/

section Condition

variable {cfg : Settings} {target d : Directory} {actor : User} {pkg : Package}
  {report : RestoreReport}

theorem Independent.symm {users : List User} {e f : MembershipEntry}
    (h : Independent cfg users e f) : Independent cfg users f e := by
  intro user huser user' huser' hid
  obtain ⟨he, hf, hteam⟩ := h user' huser' user huser hid.symm
  exact ⟨hf, he, hteam.symm⟩

/-- Two entries of a portable package with one account say the same. -/
theorem Portable.agree {users : List User} {memberships : List MembershipEntry}
    (h : Portable cfg users actor memberships) {e f : MembershipEntry} (he : e ∈ memberships)
    (hf : f ∈ memberships) {user user' : User} (huser : user ∈ account cfg users e)
    (huser' : user' ∈ account cfg users f) (hid : user.id = user'.id) :
    e.team = f.team ∧ ∀ slug ∈ f.roleSlugs, slug ≠ ORGANIZATION_ADMINISTRATOR →
      slug ∈ e.roleSlugs := by
  by_cases hef : e = f
  · subst hef
    exact ⟨rfl, fun slug hslug _ => hslug⟩
  · have hsymm : Std.Symm (Independent cfg users) := ⟨fun _ _ h => h.symm⟩
    have hind := h.independent.forall he hf hef
    obtain ⟨-, hroles, hteam⟩ := hind user huser user' huser' hid
    exact ⟨hteam, fun slug hslug hne => absurd (hroles slug hslug) hne⟩

theorem restoresMembers_of_portable (hd : Committed cfg target actor pkg d report)
    (h : Portable cfg target.users actor pkg.memberships) :
    RestoresMembers cfg target pkg (d, target.nextUuid, report) := by
  intro e he user hlookup
  have huser : user ∈ account cfg target.users e := mem_account.2 hlookup
  refine ⟨?_, fun slug hslug => Or.inl ?_, fun slug hassigned => ?_⟩
  · by_cases hactor : user.id = actor.id
    · obtain ⟨-, hteam⟩ := h.restoring e he user huser hactor
      refine ⟨none, ?_, hteam.symm⟩
      rw [hactor]
      exact hd.restoring
    · obtain ⟨first, hfirst, ⟨v, hv, hvid⟩, team, hrow, -, hteam, -⟩ :=
        hd.others user.id hactor e he ⟨user, huser, rfl⟩
      have hagree : e.team = first.team := (h.agree he hfirst huser hv hvid.symm).1
      refine ⟨team, hrow, ?_⟩
      rw [hagree]
      refine hteam ?_
      rw [← hagree]
      exact (h.others e he user huser hactor).2
  · refine (hd.assigned user.id slug).2 ?_
    by_cases hadmin : slug = ORGANIZATION_ADMINISTRATOR
    · left
      refine ⟨?_, hadmin⟩
      by_cases hactor : user.id = actor.id
      · exact hactor
      · rw [hadmin] at hslug
        exact absurd hslug (h.others e he user huser hactor).1
    · exact Or.inr ⟨e, he, ⟨user, huser, rfl⟩, hslug, hadmin⟩
  · rcases (hd.assigned user.id slug).1 hassigned with ⟨hactor, rfl⟩ |
      ⟨f, hf, ⟨v, hv, hvid⟩, hmem, hne⟩
    · exact (h.restoring e he user huser hactor).1
    · exact (h.agree he hf huser hv hvid.symm).2 slug hmem hne

theorem portable_of_restoresMembers (hpkg : WellFormed pkg)
    (hd : Committed cfg target actor pkg d report)
    (h : RestoresMembers cfg target pkg (d, target.nextUuid, report)) :
    Portable cfg target.users actor pkg.memberships := by
  have hfaithful : ∀ e ∈ pkg.memberships, ∀ user ∈ account cfg target.users e,
      Faithful d target.nextUuid report user.id e :=
    fun e he user huser => h e he user (mem_account.1 huser)
  -- a known role is never among the warnings
  have hroles : ∀ e ∈ pkg.memberships, ∀ user ∈ account cfg target.users e,
      ∀ slug ∈ e.roleSlugs, d.assigned user.id slug (some target.nextUuid) = true := by
    intro e he user huser slug hslug
    rcases (hfaithful e he user huser).roles slug hslug with hassigned | hwarned
    · exact hassigned
    · have hknown := hpkg.known e he slug hslug
      rw [hd.warnings _ hwarned] at hknown
      cases hknown
  refine ⟨fun e he user huser hactor => ⟨fun hadmin => ?_, fun hteam => ?_⟩,
    fun e he user huser hactor => ⟨?_, ?_⟩, ?_⟩
  · rcases (hd.assigned user.id _).1 (hroles e he user huser _ hadmin) with ⟨hid, -⟩ |
      ⟨f, -, -, -, hne⟩
    · exact hactor hid
    · exact hne rfl
  · obtain ⟨first, -, -, team, hrow, -, -, hempty⟩ :=
      hd.others user.id hactor e he ⟨user, huser, rfl⟩
    obtain ⟨team', hrow', hteam'⟩ := (hfaithful e he user huser).member
    rw [hrow] at hrow'
    cases hrow'
    exact hempty (hteam'.trans hteam)
  · refine (hfaithful e he user huser).only _ ((hd.assigned user.id _).2 (Or.inl ⟨hactor, rfl⟩))
  · obtain ⟨team, hrow, hteam⟩ := (hfaithful e he user huser).member
    rw [hactor, hd.restoring] at hrow
    cases hrow
    exact hteam.symm
  · refine List.Pairwise.imp_of_mem ?_ hd.pairwise
    intro e f he hf hdisjoint user huser user' huser' hid
    -- a role of both would be assigned twice
    have hboth : ∀ slug, slug ∈ e.roleSlugs → slug ∈ f.roleSlugs →
        slug = ORGANIZATION_ADMINISTRATOR := by
      intro slug hslugE hslugF
      by_cases hne : slug = ORGANIZATION_ADMINISTRATOR
      · exact hne
      · refine absurd ((mem_entryKeys (hpkg.known f hf)).2 ⟨⟨user', huser', hid.symm⟩, hslugF, hne⟩)
          (hdisjoint (user.id, slug) ?_)
        exact (mem_entryKeys (hpkg.known e he)).2 ⟨⟨user, huser, rfl⟩, hslugE, hne⟩
    refine ⟨fun slug hslug => hboth slug hslug ?_, fun slug hslug => hboth slug ?_ hslug, ?_⟩
    · refine (hfaithful f hf user' huser').only slug ?_
      rw [← hid]
      exact hroles e he user huser slug hslug
    · refine (hfaithful e he user huser).only slug ?_
      rw [hid]
      exact hroles f hf user' huser' slug hslug
    · obtain ⟨team, hrow, hteam⟩ := (hfaithful e he user huser).member
      obtain ⟨team', hrow', hteam'⟩ := (hfaithful f hf user' huser').member
      rw [hid, hrow'] at hrow
      cases hrow
      exact hteam.symm.trans hteam'

/-- The restore of a well-formed package restores its members exactly where it is portable. -/
theorem restoresMembers_iff_portable (htarget : target.Sound) (hpkg : WellFormed pkg)
    {draws : List String} {result : Directory × Uuid × RestoreReport}
    (h : restorePackage cfg target actor draws pkg = some result) :
    RestoresMembers cfg target pkg result ↔ Portable cfg target.users actor pkg.memberships := by
  obtain ⟨d', o, report'⟩ := result
  obtain ⟨rfl, base, s, hstaged, hmembers, rfl, rfl⟩ := restorePackage_some h
  obtain ⟨role, hrole, hnodup, hbaseRoles, hran, -⟩ := restore_roles htarget hstaged hmembers
  rw [systemRole?_slug hrole] at hbaseRoles
  cases haborted : s.aborted with
  | false =>
    have hd := committed htarget hpkg hstaged hmembers haborted
    simp only [Bool.false_eq_true, if_false]
    exact ⟨portable_of_restoresMembers hpkg hd, restoresMembers_of_portable hd⟩
  | true =>
    -- a role was assigned twice, so there are entries, and nothing of them is left
    have hdead : ¬ (rolesIn target.nextUuid base ++ roleKeys (pkg.memberships.flatMap
        (entryRoles cfg target.users target.nextUuid))).Nodup := by
      intro hall
      rw [hran.alive.2 hall] at haborted
      cases haborted
    constructor
    · intro hrestores
      have hsome : ∃ e ∈ pkg.memberships, ∃ user, user ∈ account cfg target.users e := by
        by_cases hnone : ∃ e ∈ pkg.memberships, ∃ user, user ∈ account cfg target.users e
        · exact hnone
        · refine absurd ?_ hdead
          have hrows : pkg.memberships.flatMap (entryRoles cfg target.users target.nextUuid) =
              [] := by
            refine List.flatMap_eq_nil_iff.2 fun e he => ?_
            have haccount : account cfg target.users e = none := by
              cases hcase : account cfg target.users e with
              | none => rfl
              | some user => exact absurd ⟨e, he, user, hcase⟩ hnone
            unfold entryRoles
            rw [haccount]
          rw [hrows]
          simpa [roleKeys] using hnodup
      obtain ⟨e, he, user, huser⟩ := hsome
      obtain ⟨team, hrow, -⟩ := (hrestores e he user (mem_account.1 huser)).member
      have hin : (⟨user.id, target.nextUuid, team, .active⟩ : Membership) ∈
          target.memberships := by
        have hmem : (⟨user.id, target.nextUuid, team, .active⟩ : Membership) ∈
            membershipRows target.nextUuid user.id target.memberships := by
          simp only [if_true] at hrow
          rw [hrow]
          exact List.mem_singleton.2 rfl
        exact (List.mem_filter.1 hmem).1
      exact absurd (htarget.memberships _ hin) (Nat.lt_irrefl _)
    · intro hportable
      refine absurd ?_ hdead
      rw [hbaseRoles]
      exact nodup_of_portable hpkg hportable

end Condition

/-- A package exported from one platform and restored on another gives every member with an account its
roles and its team exactly where it is portable. -/
theorem members_restored_iff (cfg cfg' : Settings) (as bs : List Action) (source : Organization)
    (contents : Option Contents) (actor : User) (draws : List String)
    (result : Directory × Uuid × RestoreReport)
    (h : restorePackage cfg' (run (step cfg') start bs).directory actor draws
      (exportOrganization (run (step cfg) start as).directory source contents) = some result) :
    RestoresMembers cfg' (run (step cfg') start bs).directory
        (exportOrganization (run (step cfg) start as).directory source contents) result ↔
      Portable cfg' (run (step cfg') start bs).directory.users actor
        (exportOrganization (run (step cfg) start as).directory source contents).memberships := by
  have hsound : ∀ (cfg : Settings) as, (run (step cfg) start as).directory.Sound :=
    fun cfg as => run_invariant_of_forall (I := fun s : State => s.directory.Sound)
      (fun s a hs => sound_step cfg s a hs) sound_start as
  exact restoresMembers_iff_portable (hsound cfg' bs) (wellFormed_export (hsound cfg as) _ _) h

/-- Ada founds an organization and takes Bob in, with a role. -/
def bobJoins (slug : String) : List Action :=
  [.register "ada@example.org", .register "bob@example.org",
    .request 0 (.createOrganization "acme"), .request 0 (.addMember 2 "bob@example.org"),
    .request 0 (.assignRole 2 1 slug)]

/-- What Ada gets from restoring the organization where both have accounts. -/
def adaRestores (slug : String) : Option (Directory × Uuid × RestoreReport) :=
  restorePackage ⟨false, id, id⟩
    (run (step ⟨false, id, id⟩) start
      [.register "ada@example.org", .register "bob@example.org"]).directory
    ⟨0, "ada@example.org", false⟩ ["0a1b2c3d"]
    (exportOrganization (run (step ⟨false, id, id⟩) start (bobJoins slug)).directory
      ⟨2, "acme", "acme"⟩ (some ⟨[], 0⟩))

theorem members_restored_iff_viewer :
    ∃ result, adaRestores "viewer" = some result ∧
      (RestoresMembers ⟨false, id, id⟩
          (run (step ⟨false, id, id⟩) start
            [.register "ada@example.org", .register "bob@example.org"]).directory
          (exportOrganization (run (step ⟨false, id, id⟩) start (bobJoins "viewer")).directory
            ⟨2, "acme", "acme"⟩ (some ⟨[], 0⟩)) result ↔
        Portable ⟨false, id, id⟩
          (run (step ⟨false, id, id⟩) start
            [.register "ada@example.org", .register "bob@example.org"]).directory.users
          ⟨0, "ada@example.org", false⟩
          (exportOrganization (run (step ⟨false, id, id⟩) start (bobJoins "viewer")).directory
            ⟨2, "acme", "acme"⟩ (some ⟨[], 0⟩)).memberships) := by
  have hsome : (adaRestores "viewer").isSome = true := by decide
  have hresult : adaRestores "viewer" = some ((adaRestores "viewer").get hsome) :=
    (Option.some_get hsome).symm
  exact ⟨_, hresult, members_restored_iff _ _ _ _ _ _ _ _ _ hresult⟩

/-- Bob is an administrator of the exported organization, and afterwards a plain member of the restored
one; the report says nothing. -/
theorem not_restoresMembers_of_administrator :
    ¬ ∀ cfg cfg' as bs source contents actor draws result,
      restorePackage cfg' (run (step cfg') start bs).directory actor draws
        (exportOrganization (run (step cfg) start as).directory source contents) = some result →
      RestoresMembers cfg' (run (step cfg') start bs).directory
        (exportOrganization (run (step cfg) start as).directory source contents) result := by
  intro hall
  have hfaithful := hall _ _ (bobJoins "organization-administrator") _ _ _ _ _ _
    (Option.some_get (by decide : (adaRestores "organization-administrator").isSome = true)).symm
    ⟨"bob@example.org", none, ["organization-administrator"]⟩ (by decide)
    ⟨1, "bob@example.org", false⟩ (by decide)
  have hrole := hfaithful.roles "organization-administrator" (by decide)
  revert hrole
  decide

end Exports
