import IntraCloud.System.Authority
import IntraCloud.System.Proofs.AuthorityProofs

/-!
# Which requests bypass MFA

`assign_role` exempts the user who assigns a role to herself and the caller who names no granter. Founding an
organization uses the first exemption and the command line the second; so do a self-assignment in a view and
the restore of a package.
-/

namespace Authority

open Exports Organizations Permissions Transition

theorem inserted_eq {cfg : Settings} {s : State} {a : Action} {rows : List RoleAssignment}
    (h : (step cfg s a).directory.tables.roleAssignments =
      s.directory.tables.roleAssignments ++ rows) : inserted cfg s a = rows := by
  rw [inserted, h]
  exact List.drop_left

/-- The gateway lets an administrative role through where MFA is enabled, or where it is the user's own. -/
theorem mfaEnabled_of_allowed {cfg : Settings} {user : User} {role : Role} {actor : Uuid}
    (hgateway : cfg.internetGateway = true) (hrole : Administrative role) (hother : actor ≠ user.id)
    (h : cfg.refusesRole user role (some actor) = false) : user.mfaEnabled = true := by
  have hcodes : role.permissions.any (ADMIN_PERMISSION_CODES.contains ·) = true := by
    obtain ⟨code, hcode, hadmin⟩ := hrole
    exact List.any_eq_true.2 ⟨code, hcode, List.contains_iff_mem.2 hadmin⟩
  have hgranter : (some actor).any (· != user.id) = true := by
    rw [Option.any_some]
    exact bne_iff_ne.2 hother
  unfold Settings.refusesRole at h
  rw [hgateway, hgranter, hcodes] at h
  simpa using h

/-- Only a founding request bootstraps. -/
theorem founds_of_bootstraps {cfg : Settings} {s : State} {a : Action} {r : RoleAssignment}
    (h : Bootstraps cfg s a r) : (∃ actor name, a = .request actor (.createOrganization name)) ∨
      ∃ actor draws pkg, a = .request actor (.restore draws pkg) := by
  obtain ⟨-, -, organization, -, hkind, -⟩ := h
  exact hkind

/-- A request that complies is guarded. -/
theorem guarded_of_enrolled {cfg : Settings} (hgateway : cfg.internetGateway = true) {s : State}
    {a : Action} (h : s.directory.Sound) (henrolled : Enrolled cfg s a) : Guarded cfg s a := by
  cases a with
  | request actor request =>
    intro r hr hadmin
    obtain ⟨rows, heq, hrows⟩ := roles_step cfg h (.request actor request)
    rw [inserted_eq heq] at hr
    rcases hrows with rfl | ⟨_, name, role, hact, hrole, rfl, hfounds⟩ |
      ⟨_, o, member, slug, user, role, hact, huser, hassigns, hrole, hactor, rfl⟩ |
      ⟨_, user, draws, pkg, role, hact, huser, hrestores, hrole, hfounds, rfl⟩ |
      ⟨email, user, role, hact, -, -⟩
    · cases hr
    · -- the creator of an organization
      rw [List.mem_singleton.1 hr]
      exact Or.inr ⟨⟨_, hact⟩, systemRole?_slug hrole, _, rfl, hfounds⟩
    · -- a member is assigned a role
      cases hact
      rw [List.mem_singleton.1 hr] at hadmin ⊢
      left
      by_cases hself : actor = member
      · have hmfa := henrolled hself hactor hassigns role hrole hadmin
        rw [← id_of_find huser] at hmfa
        exact hmfa
      · obtain ⟨-, -, -, target, htarget, role', hrole', hallowed, -⟩ := hassigns
        obtain rfl : user = target := Option.some.inj (huser.symm.trans htarget)
        obtain rfl : role = role' := Option.some.inj (hrole.symm.trans hrole')
        have hother : actor ≠ user.id := by
          rw [id_of_find huser]
          exact hself
        exact ⟨user, List.mem_of_find?_eq_some huser, rfl,
          mfaEnabled_of_allowed hgateway hadmin hother hallowed⟩
    · -- a package is restored
      cases hact
      rcases List.mem_cons.1 hr with rfl | hr
      · right
        refine ⟨⟨.restore draws pkg, ?_⟩, systemRole?_slug hrole, _, rfl, hfounds⟩
        rw [id_of_find huser]
      · left
        obtain ⟨entry, hentry, hr⟩ := List.mem_flatMap.1 hr
        obtain ⟨member, haccount, slug, hslug, hrow⟩ := mem_entryRoles hr
        obtain ⟨hne, hknown, -, hmember, -⟩ := restoredRole_some hrow
        rw [hmember]
        exact henrolled user huser hrestores entry hentry slug hslug hne r.role hknown hadmin member
          (found_of_account haccount)
    · cases hact
  | _ => trivial

/-- A request that is guarded complies. -/
theorem enrolled_of_guarded {cfg : Settings} {s : State} {a : Action} (h : s.directory.Sound)
    (hguarded : Guarded cfg s a) : Enrolled cfg s a := by
  cases a with
  | request actor request =>
    cases request with
    | assignRole organization member slug =>
      intro hself hactor hassigns role hrole hadmin
      obtain ⟨role', hrole', heq⟩ := roles_of_assignsRole hactor hassigns
      obtain rfl : role = role' := Option.some.inj (Eq.trans (Eq.symm hrole) hrole')
      have hin : (⟨member, role, some organization⟩ : RoleAssignment) ∈
          inserted cfg s (.request actor (.assignRole organization member slug)) := by
        rw [inserted_eq heq]
        exact List.mem_singleton.2 rfl
      rcases hguarded _ hin hadmin with hmfa | hboot
      · exact hmfa
      · rcases founds_of_bootstraps hboot with ⟨_, _, hact⟩ | ⟨_, _, _, hact⟩
        · cases hact
        · cases hact
    | restore draws pkg =>
      intro user huser hrestores entry hentry slug hslug hne role hrole hadmin member hmember
      obtain ⟨administrator, heq⟩ := roles_of_restores h huser hrestores
      have hin := mem_restored_roles s.directory.nextUuid hentry hmember hslug hne hrole
      have hinserted : (⟨member.id, role, some s.directory.nextUuid⟩ : RoleAssignment) ∈
          inserted cfg s (.request actor (.restore draws pkg)) := by
        rw [inserted_eq heq]
        exact List.mem_cons_of_mem _ hin
      rcases hguarded _ hinserted hadmin with hmfa | ⟨-, hfounder, -⟩
      · exact hmfa
      · -- the role of the founder is none that an entry adds
        exact absurd ((systemRole?_slug hrole).symm.trans hfounder) hne
    | _ => trivial
  | _ => trivial

/-- In gateway mode every step of a run is guarded exactly where every step complies. -/
theorem guarded_iff_enrolled (cfg : Settings) (hgateway : cfg.internetGateway = true)
    (as : List Action) :
    Always (step cfg) (Guarded cfg) start as ↔ Always (step cfg) (Enrolled cfg) start as := by
  refine always_iff_of_invariant (I := fun s => s.directory.Sound) (fun s a hs => ?_)
    (fun s a hs _ => sound_step cfg s a hs) sound_start as
  exact ⟨enrolled_of_guarded hs, guarded_of_enrolled hgateway hs⟩

/-- A gateway installation. -/
def gateway : Settings := ⟨true, id, id⟩

/-- The founder of an organization assigns herself a second administrative role. -/
def selfAssignment : List Action :=
  [.register "ada@example.org", .request 0 (.createOrganization "acme"),
    .request 0 (.assignRole 1 0 "super-administrator")]

theorem guarded_iff_enrolled_selfAssignment :
    Always (step gateway) (Guarded gateway) start selfAssignment ↔
      Always (step gateway) (Enrolled gateway) start selfAssignment :=
  guarded_iff_enrolled gateway rfl selfAssignment

/-- Without MFA. -/
theorem not_guarded_of_selfAssignment :
    ¬ ∀ cfg as, cfg.internetGateway = true → Always (step cfg) (Guarded cfg) start as := by
  intro hall
  obtain ⟨-, -, hguarded, -⟩ := hall gateway selfAssignment rfl
  have hin : (⟨0, ⟨PLATFORM_WIDE_ROLE_SLUG, PERMISSIONS⟩, some 1⟩ : RoleAssignment) ∈
      inserted gateway (run (step gateway) start (selfAssignment.take 2))
        (.request 0 (.assignRole 1 0 "super-administrator")) := by decide
  have hadmin : Administrative ⟨PLATFORM_WIDE_ROLE_SLUG, PERMISSIONS⟩ := by decide
  rcases hguarded _ hin hadmin with hmfa | ⟨-, hfounder, -⟩
  · revert hmfa
    decide
  · exact absurd hfounder (by decide)

end Authority
