import IntraCloud.System.Proofs.AuthorityProofs

/-!
# Who holds system.admin

Only one role bundles the permission, so the question is who is assigned that role. A step keeps it among
the platform-wide super-administrators exactly where it is contained.
-/

namespace Authority

open Audit Exports Organizations Permissions Sharing Transition

theorem systemRole?_platformWide :
    systemRole? PLATFORM_WIDE_ROLE_SLUG = some ⟨PLATFORM_WIDE_ROLE_SLUG, PERMISSIONS⟩ := rfl

/-- Whoever is assigned the role of super-administrator anywhere holds it platform-wide. -/
def Administrators (d : Directory) : Prop :=
  ∀ a ∈ d.tables.roleAssignments, a.role.slug = PLATFORM_WIDE_ROLE_SLUG → PlatformWide d a.user

theorem onlyPlatformWide_iff {s : State} (h : s.directory.Sound) :
    OnlyPlatformWide s ↔ Administrators s.directory := by
  constructor
  · intro honly a ha hslug
    cases horg : a.organization with
    | none => exact ⟨a, ha, rfl, hslug, horg⟩
    | some organization =>
      have hrole : a.role = ⟨PLATFORM_WIDE_ROLE_SLUG, PERMISSIONS⟩ := by
        have hknown := h.known a ha
        rw [hslug, systemRole?_platformWide] at hknown
        exact (Option.some.inj hknown).symm
      refine honly a.user organization ?_
      have hcode : "system.admin" ∈ PERMISSIONS := by decide
      have hholds : hasRolePermission s.directory.tables a.user "system.admin" organization =
          true := by
        refine List.any_eq_true.2 ⟨a, ha, ?_⟩
        simp [horg, hrole, hcode]
      unfold hasPermission
      rw [hholds]
      rfl
  · intro hadministrators user organization hperm
    unfold hasPermission at hperm
    rw [Bool.or_false] at hperm
    obtain ⟨a, ha, hcond⟩ := List.any_eq_true.1 hperm
    simp only [Bool.and_eq_true, Bool.or_eq_true, beq_iff_eq] at hcond
    obtain ⟨⟨-, rfl⟩, hcode⟩ := hcond
    exact hadministrators a ha (slug_of_systemAdmin (h.known a ha) hcode)

section Rows

variable {d d' : Directory} {rows : List RoleAssignment}

theorem platformWide_mono (h : d'.tables.roleAssignments = d.tables.roleAssignments ++ rows)
    {user : Uuid} (huser : PlatformWide d user) : PlatformWide d' user := by
  obtain ⟨a, ha, hrest⟩ := huser
  refine ⟨a, ?_, hrest⟩
  rw [h]
  exact List.mem_append_left _ ha

/-- Rows of organizations make nobody a platform-wide super-administrator. -/
theorem platformWide_of_scoped
    (h : d'.tables.roleAssignments = d.tables.roleAssignments ++ rows)
    (hrows : ∀ a ∈ rows, a.organization ≠ none) {user : Uuid} (huser : PlatformWide d' user) :
    PlatformWide d user := by
  obtain ⟨a, ha, hid, hslug, horg⟩ := huser
  rw [h] at ha
  rcases List.mem_append.1 ha with ha | ha
  · exact ⟨a, ha, hid, hslug, horg⟩
  · exact absurd horg (hrows a ha)

/-- Where the administrators are platform-wide before, only the new rows matter. -/
theorem administrators_append (hd : Administrators d)
    (h : d'.tables.roleAssignments = d.tables.roleAssignments ++ rows)
    (hrows : ∀ a ∈ rows, a.role.slug = PLATFORM_WIDE_ROLE_SLUG → PlatformWide d' a.user) :
    Administrators d' := by
  intro a ha hslug
  rw [h] at ha
  rcases List.mem_append.1 ha with ha | ha
  · exact platformWide_mono h (hd a ha hslug)
  · exact hrows a ha hslug

end Rows

/-- The administrator of an organization is no super-administrator. -/
theorem administrator_slug {role : Role} (h : systemRole? ORGANIZATION_ADMINISTRATOR = some role) :
    role.slug ≠ PLATFORM_WIDE_ROLE_SLUG := by
  rw [systemRole?_slug h]
  decide

/-- A step that keeps `system.admin` among the platform-wide super-administrators is contained. -/
theorem contained_of_administrators {cfg : Settings} {s : State} {a : Action}
    (h : s.directory.Sound) (hafter : Administrators (step cfg s a).directory) :
    Contained cfg s a := by
  cases a with
  | request actor r =>
    cases r with
    | assignRole organization member slug =>
      intro hslug hactor hassigns
      obtain ⟨role, hrole, hrows⟩ := roles_of_assignsRole hactor hassigns
      have hnew : PlatformWide _ member :=
        hafter ⟨member, role, some organization⟩
          (by rw [hrows]; exact List.mem_append_right _ (List.mem_singleton.2 rfl))
          (by rw [systemRole?_slug hrole, hslug])
      refine platformWide_of_scoped hrows ?_ hnew
      intro x hx hnone
      rw [List.mem_singleton.1 hx] at hnone
      cases hnone
    | restore draws pkg =>
      intro user huser hrestores entry hentry hslug member hmember
      obtain ⟨role, heq⟩ := roles_of_restores h huser hrestores
      have hin := mem_restored_roles s.directory.nextUuid hentry hmember hslug (by decide)
        systemRole?_platformWide
      have hnew : PlatformWide _ member.id := hafter
        ⟨member.id, ⟨PLATFORM_WIDE_ROLE_SLUG, PERMISSIONS⟩, some s.directory.nextUuid⟩
        (by rw [heq]; exact List.mem_append_right _ (List.mem_cons_of_mem _ hin)) rfl
      refine platformWide_of_scoped heq ?_ hnew
      intro x hx hnone
      rcases List.mem_cons.1 hx with rfl | hx
      · cases hnone
      · obtain ⟨e, -, he⟩ := List.mem_flatMap.1 hx
        rw [entryRoles_organization he] at hnone
        cases hnone
    | _ => trivial
  | _ => trivial

/-- A contained step keeps it there. -/
theorem administrators_of_contained {cfg : Settings} {s : State} {a : Action}
    (h : s.directory.Sound) (hbefore : Administrators s.directory) (hcontained : Contained cfg s a) :
    Administrators (step cfg s a).directory := by
  obtain ⟨rows, heq, hrows⟩ := roles_step cfg h a
  refine administrators_append hbefore heq fun x hx hslug => ?_
  rcases hrows with rfl | ⟨actor, name, role, rfl, hrole, rfl, -⟩ |
    ⟨actor, o, member, slug, user, role, rfl, huser, hassigns, hrole, hactor, rfl⟩ |
    ⟨actor, user, draws, pkg, role, rfl, huser, hrestores, hrole, -, rfl⟩ |
    ⟨email, user, role, rfl, hrole, rfl⟩
  · cases hx
  · rw [List.mem_singleton.1 hx] at hslug
    exact absurd hslug (administrator_slug hrole)
  · rw [List.mem_singleton.1 hx] at hslug ⊢
    have hplatform := hcontained ((systemRole?_slug hrole).symm.trans hslug) hactor hassigns
    rw [← id_of_find huser] at hplatform
    exact platformWide_mono heq hplatform
  · rcases List.mem_cons.1 hx with rfl | hx
    · exact absurd hslug (administrator_slug hrole)
    · obtain ⟨entry, hentry, hx⟩ := List.mem_flatMap.1 hx
      obtain ⟨member, haccount, slug, hmem, hrow⟩ := mem_entryRoles hx
      obtain ⟨-, -, hrowSlug, hrowUser, -⟩ := restoredRole_some hrow
      have hfound := found_of_account haccount
      have hnamed : PLATFORM_WIDE_ROLE_SLUG ∈ entry.roleSlugs := by
        rw [← hslug, hrowSlug]
        exact hmem
      rw [hrowUser]
      exact platformWide_mono heq (hcontained user huser hrestores entry hentry hnamed member hfound)
  · rw [List.mem_singleton.1 hx] at hslug ⊢
    refine ⟨⟨user, role, none⟩, ?_, rfl, hslug, rfl⟩
    rw [heq]
    exact List.mem_append_right _ (List.mem_singleton.2 rfl)

/-- In every state of a run `system.admin` is for platform-wide super-administrators exactly where every
step of the run is contained. -/
theorem onlyPlatformWide_iff_contained (cfg : Settings) (as : List Action) :
    Always (step cfg) (fun s a => OnlyPlatformWide (step cfg s a)) start as ↔
      Always (step cfg) (Contained cfg) start as := by
  have hstart : start.directory.Sound ∧ Administrators start.directory := by
    refine ⟨sound_start, fun a ha => ?_⟩
    cases ha
  refine always_iff_of_invariant (I := fun s => s.directory.Sound ∧ Administrators s.directory)
    (fun s a hs => ?_) (fun s a hs honly => ?_) hstart as
  · rw [onlyPlatformWide_iff (sound_step cfg s a hs.1)]
    exact ⟨contained_of_administrators hs.1, administrators_of_contained hs.1 hs.2⟩
  · have hsound := sound_step cfg s a hs.1
    exact ⟨hsound, (onlyPlatformWide_iff hsound).1 honly⟩

/-- The administrator of an organization makes herself its super-administrator. -/
theorem not_onlyPlatformWide_of_assign :
    ¬ ∀ cfg as, OnlyPlatformWide (run (step cfg) start as) := by
  intro hall
  have honly := hall ⟨false, id, id⟩
    [.register "ada@example.org", .request 0 (.createOrganization "acme"),
      .request 0 (.assignRole 1 0 "super-administrator")] 0 1 (by decide)
  revert honly
  decide

end Authority
