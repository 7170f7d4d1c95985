import IntraCloud.Exports.Proofs.MembershipsProofs
import Mathlib.Tactic.ByContra

/-!
# When a restored organization can have its slug

The draw makes the slug longer by nine characters, and only the name and the slug of the source were bounded.
-/

namespace Exports

open Audit Organizations Permissions Python

variable {cfg : Settings} {d : Directory} {actor : User} {name slug : String}

theorem length_uuidDraw (uuid : Nat) : (uuidDraw uuid).length = 8 := by
  rw [uuidDraw, String.length_ofList, List.length_take, length_hexText]
  rfl

theorem length_drawnSlug (uuid : Nat) : (drawnSlug cfg name uuid).length = (cfg.slugify name).length + 9 := by
  have hdash : ("-" : String).length = 1 := rfl
  rw [drawnSlug, String.length_append, String.length_append, length_uuidDraw, hdash]

/-- The columns and the constraint that a new organization meets. -/
theorem organizationInsertable_iff : d.organizationInsertable name slug = true ↔
    name.length ≤ 200 ∧ slug.length ≤ 200 ∧ hasSlug d slug = false := by
  unfold Directory.organizationInsertable varcharFits hasSlug
  rw [Bool.and_eq_true, Bool.and_eq_true, decide_eq_true_eq, decide_eq_true_eq, Bool.not_eq_true', and_assoc]

/-- A name that the API accepts fits its column. -/
theorem name_of_postOrganization (h : (postOrganization cfg d actor name).2 = .ok ()) : name.length ≤ 200 := by
  by_cases hinsertable : d.organizationInsertable name (cfg.slugify name) = true
  · exact (organizationInsertable_iff.mp hinsertable).1
  · have hfails : createOrganization cfg d name (cfg.slugify name) actor = .error .serverError := by
      unfold createOrganization
      rw [if_pos (by rw [Bool.not_eq_true] at hinsertable; rw [hinsertable]; rfl)]
    unfold postOrganization at h
    rw [hfails] at h
    cases h

/-- The generated slug is one of the drawn ones that are free. -/
theorem restoredSlug?_some {uuids : List Nat} (h : restoredSlug? cfg d name uuids = some slug) :
    hasSlug d slug = false ∧ ∃ uuid ∈ uuids, drawnSlug cfg name uuid = slug := by
  have hfree := List.find?_some h
  obtain ⟨uuid, huuid, hslug⟩ := List.mem_map.mp (List.mem_of_find?_eq_some h)
  exact ⟨(Bool.not_eq_true' _).mp hfree, uuid, huuid, hslug⟩

/-- The loop ends at the first draw that is free. -/
theorem restoredSlug?_of_free {uuids : List Nat}
    (h : ∃ uuid ∈ uuids, hasSlug d (drawnSlug cfg name uuid) = false) :
    ∃ slug, restoredSlug? cfg d name uuids = some slug := by
  obtain ⟨uuid, huuid, hfree⟩ := h
  apply Option.isSome_iff_exists.mp
  rw [restoredSlug?, List.find?_isSome]
  exact ⟨_, List.mem_map_of_mem huuid, by rw [hfree]; rfl⟩

/-- A restore that goes through has inserted its organization under the generated slug. -/
theorem restoredSlug?_of_restorePackage {uuids : List Nat} {pkg : Package} {result}
    (h : restorePackage cfg d actor (uuids.map uuidDraw) pkg = some result) :
    ∃ slug, restoredSlug? cfg d pkg.name uuids = some slug ∧ d.organizationInsertable pkg.name slug = true := by
  unfold restorePackage at h
  split at h
  · cases h
  simp only [Option.bind_eq_bind, Option.bind_eq_some_iff] at h
  obtain ⟨draw, hdraw, ⟨created, organization⟩, hcreated, -⟩ := h
  refine ⟨cfg.slugify pkg.name ++ "-" ++ draw, ?_, ?_⟩
  · rw [restoredSlug?, List.find?_map, Option.map_eq_some_iff]
    rw [List.find?_map, Option.map_eq_some_iff] at hdraw
    obtain ⟨uuid, huuid, rfl⟩ := hdraw
    exact ⟨uuid, huuid, rfl⟩
  · by_contra hinsertable
    rw [Bool.not_eq_true] at hinsertable
    unfold createOrganization at hcreated
    rw [hinsertable] at hcreated
    cases hcreated

/-- The names that can be restored are those whose slug leaves room for the draw. -/
theorem restoresUnderSlug_iff (haccepted : (postOrganization cfg d actor name).2 = .ok ()) :
    RestoresUnderSlug cfg name ↔ (cfg.slugify name).length ≤ 191 := by
  have hname := name_of_postOrganization haccepted
  constructor
  · intro h
    have hfree : hasSlug { d with organizations := [] } (drawnSlug cfg name 0) = false := rfl
    obtain ⟨slug, hslug, -, hlength, -⟩ :=
      h { d with organizations := [] } [0] ⟨0, List.mem_singleton_self 0, hfree⟩
    obtain ⟨-, uuid, -, rfl⟩ := restoredSlug?_some hslug
    rw [length_drawnSlug] at hlength
    omega
  · intro hlength d uuids hfree
    obtain ⟨slug, hslug⟩ := restoredSlug?_of_free hfree
    obtain ⟨hunused, uuid, -, rfl⟩ := restoredSlug?_some hslug
    have hfits : (drawnSlug cfg name uuid).length ≤ 200 := by
      rw [length_drawnSlug]
      omega
    exact ⟨_, hslug, hunused, hfits, organizationInsertable_iff.mpr ⟨hname, hfits, hunused⟩⟩

/-- An installation without organizations, whose names are all in the shape of a slug. -/
def slugNames : Settings := ⟨false, id, id⟩

/-- The user who creates them. -/
def founder : User := ⟨0, "ada@example.org", false⟩

/-- So many letters. -/
def letters (n : Nat) : String := String.ofList (List.replicate n 'a')

theorem length_letters (n : Nat) : (letters n).length = n := by
  rw [letters, String.length_ofList, List.length_replicate]

/-- The installation before its first organization. -/
def beforeOrganizations : Directory := ⟨[founder], [], [], [], [], ⟨[], [], [], []⟩, 1⟩

/-- The first organization is created where its name and slug fit. -/
theorem postOrganization_beforeOrganizations
    (h : beforeOrganizations.organizationInsertable name (slugNames.slugify name) = true) :
    (postOrganization slugNames beforeOrganizations founder name).2 = .ok () := by
  obtain ⟨role, hrole⟩ : ∃ role, systemRole? ORGANIZATION_ADMINISTRATOR = some role :=
    Option.isSome_iff_exists.mp (by decide)
  have hassigns : Assigns slugNames (beforeOrganizations.withOrganization name (slugNames.slugify name) founder.id)
      founder ORGANIZATION_ADMINISTRATOR (some beforeOrganizations.nextUuid) (some founder.id) role :=
    { known := hrole
      platformWide := fun hnone => nomatch hnone
      allowed := rfl
      fresh := rfl }
  obtain ⟨log, hassigned⟩ := assignRole_of_assigns hassigns
  unfold Directory.withOrganization at hassigned
  unfold postOrganization createOrganization
  have hfits : ¬ (!true) = true := Bool.false_ne_true
  rw [h, if_neg hfits]
  dsimp only
  rw [hassigned]
  dsimp only
  have haction : varcharFits 100 "organization.create" = true := by decide
  have htype : varcharFits 100 "organization" = true := by decide
  rw [record_fits (fits_eq haction htype)]

theorem restoresUnderSlug_iff_letters : RestoresUnderSlug slugNames (letters 191) := by
  have hlength : (letters 191).length = 191 := length_letters 191
  have hinsertable : beforeOrganizations.organizationInsertable (letters 191) (letters 191) = true :=
    organizationInsertable_iff.mpr ⟨by omega, by omega, rfl⟩
  exact (restoresUnderSlug_iff (postOrganization_beforeOrganizations hinsertable)).mpr (Nat.le_of_eq hlength)

/-- A name of 200 letters is accepted, and cannot be restored. -/
theorem not_restoresUnderSlug_letters :
    (postOrganization slugNames beforeOrganizations founder (letters 200)).2 = .ok () ∧
      ¬ RestoresUnderSlug slugNames (letters 200) := by
  have hlength : (letters 200).length = 200 := length_letters 200
  have hinsertable : beforeOrganizations.organizationInsertable (letters 200) (letters 200) = true :=
    organizationInsertable_iff.mpr ⟨by omega, by omega, rfl⟩
  refine ⟨postOrganization_beforeOrganizations hinsertable, ?_⟩
  intro h
  obtain ⟨slug, hslug, -, hfits, -⟩ := h beforeOrganizations [0] ⟨0, List.mem_singleton_self 0, rfl⟩
  obtain ⟨-, uuid, -, rfl⟩ := restoredSlug?_some hslug
  have hdrawn : (drawnSlug slugNames (letters 200) uuid).length = (letters 200).length + 9 := length_drawnSlug uuid
  omega

end Exports
