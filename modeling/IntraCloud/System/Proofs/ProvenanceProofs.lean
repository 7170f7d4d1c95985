import IntraCloud.System.Proofs.AuthorityProofs

/-!
# Isolation by provenance

Over every run each membership, role and grant has its source, and someone who has none of them in an
organization is shut out of it.
-/

namespace Authority

open Audit Exports Organizations Permissions Sharing Transition

/-- Whatever a run adds has a source, as every step's addition has. -/
theorem sourced (cfg : Settings) (as : List Action) : Sourced cfg as := by
  have hsound : ∀ s a, s.directory.Sound → (step cfg s a).directory.Sound :=
    fun s a h => sound_step cfg s a h
  refine ⟨fun user organization hmember => ?_, fun a ha organization horg => ?_, fun g hg => ?_⟩
  · refine made_of_run hsound (fun s a h hbefore hafter => membership_source h hbefore hafter)
      sound_start ?_ hmember
    rintro ⟨m, hm, -⟩
    cases hm
  · refine made_of_run hsound (fun s b h hbefore hafter => role_source h hbefore hafter horg)
      sound_start ?_ ha
    intro hstart
    cases hstart
  · refine made_of_run hsound (fun s b h hbefore hafter => grant_source h hbefore hafter)
      sound_start ?_ hg
    intro hstart
    cases hstart

section ShutOut

variable {s : State} {user organization : Uuid}

theorem isMember_iff_member :
    isMember s.directory.memberships user organization = true ↔ Member user organization s := by
  simp only [isMember, Member, List.any_eq_true, Bool.and_eq_true, beq_iff_eq, and_assoc]

/-- A query that asks for membership finds no row of the organization. -/
theorem find?_eq_none_of_outsider {α : Type} {rows : List α} {p : α → Bool}
    {organizationOf : α → Uuid} (h : Outsider s user organization)
    (hrows : ∀ r ∈ rows, p r = true → organizationOf r = organization) :
    rows.find? (fun r => p r && isMember s.directory.memberships user (organizationOf r)) =
      none := by
  refine List.find?_eq_none.2 fun r hr hcond => ?_
  rw [Bool.and_eq_true] at hcond
  obtain ⟨hp, hmember⟩ := hcond
  rw [hrows r hr hp] at hmember
  exact h.membership (isMember_iff_member.1 hmember)

theorem hasRolePermission_of_outsider (h : Outsider s user organization) (code : String) :
    hasRolePermission s.directory.tables user code organization = false := by
  refine List.any_eq_false.2 fun a ha hcond => ?_
  simp only [Bool.and_eq_true, Bool.or_eq_true, beq_iff_eq] at hcond
  obtain ⟨⟨horg, huser⟩, -⟩ := hcond
  obtain ⟨hscoped, hplatform⟩ := h.role a ha huser
  rcases horg with horg | horg
  · exact hscoped horg
  · exact hplatform horg

theorem hasResourcePermission_of_outsider (h : Outsider s user organization) (code : String)
    (resourceType : String) (resourceId : Uuid) :
    hasResourcePermission s.directory.tables s.now user code organization resourceType resourceId =
      false := by
  refine List.any_eq_false.2 fun g hg hcond => ?_
  simp only [Bool.and_eq_true, beq_iff_eq] at hcond
  obtain ⟨⟨⟨⟨⟨-, huser⟩, horg⟩, -⟩, -⟩, -⟩ := hcond
  exact h.grant g hg huser horg

/-- An outsider is shut out. -/
theorem shutOut_of_outsider (h : Outsider s user organization) :
    ShutOut s user organization := by
  have happlication : ∀ id,
      (∀ a ∈ s.directory.applications, a.id = id → a.organization = organization) →
      getMemberApplication s.directory user id = none :=
    fun id hrows => find?_eq_none_of_outsider h fun a ha hid => hrows a ha (beq_iff_eq.1 hid)
  refine ⟨?_, ?_, ?_, ?_, ?_, ?_, ?_⟩
  · exact find?_eq_none_of_outsider h fun o _ hid => beq_iff_eq.1 hid
  · exact fun id hrows => find?_eq_none_of_outsider h fun t ht hid => hrows t ht (beq_iff_eq.1 hid)
  · intro id hrows
    refine ⟨happlication id hrows, fun credential => ?_⟩
    unfold getMemberCredential
    rw [happlication id hrows]
    rfl
  · exact fun id hrows =>
      find?_eq_none_of_outsider h fun sh hsh hid => hrows sh hsh (beq_iff_eq.1 hid)
  · intro kind id hrows
    refine List.find?_eq_none.2 fun r hr hcond => ?_
    simp only [Bool.and_eq_true, beq_iff_eq] at hcond
    obtain ⟨⟨hkind, hid⟩, hmember⟩ := hcond
    rw [hrows r hr hkind hid, Option.any_some] at hmember
    exact h.membership (isMember_iff_member.1 hmember)
  · intro code resource
    unfold hasPermission
    rw [hasRolePermission_of_outsider h, Bool.false_or]
    cases resource with
    | none => rfl
    | some resource => exact hasResourcePermission_of_outsider h code resource.1 resource.2
  · exact hasResourcePermission_of_outsider h

end ShutOut

/-- Authority in an organization comes from founding it, from its service accounts, or from someone who
held the permission the operation requires; and where a user has none, nothing of it can be reached. -/
theorem isolated (cfg : Settings) (as : List Action) :
    Sourced cfg as ∧ ∀ user organization,
      Outsider (run (step cfg) start as) user organization →
        ShutOut (run (step cfg) start as) user organization :=
  ⟨sourced cfg as, fun _ _ h => shutOut_of_outsider h⟩

end Authority
