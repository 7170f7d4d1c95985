import IntraCloud.System.Throttling
import IntraCloud.Transition.Proofs.RunsProofs

/-!
# Whose requests a budget counts

The run of all requests and the run of the members' requests agree on the budget of the organization. A
request by somebody else keeps that unless it is counted: it is for a table of the organization, which is
read off the URL, and the budget is not used up.
-/

namespace Throttling

open Authority Organizations Transition

variable {History : Type} {base : SimpleRateThrottle History} {cache : Cache History} {organization : Uuid}
  {a : Arrival}

/-! ## The budget of an organization -/

/-- What a request that is counted for the organization makes of its budget. -/
def charge (base : SimpleRateThrottle History) (organization : Uuid) (cache : Cache History) (now : Nat) :
    Bool × History :=
  base.allowRequest "20/minute" now (cache ("import", organization))

theorem allowRequest_import (organization : Uuid) (now : Nat) :
    allowRequest base cache (some "import") (some organization) now =
      ((charge base organization cache now).1,
        Function.update cache ("import", organization) (charge base organization cache now).2) := rfl

theorem concerns_iff :
    concerns organization a = true ↔ throttleOrganizationId a.db a.tableId = some organization := beq_iff_eq

theorem handle_ne_throttled (user : Uuid) : (handle a user == .throttled) = false := by
  unfold handle
  cases a.method with
  | get => dsimp only; split <;> rfl
  | post => dsimp only; split <;> rfl
  | options => rfl
  | other => rfl

/-- A request of an authenticated user for a table of the organization is charged to its budget. -/
theorem dispatch_of_concerns {user : Uuid} (huser : a.user = some user)
    (hconcerns : concerns organization a = true) :
    step base cache a ("import", organization) = (charge base organization cache a.now).2 ∧
      ((dispatch base cache a).2 == .throttled) = !(charge base organization cache a.now).1 := by
  unfold step dispatch
  rw [huser]
  dsimp only
  rw [concerns_iff.mp hconcerns, allowRequest_import]
  refine ⟨Function.update_self .., ?_⟩
  cases (charge base organization cache a.now).1 with
  | true => exact handle_ne_throttled user
  | false => rfl

/-- Every other request leaves it. -/
theorem step_of_not_concerns (h : a.user = none ∨ concerns organization a = false) :
    step base cache a ("import", organization) = cache ("import", organization) := by
  unfold step dispatch
  cases huser : a.user with
  | none => rfl
  | some user =>
    obtain h | h := h
    · exact nomatch huser.symm.trans h
    · dsimp only
      cases horganization : throttleOrganizationId a.db a.tableId with
      | none => rfl
      | some owner =>
        have hne : owner ≠ organization := by
          rintro rfl
          exact Bool.false_ne_true (h.symm.trans (concerns_iff.mpr horganization))
        rw [allowRequest_import]
        exact Function.update_of_ne (fun heq => hne (Prod.mk.inj heq).2.symm) ..

theorem user_of_byMember (h : byMember organization a = true) : ∃ user, a.user = some user := by
  obtain ⟨user, huser, -⟩ := (Option.any_eq_true _ _).mp h
  exact ⟨user, huser⟩

/-! ## Two runs -/

/-- The two caches hold the same for the organization. -/
def SameBudget (organization : Uuid) (cache cache' : Cache History) : Prop :=
  cache ("import", organization) = cache' ("import", organization)

theorem SameBudget.charge_eq {cache' : Cache History} (h : SameBudget organization cache cache') (now : Nat) :
    charge base organization cache now = charge base organization cache' now := by
  unfold charge
  rw [h]

theorem SameBudget.seen_eq {cache' : Cache History} (h : SameBudget organization cache cache') (a : Arrival) :
    seenByMembers base organization cache a = seenByMembers base organization cache' a := by
  unfold seenByMembers
  by_cases hseen : (byMember organization a && concerns organization a) = true
  · obtain ⟨hmember, hconcerns⟩ := Bool.and_eq_true_iff.mp hseen
    obtain ⟨user, huser⟩ := user_of_byMember hmember
    rw [if_pos hseen, if_pos hseen, (dispatch_of_concerns huser hconcerns).2,
      (dispatch_of_concerns huser hconcerns).2, h.charge_eq]
  · rw [if_neg hseen, if_neg hseen]

/-- A request that both runs have keeps the budgets the same. -/
theorem SameBudget.step {cache' : Cache History} (h : SameBudget organization cache cache') (a : Arrival) :
    SameBudget organization (step base cache a) (step base cache' a) := by
  unfold SameBudget
  cases huser : a.user with
  | none => rw [step_of_not_concerns (.inl huser), step_of_not_concerns (.inl huser), h]
  | some user =>
    by_cases hconcerns : concerns organization a = true
    · rw [(dispatch_of_concerns huser hconcerns).1, (dispatch_of_concerns huser hconcerns).1, h.charge_eq]
    · have hother : concerns organization a = false := Bool.not_eq_true _ ▸ hconcerns
      rw [step_of_not_concerns (.inr hother), step_of_not_concerns (.inr hother), h]

/-- So does one that only the first has, if it spares the budget. -/
theorem SameBudget.step_of_spares {cache' : Cache History}
    (hrefused : ∀ rate now history, (base.allowRequest rate now history).1 = false →
      (base.allowRequest rate now history).2 = history)
    (h : SameBudget organization cache cache') (hspares : Spares base organization cache a)
    (hdrop : byMember organization a = false) :
    SameBudget organization (Throttling.step base cache a) cache' := by
  unfold SameBudget
  by_cases hconcerns : concerns organization a = true
  · obtain hnone | hother | hexhausted := hspares hdrop
    · rw [step_of_not_concerns (.inl hnone), h]
    · exact absurd (hother.symm.trans hconcerns) Bool.false_ne_true
    · cases huser : a.user with
      | none => rw [step_of_not_concerns (.inl huser), h]
      | some user =>
        have hleft : (charge base organization cache a.now).2 = cache ("import", organization) :=
          hrefused _ _ _ hexhausted
        rw [(dispatch_of_concerns huser hconcerns).1, hleft, h]
  · rw [step_of_not_concerns (.inr (Bool.not_eq_true _ ▸ hconcerns)), h]

/-- In a run in which nobody else is counted for the organization, taking out the requests of those who are
no members of it changes nothing for its members. -/
theorem separate_of_always_spares
    (hrefused : ∀ rate now history, (base.allowRequest rate now history).1 = false →
      (base.allowRequest rate now history).2 = history)
    {as : List Arrival} (h : Always (step base) (Spares base organization) cache as) :
    Separate base organization cache as := by
  have hunseen : ∀ (cache : Cache History) (a : Arrival), byMember organization a = false →
      seenByMembers base organization cache a = none := by
    intro cache a hdrop
    unfold seenByMembers
    rw [hdrop]
    rfl
  refine observations_filter_of_unwinding (R := SameBudget organization) ?_ ?_ hunseen ?_ rfl h
  · exact fun _ _ a hsame _ _ => hsame.seen_eq a
  · exact fun _ _ a hsame _ _ => hsame.step a
  · exact fun _ _ a hsame hspares hdrop => hsame.step_of_spares hrefused hspares hdrop

/-! ## A window of a minute -/

/-- `SimpleRateThrottle` at 20 requests a minute: of the times of the requests, the newest first, those of
more than a minute ago are dropped from the end, and a request is refused where 20 are left. -/
def slidingWindow : SimpleRateThrottle (List Nat) where
  fresh := []
  allowRequest _ now history :=
    let recent := (history.reverse.dropWhile (· + 60 ≤ now)).reverse
    if 20 ≤ recent.length then (false, history) else (true, now :: recent)

/-- An organization with one member, 10, and one table, 5. -/
def exampleDb : State :=
  { start with
    directory := { start.directory with memberships := [⟨10, 1, none, .active⟩] }
    rows := [⟨.workspace, 2, 1⟩, ⟨.project, 3, 2⟩, ⟨.tenantDatabase, 4, 3⟩, ⟨.table, 5, 4⟩] }

/-- The member uses up the budget, somebody else is refused then, and a minute later the member is not. -/
theorem separate_of_always_spares_refused :
    Separate slidingWindow 1 (fun _ => []) (List.replicate 20 ⟨exampleDb, 0, some 10, .get, 5⟩ ++
      [⟨exampleDb, 1, some 99, .get, 5⟩, ⟨exampleDb, 61, some 10, .post, 5⟩]) := by
  refine separate_of_always_spares ?_ ?_
  · intro rate now history h
    simp only [slidingWindow] at h ⊢
    split at h
    · rename_i hfull
      rw [if_pos hfull]
    · cases h
  · unfold Spares Exhausted
    decide +kernel

/-- Twenty requests by somebody who is no member, and the member is throttled. -/
theorem not_separate_of_outsider :
    ¬ Separate slidingWindow 1 (fun _ => []) (List.replicate 20 ⟨exampleDb, 0, some 99, .get, 5⟩ ++
      [⟨exampleDb, 1, some 10, .post, 5⟩]) := by
  unfold Separate
  decide +kernel

end Throttling
