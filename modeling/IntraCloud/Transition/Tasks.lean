import Mathlib.Logic.Basic
import Mathlib.Tactic.SplitIfs

/-!
# Tasks that are run again

A task of a queue: where its body raises it asks for a retry, and it is run again so long as one is
scheduled. Asked with the exception of the body, the queue raises that one again once the retries are used
up: the handler of used-up retries is never reached, so the state a task ends in is the one the body of its
last attempt leaves.
-/

namespace Transition

/-- What asking for a retry raises. -/
inductive Asked (E : Type*) where
  | scheduled
  | maxRetriesExceeded
  | reraised (e : E)
  deriving DecidableEq, Repr

/-- Asking for a retry with the exception of the body. -/
def ask {E : Type*} (maxRetries retries : Nat) (e : E) : Asked E :=
  if retries < maxRetries then .scheduled else .reraised e

/-- A task on states `S`, with the circumstances `A` of an attempt and the exceptions `E`. -/
structure Task (S A E : Type*) where
  maxRetries : Nat
  body : S → A → S × Option E
  /-- The handler of the exception that says that the retries are used up. -/
  giveUp : E → S → S

namespace Task

variable {S A E : Type*} (t : Task S A E)

/-- One attempt, and whether another one is scheduled. -/
def attempt (retries : Nat) (s : S) (a : A) : S × Bool :=
  match t.body s a with
  | (s, none) => (s, false)
  | (s, some e) =>
    match ask t.maxRetries retries e with
    | .scheduled => (s, true)
    | .maxRetriesExceeded => (t.giveUp e s, false)
    | .reraised _ => (s, false)

/-- The attempts one after the other, and whether another one is scheduled. -/
def execute : Nat → S → List A → S × Bool
  | _, s, [] => (s, true)
  | retries, s, a :: as =>
    let out := t.attempt retries s a
    if out.2 then execute (retries + 1) out.1 as else out

/-- Once no further attempt is scheduled, the state is of this kind. -/
def Settles (T : S → Prop) (s : S) (as : List A) : Prop :=
  (t.execute 0 s as).2 = false → T (t.execute 0 s as).1

/-- The attempt after which none is scheduled meets `P`, in the state it starts in. -/
def Last (P : S → A → Prop) : Nat → S → List A → Prop
  | _, _, [] => True
  | retries, s, a :: as =>
    let out := t.attempt retries s a
    if out.2 then Last P (retries + 1) out.1 as else P s a

variable {t} {s : S}

/-- An attempt leaves what its body leaves. -/
theorem attempt_fst (retries : Nat) (a : A) : (t.attempt retries s a).1 = (t.body s a).1 := by
  unfold attempt ask
  cases hbody : t.body s a with
  | mk s' raised =>
    cases raised with
    | none => rfl
    | some e =>
      by_cases hretries : retries < t.maxRetries
      · simp only [if_pos hretries]
      · simp only [if_neg hretries]

/-- Another attempt is scheduled where the body has raised and a retry is left. -/
theorem attempt_snd (retries : Nat) (a : A) :
    (t.attempt retries s a).2 = true ↔ (t.body s a).2 ≠ none ∧ retries < t.maxRetries := by
  unfold attempt ask
  cases hbody : t.body s a with
  | mk s' raised =>
    cases raised with
    | none => simp
    | some e =>
      by_cases hretries : retries < t.maxRetries
      · simp [hretries]
      · simp [hretries]

/-- After an attempt that raises while a retry is left come the others. -/
theorem execute_cons {retries : Nat} {a : A} (hraises : (t.body s a).2 ≠ none)
    (hretries : retries < t.maxRetries) (as : List A) :
    t.execute retries s (a :: as) = t.execute (retries + 1) (t.body s a).1 as := by
  have hmore : (t.attempt retries s a).2 = true := (attempt_snd retries a).mpr ⟨hraises, hretries⟩
  rw [execute, if_pos hmore, attempt_fst]

theorem execute_singleton (retries : Nat) (a : A) : (t.execute retries s [a]).1 = (t.body s a).1 := by
  have hfirst := attempt_fst (t := t) (s := s) retries a
  rw [execute, execute]
  split
  · exact hfirst
  · exact hfirst

theorem last_cons {P : S → A → Prop} {retries : Nat} {a : A} (hraises : (t.body s a).2 ≠ none)
    (hretries : retries < t.maxRetries) (as : List A) :
    t.Last P retries s (a :: as) ↔ t.Last P (retries + 1) (t.body s a).1 as := by
  have hmore : (t.attempt retries s a).2 = true := (attempt_snd retries a).mpr ⟨hraises, hretries⟩
  rw [Last, if_pos hmore, attempt_fst]

/-- An attempt that raises nothing is the last one. -/
theorem last_of_returns {P : S → A → Prop} {a : A} (hreturns : (t.body s a).2 = none) (retries : Nat)
    (as : List A) : t.Last P retries s (a :: as) ↔ P s a := by
  have hdone : ¬ (t.attempt retries s a).2 = true := fun hmore =>
    ((attempt_snd retries a).mp hmore).1 hreturns
  rw [Last, if_neg hdone]

/-- Where an invariant makes the bodies that meet `P` be those that leave a state of the kind `T`, the last
attempt decides. -/
theorem settles_iff {I T : S → Prop} {P : S → A → Prop}
    (hstep : ∀ s a, I s → (t.body s a).2 ≠ none → I (t.body s a).1)
    (hlast : ∀ s a, I s → (T (t.body s a).1 ↔ P s a)) (h0 : I s) (as : List A) :
    t.Settles T s as ↔ t.Last P 0 s as := by
  have hall : ∀ (as : List A) (retries : Nat) (s : S), I s →
      (((t.execute retries s as).2 = false → T (t.execute retries s as).1) ↔ t.Last P retries s as) := by
    intro as
    induction as with
    | nil =>
      intro retries s _
      exact ⟨fun _ => trivial, fun _ hdone => (nomatch hdone)⟩
    | cons a as ih =>
      intro retries s hs
      unfold execute Last
      dsimp only
      by_cases hmore : (t.attempt retries s a).2 = true
      · rw [if_pos hmore, if_pos hmore]
        refine ih _ _ ?_
        rw [attempt_fst]
        exact hstep s a hs ((attempt_snd retries a).mp hmore).1
      · rw [if_neg hmore, if_neg hmore, attempt_fst]
        have hdone : (t.attempt retries s a).2 = false := Bool.eq_false_iff.mpr hmore
        rw [← hlast s a hs]
        exact ⟨fun h => h hdone, fun h _ => h⟩
  exact hall as 0 s h0

end Task

end Transition
