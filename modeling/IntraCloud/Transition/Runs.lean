import Mathlib.Logic.Basic
import Mathlib.Order.Basic

/-!
# Runs of a step function

A system is a step function `step : S → A → S` on its states; a run is a finite list of actions.
`Always step P s as` says that every step of the run from `s` satisfies `P`, where `P` sees the
state the action is taken in: it is how a condition on the environment ("no request of this kind
meets a state of that kind") and a safety property of every step of a run are both stated.
-/

namespace Transition

variable {S A O : Type*}

/-- The state a run ends in. -/
def run (step : S → A → S) (s : S) (as : List A) : S := as.foldl step s

/-- Some step of the run made `P` true, was of the kind `Q`, and `P` has held ever since. -/
def Made (step : S → A → S) (P : S → Prop) (Q : S → A → Prop) (s : S) (as : List A) : Prop :=
  ∃ before a after, as = before ++ a :: after ∧ ¬ P (run step s before) ∧
    Q (run step s before) a ∧ ∀ since, since <+: after → P (run step s (before ++ a :: since))

/-- `P` holds at every step of the run, of the action and the state it is taken in. -/
def Always (step : S → A → S) (P : S → A → Prop) : S → List A → Prop
  | _, [] => True
  | s, a :: as => P s a ∧ Always step P (step s a) as

instance Always.decidable (step : S → A → S) (P : S → A → Prop) [∀ s a, Decidable (P s a)] :
    ∀ s as, Decidable (Always step P s as)
  | _, [] => isTrue trivial
  | s, a :: as => @instDecidableAnd _ _ _ (Always.decidable step P (step s a) as)

/-- What an observer sees of the steps of a run, in their order; it may depend on the state. Two runs are
compared by what is seen of them. -/
def observations (step : S → A → S) (see : S → A → Option O) : S → List A → List O
  | _, [] => []
  | s, a :: as => (see s a).toList ++ observations step see (step s a) as

end Transition
