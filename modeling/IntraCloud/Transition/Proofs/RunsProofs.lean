import IntraCloud.Transition.Runs
import Mathlib.Data.List.Induction

/-!
# Invariants of runs

The induction over a run, once: an invariant that every step keeps, or keeps under a condition on
the step, holds in the state the run ends in; and two conditions that agree on every state
satisfying an invariant hold of the same runs.
-/

namespace Transition

variable {S A : Type*} {step : S → A → S} {s : S}

@[simp] theorem run_nil : run step s [] = s := rfl

@[simp] theorem run_cons (a : A) (as : List A) :
    run step s (a :: as) = run step (step s a) as := rfl

theorem run_append (as bs : List A) : run step s (as ++ bs) = run step (run step s as) bs :=
  List.foldl_append

@[simp] theorem always_nil (P : S → A → Prop) : Always step P s [] := trivial

@[simp] theorem always_cons (P : S → A → Prop) (a : A) (as : List A) :
    Always step P s (a :: as) ↔ P s a ∧ Always step P (step s a) as := Iff.rfl

/-- An invariant kept by every step that meets `P` holds after every run whose steps meet `P`. -/
theorem run_invariant {I : S → Prop} {P : S → A → Prop}
    (hstep : ∀ s a, I s → P s a → I (step s a)) (h0 : I s) {as : List A}
    (hP : Always step P s as) : I (run step s as) := by
  induction as generalizing s with
  | nil => exact h0
  | cons a as ih => exact ih (hstep s a h0 hP.1) hP.2

/-- The same for an invariant that every step keeps. -/
theorem run_invariant_of_forall {I : S → Prop} (hstep : ∀ s a, I s → I (step s a)) (h0 : I s)
    (as : List A) : I (run step s as) := by
  induction as generalizing s with
  | nil => exact h0
  | cons a as ih => exact ih (hstep s a h0)

/-- Where the invariant makes `P` imply `Q`, the runs that always meet `P` always meet `Q`. -/
theorem Always.mono_of_invariant {I : S → Prop} {P Q : S → A → Prop}
    (hPQ : ∀ s a, I s → P s a → Q s a) (hstep : ∀ s a, I s → P s a → I (step s a)) (h0 : I s)
    {as : List A} (hP : Always step P s as) : Always step Q s as := by
  induction as generalizing s with
  | nil => trivial
  | cons a as ih => exact ⟨hPQ s a h0 hP.1, ih (hstep s a h0 hP.1) hP.2⟩

/-- Where the invariant makes `P` and `Q` agree, the same runs always meet them. -/
theorem always_iff_of_invariant {I : S → Prop} {P Q : S → A → Prop}
    (hPQ : ∀ s a, I s → (P s a ↔ Q s a)) (hstep : ∀ s a, I s → P s a → I (step s a)) (h0 : I s)
    (as : List A) : Always step P s as ↔ Always step Q s as := by
  refine ⟨Always.mono_of_invariant (fun s a hs => (hPQ s a hs).1) hstep h0,
    Always.mono_of_invariant (fun s a hs => (hPQ s a hs).2) (fun s a hs hQ => ?_) h0⟩
  exact hstep s a hs ((hPQ s a hs).2 hQ)

/-- What does not hold at first and holds in the end was made true by some step, the last to do so; under
an invariant, that step is of whatever kind every such step is. -/
theorem made_of_run {I P : S → Prop} {Q : S → A → Prop} (hstep : ∀ s a, I s → I (step s a))
    (hsource : ∀ s a, I s → ¬ P s → P (step s a) → Q s a) (hI : I s) (h0 : ¬ P s) {as : List A}
    (h : P (run step s as)) : Made step P Q s as := by
  induction as using List.reverseRecOn with
  | nil => exact absurd h h0
  | append_singleton as a ih =>
    have hrun : run step s (as ++ [a]) = step (run step s as) a := run_append as [a]
    by_cases hbefore : P (run step s as)
    · obtain ⟨before, b, after, rfl, hnot, hkind, hsince⟩ := ih hbefore
      refine ⟨before, b, after ++ [a], by simp, hnot, hkind, fun since hpre => ?_⟩
      rcases List.prefix_concat_iff.1 hpre with rfl | hpre
      · rwa [List.append_assoc] at h
      · exact hsince since hpre
    · refine ⟨as, a, [], rfl, hbefore, ?_, fun since hpre => ?_⟩
      · rw [hrun] at h
        exact hsource _ a (run_invariant_of_forall hstep hI as) hbefore h
      · rw [List.prefix_nil.1 hpre]
        exact h

/-- Where, under an invariant, a step from `J` leads to `J` exactly if it meets `P`, the runs that always meet `P`
are those with `J` in every state. -/
theorem always_iff_forall_before {I J : S → Prop} {P : S → A → Prop} (hI : ∀ s a, I s → I (step s a))
    (hstep : ∀ s a, I s → J s → (P s a ↔ J (step s a))) (h0 : I s) (hJ : J s) (as : List A) :
    Always step P s as ↔ ∀ before after, as = before ++ after → J (run step s before) := by
  induction as generalizing s with
  | nil =>
    constructor
    · intro _ before after happend
      rw [(List.append_eq_nil_iff.mp happend.symm).1]
      exact hJ
    · intro _
      trivial
  | cons a as ih =>
    constructor
    · rintro ⟨hfirst, hrest⟩ before after happend
      have hnext := (hstep s a h0 hJ).mp hfirst
      cases before with
      | nil => exact hJ
      | cons b before =>
        rw [List.cons_append] at happend
        obtain ⟨rfl, htail⟩ := List.cons.inj happend
        exact (ih (hI s a h0) hnext).mp hrest before after htail
    · intro h
      have hnext : J (step s a) := h [a] as rfl
      refine ⟨(hstep s a h0 hJ).mpr hnext, (ih (hI s a h0) hnext).mpr ?_⟩
      intro before after happend
      exact h (a :: before) after (by rw [happend, List.cons_append])

/-! ## Unwinding

A relation between states that every step keeps, and under which the observer sees the same, gives
two runs that look the same: runs of the same actions, and a run and what is left of it when the
actions that the observer should not notice are taken out. -/

section Unwinding

variable {O : Type*} {see : S → A → Option O} {R : S → S → Prop} {P : S → A → Prop} {t : S}

@[simp] theorem observations_nil : observations step see s [] = [] := rfl

@[simp] theorem observations_cons (a : A) (as : List A) :
    observations step see s (a :: as) = (see s a).toList ++ observations step see (step s a) as := rfl

/-- Two runs of the same actions look the same. -/
theorem observations_eq_of_unwinding (hsee : ∀ s t a, R s t → P s a → see s a = see t a)
    (hstep : ∀ s t a, R s t → P s a → R (step s a) (step t a)) (h0 : R s t) {as : List A}
    (hP : Always step P s as) : observations step see s as = observations step see t as := by
  induction as generalizing s t with
  | nil => rfl
  | cons a as ih =>
    rw [observations_cons, observations_cons, hsee s t a h0 hP.1, ih (hstep s t a h0 hP.1) hP.2]

/-- A run looks the same when the actions that are not kept are taken out of it. -/
theorem observations_filter_of_unwinding {keep : A → Bool}
    (hsee : ∀ s t a, R s t → P s a → keep a = true → see s a = see t a)
    (hstep : ∀ s t a, R s t → P s a → keep a = true → R (step s a) (step t a))
    (hunseen : ∀ s a, keep a = false → see s a = none)
    (hdropped : ∀ s t a, R s t → P s a → keep a = false → R (step s a) t)
    (h0 : R s t) {as : List A} (hP : Always step P s as) :
    observations step see s as = observations step see t (as.filter keep) := by
  induction as generalizing s t with
  | nil => rfl
  | cons a as ih =>
    rw [observations_cons]
    by_cases hkeep : keep a = true
    · rw [List.filter_cons_of_pos hkeep, observations_cons, hsee s t a h0 hP.1 hkeep,
        ih (hstep s t a h0 hP.1 hkeep) hP.2]
    · have hdrop : keep a = false := Bool.not_eq_true _ ▸ hkeep
      rw [List.filter_cons_of_neg hkeep, hunseen s a hdrop,
        ih (hdropped s t a h0 hP.1 hdrop) hP.2]
      rfl

end Unwinding

end Transition
