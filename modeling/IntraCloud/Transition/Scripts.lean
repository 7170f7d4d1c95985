import IntraCloud.Transition.Proofs.RunsProofs

/-!
# Scripts that are started again

A script is a list of commands that may refuse. It stops at the first that does, and an interruption may stop it after
any command. Where every command settles its effect, a script that was interrupted any number of times ends, once it
runs through, as if it had run once.
-/

namespace Transition

variable {S : Type*}

/-- The state that the script stops in, and whether it has run through. -/
def runScript (s : S) : List (S → Option S) → S × Bool
  | [] => (s, true)
  | f :: fs =>
    match f s with
    | none => (s, false)
    | some s' => runScript s' fs

/-- After each command it is settled: it changes nothing any more; and the other commands leave it so. -/
structure Restartable (fs : List (S → Option S)) : Prop where
  settles : ∀ f ∈ fs, ∀ s s', f s = some s' → f s' = some s'
  keeps : ∀ f ∈ fs, ∀ g ∈ fs, ∀ s s', f s = some s → g s = some s' → f s' = some s'

variable {fs gs : List (S → Option S)} {f : S → Option S} {s s' : S}

theorem runScript_refused (h : f s = none) : runScript s (f :: fs) = (s, false) := by
  rw [runScript, h]

theorem runScript_done (h : f s = some s') : runScript s (f :: fs) = runScript s' fs := by
  rw [runScript, h]

theorem runScript_of_settled (hsettled : ∀ f ∈ fs, f s = some s) : runScript s (fs ++ gs) = runScript s gs := by
  induction fs with
  | nil => rfl
  | cons f fs ih =>
    rw [List.forall_mem_cons] at hsettled
    rw [List.cons_append, runScript_done hsettled.1]
    exact ih hsettled.2

theorem runScript_append (h : (runScript s fs).2 = true) :
    runScript s (fs ++ gs) = runScript (runScript s fs).1 gs := by
  induction fs generalizing s with
  | nil => rfl
  | cons f fs ih =>
    rw [List.cons_append]
    cases hf : f s with
    | none =>
      rw [runScript_refused hf] at h
      cases h
    | some s' =>
      rw [runScript_done hf] at h
      rw [runScript_done hf, runScript_done hf]
      exact ih h

/-- What has run through is settled, with what was so before. -/
theorem Restartable.settled {all done : List (S → Option S)} (h : Restartable all) (hsub : ∀ f ∈ fs, f ∈ all)
    (hdone : ∀ f ∈ done, f ∈ all ∧ f s = some s) (hthrough : (runScript s fs).2 = true) :
    ∀ f ∈ done ++ fs, f (runScript s fs).1 = some (runScript s fs).1 := by
  induction fs generalizing s done with
  | nil =>
    intro f hf
    rw [List.append_nil] at hf
    exact (hdone f hf).2
  | cons g fs ih =>
    rw [List.forall_mem_cons] at hsub
    cases hg : g s with
    | none =>
      rw [runScript_refused hg] at hthrough
      cases hthrough
    | some s' =>
      rw [runScript_done hg] at hthrough ⊢
      have hdone' : ∀ f ∈ done ++ [g], f ∈ all ∧ f s' = some s' := by
        intro f hf
        rcases List.mem_append.mp hf with hold | hnew
        · exact ⟨(hdone f hold).1, h.keeps f (hdone f hold).1 g hsub.1 s s' (hdone f hold).2 hg⟩
        · rw [List.mem_singleton.mp hnew]
          exact ⟨hsub.1, h.settles g hsub.1 s s' hg⟩
      intro f hf
      refine ih hsub.2 hdone' hthrough f ?_
      rwa [List.append_assoc, List.singleton_append]

/-- Starting again after a part of the script is starting once. -/
theorem Restartable.runScript_again (h : Restartable (fs ++ gs)) (hthrough : (runScript s fs).2 = true) :
    runScript (runScript s fs).1 (fs ++ gs) = runScript s (fs ++ gs) := by
  have hsettled : ∀ f ∈ [] ++ fs, f (runScript s fs).1 = some (runScript s fs).1 :=
    h.settled (fun f hf => List.mem_append_left gs hf) (fun f hf => absurd hf List.not_mem_nil) hthrough
  rw [List.nil_append] at hsettled
  rw [runScript_of_settled hsettled, runScript_append hthrough]

/-- Any number of interrupted attempts, and then one that is not. -/
theorem Restartable.runScript_of_attempts {A : Type*} {step : S → A → S} (h : Restartable fs)
    (hattempt : ∀ s a, ∃ before after, fs = before ++ after ∧ runScript s before = (step s a, true))
    (s : S) (attempts : List A) : runScript (run step s attempts) fs = runScript s fs := by
  refine run_invariant_of_forall (I := fun s' => runScript s' fs = runScript s fs) (fun s' a hs' => ?_) rfl attempts
  obtain ⟨before, after, rfl, hbefore⟩ := hattempt s' a
  have hagain : runScript (runScript s' before).1 (before ++ after) = runScript s' (before ++ after) :=
    h.runScript_again (by rw [hbefore])
  rw [hbefore] at hagain
  exact hagain.trans hs'

end Transition
