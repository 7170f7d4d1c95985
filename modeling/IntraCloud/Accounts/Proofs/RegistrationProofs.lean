import IntraCloud.Accounts.Registration
import IntraCloud.Accounts.Views
import IntraCloud.Transition.Proofs.RunsProofs
import Mathlib.Data.List.Pairwise
import Mathlib.Tactic.ByContra
import Mathlib.Tactic.Push
import Mathlib.Tactic.SplitIfs

/-!
# When registrations keep addresses apart

The check and the insertion are two steps, and the constraint of the column tells spellings apart that the check
does not. What a check has seen stays: users are only added.
-/

namespace Registration

open Organizations Python Transition

variable {env : Environment} {x : Registry} {a : Action} {email : String} {seen : Nat}

/-! ## One step -/

theorem knows_iff : x.knows env email = true ↔ ∃ u ∈ x.users, env.upper u.email = env.upper email := by
  unfold Registry.knows
  rw [List.any_eq_true]
  constructor
  · rintro ⟨u, hu, heq⟩
    exact ⟨u, hu, eq_of_beq heq⟩
  · rintro ⟨u, hu, heq⟩
    exact ⟨u, hu, beq_iff_eq.mpr heq⟩

theorem create_of_mem {u : User} (hu : u ∈ x.users) (heq : u.email = email) : x.create email = x := by
  have hany : (x.users.any (·.email == email)) = true := List.any_eq_true.mpr ⟨u, hu, beq_iff_eq.mpr heq⟩
  unfold Registry.create
  rw [if_pos hany]

theorem create_of_new (h : ∀ u ∈ x.users, u.email ≠ email) :
    (x.create email).users = x.users ++ [⟨x.nextUuid, email, false⟩] := by
  unfold Registry.create
  rw [if_neg]
  intro hany
  obtain ⟨u, hu, heq⟩ := List.any_eq_true.mp hany
  exact h u hu (eq_of_beq heq)

/-- Users are only added. -/
theorem users_create : ∃ added, (x.create email).users = x.users ++ added := by
  by_cases h : ∀ u ∈ x.users, u.email ≠ email
  · exact ⟨_, create_of_new h⟩
  · push Not at h
    obtain ⟨u, hu, heq⟩ := h
    rw [create_of_mem hu heq]
    exact ⟨[], (List.append_nil _).symm⟩

/-- A step that inserts an address. -/
theorem users_step_of_creating (hrefused : a.refused = false)
    (hcreating : (x.request a.client).creating env = some (email, seen)) :
    (step env x a).users = (x.create email).users := by
  unfold step
  rw [hrefused]
  cases hstage : x.request a.client with
  | validated email' seen' =>
    rw [hstage] at hcreating
    cases hcreating
    rfl
  | registeringApplication application =>
    rw [hstage] at hcreating
    cases hcreating
    rfl
  | registering _ =>
    rw [hstage] at hcreating
    cases hcreating
  | finished =>
    rw [hstage] at hcreating
    cases hcreating

/-- A step that inserts none. -/
theorem users_step_of_not_creating (h : a.refused = true ∨ (x.request a.client).creating env = none) :
    (step env x a).users = x.users := by
  by_cases hrefused : a.refused = true
  · unfold step
    rw [hrefused]
    rfl
  · have hcreating := h.resolve_left hrefused
    unfold step
    rw [(Bool.not_eq_true _).mp hrefused]
    cases hstage : x.request a.client with
    | registering email => rfl
    | finished => rfl
    | validated email seen =>
      rw [hstage] at hcreating
      cases hcreating
    | registeringApplication application =>
      rw [hstage] at hcreating
      cases hcreating

theorem users_step : ∃ added, (step env x a).users = x.users ++ added := by
  by_cases hrefused : a.refused = true
  · rw [users_step_of_not_creating (Or.inl hrefused)]
    exact ⟨[], (List.append_nil _).symm⟩
  · cases hcreating : (x.request a.client).creating env with
    | none =>
      rw [users_step_of_not_creating (Or.inr hcreating)]
      exact ⟨[], (List.append_nil _).symm⟩
    | some creating =>
      rw [users_step_of_creating ((Bool.not_eq_true _).mp hrefused) hcreating]
      exact users_create

/-! ## What the checks have seen -/

/-- The users a check has seen have other addresses than the one that it let through. -/
def Checked (env : Environment) (x : Registry) : Prop :=
  ∀ client email seen, x.request client = .validated email seen →
    env.normalizeEmail email = email ∧ seen ≤ x.users.length ∧
      ∀ u ∈ x.users.take seen, env.upper u.email ≠ env.upper email

theorem checked_of_initial (h : x.Initial) : Checked env x := fun client email seen hvalidated =>
  absurd hvalidated (h client email seen)

/-- A check that lets an address through has seen all users. -/
theorem validateEmail_validated (hnormalize : ∀ e, env.normalizeEmail (env.normalizeEmail e) = env.normalizeEmail e)
    {value : String} (h : validateEmail env x value = .validated email seen) :
    env.normalizeEmail email = email ∧ seen = x.users.length ∧
      ∀ u ∈ x.users, env.upper u.email ≠ env.upper email := by
  unfold validateEmail at h
  dsimp only at h
  split at h
  · cases h
  · rename_i hunknown
    cases h
    refine ⟨hnormalize value, rfl, ?_⟩
    intro u hu heq
    exact hunknown (knows_iff.mpr ⟨u, hu, heq⟩)

theorem request_step_of_ne {client : Nat} (h : client ≠ a.client) : (step env x a).request client = x.request client :=
  if_neg h

/-- The only step into a stage that is validated is the check. -/
theorem validateEmail_of_request_step (h : (step env x a).request a.client = .validated email seen) :
    ∃ value, validateEmail env x value = .validated email seen ∧ (step env x a).users = x.users := by
  have hstage : (if a.refused then (x, Stage.finished) else (x.request a.client).advance env x).2 =
      .validated email seen := by
    unfold step at h
    simpa only [if_true] using h
  by_cases hrefused : a.refused = true
  · rw [if_pos hrefused] at hstage
    cases hstage
  · rw [if_neg hrefused] at hstage
    cases hrequest : x.request a.client with
    | registering value =>
      rw [hrequest] at hstage
      have hcreating : (x.request a.client).creating env = none := by
        rw [hrequest]
        rfl
      exact ⟨value, hstage, users_step_of_not_creating (Or.inr hcreating)⟩
    | validated _ _ =>
      rw [hrequest] at hstage
      cases hstage
    | registeringApplication _ =>
      rw [hrequest] at hstage
      cases hstage
    | finished =>
      rw [hrequest] at hstage
      cases hstage

theorem checked_step (hnormalize : ∀ e, env.normalizeEmail (env.normalizeEmail e) = env.normalizeEmail e)
    (h : Checked env x) : Checked env (step env x a) := by
  intro client email seen hvalidated
  by_cases hclient : client = a.client
  · subst hclient
    obtain ⟨value, hvalue, husers⟩ := validateEmail_of_request_step hvalidated
    obtain ⟨hnormal, rfl, hother⟩ := validateEmail_validated hnormalize hvalue
    rw [husers]
    refine ⟨hnormal, Nat.le_refl _, ?_⟩
    intro u hu
    exact hother u (List.mem_of_mem_take hu)
  · rw [request_step_of_ne hclient] at hvalidated
    obtain ⟨hnormal, hseen, hother⟩ := h client email seen hvalidated
    obtain ⟨added, husers⟩ : ∃ added, (step env x a).users = x.users ++ added := users_step
    rw [husers, List.take_append_of_le_length hseen, List.length_append]
    exact ⟨hnormal, by omega, hother⟩

/-- What the step inserts, none of the users that the check has seen has. -/
theorem creating_checked (h : Checked env x) (hcreating : (x.request a.client).creating env = some (email, seen)) :
    ∀ u ∈ x.users.take seen, env.upper u.email ≠ env.upper email := by
  cases hstage : x.request a.client with
  | validated email' seen' =>
    obtain ⟨hnormal, -, hother⟩ := h a.client email' seen' hstage
    rw [hstage] at hcreating
    obtain ⟨rfl, rfl⟩ := Prod.mk.inj (Option.some.inj hcreating)
    rw [hnormal]
    exact hother
  | registeringApplication application =>
    rw [hstage] at hcreating
    obtain ⟨-, rfl⟩ := Prod.mk.inj (Option.some.inj hcreating)
    intro u hu
    cases hu
  | registering _ =>
    rw [hstage] at hcreating
    cases hcreating
  | finished =>
    rw [hstage] at hcreating
    cases hcreating

/-! ## Unique addresses -/

theorem emailsUnique_append (h : EmailsUnique env x) (u : User) :
    (x.users ++ [u]).Pairwise (fun u v => env.upper u.email ≠ env.upper v.email) ↔
      ∀ v ∈ x.users, env.upper v.email ≠ env.upper u.email := by
  rw [List.pairwise_append]
  constructor
  · rintro ⟨-, -, hother⟩ v hv
    exact hother v hv u (List.mem_singleton_self u)
  · intro hother
    refine ⟨h, List.pairwise_singleton _ _, ?_⟩
    intro v hv w hw
    rw [List.mem_singleton.mp hw]
    exact hother v hv

theorem upper_ne_of_emailsUnique (h : EmailsUnique env x) {u v : User} (hu : u ∈ x.users) (hv : v ∈ x.users)
    (hne : u ≠ v) : env.upper u.email ≠ env.upper v.email := by
  have hsymm : Std.Symm fun u v : User => env.upper u.email ≠ env.upper v.email := ⟨fun _ _ h => h.symm⟩
  exact List.Pairwise.forall h hu hv hne

/-- From unique addresses, the steps to unique addresses are the undisturbed ones. -/
theorem undisturbed_iff (hchecked : Checked env x) (h : EmailsUnique env x) :
    Undisturbed env x a ↔ EmailsUnique env (step env x a) := by
  by_cases hrefused : a.refused = true
  · have hsame : EmailsUnique env (step env x a) ↔ EmailsUnique env x := by
      unfold EmailsUnique
      rw [users_step_of_not_creating (Or.inl hrefused)]
    rw [hsame]
    exact ⟨fun _ => h, fun _ => Or.inl hrefused⟩
  cases hcreating : (x.request a.client).creating env with
  | none =>
    have hsame : EmailsUnique env (step env x a) ↔ EmailsUnique env x := by
      unfold EmailsUnique
      rw [users_step_of_not_creating (Or.inr hcreating)]
    rw [hsame]
    refine ⟨fun _ => h, fun _ => Or.inr ?_⟩
    intro email seen hsome
    rw [hcreating] at hsome
    cases hsome
  | some creating =>
    obtain ⟨email, seen⟩ := creating
    have husers := users_step_of_creating ((Bool.not_eq_true _).mp hrefused) hcreating
    have hseen := creating_checked hchecked hcreating
    have hundisturbed : Undisturbed env x a ↔
        ∀ u ∈ x.users.drop seen, env.upper u.email = env.upper email → u.email = email := by
      unfold Undisturbed
      rw [hcreating]
      constructor
      · intro hor
        exact hor.resolve_left hrefused email seen rfl
      · intro hother
        refine Or.inr ?_
        intro email' seen' hsome
        obtain ⟨rfl, rfl⟩ := Prod.mk.inj (Option.some.inj hsome)
        exact hother
    rw [hundisturbed]
    unfold EmailsUnique
    rw [husers]
    by_cases hnew : ∀ u ∈ x.users, u.email ≠ email
    · rw [create_of_new hnew, emailsUnique_append h]
      constructor
      · intro hother v hv heq
        rw [← List.take_append_drop seen x.users] at hv
        rcases List.mem_append.mp hv with hv | hv
        · exact hseen v hv heq
        · exact hnew v (List.mem_of_mem_drop hv) (hother v hv heq)
      · intro hother u hu heq
        exact absurd heq (hother u (List.mem_of_mem_drop hu))
    · push Not at hnew
      obtain ⟨v, hv, hvemail⟩ := hnew
      rw [create_of_mem hv hvemail]
      refine ⟨fun _ => h, ?_⟩
      intro _ u hu heq
      -- the user who has the address is the only one with a spelling of it
      by_contra hne
      have hdiffer : u ≠ v := by
        rintro rfl
        exact hne hvemail
      exact upper_ne_of_emailsUnique h (List.mem_of_mem_drop hu) hv hdiffer (by rw [heq, hvemail])

theorem looksUpOne_of_emailsUnique (h : EmailsUnique env x) : LooksUpOne env x := by
  intro email hmultiple
  have hfiltered : (x.users.filter fun u => env.upper u.email == env.upper email).Pairwise
      fun u v => env.upper u.email ≠ env.upper v.email := h.filter _
  unfold userByEmail at hmultiple
  split at hmultiple
  · cases hmultiple
  · cases hmultiple
  · rename_i users hnone hone
    match hfound : x.users.filter fun u => env.upper u.email == env.upper email with
    | [] => exact hnone hfound
    | [u] => exact hone u hfound
    | u :: v :: rest =>
      have hu : u ∈ x.users.filter fun u => env.upper u.email == env.upper email := by rw [hfound]; simp
      have hv : v ∈ x.users.filter fun u => env.upper u.email == env.upper email := by rw [hfound]; simp
      have hueq := eq_of_beq (List.mem_filter.mp hu).2
      have hveq := eq_of_beq (List.mem_filter.mp hv).2
      rw [hfound] at hfiltered
      exact (List.pairwise_cons.mp hfiltered).1 v (List.mem_cons_self ..) (hueq.trans hveq.symm)

/-- The runs that keep addresses unique ignoring case, and so each lookup to one user, are those in which every
insertion is undisturbed. -/
theorem emailsUnique_iff (hnormalize : ∀ e, env.normalizeEmail (env.normalizeEmail e) = env.normalizeEmail e)
    (hinitial : x.Initial) (hunique : EmailsUnique env x) (as : List Action) :
    Always (step env) (Undisturbed env) x as ↔ ∀ before after, as = before ++ after →
      EmailsUnique env (run (step env) x before) ∧ LooksUpOne env (run (step env) x before) := by
  rw [always_iff_forall_before (J := EmailsUnique env) (fun y a => checked_step hnormalize)
    (fun y a => undisturbed_iff) (checked_of_initial hinitial) hunique as]
  constructor
  · intro h before after happend
    have hbefore := h before after happend
    exact ⟨hbefore, looksUpOne_of_emailsUnique hbefore⟩
  · intro h before after happend
    exact (h before after happend).1

/-! ## Two spellings -/

/-- `UPPER` of ASCII, and addresses whose domain is in lower case. -/
def ascii : Environment :=
  { internetGateway := false
    slugify := id
    upper := fun s => String.ofList (s.toList.map Char.toUpper)
    normalizeEmail := id }

/-- Two clients register, with spellings of one address. -/
def spellings : Registry where
  users := []
  nextUuid := 0
  request := fun client =>
    if client = 0 then .registering "Ada@example.org"
    else if client = 1 then .registering "ada@example.org"
    else .finished

/-- One client after the other. -/
def sequential : List Action := [⟨0, false⟩, ⟨0, false⟩, ⟨1, false⟩, ⟨1, false⟩]

/-- Both checks come before both insertions. -/
def overlapping : List Action := [⟨0, false⟩, ⟨1, false⟩, ⟨0, false⟩, ⟨1, false⟩]

theorem initial_spellings : spellings.Initial := by
  intro client email seen h
  unfold spellings at h
  dsimp only at h
  split_ifs at h

theorem undisturbed_of_not_creating (h : (x.request a.client).creating env = none) : Undisturbed env x a := by
  refine Or.inr ?_
  intro email seen hsome
  rw [h] at hsome
  cases hsome

theorem emailsUnique_iff_sequential :
    EmailsUnique ascii (run (step ascii) spellings sequential) ∧
      LooksUpOne ascii (run (step ascii) spellings sequential) := by
  have hchecks : Undisturbed ascii spellings ⟨0, false⟩ := undisturbed_of_not_creating rfl
  have hcreates : Undisturbed ascii (run (step ascii) spellings (sequential.take 1)) ⟨0, false⟩ := by
    refine Or.inr ?_
    intro email seen _ u hu
    have hnone : (run (step ascii) spellings (sequential.take 1)).users = [] := rfl
    rw [hnone, List.drop_nil] at hu
    cases hu
  have hrefuses : Undisturbed ascii (run (step ascii) spellings (sequential.take 2)) ⟨1, false⟩ :=
    undisturbed_of_not_creating rfl
  have hends : Undisturbed ascii (run (step ascii) spellings (sequential.take 3)) ⟨1, false⟩ :=
    undisturbed_of_not_creating (by decide +kernel)
  exact (emailsUnique_iff (fun _ => rfl) initial_spellings List.Pairwise.nil sequential).mp
    ⟨hchecks, hcreates, hrefuses, hends, trivial⟩ sequential [] (List.append_nil _).symm

/-- Two rows with spellings of one address, and a lookup that finds both. -/
theorem not_emailsUnique_overlapping :
    spellings.Initial ∧ EmailsUnique ascii spellings ∧ ¬ EmailsUnique ascii (run (step ascii) spellings overlapping) ∧
      ¬ LooksUpOne ascii (run (step ascii) spellings overlapping) := by
  refine ⟨initial_spellings, List.Pairwise.nil, ?_, ?_⟩
  · unfold EmailsUnique
    decide +kernel
  · intro h
    exact h "ada@example.org" (by decide +kernel)

end Registration
