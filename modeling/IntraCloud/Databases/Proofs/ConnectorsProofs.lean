import IntraCloud.Databases.Connectors

/-!
# What is dialled

The policy of one address, what passes the check of a host, and when the addresses that are dialled, which
come of later lookups, are allowed as well.
-/

namespace Databases

open Python

/-! ## The policy -/

/-- An address that the policy allows. -/
def Allowed (blockPrivate : Bool) (ip : IpAddress) : Prop :=
  if blockPrivate then
    ip.isLoopback = false ∧ ip.isPrivate = false ∧ ∀ attr ∈ ALWAYS_UNSAFE_ATTRS, attr ip = false
  else ip.isLoopback = true ∨ ∀ attr ∈ ALWAYS_UNSAFE_ATTRS, attr ip = false

instance (blockPrivate : Bool) (ip : IpAddress) : Decidable (Allowed blockPrivate ip) := by
  unfold Allowed
  infer_instance

/-- `assert_host_is_safe` holds nothing against the allowed addresses, and something against any other. -/
theorem refusal_eq_none_iff (blockPrivate : Bool) (ip : IpAddress) :
    refusal blockPrivate ip = none ↔ Allowed blockPrivate ip := by
  have hunsafe : (ALWAYS_UNSAFE_ATTRS.any fun attr => attr ip) = false ↔
      ∀ attr ∈ ALWAYS_UNSAFE_ATTRS, attr ip = false := by
    rw [List.any_eq_false]
    exact forall₂_congr fun _ _ => by rw [Bool.not_eq_true]
  unfold refusal Allowed
  rw [← hunsafe]
  cases hloopback : ip.isLoopback with
  | true =>
    cases blockPrivate with
    | true => simp
    | false => simp
  | false =>
    cases hattrs : ALWAYS_UNSAFE_ATTRS.any fun attr => attr ip with
    | true => simp
    | false =>
      cases blockPrivate with
      | true => simp [PRIVATE_NETWORK_ATTRS, hloopback]
      | false => simp

/-- A host passes where every address of the answer is allowed. -/
theorem checkAddresses_ok_iff (blockPrivate : Bool) (host : List Char) (addresses : List IpAddress) :
    checkAddresses blockPrivate host addresses = .ok () ↔ ∀ ip ∈ addresses, Allowed blockPrivate ip := by
  induction addresses with
  | nil => simp [checkAddresses]
  | cons ip rest ih =>
    rw [List.forall_mem_cons, ← refusal_eq_none_iff, ← ih, checkAddresses]
    cases refusal blockPrivate ip with
    | some why => simp
    | none => simp

theorem assertHostIsSafe_ok_iff (resolver : Resolver) (blockPrivate : Bool) (host : List Char) :
    assertHostIsSafe resolver blockPrivate host = .ok () ↔
      ∃ addresses, resolver 0 host = .ok addresses ∧ ∀ ip ∈ addresses, Allowed blockPrivate ip := by
  unfold assertHostIsSafe
  cases hanswer : resolver 0 host with
  | error e => cases e <;> simp
  | ok addresses => simp [checkAddresses_ok_iff]

/-! ## Dialling -/

/-- An address is dialled unless one before it connects. -/
theorem mem_dial_iff (connects : IpAddress → Bool) (addresses : List IpAddress) (ip : IpAddress) :
    ip ∈ dial connects addresses ↔
      ∃ before after, addresses = before ++ ip :: after ∧ ∀ earlier ∈ before, connects earlier = false := by
  induction addresses with
  | nil => simp [dial]
  | cons first rest ih =>
    rw [dial]
    by_cases hconnects : connects first = true
    · rw [if_pos hconnects, List.mem_singleton]
      constructor
      · rintro rfl
        exact ⟨[], rest, rfl, by simp⟩
      · rintro ⟨before, after, hsplit, hbefore⟩
        cases before with
        | nil => exact (List.cons.inj hsplit).1.symm
        | cons x before =>
          obtain ⟨rfl, -⟩ := List.cons.inj hsplit
          rw [hbefore first (List.mem_cons_self ..)] at hconnects
          cases hconnects
    · rw [if_neg hconnects, List.mem_cons, ih]
      rw [Bool.not_eq_true] at hconnects
      constructor
      · rintro (rfl | ⟨before, after, rfl, hbefore⟩)
        · exact ⟨[], rest, rfl, by simp⟩
        · exact ⟨first :: before, after, rfl, List.forall_mem_cons.mpr ⟨hconnects, hbefore⟩⟩
      · rintro ⟨before, after, hsplit, hbefore⟩
        cases before with
        | nil => exact .inl (List.cons.inj hsplit).1.symm
        | cons x before =>
          obtain ⟨rfl, rfl⟩ := List.cons.inj hsplit
          exact .inr ⟨before, after, rfl, (List.forall_mem_cons.mp hbefore).2⟩

/-- Every address that the process dials is allowed. -/
def DialsAllowed (resolver : Resolver) (connects : IpAddress → Bool) (blockPrivate : Bool)
    (host : List Char) : Prop :=
  ∀ ip ∈ (connect resolver connects blockPrivate host).1, Allowed blockPrivate ip

/-- The answers to the later lookups hold no address that is not allowed, except behind one that connects. -/
def LaterAnswersAllowed (resolver : Resolver) (connects : IpAddress → Bool) (blockPrivate : Bool)
    (host : List Char) : Prop :=
  ∀ addresses before ip after, targets resolver host = some addresses → addresses = before ++ ip :: after →
    ¬ Allowed blockPrivate ip → ∃ earlier ∈ before, connects earlier = true

theorem dialsAllowed_iff (resolver : Resolver) (connects : IpAddress → Bool) (blockPrivate : Bool)
    (host : List Char) :
    DialsAllowed resolver connects blockPrivate host ↔
      ((∃ addresses, resolver 0 host = .ok addresses ∧ ∀ ip ∈ addresses, Allowed blockPrivate ip) →
        LaterAnswersAllowed resolver connects blockPrivate host) := by
  unfold DialsAllowed LaterAnswersAllowed
  rw [← assertHostIsSafe_ok_iff]
  cases hsafe : assertHostIsSafe resolver blockPrivate host with
  | error e => simp [connect, hsafe]
  | ok =>
    cases htargets : targets resolver host with
    | none => simp [connect, hsafe, htargets]
    | some addresses =>
      simp only [connect, hsafe, htargets, mem_dial_iff, Option.some.injEq, forall_const]
      constructor
      · rintro h _ before ip after rfl hsplit hnot
        by_contra hnone
        refine hnot (h ip ⟨before, after, hsplit, fun earlier hearlier => ?_⟩)
        by_contra hconnects
        exact hnone ⟨earlier, hearlier, Bool.not_eq_false _ ▸ hconnects⟩
      · rintro h ip ⟨before, after, hsplit, hbefore⟩
        by_contra hnot
        obtain ⟨earlier, hearlier, hconnects⟩ := h addresses before ip after rfl hsplit hnot
        rw [hbefore earlier hearlier] at hconnects
        cases hconnects

/-- A resolver that answers the second lookup with another address: DNS rebinding. -/
def rebinding : Resolver := fun n _ => .ok [if n = 0 then .v4 0x5DB8D822 else .v4 0xA9FEA9FE]

theorem not_dialsAllowed_of_rebinding :
    ¬ DialsAllowed rebinding (fun _ => true) false "rebind.example".toList := by
  intro h
  have hallowed := h (.v4 0xA9FEA9FE) (by decide)
  revert hallowed
  decide

theorem splitHosts_of_not_mem {host : List Char} (h : ',' ∉ host) : splitHosts host = [host] := by
  induction host with
  | nil => rfl
  | cons c s ih =>
    have hc : c ≠ ',' := fun heq => h (heq ▸ List.mem_cons_self ..)
    have hs := ih fun hmem => h (List.mem_cons_of_mem _ hmem)
    rw [splitHosts]
    · rw [hs]
    · exact fun heq => absurd heq hc

/-- A host without a comma whose second answer is the first dials nothing that is not allowed. -/
theorem dialsAllowed_of_same_answer {resolver : Resolver} {host : List Char} (hcomma : ',' ∉ host)
    (hsame : resolver 1 host = resolver 0 host) (connects : IpAddress → Bool) (blockPrivate : Bool) :
    DialsAllowed resolver connects blockPrivate host := by
  rw [dialsAllowed_iff]
  rintro ⟨answer, hanswer, hallowed⟩ addresses before ip after htargets rfl hnot
  refine absurd (hallowed ip ?_) hnot
  rw [targets, splitHosts_of_not_mem hcomma, lookUp, hsame, hanswer] at htargets
  split at htargets
  · cases before <;> cases htargets
  · simp only [lookUp, Option.map_some, List.append_nil, Option.some.injEq] at htargets
    rw [htargets]
    exact List.mem_append_right _ (List.mem_cons_self ..)

end Databases
