import IntraCloud.Python.Uuid
import IntraCloud.Python.Proofs.NumbersProofs

/-!
# `uuid.UUID` reads what `str` writes
-/

namespace Python

/-! ## Hexadecimal digits -/

/-- The last `width` digits of a number. -/
def hexDigits : (width : Nat) → Nat → List Nat
  | 0, _ => []
  | width + 1, n => hexDigits width (n / 16) ++ [n % 16]

theorem hexDigit_mod (n : Nat) : hexDigit (n % 16) = hexDigit n := by
  rw [hexDigit, hexDigit, Nat.mod_mod]

theorem hexText_eq (width n : Nat) : hexText width n = (hexDigits width n).map hexDigit := by
  induction width generalizing n with
  | zero => rfl
  | succ width ih => rw [hexText, hexDigits, List.map_append, ih, List.map_singleton, hexDigit_mod]

theorem lt_of_mem_hexDigits {width n d : Nat} (h : d ∈ hexDigits width n) : d < 16 := by
  induction width generalizing n with
  | zero => cases h
  | succ width ih =>
    rcases List.mem_append.mp h with h | h
    · exact ih h
    · rw [List.mem_singleton.mp h]
      exact Nat.mod_lt n (by decide)

theorem foldl_hexDigits (width n : Nat) :
    (hexDigits width n).foldl (fun n d => 16 * n + d) 0 = n % 16 ^ width := by
  induction width generalizing n with
  | zero => rw [Nat.pow_zero, Nat.mod_one]; rfl
  | succ width ih =>
    rw [hexDigits, List.foldl_append, ih, Nat.pow_succ, Nat.mul_comm, Nat.mod_mul, Nat.add_comm]
    rfl

/-- What is known of a digit. -/
theorem hexDigit_spec {d : Nat} (h : d < 16) : hexDigit? (hexDigit d) = some d ∧ hexDigit d ≠ '_' ∧
    hexDigit d ≠ '-' ∧ hexDigit d ≠ 'x' ∧ hexDigit d ≠ 'X' ∧ hexDigit d ≠ '+' ∧ hexDigit d ≠ 'u' ∧
    isSpace (hexDigit d) = false ∧ (hexDigit d).toNat < 123 := by
  have hall : ∀ d < 16, hexDigit? (hexDigit d) = some d ∧ hexDigit d ≠ '_' ∧
      hexDigit d ≠ '-' ∧ hexDigit d ≠ 'x' ∧ hexDigit d ≠ 'X' ∧ hexDigit d ≠ '+' ∧ hexDigit d ≠ 'u' ∧
      isSpace (hexDigit d) = false ∧ (hexDigit d).toNat < 123 := by
    decide
  exact hall d h

theorem restHexDigits?_map {ds : List Nat} (h : ∀ d ∈ ds, d < 16) :
    restHexDigits? (ds.map hexDigit) = some ds := by
  induction ds with
  | nil => rfl
  | cons d ds ih =>
    obtain ⟨hd, hds⟩ := List.forall_mem_cons.mp h
    obtain ⟨hread, hne, -⟩ := hexDigit_spec hd
    rw [List.map_cons, restHexDigits?, hread, ih hds]
    · rfl
    · intro _ _ heq
      exact absurd heq hne

/-- `int(text, 16)` reads the digits of a number. -/
theorem parseHex?_map {ds : List Nat} (hlength : 2 ≤ ds.length) (h : ∀ d ∈ ds, d < 16) :
    parseHex? (ds.map hexDigit) = some (ds.foldl (fun n d => 16 * n + d) 0) := by
  obtain ⟨a, b, ds, rfl⟩ : ∃ a b rest, ds = a :: b :: rest := by
    match ds, hlength with
    | a :: b :: rest, _ => exact ⟨a, b, rest, rfl⟩
  have hstrip : strip ((a :: b :: ds).map hexDigit) = (a :: b :: ds).map hexDigit := by
    refine strip_of_forall fun c hc => ?_
    obtain ⟨d, hd, rfl⟩ := List.mem_map.mp hc
    exact (hexDigit_spec (h d hd)).2.2.2.2.2.2.2.1
  obtain ⟨hread, -, -, -, -, hplus, -⟩ := hexDigit_spec (h a (List.mem_cons_self ..))
  obtain ⟨-, -, -, hx, hX, -⟩ := hexDigit_spec (h b (List.mem_cons_of_mem _ (List.mem_cons_self ..)))
  have hsign : ¬ ((a :: b :: ds).map hexDigit).head? = some '+' := fun heq => hplus (Option.some.inj heq)
  have hprefixed : ¬ (((a :: b :: ds).map hexDigit).take 2 = ['0', 'x'] ∨
      ((a :: b :: ds).map hexDigit).take 2 = ['0', 'X']) := by
    rintro (heq | heq)
    · exact hx (List.cons.inj (List.cons.inj heq).2).1
    · exact hX (List.cons.inj (List.cons.inj heq).2).1
  have hunderscore : ¬ ((((a :: b :: ds).map hexDigit).take 2 = ['0', 'x'] ∨
      ((a :: b :: ds).map hexDigit).take 2 = ['0', 'X']) ∧
        ((a :: b :: ds).map hexDigit).head? = some '_') := fun heq => hprefixed heq.1
  have hrest := restHexDigits?_map fun d hd => h d (List.mem_cons_of_mem _ hd)
  unfold parseHex?
  dsimp only
  rw [hstrip, if_neg hsign, if_neg hprefixed, if_neg hunderscore, List.map_cons]
  dsimp only
  rw [hread, hrest]
  rfl

/-! ## The text of a UUID -/

theorem removeAll_of_not_mem {o : Char} {old s : List Char} (h : o ∉ s) : removeAll (o :: old) 0 s = s := by
  induction s with
  | nil => rfl
  | cons c s ih =>
    have hne : (o == c) = false := beq_eq_false_iff_ne.mpr fun heq => h (heq ▸ List.mem_cons_self ..)
    have hprefix : (o :: old).isPrefixOf (c :: s) = false := by
      rw [List.isPrefixOf_cons_cons, hne, Bool.false_and]
    rw [removeAll, hprefix, if_neg Bool.false_ne_true, ih fun hmem => h (List.mem_cons_of_mem _ hmem)]

theorem removeAll_singleton (o : Char) (s : List Char) : removeAll [o] 0 s = s.filter (· ≠ o) := by
  induction s with
  | nil => rfl
  | cons c s ih =>
    have hprefix : [o].isPrefixOf (c :: s) = (o == c) := by
      rw [List.isPrefixOf_cons_cons, List.isPrefixOf_nil_left, Bool.and_true]
    rw [removeAll, hprefix, List.filter_cons]
    by_cases heq : o = c
    · subst heq
      rw [if_pos (beq_self_eq_true o), if_neg (by simp)]
      exact ih
    · rw [if_neg (by simpa using heq), if_pos (by simpa using Ne.symm heq), ih]

theorem mem_hexText {width n : Nat} {c : Char} (h : c ∈ hexText width n) : ∃ d < 16, c = hexDigit d := by
  rw [hexText_eq] at h
  obtain ⟨d, hd, rfl⟩ := List.mem_map.mp h
  exact ⟨d, lt_of_mem_hexDigits hd, rfl⟩

theorem mem_uuidText {n : Nat} {c : Char} (h : c ∈ uuidText n) : c = '-' ∨ ∃ d < 16, c = hexDigit d := by
  simp only [uuidText, List.mem_append, List.mem_cons] at h
  rcases h with (((h | h | h) | h | h) | h | h) | h | h
  · exact .inr (mem_hexText (List.mem_of_mem_take h))
  · exact .inl h
  · exact .inr (mem_hexText (List.mem_of_mem_drop (List.mem_of_mem_take h)))
  · exact .inl h
  · exact .inr (mem_hexText (List.mem_of_mem_drop (List.mem_of_mem_take h)))
  · exact .inl h
  · exact .inr (mem_hexText (List.mem_of_mem_drop (List.mem_of_mem_take h)))
  · exact .inl h
  · exact .inr (mem_hexText (List.mem_of_mem_drop h))

/-- Without the hyphens it is the digits. -/
theorem filter_uuidText (n : Nat) : (uuidText n).filter (· ≠ '-') = hexText 32 n := by
  have hhex : ∀ {s : List Char}, (∀ c ∈ s, c ∈ hexText 32 n) → s.filter (· ≠ '-') = s := by
    intro s hs
    rw [List.filter_eq_self]
    intro c hc
    obtain ⟨d, hd, rfl⟩ := mem_hexText (hs c hc)
    exact decide_eq_true (hexDigit_spec hd).2.2.1
  have htake : ∀ i k, ∀ c ∈ ((hexText 32 n).drop i).take k, c ∈ hexText 32 n :=
    fun i k c hc => List.mem_of_mem_drop (List.mem_of_mem_take hc)
  have hhyphen : ∀ s : List Char, ('-' :: s).filter (· ≠ '-') = s.filter (· ≠ '-') := fun _ => rfl
  unfold uuidText
  simp only [List.filter_append, hhyphen]
  rw [hhex fun c hc => List.mem_of_mem_take hc, hhex (htake 8 4), hhex (htake 12 4), hhex (htake 16 4),
    hhex fun c hc => List.mem_of_mem_drop hc]
  have hjoin : ∀ i k, ((hexText 32 n).drop i).take k ++ (hexText 32 n).drop (i + k) = (hexText 32 n).drop i := by
    intro i k
    rw [← List.drop_drop, List.take_append_drop]
  rw [List.append_assoc, List.append_assoc, List.append_assoc, hjoin 16 4, hjoin 12 4, hjoin 8 4,
    List.take_append_drop]

/-- `uuid.UUID` reads the digits of a number, with hyphens anywhere. -/
theorem parseUuid?_of_filter {n : Nat} (h : n < 16 ^ 32) {s : List Char}
    (hs : ∀ c ∈ s, c = '-' ∨ ∃ d < 16, c = hexDigit d) (hdigits : s.filter (· ≠ '-') = hexText 32 n) :
    parseUuid? s = some n := by
  have hnot : ∀ {x : Char}, x ≠ '-' → (∀ d < 16, x ≠ hexDigit d) → x ∉ s := by
    intro x hhyphen hdigit hmem
    rcases hs x hmem with heq | ⟨d, hd, heq⟩
    · exact hhyphen heq
    · exact hdigit d hd heq
  have hu : 'u' ∉ s := hnot (by decide) (by decide)
  have hbraces : stripBraces s = s := by
    refine trim_of_forall fun c hc => ?_
    have hsmall : c.toNat < 123 := by
      rcases hs c hc with rfl | ⟨d, hd, rfl⟩
      · decide
      · exact (hexDigit_spec hd).2.2.2.2.2.2.2.2
    have hopen : (c.toNat == 123) = false := beq_eq_false_iff_ne.mpr (by omega)
    have hclose : (c.toNat == 125) = false := beq_eq_false_iff_ne.mpr (by omega)
    rw [hopen, hclose, Bool.or_self]
  have hurn : removeAll "urn:".toList 0 s = s := removeAll_of_not_mem hu
  have huuid : removeAll "uuid:".toList 0 s = s := removeAll_of_not_mem hu
  have hlength : (hexDigits 32 n).length = 32 := by
    have hlength := length_hexText 32 n
    rwa [hexText_eq, List.length_map] at hlength
  unfold parseUuid?
  dsimp only
  rw [hurn, huuid, hbraces, removeAll_singleton, hdigits, if_neg (not_not_intro (length_hexText 32 n)),
    hexText_eq, parseHex?_map (by omega) fun d hd => lt_of_mem_hexDigits hd, foldl_hexDigits, Nat.mod_eq_of_lt h]

/-- `uuid.UUID` reads what `str` writes. -/
theorem parseUuid?_uuidText {n : Nat} (h : n < 16 ^ 32) : parseUuid? (uuidText n) = some n :=
  parseUuid?_of_filter h (fun _ hc => mem_uuidText hc) (filter_uuidText n)

/-- Digits beyond the width are not written. -/
theorem hexText_mod (width n : Nat) : hexText width (n % 16 ^ width) = hexText width n := by
  induction width generalizing n with
  | zero => rfl
  | succ width ih =>
    have hlast : hexDigit (n % 16 ^ (width + 1)) = hexDigit n := by
      rw [← hexDigit_mod, Nat.pow_succ, Nat.mod_mod_of_dvd n (Nat.dvd_mul_left 16 (16 ^ width)), hexDigit_mod]
    have hfirst : n % 16 ^ (width + 1) / 16 = n / 16 % 16 ^ width := by
      rw [Nat.pow_succ, Nat.mul_comm, Nat.mod_mul_right_div_self]
    rw [hexText, hexText, hlast, hfirst, ih]

theorem any_parseUuid?_uuidText (n : Nat) :
    ((parseUuid? (uuidText n)).any fun m => uuidText m == uuidText n) = true := by
  have hmod : uuidText (n % 16 ^ 32) = uuidText n := by
    simp only [uuidText, hexText_mod]
  rw [← hmod, parseUuid?_uuidText (Nat.mod_lt n (Nat.pow_pos (by decide))), Option.any_some]
  exact beq_self_eq_true _

/-- `uuid.UUID` reads the digits without hyphens. -/
theorem parseUuid?_hexText {n : Nat} (h : n < 16 ^ 32) : parseUuid? (hexText 32 n) = some n := by
  refine parseUuid?_of_filter h (fun c hc => .inr (mem_hexText hc)) ?_
  rw [List.filter_eq_self]
  intro c hc
  obtain ⟨d, hd, rfl⟩ := mem_hexText hc
  exact decide_eq_true (hexDigit_spec hd).2.2.1

end Python
