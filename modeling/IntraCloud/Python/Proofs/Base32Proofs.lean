import IntraCloud.Python.Base32
import IntraCloud.Python.Proofs.CodecsProofs

/-!
# What `b32encode` writes of whole groups, `b32decode` reads
-/

namespace Python

/-! ## Characters -/

theorem b32rev?_b32Char {d : Nat} (h : d < 32) : b32rev? (b32Char d) = some d := by
  have hall : ∀ d : Fin 32, b32rev? (b32Char d) = some d.val := by decide
  exact hall ⟨d, h⟩

theorem b32Char_ne_equals {d : Nat} (h : d < 32) : b32Char d ≠ '=' := by
  have hall : ∀ d : Fin 32, b32Char d ≠ '=' := by decide
  exact hall ⟨d, h⟩

/-! ## Groups -/

theorem b32Value?_b32Quantum {n : Nat} (h : n < 1099511627776) : b32Value? (b32Quantum n) = some n := by
  unfold b32Quantum b32Pair b32Value?
  simp only [List.cons_append, List.nil_append, List.foldlM_cons, List.foldlM_nil]
  rw [b32rev?_b32Char (by omega), b32rev?_b32Char (by omega), b32rev?_b32Char (by omega),
    b32rev?_b32Char (by omega), b32rev?_b32Char (by omega), b32rev?_b32Char (by omega),
    b32rev?_b32Char (by omega), b32rev?_b32Char (by omega)]
  simp only [Option.map_some, Option.bind_eq_bind, Option.bind_some, Option.pure_def, Option.some.injEq]
  omega

theorem fromBytes_five_lt (a b c d e : UInt8) : fromBytes [a, b, c, d, e] < 1099511627776 := by
  have ha := a.toNat_lt
  have hb := b.toNat_lt
  have hc := c.toNat_lt
  have hd := d.toNat_lt
  have he := e.toNat_lt
  simp only [fromBytes, List.foldl_cons, List.foldl_nil]
  omega

theorem toBytes?_fromBytes_five (a b c d e : UInt8) :
    toBytes? 5 (fromBytes [a, b, c, d, e]) = some [a, b, c, d, e] := by
  have hbyte : ∀ (x : UInt8) (n : Nat), UInt8.ofNat ((256 * n + x.toNat) % 256) = x := by
    intro x n
    have hx := x.toNat_lt
    have hmod : (256 * n + x.toNat) % 256 = x.toNat := by omega
    rw [hmod, UInt8.ofNat_toNat]
  have hdiv : ∀ (x : UInt8) (n : Nat), (256 * n + x.toNat) / 256 = n := by
    intro x n
    have hx := x.toNat_lt
    omega
  simp only [fromBytes, List.foldl_cons, List.foldl_nil, toBytes?, hdiv, hbyte, if_true, Option.map_some,
    List.nil_append, List.cons_append]

/-- What is left after the last whole group. -/
theorem b32Quanta_short {s : Bytes} (h : s.length < 5) : b32Quanta s = [] := by
  rw [b32Quanta]
  rintro a b c d e t rfl
  simp only [List.length_cons] at h
  omega

theorem length_lt_of_short {s : Bytes} (h : ∀ a b c d e t, s = a :: b :: c :: d :: e :: t → False) :
    s.length < 5 := by
  match s with
  | [] | [_] | [_, _] | [_, _, _] | [_, _, _, _] =>
    simp only [List.length_cons, List.length_nil]
    omega
  | a :: b :: c :: d :: e :: t => exact absurd rfl (h a b c d e t)

theorem b32Groups?_b32Quanta (s : Bytes) (h : s.length % 5 = 0) :
    ∃ last, b32Groups? (b32Quanta s) = some (s, last) := by
  induction s using b32Quanta.induct with
  | case1 a b c d e s ih =>
    have hs : s.length % 5 = 0 := by
      simp only [List.length_cons] at h
      omega
    obtain ⟨last, hlast⟩ := ih hs
    rw [b32Quanta]
    have hvalue := b32Value?_b32Quantum (fromBytes_five_lt a b c d e)
    have hbytes := toBytes?_fromBytes_five a b c d e
    generalize fromBytes [a, b, c, d, e] = n at hvalue hbytes
    unfold b32Quantum b32Pair at hvalue ⊢
    simp only [List.cons_append, List.nil_append] at hvalue ⊢
    rw [b32Groups?, hvalue]
    simp only [Option.bind_eq_bind, Option.bind_some, hbytes, hlast, Option.pure_def]
    exact ⟨_, rfl⟩
  | case2 s hshort =>
    have hlt := length_lt_of_short hshort
    rw [Nat.mod_eq_of_lt hlt] at h
    obtain rfl := List.eq_nil_of_length_eq_zero h
    exact ⟨0, rfl⟩

theorem length_b32Quanta (s : Bytes) : (b32Quanta s).length = 8 * (s.length / 5) := by
  induction s using b32Quanta.induct with
  | case1 a b c d e s ih =>
    have hquantum : ∀ n, (b32Quantum n).length = 8 := fun _ => rfl
    rw [b32Quanta, List.length_append, hquantum, ih]
    simp only [List.length_cons]
    omega
  | case2 s hshort =>
    have hlt := length_lt_of_short hshort
    rw [b32Quanta_short hlt, Nat.div_eq_of_lt hlt]
    rfl

theorem ne_equals_of_mem_b32Quanta (s : Bytes) : ∀ c ∈ b32Quanta s, c ≠ '=' := by
  induction s using b32Quanta.induct with
  | case1 a b c d e s ih =>
    rw [b32Quanta]
    refine List.forall_mem_append.mpr ⟨?_, ih⟩
    have hn := fromBytes_five_lt a b c d e
    generalize fromBytes [a, b, c, d, e] = n at hn
    unfold b32Quantum b32Pair
    simp only [List.cons_append, List.nil_append, List.forall_mem_cons]
    refine ⟨?_, ?_, ?_, ?_, ?_, ?_, ?_, ?_, List.forall_mem_nil _⟩ <;>
      exact b32Char_ne_equals (by omega)
  | case2 s hshort =>
    rw [b32Quanta_short (length_lt_of_short hshort)]
    exact List.forall_mem_nil _

/-! ## Whole groups -/

theorem rstripEquals_of_forall {s : List Char} (h : ∀ c ∈ s, c ≠ '=') : rstripEquals s = s := by
  have hdrop : s.reverse.dropWhile (· == '=') = s.reverse := by
    cases hs : s.reverse with
    | nil => rfl
    | cons c t =>
      have hc : c ≠ '=' := h c (List.mem_reverse.mp (hs ▸ List.mem_cons_self ..))
      rw [List.dropWhile_cons, beq_false_of_ne hc]
      rfl
  rw [rstripEquals, hdrop, List.reverse_reverse]

/-- Whole groups of bytes take no padding. -/
theorem b32encode_groups {s : Bytes} (h : s.length % 5 = 0) : b32encode s = b32Quanta s := by
  unfold b32encode
  rw [h]
  exact (List.append_nil _).trans (List.take_length ..)

theorem rstripEquals_b32encode {s : Bytes} (h : s.length % 5 = 0) : rstripEquals (b32encode s) = b32Quanta s := by
  rw [b32encode_groups h, rstripEquals_of_forall (ne_equals_of_mem_b32Quanta s)]

theorem b32decode_b32Quanta {s : Bytes} (h : s.length % 5 = 0) : b32decode (b32Quanta s) = some s := by
  obtain ⟨last, hgroups⟩ := b32Groups?_b32Quanta s h
  have hlength : ¬ (b32Quanta s).length % 8 ≠ 0 := by
    rw [length_b32Quanta]
    omega
  unfold b32decode
  rw [if_neg hlength]
  dsimp only
  rw [rstripEquals_of_forall (ne_equals_of_mem_b32Quanta s), hgroups, Nat.sub_self]
  rfl

end Python
