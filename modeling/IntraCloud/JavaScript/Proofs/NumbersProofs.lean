import IntraCloud.JavaScript.Numbers
import IntraCloud.Python.Proofs.NumbersProofs
import Mathlib.Tactic.ByContra

/-!
# Which integers JavaScript keeps

A double reads back as itself from the digits that are written for it, so that an integer is kept exactly where it
is what is written for its double. The integers below `2^53` are.
-/

namespace JavaScript

open Python

/-! ## Rounding -/

theorem spacing_pos (n : Nat) : 0 < spacing n := Nat.pow_pos (by decide)

/-- A multiple of its distance is a double. -/
theorem nearest_of_dvd {n : Nat} (h : spacing n ∣ n) : nearest n = n := by
  have hremainder : n % spacing n = 0 := Nat.mod_eq_zero_of_dvd h
  have hdown : ¬ (spacing n < 2 * (n % spacing n) ∨ spacing n = 2 * (n % spacing n) ∧ n / spacing n % 2 = 1) := by
    have hpos := spacing_pos n
    omega
  unfold nearest
  rw [if_neg hdown]
  exact Nat.div_mul_cancel h

theorem spacing_of_lt {n : Nat} (h : n < 2 ^ 53) : spacing n = 1 := by
  have hlog : n.log2 + 1 - 53 = 0 := by
    by_cases hn : n = 0
    · rw [hn]
      decide
    · have hlt := (Nat.log2_lt hn).mpr h
      omega
  show 2 ^ (n.log2 + 1 - 53) = 1
  rw [hlog, Nat.pow_zero]

theorem nearest_of_lt {n : Nat} (h : n < 2 ^ 53) : nearest n = n :=
  nearest_of_dvd (by rw [spacing_of_lt h]; exact Nat.one_dvd n)

/-- The logarithm from bounds. -/
theorem log2_eq {n k : Nat} (hlow : 2 ^ k ≤ n) (hhigh : n < 2 ^ (k + 1)) : n.log2 = k := by
  have hn : n ≠ 0 := by
    have hpos : 0 < 2 ^ k := Nat.two_pow_pos k
    omega
  have hlt : n.log2 < k + 1 := (Nat.log2_lt hn).mpr hhigh
  have hle : k ≤ n.log2 := (Nat.le_log2 hn).mpr hlow
  omega

/-- A large number stands between two multiples of its distance, and the lower one has 53 digits. -/
theorem quotient_bounds {n k : Nat} (hlow : 2 ^ (52 + k) ≤ n) (hhigh : n < 2 ^ (53 + k)) :
    spacing n = 2 ^ k ∧ 2 ^ 52 ≤ n / 2 ^ k ∧ n / 2 ^ k < 2 ^ 53 := by
  have hlog : n.log2 = 52 + k := log2_eq hlow (by rw [show 52 + k + 1 = 53 + k by omega]; exact hhigh)
  have hpos : 0 < 2 ^ k := Nat.two_pow_pos k
  refine ⟨?_, ?_, ?_⟩
  · show 2 ^ (n.log2 + 1 - 53) = 2 ^ k
    rw [hlog]
    congr 1
    omega
  · rw [Nat.le_div_iff_mul_le hpos, ← Nat.pow_add]
    exact hlow
  · rw [Nat.div_lt_iff_lt_mul hpos, ← Nat.pow_add]
    exact hhigh

theorem exists_exponent {n : Nat} (h : 2 ^ 53 ≤ n) : ∃ k, 2 ^ (52 + k) ≤ n ∧ n < 2 ^ (53 + k) := by
  have hn : n ≠ 0 := by omega
  have hlog : 53 ≤ n.log2 := (Nat.le_log2 hn).mpr h
  refine ⟨n.log2 - 52, ?_, ?_⟩
  · rw [show 52 + (n.log2 - 52) = n.log2 by omega]
    exact Nat.log2_self_le hn
  · rw [show 53 + (n.log2 - 52) = n.log2 + 1 by omega]
    exact Nat.lt_log2_self

/-- A number is rounded down or up to a multiple of its distance. -/
theorem nearest_eq_or (n : Nat) :
    nearest n = n / spacing n * spacing n ∨ nearest n = (n / spacing n + 1) * spacing n := by
  by_cases hup : spacing n < 2 * (n % spacing n) ∨ spacing n = 2 * (n % spacing n) ∧ n / spacing n % 2 = 1
  · exact .inr (if_pos hup)
  · exact .inl (if_neg hup)

/-- A multiple of the distance with 53 digits is a double. -/
theorem nearest_mul {k quotient : Nat} (hlow : 2 ^ 52 ≤ quotient) (hhigh : quotient < 2 ^ 53) :
    nearest (quotient * 2 ^ k) = quotient * 2 ^ k := by
  have hpos : 0 < 2 ^ k := Nat.two_pow_pos k
  have hbounds : 2 ^ (52 + k) ≤ quotient * 2 ^ k ∧ quotient * 2 ^ k < 2 ^ (53 + k) := by
    rw [Nat.pow_add, Nat.pow_add]
    exact ⟨Nat.mul_le_mul_right _ hlow, Nat.mul_lt_mul_of_pos_right hhigh hpos⟩
  obtain ⟨hspacing, -, -⟩ := quotient_bounds hbounds.1 hbounds.2
  refine nearest_of_dvd ?_
  rw [hspacing]
  exact Nat.dvd_mul_left _ _

/-- What is read is a double. -/
theorem nearest_nearest (n : Nat) : nearest (nearest n) = nearest n := by
  by_cases hn : n < 2 ^ 53
  · rw [nearest_of_lt hn, nearest_of_lt hn]
  · obtain ⟨k, hlow, hhigh⟩ := exists_exponent (Nat.le_of_not_lt hn)
    obtain ⟨hspacing, hq, hq'⟩ := quotient_bounds hlow hhigh
    have hrounded := nearest_eq_or n
    rw [hspacing] at hrounded
    rcases hrounded with hdown | hup
    · rw [hdown]
      exact nearest_mul hq hq'
    · rw [hup]
      by_cases hcarry : n / 2 ^ k + 1 = 2 ^ 53
      · -- the next power of two, whose distance is twice as large
        have hpower : (n / 2 ^ k + 1) * 2 ^ k = 2 ^ 52 * 2 ^ (k + 1) := by
          have htwice : (2 : Nat) ^ 53 = 2 ^ 52 * 2 := rfl
          rw [hcarry, Nat.pow_succ 2 k, Nat.mul_comm (2 ^ k) 2, ← Nat.mul_assoc, htwice]
        rw [hpower]
        exact nearest_mul (Nat.le_refl _) (by decide)
      · exact nearest_mul (by omega) (by omega)

theorem le_nearest {n : Nat} (h : 2 ^ 53 ≤ n) : 2 ^ 53 ≤ nearest n := by
  obtain ⟨k, hlow, hhigh⟩ := exists_exponent h
  obtain ⟨hspacing, hq, -⟩ := quotient_bounds hlow hhigh
  have hk : 1 ≤ k := by
    by_contra hzero
    obtain rfl : k = 0 := by omega
    omega
  have hdouble : 2 ^ 53 ≤ n / 2 ^ k * 2 ^ k := by
    calc 2 ^ 53 = 2 ^ 52 * 2 ^ 1 := rfl
      _ ≤ 2 ^ 52 * 2 ^ k := Nat.mul_le_mul_left _ (Nat.pow_le_pow_right (by decide) hk)
      _ ≤ n / 2 ^ k * 2 ^ k := Nat.mul_le_mul_right _ hq
  have hrounded := nearest_eq_or n
  rw [hspacing] at hrounded
  rcases hrounded with hdown | hup
  · rw [hdown]
    exact hdouble
  · rw [hup, Nat.add_mul]
    omega

/-! ## Writing -/

/-- What is written for a double reads as the double. -/
theorem nearest_shortest {double : Nat} (h : nearest double = double) (zeros : Nat) :
    nearest (shortest double zeros) = double := by
  induction zeros with
  | zero => exact h
  | succ zeros ih =>
    rw [shortest]
    split_ifs with hbelow habove
    · exact hbelow.1
    · exact habove
    · exact ih

theorem nearest_written {double : Nat} (h : nearest double = double) : nearest (written double) = double :=
  nearest_shortest h _

/-- A double below `2^53` is written as it is: no other integer reads as it. -/
theorem shortest_of_lt {double : Nat} (h : double < 2 ^ 53) (zeros : Nat) : shortest double zeros = double := by
  have honly : ∀ n, nearest n = double → n = double := by
    intro n hn
    by_cases hlt : n < 2 ^ 53
    · rwa [nearest_of_lt hlt] at hn
    · have hle := le_nearest (Nat.le_of_not_lt hlt)
      omega
  induction zeros with
  | zero => rfl
  | succ zeros ih =>
    rw [shortest]
    split_ifs with hbelow habove
    · exact honly _ hbelow.1
    · exact honly _ habove
    · exact ih

theorem written_of_lt {double : Nat} (h : double < 2 ^ 53) : written double = double := shortest_of_lt h _

/-! ## Signs -/

theorem signed_neg {f : Nat → Nat} (hf : f 0 = 0) (n : Nat) : signed f (-(n : Int)) = -(f n : Int) := by
  cases n with
  | zero =>
    show (f 0 : Int) = -(f 0 : Int)
    rw [hf]
    rfl
  | succ n => rfl

theorem nearest_zero : nearest 0 = 0 := nearest_of_lt (by decide)

theorem written_zero : written 0 = 0 := written_of_lt (by decide)

/-- What is written for a number that was read reads as the number. -/
theorem readInteger_written (n : Int) : readInteger (writeInteger (readInteger n)) = readInteger n := by
  have hnat : ∀ n : Nat, nearest (written (nearest n)) = nearest n := fun n => nearest_written (nearest_nearest n)
  cases n with
  | ofNat n =>
    show ((nearest (written (nearest n)) : Nat) : Int) = nearest n
    rw [hnat]
  | negSucc n =>
    show signed nearest (signed written (-(nearest (n + 1) : Int))) = -(nearest (n + 1) : Int)
    rw [signed_neg written_zero, signed_neg nearest_zero, hnat]

/-- The integers of 53 binary digits are kept. -/
theorem writeInteger_readInteger {n : Int} (h : n.natAbs < 2 ^ 53) : writeInteger (readInteger n) = n := by
  cases n with
  | ofNat n =>
    have hn : n < 2 ^ 53 := h
    show ((written (nearest n) : Nat) : Int) = n
    rw [nearest_of_lt hn, written_of_lt hn]
  | negSucc n =>
    have hn : n + 1 < 2 ^ 53 := h
    show signed written (-(nearest (n + 1) : Int)) = -((n + 1 : Nat) : Int)
    rw [signed_neg written_zero, nearest_of_lt hn, written_of_lt hn]

/-! ## Texts -/

theorem takeWhile_natText (n : Nat) : (natText n).takeWhile isDigit = natText n := by
  have htake := takeWhile_append_stop (t := []) (fun c hc => isDigit_of_mem_natText (n := n) hc)
    fun c hc => absurd hc (by simp)
  rwa [List.append_nil] at htake

/-- There is no sign before the digits. -/
theorem takeSign_natText (n : Nat) : takeSign (natText n) = (false, natText n) := by
  have hdigit : ∀ c ∈ (natText n).head?, isDigit c = true := by
    intro c hc
    exact isDigit_of_mem_natText (List.mem_of_mem_head? hc)
  generalize natText n = s at hdigit
  unfold takeSign
  split
  · exact absurd (hdigit '-' rfl) (by decide)
  · exact absurd (hdigit '+' rfl) (by decide)
  · rfl

/-- `parseInt` of what `str` writes. -/
theorem parseInt_intText (n : Int) : parseInt (intText n) = some (readInteger n) := by
  have hread : ∀ n : Nat, Nat.ofDigitChars 10 (natText n) 0 = n := fun n => ofDigitChars_natText n
  cases n with
  | ofNat n =>
    have hsign : takeSign (intText (Int.ofNat n)) = (false, natText n) := takeSign_natText n
    unfold parseInt
    rw [hsign]
    dsimp only
    rw [takeWhile_natText, if_neg (natText_ne_nil n), hread]
    rfl
  | negSucc n =>
    have hsign : takeSign (intText (Int.negSucc n)) = (true, natText (n + 1)) := rfl
    unfold parseInt
    rw [hsign]
    dsimp only
    rw [takeWhile_natText, if_neg (natText_ne_nil _), hread]
    rfl

end JavaScript
