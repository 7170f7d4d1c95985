import IntraCloud.Statistics.Proofs.SamplesProofs

/-!
# Percentiles

A percentile is read off the line through the values in order. It grows along the line, from the least value to the
greatest; and at most a quarter of the values are beyond each of Tukey's fences.
-/

namespace Statistics

variable {K : Type} [Arithmetic K] {xs : List K}

/-! ## The whole part of a position -/

/-- How often a predicate holds that fails from somewhere on. -/
theorem countP_range_spec {p : Nat → Bool} (hdown : ∀ k, p (k + 1) = true → p k = true) (m : Nat) :
    (List.range m).countP p ≤ m ∧ (∀ k, k < (List.range m).countP p → p k = true) ∧
      ((List.range m).countP p < m → p ((List.range m).countP p) = false) := by
  induction m with
  | zero => exact ⟨Nat.le_refl _, fun k hk => absurd hk (Nat.not_lt_zero k), fun h => absurd h (Nat.lt_irrefl 0)⟩
  | succ m ih =>
    obtain ⟨hle, hbelow, habove⟩ := ih
    rw [List.range_succ, List.countP_append, List.countP_singleton]
    by_cases hfull : (List.range m).countP p = m
    · cases hp : p m with
      | true =>
        rw [if_pos rfl, hfull]
        refine ⟨Nat.le_refl _, fun k hk => ?_, fun h => absurd h (Nat.lt_irrefl _)⟩
        by_cases hkm : k = m
        · rw [hkm, hp]
        · exact hbelow k (by omega)
      | false =>
        rw [if_neg Bool.false_ne_true, Nat.add_zero, hfull]
        refine ⟨Nat.le_succ m, fun k hk => hbelow k (by omega), fun _ => hp⟩
    · have hstop : p ((List.range m).countP p) = false := habove (by omega)
      have hfalse : p m = false := by
        rw [← Bool.not_eq_true]
        intro hpm
        have hdownTo : ∀ d, p (m - d) = true := by
          intro d
          induction d with
          | zero => exact hpm
          | succ d ihd =>
            by_cases hd : m - d = 0
            · have hsame : m - (d + 1) = m - d := by omega
              rw [hsame]
              exact ihd
            · have hprev : m - d = m - (d + 1) + 1 := by omega
              rw [hprev] at ihd
              exact hdown _ ihd
        have hreach := hdownTo (m - (List.range m).countP p)
        have hsame : m - (m - (List.range m).countP p) = (List.range m).countP p := by omega
        rw [hsame, hstop] at hreach
        cases hreach
      rw [hfalse, if_neg Bool.false_ne_true, Nat.add_zero]
      exact ⟨by omega, hbelow, fun _ => hstop⟩

/-- The whole part of a position below `m`, and `m` beyond it. -/
def wholePart (m : Nat) (t : K) : Nat := (List.range m).countP fun k => decide (((k + 1 : Nat) : K) ≤ t)

theorem wholePart_spec (m : Nat) {t : K} (ht : 0 ≤ t) :
    wholePart m t ≤ m ∧ (wholePart m t : K) ≤ t ∧ (wholePart m t < m → t < (wholePart m t + 1 : Nat)) := by
  have hdown : ∀ k : Nat, decide (((k + 1 + 1 : Nat) : K) ≤ t) = true → decide (((k + 1 : Nat) : K) ≤ t) = true := by
    intro k hk
    rw [decide_eq_true_eq] at hk ⊢
    refine le_trans ?_ hk
    exact_mod_cast Nat.le_succ (k + 1)
  obtain ⟨hle, hbelow, habove⟩ := countP_range_spec (p := fun k : Nat => decide (((k + 1 : Nat) : K) ≤ t)) hdown m
  refine ⟨hle, ?_, fun hlt => ?_⟩
  · cases hpart : wholePart m t with
    | zero =>
      rw [Nat.cast_zero]
      exact ht
    | succ i =>
      have hi := hbelow i (by rw [wholePart] at hpart; omega)
      rw [decide_eq_true_eq] at hi
      exact hi
  · have hstop := habove hlt
    rw [decide_eq_false_iff_not, not_le] at hstop
    exact hstop

theorem wholePart_eq {m i : Nat} {t : K} (him : i ≤ m) (hle : (i : K) ≤ t) (hlt : i < m → t < (i + 1 : Nat)) :
    wholePart m t = i := by
  have ht : (0 : K) ≤ t := le_trans (by positivity) hle
  obtain ⟨hm, hpart, hnext⟩ := wholePart_spec m ht
  rcases Nat.lt_trichotomy (wholePart m t) i with h | h | h
  · have hbelow : t < (wholePart m t + 1 : Nat) := hnext (by omega)
    have hreach : ((wholePart m t + 1 : Nat) : K) ≤ i := by exact_mod_cast h
    exact absurd (hbelow.trans_le hreach) (not_lt.mpr hle)
  · exact h
  · have hbelow : t < (i + 1 : Nat) := hlt (by omega)
    have hreach : ((i + 1 : Nat) : K) ≤ wholePart m t := by exact_mod_cast h
    exact absurd (hbelow.trans_le hreach) (not_lt.mpr hpart)

/-! ## The line through the values in order -/

/-- The line at a position. -/
def interpolate (xs : List K) (t : K) : K :=
  nth xs (wholePart (xs.length - 1) t) +
    (nth xs (min (wholePart (xs.length - 1) t + 1) (xs.length - 1)) - nth xs (wholePart (xs.length - 1) t)) *
      (t - wholePart (xs.length - 1) t)

theorem percentile_eq (p : K) (xs : List K) :
    percentile p xs = interpolate xs ((xs.length - 1 : Nat) * p / 100) := rfl

/-- Between two neighbours. -/
theorem interpolate_eq {i : Nat} {t : K} (hi : i + 1 < xs.length) (hle : (i : K) ≤ t) (hlt : t < (i + 1 : Nat)) :
    interpolate xs t = nth xs i + (nth xs (i + 1) - nth xs i) * (t - i) := by
  have hpart : wholePart (xs.length - 1) t = i := wholePart_eq (by omega) hle fun _ => hlt
  have hnext : min (i + 1) (xs.length - 1) = i + 1 := by omega
  rw [interpolate, hpart, hnext]

theorem interpolate_nat {j : Nat} (hj : j < xs.length) : interpolate xs (j : K) = nth xs j := by
  have hpart : wholePart (xs.length - 1) (j : K) = j :=
    wholePart_eq (by omega) (le_refl _) fun _ => by exact_mod_cast Nat.lt_succ_self j
  rw [interpolate, hpart, sub_self, mul_zero, add_zero]

/-- The line stays below the next value, and above the last one. -/
theorem interpolate_bounds {t : K} (hxs : xs ≠ []) (ht : 0 ≤ t) (hend : t ≤ (xs.length - 1 : Nat)) :
    nth xs (wholePart (xs.length - 1) t) ≤ interpolate xs t ∧
      interpolate xs t ≤ nth xs (min (wholePart (xs.length - 1) t + 1) (xs.length - 1)) := by
  have hpos : 0 < xs.length := List.length_pos_iff.mpr hxs
  obtain ⟨hm, hle, hnext⟩ := wholePart_spec (xs.length - 1) ht
  have hstep : nth xs (wholePart (xs.length - 1) t) ≤ nth xs (min (wholePart (xs.length - 1) t + 1) (xs.length - 1)) :=
    nth_le_nth (by omega) (by omega)
  have hrest : 0 ≤ t - wholePart (xs.length - 1) t := sub_nonneg.mpr hle
  have hless : t - wholePart (xs.length - 1) t ≤ 1 := by
    rcases Nat.lt_or_eq_of_le hm with hlt | heq
    · have hbelow := hnext hlt
      push_cast at hbelow
      linarith
    · rw [heq]
      linarith
  have hrise := sub_nonneg.mpr hstep
  constructor
  · have hprod := mul_nonneg hrise hrest
    rw [interpolate]
    linarith
  · have hprod := mul_le_mul_of_nonneg_left hless hrise
    rw [interpolate]
    linarith

theorem interpolate_mono {s t : K} (hxs : xs ≠ []) (hs : 0 ≤ s) (hst : s ≤ t) (hend : t ≤ (xs.length - 1 : Nat)) :
    interpolate xs s ≤ interpolate xs t := by
  have hpos : 0 < xs.length := List.length_pos_iff.mpr hxs
  have ht : 0 ≤ t := hs.trans hst
  obtain ⟨hms, hles, hnexts⟩ := wholePart_spec (xs.length - 1) hs
  obtain ⟨hmt, hlet, hnextt⟩ := wholePart_spec (xs.length - 1) ht
  have hparts : wholePart (xs.length - 1) s ≤ wholePart (xs.length - 1) t := by
    by_contra hnot
    have hbelow := hnextt (by omega)
    have hreach : ((wholePart (xs.length - 1) t + 1 : Nat) : K) ≤ wholePart (xs.length - 1) s := by
      exact_mod_cast Nat.lt_of_not_le hnot
    exact absurd (hbelow.trans_le (hreach.trans (hles.trans hst))) (lt_irrefl t)
  rcases Nat.lt_or_eq_of_le hparts with hlt | heq
  · -- a value stands between them
    refine (interpolate_bounds hxs hs (hst.trans hend)).2.trans
      (le_trans ?_ (interpolate_bounds hxs ht hend).1)
    exact nth_le_nth (by omega) (by omega)
  · rw [interpolate, interpolate, heq]
    have hstep : nth xs (wholePart (xs.length - 1) t) ≤
        nth xs (min (wholePart (xs.length - 1) t + 1) (xs.length - 1)) := nth_le_nth (by omega) (by omega)
    have hprod := mul_le_mul_of_nonneg_left (sub_le_sub_right hst (wholePart (xs.length - 1) t : K))
      (sub_nonneg.mpr hstep)
    linarith

/-! ## Percentiles -/

theorem position_nonneg {p : K} (n : Nat) (hp : 0 ≤ p) : 0 ≤ (n : K) * p / 100 := by positivity

theorem position_le {p : K} (n : Nat) (hp : p ≤ 100) : (n : K) * p / 100 ≤ n := by
  have hprod : (n : K) * p ≤ n * 100 := mul_le_mul_of_nonneg_left hp (by positivity)
  rw [div_le_iff₀ (by norm_num)]
  exact hprod

/-- A higher percentile is not less. -/
theorem percentile_mono {p q : K} (hxs : xs ≠ []) (hp : 0 ≤ p) (hpq : p ≤ q) (hq : q ≤ 100) :
    percentile p xs ≤ percentile q xs := by
  rw [percentile_eq, percentile_eq]
  refine interpolate_mono hxs (position_nonneg _ hp) ?_ (position_le _ hq)
  have hprod : ((xs.length - 1 : Nat) : K) * p ≤ (xs.length - 1 : Nat) * q :=
    mul_le_mul_of_nonneg_left hpq (by positivity)
  gcongr

theorem percentile_zero (hxs : xs ≠ []) : percentile 0 xs = minimum xs := by
  have hpos : 0 < xs.length := List.length_pos_iff.mpr hxs
  have hfirst : interpolate xs ((0 : Nat) : K) = nth xs 0 := interpolate_nat hpos
  rw [Nat.cast_zero] at hfirst
  rw [percentile_eq, mul_zero, zero_div, hfirst, minimum]

theorem percentile_hundred (hxs : xs ≠ []) : percentile 100 xs = maximum xs := by
  have hpos : 0 < xs.length := List.length_pos_iff.mpr hxs
  have hlast : ((xs.length - 1 : Nat) : K) * 100 / 100 = (xs.length - 1 : Nat) := by
    rw [mul_div_cancel_right₀]
    norm_num
  rw [percentile_eq, hlast, interpolate_nat (by omega), maximum]

theorem percentile_fifty (hxs : xs ≠ []) : percentile 50 xs = median xs := by
  have hpos : 0 < xs.length := List.length_pos_iff.mpr hxs
  rw [percentile_eq, median]
  by_cases hodd : xs.length % 2 = 1
  · have hhalf : xs.length - 1 = 2 * (xs.length / 2) := by omega
    have hposition : ((xs.length - 1 : Nat) : K) * 50 / 100 = (xs.length / 2 : Nat) := by
      rw [hhalf]
      push_cast
      ring
    rw [if_pos hodd, hposition, interpolate_nat (by omega)]
  · obtain ⟨h, hh⟩ : ∃ h, xs.length = 2 * h + 2 := ⟨xs.length / 2 - 1, by omega⟩
    have hposition : ((xs.length - 1 : Nat) : K) * 50 / 100 = h + 1 / 2 := by
      have hless : xs.length - 1 = 2 * h + 1 := by omega
      rw [hless]
      push_cast
      ring
    have hleft : xs.length / 2 - 1 = h := by omega
    have hright : xs.length / 2 = h + 1 := by omega
    rw [if_neg hodd, hposition, hleft, hright,
      interpolate_eq (i := h) (by omega) (by linarith) (by push_cast; linarith)]
    ring

theorem mem_between {x : K} (hx : x ∈ xs) : minimum xs ≤ x ∧ x ≤ maximum xs := by
  obtain ⟨n, hn, rfl⟩ := exists_nth hx
  exact ⟨nth_le_nth (Nat.zero_le n) hn, nth_le_nth (by omega) (by omega)⟩

theorem mean_between (hxs : xs ≠ []) : minimum xs ≤ mean xs ∧ mean xs ≤ maximum xs := by
  have hlength : (0 : K) < xs.length := length_pos hxs
  rw [mean, le_div_iff₀ hlength, div_le_iff₀ hlength]
  have hleast := List.card_nsmul_le_sum xs (minimum xs) fun x hx => (mem_between hx).1
  have hgreatest := List.sum_le_card_nsmul xs (maximum xs) fun x hx => (mem_between hx).2
  rw [nsmul_eq_mul] at hleast hgreatest
  exact ⟨by linarith, by linarith⟩

/-! ## Fences -/

theorem nth_eq_getElem {n : Nat} (hn : n < (sorted xs).length) : nth xs n = (sorted xs)[n] := by
  rw [nth, List.getElem?_eq_getElem hn]
  rfl

theorem length_sorted (xs : List K) : (sorted xs).length = xs.length := List.length_insertionSort (· ≤ ·) xs

/-- Where a value in order fails a predicate, and all after it do, it holds of those before at most. -/
theorem countP_le_of_nth {q : K → Bool} {j : Nat} (h : ∀ n, j ≤ n → n < xs.length → q (nth xs n) = false) :
    xs.countP q ≤ j := by
  have hperm : xs.countP q = (sorted xs).countP q := ((xs.perm_insertionSort (· ≤ ·)).countP_eq q).symm
  have hsplit : (sorted xs).countP q = ((sorted xs).take j).countP q + ((sorted xs).drop j).countP q := by
    rw [← List.countP_append, List.take_append_drop]
  have hdrop : ((sorted xs).drop j).countP q = 0 := by
    rw [List.countP_eq_zero]
    intro x hx
    obtain ⟨n, hn, rfl⟩ := List.getElem_of_mem hx
    rw [List.length_drop] at hn
    have hlength := length_sorted xs
    have hfail := h (j + n) (by omega) (by omega)
    rw [nth_eq_getElem (by omega)] at hfail
    rw [List.getElem_drop, hfail]
    exact Bool.false_ne_true
  have htake : ((sorted xs).take j).countP q ≤ j :=
    (List.countP_le_length).trans ((List.length_take_le j _))
  omega

/-- The same from the other end. -/
theorem countP_le_of_nth_before {q : K → Bool} {j : Nat} (h : ∀ n, n < j → n < xs.length → q (nth xs n) = false) :
    xs.countP q ≤ xs.length - j := by
  have hperm : xs.countP q = (sorted xs).countP q := ((xs.perm_insertionSort (· ≤ ·)).countP_eq q).symm
  have hsplit : (sorted xs).countP q = ((sorted xs).take j).countP q + ((sorted xs).drop j).countP q := by
    rw [← List.countP_append, List.take_append_drop]
  have hlength := length_sorted xs
  have htake : ((sorted xs).take j).countP q = 0 := by
    rw [List.countP_eq_zero]
    intro x hx
    obtain ⟨n, hn, rfl⟩ := List.getElem_of_mem hx
    rw [List.length_take] at hn
    have hfail := h n (by omega) (by omega)
    rw [nth_eq_getElem (by omega)] at hfail
    rw [List.getElem_take, hfail]
    exact Bool.false_ne_true
  have hdrop : ((sorted xs).drop j).countP q ≤ xs.length - j := by
    refine List.countP_le_length.trans ?_
    rw [List.length_drop, hlength]
  omega

theorem quartiles_le (hxs : xs ≠ []) : percentile 25 xs ≤ percentile 75 xs :=
  percentile_mono hxs (by norm_num) (by norm_num) (by norm_num)

/-- The value in order at a quarter of the length is not below the lower fence. -/
theorem fence_le_nth (h : 4 ≤ xs.length) : (fences xs).1 ≤ nth xs (xs.length / 4) := by
  have hxs : xs ≠ [] := List.ne_nil_of_length_pos (by omega)
  have hquartiles := quartiles_le hxs
  obtain ⟨j, r, hr, hlength⟩ : ∃ j r, r < 4 ∧ xs.length = 4 * j + r :=
    ⟨xs.length / 4, xs.length % 4, by omega, by omega⟩
  have hj : xs.length / 4 = j := by omega
  rw [hj]
  show percentile 25 xs - 3 / 2 * (percentile 75 xs - percentile 25 xs) ≤ nth xs j
  have hposition : ((xs.length - 1 : Nat) : K) * 25 / 100 = ((xs.length - 1 : Nat) : K) / 4 := by ring
  by_cases hsmall : r ≤ 1
  · -- the first quartile is not above it
    have hfirst : percentile 25 xs ≤ nth xs j := by
      rw [percentile_eq, ← interpolate_nat (by omega : j < xs.length), hposition]
      refine interpolate_mono hxs (by positivity) ?_ (by exact_mod_cast (by omega : j ≤ xs.length - 1))
      rw [div_le_iff₀ (by norm_num)]
      exact_mod_cast (by omega : xs.length - 1 ≤ j * 4)
    linarith
  · -- it stands before the next value, and the third quartile does not
    have hlow : (j : K) ≤ ((xs.length - 1 : Nat) : K) / 4 := by
      rw [le_div_iff₀ (by norm_num)]
      exact_mod_cast (by omega : j * 4 ≤ xs.length - 1)
    have hhigh : ((xs.length - 1 : Nat) : K) / 4 ≤ j + 1 / 2 := by
      rw [div_le_iff₀ (by norm_num)]
      have hbound : ((xs.length - 1 : Nat) : K) ≤ ((4 * j + 2 : Nat) : K) := by
        exact_mod_cast (by omega : xs.length - 1 ≤ 4 * j + 2)
      push_cast at hbound
      linarith
    have hfirst : percentile 25 xs =
        nth xs j + (nth xs (j + 1) - nth xs j) * (((xs.length - 1 : Nat) : K) / 4 - j) := by
      rw [percentile_eq, hposition, interpolate_eq (by omega) hlow (by push_cast; linarith)]
    have hthird : nth xs (j + 1) ≤ percentile 75 xs := by
      rw [percentile_eq, ← interpolate_nat (by omega : j + 1 < xs.length)]
      refine interpolate_mono hxs (by positivity) ?_ (position_le _ (by norm_num))
      have hreach : ((4 * (j + 1) : Nat) : K) ≤ ((3 * (xs.length - 1) : Nat) : K) := by
        exact_mod_cast (by omega : 4 * (j + 1) ≤ 3 * (xs.length - 1))
      push_cast at hreach ⊢
      linarith
    have hrise : 0 ≤ nth xs (j + 1) - nth xs j := sub_nonneg.mpr (nth_le_nth (by omega) (by omega))
    have hpart : (nth xs (j + 1) - nth xs j) * (((xs.length - 1 : Nat) : K) / 4 - j) ≤
        (nth xs (j + 1) - nth xs j) * (1 / 2) := mul_le_mul_of_nonneg_left (by linarith) hrise
    linarith

/-- And its counterpart is not above the upper fence. -/
theorem nth_le_fence (h : 4 ≤ xs.length) : nth xs (xs.length - 1 - xs.length / 4) ≤ (fences xs).2 := by
  have hxs : xs ≠ [] := List.ne_nil_of_length_pos (by omega)
  have hquartiles := quartiles_le hxs
  obtain ⟨j, r, hr, hlength⟩ : ∃ j r, r < 4 ∧ xs.length = 4 * j + r :=
    ⟨xs.length / 4, xs.length % 4, by omega, by omega⟩
  show nth xs (xs.length - 1 - xs.length / 4) ≤ percentile 75 xs + 3 / 2 * (percentile 75 xs - percentile 25 xs)
  have hposition : ((xs.length - 1 : Nat) : K) * 75 / 100 = 3 * ((xs.length - 1 : Nat) : K) / 4 := by ring
  by_cases hsmall : r ≤ 1
  · have hthird : nth xs (xs.length - 1 - xs.length / 4) ≤ percentile 75 xs := by
      rw [percentile_eq, ← interpolate_nat (by omega : xs.length - 1 - xs.length / 4 < xs.length), hposition]
      refine interpolate_mono hxs (by positivity) ?_ (by rw [← hposition]; exact position_le _ (by norm_num))
      rw [le_div_iff₀ (by norm_num)]
      exact_mod_cast (by omega : (xs.length - 1 - xs.length / 4) * 4 ≤ 3 * (xs.length - 1))
    linarith
  · obtain ⟨i, hi⟩ : ∃ i, xs.length - 1 - xs.length / 4 = i + 1 := ⟨xs.length - 2 - xs.length / 4, by omega⟩
    rw [hi]
    have hlow : (i : K) + 1 / 2 ≤ 3 * ((xs.length - 1 : Nat) : K) / 4 := by
      rw [le_div_iff₀ (by norm_num)]
      have hbound : ((4 * i + 2 : Nat) : K) ≤ ((3 * (xs.length - 1) : Nat) : K) := by
        exact_mod_cast (by omega : 4 * i + 2 ≤ 3 * (xs.length - 1))
      push_cast at hbound ⊢
      linarith
    have hhigh : 3 * ((xs.length - 1 : Nat) : K) / 4 < (i + 1 : Nat) := by
      rw [div_lt_iff₀ (by norm_num)]
      exact_mod_cast (by omega : 3 * (xs.length - 1) < (i + 1) * 4)
    have hthird : percentile 75 xs =
        nth xs i + (nth xs (i + 1) - nth xs i) * (3 * ((xs.length - 1 : Nat) : K) / 4 - i) := by
      rw [percentile_eq, hposition, interpolate_eq (by omega) (by linarith) hhigh]
    have hfirst : percentile 25 xs ≤ nth xs i := by
      rw [percentile_eq, ← interpolate_nat (by omega : i < xs.length)]
      refine interpolate_mono hxs (by positivity) ?_ (by exact_mod_cast (by omega : i ≤ xs.length - 1))
      have hreach : ((xs.length - 1 : Nat) : K) ≤ ((4 * i : Nat) : K) := by
        exact_mod_cast (by omega : xs.length - 1 ≤ 4 * i)
      push_cast at hreach ⊢
      linarith
    have hrise : 0 ≤ nth xs (i + 1) - nth xs i := sub_nonneg.mpr (nth_le_nth (by omega) (by omega))
    have hpart : (nth xs (i + 1) - nth xs i) * (1 / 2) ≤
        (nth xs (i + 1) - nth xs i) * (3 * ((xs.length - 1 : Nat) : K) / 4 - i) :=
      mul_le_mul_of_nonneg_left (by linarith) hrise
    linarith

/-- At most half of the values are beyond the fences. -/
theorem outliers_le_half (h : 4 ≤ xs.length) :
    2 * (xs.filter fun x => decide (x < (fences xs).1) || decide ((fences xs).2 < x)).length ≤ xs.length := by
  have hbelow : xs.countP (fun x => decide (x < (fences xs).1)) ≤ xs.length / 4 := by
    refine countP_le_of_nth fun n hn hlt => ?_
    rw [decide_eq_false_iff_not, not_lt]
    exact (fence_le_nth h).trans (nth_le_nth hn hlt)
  have habove : xs.countP (fun x => decide ((fences xs).2 < x)) ≤ xs.length / 4 := by
    have hcount : xs.countP (fun x => decide ((fences xs).2 < x)) ≤ xs.length - (xs.length - xs.length / 4) := by
      refine countP_le_of_nth_before fun n hn hlt => ?_
      rw [decide_eq_false_iff_not, not_lt]
      exact (nth_le_nth (by omega) (by omega)).trans (nth_le_fence h)
    omega
  have hboth : (xs.filter fun x => decide (x < (fences xs).1) || decide ((fences xs).2 < x)).length ≤
      xs.countP (fun x => decide (x < (fences xs).1)) + xs.countP (fun x => decide ((fences xs).2 < x)) := by
    rw [← List.countP_eq_length_filter]
    generalize (fences xs).1 = low, (fences xs).2 = high
    clear hbelow habove h
    induction xs with
    | nil => exact Nat.le_refl _
    | cons x xs ih =>
      rw [List.countP_cons, List.countP_cons, List.countP_cons]
      cases decide (x < low) with
      | true => simp; omega
      | false => simp; omega
  omega

/-- The median is between the fences. -/
theorem median_between_fences (hxs : xs ≠ []) : (fences xs).1 ≤ median xs ∧ median xs ≤ (fences xs).2 := by
  have hquartiles := quartiles_le hxs
  have hlow : percentile 25 xs ≤ median xs := by
    rw [← percentile_fifty hxs]
    exact percentile_mono hxs (by norm_num) (by norm_num) (by norm_num)
  have hhigh : median xs ≤ percentile 75 xs := by
    rw [← percentile_fifty hxs]
    exact percentile_mono hxs (by norm_num) (by norm_num) (by norm_num)
  constructor
  · show percentile 25 xs - 3 / 2 * (percentile 75 xs - percentile 25 xs) ≤ median xs
    linarith
  · show median xs ≤ percentile 75 xs + 3 / 2 * (percentile 75 xs - percentile 25 xs)
    linarith

end Statistics
