import IntraCloud.Statistics.Samples
import Mathlib.Algebra.Order.BigOperators.Group.List
import Mathlib.Algebra.BigOperators.Ring.List
import Mathlib.Tactic.FieldSimp
import Mathlib.Tactic.Linarith
import Mathlib.Tactic.Positivity
import Mathlib.Tactic.Push
import Mathlib.Tactic.Ring

/-!
# Samples: denominators, and their order

A sum of squares is zero only for equal values, and so are the variances and sums that the tests divide by. What is
computed of one sample does not depend on its order; what is computed of two does.
-/

namespace Statistics

variable {K : Type} [Arithmetic K]

/-! ## Sums of squares -/

theorem length_pos {xs : List K} (h : xs ≠ []) : (0 : K) < xs.length := by
  have hpos : 0 < xs.length := List.length_pos_iff.mpr h
  exact_mod_cast hpos

theorem squares_nonneg (xs : List K) : 0 ≤ squares xs := by
  refine List.sum_nonneg fun d hd => ?_
  obtain ⟨x, _, rfl⟩ := List.mem_map.mp hd
  exact mul_self_nonneg _

theorem mean_of_allEqual {xs : List K} (h : AllEqual xs) {x : K} (hx : x ∈ xs) : mean xs = x := by
  have hsum : xs.sum = xs.length * x := by
    rw [List.eq_replicate_of_mem fun y hy => h y hy x hx]
    simp
  rw [mean, hsum]
  exact mul_div_cancel_left₀ x (length_pos (List.ne_nil_of_mem hx)).ne'

theorem squares_eq_zero_iff {xs : List K} : squares xs = 0 ↔ AllEqual xs := by
  constructor
  · intro h
    have hmean : ∀ x ∈ xs, x = mean xs := by
      intro x hx
      have hzero : (x - mean xs) * (x - mean xs) = 0 := by
        refine List.all_zero_of_le_zero_le_of_sum_eq_zero (fun d hd => ?_) h (List.mem_map_of_mem hx)
        obtain ⟨y, _, rfl⟩ := List.mem_map.mp hd
        exact mul_self_nonneg _
      exact sub_eq_zero.mp (mul_self_eq_zero.mp hzero)
    intro x hx y hy
    rw [hmean x hx, hmean y hy]
  · intro h
    refine List.sum_eq_zero fun d hd => ?_
    obtain ⟨x, hx, rfl⟩ := List.mem_map.mp hd
    rw [mean_of_allEqual h hx, sub_self, mul_zero]

/-! ## Variances -/

theorem degrees_pos {xs : List K} (h : 2 ≤ xs.length) : (0 : K) < xs.length - 1 := by
  have hlength : (2 : K) ≤ xs.length := by exact_mod_cast h
  linarith

theorem variance_nonneg {xs : List K} (h : 2 ≤ xs.length) : 0 ≤ variance xs :=
  div_nonneg (squares_nonneg xs) (degrees_pos h).le

theorem variance_eq_zero_iff {xs : List K} (h : 2 ≤ xs.length) : variance xs = 0 ↔ AllEqual xs := by
  rw [variance, div_eq_zero_iff, or_iff_left (degrees_pos h).ne', squares_eq_zero_iff]

theorem squaredError_eq_zero_iff {xs ys : List K} (hx : 2 ≤ xs.length) (hy : 2 ≤ ys.length) :
    squaredError xs ys = 0 ↔ AllEqual xs ∧ AllEqual ys := by
  have hxs : (0 : K) < xs.length := length_pos (by rintro rfl; cases hx)
  have hys : (0 : K) < ys.length := length_pos (by rintro rfl; cases hy)
  rw [squaredError, add_eq_zero_iff_of_nonneg (div_nonneg (variance_nonneg hx) hxs.le)
    (div_nonneg (variance_nonneg hy) hys.le), div_eq_zero_iff, div_eq_zero_iff, or_iff_left hxs.ne',
    or_iff_left hys.ne', variance_eq_zero_iff hx, variance_eq_zero_iff hy]

theorem within_eq_zero_iff {samples : List (List K)} : within samples = 0 ↔ ∀ xs ∈ samples, AllEqual xs := by
  constructor
  · intro h xs hxs
    refine squares_eq_zero_iff.mp ?_
    refine List.all_zero_of_le_zero_le_of_sum_eq_zero (fun s hs => ?_) h (List.mem_map_of_mem hxs)
    obtain ⟨ys, _, rfl⟩ := List.mem_map.mp hs
    exact squares_nonneg ys
  · intro h
    refine List.sum_eq_zero fun s hs => ?_
    obtain ⟨xs, hxs, rfl⟩ := List.mem_map.mp hs
    exact squares_eq_zero_iff.mpr (h xs hxs)

/-! ## Ranks -/

section Ranks

variable {α : Type} [LinearOrder α]

theorem ranks_eq (xs : List α) : (ranks xs : List K) = xs.map (rank xs) := rfl

/-- A larger value has a larger rank. -/
theorem rank_lt_rank {xs : List α} {x y : α} (hy : y ∈ xs) (hlt : x < y) : (rank xs x : K) < rank xs y := by
  have hcount : xs.countP (· < x) + xs.countP (· = x) ≤ xs.countP (· < y) := by
    clear hy
    induction xs with
    | nil => simp
    | cons z zs ih =>
      simp only [List.countP_cons, decide_eq_true_eq]
      rcases lt_trichotomy z x with hz | hz | hz
      · simp only [hz, hz.ne, hz.trans hlt, if_true, if_false]
        omega
      · simp only [hz, hlt, lt_irrefl, if_true, if_false]
        omega
      · simp only [hz.ne', not_lt.mpr hz.le, if_false]
        omega
  have hpositive : 0 < xs.countP (· = y) := List.countP_pos_iff.mpr ⟨y, hy, by simp⟩
  have hcount' : (xs.countP (· < x) + xs.countP (· = x) : K) ≤ xs.countP (· < y) := by exact_mod_cast hcount
  have hpositive' : (1 : K) ≤ xs.countP (· = y) := by exact_mod_cast hpositive
  have hnonneg : (0 : K) ≤ xs.countP (· = x) := Nat.cast_nonneg _
  unfold rank
  linarith

theorem allEqual_ranks_iff {xs : List α} : AllEqual (ranks xs : List K) ↔ AllEqual xs := by
  rw [ranks_eq]
  constructor
  · intro h x hx y hy
    have hrank := h _ (List.mem_map_of_mem hx) _ (List.mem_map_of_mem hy)
    rcases lt_trichotomy x y with hlt | heq | hlt
    · exact absurd hrank (rank_lt_rank hy hlt).ne
    · exact heq
    · exact absurd hrank (rank_lt_rank hx hlt).ne'
  · intro h r hr s hs
    obtain ⟨x, hx, rfl⟩ := List.mem_map.mp hr
    obtain ⟨y, hy, rfl⟩ := List.mem_map.mp hs
    rw [h x hx y hy]

/-- Ranks are of the order alone. -/
theorem rank_map {β : Type} [LinearOrder β] {f : α → β} (hf : StrictMono f) (xs : List α) (x : α) :
    (rank (xs.map f) (f x) : K) = rank xs x := by
  have hless : (xs.map f).countP (fun y => decide (y < f x)) = xs.countP fun y => decide (y < x) := by
    rw [List.countP_map]
    exact List.countP_congr fun y _ => by simp [hf.lt_iff_lt]
  have hequal : (xs.map f).countP (fun y => decide (y = f x)) = xs.countP fun y => decide (y = x) := by
    rw [List.countP_map]
    exact List.countP_congr fun y _ => by simp [hf.injective.eq_iff]
  rw [rank, rank, hless, hequal]

theorem ranks_map {β : Type} [LinearOrder β] {f : α → β} (hf : StrictMono f) (xs : List α) :
    (ranks (xs.map f) : List K) = ranks xs := by
  rw [ranks_eq, ranks_eq, List.map_map]
  exact List.map_congr_left fun x _ => rank_map hf xs x

end Ranks

/-! ## Arrays -/

section Arrays

variable {K : Type} {xs ys : List (Double K)}

theorem allDefined_map (zs : List K) : AllDefined (zs.map Double.finite) := by
  intro x hx
  obtain ⟨z, _, rfl⟩ := List.mem_map.mp hx
  trivial

theorem exists_of_allDefined (h : AllDefined xs) : ∃ zs : List K, xs = zs.map .finite := by
  induction xs with
  | nil => exact ⟨[], rfl⟩
  | cons x xs ih =>
    obtain ⟨zs, rfl⟩ := ih fun y hy => h y (List.mem_cons_of_mem _ hy)
    have hx := h x List.mem_cons_self
    cases x with
    | finite x => exact ⟨x :: zs, rfl⟩
    | infinite negative => cases hx
    | nan => cases hx

theorem finite_injective : Function.Injective (Double.finite : K → Double K) := fun _ _ => Double.finite.inj

theorem map_finite_injective : Function.Injective (List.map (Double.finite (K := K))) :=
  List.map_injective_iff.mpr finite_injective

theorem allEqual_map_iff {zs : List K} : AllEqual (zs.map Double.finite) ↔ AllEqual zs := by
  constructor
  · intro h x hx y hy
    exact Double.finite.inj (h _ (List.mem_map_of_mem hx) _ (List.mem_map_of_mem hy))
  · intro h _ hx _ hy
    obtain ⟨x, hxs, rfl⟩ := List.mem_map.mp hx
    obtain ⟨y, hys, rfl⟩ := List.mem_map.mp hy
    rw [h x hxs y hys]

theorem not_allEqual_iff {α : Type} {xs : List α} : ¬ AllEqual xs ↔ ∃ x ∈ xs, ∃ y ∈ xs, x ≠ y := by
  unfold AllEqual
  push Not
  exact Iff.rfl

theorem varies_iff : Varies xs ↔ AllDefined xs ∧ ¬ AllEqual xs := by
  rw [Varies, not_allEqual_iff]

theorem varies_map {zs : List K} : Varies (zs.map Double.finite) ↔ ¬ AllEqual zs := by
  rw [varies_iff, allEqual_map_iff, and_iff_right (allDefined_map zs)]

theorem ranked_of_allDefined (h : AllDefined xs) : Ranked xs := by
  rintro _ hx rfl
  exact h _ hx

theorem constant_map_iff {zs : List K} : Constant (zs.map Double.finite) ↔ AllEqual zs := by
  rw [Constant, and_iff_right (ranked_of_allDefined (allDefined_map zs)), ← allEqual_map_iff]
  exact Iff.rfl

variable [LinearOrder K]

theorem place_inj {x y : Double K} (hx : x ≠ .nan) (hy : y ≠ .nan) (h : x.place = y.place) : x = y := by
  cases x with
  | nan => exact absurd rfl hx
  | finite x =>
    cases y with
    | nan => exact absurd rfl hy
    | finite y => simpa [Double.place] using h
    | infinite negative => cases negative <;> simp [Double.place] at h
  | infinite negative =>
    cases y with
    | nan => exact absurd rfl hy
    | finite y => cases negative <;> simp [Double.place] at h
    | infinite negative' => cases negative <;> cases negative' <;> simp [Double.place] at h ⊢

end Arrays

/-! ## Statistics that are numbers -/

theorem defined_divide_iff {x y : K} : (divide x y).Defined ↔ y ≠ 0 := by
  unfold divide
  split
  next h =>
    rw [iff_false_right (not_not.mpr h)]
    split <;> exact id
  next h => exact iff_of_true trivial h

/-- A statistic that is a number has a p-value. -/
theorem defined_pValue {p : K → K} {x : Double K} (h : x.Defined) : (pValue p x).Defined := by
  cases x with
  | finite x => trivial
  | infinite negative => cases h
  | nan => cases h

variable {F : Functions K} {xs ys : List K}

theorem defined_pearsonr_iff : (pearsonr F xs ys).1.Defined ↔ ¬ AllEqual xs ∧ ¬ AllEqual ys := by
  rw [← squares_eq_zero_iff, ← squares_eq_zero_iff, ← not_or]
  unfold pearsonr
  split
  next h => exact iff_of_false id (not_not.mpr h)
  next h => exact iff_of_true trivial h

theorem defined_spearmanr_iff {α : Type} [LinearOrder α] {xs ys : List α} :
    (spearmanr F xs ys).1.Defined ↔ ¬ AllEqual xs ∧ ¬ AllEqual ys := by
  rw [spearmanr, defined_pearsonr_iff, allEqual_ranks_iff, allEqual_ranks_iff]

/-- The statistic and its p-value. -/
def BothDefined (x : Double K × Double K) : Prop := x.1.Defined ∧ x.2.Defined

theorem bothDefined_pearsonr_iff : BothDefined (pearsonr F xs ys) ↔ ¬ AllEqual xs ∧ ¬ AllEqual ys := by
  rw [← defined_pearsonr_iff (F := F)]
  exact ⟨fun h => h.1, fun h => ⟨h, defined_pValue h⟩⟩

theorem bothDefined_spearmanr_iff {α : Type} [LinearOrder α] {xs ys : List α} :
    BothDefined (spearmanr F xs ys) ↔ ¬ AllEqual xs ∧ ¬ AllEqual ys := by
  rw [← defined_spearmanr_iff (F := F)]
  exact ⟨fun h => h.1, fun h => ⟨h, defined_pValue h⟩⟩

theorem bothDefined_ttestInd_iff (hx : 2 ≤ xs.length) (hy : 2 ≤ ys.length) :
    BothDefined (ttestInd F xs ys) ↔ ¬ (AllEqual xs ∧ AllEqual ys) := by
  have hstatistic : (ttestInd F xs ys).1.Defined ↔ ¬ (AllEqual xs ∧ AllEqual ys) := by
    rw [← squaredError_eq_zero_iff hx hy]
    unfold ttestInd
    split
    next h => exact iff_of_false (fun hd => defined_divide_iff.mp hd rfl) (not_not.mpr h)
    next h => exact iff_of_true trivial h
  rw [← hstatistic]
  exact ⟨fun h => h.1, fun h => ⟨h, defined_pValue h⟩⟩

theorem bothDefined_fOneway_iff {samples : List (List K)} (h : samples.length < samples.flatten.length) :
    BothDefined (fOneway F samples) ↔ ¬ ∀ xs ∈ samples, AllEqual xs := by
  have hdegrees : ((samples.flatten.length - samples.length : Nat) : K) ≠ 0 := Nat.cast_ne_zero.mpr (by omega)
  have hstatistic : (fOneway F samples).1.Defined ↔ ¬ ∀ xs ∈ samples, AllEqual xs := by
    show (divide _ _).Defined ↔ _
    rw [defined_divide_iff, ne_eq, div_eq_zero_iff, or_iff_left hdegrees, within_eq_zero_iff]
  rw [← hstatistic]
  exact ⟨fun h => h.1, fun h => ⟨h, defined_pValue h⟩⟩

/-- All numbers of a line are. -/
structure Line.Defined (line : Line K) : Prop where
  slope : line.slope.Defined
  intercept : line.intercept.Defined
  rvalue : line.rvalue.Defined
  pvalue : line.pvalue.Defined
  stderr : line.stderr.Defined

/-- The coefficient of correlation is the only number of a line that may not be one. -/
theorem defined_linregress_iff : (linregress F xs ys).Defined ↔ ¬ AllEqual ys := by
  rw [← squares_eq_zero_iff, linregress]
  by_cases h : squares ys = 0
  · simp only [h, if_true, not_true_eq_false, iff_false]
    intro hline
    exact hline.rvalue
  · simp only [h, if_false, not_false_eq_true, iff_true]
    exact ⟨trivial, trivial, trivial, trivial, trivial⟩

/-! ## Expected frequencies -/

/-- Every row and every column of the table counts something. -/
structure Filled (table : List (List Nat)) : Prop where
  rows : ∀ row ∈ table, ∃ n ∈ row, 0 < n
  columns : ∀ j < (table.headD []).length, ∃ row ∈ table, 0 < row[j]?.getD 0

theorem sum_pos_of_mem {ns : List Nat} {n : Nat} (hn : n ∈ ns) (hpos : 0 < n) : 0 < ns.sum :=
  Nat.lt_of_lt_of_le hpos (List.le_sum_of_mem hn)

theorem columnSums_pos {table : List (List Nat)} (h : Filled table) {n : Nat} (hn : n ∈ columnSums table) :
    0 < n := by
  obtain ⟨j, hj, rfl⟩ := List.mem_map.mp hn
  obtain ⟨row, hrow, hpos⟩ := h.columns j (List.mem_range.mp hj)
  exact sum_pos_of_mem (List.mem_map.mpr ⟨row, hrow, rfl⟩) hpos

theorem expected_ne_zero {table : List (List Nat)} (h : Filled table) {c : Nat × K} (hc : c ∈ cells table) :
    c.2 ≠ 0 := by
  obtain ⟨row, hrow, hc⟩ := List.mem_flatMap.mp hc
  obtain ⟨⟨n, sum⟩, hmem, rfl⟩ := List.mem_map.mp hc
  obtain ⟨m, hm, hpos⟩ := h.rows row hrow
  have hrowSum : 0 < row.sum := sum_pos_of_mem hm hpos
  have hcolumn : 0 < sum := columnSums_pos h (List.of_mem_zip hmem).2
  have htotal : 0 < total table := sum_pos_of_mem (List.mem_flatten.mpr ⟨row, hrow, hm⟩) hpos
  have hrowSum' : (row.sum : K) ≠ 0 := Nat.cast_ne_zero.mpr hrowSum.ne'
  have hcolumn' : (sum : K) ≠ 0 := Nat.cast_ne_zero.mpr hcolumn.ne'
  have htotal' : (total table : K) ≠ 0 := Nat.cast_ne_zero.mpr htotal.ne'
  exact div_ne_zero (mul_ne_zero hrowSum' hcolumn') htotal'

theorem defined_chi2Contingency {table : List (List Nat)} :
    (chi2Contingency F table).1.Defined ∧ (chi2Contingency F table).2.1.Defined := by
  unfold chi2Contingency
  dsimp only
  split <;> exact ⟨trivial, trivial⟩

/-! ## One sample in another order -/

section Order

variable {xs ys xs' ys' : List K} {F : Functions K}

theorem sorted_perm (h : xs.Perm ys) : sorted xs = sorted ys :=
  ((xs.perm_insertionSort (· ≤ ·)).trans (h.trans (ys.perm_insertionSort (· ≤ ·)).symm)).eq_of_pairwise'
    (List.pairwise_insertionSort (· ≤ ·) xs) (List.pairwise_insertionSort (· ≤ ·) ys)

theorem nth_perm (h : xs.Perm ys) (n : Nat) : nth xs n = nth ys n := by
  rw [nth, nth, sorted_perm h]

theorem minimum_perm (h : xs.Perm ys) : minimum xs = minimum ys := nth_perm h 0

theorem maximum_perm (h : xs.Perm ys) : maximum xs = maximum ys := by
  rw [maximum, maximum, h.length_eq, nth_perm h]

/-- A value is one of those in order. -/
theorem exists_nth {x : K} (hx : x ∈ xs) : ∃ n < xs.length, nth xs n = x := by
  have hmem : x ∈ sorted xs := (List.mem_insertionSort (· ≤ ·)).mpr hx
  obtain ⟨n, hn, rfl⟩ := List.getElem_of_mem hmem
  refine ⟨n, ?_, ?_⟩
  · rwa [sorted, List.length_insertionSort] at hn
  · rw [nth, List.getElem?_eq_getElem hn]
    rfl

theorem nth_le_nth {m n : Nat} (hmn : m ≤ n) (hn : n < xs.length) : nth xs m ≤ nth xs n := by
  have hlength : (sorted xs).length = xs.length := List.length_insertionSort (· ≤ ·) xs
  have hn' : n < (sorted xs).length := by omega
  have hm' : m < (sorted xs).length := by omega
  rw [nth, nth, List.getElem?_eq_getElem hn', List.getElem?_eq_getElem hm']
  rcases Nat.lt_or_eq_of_le hmn with hlt | rfl
  · exact List.pairwise_iff_getElem.mp (List.pairwise_insertionSort (· ≤ ·) xs) m n hm' hn' hlt
  · exact le_refl _

theorem minimum_eq_maximum_iff : minimum xs = maximum xs ↔ AllEqual xs := by
  constructor
  · intro h x hx y hy
    have hall : ∀ {z}, z ∈ xs → z = minimum xs := by
      intro z hz
      obtain ⟨n, hn, rfl⟩ := exists_nth hz
      have hle : nth xs n ≤ maximum xs := nth_le_nth (by omega) (by omega)
      exact le_antisymm (hle.trans h.ge) (nth_le_nth (Nat.zero_le n) hn)
    rw [hall hx, hall hy]
  · intro h
    cases hxs : xs with
    | nil => rfl
    | cons x zs =>
      rw [← hxs]
      have hlength : 0 < xs.length := by
        rw [hxs]
        exact Nat.succ_pos _
      have hsorted : (sorted xs).length = xs.length := List.length_insertionSort (· ≤ ·) xs
      have hmem : ∀ {n}, n < xs.length → nth xs n ∈ xs := by
        intro n hn
        have hn' : n < (sorted xs).length := by omega
        rw [nth, List.getElem?_eq_getElem hn']
        exact (List.mem_insertionSort (· ≤ ·)).mp (List.getElem_mem hn')
      exact h _ (hmem hlength) _ (hmem (by omega))

theorem mean_perm (h : xs.Perm ys) : mean xs = mean ys := by
  rw [mean, mean, h.sum_eq, h.length_eq]

theorem squares_perm (h : xs.Perm ys) : squares xs = squares ys := by
  rw [squares, squares, mean_perm h]
  exact (h.map _).sum_eq

theorem variance_perm (h : xs.Perm ys) : variance xs = variance ys := by
  rw [variance, variance, squares_perm h, h.length_eq]

theorem median_perm (h : xs.Perm ys) : median xs = median ys := by
  rw [median, median, h.length_eq, nth_perm h, nth_perm h]

theorem percentile_perm (h : xs.Perm ys) (p : K) : percentile p xs = percentile p ys := by
  have hnth : nth xs = nth ys := funext (nth_perm h)
  rw [percentile, percentile, h.length_eq, hnth]

theorem fences_perm (h : xs.Perm ys) : fences xs = fences ys := by
  rw [fences, fences, percentile_perm h, percentile_perm h]

theorem rank_perm {α : Type} [LinearOrder α] {xs ys : List α} (h : xs.Perm ys) :
    (rank xs : α → K) = rank ys := by
  funext x
  rw [rank, rank, h.countP_eq, h.countP_eq]

omit [Arithmetic K] in
theorem allEqual_perm (h : xs.Perm ys) (hxs : AllEqual xs) : AllEqual ys :=
  fun x hx y hy => hxs x (h.mem_iff.mpr hx) y (h.mem_iff.mpr hy)

omit [Arithmetic K] in
/-- Lists of one value are the same in every order. -/
theorem eq_of_allEqual (h : xs.Perm ys) (hxs : AllEqual xs) : xs = ys := by
  cases hlist : xs with
  | nil =>
    rw [hlist] at h
    rw [h.nil_eq]
  | cons x zs =>
    have hx : x ∈ xs := hlist ▸ List.mem_cons_self
    have hreplicate : xs = List.replicate xs.length x := List.eq_replicate_of_mem fun y hy => hxs y hy x hx
    have hreplicate' : ys = List.replicate ys.length x :=
      List.eq_replicate_of_mem fun y hy => hxs y (h.mem_iff.mpr hy) x hx
    rw [← hlist]
    exact hreplicate.trans (by rw [h.length_eq]; exact hreplicate'.symm)

/-! ## Two samples in another order -/

/-- Two values of one sample are exchanged. -/
theorem products_exchange (x x' : K) (xs : List K) (y y' : K) (ys : List K) :
    products (x :: x' :: xs) (y :: y' :: ys) - products (x :: x' :: xs) (y' :: y :: ys) = (x - x') * (y - y') := by
  have hmean : mean (y' :: y :: ys) = mean (y :: y' :: ys) := mean_perm (List.Perm.swap _ _ _)
  rw [products, products, hmean]
  simp only [List.zip_cons_cons, List.map_cons, List.sum_cons]
  ring

theorem products_exchange_ne {x x' y y' : K} (hx : x ≠ x') (hy : y ≠ y') (xs ys : List K) :
    products (x :: x' :: xs) (y :: y' :: ys) ≠ products (x :: x' :: xs) (y' :: y :: ys) := by
  intro heq
  have hexchange := products_exchange x x' xs y y' ys
  rw [heq, sub_self] at hexchange
  obtain hzero | hzero := mul_eq_zero.mp hexchange.symm
  · exact hx (sub_eq_zero.mp hzero)
  · exact hy (sub_eq_zero.mp hzero)

omit [Arithmetic K] in
theorem not_allEqual_cons {x x' : K} (hx : x ≠ x') (xs : List K) : ¬ AllEqual (x :: x' :: xs) := fun h =>
  hx (h x List.mem_cons_self x' (List.mem_cons_of_mem _ List.mem_cons_self))

theorem squares_pos {x x' : K} (hx : x ≠ x') (xs : List K) : 0 < squares (x :: x' :: xs) := by
  have hne : squares (x :: x' :: xs) ≠ 0 := fun h => not_allEqual_cons hx xs (squares_eq_zero_iff.mp h)
  exact lt_of_le_of_ne (squares_nonneg _) hne.symm

/-- A coefficient is none where a sample has one value. -/
theorem pearsonr_of_allEqual (h : AllEqual xs ∨ AllEqual ys) : pearsonr F xs ys = (.nan, .nan) := by
  have hzero : squares xs = 0 ∨ squares ys = 0 := h.imp squares_eq_zero_iff.mpr squares_eq_zero_iff.mpr
  rw [pearsonr, if_pos hzero]
  rfl

theorem spearmanr_of_allEqual {α : Type} [LinearOrder α] {xs ys : List α} (h : AllEqual xs ∨ AllEqual ys) :
    spearmanr F xs ys = (.nan, .nan) := by
  rw [spearmanr, pearsonr_of_allEqual (h.imp allEqual_ranks_iff.mpr allEqual_ranks_iff.mpr)]
  rfl

/-- Otherwise, an exchange changes it. -/
theorem pearsonr_exchange_ne (hsqrt : ∀ z, 0 < z → F.sqrt z ≠ 0) {x x' y y' : K} (hx : x ≠ x') (hy : y ≠ y')
    (xs ys : List K) :
    (pearsonr F (x :: x' :: xs) (y :: y' :: ys)).1 ≠ (pearsonr F (x :: x' :: xs) (y' :: y :: ys)).1 := by
  have hsquares : squares (y' :: y :: ys) = squares (y :: y' :: ys) := squares_perm (List.Perm.swap _ _ _)
  have hxpos := squares_pos hx xs
  have hypos := squares_pos hy ys
  have hne : ¬ (squares (x :: x' :: xs) = 0 ∨ squares (y :: y' :: ys) = 0) := not_or.mpr ⟨hxpos.ne', hypos.ne'⟩
  have hroots := mul_ne_zero (hsqrt _ hxpos) (hsqrt _ hypos)
  rw [pearsonr, pearsonr, hsquares, if_neg hne, if_neg hne]
  intro heq
  have hquotient := Double.finite.inj heq
  rw [div_left_inj' hroots] at hquotient
  exact products_exchange_ne hx hy xs ys hquotient

theorem rank_ne {α : Type} [LinearOrder α] {xs : List α} {x x' : α} (hx : x ∈ xs) (hx' : x' ∈ xs) (hne : x ≠ x') :
    (rank xs x : K) ≠ rank xs x' := by
  rcases lt_or_gt_of_ne hne with hlt | hlt
  · exact (rank_lt_rank hx' hlt).ne
  · exact (rank_lt_rank hx hlt).ne'

theorem spearmanr_exchange_ne {α : Type} [LinearOrder α] (hsqrt : ∀ z, 0 < z → F.sqrt z ≠ 0)
    {x x' y y' : α} (hx : x ≠ x') (hy : y ≠ y') (xs ys : List α) :
    (spearmanr F (x :: x' :: xs) (y :: y' :: ys)).1 ≠ (spearmanr F (x :: x' :: xs) (y' :: y :: ys)).1 := by
  have hxrank : (rank (x :: x' :: xs) x : K) ≠ rank (x :: x' :: xs) x' :=
    rank_ne List.mem_cons_self (List.mem_cons_of_mem _ List.mem_cons_self) hx
  have hyrank : (rank (y :: y' :: ys) y : K) ≠ rank (y :: y' :: ys) y' :=
    rank_ne List.mem_cons_self (List.mem_cons_of_mem _ List.mem_cons_self) hy
  have hranks : (ranks (y' :: y :: ys) : List K) = rank (y :: y' :: ys) y' :: rank (y :: y' :: ys) y ::
      ys.map (rank (y :: y' :: ys)) := by
    rw [ranks, rank_perm (List.Perm.swap y y' ys)]
    rfl
  rw [spearmanr, spearmanr, hranks]
  exact pearsonr_exchange_ne hsqrt hxrank hyrank _ _

/-- The coefficient of numbers is that of their places. -/
theorem spearmanr_map {α β : Type} [LinearOrder α] [LinearOrder β] {f : α → β} (hf : StrictMono f) (xs ys : List α) :
    spearmanr F (xs.map f) (ys.map f) = spearmanr F xs ys := by
  rw [spearmanr, spearmanr, ranks_map hf, ranks_map hf, List.length_map]

/-! ## Lines -/

theorem products_of_allEqual (h : AllEqual ys) : products xs ys = 0 := by
  refine List.sum_eq_zero fun d hd => ?_
  obtain ⟨p, hp, rfl⟩ := List.mem_map.mp hd
  rw [mean_of_allEqual h (List.of_mem_zip hp).2, sub_self, mul_zero]

/-- A level line. -/
theorem linregress_level (hy : AllEqual ys) :
    linregress F xs ys = ⟨.finite 0, .finite (mean ys), .nan, .nan, .nan⟩ := by
  have hys : squares ys = 0 := squares_eq_zero_iff.mpr hy
  rw [linregress]
  simp only [products_of_allEqual hy, hys, zero_div, zero_mul, sub_zero, if_true]
  rfl

theorem linregress_exchange_ne {x x' y y' : K} (hx : x ≠ x') (hy : y ≠ y') (xs ys : List K) :
    (linregress F (x :: x' :: xs) (y :: y' :: ys)).slope ≠ (linregress F (x :: x' :: xs) (y' :: y :: ys)).slope := by
  have hxpos := squares_pos hx xs
  rw [linregress, linregress]
  intro heq
  have hquotient := Double.finite.inj heq
  rw [div_left_inj' hxpos.ne'] at hquotient
  exact products_exchange_ne hx hy xs ys hquotient

/-! ## Means -/

theorem squaredError_perm (hx : xs.Perm xs') (hy : ys.Perm ys') : squaredError xs ys = squaredError xs' ys' := by
  rw [squaredError, squaredError, variance_perm hx, variance_perm hy, hx.length_eq, hy.length_eq]

theorem freedom_perm (hx : xs.Perm xs') (hy : ys.Perm ys') : freedom xs ys = freedom xs' ys' := by
  rw [freedom, freedom, variance_perm hx, variance_perm hy, hx.length_eq, hy.length_eq]

theorem ttestInd_perm (hx : xs.Perm xs') (hy : ys.Perm ys') : ttestInd F xs ys = ttestInd F xs' ys' := by
  rw [ttestInd, ttestInd, squaredError_perm hx hy, freedom_perm hx hy, mean_perm hx, mean_perm hy]

theorem squaredError_comm (xs ys : List K) : squaredError ys xs = squaredError xs ys := add_comm _ _

theorem freedom_comm (xs ys : List K) : freedom ys xs = freedom xs ys := by
  have hsum := add_comm (variance ys / ys.length) (variance xs / xs.length)
  have hparts := add_comm (variance ys / ys.length * (variance ys / ys.length) / (ys.length - 1))
    (variance xs / xs.length * (variance xs / xs.length) / (xs.length - 1))
  rw [freedom, freedom]
  simp only [hsum, hparts]

theorem divide_zero_ne {d : K} (h : d ≠ 0) : divide d 0 ≠ divide (-d) 0 := by
  have hneg : -d ≠ 0 := neg_ne_zero.mpr h
  rw [divide, divide, if_pos rfl, if_pos rfl, if_neg h, if_neg hneg]
  intro heq
  have hsigns := decide_eq_decide.mp (Double.infinite.inj heq)
  rcases lt_or_gt_of_ne h with hlt | hlt
  · have := hsigns.mp hlt
    linarith
  · have := hsigns.mpr (by linarith)
    linarith

/-- The sign of the statistic is that of the order of the samples. -/
theorem ttestInd_comm_iff (hsqrt : ∀ z, 0 < z → F.sqrt z ≠ 0) (hx : 2 ≤ xs.length) (hy : 2 ≤ ys.length) :
    ttestInd F xs ys = ttestInd F ys xs ↔ mean xs = mean ys := by
  constructor
  · intro h
    by_contra hne
    have hd : mean xs - mean ys ≠ 0 := sub_ne_zero.mpr hne
    have hstatistic := congrArg Prod.fst h
    rw [ttestInd, ttestInd, squaredError_comm xs ys] at hstatistic
    dsimp only at hstatistic
    rw [← neg_sub (mean xs) (mean ys)] at hstatistic
    by_cases herror : squaredError xs ys = 0
    · rw [if_pos herror, if_pos herror] at hstatistic
      exact divide_zero_ne hd hstatistic
    · rw [if_neg herror, if_neg herror] at hstatistic
      have hnonneg : 0 ≤ squaredError xs ys :=
        add_nonneg (div_nonneg (variance_nonneg hx) (Nat.cast_nonneg _))
          (div_nonneg (variance_nonneg hy) (Nat.cast_nonneg _))
      have hroot := hsqrt _ (lt_of_le_of_ne hnonneg (Ne.symm herror))
      have hquotient := Double.finite.inj hstatistic
      rw [div_left_inj' hroot] at hquotient
      exact hd (self_eq_neg.mp hquotient)
  · intro h
    have hd : mean ys - mean xs = mean xs - mean ys := by rw [h]
    rw [ttestInd, ttestInd, squaredError_comm xs ys, freedom_comm xs ys, hd]

end Order

end Statistics
