import IntraCloud.Statistics.Samples

/-!
# `numpy` and `scipy.stats`

The functions of the libraries take arrays of doubles. What is documented of them is said of arrays of numbers, in exact
arithmetic; of other arrays it is only said that a statistic is no number.
-/

namespace Statistics

variable {K : Type}

/-- The functions of `numpy` and `scipy.stats`. Those of `scipy.stats` are `none` where they raise `ValueError`. -/
structure Libraries (K : Type) where
  sum : List (Double K) → Double K
  mean : List (Double K) → Double K
  median : List (Double K) → Double K
  min : List (Double K) → Double K
  max : List (Double K) → Double K
  /-- `std(values, ddof=1)` -/
  std : List (Double K) → Double K
  /-- `var(values, ddof=1)` -/
  var : List (Double K) → Double K
  /-- One value of `percentile(values, percentiles)`. -/
  percentile : List (Double K) → K → Double K
  /-- `convolve(values, ones(window) / window, mode="valid")` -/
  convolve : List (Double K) → Nat → List (Double K)
  pearsonr : List (Double K) → List (Double K) → Option (Double K × Double K)
  spearmanr : List (Double K) → List (Double K) → Option (Double K × Double K)
  linregress : List (Double K) → List (Double K) → Option (Line K)
  /-- `ttest_ind(equal_var=False)` -/
  ttestInd : List (Double K) → List (Double K) → Option (Double K × Double K)
  chi2Contingency : List (List Nat) → Option (Double K × Double K × Nat)
  fOneway : List (List (Double K)) → Option (Double K × Double K)
  /-- `linregress` raises if the first array is constant. Otherwise it returns NaN. -/
  constantRaises : Bool

variable [Arithmetic K]

/-- What the functions compute. A statistic of two arrays is asked for arrays of one length. -/
structure Documented (L : Libraries K) (F : Functions K) : Prop where
  root : ∀ x, 0 < x → F.sqrt x ≠ 0
  sum : ∀ xs : List K, L.sum (xs.map .finite) = .finite xs.sum
  mean : ∀ xs : List K, xs ≠ [] → L.mean (xs.map .finite) = .finite (Statistics.mean xs)
  median : ∀ xs : List K, xs ≠ [] → L.median (xs.map .finite) = .finite (Statistics.median xs)
  min : ∀ xs : List K, xs ≠ [] → L.min (xs.map .finite) = .finite (minimum xs)
  max : ∀ xs : List K, xs ≠ [] → L.max (xs.map .finite) = .finite (maximum xs)
  std : ∀ xs : List K, 2 ≤ xs.length → L.std (xs.map .finite) = .finite (F.sqrt (variance xs))
  var : ∀ xs : List K, 2 ≤ xs.length → L.var (xs.map .finite) = .finite (variance xs)
  percentile : ∀ (xs : List K) (p : K), xs ≠ [] → 0 ≤ p → p ≤ 100 →
    L.percentile (xs.map .finite) p = .finite (Statistics.percentile p xs)
  convolve : ∀ (xs : List K) (window : Nat), 0 < window → window ≤ xs.length →
    L.convolve (xs.map .finite) window = (List.range (xs.length - window + 1)).map fun i =>
      .finite (Statistics.mean ((xs.drop i).take window))
  pearsonr : ∀ xs ys : List K, xs.length = ys.length → 3 ≤ xs.length →
    L.pearsonr (xs.map .finite) (ys.map .finite) = some (Statistics.pearsonr F xs ys)
  pearsonr_undefined : ∀ xs ys, xs.length = ys.length → 3 ≤ xs.length → ¬ (AllDefined xs ∧ AllDefined ys) →
    ∃ r p, L.pearsonr xs ys = some (r, p) ∧ ¬ r.Defined
  spearmanr : ∀ xs ys, xs.length = ys.length → 3 ≤ xs.length → Ranked xs → Ranked ys →
    L.spearmanr xs ys = some (Statistics.spearmanr F (xs.map Double.place) (ys.map Double.place))
  spearmanr_undefined : ∀ xs ys, xs.length = ys.length → 3 ≤ xs.length → ¬ (Ranked xs ∧ Ranked ys) →
    ∃ rho p, L.spearmanr xs ys = some (rho, p) ∧ ¬ rho.Defined
  linregress : ∀ xs ys : List K, xs.length = ys.length → 3 ≤ xs.length → ¬ AllEqual xs →
    L.linregress (xs.map .finite) (ys.map .finite) = some (Statistics.linregress F xs ys)
  linregress_raises : L.constantRaises = true → ∀ xs ys, xs.length = ys.length → 3 ≤ xs.length → Constant xs →
    L.linregress xs ys = none
  linregress_constant : L.constantRaises = false → ∀ xs ys : List K, xs.length = ys.length → 3 ≤ xs.length →
    AllEqual xs → L.linregress (xs.map .finite) (ys.map .finite) = some ⟨.nan, .nan, .nan, .nan, .nan⟩
  linregress_undefined : ∀ xs ys, xs.length = ys.length → 3 ≤ xs.length →
    (L.constantRaises = false ∨ ¬ Constant xs) → ¬ (AllDefined xs ∧ AllDefined ys) →
      ∃ line, L.linregress xs ys = some line ∧ ¬ line.slope.Defined
  ttestInd : ∀ xs ys : List K, 2 ≤ xs.length → 2 ≤ ys.length →
    L.ttestInd (xs.map .finite) (ys.map .finite) = some (Statistics.ttestInd F xs ys)
  ttestInd_undefined : ∀ xs ys, 2 ≤ xs.length → 2 ≤ ys.length → ¬ (AllDefined xs ∧ AllDefined ys) →
    ∃ t p, L.ttestInd xs ys = some (t, p) ∧ ¬ t.Defined
  chi2Contingency : ∀ table, (∀ c ∈ (cells table : List (Nat × K)), c.2 ≠ 0) →
    L.chi2Contingency table = some (Statistics.chi2Contingency F table)
  fOneway : ∀ samples : List (List K), 2 ≤ samples.length → (∀ xs ∈ samples, 2 ≤ xs.length) →
    L.fOneway (samples.map (List.map .finite)) = some (Statistics.fOneway F samples)
  fOneway_undefined : ∀ samples, 2 ≤ samples.length → (∀ xs ∈ samples, 2 ≤ xs.length) →
    ¬ (∀ xs ∈ samples, AllDefined xs) → ∃ f p, L.fOneway samples = some (f, p) ∧ ¬ f.Defined

/-! ## Exact functions -/

/-- The numbers of an array that holds nothing else. -/
def finites : List (Double K) → Option (List K)
  | [] => some []
  | .finite x :: xs => (finites xs).map (x :: ·)
  | _ :: _ => none

/-- The numbers of arrays that hold nothing else. -/
def finiteSamples : List (List (Double K)) → Option (List (List K))
  | [] => some []
  | xs :: samples => (finites xs).bind fun xs => (finiteSamples samples).map (xs :: ·)

/-- A statistic of an array, which is NaN if one of the values is no number. -/
def ofSample (statistic : List K → K) (xs : List (Double K)) : Double K :=
  match finites xs with
  | some xs => .finite (statistic xs)
  | none => .nan

/-- And one of two arrays. -/
def ofSamples {α : Type} (statistic : List K → List K → α) (undefined : α) (xs ys : List (Double K)) : α :=
  match finites xs, finites ys with
  | some xs, some ys => statistic xs ys
  | _, _ => undefined

/-- Functions that are as documented. -/
def exactLibraries (F : Functions K) (constantRaises : Bool) : Libraries K where
  sum := ofSample List.sum
  mean := ofSample mean
  median := ofSample median
  min := ofSample minimum
  max := ofSample maximum
  std := ofSample fun xs => F.sqrt (variance xs)
  var := ofSample variance
  percentile xs p := ofSample (percentile p) xs
  convolve xs window := (List.range (xs.length - window + 1)).map fun i => ofSample mean ((xs.drop i).take window)
  pearsonr xs ys := some (ofSamples (pearsonr F) (.nan, .nan) xs ys)
  spearmanr xs ys :=
    if (xs ++ ys).any fun x => x == .nan then some (.nan, .nan)
    else some (spearmanr F (xs.map Double.place) (ys.map Double.place))
  linregress xs ys :=
    if constantRaises && (xs.all fun x => x != .nan && xs.all fun y => x == y) then none
    else
      let undefined : Line K := ⟨.nan, .nan, .nan, .nan, .nan⟩
      some (ofSamples (fun xs ys => if minimum xs = maximum xs then undefined else linregress F xs ys) undefined xs ys)
  ttestInd xs ys := some (ofSamples (ttestInd F) (.nan, .nan) xs ys)
  chi2Contingency table :=
    if (cells table : List (Nat × K)).any fun c => decide (c.2 = 0) then none else some (chi2Contingency F table)
  fOneway samples := some (((finiteSamples samples).map (fOneway F)).getD (.nan, .nan))
  constantRaises := constantRaises

end Statistics
