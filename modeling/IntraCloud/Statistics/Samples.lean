import Mathlib.Algebra.BigOperators.Group.List.Basic
import Mathlib.Algebra.Field.Rat
import Mathlib.Algebra.Order.Field.Basic
import Mathlib.Algebra.Order.Ring.Rat
import Mathlib.Data.List.Sort

/-!
# Statistics of samples

What `numpy` and `scipy.stats` compute of lists of numbers, in the arithmetic of an ordered field. A square root and
the distribution functions of the tests are arguments.
-/

namespace Statistics

/-- Exact arithmetic. -/
class Arithmetic (K : Type) extends Field K, LinearOrder K, IsStrictOrderedRing K

instance : Arithmetic ℚ where
  __ := (inferInstance : Field ℚ)
  __ := (inferInstance : LinearOrder ℚ)
  __ := (inferInstance : IsStrictOrderedRing ℚ)

variable {K : Type} [Arithmetic K]

/-! ## Doubles -/

/-- A double, but for the rounding. -/
inductive Double (K : Type) where
  | finite (x : K)
  | infinite (negative : Bool)
  | nan
  deriving DecidableEq, Repr

/-- The double is a number. -/
def Double.Defined : Double K → Prop
  | .finite _ => True
  | _ => False

/-- `x / y` of doubles. -/
def divide (x y : K) : Double K :=
  if y = 0 then if x = 0 then .nan else .infinite (decide (x < 0)) else .finite (x / y)

/-- `-x`. -/
def Double.neg : Double K → Double K
  | .finite x => .finite (-x)
  | .infinite negative => .infinite (!negative)
  | .nan => .nan

/-- `x + y`. -/
def Double.add : Double K → Double K → Double K
  | .finite x, .finite y => .finite (x + y)
  | .infinite negative, .finite _ | .finite _, .infinite negative => .infinite negative
  | .infinite negative, .infinite negative' => if negative = negative' then .infinite negative else .nan
  | _, _ => .nan

/-- `x - y`. -/
def Double.sub (x y : Double K) : Double K := x.add y.neg

/-- `c * x` for a number above zero. -/
def Double.scale (c : K) : Double K → Double K
  | .finite x => .finite (c * x)
  | x => x

/-- `x / y`. -/
def Double.div : Double K → Double K → Double K
  | .finite x, .finite y => divide x y
  | .finite _, .infinite _ => .finite 0
  | .infinite negative, .finite y => .infinite (negative != decide (y < 0))
  | _, _ => .nan

/-- `value**2`. -/
def Double.square : Double K → Double K
  | .finite x => .finite (x * x)
  | .infinite _ => .infinite false
  | .nan => .nan

/-- `x * 100`. -/
def Double.percent : Double K → Double K := Double.scale 100

/-- `x < y`. -/
def Double.lt : Double K → Double K → Bool
  | .finite x, .finite y => decide (x < y)
  | .finite _, .infinite negative => !negative
  | .infinite negative, .finite _ => negative
  | .infinite negative, .infinite negative' => negative && !negative'
  | _, _ => false

/-- All values are numbers. -/
def AllDefined (xs : List (Double K)) : Prop := ∀ x ∈ xs, x.Defined

/-- The values are numbers, and not all of them the same one. -/
def Varies (xs : List (Double K)) : Prop := AllDefined xs ∧ ∃ x ∈ xs, ∃ y ∈ xs, x ≠ y

/-- The values have ranks: each is a number or infinite. -/
def Ranked (xs : List (Double K)) : Prop := ∀ x ∈ xs, x ≠ .nan

/-- The values have ranks, and are not all the same. -/
def RanksVary (xs : List (Double K)) : Prop := Ranked xs ∧ ∃ x ∈ xs, ∃ y ∈ xs, x ≠ y

/-- All values are the same, which is a number or infinite. -/
def Constant (xs : List (Double K)) : Prop := Ranked xs ∧ ∀ x ∈ xs, ∀ y ∈ xs, x = y

/-- The place of a value that has a rank among the numbers and the two infinities. -/
def Double.place : Double K → WithBot (WithTop K)
  | .finite x => ((x : WithTop K) : WithBot (WithTop K))
  | .infinite true => ⊥
  | .infinite false => ((⊤ : WithTop K) : WithBot (WithTop K))
  | .nan => ⊥

/-! ## One sample -/

/-- All values are equal. -/
def AllEqual (xs : List K) : Prop := ∀ x ∈ xs, ∀ y ∈ xs, x = y

def mean (xs : List K) : K := xs.sum / xs.length

/-- The sum of the squares of the deviations from the mean. -/
def squares (xs : List K) : K := (xs.map fun x => (x - mean xs) * (x - mean xs)).sum

/-- With one degree of freedom less than values. -/
def variance (xs : List K) : K := squares xs / (xs.length - 1)

def sorted (xs : List K) : List K := xs.insertionSort (· ≤ ·)

/-- The `n`-th value in order. -/
def nth (xs : List K) (n : Nat) : K := (sorted xs)[n]?.getD 0

def minimum (xs : List K) : K := nth xs 0

def maximum (xs : List K) : K := nth xs (xs.length - 1)

def median (xs : List K) : K :=
  if xs.length % 2 = 1 then nth xs (xs.length / 2)
  else (nth xs (xs.length / 2 - 1) + nth xs (xs.length / 2)) / 2

/-- `percentile(xs, p)`: between two values it is interpolated. -/
def percentile (p : K) (xs : List K) : K :=
  let position := (xs.length - 1 : Nat) * p / 100
  -- the whole part of the position
  let index := (List.range (xs.length - 1)).countP fun k => decide (((k + 1 : Nat) : K) ≤ position)
  nth xs index + (nth xs (min (index + 1) (xs.length - 1)) - nth xs index) * (position - index)

/-- Tukey's fences. -/
def fences (xs : List K) : K × K :=
  let q1 := percentile 25 xs
  let q3 := percentile 75 xs
  (q1 - 3 / 2 * (q3 - q1), q3 + 3 / 2 * (q3 - q1))

section Ranks

variable {α : Type} [LinearOrder α]

/-- The rank of a value: equal ones share the mean of theirs. -/
def rank (xs : List α) (x : α) : K := xs.countP (· < x) + (xs.countP (· = x) + 1 : K) / 2

/-- The ranks of the values. -/
def ranks (xs : List α) : List K := xs.map (rank xs)

end Ranks

/-! ## Two samples -/

/-- The sum of the products of the deviations. -/
def products (xs ys : List K) : K := ((xs.zip ys).map fun p => (p.1 - mean xs) * (p.2 - mean ys)).sum

/-- The square root and the distribution functions: p-values of the statistic and the sizes of the samples. -/
structure Functions (K : Type) where
  sqrt : K → K
  pearson : K → Nat → K
  spearman : K → Nat → K
  regression : K → Nat → K
  /-- Of the absolute value of `t`, and the degrees of freedom. -/
  student : K → K → K
  fisher : K → Nat → Nat → K
  chiSquared : K → Nat → K

/-- The p-value of a statistic. -/
def pValue (p : K → K) : Double K → Double K
  | .finite x => .finite (p x)
  | .infinite _ => .finite 0
  | .nan => .nan

/-- `pearsonr`. -/
def pearsonr (F : Functions K) (xs ys : List K) : Double K × Double K :=
  let r := if squares xs = 0 ∨ squares ys = 0 then .nan
    else .finite (products xs ys / (F.sqrt (squares xs) * F.sqrt (squares ys)))
  (r, pValue (F.pearson · xs.length) r)

/-- `spearmanr`. -/
def spearmanr {α : Type} [LinearOrder α] (F : Functions K) (xs ys : List α) : Double K × Double K :=
  let r := (pearsonr F (ranks xs) (ranks ys)).1
  (r, pValue (F.spearman · xs.length) r)

/-- `slope`, `intercept`, `rvalue`, `pvalue` and `stderr` of a line. -/
structure Line (K : Type) where
  slope : Double K
  intercept : Double K
  rvalue : Double K
  pvalue : Double K
  stderr : Double K

/-- What is computed of a number, and of anything else is NaN. -/
def Double.mapFinite (f : K → K) : Double K → Double K
  | .finite x => .finite (f x)
  | _ => .nan

/-- `linregress` of a first sample that is not constant. The coefficient of a constant second one is `0 / 0`, and the
p-value and the error of the slope are computed from it. -/
def linregress (F : Functions K) (xs ys : List K) : Line K :=
  let slope := products xs ys / squares xs
  let r := if squares ys = 0 then .nan else .finite (products xs ys / F.sqrt (squares xs * squares ys))
  ⟨.finite slope, .finite (mean ys - slope * mean xs), r, pValue (F.regression · xs.length) r,
    r.mapFinite fun r => F.sqrt ((1 - r * r) * (squares ys / squares xs) / (xs.length - 2))⟩

/-- The variance of the difference of the means. -/
def squaredError (xs ys : List K) : K := variance xs / xs.length + variance ys / ys.length

/-- The degrees of freedom of `ttest_ind(equal_var=False)`. -/
def freedom (xs ys : List K) : K :=
  let a := variance xs / xs.length
  let b := variance ys / ys.length
  if a + b = 0 then 1 else (a + b) * (a + b) / (a * a / (xs.length - 1) + b * b / (ys.length - 1))

/-- `ttest_ind(equal_var=False)`. -/
def ttestInd (F : Functions K) (xs ys : List K) : Double K × Double K :=
  let t := if squaredError xs ys = 0 then divide (mean xs - mean ys) 0
    else .finite ((mean xs - mean ys) / F.sqrt (squaredError xs ys))
  (t, pValue (fun t => F.student |t| (freedom xs ys)) t)

/-! ## Several samples -/

/-- The sum of squares between the samples. -/
def between (samples : List (List K)) : K :=
  (samples.map fun xs => xs.length * ((mean xs - mean samples.flatten) * (mean xs - mean samples.flatten))).sum

/-- The sum of squares within the samples. -/
def within (samples : List (List K)) : K := (samples.map squares).sum

/-- `f_oneway`. -/
def fOneway (F : Functions K) (samples : List (List K)) : Double K × Double K :=
  let dfBetween := samples.length - 1
  let dfWithin := samples.flatten.length - samples.length
  let f := divide (between samples / dfBetween) (within samples / dfWithin)
  (f, pValue (F.fisher · dfBetween dfWithin) f)

/-! ## Tables of counts -/

def total (table : List (List Nat)) : Nat := table.flatten.sum

/-- The sums of the columns. -/
def columnSums (table : List (List Nat)) : List Nat :=
  (List.range (table.headD []).length).map fun j => (table.map fun row => row[j]?.getD 0).sum

/-- The expected frequencies next to the observed ones. -/
def cells (table : List (List Nat)) : List (Nat × K) :=
  table.flatMap fun row => (row.zip (columnSums table)).map fun c => (c.1, (row.sum * c.2 : K) / total table)

/-- The observed frequency after the correction for continuity. -/
def corrected (observed expected : K) : K :=
  let d := expected - observed
  if d < 0 then observed - min (1 / 2) (-d) else observed + min (1 / 2) d

/-- `chi2_contingency` of a table without an expected frequency of zero: the statistic, the p-value and the degrees
of freedom. -/
def chi2Contingency (F : Functions K) (table : List (List Nat)) : Double K × Double K × Nat :=
  let dof := (table.length - 1) * ((table.headD []).length - 1)
  let expected : List (Nat × K) := cells table
  let term (c : Nat × K) : K :=
    let observed : K := if dof = 1 then corrected (c.1 : K) c.2 else c.1
    (observed - c.2) * (observed - c.2) / c.2
  if dof = 0 then (.finite 0, .finite 1, 0)
  else
    let statistic := (expected.map term).sum
    (.finite statistic, .finite (F.chiSquared statistic dof), dof)

end Statistics
