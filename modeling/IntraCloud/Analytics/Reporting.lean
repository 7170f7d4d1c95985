import IntraCloud.Analytics.Operations
import IntraCloud.Relational.Pairing

/-!
# What the statistical operations report

A statistic of a sample whose variance is zero is not a number. The operations ask for a minimum size of the samples,
and for nothing else.
-/

namespace Analytics

open Databases Python Relational Statistics

variable {ν K : Type} [Arithmetic K]

/-! ## Defined results -/

/-- All numbers of the value are. -/
def Datum.Defined : Datum ν K → Prop
  | .field (.number x) => x.Defined
  | .numbers xs => ∀ x ∈ xs, x.Defined
  | .keyed items => ∀ item ∈ items, item.2.Defined
  | .points items => ∀ item ∈ items, item.2.Defined
  | _ => True

/-- The operation raises what is caught, or returns numbers that are defined. -/
def ReportsDefined (E : Environment ν K) (src : Source ν (Double K)) (q : Answers ν) (params : PyJson)
    (op : Operation ν K) : Prop :=
  (∀ e, op E src q params = .error e → e.caught = true) ∧
    ∀ result, op E src q params = .ok result → ∀ member ∈ result, member.2.Defined

/-! ## Samples -/

/-- A numeric column under the key. -/
def NamesNumeric (src : Source ν (Double K)) (params : PyJson) (key : String) (column : DBColumn) : Prop :=
  ∃ name, Names src params key name column ∧ column.dataType ∈ NUMERIC_TYPES

/-- A categorical column under the key. -/
def NamesCategorical (src : Source ν (Double K)) (params : PyJson) (key : String) (column : DBColumn) : Prop :=
  ∃ name, Names src params key name column ∧ column.dataType ∈ CATEGORICAL_TYPES

/-- The first numbers of two columns, as many as both have. -/
def PairedSamples (src : Source ν (Double K)) (q : Answers ν) (params : PyJson) (xs ys : List (Double K)) : Prop :=
  ∃ columnX columnY, NamesNumeric src params "column_x" columnX ∧ NamesNumeric src params "column_y" columnY ∧
    let n := min (numbersOf src (q 0) columnX).length (numbersOf src (q 1) columnY).length
    3 ≤ n ∧ xs = (numbersOf src (q 0) columnX).take n ∧ ys = (numbersOf src (q 1) columnY).take n

/-- The numbers of two columns, or of the two groups of one, at least two of each. -/
def TTestSamples (E : Environment ν K) (src : Source ν (Double K)) (q : Answers ν) (params : PyJson)
    (a b : List (Double K)) : Prop :=
  2 ≤ a.length ∧ 2 ≤ b.length ∧ ∃ column nameB, NamesNumeric src params "column" column ∧
    (getParam params "column_b" .null : Except (Raised ν) PyJson) = .ok nameB ∧
      if truthy E nameB then
        ∃ columnB, (columnOf src.columns nameB : Except (Raised ν) DBColumn) = .ok columnB ∧
          columnB.dataType ∈ NUMERIC_TYPES ∧ a = numbersOf src (q 0) column ∧ b = numbersOf src (q 1) columnB
      else
        ∃ group labelA labelB, NamesCategorical src params "group_column" group ∧
          groupsOf E src (rowsOf src (q 1) column group) = [(labelA, a), (labelB, b)]

/-- The groups of `op_anova`, at least two, of at least two numbers each. -/
def AnovaSamples (E : Environment ν K) (src : Source ν (Double K)) (q : Answers ν) (params : PyJson)
    (samples : List (ν × List (Double K))) : Prop :=
  2 ≤ samples.length ∧ (∀ sample ∈ samples, 2 ≤ sample.2.length) ∧
    ∃ column group, NamesNumeric src params "column" column ∧ NamesCategorical src params "group_column" group ∧
      samples = groupsOf E src (rowsOf src (q 0) column group)

/-- `==` of two categories: what the rows hold in a column of texts or booleans is the same as itself. -/
def SameCategories (E : Environment ν K) (src : Source ν (Double K)) (rows : List (Row ν)) : Prop :=
  ∀ column ∈ src.columns, column.dataType ∈ CATEGORICAL_TYPES → ∀ r ∈ rows, ∀ v,
    r.value src.valueType column.name = some v → E.same v v = true

/-- The columns of `op_time_series_summary`. -/
def SeriesColumns (src : Source ν (Double K)) (params : PyJson) (date value : DBColumn) : Prop :=
  (∃ name, Names src params "date_column" name date ∧ date.dataType ∈ TEMPORAL_TYPES) ∧
    NamesNumeric src params "value_column" value

/-- The values of a time series of at least two points, for a window that there is. -/
def SeriesValues (E : Environment ν K) (src : Source ν (Double K)) (q : Answers ν) (params : PyJson)
    (values : List (Double K)) : Prop :=
  ∃ date value window, SeriesColumns src params date value ∧ IsParam E params "window" 7 window ∧ 0 < window ∧
    values = (pairsOf (rowsOf src (q 0) date value)).map (fun p => src.float p.2) ∧ 2 ≤ values.length

/-! ## The operations -/

/-- A statistical operation, and what it needs for its result to be defined. -/
structure StatisticalOperation (ν K : Type) where
  name : String
  operation : Operation ν K
  Determined : Environment ν K → Source ν (Double K) → Answers ν → PyJson → Prop

/-- The statistical operations of the registry. -/
def STATISTICAL : List (StatisticalOperation ν K) :=
  [⟨"pearson_correlation", paired opPearsonCorrelation,
      fun _ src q params => ∀ xs ys, PairedSamples src q params xs ys → Varies xs ∧ Varies ys⟩,
    ⟨"spearman_correlation", paired opSpearmanCorrelation,
      fun _ src q params => ∀ xs ys, PairedSamples src q params xs ys → RanksVary xs ∧ RanksVary ys⟩,
    ⟨"linear_regression", paired opLinearRegression,
      fun E src q params => ∀ xs ys, PairedSamples src q params xs ys →
        E.constantRaises = true ∧ Constant xs ∨ Varies xs ∧ Varies ys⟩,
    ⟨"t_test", opTTest,
      fun E src q params => ∀ a b, TTestSamples E src q params a b →
        AllDefined a ∧ AllDefined b ∧ (Varies a ∨ Varies b)⟩,
    ⟨"chi_square", opChiSquare, fun _ _ _ _ => True⟩,
    ⟨"anova", opAnova,
      fun E src q params => ∀ samples, AnovaSamples E src q params samples →
        (∀ sample ∈ samples, AllDefined sample.2) ∧ ∃ sample ∈ samples, Varies sample.2⟩,
    ⟨"time_series_summary", opTimeSeriesSummary,
      fun E src q params =>
        (∀ date value, SeriesColumns src params date value →
          ∀ literal, params.field "window" = some (.float literal) → (E.truncate literal).isSome = true) ∧
        ∀ values, SeriesValues E src q params values → AllDefined values⟩]

/-! ## The order of rows

The queries of the operations have no `ORDER BY`, and an operation on two columns asks twice. Some operations list what
they meet first, or pair what the two queries return. -/

/-- The operation does the same whatever order its queries return the rows in. -/
def OrderFree (E : Environment ν K) (src : Source ν (Double K)) (params : PyJson) (op : Operation ν K) : Prop :=
  ∀ q q' : Answers ν, (∀ k, Fetches src.cap src.rows (q k)) → (∀ k, Fetches src.cap src.rows (q' k)) →
    op E src q params = op E src q' params

/-- Arithmetic is exact: `float()` of what a numeric column holds is a number, `==` is equality, and `<=` an
order. -/
structure Exact (E : Environment ν K) (src : Source ν (Double K)) : Prop where
  numbers : ∀ column ∈ src.columns, column.dataType ∈ NUMERIC_TYPES → ∀ r ∈ src.rows, ∀ v,
    r.value src.valueType column.name = some v → (src.float v).Defined
  same : ∀ a b, E.same a b = true ↔ a = b
  trans : ∀ a b c, E.before a b = true → E.before b c = true → E.before a c = true
  total : ∀ a b, (E.before a b || E.before b a) = true
  antisymm : ∀ a b, E.before a b = true → E.before b a = true → a = b

/-! ### What the rows must be like -/

/-- The values of the column that are there. -/
def presentOf (src : Source ν (Double K)) (column : DBColumn) : List ν := (valuesOf src src.rows column).filterMap id

/-- How often the value is there. -/
def occurrences (E : Environment ν K) (values : List ν) (v : ν) : Nat := values.countP (E.same v)

/-- No two values are equally common, but for those that `n` others are more common than. -/
def RankedApart (E : Environment ν K) (n : Nat) (values : List ν) : Prop :=
  ∀ a ∈ values, ∀ b ∈ values, occurrences E values a = occurrences E values b → a ≠ b →
    n ≤ (distinct E.same values).countP fun v => decide (occurrences E values a < occurrences E values v)

/-- For `op_frequency_distribution`. -/
def ListedApart (E : Environment ν K) (src : Source ν (Double K)) (params : PyJson) : Prop :=
  ∀ name column topN, Names src params "column" name column → column.dataType ∈ CATEGORICAL_TYPES ++ NUMERIC_TYPES →
    IsParam E params "top_n" 10 topN → RankedApart E (min topN 100).toNat (presentOf src column)

/-- For `op_outlier_detection`. -/
def OutliersAlike (E : Environment ν K) (src : Source ν (Double K)) (params : PyJson) : Prop :=
  ∀ column, NamesNumeric src params "column" column → 4 ≤ (numbersOf src src.rows column).length →
    AllEqual (outliers E (numbersOf src src.rows column))

/-- For the coefficients of correlation. -/
def OneIsConstant (src : Source ν (Double K)) (params : PyJson) : Prop :=
  ∀ columnX columnY, NamesNumeric src params "column_x" columnX → NamesNumeric src params "column_y" columnY →
    3 ≤ min (numbersOf src src.rows columnX).length (numbersOf src src.rows columnY).length →
      AllEqual (numbersOf src src.rows columnX) ∨ AllEqual (numbersOf src src.rows columnY)

/-- No number makes up a sample of this size. -/
def NeverAlike (n : Nat) (xs : List (Double K)) : Prop := ∀ x ∈ xs, xs.count x < n

/-- For `op_linear_regression`. -/
def LineIsFixed (src : Source ν (Double K)) (params : PyJson) : Prop :=
  ∀ columnX columnY, NamesNumeric src params "column_x" columnX → NamesNumeric src params "column_y" columnY →
    let xs := numbersOf src src.rows columnX
    let ys := numbersOf src src.rows columnY
    let n := min xs.length ys.length
    3 ≤ n → AllEqual xs ∨ AllEqual ys ∧ NeverAlike n xs

/-- For `op_t_test` with a `group_column`. -/
def GroupsAlike (E : Environment ν K) (src : Source ν (Double K)) (params : PyJson) : Prop :=
  ∀ column nameB group, NamesNumeric src params "column" column →
    (getParam params "column_b" .null : Except (Raised ν) PyJson) = .ok nameB → truthy E nameB = false →
      NamesCategorical src params "group_column" group →
        ∀ a b, groupsOf E src (rowsOf src src.rows column group) = [a, b] →
          a.2.length = b.2.length ∧ (a.2.length = 1 ∨ E.mean a.2 = E.mean b.2)

/-- For `op_anova`. -/
def OneSmallGroup (E : Environment ν K) (src : Source ν (Double K)) (params : PyJson) : Prop :=
  ∀ column group, NamesNumeric src params "column" column → NamesCategorical src params "group_column" group →
    let groups := groupsOf E src (rowsOf src src.rows column group)
    2 ≤ groups.length → (groups.countP fun g => decide (g.2.length < 2)) = 1

/-- For `op_time_series_summary`. -/
def DatesDetermine (E : Environment ν K) (src : Source ν (Double K)) (params : PyJson) : Prop :=
  ∀ date value window, SeriesColumns src params date value → IsParam E params "window" 7 window → 0 < window →
    let pairs := pairsOf (rowsOf src src.rows date value)
    2 ≤ pairs.length → ∀ p ∈ pairs, ∀ p' ∈ pairs, p.1 = p'.1 → src.float p.2 = src.float p'.2

/-- A condition on the arithmetic, the table and the parameters. -/
abbrev Condition (ν K : Type) := Environment ν K → Source ν (Double K) → PyJson → Prop

/-- What the operations need that are not free of the order in every case. -/
def CONDITIONS : List (String × Condition ν K) :=
  [("frequency_distribution", ListedApart), ("outlier_detection", OutliersAlike),
    ("pearson_correlation", fun _ => OneIsConstant), ("spearman_correlation", fun _ => OneIsConstant),
    ("linear_regression", fun _ => LineIsFixed), ("t_test", GroupsAlike), ("anova", OneSmallGroup),
    ("time_series_summary", DatesDetermine)]

/-- What the operation of this name needs, if anything. -/
def Settled (name : String) (E : Environment ν K) (src : Source ν (Double K)) (params : PyJson) : Prop :=
  ∀ condition, CONDITIONS.lookup name = some condition → condition E src params

end Analytics
