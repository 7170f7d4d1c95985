import IntraCloud.Analytics.Operations
import IntraCloud.Statistics.Proofs.LibrariesProofs
import Mathlib.Data.List.Nodup

/-!
# What the operations return

One law for each step that the operations share, and for each operation the exact cases in which it returns a result,
with that result.
-/

namespace Analytics

open Databases Python Relational Statistics

variable {ν K : Type}

/-! ## Steps -/

section Steps

variable {α β ε : Type}

theorem bind_eq_ok {x : Except ε α} {f : α → Except ε β} {b : β} :
    (x >>= f) = .ok b ↔ ∃ a, x = .ok a ∧ f a = .ok b := by
  constructor
  · intro h
    cases x with
    | error e => cases h
    | ok a => exact ⟨a, rfl, h⟩
  · rintro ⟨a, rfl, h⟩
    exact h

theorem pure_eq_ok {a b : α} : (pure a : Except ε α) = .ok b ↔ b = a := by
  constructor
  · intro h
    cases h
    rfl
  · rintro rfl
    rfl

theorem orRaise_eq_ok {x : Except OperationError α} {a : α} :
    (orRaise x : Except (Raised ν) α) = .ok a ↔ x = .ok a := by
  cases x with
  | error e => simp [orRaise]
  | ok a' => simp [orRaise]

theorem orValueError_eq_ok {x : Option α} {a : α} :
    (orValueError x : Except (Raised ν) α) = .ok a ↔ x = some a := by
  cases x with
  | none => simp [orValueError]
  | some a' => simp [orValueError]

theorem requireMinN_eq_ok {count minimum : Nat} {label : String} {u : Unit} :
    requireMinN count minimum label = .ok u ↔ minimum ≤ count := by
  unfold requireMinN
  split
  next h => simpa using h
  next h => simpa using h

theorem requireTypes_eq_ok {column : DBColumn} {allowed : List DataType} {u : Unit} :
    requireTypes column allowed = .ok u ↔ column.dataType ∈ allowed := by
  unfold requireTypes
  split
  next h => simpa using h
  next h => simpa using h

theorem requireHashable_eq_ok {E : Environment ν K} {values : List (Option ν)} {u : Unit} :
    requireHashable E values = .ok u ↔ ∀ v, some v ∈ values → E.hashable v = true := by
  have hall : (values.all fun value => value.all E.hashable) = true ↔
      ∀ v, some v ∈ values → E.hashable v = true := by
    rw [List.all_eq_true]
    constructor
    · intro h v hv
      exact h _ hv
    · intro h value hvalue
      cases value with
      | none => rfl
      | some v => exact h v hvalue
  unfold requireHashable
  rw [← hall]
  split
  next h => simpa using h
  next h => simpa using h

end Steps

/-! ## Columns -/

section Columns

variable {E : Environment ν K} {src : Source ν (Double K)} {fetched : List (Row ν)} {column : DBColumn}
  {params name : PyJson}

/-- `table.columns.get(name=name)` finds a column of the table: no two of them share a name. -/
theorem getColumn_of_mem {columns : List DBColumn} (hnames : (columns.map (·.name)).Nodup)
    (hcolumn : column ∈ columns) : getColumn columns column.name = .ok column := by
  unfold getColumn
  cases hfind : columns.find? fun c => c.name == column.name with
  | none =>
    have h := List.find?_eq_none.mp hfind column hcolumn
    simp at h
  | some c =>
    have hname : c.name = column.name := by
      have h := List.find?_some hfind
      simpa using h
    have hc : c = column := List.inj_on_of_nodup_map hnames (List.mem_of_find?_eq_some hfind) hcolumn hname
    rw [hc]

theorem fetch_one (n : String) :
    fetch src fetched [n] = .ok (fetchColumns src.valueType src.cap src.rows fetched [n]) := rfl

theorem fetch_two (n m : String) :
    fetch src fetched [n, m] = .ok (fetchColumns src.valueType src.cap src.rows fetched [n, m]) := rfl

theorem rows_fetchColumns (column column' : DBColumn) :
    (fetchColumns src.valueType src.cap src.rows fetched [column.name, column'.name]).rows =
      rowsOf src fetched column column' := rfl

theorem firsts_fetchColumns {V : ValueType ν} {cap : Nat} {rows : List (Row ν)} {n : String} :
    firsts (fetchColumns V cap rows fetched [n]).rows = fetched.map fun r => r.value V n := by
  simp [firsts, fetchColumns]

theorem series_eq_ok {values : List (Double K)} {truncated : Bool} :
    series src fetched name = .ok (values, truncated) ↔
      ∃ column, columnOf src.columns name = (.ok column : Except (Raised ν) DBColumn) ∧
        column.dataType ∈ NUMERIC_TYPES ∧ values = numbersOf src fetched column ∧ truncated = isTruncated src := by
  cases name with
  | str s =>
    simp only [series, columnOf, numericSeries]
    cases getColumn src.columns (String.ofList s) with
    | error e => simp [orRaise, Except.map]
    | ok column =>
      unfold requireTypes
      by_cases hnumeric : column.dataType ∈ NUMERIC_TYPES
      · simp [hnumeric, orRaise, Except.map, fetchColumns, numbersOf, valuesOf, isTruncated, List.filterMap_map,
          List.map_filterMap, Function.comp_def, eq_comm]
      · simp [hnumeric, orRaise, Except.map]
  | _ => simp [series, columnOf]

end Columns

/-! ## Operations on one column -/

section One

variable {E : Environment ν K} {src : Source ν (Double K)} {q : Answers ν} {params : PyJson} {result : Result ν K}

theorem opDistinctCount_eq_ok : opDistinctCount E src q params = .ok result ↔
    ∃ name column, Names src params "column" name column ∧
      (∀ v, some v ∈ valuesOf src (q 0) column → E.hashable v = true) ∧
      result = [("operation", .text "distinct_count"), ("column", .text column.name),
        ("distinct_count", .count (distinct (sameOption E.same) (valuesOf src (q 0) column)).length),
        ("truncated", .flag (isTruncated src))] := by
  simp only [opDistinctCount, bind_eq_ok, pure_eq_ok, fetch_one, requireHashable_eq_ok, Names, Except.ok.injEq,
    exists_eq_left', firsts_fetchColumns]
  simp [valuesOf, isTruncated, fetchColumns, and_assoc]

theorem opFrequencyDistribution_eq_ok : opFrequencyDistribution E src q params = .ok result ↔
    ∃ name column topN, Names src params "column" name column ∧
      column.dataType ∈ CATEGORICAL_TYPES ++ NUMERIC_TYPES ∧ IsParam E params "top_n" 10 topN ∧
      result = [("operation", .text "frequency_distribution"), ("column", .text column.name),
        ("distribution", .distribution (mostCommon (min topN 100).toNat
          (counter E.same ((valuesOf src (q 0) column).filterMap id)))),
        ("distinct_values_total", .count (counter E.same ((valuesOf src (q 0) column).filterMap id)).length),
        ("truncated", .flag (isTruncated src))] := by
  simp only [opFrequencyDistribution, bind_eq_ok, pure_eq_ok, fetch_one, orRaise_eq_ok, requireTypes_eq_ok,
    Except.ok.injEq, exists_eq_left', firsts_fetchColumns]
  constructor
  · rintro ⟨name, hname, column, hcolumn, _, htypes, value, hvalue, topN, htopN, hresult⟩
    exact ⟨name, column, topN, ⟨hname, hcolumn⟩, htypes, ⟨value, hvalue, htopN⟩, hresult⟩
  · rintro ⟨name, column, topN, ⟨hname, hcolumn⟩, htypes, ⟨value, hvalue, htopN⟩, hresult⟩
    exact ⟨name, hname, column, hcolumn, (), htypes, value, hvalue, topN, htopN, hresult⟩

theorem descriptiveNumeric_eq_ok {opName label : String} {minimum : Nat}
    {reducer : Environment ν K → List (Double K) → Double K} :
    descriptiveNumeric opName label minimum reducer E src q params = .ok result ↔
      ∃ name column, Names src params "column" name column ∧ column.dataType ∈ NUMERIC_TYPES ∧
        minimum ≤ (numbersOf src (q 0) column).length ∧
        result = [("operation", .text opName), ("column", .text (nameOf name)),
          ("value", .number (reducer E (numbersOf src (q 0) column))),
          ("sample_size", .count (numbersOf src (q 0) column).length), ("truncated", .flag (isTruncated src))] := by
  simp only [descriptiveNumeric, bind_eq_ok, pure_eq_ok, series_eq_ok, orRaise_eq_ok, requireMinN_eq_ok, Prod.exists]
  constructor
  · rintro ⟨name, hname, _, _, ⟨column, hcolumn, hnumeric, rfl, rfl⟩, _, hmin, hresult⟩
    exact ⟨name, column, ⟨hname, hcolumn⟩, hnumeric, hmin, hresult⟩
  · rintro ⟨name, column, ⟨hname, hcolumn⟩, hnumeric, hmin, hresult⟩
    exact ⟨name, hname, _, _, ⟨column, hcolumn, hnumeric, rfl, rfl⟩, (), hmin, hresult⟩

variable [Arithmetic K]

theorem opMissing_eq_ok : opMissing E src q params = .ok result ↔
    ∃ name column, Names src params "column" name column ∧
      result = [("operation", .text "missing"), ("column", .text column.name),
        ("missing_count", .count ((valuesOf src (q 0) column).countP Option.isNone)),
        ("null_percentage", .number (.finite
          (nullPercentage E ((valuesOf src (q 0) column).countP Option.isNone) (q 0).length))),
        ("truncated", .flag (isTruncated src))] := by
  simp only [opMissing, bind_eq_ok, pure_eq_ok, fetch_one, Names, Except.ok.injEq, exists_eq_left',
    firsts_fetchColumns]
  simp [valuesOf, isTruncated, fetchColumns, and_assoc]

theorem opOutlierDetection_eq_ok (h : opOutlierDetection E src q params = .ok result) :
    ∃ name column, Names src params "column" name column ∧ column.dataType ∈ NUMERIC_TYPES ∧
      4 ≤ (numbersOf src (q 0) column).length ∧
      result.lookup "outlier_count" = some (.count (outliers E (numbersOf src (q 0) column)).length) := by
  simp only [opOutlierDetection, bind_eq_ok, pure_eq_ok, series_eq_ok, orRaise_eq_ok, requireMinN_eq_ok, Prod.exists]
    at h
  obtain ⟨name, hname, values, truncated, ⟨column, hcolumn, hnumeric, rfl, rfl⟩, _, hmin, rfl⟩ := h
  refine ⟨name, column, ⟨hname, hcolumn⟩, hnumeric, hmin, ?_⟩
  simp [List.lookup_cons]

end One

/-! ## Numbers and texts -/

/-- A square root of small squares, and no distributions. -/
def plainFunctions : Functions ℚ where
  sqrt x := if x = 4 then 2 else x
  pearson _ _ := 0
  spearman _ _ := 0
  regression _ _ := 0
  student _ _ := 0
  fisher _ _ _ := 0
  chiSquared _ _ := 0

/-- Whole numbers and texts. -/
def plainEnvironment : Environment (Int ⊕ String) ℚ where
  toLibraries := exactLibraries plainFunctions false
  same a b := decide (a = b)
  before a b := Sum.elim (fun m => Sum.elim (fun n => decide (m ≤ n)) (fun _ => true) b)
    (fun s => Sum.elim (fun _ => false) (fun t => decide (s ≤ t)) b) a
  hashable _ := true
  literal _ := 0
  truncate _ := some 0
  floatText := id
  round := id

theorem documented_plain : Documented plainEnvironment.toLibraries plainFunctions :=
  documented_exact fun x hx => by
    show (if x = 4 then (2 : ℚ) else x) ≠ 0
    split
    · exact two_ne_zero
    · exact hx.ne'

/-- A table with these columns and rows. -/
def plainSource (columns : List DBColumn) (rows : List (Row (Int ⊕ String))) : Source (Int ⊕ String) (Double ℚ) where
  valueType := ⟨fun n => .inl n, fun a b => decide (a = b), Sum.elim (fun n => (toString n).toList) String.toList⟩
  cap := 200000
  columns := columns
  rows := rows
  float := Sum.elim (fun n => .finite n) fun _ => .nan

end Analytics
