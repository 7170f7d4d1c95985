import IntraCloud.Analytics.Operations
import IntraCloud.Databases.Services
import IntraCloud.Relational.Pairing

/-!
# The profile of a table

`analytics/profiling.py`: the figures of every column from one query, next to the operations that report them one by
one.
-/

namespace Analytics

open Databases Python Relational Statistics

variable {ν K : Type} [Arithmetic K]

/-! ## Figures -/

/-- `q1` and `q3`: those of a single value are the value. -/
def quartiles (E : Environment ν K) (arr : List (Double K)) : Double K × Double K :=
  if 2 ≤ arr.length then (E.percentile arr (25 : Nat), E.percentile arr (75 : Nat))
  else (arr.headD .nan, arr.headD .nan)

/-- `np.sum((arr < q1 - 1.5 * iqr) | (arr > q3 + 1.5 * iqr)) if len(arr) >= 4 else 0`. -/
def potentialOutlierCount (E : Environment ν K) (arr : List (Double K)) : Nat :=
  let (q1, q3) := quartiles E arr
  let iqr := q3.sub q1
  if 4 ≤ arr.length then
    arr.countP fun x => x.lt (q1.sub (iqr.scale ((3 : Nat) / (2 : Nat)))) ||
      (q3.add (iqr.scale ((3 : Nat) / (2 : Nat)))).lt x
  else 0

/-- The figures of a numeric column that has values. -/
def numericFigures (E : Environment ν K) (arr : List (Double K)) : Result ν K :=
  [("min", .number (E.min arr)), ("max", .number (E.max arr)), ("mean", .number (E.mean arr)),
    ("median", .number (E.median arr)), ("stdev", .number (if 2 ≤ arr.length then E.std arr else .finite 0)),
    ("potential_outlier_count", .count (potentialOutlierCount E arr))]

/-- The profile of a column with these values. -/
def columnProfile (E : Environment ν K) (src : Source ν (Double K)) (column : DBColumn) (values : List (Option ν)) :
    Except (Raised ν) (Result ν K) := do
  let total := values.length
  let nonNull := values.filterMap id
  let missing := total - nonNull.length
  requireHashable E (nonNull.map some)
  let figures : Result ν K :=
    if column.dataType ∈ NUMERIC_TYPES ∧ nonNull ≠ [] then numericFigures E (nonNull.map src.float)
    else if column.dataType ∈ CATEGORICAL_TYPES ∧ nonNull ≠ [] then
      [("top_values", .distribution (mostCommon 5 (counter E.same nonNull)))]
    else []
  return [("name", .text column.name), ("data_type", .text column.dataType.value), ("missing_count", .count missing),
    ("null_percentage", .number (.finite (nullPercentage E missing total))),
    ("unique_count", .count (distinct E.same nonNull).length)] ++ figures

/-- What `profile_table` returns. -/
structure Profile (ν K : Type) where
  table : String
  rowCount : Nat
  columnCount : Nat
  truncated : Bool
  sampledRows : Nat
  columns : List (Result ν K)

/-- `[row[i] for row in rows]`. -/
def columnAt (rows : List (List (Option ν))) (i : Nat) : List (Option ν) := rows.map fun row => (row[i]?).join

/-- `profile_table` of the table with this name, where its query returns `fetched`. -/
def profileTable (E : Environment ν K) (src : Source ν (Double K)) (table : String) (fetched : List (Row ν)) :
    Except (Raised ν) (Profile ν K) := do
  let fetchedColumns ← fetch src fetched (src.columns.map (·.name))
  let rows := fetchedColumns.rows
  let columnProfiles ← src.columns.zipIdx.mapM fun p => columnProfile E src p.1 (columnAt rows p.2)
  return ⟨table, fetchedColumns.totalRows, src.columns.length, fetchedColumns.truncated, rows.length, columnProfiles⟩

/-! ## Agreement with the operations -/

/-- A figure of a profile, and the operation that reports it under a key of its own. -/
structure Figure (ν K : Type) where
  name : String
  operation : Operation ν K
  key : String

def FIGURES : List (Figure ν K) :=
  [⟨"missing_count", opMissing, "missing_count"⟩, ⟨"null_percentage", opMissing, "null_percentage"⟩,
    ⟨"unique_count", opDistinctCount, "distinct_count"⟩, ⟨"min", opMin, "value"⟩, ⟨"max", opMax, "value"⟩,
    ⟨"mean", opMean, "value"⟩, ⟨"median", opMedian, "value"⟩, ⟨"stdev", opStdev, "value"⟩,
    ⟨"potential_outlier_count", opOutlierDetection, "outlier_count"⟩]

/-- The parameters ask for this column. -/
def AsksFor (params : PyJson) (column : DBColumn) : Prop :=
  params.field "column" = some (.str column.name.toList) ∧ ∃ members, params = .dict members

/-- Where an operation on the column reports a figure of the profile, it is the one of the profile; the most common
values are the first ones of any frequency distribution that is long enough to have them. -/
structure Agrees (E : Environment ν K) (src : Source ν (Double K)) (fetched : List (Row ν)) (column : DBColumn)
    (profile : Result ν K) : Prop where
  figures : ∀ figure ∈ FIGURES, ∀ params, AsksFor params column → ∀ result,
    figure.operation E src (fun _ => fetched) params = .ok result →
      profile.lookup figure.name = result.lookup figure.key
  topValues : ∀ values, profile.lookup "top_values" = some values → ∀ params, AsksFor params column →
    ∀ topN : Int, (getParam params "top_n" (.int 10) >>= toInt E : Except (Raised ν) Int) = .ok topN → 5 ≤ topN →
      ∀ result, opFrequencyDistribution E src (fun _ => fetched) params = .ok result →
        ∃ items, result.lookup "distribution" = some (.distribution items) ∧ values = .distribution (items.take 5)

/-! ## Operations that are asked for one column

Each of them asks a query of its own, and gets the rows in an order of its own. -/

/-- The operation returns this result for the column. -/
def Returns (E : Environment ν K) (src : Source ν (Double K)) (column : DBColumn) (op : Operation ν K)
    (params : PyJson) (result : Result ν K) : Prop :=
  AsksFor params column ∧ ∃ q : Answers ν, (∀ k, Fetches src.cap src.rows (q k)) ∧ op E src q params = .ok result

/-- The operation reports this under the key. -/
def Reports (E : Environment ν K) (src : Source ν (Double K)) (column : DBColumn) (op : Operation ν K) (key : String)
    (d : Datum ν K) : Prop :=
  ∃ params result, Returns E src column op params result ∧ result.lookup key = some d

/-- What `op_percentiles` lists are the points of the curve that it was asked for. -/
def OnCurve (E : Environment ν K) (curve : K → K) (items : List PyJson) (entries : List (List Char × Double K)) :
    Prop :=
  (∀ entry ∈ entries, ∃ item ∈ items, ∃ p, percentile? E item = some (entry.1, p) ∧ entry.2 = .finite (curve p)) ∧
    ∀ item ∈ items, ∃ text p, percentile? E item = some (text, p) ∧ ∃ d, (text, d) ∈ entries

/-- What `op_outlier_detection` reports of a column with this curve. -/
structure BeyondFences (curve : K → K) (result : Result ν K) (low high : K) (count size : Nat) (sample : List K) :
    Prop where
  lowerBound : result.lookup "lower_bound" = some (.number (.finite low))
  upperBound : result.lookup "upper_bound" = some (.number (.finite high))
  outlierCount : result.lookup "outlier_count" = some (.count count)
  sampleSize : result.lookup "sample_size" = some (.count size)
  outlierSample : result.lookup "outlier_sample" = some (.numbers (sample.map .finite))
  low_eq : low = curve 25 - 3 / 2 * (curve 75 - curve 25)
  high_eq : high = curve 75 + 3 / 2 * (curve 75 - curve 25)
  median : low ≤ curve 50 ∧ curve 50 ≤ high
  atMostHalf : 2 * count ≤ size
  listed : sample.length = min count 50
  beyond : ∀ x ∈ sample, curve 0 ≤ x ∧ x ≤ curve 100 ∧ (x < low ∨ high < x)

/-- The curve of the percentiles of the column, and the figures of the column read off it. -/
structure Quantiles (F : Functions K) (E : Environment ν K) (src : Source ν (Double K)) (column : DBColumn)
    (curve : K → K) : Prop where
  mono : ∀ p p' : K, 0 ≤ p → p ≤ p' → p' ≤ 100 → curve p ≤ curve p'
  min : ∀ d, Reports E src column opMin "value" d → d = .number (.finite (curve 0))
  median : ∀ d, Reports E src column opMedian "value" d → d = .number (.finite (curve 50))
  max : ∀ d, Reports E src column opMax "value" d → d = .number (.finite (curve 100))
  mean : ∀ d, Reports E src column opMean "value" d →
    ∃ x, d = .number (.finite x) ∧ curve 0 ≤ x ∧ x ≤ curve 100 ∧ ∀ total size,
      Reports E src column opSum "value" total → Reports E src column opSum "sample_size" (.count size) →
        total = .number (.finite (x * size))
  variance : ∀ d, Reports E src column opVariance "value" d →
    ∃ x, d = .number (.finite x) ∧ 0 ≤ x ∧ (x = 0 ↔ curve 0 = curve 100) ∧
      ∀ root, Reports E src column opStdev "value" root → root = .number (.finite (F.sqrt x))
  percentiles : ∀ params result, Returns E src column opPercentiles params result →
    ∃ items entries, (getParam params "percentiles" (.list [.int 25, .int 50, .int 75]) : Except (Raised ν) PyJson) =
      .ok (.list items) ∧ result.lookup "percentiles" = some (.keyed entries) ∧ OnCurve E curve items entries
  outliers : ∀ params result, Returns E src column opOutlierDetection params result →
    ∃ low high count size sample, BeyondFences curve result low high count size sample

end Analytics
