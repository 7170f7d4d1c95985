import IntraCloud.Analytics.Paired
import IntraCloud.Databases.Values
import IntraCloud.Python.JsonValue
import IntraCloud.Relational.Grouping
import IntraCloud.Statistics.Libraries

/-!
# The registry of operations

`analytics/operations.py`. An operation gets what each of its queries returns, in some order, and parameters that
are any JSON value. The functions of `numpy` and `scipy.stats` are arguments.
-/

namespace Analytics

open Databases Python Relational Statistics

variable {ν K : Type} [Arithmetic K]

/-- What an operation uses of Python and its libraries. -/
structure Environment (ν K : Type) extends Libraries K where
  /-- `==` of two values of a column. -/
  same : ν → ν → Bool
  /-- `<=` of two values of a column. -/
  before : ν → ν → Bool
  /-- A value that a set takes: a JSON object or array is none. -/
  hashable : ν → Bool
  /-- The value of a `float`. -/
  literal : List Char → K
  /-- `int` of a `float`; nothing where it raises `OverflowError`. -/
  truncate : List Char → Option Int
  /-- `str` of a `float`. -/
  floatText : List Char → List Char
  /-- `round(value, 2)`. -/
  round : K → K

/-! ## Exceptions -/

/-- What an operation raises. -/
inductive Raised (ν : Type) where
  | invalid (e : OperationError)
  /-- "unknown column" -/
  | unknownColumn (name : PyJson)
  /-- "a two-sample t-test needs exactly 2" -/
  | notTwoGroups (name : String) (count : Nat)
  /-- "needs at least 2 distinct values" -/
  | fewGroups (name : String)
  /-- "group … has … non-null values; at least 2 are needed for this operation" -/
  | smallGroup (label : ν) (count : Nat)
  /-- "percentiles must be numbers between 0 and 100" -/
  | badPercentiles
  | keyError (key : String)
  | typeError
  | valueError
  | attributeError
  | overflowError
  | databaseError

/-- `AnalyticsValidationError`, and what `run_analysis` turns into it. -/
def Raised.caught : Raised ν → Bool
  | .attributeError | .overflowError | .databaseError => false
  | _ => true

/-- The errors of the functions of one column. -/
def orRaise {α : Type} : Except OperationError α → Except (Raised ν) α
  | .ok a => .ok a
  | .error e => .error (.invalid e)

/-- The result of a function of `scipy.stats`. -/
def orValueError {α : Type} : Option α → Except (Raised ν) α
  | some a => .ok a
  | none => .error .valueError

/-! ## Parameters -/

/-- `bool(value)`. -/
def truthy (E : Environment ν K) : PyJson → Bool
  | .null => false
  | .bool b => b
  | .int n => n != 0
  | .float literal => decide (E.literal literal ≠ 0)
  | .str s => !s.isEmpty
  | .list items => !items.isEmpty
  | .dict members => !members.isEmpty

/-- `params[key]`. -/
def subscript (params : PyJson) (key : String) : Except (Raised ν) PyJson :=
  match params with
  | .dict _ =>
    match params.field key with
    | some value => .ok value
    | none => .error (.keyError key)
  | _ => .error .typeError

/-- `params.get(key, default)`. -/
def getParam (params : PyJson) (key : String) (default : PyJson) : Except (Raised ν) PyJson :=
  match params.get key default with
  | some value => .ok value
  | none => .error .attributeError

/-- `int(value)`. -/
def toInt (E : Environment ν K) : PyJson → Except (Raised ν) Int
  | .bool b => .ok (if b then 1 else 0)
  | .int n => .ok n
  | .float literal =>
    match E.truncate literal with
    | some n => .ok n
    | none => .error .overflowError
  | .str s =>
    match parseInt? (strip s) with
    | some n => .ok n
    | none => .error .valueError
  | _ => .error .typeError

/-- The number that a parameter is. -/
def toNumber? (E : Environment ν K) : PyJson → Option K
  | .bool b => some (if b then 1 else 0)
  | .int n => some n
  | .float literal => some (E.literal literal)
  | _ => none

/-- A name that named a column. -/
def nameOf : PyJson → String
  | .str s => String.ofList s
  | _ => ""

/-! ## Columns -/

def CATEGORICAL_TYPES : List DataType := [.text, .varchar, .boolean]

def TEMPORAL_TYPES : List DataType := [.date, .datetime]

/-- `get_column`: the name of a column is a string. -/
def columnOf (columns : List DBColumn) (name : PyJson) : Except (Raised ν) DBColumn :=
  match name with
  | .str s => orRaise (getColumn columns (String.ofList s))
  | _ => .error (.unknownColumn name)

/-- The most columns that a query of the server returns. -/
def MAX_TARGETS : Nat := 1664

/-- `fetch_columns`. -/
def fetch (src : Source ν (Double K)) (fetched : List (Row ν)) (names : List String) :
    Except (Raised ν) (FetchedColumns ν) :=
  if MAX_TARGETS < names.length then .error .databaseError
  else .ok (fetchColumns src.valueType src.cap src.rows fetched names)

/-- `_numeric_series`. -/
def series (src : Source ν (Double K)) (fetched : List (Row ν)) (name : PyJson) :
    Except (Raised ν) (List (Double K) × Bool) :=
  match name with
  | .str s => (orRaise (numericSeries src fetched (String.ofList s))).map fun result => (result.1, result.2.2)
  | _ => .error (.unknownColumn name)

/-- The first values of the rows. -/
def firsts (rows : List (List (Option ν))) : List (Option ν) := rows.map fun row => row.head?.join

/-- The rows in which both values are there. -/
def pairsOf (rows : List (List (Option ν))) : List (ν × ν) :=
  rows.filterMap fun row =>
    match row with
    | [some a, some b] => some (a, b)
    | _ => none

/-- `set(values)` raises `TypeError` for a value without a hash. -/
def requireHashable (E : Environment ν K) (values : List (Option ν)) : Except (Raised ν) Unit :=
  if values.all fun value => value.all E.hashable then .ok () else .error .typeError

/-- `==` of two values that may be `None`. -/
def sameOption (same : ν → ν → Bool) : Option ν → Option ν → Bool
  | none, none => true
  | some a, some b => same a b
  | _, _ => false

/-- `==` of two rows. -/
def sameTuple (same : ν → ν → Bool) : List (Option ν) → List (Option ν) → Bool
  | [], [] => true
  | a :: as, b :: bs => sameOption same a b && sameTuple same as bs
  | _, _ => false

/-! ## Results -/

/-- A value of a result. -/
inductive Datum (ν K : Type) where
  | field (f : Field (Double K))
  | null
  /-- `[\x7b"value": v, "count": c\x7d, …]` -/
  | distribution (items : List (ν × Nat))
  | numbers (values : List (Double K))
  | keyed (items : List (List Char × Double K))
  /-- `[\x7b"date": str(d), "value": v\x7d, …]` -/
  | points (items : List (List Char × Double K))
  | labels (values : List ν)
  | counts (values : List Nat)

abbrev Result (ν K : Type) := List (String × Datum ν K)

def Datum.text (s : String) : Datum ν K := .field (.text s)

def Datum.count (n : Nat) : Datum ν K := .field (.count n)

def Datum.number (x : Double K) : Datum ν K := .field (.number x)

def Datum.flag (b : Bool) : Datum ν K := .field (.flag b)

/-- What each query of an operation returns. -/
abbrev Answers (ν : Type) := Nat → List (Row ν)

/-- A function of `OPERATIONS`. -/
abbrev Operation (ν K : Type) :=
  Environment ν K → Source ν (Double K) → Answers ν → PyJson → Except (Raised ν) (Result ν K)

/-! ## Descriptive statistics -/

def opCount : Operation ν K := fun E src q params => do
  let name ← getParam params "column" .null
  if truthy E name then do
    let column ← columnOf src.columns name
    let fetched ← fetch src (q 0) [column.name]
    return [("operation", .text "count"), ("column", .text column.name),
      ("count", .count ((firsts fetched.rows).countP Option.isSome)), ("truncated", .flag fetched.truncated)]
  else
    match src.columns with
    | [] => .error .attributeError
    | column :: _ => do
      let fetched ← fetch src (q 0) [column.name]
      return [("operation", .text "count"), ("count", .count fetched.totalRows)]

def opDistinctCount : Operation ν K := fun E src q params => do
  let name ← subscript params "column"
  let column ← columnOf src.columns name
  let fetched ← fetch src (q 0) [column.name]
  requireHashable E (firsts fetched.rows)
  return [("operation", .text "distinct_count"), ("column", .text column.name),
    ("distinct_count", .count (distinct (sameOption E.same) (firsts fetched.rows)).length),
    ("truncated", .flag fetched.truncated)]

/-- `round(100 * missing / total, 2) if total else 0.0`. -/
def nullPercentage (E : Environment ν K) (missing total : Nat) : K :=
  if total = 0 then 0 else E.round ((100 * missing : Nat) / total)

def opMissing : Operation ν K := fun E src q params => do
  let name ← subscript params "column"
  let column ← columnOf src.columns name
  let fetched ← fetch src (q 0) [column.name]
  let missing := (firsts fetched.rows).countP Option.isNone
  return [("operation", .text "missing"), ("column", .text column.name), ("missing_count", .count missing),
    ("null_percentage", .number (.finite (nullPercentage E missing fetched.rows.length))),
    ("truncated", .flag fetched.truncated)]

/-- `params.get("columns") or [params["column"]]`. -/
def columnNames (E : Environment ν K) (params : PyJson) : Except (Raised ν) (List PyJson) := do
  let names ← getParam params "columns" .null
  if truthy E names then
    match names.iterate with
    | some names => return names
    | none => .error .typeError
  else do
    let name ← subscript params "column"
    return [name]

def opDuplicateCount : Operation ν K := fun E src q params => do
  let names ← columnNames E params
  let columns ← names.mapM (columnOf src.columns)
  let fetched ← fetch src (q 0) (columns.map (·.name))
  requireHashable E fetched.rows.flatten
  return [("operation", .text "duplicate_count"), ("columns", .field (.texts (columns.map (·.name)))),
    ("duplicate_rows", .count (fetched.rows.length - (distinct (sameTuple E.same) fetched.rows).length)),
    ("truncated", .flag fetched.truncated)]

def opFrequencyDistribution : Operation ν K := fun E src q params => do
  let name ← subscript params "column"
  let column ← columnOf src.columns name
  orRaise (requireTypes column (CATEGORICAL_TYPES ++ NUMERIC_TYPES))
  let topN ← toInt E (← getParam params "top_n" (.int 10))
  let fetched ← fetch src (q 0) [column.name]
  let counts := counter E.same ((firsts fetched.rows).filterMap id)
  return [("operation", .text "frequency_distribution"), ("column", .text column.name),
    ("distribution", .distribution (mostCommon (min topN 100).toNat counts)),
    ("distinct_values_total", .count counts.length), ("truncated", .flag fetched.truncated)]

/-- `_descriptive_numeric`. -/
def descriptiveNumeric (opName label : String) (minimum : Nat)
    (reducer : Environment ν K → List (Double K) → Double K) : Operation ν K := fun E src q params => do
  let name ← subscript params "column"
  let (values, truncated) ← series src (q 0) name
  orRaise (requireMinN values.length minimum label)
  return [("operation", .text opName), ("column", .text (nameOf name)),
    ("value", .number (reducer E values)), ("sample_size", .count values.length),
    ("truncated", .flag truncated)]

def opSum : Operation ν K := descriptiveNumeric "sum" "sample" 1 fun E => E.sum

def opMean : Operation ν K := descriptiveNumeric "mean" "sample" 1 fun E => E.mean

def opMedian : Operation ν K := descriptiveNumeric "median" "sample" 1 fun E => E.median

def opMin : Operation ν K := descriptiveNumeric "min" "sample" 1 fun E => E.min

def opMax : Operation ν K := descriptiveNumeric "max" "sample" 1 fun E => E.max

def opStdev : Operation ν K := descriptiveNumeric "stdev" "column" 2 fun E => E.std

def opVariance : Operation ν K := descriptiveNumeric "variance" "column" 2 fun E => E.var

/-- A member of a dictionary: the place of an old key stays. -/
def setMember {α : Type} (members : List (List Char × α)) (member : List Char × α) : List (List Char × α) :=
  if members.any fun m => m.1 == member.1 then members.map fun m => if m.1 = member.1 then member else m
  else members ++ [member]

/-- `isinstance(p, (int, float)) and 0 <= p <= 100`. -/
def percentile? (E : Environment ν K) (p : PyJson) : Option (List Char × K) :=
  (toNumber? E p).bind fun x => if 0 ≤ x ∧ x ≤ (100 : Nat) then some ((strText? E.floatText p).getD [], x) else none

def opPercentiles : Operation ν K := fun E src q params => do
  let name ← subscript params "column"
  let (values, truncated) ← series src (q 0) name
  orRaise (requireMinN values.length 1 "sample")
  let percentiles ← getParam params "percentiles" (.list [.int 25, .int 50, .int 75])
  match percentiles.iterate with
  | none => .error .typeError
  | some items =>
    match items.mapM (percentile? E) with
    | none => .error .badPercentiles
    | some ps =>
      match percentiles with
      | .list _ =>
        return [("operation", .text "percentiles"), ("column", .text (nameOf name)),
          ("percentiles", .keyed ((ps.map fun p => (p.1, E.percentile values p.2)).foldl setMember [])),
          ("sample_size", .count values.length), ("truncated", .flag truncated)]
      -- `numpy` takes no empty string and no empty dictionary
      | _ => .error .typeError

/-- `q1 - 1.5 * iqr` and `q3 + 1.5 * iqr`. -/
def bounds (E : Environment ν K) (values : List (Double K)) : Double K × Double K :=
  let q1 := E.percentile values (25 : Nat)
  let q3 := E.percentile values (75 : Nat)
  let iqr := q3.sub q1
  (q1.sub (iqr.scale ((3 : Nat) / (2 : Nat))), q3.add (iqr.scale ((3 : Nat) / (2 : Nat))))

/-- `values[(values < lower) | (values > upper)]`. -/
def outliers (E : Environment ν K) (values : List (Double K)) : List (Double K) :=
  values.filter fun x => x.lt (bounds E values).1 || (bounds E values).2.lt x

def opOutlierDetection : Operation ν K := fun E src q params => do
  let name ← subscript params "column"
  let (values, truncated) ← series src (q 0) name
  orRaise (requireMinN values.length 4 "column")
  return [("operation", .text "outlier_detection"), ("column", .text (nameOf name)),
    ("method", .text "IQR (1.5x, Tukey's fences)"),
    ("lower_bound", .number (bounds E values).1), ("upper_bound", .number (bounds E values).2),
    ("outlier_count", .count (outliers E values).length), ("outlier_sample", .numbers ((outliers E values).take 50)),
    ("sample_size", .count values.length), ("truncated", .flag truncated),
    ("interpretation_note", .text ("Outliers by this rule are not necessarily errors — verify against domain " ++
      "knowledge before removing or correcting any of them."))]

/-! ## Statistical analysis -/

/-- `scipy_stats` on two arrays. -/
def scipyStats (E : Environment ν K) : ScipyStats (Double K) where
  pearsonr := E.pearsonr
  spearmanr := E.spearmanr
  linregress xs ys := (E.linregress xs ys).map fun line =>
    ⟨line.slope, line.intercept, line.rvalue, line.pvalue, line.stderr⟩
  square := Double.square

/-- The two columns of a paired operation, each fetched by a query of its own. -/
def paired (op : ScipyStats (Double K) → PairedOperation (Double K)) : Operation ν K := fun E src q params => do
  let nameX ← subscript params "column_x"
  let _ ← series src (q 0) nameX
  let nameY ← subscript params "column_y"
  let _ ← series src (q 1) nameY
  let result ← orRaise ((op (scipyStats E)).run src (q 0) (q 1) (nameOf nameX) (nameOf nameY))
  return result.map fun f => (f.1, .field f.2)

/-- `groups.setdefault(group, []).append(float(value))` over the rows of a value and a group. -/
def groupsOf (E : Environment ν K) (src : Source ν (Double K)) (rows : List (List (Option ν))) :
    List (ν × List (Double K)) :=
  groups E.same ((pairsOf rows).map fun p => (p.2, src.float p.1))

/-- `ttest_ind` of two groups. -/
def tTest (E : Environment ν K) (a b : List (Double K)) (truncated : Bool) : Except (Raised ν) (Result ν K) := do
  orRaise (requireMinN a.length 2 "group A")
  orRaise (requireMinN b.length 2 "group B")
  let (statistic, p) ← orValueError (E.ttestInd a b)
  return [("operation", .text "t_test"),
    ("method", .text "Welch's two-sample t-test (does not assume equal variances)"),
    ("statistic", .number statistic), ("p_value", .number p), ("sample_sizes", .counts [a.length, b.length]),
    ("assumptions", .field (.texts ["both groups are approximately normally distributed",
      "observations are independent"])),
    ("interpretation_note",
      .text "A significant result indicates a difference in means, not its cause or size."),
    ("truncated", .flag truncated)]

def opTTest : Operation ν K := fun E src q params => do
  let name ← subscript params "column"
  let (a, ta) ← series src (q 0) name
  let nameB ← getParam params "column_b" .null
  if truthy E nameB then do
    let (b, tb) ← series src (q 1) nameB
    tTest E a b (ta || tb)
  else do
    let groupName ← subscript params "group_column"
    let groupCol ← columnOf src.columns groupName
    orRaise (requireTypes groupCol CATEGORICAL_TYPES)
    let valueCol ← columnOf src.columns name
    let fetched ← fetch src (q 1) [valueCol.name, groupCol.name]
    match groupsOf E src fetched.rows with
    | [(_, a), (_, b)] => tTest E a b fetched.truncated
    | groups => .error (.notTwoGroups groupCol.name groups.length)

/-- `sorted` of the different values. -/
def sortedValues (E : Environment ν K) (values : List ν) : List ν :=
  (distinct E.same values).mergeSort E.before

/-- The table of counts of pairs. -/
def tableCounts (E : Environment ν K) (pairs : List (ν × ν)) : List (List Nat) :=
  (sortedValues E (pairs.map (·.1))).map fun a => (sortedValues E (pairs.map (·.2))).map fun b =>
    pairs.countP fun p => E.same a p.1 && E.same b p.2

def opChiSquare : Operation ν K := fun E src q params => do
  let nameA ← subscript params "column_a"
  let colA ← columnOf src.columns nameA
  let nameB ← subscript params "column_b"
  let colB ← columnOf src.columns nameB
  orRaise (requireTypes colA CATEGORICAL_TYPES)
  orRaise (requireTypes colB CATEGORICAL_TYPES)
  let fetched ← fetch src (q 0) [colA.name, colB.name]
  let pairs := pairsOf fetched.rows
  orRaise (requireMinN pairs.length 5 "paired sample")
  let (statistic, p, dof) ← orValueError (E.chi2Contingency (tableCounts E pairs))
  return [("operation", .text "chi_square"), ("method", .text "Chi-square test of independence"),
    ("columns", .field (.texts [colA.name, colB.name])), ("statistic", .number statistic), ("p_value", .number p),
    ("degrees_of_freedom", .count dof), ("sample_size", .count pairs.length),
    ("assumptions", .field (.texts ["expected frequency of at least 5 in most contingency-table cells"])),
    ("interpretation_note", .text CAUSATION_NOTE), ("truncated", .flag fetched.truncated)]

def opAnova : Operation ν K := fun E src q params => do
  let valueName ← subscript params "column"
  let valueCol ← columnOf src.columns valueName
  let groupName ← subscript params "group_column"
  let groupCol ← columnOf src.columns groupName
  orRaise (requireTypes valueCol NUMERIC_TYPES)
  orRaise (requireTypes groupCol CATEGORICAL_TYPES)
  let fetched ← fetch src (q 0) [valueCol.name, groupCol.name]
  let groups := groupsOf E src fetched.rows
  if groups.length < 2 then .error (.fewGroups groupCol.name)
  else
    match groups.find? fun g => decide (g.2.length < 2) with
    | some g => .error (.smallGroup g.1 g.2.length)
    | none => do
      let (statistic, p) ← orValueError (E.fOneway (groups.map (·.2)))
      return [("operation", .text "anova"), ("method", .text "One-way ANOVA"),
        ("value_column", .text valueCol.name), ("group_column", .text groupCol.name),
        ("groups", .labels (groups.map (·.1))), ("statistic", .number statistic), ("p_value", .number p),
        ("sample_size", .count (groups.map (·.2.length)).sum),
        ("assumptions", .field (.texts ["each group is approximately normally distributed",
          "groups have similar variances", "observations are independent"])),
        ("interpretation_note",
          .text "A significant result means at least one group's mean differs, not which one or why."),
        ("truncated", .flag fetched.truncated)]

/-- `(last - first) / first * 100`, if there is a first value other than zero. -/
def growthRate (first last : Double K) : Option (Double K) :=
  if first = .finite 0 then none else some ((last.sub first).div first).percent

/-- `sorted` of the dates and values that are there, by date. -/
def pointsOf (E : Environment ν K) (src : Source ν (Double K)) (rows : List (List (Option ν))) :
    List (ν × Double K) :=
  ((pairsOf rows).map fun p => (p.1, src.float p.2)).mergeSort fun p p' => E.before p.1 p'.1

/-- The summary of the points. -/
def timeSeries (E : Environment ν K) (src : Source ν (Double K)) (dateCol valueCol : DBColumn) (window : Int)
    (points : List (ν × Double K)) (truncated : Bool) : Except (Raised ν) (Result ν K) := do
  orRaise (requireMinN points.length 2 "time series")
  let values := points.map (·.2)
  -- `numpy` makes no window of no or of less than no values
  if window ≤ 0 then .error .valueError
  else
    let growth := growthRate (values.headD .nan) (values.getLastD .nan)
    return [("operation", .text "time_series_summary"), ("date_column", .text dateCol.name),
      ("value_column", .text valueCol.name),
      ("points", .points (points.map fun p => (src.valueType.text p.1, p.2))),
      ("moving_average_window", .count window.toNat),
      ("moving_average",
        if window.toNat ≤ values.length then .numbers (E.convolve values window.toNat) else .null),
      ("overall_growth_rate_pct", (growth.map Datum.number).getD .null), ("sample_size", .count points.length),
      ("truncated", .flag truncated)]

def opTimeSeriesSummary : Operation ν K := fun E src q params => do
  let dateName ← subscript params "date_column"
  let dateCol ← columnOf src.columns dateName
  let valueName ← subscript params "value_column"
  let valueCol ← columnOf src.columns valueName
  orRaise (requireTypes dateCol TEMPORAL_TYPES)
  orRaise (requireTypes valueCol NUMERIC_TYPES)
  let window := min (← toInt E (← getParam params "window" (.int 7))) 365
  let fetched ← fetch src (q 0) [dateCol.name, valueCol.name]
  timeSeries E src dateCol valueCol window (pointsOf E src fetched.rows) fetched.truncated

/-! ## The registry -/

def OPERATIONS : List (String × Operation ν K) :=
  [("count", opCount), ("distinct_count", opDistinctCount), ("missing", opMissing),
    ("duplicate_count", opDuplicateCount), ("frequency_distribution", opFrequencyDistribution), ("sum", opSum),
    ("mean", opMean), ("median", opMedian), ("min", opMin), ("max", opMax), ("stdev", opStdev),
    ("variance", opVariance), ("percentiles", opPercentiles), ("outlier_detection", opOutlierDetection),
    ("pearson_correlation", paired opPearsonCorrelation), ("spearman_correlation", paired opSpearmanCorrelation),
    ("linear_regression", paired opLinearRegression), ("t_test", opTTest), ("chi_square", opChiSquare),
    ("anova", opAnova), ("time_series_summary", opTimeSeriesSummary)]

/-! ## What the operations read -/

/-- The parameters name this column under the key. -/
def Names (src : Source ν (Double K)) (params : PyJson) (key : String) (name : PyJson) (column : DBColumn) : Prop :=
  (subscript params key : Except (Raised ν) PyJson) = .ok name ∧
    (columnOf src.columns name : Except (Raised ν) DBColumn) = .ok column

/-- `int(params.get(key, default))`. -/
def IsParam (E : Environment ν K) (params : PyJson) (key : String) (default n : Int) : Prop :=
  ∃ value, (getParam params key (.int default) : Except (Raised ν) PyJson) = .ok value ∧ toInt E value = .ok n

/-- What the query returns of the column. -/
def valuesOf (src : Source ν (Double K)) (fetched : List (Row ν)) (column : DBColumn) : List (Option ν) :=
  fetched.map fun r => r.value src.valueType column.name

/-- The numbers of the column. -/
def numbersOf (src : Source ν (Double K)) (fetched : List (Row ν)) (column : DBColumn) : List (Double K) :=
  ((valuesOf src fetched column).filterMap id).map src.float

/-- The table has more rows than a query returns. -/
def isTruncated (src : Source ν (Double K)) : Bool := decide (src.cap < src.rows.length)

/-- What the query returns of two columns. -/
def rowsOf (src : Source ν (Double K)) (fetched : List (Row ν)) (column column' : DBColumn) :
    List (List (Option ν)) :=
  fetched.map fun r => [r.value src.valueType column.name, r.value src.valueType column'.name]

end Analytics
