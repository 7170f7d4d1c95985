import IntraCloud.Databases.Catalog
import IntraCloud.Databases.Rows
import IntraCloud.Relational.Pairing

/-!
# Statistics of two columns

The paired operations of `analytics/operations.py`, over `analytics/data.py`. The queries have no `ORDER BY`:
what each of them returns is an argument, as are `float()` and the functions of `scipy_stats`.
-/

namespace Analytics

open Databases Relational

variable {ν φ : Type}

/-! ## Fetching -/

def NUMERIC_TYPES : List DataType := [.integer, .bigint, .decimal]

/-- `AnalyticsValidationError` of an operation, and the `ValueError` that `run_analysis` turns into one. -/
inductive OperationError where
  /-- "unknown column" -/
  | unknownColumn (name : String)
  /-- "column … has type …, which this operation doesn't support" -/
  | unsupportedType (name : String) (dataType : DataType)
  /-- "… has … non-null values; at least … are needed for this operation" -/
  | tooFew (label : String) (count minimum : Nat)
  | valueError
  deriving DecidableEq, Repr

def getColumn (columns : List DBColumn) (name : String) : Except OperationError DBColumn :=
  match columns.find? fun c => c.name == name with
  | none => .error (.unknownColumn name)
  | some c => .ok c

def requireTypes (column : DBColumn) (allowed : List DataType) : Except OperationError Unit :=
  if column.dataType ∈ allowed then .ok () else .error (.unsupportedType column.name column.dataType)

/-- What `fetch_columns` returns. -/
structure FetchedColumns (ν : Type) where
  rows : List (List (Option ν))
  totalRows : Nat
  truncated : Bool

/-- `fetch_columns` of a table with these rows, where the query returns `fetched`. -/
def fetchColumns (V : ValueType ν) (cap : Nat) (rows fetched : List (Row ν)) (columnNames : List String) :
    FetchedColumns ν :=
  ⟨fetched.map fun r => columnNames.map (r.value V), rows.length, decide (cap < rows.length)⟩

/-- A table, `settings.ANALYTICS_MAX_ROWS` and what turns a value of the server into a `float`. -/
structure Source (ν φ : Type) where
  valueType : ValueType ν
  cap : Nat
  columns : List DBColumn
  rows : List (Row ν)
  float : ν → φ

/-- The value of a row, as a `float`. -/
def Source.number (src : Source ν φ) (column : String) (r : Row ν) : Option φ :=
  (r.value src.valueType column).map src.float

/-- `_numeric_series`. -/
def numericSeries (src : Source ν φ) (fetched : List (Row ν)) (columnName : String) :
    Except OperationError (List φ × Nat × Bool) :=
  match getColumn src.columns columnName with
  | .error e => .error e
  | .ok column =>
    match requireTypes column NUMERIC_TYPES with
    | .error e => .error e
    | .ok () =>
      let result := fetchColumns src.valueType src.cap src.rows fetched [column.name]
      let values := result.rows.filterMap fun row => (row.head?.join).map src.float
      .ok (values, result.totalRows, result.truncated)

def requireMinN (count minimum : Nat) (label : String) : Except OperationError Unit :=
  if count < minimum then .error (.tooFew label count minimum) else .ok ()

/-! ## Operations -/

def CAUSATION_NOTE : String :=
  "Correlation/association does not establish causation. Confounding variables, " ++
    "reverse causation, and coincidence can all produce a statistically significant result."

/-- A value of a result. -/
inductive Field (φ : Type) where
  | text (s : String)
  | texts (items : List String)
  | number (value : φ)
  | count (n : Nat)
  | flag (b : Bool)

/-- The arrays that the statistic gets. -/
structure Sample (φ : Type) where
  x : List φ
  y : List φ
  truncated : Bool

/-- What the paired operations do before the statistic. -/
def pairedSample (src : Source ν φ) (fetchedX fetchedY : List (Row ν)) (columnX columnY : String) :
    Except OperationError (Sample φ) :=
  match numericSeries src fetchedX columnX with
  | .error e => .error e
  | .ok (x, _, tx) =>
    match numericSeries src fetchedY columnY with
    | .error e => .error e
    | .ok (y, _, ty) =>
      let n := min x.length y.length
      match requireMinN n 3 "paired sample" with
      | .error e => .error e
      | .ok () => .ok ⟨x.take n, y.take n, tx || ty⟩

/-- An operation on two columns: `statistic` is `none` where the function of `scipy_stats` raises `ValueError`. -/
structure PairedOperation (φ : Type) where
  operation : String
  method : String
  columnFields : String → String → List (String × Field φ)
  statistic : List φ → List φ → Option (List (String × φ))
  assumptions : List String

def PairedOperation.run (op : PairedOperation φ) (src : Source ν φ) (fetchedX fetchedY : List (Row ν))
    (columnX columnY : String) : Except OperationError (List (String × Field φ)) :=
  match pairedSample src fetchedX fetchedY columnX columnY with
  | .error e => .error e
  | .ok sample =>
    match op.statistic sample.x sample.y with
    | none => .error .valueError
    | some numbers =>
      .ok (("operation", .text op.operation) :: ("method", .text op.method) :: op.columnFields columnX columnY ++
        numbers.map (fun number => (number.1, Field.number number.2)) ++
        [("sample_size", .count sample.x.length), ("assumptions", .texts op.assumptions),
          ("interpretation_note", .text CAUSATION_NOTE), ("truncated", .flag sample.truncated)])

/-- What `linregress` returns. -/
structure LinregressResult (φ : Type) where
  slope : φ
  intercept : φ
  rvalue : φ
  pvalue : φ
  stderr : φ

/-- `scipy_stats`; `square` is `value**2`. -/
structure ScipyStats (φ : Type) where
  pearsonr : List φ → List φ → Option (φ × φ)
  spearmanr : List φ → List φ → Option (φ × φ)
  linregress : List φ → List φ → Option (LinregressResult φ)
  square : φ → φ

def opPearsonCorrelation (stats : ScipyStats φ) : PairedOperation φ where
  operation := "pearson_correlation"
  method := "Pearson product-moment correlation"
  columnFields columnX columnY := [("columns", .texts [columnX, columnY])]
  statistic x y := (stats.pearsonr x y).map fun (r, p) => [("r", r), ("p_value", p)]
  assumptions := ["linear relationship", "roughly normally distributed variables", "no extreme outliers"]

def opSpearmanCorrelation (stats : ScipyStats φ) : PairedOperation φ where
  operation := "spearman_correlation"
  method := "Spearman rank correlation"
  columnFields columnX columnY := [("columns", .texts [columnX, columnY])]
  statistic x y := (stats.spearmanr x y).map fun (r, p) => [("rho", r), ("p_value", p)]
  assumptions := ["monotonic relationship (not necessarily linear)"]

def opLinearRegression (stats : ScipyStats φ) : PairedOperation φ where
  operation := "linear_regression"
  method := "Ordinary least squares (simple linear regression)"
  columnFields columnX columnY := [("x_column", .text columnX), ("y_column", .text columnY)]
  statistic x y := (stats.linregress x y).map fun result =>
    [("slope", result.slope), ("intercept", result.intercept), ("r_squared", stats.square result.rvalue),
      ("p_value", result.pvalue), ("std_err", result.stderr)]
  assumptions :=
    ["linear relationship between x and y", "residuals are independent and roughly normally distributed",
      "constant variance of residuals (homoscedasticity)"]

/-- The operations of the registry that take two numeric columns. -/
def pairedOperations (stats : ScipyStats φ) : List (PairedOperation φ) :=
  [opPearsonCorrelation stats, opSpearmanCorrelation stats, opLinearRegression stats]

/-! ## True pairs -/

/-- A numeric column of the table. -/
def Source.IsNumeric (src : Source ν φ) (column : String) : Prop :=
  ∃ c, getColumn src.columns column = .ok c ∧ c.dataType ∈ NUMERIC_TYPES

/-- Whatever the two queries return, the statistic gets the pairs of the rows that they returned in which both
values are there, and `sample_size` is the number of these rows. -/
def PairedOperation.UsesTruePairs (op : PairedOperation φ) (src : Source ν φ) (columnX columnY : String) : Prop :=
  ∀ fetchedX fetchedY, Fetches src.cap src.rows fetchedX → Fetches src.cap src.rows fetchedY →
    ∀ sample, pairedSample src fetchedX fetchedY columnX columnY = .ok sample →
      ∀ fetched ∈ [fetchedX, fetchedY],
        let pairs := truePairs (src.number columnX) (src.number columnY) fetched
        sample.x.length = sample.y.length ∧ (sample.x.zip sample.y).Perm pairs ∧
          ∀ result, op.run src fetchedX fetchedY columnX columnY = .ok result →
            result.lookup "sample_size" = some (.count pairs.length)

end Analytics
