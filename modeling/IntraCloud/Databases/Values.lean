import IntraCloud.Imports.Convert

/-!
# Row values as query parameters

`validate_and_convert` of `databases/values.py`, and next to it the JSON value that a CSV cell denotes.
`psycopg` and the server are outside the repository: a `Driver` stands for what a column holds once a
parameter was sent to it.
-/

namespace Databases

open Python

/-- `RowValueError`, by the value that was expected. -/
inductive RowValueError where
  | expectedInteger (value : PyJson)
  | expectedDecimal (value : PyJson)
  | expectedBoolean (value : PyJson)
  | expectedDate (value : PyJson)
  | expectedDatetime (value : PyJson)
  | expectedUuid (value : PyJson)
  | expectedString (value : PyJson)

/-- A parameter of a query: a Python value, which the driver adapts by its type, or a `Jsonb`. -/
inductive QueryParam where
  | plain (p : Imports.Param)
  | jsonb (value : PyJson)

/-- `str(value)`, where `str` of a `float` is an argument. The text of a container begins with a bracket,
so neither `Decimal` nor `uuid.UUID` takes it; nothing stands for it. -/
def strText? (floatText : List Char → List Char) : PyJson → Option (List Char)
  | .null => some "None".toList
  | .bool true => some "True".toList
  | .bool false => some "False".toList
  | .int n => some (intText n)
  | .float literal => some (floatText literal)
  | .str s => some s
  | .list _ => none
  | .dict _ => none

/-- The string of a value that is one. -/
def strOf? : PyJson → Option (List Char)
  | .str s => some s
  | _ => none

/-- The integer branch: `bool` is a subclass of `int`, and is left out. -/
def validateInteger (value : PyJson) : Except RowValueError QueryParam :=
  match value with
  | .int n => .ok (.plain (.int n))
  | _ => .error (.expectedInteger value)

def validateDecimal (floatText : List Char → List Char) (value : PyJson) :
    Except RowValueError QueryParam :=
  match value with
  | .bool _ => .error (.expectedDecimal value)
  | _ =>
    match (strText? floatText value).bind parseDecimal? with
    | none => .error (.expectedDecimal value)
    | some d => .ok (.plain (.decimal d))

def validateBoolean (value : PyJson) : Except RowValueError QueryParam :=
  match value with
  | .bool b => .ok (.plain (.bool b))
  | .str s =>
    let lowered := lower s
    if (Imports.booleanTrueValues ++ Imports.booleanFalseValues).contains lowered then
      .ok (.plain (.bool (Imports.booleanTrueValues.contains lowered)))
    else .error (.expectedBoolean value)
  | _ => .error (.expectedBoolean value)

def validateDate (value : PyJson) : Except RowValueError QueryParam :=
  match (strOf? value).bind (strptime Imports.dateFormat) with
  | none => .error (.expectedDate value)
  | some d => .ok (.plain (.date d.date))

def validateDatetime (value : PyJson) : Except RowValueError QueryParam :=
  match (strOf? value).bind fun s => Imports.datetimeFormats.findSome? (strptime · s) with
  | none => .error (.expectedDatetime value)
  | some d => .ok (.plain (.datetime d))

def validateUuid (floatText : List Char → List Char) (value : PyJson) : Except RowValueError QueryParam :=
  match (strText? floatText value).bind parseUuid? with
  | none => .error (.expectedUuid value)
  | some n => .ok (.plain (.str (uuidText n)))

def validateString (value : PyJson) : Except RowValueError QueryParam :=
  match strOf? value with
  | none => .error (.expectedString value)
  | some s => .ok (.plain (.str s))

/-- The conversion of a value that is not `None`. -/
def validatePresent (floatText : List Char → List Char) (value : PyJson) :
    DataType → Except RowValueError QueryParam
  | .integer | .bigint => validateInteger value
  | .decimal => validateDecimal floatText value
  | .boolean => validateBoolean value
  | .date => validateDate value
  | .datetime => validateDatetime value
  | .uuid => validateUuid floatText value
  | .text | .varchar => validateString value
  | .json => .ok (.jsonb value)

/-- `validate_and_convert`. -/
def validateAndConvert (floatText : List Char → List Char) (value : PyJson) (dataType : DataType) :
    Except RowValueError QueryParam :=
  match value with
  | .null => .ok (.plain .none)
  | _ => validatePresent floatText value dataType

/-- The JSON value a client of the row API sends for the text of a cell: the integer or the document it
denotes, and otherwise the string. A text that is no document has none in a `JSONB` column. -/
def jsonNative? (raw : List Char) : DataType → Option PyJson
  | .integer | .bigint =>
    match parseInt? raw with
    | none => some (.str raw)
    | some n => some (.int n)
  | .json => Json.loads raw
  | _ => some (.str raw)

/-! ## The driver -/

/-- What becomes of a parameter on its way into a column. -/
structure Driver where
  /-- What a column can hold. -/
  Value : Type
  /-- What the column of a type holds once the parameter was sent; nothing where the query fails. -/
  store : DataType → QueryParam → Option Value
  /-- What a `JSONB` column holds for a document, limits of size aside; nothing for one it can not hold,
  with a number that is not finite or a string with a zero byte. -/
  document : PyJson → Option Value

/-- What the manuals of `psycopg` and the server say about the parameters of a `JSONB` column. -/
structure Driver.Documented (D : Driver) : Prop where
  /-- A `Jsonb` is sent as its document. -/
  jsonb : ∀ v, D.store .json (.jsonb v) = D.document v
  /-- A `str` is sent as a literal, which the column reads as the text of a document. -/
  str : ∀ s t x, D.store .json (.plain (.str s)) = some x → D.document (.str t) = some x →
    Json.loads s = some (.str t)
  /-- A zero byte can not be sent in a `str`. -/
  zero : ∀ s, '\x00' ∈ s → D.store .json (.plain (.str s)) = none
  /-- The column holds any other string. -/
  string : ∀ s, '\x00' ∉ s → ∃ x, D.document (.str s) = some x
  /-- There is no cast from a boolean. -/
  bool : ∀ b, D.store .json (.plain (.bool b)) = none
  /-- There is no cast from an integer. -/
  int : ∀ n, D.store .json (.plain (.int n)) = none
  /-- There is no cast from a floating point number. -/
  float : ∀ literal, D.store .json (.plain (.json (.float literal))) = none
  /-- A `dict` can not be adapted. -/
  dict : ∀ members, D.store .json (.plain (.json (.dict members))) = none
  /-- A `list` is sent as an array, from which there is no cast, and an empty one as the literal that the
  column reads as the empty object. -/
  list : ∀ items x, D.store .json (.plain (.json (.list items))) = some x →
    items = [] ∧ D.document (.dict []) = some x
  /-- The column holds the empty array. -/
  array : ∃ x, D.document (.list []) = some x
  /-- The empty object is not the empty array. -/
  empty : D.document (.dict []) ≠ D.document (.list [])

/-- The two converters take the same texts for a column of the type, and where both do, the column holds
the same value afterwards. -/
def ConvertersAgree (D : Driver) (floatText : List Char → List Char) (raw : List Char)
    (dataType : DataType) : Prop :=
  ((∃ p, Imports.convertValue raw dataType = .ok p) ↔
    ∃ v q, jsonNative? raw dataType = some v ∧ validateAndConvert floatText v dataType = .ok q) ∧
  ∀ p v q, Imports.convertValue raw dataType = .ok p → jsonNative? raw dataType = some v →
    validateAndConvert floatText v dataType = .ok q → D.store dataType (.plain p) = D.store dataType q

end Databases
