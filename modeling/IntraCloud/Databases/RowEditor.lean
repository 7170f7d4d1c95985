import IntraCloud.Databases.Domains
import IntraCloud.JavaScript.Numbers
import IntraCloud.Python.JsonText

/-!
# The row editor

The form in which the page of a table (`tables/[tableId]/_client.tsx`) edits a row: the row as the API returns it,
the texts of the fields, and the payload that is built of them for `update_row`. The driver returns `JSONB` as text
and `timestamptz` in UTC.
-/

namespace Databases

open Python Relational

/-! ## Cells -/

/-- What a cell of a tenant table holds if it is not NULL, as the driver returns it. -/
inductive Cell where
  | integer (n : Int)
  | decimal (d : Decimal)
  | boolean (b : Bool)
  | date (d : Date)
  | timestamp (d : NaiveDatetime)
  | uuid (n : Nat)
  | text (s : List Char)
  | document (text : List Char)

/-- A value of the page. -/
inductive JsValue where
  | null
  | boolean (b : Bool)
  /-- A number without fraction. -/
  | number (n : Int)
  | string (s : List Char)

/-- `isoformat()` in UTC, with the `Z` that the encoder of the API puts for `+00:00`. -/
def isoformat (d : NaiveDatetime) : List Char := d.date.text ++ 'T' :: (d.time.text ++ ['Z'])

/-- A cell of a row of the API, as the page reads it. -/
def Cell.raw : Cell → JsValue
  | .integer n => .number (JavaScript.readInteger n)
  | .decimal d => .string d.text
  | .boolean b => .boolean b
  | .date d => .string d.text
  | .timestamp d => .string (isoformat d)
  | .uuid n => .string (uuidText n)
  | .text s => .string s
  | .document s => .string s

/-! ## The form -/

/-- `String(raw)`. -/
def JsValue.text : JsValue → List Char
  | .null => "null".toList
  | .boolean true => "true".toList
  | .boolean false => "false".toList
  | .number n => intText (JavaScript.writeInteger n)
  | .string s => s

/-- `JSON.stringify(raw)`. -/
def JsValue.stringify : JsValue → List Char
  | .string s => Json.text none 0 (.str s)
  | raw => raw.text

/-- `s.replace(" ", "T")`: the first one. -/
def replaceSpace : List Char → List Char
  | [] => []
  | ' ' :: s => 'T' :: s
  | c :: s => c :: replaceSpace s

/-- The text of a field when the form opens. -/
def fieldText (dataType : DataType) (raw : JsValue) : List Char :=
  match raw with
  | .null => []
  | _ =>
    match dataType, raw with
    | .json, _ => raw.stringify
    | .datetime, .string s => (replaceSpace s).take 16
    | _, _ => raw.text

/-- The payload of a field of a row that exists, as the server reads it. -/
def fieldPayload (dataType : DataType) (raw : List Char) : PyJson :=
  if raw = [] then .null
  else
    match dataType with
    | .integer | .bigint =>
      match JavaScript.parseInt raw with
      | some n => .int (JavaScript.writeInteger n)
      -- `NaN` is sent as `null`
      | none => .null
    | .boolean => .bool (decide (raw = "true".toList))
    | .datetime => .str (if raw.length = 16 then raw ++ ":00".toList else raw)
    | .json =>
      -- `JSON.parse`, of the text that `JSON.stringify` made of a string
      match Json.loads raw with
      | some v => v
      | none => .str raw
    | _ => .str raw

/-- The payload of a field that was not touched. -/
def untouched (dataType : DataType) (cell : Option Cell) : PyJson :=
  fieldPayload dataType (fieldText dataType (cell.elim .null Cell.raw))

/-- `buildPayload` of a form that was opened on the row and not touched. -/
def buildPayload (V : ValueType Cell) (columns : List DBColumn) (r : Row Cell) : List (List Char × PyJson) :=
  (columns.filter fun c => !c.isPrimaryKey).map fun c => (c.name.toList, untouched c.dataType (r.value V c.name))

/-! ## The server -/

/-- The value is one that a column of the type can hold. -/
def SqlType.Contains : SqlType → Cell → Prop
  | .integer, .integer n => -2147483648 ≤ n ∧ n ≤ 2147483647
  | .bigint, .integer n => -9223372036854775808 ≤ n ∧ n ≤ 9223372036854775807
  | .numeric precision scale, .decimal d =>
    d = .nan false false 0 ∨
      -- there is no negative zero
      ∃ negative coefficient, d = .finite negative coefficient (-(scale : Int)) ∧
        (negative = true → coefficient ≠ 0) ∧ (natText coefficient).length ≤ precision ∧ scale ≤ precision ∧
          precision ≤ MAX_DECIMAL_PRECISION
  | .boolean, .boolean _ => True
  | .date, .date _ => True
  | .timestamptz, .timestamp _ => True
  | .uuid, .uuid n => n < Nat.pow 16 32
  | .text, .text s => '\x00' ∉ s
  | .varchar length, .text s => '\x00' ∉ s ∧ s.length ≤ length
  | .jsonb, .document _ => True
  | _, _ => False

/-- The parameter that the driver makes of a value it returned; of the text of a document it makes no document. -/
def Cell.param? : Cell → Option QueryParam
  | .integer n => some (.plain (.int n))
  | .decimal d => some (.plain (.decimal d))
  | .boolean b => some (.plain (.bool b))
  | .date d => some (.plain (.date d))
  | .timestamp d => some (.plain (.datetime d))
  | .uuid n => some (.plain (.str (uuidText n)))
  | .text s => some (.plain (.str s))
  | .document _ => none

/-- What the manual of the server says about its values. -/
structure Server.StoresCells (sv : Server Cell) : Prop where
  /-- A column takes NULL for NULL. -/
  null : ∀ c, sv.store c (.plain .none) = some none
  /-- A column takes the values that it can hold. -/
  again : ∀ c v q, c.type.Contains v → v.param? = some q → sv.store c q = some (some v)
  /-- A column of integers stores one as it is, or refuses it. -/
  integer : ∀ c m v, c.type = .integer ∨ c.type = .bigint → sv.store c (.plain (.int m)) = some v →
    v = some (.integer m)
  /-- A time is stored down to microseconds. -/
  timestamp : ∀ c d v, c.type = .timestamptz → sv.store c (.plain (.datetime d)) = some v → v = some (.timestamp d)
  /-- The text of a document is one that reads as it. -/
  document : ∀ c s text, c.type = .jsonb → sv.store c (.jsonb (.str s)) = some (some (.document text)) →
    Json.loads text = some (.str s)

/-- The rows of a table are such as the server has them: their values are ones of the columns, and no constraint is
broken. -/
structure HeldRows (sv : Server Cell) (ten : Tenant) (t : TableKey) (rows : TenantRows Cell) : Prop where
  keyed : Keyed Row.id (rows.ofTable t)
  contains : ∀ r ∈ rows.ofTable t, ∀ c ∈ ten.columnsOf t, ∀ v, r.value sv.toValueType c.name = some v →
    c.type.Contains v
  fits : ∀ r ∈ rows.ofTable t, ∀ c ∈ ten.columnsOf t, fits sv.toValueType rows t r c = true
  sound : rows.Sound sv.toValueType ten.keys

/-! ## Saving without a change -/

/-- Saving the form as it was opened succeeds, with the row as it was, and leaves it as it was. -/
def SavesUnchanged (sv : Server Cell) (ten : Tenant) (t : TableKey) (columns : List DBColumn)
    (rows : TenantRows Cell) (r : Row Cell) : Prop :=
  let saved := updateRow sv ten t columns rows r.id (.fields (buildPayload sv.toValueType columns r))
  saved.2 = .ok (rowDict sv.toValueType columns r) ∧
    ∀ r' ∈ saved.1.ofTable t, r'.id = r.id → ∀ c ∈ columns,
      r'.value sv.toValueType c.name = r.value sv.toValueType c.name

/-- The form keeps the value: an integer that JavaScript writes as it was, a time of whole minutes, a text that is
not empty, no document, and any value of another type. -/
def Cell.Survives : Cell → Prop
  | .integer n => JavaScript.writeInteger (JavaScript.readInteger n) = n
  | .timestamp d => d.time.second = 0 ∧ d.time.microsecond = 0
  | .text s => s ≠ []
  | .document _ => False
  | _ => True

end Databases
