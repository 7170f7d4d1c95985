import IntraCloud.Databases.Ddl
import IntraCloud.Python.Datetime
import IntraCloud.Python.Json
import IntraCloud.Python.Uuid

/-!
# From CSV text to query parameters

`_convert_value` of `imports/services.py` with the constants of `databases/formats.py`. The import task
and the restore of a package share it.
-/

namespace Imports

open Databases Python

/-- A query parameter. -/
inductive Param where
  | none
  | int (n : Int)
  | decimal (d : Decimal)
  | bool (b : Bool)
  | date (d : Date)
  | datetime (d : NaiveDatetime)
  | str (s : List Char)
  | json (value : PyJson)

/-- The exception of `_convert_value`, by the type that was wanted. -/
inductive ConvertError where
  | notAnInteger (raw : List Char)
  | notADecimal (raw : List Char)
  | notABoolean (raw : List Char)
  | notADate (raw : List Char)
  | notADatetime (raw : List Char)
  | notAUuid (raw : List Char)
  | notJson (raw : List Char)
  deriving DecidableEq, Repr

/-- `DATE_FORMAT`. -/
def dateFormat : List Directive :=
  [.year, .literal '-', .month, .literal '-', .day]

/-- `DATETIME_FORMATS`. -/
def datetimeFormats : List (List Directive) :=
  [dateFormat ++ [.literal 'T', .hour, .literal ':', .minute, .literal ':', .second],
    dateFormat ++ [.space, .hour, .literal ':', .minute, .literal ':', .second]]

/-- `BOOLEAN_TRUE_VALUES`. -/
def booleanTrueValues : List (List Char) := ["true".toList, "yes".toList, "1".toList]

/-- `BOOLEAN_FALSE_VALUES`. -/
def booleanFalseValues : List (List Char) := ["false".toList, "no".toList, "0".toList]

/-- What `json.loads` returns is passed on as it is. -/
def jsonParam : PyJson → Param
  | .null => .none
  | .bool b => .bool b
  | .int n => .int n
  | .str s => .str s
  | value => .json value

/-- The conversion of a value that is not blank. -/
def convertStripped (raw : List Char) : DataType → Except ConvertError Param
  | .integer | .bigint =>
    match parseInt? raw with
    | none => .error (.notAnInteger raw)
    | some n => .ok (.int n)
  | .decimal =>
    match parseDecimal? raw with
    | none => .error (.notADecimal raw)
    | some d => .ok (.decimal d)
  | .boolean =>
    if lower raw ∈ booleanTrueValues then .ok (.bool true)
    else if lower raw ∈ booleanFalseValues then .ok (.bool false)
    else .error (.notABoolean raw)
  | .date =>
    match strptime dateFormat raw with
    | none => .error (.notADate raw)
    | some d => .ok (.date d.date)
  | .datetime =>
    match datetimeFormats.findSome? (strptime · raw) with
    | none => .error (.notADatetime raw)
    | some d => .ok (.datetime d)
  | .uuid =>
    match parseUuid? raw with
    | none => .error (.notAUuid raw)
    | some n => .ok (.str (uuidText n))
  | .json =>
    match Json.loads raw with
    | none => .error (.notJson raw)
    | some value => .ok (jsonParam value)
  | .text | .varchar => .ok (.str raw)

/-- `_convert_value`. -/
def convertValue (raw : List Char) (dataType : DataType) : Except ConvertError Param :=
  let raw := strip raw
  if raw = [] then .ok .none else convertStripped raw dataType

end Imports
