import IntraCloud.Accounts.Totp
import IntraCloud.Imports.Convert
import IntraCloud.Python.Floats

/-!
# The type of a column, from a sample

`infer_type` of `imports/inspect.py`, and what `_convert_value` makes of the values that it was inferred from.
-/

namespace Imports

open Accounts Databases Python

/-- `BOOLEAN_VALUES`. -/
def booleanValues : List (List Char) := booleanTrueValues ++ booleanFalseValues

/-- `_looks_like_date`. -/
def looksLikeDate (v : List Char) : Bool := (strptime dateFormat v).isSome

/-- `_looks_like_datetime`. -/
def looksLikeDatetime (v : List Char) : Bool := datetimeFormats.any fun format => (strptime format v).isSome

/-- `_is_decimal`. -/
def isDecimal (v : List Char) : Bool := isFloatText v && (v.contains '.' || (lower v).contains 'e')

/-- `v.lstrip("-").isdigit()`. -/
def isDashedDigits (v : List Char) : Bool := isDigitText (v.dropWhile (· == '-'))

/-- The values that are not blank, stripped. -/
def nonEmpty (values : List (List Char)) : List (List Char) := (values.map strip).filter fun v => !v.isEmpty

/-- `infer_type`. -/
def inferType (values : List (List Char)) : DataType :=
  let values := nonEmpty values
  if values.isEmpty then .text
  else if values.all fun v => booleanValues.contains (lower v) then .boolean
  else if values.all isDashedDigits then .integer
  else if values.all isDecimal then .decimal
  else if values.all looksLikeDate then .date
  else if values.all looksLikeDatetime then .datetime
  else .text

/-- Each value that is not blank is converted to the inferred type. -/
def InfersSoundly (values : List (List Char)) : Prop :=
  ∀ v ∈ values, strip v ≠ [] → ∃ p, convertValue v (inferType values) = .ok p

/-- At most one dash, and no more decimal digits than `int()` reads. -/
def IsIntegerText (v : List Char) : Prop :=
  (v.takeWhile (· == '-')).length ≤ 1 ∧ (v.dropWhile (· == '-')).length ≤ maxStrDigits ∧
    ∀ c ∈ v.dropWhile (· == '-'), (decimalDigit? c).isSome = true

/-- The values are boolean words; or those that are all digits are integers, and those that are all decimals fit
a `Decimal`. -/
def Inferable (values : List (List Char)) : Prop :=
  (∀ v ∈ nonEmpty values, lower v ∈ booleanValues) ∨
    ((∀ v ∈ nonEmpty values, isDashedDigits v = true) → ∀ v ∈ nonEmpty values, IsIntegerText v) ∧
      ((∀ v ∈ nonEmpty values, isDecimal v = true) → ∀ v ∈ nonEmpty values, FitsDecimal v)

end Imports
