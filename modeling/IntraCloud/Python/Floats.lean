import IntraCloud.Python.Codecs
import IntraCloud.Python.Numbers

/-!
# The text of a `float`

Which strings `float(text)` reads: it refuses none for its size.
-/

namespace Python

/-- `_PyUnicode_TransformDecimalAndSpaceToASCII`: decimal digits and white space become ASCII, any other
non-ASCII character becomes a question mark. -/
def decimalAndSpaceToAscii (s : List Char) : List Char :=
  s.map fun c =>
    if c.toNat < 128 then c
    else if isSpace c then ' '
    else
      match decimalDigit? c with
      | some d => Nat.digitChar d
      | none => '?'

/-- The white space of ASCII goes from both ends. -/
def stripAscii (s : List Char) : List Char :=
  ((s.dropWhile isAsciiSpace).reverse.dropWhile isAsciiSpace).reverse

/-- `_Py_string_to_number_with_underscores` after the character `prev`: an underscore stands between two
digits. -/
def dropUnderscores? (prev : Char) : List Char → Option (List Char)
  | [] => if prev = '_' then none else some []
  | c :: s =>
    if c = '_' then
      if isDigit prev then dropUnderscores? '_' s else none
    else if prev = '_' ∧ isDigit c = false then none
    else (dropUnderscores? c s).map (c :: ·)

/-- The coefficient and the exponent of a number without a sign: digits with an optional point, and an optional
exponent part. -/
def literalParts? (s : List Char) : Option (Nat × Int) :=
  let isE := fun c => c == 'e' || c == 'E'
  let mantissa := s.takeWhile (!isE ·)
  let tail := s.dropWhile (!isE ·)
  let whole := mantissa.takeWhile (· ≠ '.')
  let fraction := (mantissa.dropWhile (· ≠ '.')).drop 1
  let digits := whole ++ fraction
  if digits ≠ [] ∧ digits.all isDigit then
    (if tail = [] then some 0 else exponent? (tail.drop 1)).map fun e =>
      (Nat.ofDigitChars 10 digits 0, e - fraction.length)
  else none

/-- What `_Py_parse_inf_or_nan` reads after the sign. -/
def infOrNan : List (List Char) := ["inf".toList, "infinity".toList, "nan".toList]

/-- `PyOS_string_to_double` reads the whole text. -/
def isFloatLiteral (s : List Char) : Bool :=
  let unsigned := (takeSign s).2
  (literalParts? unsigned).isSome || infOrNan.contains (lower unsigned)

/-- `float(s)` raises no `ValueError`. -/
def isFloatText (s : List Char) : Bool :=
  (dropUnderscores? '\x00' (stripAscii (decimalAndSpaceToAscii s))).any isFloatLiteral

/-- What is left of the text of a number without its underscores and its sign, in ASCII. -/
def unsignedNumber (s : List Char) : List Char := (takeSign (numericAsAscii s)).2

/-- If the text is a finite number then its coefficient and its exponent fit a `Decimal`. -/
def FitsDecimal (s : List Char) : Prop :=
  ∀ coefficient exponent, literalParts? (unsignedNumber s) = some (coefficient, exponent) →
    exponent + (natText coefficient).length - 1 ≤ maxEmax ∧ minEtiny ≤ exponent

end Python
