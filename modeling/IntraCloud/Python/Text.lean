/-!
# Python text

`str` as a list of characters: `str.isspace`, `str.strip`, `str.lower`, and the decimal digits of
Unicode that `int` and `Decimal` accept.
-/

namespace Python

/-- `str.isspace` of one character. -/
def isSpace (c : Char) : Bool :=
  let n := c.toNat
  (9 ≤ n && n ≤ 13) || (28 ≤ n && n ≤ 32) || n == 0x85 || n == 0xA0 || n == 0x1680 ||
    (0x2000 ≤ n && n ≤ 0x200A) || n == 0x2028 || n == 0x2029 || n == 0x202F || n == 0x205F ||
    n == 0x3000

/-- `str.strip()`. -/
def strip (s : List Char) : List Char :=
  ((s.dropWhile isSpace).reverse.dropWhile isSpace).reverse

/-- `str.lower()` of the ASCII letters; no other character lowers to one of them but U+212A (to `k`)
and U+0130 (to `i` and a combining dot). -/
def lower (s : List Char) : List Char := s.map Char.toLower

/-- The zeros of the Unicode decimal digits (category `Nd`), ten consecutive code points each. -/
def digitZeros : List Nat :=
  [0x30, 0x660, 0x6F0, 0x7C0, 0x966, 0x9E6, 0xA66, 0xAE6, 0xB66, 0xBE6, 0xC66, 0xCE6, 0xD66, 0xDE6,
    0xE50, 0xED0, 0xF20, 0x1040, 0x1090, 0x17E0, 0x1810, 0x1946, 0x19D0, 0x1A80, 0x1A90, 0x1B50,
    0x1BB0, 0x1C40, 0x1C50, 0xA620, 0xA8D0, 0xA900, 0xA9D0, 0xA9F0, 0xAA50, 0xABF0, 0xFF10, 0x104A0,
    0x10D30, 0x11066, 0x110F0, 0x11136, 0x111D0, 0x112F0, 0x11450, 0x114D0, 0x11650, 0x116C0,
    0x11730, 0x118E0, 0x11950, 0x11C50, 0x11D50, 0x11DA0, 0x11F50, 0x16A60, 0x16AC0, 0x16B50,
    0x1D7CE, 0x1D7D8, 0x1D7E2, 0x1D7EC, 0x1D7F6, 0x1E140, 0x1E2F0, 0x1E4F0, 0x1E950, 0x1FBF0]

/-- The value of a Unicode decimal digit. -/
def decimalDigit? (c : Char) : Option Nat :=
  (digitZeros.find? fun z => z ≤ c.toNat && c.toNat < z + 10).map fun z => c.toNat - z

/-- An ASCII digit. -/
def isDigit (c : Char) : Bool := '0' ≤ c && c ≤ '9'

/-- `bytes.splitlines()` after the line `line`; a line feed right after a carriage return ends no line. -/
def splitlinesFrom (line : List UInt8) (afterReturn : Bool) : List UInt8 → List (List UInt8)
  | [] => if line = [] then [] else [line]
  | b :: bytes =>
    if b = 10 then
      if afterReturn then splitlinesFrom [] false bytes else line :: splitlinesFrom [] false bytes
    else if b = 13 then line :: splitlinesFrom [] true bytes
    else splitlinesFrom (line ++ [b]) false bytes

/-- `bytes.splitlines()`. -/
def splitlines (bytes : List UInt8) : List (List UInt8) := splitlinesFrom [] false bytes

end Python
