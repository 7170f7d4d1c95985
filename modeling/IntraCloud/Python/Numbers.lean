import IntraCloud.Python.Text

/-!
# Python numbers as text

`int(text)`, `str(int)`, `Decimal(text)` and `str(Decimal)`.
-/

namespace Python

/-- `str(n)` of a natural number. -/
def natText (n : Nat) : List Char := Nat.toDigits 10 n

/-- `str(n)`. -/
def intText : Int → List Char
  | .ofNat n => natText n
  | .negSucc n => '-' :: natText (n + 1)

/-- An optional sign, and what follows it. -/
def takeSign : List Char → Bool × List Char
  | '-' :: s => (true, s)
  | '+' :: s => (false, s)
  | s => (false, s)

/-- The digits after a digit: single underscores may stand between digits. -/
def restDigits? : List Char → Option (List Nat)
  | [] => some []
  | '_' :: c :: s => do
    let d ← decimalDigit? c
    let ds ← restDigits? s
    return d :: ds
  | c :: s => do
    let d ← decimalDigit? c
    let ds ← restDigits? s
    return d :: ds

/-- A digit string of an integer literal. -/
def digits? : List Char → Option (List Nat)
  | [] => none
  | c :: s => do
    let d ← decimalDigit? c
    let ds ← restDigits? s
    return d :: ds

/-- The number a digit string stands for. -/
def ofDigits (ds : List Nat) : Nat := ds.foldl (fun n d => 10 * n + d) 0

/-- `sys.int_info.default_max_str_digits`. -/
def maxStrDigits : Nat := 4300

/-- `int(s)` for a stripped `s`; `none` stands for the `ValueError`. -/
def parseInt? (s : List Char) : Option Int :=
  let (negative, s) := takeSign s
  match digits? s with
  | none => none
  | some ds =>
    if maxStrDigits < ds.length then none
    else some (if negative then -(ofDigits ds : Int) else ofDigits ds)

/-- `decimal.Decimal`. A finite one is `(-1)^negative * coefficient * 10^exponent`. -/
inductive Decimal where
  | finite (negative : Bool) (coefficient : Nat) (exponent : Int)
  | infinity (negative : Bool)
  | nan (negative signaling : Bool) (payload : Nat)
  deriving DecidableEq, Repr

/-- `numeric_as_ascii`: underscores go, decimal digits become ASCII, any other non-ASCII character
becomes a question mark. -/
def numericAsAscii (s : List Char) : List Char :=
  (s.filter (· ≠ '_')).map fun c =>
    match decimalDigit? c with
    | some d => Nat.digitChar d
    | none => if c.toNat < 128 then c else '?'

/-- The largest adjusted exponent and the smallest exponent of a `Decimal`. -/
def maxEmax : Int := 999999999999999999

def minEtiny : Int := -1999999999999999997

/-- A finite number in the exponent range. -/
def finiteDecimal? (negative : Bool) (coefficient : Nat) (exponent : Int) : Option Decimal :=
  if exponent + (natText coefficient).length - 1 ≤ maxEmax ∧ minEtiny ≤ exponent then
    some (.finite negative coefficient exponent)
  else none

/-- The exponent part: digits with an optional sign. -/
def exponent? (s : List Char) : Option Int :=
  let (negative, s) := takeSign s
  if s ≠ [] ∧ s.all isDigit then
    let n := Nat.ofDigitChars 10 s 0
    some (if negative then -(n : Int) else n)
  else none

/-- Digits with an optional point, and an optional exponent part. -/
def parseFinite? (negative : Bool) (s : List Char) : Option Decimal :=
  let isE := fun c => c == 'e' || c == 'E'
  let mantissa := s.takeWhile (!isE ·)
  let tail := s.dropWhile (!isE ·)
  let whole := mantissa.takeWhile (· ≠ '.')
  let fraction := (mantissa.dropWhile (· ≠ '.')).drop 1
  let digits := whole ++ fraction
  if digits ≠ [] ∧ digits.all isDigit then
    match (if tail = [] then some 0 else exponent? (tail.drop 1)) with
    | none => none
    | some e => finiteDecimal? negative (Nat.ofDigitChars 10 digits 0) (e - fraction.length)
  else none

/-- `Decimal(s)`; `none` stands for `InvalidOperation`. -/
def parseDecimal? (s : List Char) : Option Decimal :=
  let (negative, s) := takeSign (numericAsAscii (strip s))
  let low := lower s
  if low = "inf".toList ∨ low = "infinity".toList then some (.infinity negative)
  else if low.take 3 = "nan".toList ∧ (s.drop 3).all isDigit then
    some (.nan negative false (Nat.ofDigitChars 10 (s.drop 3) 0))
  else if low.take 4 = "snan".toList ∧ (s.drop 4).all isDigit then
    some (.nan negative true (Nat.ofDigitChars 10 (s.drop 4) 0))
  else parseFinite? negative s

/-- `'%+d'`. -/
def signedText (n : Int) : List Char := if 0 ≤ n then '+' :: intText n else intText n

def signText (negative : Bool) : List Char := if negative then ['-'] else []

/-- `str(d)`: scientific notation where the exponent is positive or the number is very small. -/
def Decimal.text : Decimal → List Char
  | .infinity negative => signText negative ++ "Infinity".toList
  | .nan negative signaling payload =>
    signText negative ++ (if signaling then "sNaN".toList else "NaN".toList) ++
      (if payload = 0 then [] else natText payload)
  | .finite negative coefficient exponent =>
    let digits := natText coefficient
    let leftDigits := exponent + digits.length
    let dotPlace := if exponent ≤ 0 ∧ -6 < leftDigits then leftDigits else 1
    let body :=
      if dotPlace ≤ 0 then '0' :: '.' :: (List.replicate dotPlace.natAbs '0' ++ digits)
      else if (digits.length : Int) ≤ dotPlace then
        digits ++ List.replicate (dotPlace.toNat - digits.length) '0'
      else digits.take dotPlace.toNat ++ '.' :: digits.drop dotPlace.toNat
    signText negative ++ body ++
      (if leftDigits = dotPlace then [] else 'E' :: signedText (leftDigits - dotPlace))

end Python
