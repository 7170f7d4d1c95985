import IntraCloud.Python.Text

/-!
# UUIDs as text

`str(uuid.UUID(int=n))`: 32 hexadecimal digits in groups of 8, 4, 4, 4 and 12; and `uuid.UUID(text)`.
-/

namespace Python

/-- A lower-case hexadecimal digit. -/
def hexDigit (n : Nat) : Char := "0123456789abcdef".toList.getD (n % 16) '0'

/-- The last `width` hexadecimal digits of a number. -/
def hexText : (width : Nat) → Nat → List Char
  | 0, _ => []
  | width + 1, n => hexText width (n / 16) ++ [hexDigit n]

theorem length_hexText (width n : Nat) : (hexText width n).length = width := by
  induction width generalizing n with
  | zero => rfl
  | succ width ih => rw [hexText, List.length_append, ih, List.length_singleton]

/-- `str(UUID(int=n))`. -/
def uuidText (n : Nat) : List Char :=
  let hex := hexText 32 n
  hex.take 8 ++ '-' :: (hex.drop 8).take 4 ++ '-' :: (hex.drop 12).take 4 ++
    '-' :: (hex.drop 16).take 4 ++ '-' :: hex.drop 20

theorem length_uuidText (n : Nat) : (uuidText n).length = 36 := by
  simp only [uuidText, List.length_append, List.length_cons, List.length_take, List.length_drop,
    length_hexText]
  rfl

/-- `text.replace(old, '')`: `skip` characters of an occurrence are still to go. -/
def removeAll (old : List Char) : (skip : Nat) → List Char → List Char
  | _, [] => []
  | skip + 1, _ :: s => removeAll old skip s
  | 0, c :: s =>
    if old.isPrefixOf (c :: s) then removeAll old (old.length - 1) s else c :: removeAll old 0 s

/-- `text.strip('\x7b\x7d')`. -/
def stripBraces (s : List Char) : List Char :=
  let isBrace := fun c : Char => c.toNat == 123 || c.toNat == 125
  ((s.dropWhile isBrace).reverse.dropWhile isBrace).reverse

/-- A digit of base 16: a decimal digit of Unicode or an ASCII letter. -/
def hexDigit? (c : Char) : Option Nat :=
  match decimalDigit? c with
  | some d => some d
  | none =>
    if 'a' ≤ c ∧ c ≤ 'f' then some (c.toNat - 87)
    else if 'A' ≤ c ∧ c ≤ 'F' then some (c.toNat - 55)
    else none

/-- The digits after a digit: single underscores may stand between digits. -/
def restHexDigits? : List Char → Option (List Nat)
  | [] => some []
  | '_' :: c :: s => do
    let d ← hexDigit? c
    let ds ← restHexDigits? s
    return d :: ds
  | c :: s => do
    let d ← hexDigit? c
    let ds ← restHexDigits? s
    return d :: ds

/-- `int(text, 16)` without a sign; `none` stands for the `ValueError`. A negative number is no UUID. -/
def parseHex? (s : List Char) : Option Nat :=
  let s := strip s
  let s := if s.head? = some '+' then s.drop 1 else s
  let prefixed := s.take 2 = ['0', 'x'] ∨ s.take 2 = ['0', 'X']
  let s := if prefixed then s.drop 2 else s
  let s := if prefixed ∧ s.head? = some '_' then s.drop 1 else s
  match s with
  | [] => none
  | c :: s => do
    let d ← hexDigit? c
    let ds ← restHexDigits? s
    return (d :: ds).foldl (fun n d => 16 * n + d) 0

/-- `uuid.UUID(text)`; `none` stands for the `ValueError`. Thirty-two digits never pass 128 bits. -/
def parseUuid? (s : List Char) : Option Nat :=
  let hex := removeAll "uuid:".toList 0 (removeAll "urn:".toList 0 s)
  let hex := removeAll ['-'] 0 (stripBraces hex)
  if hex.length ≠ 32 then none else parseHex? hex

end Python
