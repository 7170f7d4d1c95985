import IntraCloud.Python.JsonText

/-!
# Bytes and text

`str.encode`, `bytes.decode`, `bytes.hex`, `bytes.fromhex`, big-endian integers, and `json.loads` of
bytes, which finds their encoding out.
-/

namespace Python

abbrev Bytes := List UInt8

/-! ## UTF-8 -/

/-- `text.encode("utf-8")`. -/
def utf8Encode (s : List Char) : Bytes := s.flatMap String.utf8EncodeChar

/-- The character of a code point: a surrogate is what `lone` says, or an error. -/
def codePoint? (lone : Option Char) (n : Nat) : Option Char :=
  if n < 0xD800 ∨ 0xE000 ≤ n ∧ n < 0x110000 then some (Char.ofNat n)
  else if n < 0xE000 then lone
  else none

/-- A character before a text. -/
def consChar (c : Option Char) (s : Option (List Char)) : Option (List Char) :=
  match c, s with
  | some c, some s => some (c :: s)
  | _, _ => none

/-- A UTF-8 decoder, in a character of which `need` bytes are still to come, of value at least `least`,
after bytes of value `value`. -/
def utf8Decode (lone : Option Char) : (need least value : Nat) → Bytes → Option (List Char)
  | 0, _, _, [] => some []
  | _ + 1, _, _, [] => none
  | 0, _, _, b :: bytes =>
    let n := b.toNat
    if n < 0x80 then consChar (codePoint? lone n) (utf8Decode lone 0 0 0 bytes)
    else if n < 0xC0 then none
    else if n < 0xE0 then utf8Decode lone 1 0x80 (n - 0xC0) bytes
    else if n < 0xF0 then utf8Decode lone 2 0x800 (n - 0xE0) bytes
    else if n < 0xF8 then utf8Decode lone 3 0x10000 (n - 0xF0) bytes
    else none
  | need + 1, least, value, b :: bytes =>
    let n := b.toNat
    if 0x80 ≤ n ∧ n < 0xC0 then
      let value := 64 * value + (n - 0x80)
      if need = 0 then
        if least ≤ value then consChar (codePoint? lone value) (utf8Decode lone 0 0 0 bytes) else none
      else utf8Decode lone need least value bytes
    else none

/-- The byte is in the middle of a character. -/
def isContinuation (b : UInt8) : Bool := 0x80 ≤ b.toNat && b.toNat < 0xC0

/-- The first `n` bytes end where a character ends. -/
def OnBoundary (n : Nat) (bytes : Bytes) : Prop := ∀ b, bytes[n]? = some b → isContinuation b = false

/-- `bytes.decode("utf-8")`; `none` stands for the `UnicodeDecodeError`. -/
def decodeUtf8 (bytes : Bytes) : Option (List Char) := utf8Decode none 0 0 0 bytes

/-- The byte order mark of UTF-8. -/
def utf8Mark : Bytes := [0xEF, 0xBB, 0xBF]

/-- `bytes.decode("utf-8-sig")`. -/
def decodeUtf8Sig (bytes : Bytes) : Option (List Char) :=
  decodeUtf8 (if bytes.take 3 = utf8Mark then bytes.drop 3 else bytes)

/-- `bytes.decode("latin-1")`. -/
def decodeLatin1 (bytes : Bytes) : List Char := bytes.map fun b => Char.ofNat b.toNat

/-! ## UTF-16 and UTF-32 -/

/-- Code units of two bytes. -/
def units16 (little : Bool) : Bytes → Option (List Nat)
  | [] => some []
  | a :: b :: bytes =>
    (units16 little bytes).map fun units =>
      (if little then a.toNat + 256 * b.toNat else 256 * a.toNat + b.toNat) :: units
  | _ => none

/-- Code units of four bytes. -/
def units32 (little : Bool) : Bytes → Option (List Nat)
  | [] => some []
  | a :: b :: c :: d :: bytes =>
    (units32 little bytes).map fun units =>
      (if little then a.toNat + 256 * (b.toNat + 256 * (c.toNat + 256 * d.toNat))
        else d.toNat + 256 * (c.toNat + 256 * (b.toNat + 256 * a.toNat))) :: units
  | _ => none

/-- The text of UTF-16 code units. A lone surrogate is `lone`. -/
def utf16Decode (lone : Char) : List Nat → List Char
  | [] => []
  | [unit] => [(codePoint? (some lone) unit).getD lone]
  | high :: low :: units =>
    if 0xD800 ≤ high ∧ high < 0xDC00 ∧ 0xDC00 ≤ low ∧ low < 0xE000 then
      Json.joinSurrogates high low :: utf16Decode lone units
    else (codePoint? (some lone) high).getD lone :: utf16Decode lone (low :: units)

/-- The text of UTF-32 code units. -/
def utf32Decode (lone : Char) (units : List Nat) : Option (List Char) :=
  units.mapM (codePoint? (some lone))

/-! ## JSON -/

/-- What `json.detect_encoding` says. -/
inductive Encoding where
  | utf8 | utf16 (little : Bool) | utf32 (little : Bool)
  deriving DecidableEq, Repr

/-- `json.detect_encoding`, and the bytes after the byte order mark that goes with it. -/
def detectEncoding (b : Bytes) : Encoding × Bytes :=
  if b.take 4 = [0, 0, 0xFE, 0xFF] then (.utf32 false, b.drop 4)
  else if b.take 4 = [0xFF, 0xFE, 0, 0] then (.utf32 true, b.drop 4)
  else if b.take 2 = [0xFE, 0xFF] then (.utf16 false, b.drop 2)
  else if b.take 2 = [0xFF, 0xFE] then (.utf16 true, b.drop 2)
  else if b.take 3 = [0xEF, 0xBB, 0xBF] then (.utf8, b.drop 3)
  else
    match b with
    | b0 :: b1 :: b2 :: b3 :: _ =>
      if b0 = 0 then (if b1 ≠ 0 then .utf16 false else .utf32 false, b)
      else if b1 = 0 then (if b2 ≠ 0 ∨ b3 ≠ 0 then .utf16 true else .utf32 true, b)
      else (.utf8, b)
    | [b0, b1] =>
      if b0 = 0 then (.utf16 false, b)
      else if b1 = 0 then (.utf16 true, b)
      else (.utf8, b)
    | _ => (.utf8, b)

/-- What stands for a surrogate that `surrogatepass` lets through. -/
def REPLACEMENT : Char := '\uFFFD'

/-- `bytes.decode(detect_encoding(bytes), "surrogatepass")`. -/
def decodeJson (b : Bytes) : Option (List Char) :=
  let (encoding, b) := detectEncoding b
  match encoding with
  | .utf8 => utf8Decode (some REPLACEMENT) 0 0 0 b
  | .utf16 little => (units16 little b).map (utf16Decode REPLACEMENT)
  | .utf32 little => (units32 little b).bind (utf32Decode REPLACEMENT)

/-- `json.loads` of bytes; `none` stands for the `ValueError`. -/
def Json.loadBytes (b : Bytes) : Option PyJson := (decodeJson b).bind (Json.loadsWith (some REPLACEMENT))

/-- The value at a key of a `dict`. -/
def Json.member? (key : List Char) (members : List (List Char × PyJson)) : Option PyJson :=
  (members.find? (·.1 == key)).map (·.2)

/-! ## Hexadecimal -/

/-- `bytes.hex()`. -/
def hexOfBytes (b : Bytes) : List Char := b.flatMap fun b => hexText 2 b.toNat

/-- The white space `bytes.fromhex` skips. -/
def isAsciiSpace (c : Char) : Bool := c == ' ' || (9 ≤ c.toNat && c.toNat ≤ 13)

/-- `bytes.fromhex`; `none` stands for the `ValueError`. -/
def fromHex : List Char → Option Bytes
  | [] => some []
  | [c] => if isAsciiSpace c then some [] else none
  | c :: d :: s =>
    if isAsciiSpace c then fromHex (d :: s)
    else
      match Json.hexValue? c, Json.hexValue? d, fromHex s with
      | some high, some low, some bytes => some (UInt8.ofNat (16 * high + low) :: bytes)
      | _, _, _ => none

/-! ## Integers -/

/-- `n.to_bytes(width, "big")`; `none` stands for the `OverflowError`. -/
def toBytes? (width n : Nat) : Option Bytes :=
  match width with
  | 0 => if n = 0 then some [] else none
  | width + 1 => (toBytes? width (n / 256)).map fun bytes => bytes ++ [UInt8.ofNat (n % 256)]

/-- `int.from_bytes(bytes, "big")`. -/
def fromBytes (b : Bytes) : Nat := b.foldl (fun n b => 256 * n + b.toNat) 0

end Python
