import IntraCloud.Python.Codecs

/-!
# Base32

`base64.b32encode` and `base64.b32decode`: five bytes are eight characters, and the last group is padded.
-/

namespace Python

/-- `_b32alphabet`. -/
def b32alphabet : List Char := "ABCDEFGHIJKLMNOPQRSTUVWXYZ234567".toList

/-- A character of the alphabet. -/
def b32Char (d : Nat) : Char := b32alphabet.getD d 'A'

/-- `b32rev`. -/
def b32rev? (c : Char) : Option Nat := b32alphabet.findIdx? (· == c)

/-- Two characters of `b32tab2`. -/
def b32Pair (n : Nat) : List Char := [b32Char (n / 32), b32Char (n % 32)]

/-- The characters of 40 bits. -/
def b32Quantum (n : Nat) : List Char :=
  b32Pair (n / 1073741824) ++ b32Pair (n / 1048576 % 1024) ++ b32Pair (n / 1024 % 1024) ++ b32Pair (n % 1024)

/-- The loop of `b32encode` over whole groups. -/
def b32Quanta : Bytes → List Char
  | a :: b :: c :: d :: e :: s => b32Quantum (fromBytes [a, b, c, d, e]) ++ b32Quanta s
  | _ => []

/-- The padding characters of a last group of so many bytes. -/
def b32Padding : Nat → Nat
  | 1 => 6
  | 2 => 4
  | 3 => 3
  | 4 => 1
  | _ => 0

/-- `base64.b32encode`. -/
def b32encode (s : Bytes) : List Char :=
  let leftover := s.length % 5
  let padded := if leftover = 0 then s else s ++ List.replicate (5 - leftover) 0
  let encoded := b32Quanta padded
  encoded.take (encoded.length - b32Padding leftover) ++ List.replicate (b32Padding leftover) '='

/-- `s.rstrip("=")`. -/
def rstripEquals (s : List Char) : List Char := (s.reverse.dropWhile (· == '=')).reverse

/-- The number of a group of characters. -/
def b32Value? (s : List Char) : Option Nat :=
  s.foldlM (fun acc c => (b32rev? c).map fun d => 32 * acc + d) 0

/-- The loop of `b32decode`, with the number of the last group. -/
def b32Groups? : List Char → Option (Bytes × Nat)
  | [] => some ([], 0)
  | c₀ :: c₁ :: c₂ :: c₃ :: c₄ :: c₅ :: c₆ :: c₇ :: s => do
    let acc ← b32Value? [c₀, c₁, c₂, c₃, c₄, c₅, c₆, c₇]
    let bytes ← toBytes? 5 acc
    let (more, last) ← b32Groups? s
    return (bytes ++ more, if s.isEmpty then acc else last)
  | s => do
    let acc ← b32Value? s
    let bytes ← toBytes? 5 acc
    return (bytes, acc)

/-- `base64.b32decode`; `none` stands for `binascii.Error`. -/
def b32decode (s : List Char) : Option Bytes :=
  if s.length % 8 ≠ 0 then none
  else
    let stripped := rstripEquals s
    let padchars := s.length - stripped.length
    match b32Groups? stripped with
    | none => none
    | some (decoded, acc) =>
      if !List.contains [0, 1, 3, 4, 6] padchars then none
      else if padchars = 0 ∨ decoded = [] then some decoded
      else
        (toBytes? 5 (acc * Nat.pow 32 padchars)).map fun last =>
          decoded.take (decoded.length - 5) ++ last.take ((43 - 5 * padchars) / 8)

end Python
