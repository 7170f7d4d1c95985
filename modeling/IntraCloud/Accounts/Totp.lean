import IntraCloud.Python.Numbers

/-!
# One-time codes

`accounts/totp.py`: the code of a counter, and the check of a code in the window around the current
one. HMAC-SHA1 under the decoded secret is a parameter; what is made of its digest is not.
-/

namespace Accounts

open Python

/-- A base-32 secret. -/
abbrev Secret := List Char

/-- The digest of a counter under a secret. -/
abbrev Hmac := Secret → Nat → List UInt8

/-- `_DIGITS`. -/
def DIGITS : Nat := 6

/-- `_PERIOD_SECONDS`. -/
def PERIOD_SECONDS : Nat := 30

/-- `_VERIFY_WINDOW`. -/
def VERIFY_WINDOW : Nat := 1

/-- `str.zfill` of an unsigned number. -/
def zfill (width : Nat) (s : List Char) : List Char := List.replicate (width - s.length) '0' ++ s

/-- `_hotp`. `struct.pack` refuses a counter that is negative or takes more than eight bytes. -/
def hotp (hmac : Hmac) (secret : Secret) (counter : Int) : Option (List Char) :=
  if 0 ≤ counter ∧ counter < 18446744073709551616 then
    let digest := hmac secret counter.toNat
    let offset := (digest.getLastD 0).toNat % 16
    let word := ((digest.drop offset).take 4).foldl (fun n b => 256 * n + b.toNat) 0
    some (zfill DIGITS (natText (word % 2147483648 % 1000000)))
  else none

/-- `generate_totp`. -/
def generateTotp (hmac : Hmac) (secret : Secret) (time : Nat) : Option (List Char) :=
  hotp hmac secret (time / PERIOD_SECONDS : Nat)

/-- The digits of Unicode that are not decimal digits: superscripts, circled digits and their like. -/
def otherDigits : List (Nat × Nat) :=
  [(0xB2, 0xB3), (0xB9, 0xB9), (0x1369, 0x1371), (0x19DA, 0x19DA), (0x2070, 0x2070), (0x2074, 0x2079),
    (0x2080, 0x2089), (0x2460, 0x2468), (0x2474, 0x247C), (0x2488, 0x2490), (0x24EA, 0x24EA),
    (0x24F5, 0x24FD), (0x24FF, 0x24FF), (0x2776, 0x277E), (0x2780, 0x2788), (0x278A, 0x2792),
    (0x10A40, 0x10A43), (0x10E60, 0x10E68), (0x11052, 0x1105A), (0x1F100, 0x1F10A)]

/-- `str.isdigit()`. -/
def isDigitText (s : List Char) : Bool :=
  !s.isEmpty && s.all fun c =>
    (decimalDigit? c).isSome || otherDigits.any fun (first, last) => first ≤ c.toNat && c.toNat ≤ last

/-- `hmac.compare_digest` of two strings: it raises where one of them is not ASCII. -/
def compareDigest (s t : List Char) : Option Bool :=
  if (s ++ t).all fun c => c.toNat < 128 then some (s == t) else none

/-- `any` of comparisons that may raise. -/
def anyOf : List (Option Bool) → Option Bool
  | [] => some false
  | none :: _ => none
  | some true :: _ => some true
  | some false :: rest => anyOf rest

/-- `verify_totp`, `none` where it raises. -/
def verifyTotp (hmac : Hmac) (secret : Secret) (code : List Char) (now : Nat) : Option Bool :=
  if code = [] ∨ ¬ isDigitText code ∨ code.length ≠ DIGITS then some false
  else
    let counter : Int := (now / PERIOD_SECONDS : Nat)
    anyOf ((List.range (2 * VERIFY_WINDOW + 1)).map fun i : Nat =>
      (hotp hmac secret (counter + i - VERIFY_WINDOW)).bind fun expected => compareDigest expected code)

end Accounts
