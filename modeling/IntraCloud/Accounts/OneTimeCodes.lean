import IntraCloud.Accounts.Totp
import IntraCloud.Python.Base32
import Mathlib.Data.Rat.Floor

/-!
# One-time codes of the standard

What `accounts/totp.py` makes of a secret that it has generated and of any time, and the codes of RFC 6238 with
SHA-1. HMAC-SHA-1 is a parameter, with its key and its message.
-/

namespace Accounts

open Python

/-- HMAC-SHA-1 of a key and a message. -/
abbrev HmacSha1 := Bytes → Bytes → Bytes

/-- `generate_secret`, where `token` is `secrets.token_bytes(20)`. -/
def generateSecret (token : Bytes) : Secret := rstripEquals (b32encode token)

/-- `base64.b32decode(secret_b32 + padding)`. -/
def secretKey? (secret : Secret) : Option Bytes :=
  b32decode (secret ++ List.replicate ((8 - secret.length % 8) % 8) '=')

/-- The digest that `_hotp` truncates, of a secret that can be decoded and a counter of eight bytes. -/
def hmacOf (hmacSha1 : HmacSha1) : Hmac := fun secret counter =>
  hmacSha1 ((secretKey? secret).getD []) ((toBytes? 8 counter).getD [])

/-- `int(now // _PERIOD_SECONDS)`. -/
def counterAt (time : ℚ) : Int := ⌊time / PERIOD_SECONDS⌋

/-- `generate_totp` with `for_time`. -/
def generateTotpAt (hmac : Hmac) (secret : Secret) (time : ℚ) : Option (List Char) :=
  hotp hmac secret (counterAt time)

/-- `verify_totp` with `for_time`, `none` where it raises. -/
def verifyTotpAt (hmac : Hmac) (secret : Secret) (code : List Char) (time : ℚ) : Option Bool :=
  if code = [] ∨ ¬ isDigitText code ∨ code.length ≠ DIGITS then some false
  else
    anyOf ((List.range (2 * VERIFY_WINDOW + 1)).map fun i : Nat =>
      (hotp hmac secret (counterAt time + i - VERIFY_WINDOW)).bind fun expected => compareDigest expected code)

/-! ## The standard -/

/-- The dynamic truncation of RFC 4226: 31 bits from where the last byte points. -/
def dynamicTruncation (digest : Bytes) : Nat :=
  let offset := (digest.getD 19 0).toNat % 16
  let byte (i : Nat) := (digest.getD (offset + i) 0).toNat
  byte 0 % 128 * 16777216 + byte 1 * 65536 + byte 2 * 256 + byte 3

/-- So many decimal digits of a number. -/
def fixedDigits : Nat → Nat → List Char
  | 0, _ => []
  | width + 1, n => fixedDigits width (n / 10) ++ [Nat.digitChar (n % 10)]

/-- The code of RFC 6238 for a counter, which is a message of eight bytes. -/
def standardCode (hmacSha1 : HmacSha1) (key : Bytes) (counter : Int) : Option (List Char) :=
  if counter < 0 then none
  else
    (toBytes? 8 counter.toNat).map fun message =>
      fixedDigits DIGITS (dynamicTruncation (hmacSha1 key message) % 1000000)

/-- The code is that of the time's counter, the one before it, or the one after it. -/
def IsCodeNear (hmacSha1 : HmacSha1) (key : Bytes) (time : ℚ) (code : List Char) : Prop :=
  ∃ counter, |counter - counterAt time| ≤ 1 ∧ standardCode hmacSha1 key counter = some code

/-- `verify_totp` returns, and says whether the code is one of the three. -/
def VerifiesCode (hmacSha1 : HmacSha1) (token : Bytes) (time : ℚ) (code : List Char) : Prop :=
  ∃ verified, verifyTotpAt (hmacOf hmacSha1) (generateSecret token) code time = some verified ∧
    (verified = true ↔ IsCodeNear hmacSha1 token time code)

/-- The code is not six digits of any kind; or they are ASCII, and there are counters up to the one after the
time's, or a code before it that is the one. -/
def Verifiable (hmacSha1 : HmacSha1) (token : Bytes) (time : ℚ) (code : List Char) : Prop :=
  ¬ (isDigitText code = true ∧ code.length = DIGITS) ∨
    (∀ c ∈ code, c.toNat < 128) ∧
      (counterAt time + 1 < 18446744073709551616 ∨
        ∃ counter, (counter = counterAt time - 1 ∨ counter = counterAt time) ∧
          standardCode hmacSha1 token counter = some code)

end Accounts
