import IntraCloud.Python.Numbers

/-!
# Integers as numbers of JavaScript

A number is a double. What `JSON.parse` and `parseInt` make of the digits of an integer is the nearest double, and
what `String` and `JSON.stringify` write are the fewest digits that read as the double, with zeros behind them. The
integers here are far below `10^21`, from which on a number is written with an exponent.
-/

namespace JavaScript

open Python

/-- The distance of the doubles next to `n`: they have 53 binary digits. -/
def spacing (n : Nat) : Nat := Nat.pow 2 (Nat.log2 n + 1 - 53)

/-- The double nearest to `n`; of two, the one whose last digit is even. -/
def nearest (n : Nat) : Nat :=
  let quotient := n / spacing n
  let remainder := n % spacing n
  if spacing n < 2 * remainder ∨ spacing n = 2 * remainder ∧ quotient % 2 = 1 then (quotient + 1) * spacing n
  else quotient * spacing n

/-- Of the integers that end in so many zeros and read as the double, the one nearest to it; with one zero less
where there is none. -/
def shortest (double : Nat) : Nat → Nat
  | 0 => double
  | zeros + 1 =>
    let below := double / Nat.pow 10 (zeros + 1) * Nat.pow 10 (zeros + 1)
    let above := below + Nat.pow 10 (zeros + 1)
    if nearest below = double ∧ (nearest above ≠ double ∨ double - below ≤ above - double) then below
    else if nearest above = double then above
    else shortest double zeros

/-- The integer that is written for a double. -/
def written (double : Nat) : Nat := shortest double (natText double).length

/-- The same on both sides of zero. -/
def signed (f : Nat → Nat) : Int → Int
  | .ofNat n => f n
  | .negSucc n => -f (n + 1)

/-- The number that the digits of an integer read as. -/
def readInteger : Int → Int := signed nearest

/-- The integer that is written for a number. -/
def writeInteger : Int → Int := signed written

/-- `parseInt(s, 10)` of an optional sign and digits; nothing stands for `NaN`. -/
def parseInt (s : List Char) : Option Int :=
  let (negative, rest) := takeSign s
  let digits := rest.takeWhile isDigit
  if digits = [] then none
  else
    let n := readInteger (Nat.ofDigitChars 10 digits 0)
    some (if negative then -n else n)

end JavaScript
