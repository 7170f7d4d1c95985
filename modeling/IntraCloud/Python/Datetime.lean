import IntraCloud.Python.Numbers

/-!
# Dates and times as text

`datetime.date` and `datetime.datetime`, their `str`, and `datetime.strptime` for the directives `%Y`,
`%m`, `%d`, `%H`, `%M` and `%S`, whose regular expressions backtrack.
-/

namespace Python

def isLeap (year : Nat) : Bool := year % 4 == 0 && (year % 100 != 0 || year % 400 == 0)

/-- `_days_in_month`. -/
def daysInMonth (year month : Nat) : Nat :=
  if month = 2 then if isLeap year then 29 else 28
  else if month = 4 ∨ month = 6 ∨ month = 9 ∨ month = 11 then 30
  else 31

/-- `datetime.date`. -/
structure Date where
  year : Nat
  month : Nat
  day : Nat
  valid : (1 ≤ year ∧ year ≤ 9999) ∧ (1 ≤ month ∧ month ≤ 12) ∧ 1 ≤ day ∧
    day ≤ daysInMonth year month
  deriving DecidableEq

/-- `date(year, month, day)`; `none` stands for the `ValueError`. -/
def Date.of? (year month day : Nat) : Option Date :=
  if h : (1 ≤ year ∧ year ≤ 9999) ∧ (1 ≤ month ∧ month ≤ 12) ∧ 1 ≤ day ∧
      day ≤ daysInMonth year month then
    some ⟨year, month, day, h⟩
  else none

/-- The time of day of a `datetime`. -/
structure TimeOfDay where
  hour : Nat
  minute : Nat
  second : Nat
  microsecond : Nat
  valid : hour < 24 ∧ minute < 60 ∧ second < 60 ∧ microsecond < 1000000
  deriving DecidableEq

/-- The time of day of whole seconds; `none` stands for the `ValueError`. -/
def TimeOfDay.of? (hour minute second : Nat) : Option TimeOfDay :=
  if h : hour < 24 ∧ minute < 60 ∧ second < 60 ∧ 0 < 1000000 then
    some ⟨hour, minute, second, 0, h⟩
  else none

/-- A `datetime` without time zone. -/
structure NaiveDatetime where
  date : Date
  time : TimeOfDay
  deriving DecidableEq

/-! ## `str` -/

/-- The last `width` decimal digits of a number. -/
def padded : (width : Nat) → Nat → List Char
  | 0, _ => []
  | width + 1, n => padded width (n / 10) ++ [Nat.digitChar (n % 10)]

/-- `str(date)`. -/
def Date.text (d : Date) : List Char :=
  padded 4 d.year ++ '-' :: padded 2 d.month ++ '-' :: padded 2 d.day

/-- The time in `str(datetime)`: the microseconds appear where there are any. -/
def TimeOfDay.text (t : TimeOfDay) : List Char :=
  padded 2 t.hour ++ ':' :: padded 2 t.minute ++ ':' :: padded 2 t.second ++
    if t.microsecond = 0 then [] else '.' :: padded 6 t.microsecond

/-! ## `strptime` -/

/-- A piece of a format: a directive, a run of white space, or another character. -/
inductive Directive where
  | year
  | month
  | day
  | hour
  | minute
  | second
  | space
  | literal (c : Char)
  deriving DecidableEq, Repr

/-- `\d`, which matches any decimal digit of Unicode. -/
def digit (s : List Char) : List (Nat × List Char) :=
  match s with
  | [] => []
  | c :: s => (decimalDigit? c).toList.map fun d => (d, s)

/-- A character between two ASCII digits. -/
def between (low high : Char) (s : List Char) : List (Nat × List Char) :=
  match s with
  | [] => []
  | c :: s => if low ≤ c ∧ c ≤ high then [(c.toNat - 48, s)] else []

/-- Two matches in a row, as a two-digit number. -/
def both (first second : List Char → List (Nat × List Char)) (s : List Char) :
    List (Nat × List Char) :=
  (first s).flatMap fun (a, s) => (second s).map fun (b, s) => (10 * a + b, s)

/-- The ways a directive matches a prefix of the text, in the order the regular expression tries them. -/
def Directive.matches (s : List Char) : Directive → List (Nat × List Char)
  | .year => both (both (both digit digit) digit) digit s
  | .month => both (between '1' '1') (between '0' '2') s ++
      both (between '0' '0') (between '1' '9') s ++ between '1' '9' s
  | .day => both (between '3' '3') (between '0' '1') s ++ both (between '1' '2') digit s ++
      both (between '0' '0') (between '1' '9') s ++ between '1' '9' s ++
      (match s with
       | ' ' :: s => between '1' '9' s
       | _ => [])
  | .hour => both (between '2' '2') (between '0' '3') s ++ both (between '0' '1') digit s ++ digit s
  | .minute => both (between '0' '5') digit s ++ digit s
  | .second => both (between '6' '6') (between '0' '1') s ++ both (between '0' '5') digit s ++
      digit s
  | .space =>
    -- `\s+` is greedy: the longest run comes first
    let spaces := (s.takeWhile isSpace).length
    ((List.range spaces).reverse.map fun n => (0, s.drop (n + 1)))
  | .literal c =>
    match s with
    | [] => []
    | x :: s => if x.toLower = c.toLower then [(0, s)] else []

/-- The first match of a whole format, as the values of its directives and the rest of the text. -/
def matchFormat : List Directive → List Char → Option (List (Directive × Nat) × List Char)
  | [], s => some ([], s)
  | d :: ds, s =>
    (d.matches s).findSome? fun (n, s) =>
      (matchFormat ds s).map fun (values, s) => ((d, n) :: values, s)

/-- `datetime.strptime`; `none` stands for the `ValueError`. -/
def strptime (format : List Directive) (s : List Char) : Option NaiveDatetime :=
  match matchFormat format s with
  | some (values, []) =>
    let value := fun d (default : Nat) => (values.lookup d).getD default
    match Date.of? (value .year 1900) (value .month 1) (value .day 1),
      TimeOfDay.of? (value .hour 0) (value .minute 0) (value .second 0) with
    | some date, some time => some ⟨date, time⟩
    | _, _ => none
  | _ => none

end Python
