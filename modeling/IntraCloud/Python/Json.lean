import IntraCloud.Python.Numbers

/-!
# `json.loads`

The scanner of `_json.c` over a list of characters. These hold no surrogates: what a lone surrogate
escape stands for is an argument, and where there is nothing, it counts as malformed.
-/

namespace Python

/-- What `json.loads` returns. A `float` keeps its literal. -/
inductive PyJson where
  | null
  | bool (b : Bool)
  | int (n : Int)
  | float (literal : List Char)
  | str (s : List Char)
  | list (items : List PyJson)
  | dict (members : List (List Char × PyJson))
  deriving Repr

namespace Json

/-- A hexadecimal digit of a `\u` escape. -/
def hexValue? (c : Char) : Option Nat :=
  if '0' ≤ c ∧ c ≤ '9' then some (c.toNat - 48)
  else if 'a' ≤ c ∧ c ≤ 'f' then some (c.toNat - 87)
  else if 'A' ≤ c ∧ c ≤ 'F' then some (c.toNat - 55)
  else none

/-- The code unit of four hexadecimal digits. -/
def codeUnit? (a b c d : Char) : Option Nat := do
  let a ← hexValue? a
  let b ← hexValue? b
  let c ← hexValue? c
  let d ← hexValue? d
  return 4096 * a + 256 * b + 16 * c + d

/-- The character of an escape of one letter. -/
def simpleEscape? : Char → Option Char
  | '"' => some '"'
  | '\\' => some '\\'
  | '/' => some '/'
  | 'b' => some '\x08'
  | 'f' => some '\x0c'
  | 'n' => some '\n'
  | 'r' => some '\r'
  | 't' => some '\t'
  | _ => none

/-- A character before the text of a string. -/
def prepend (c : Char) : Option (List Char × List Char) → Option (List Char × List Char)
  | none => none
  | some (text, rest) => some (c :: text, rest)

/-- What stands for a lone surrogate before the text of a string. -/
def prependLone (lone : Option Char) (text : Option (List Char × List Char)) :
    Option (List Char × List Char) :=
  match lone with
  | none => none
  | some c => prepend c text

/-- A high surrogate that no low one followed, before the text of a string. -/
def flush (lone : Option Char) (high : Option Nat) (text : Option (List Char × List Char)) :
    Option (List Char × List Char) :=
  match high with
  | none => text
  | some _ => prependLone lone text

/-- The character of a surrogate pair. -/
def joinSurrogates (high low : Nat) : Char :=
  Char.ofNat (0x10000 + 1024 * (high - 0xD800) + (low - 0xDC00))

/-- `scanstring`, strict, after the opening quote: the text and what follows the closing quote. The escape
of a high surrogate may have come just before. -/
def scanString (lone : Option Char) (high : Option Nat) :
    List Char → Option (List Char × List Char)
  | [] => none
  | '"' :: s => flush lone high (some ([], s))
  | '\\' :: 'u' :: a :: b :: c :: d :: s =>
    match codeUnit? a b c d with
    | none => none
    | some unit =>
      if 0xD800 ≤ unit ∧ unit < 0xDC00 then flush lone high (scanString lone (some unit) s)
      else if 0xDC00 ≤ unit ∧ unit < 0xE000 then
        match high with
        | some high => prepend (joinSurrogates high unit) (scanString lone none s)
        | none => prependLone lone (scanString lone none s)
      else flush lone high (prepend (Char.ofNat unit) (scanString lone none s))
  | '\\' :: c :: s =>
    match simpleEscape? c with
    | none => none
    | some c => flush lone high (prepend c (scanString lone none s))
  | c :: s =>
    if c.toNat ≤ 0x1f ∨ c = '\\' then none
    else flush lone high (prepend c (scanString lone none s))

/-- The white space of JSON. -/
def isWhitespace (c : Char) : Bool := c == ' ' || c == '\t' || c == '\n' || c == '\r'

def skipWhitespace (s : List Char) : List Char := s.dropWhile isWhitespace

/-- The longest run of ASCII digits, and what follows it. -/
def takeDigits (s : List Char) : List Char × List Char := (s.takeWhile isDigit, s.dropWhile isDigit)

/-- The fraction of a number literal, where there is one. -/
def takeFraction (s : List Char) : List Char × List Char :=
  match s with
  | '.' :: s' =>
    match takeDigits s' with
    | ([], _) => ([], s)
    | (digits, s') => ('.' :: digits, s')
  | _ => ([], s)

/-- The exponent of a number literal, where there is one. -/
def takeExponent (s : List Char) : List Char × List Char :=
  match s with
  | e :: s' =>
    if e = 'e' ∨ e = 'E' then
      let signAndRest : List Char × List Char :=
        match s' with
        | '+' :: s'' => (['+'], s'')
        | '-' :: s'' => (['-'], s'')
        | _ => ([], s')
      match takeDigits signAndRest.2 with
      | ([], _) => ([], s)
      | (digits, s'') => (e :: signAndRest.1 ++ digits, s'')
    else ([], s)
  | [] => ([], s)

/-- The integer part of a number literal without its sign. -/
def takeInteger (s : List Char) : Option (List Char × List Char) :=
  match s with
  | [] => none
  | c :: s' =>
    if c = '0' then some (['0'], s')
    else if isDigit c then some (takeDigits s)
    else none

/-- `_match_number`. -/
def scanNumber (s : List Char) : Option (PyJson × List Char) :=
  let signAndRest : List Char × List Char :=
    match s with
    | '-' :: s => (['-'], s)
    | _ => ([], s)
  match takeInteger signAndRest.2 with
  | none => none
  | some (digits, s) =>
    let fraction := takeFraction s
    let exponent := takeExponent fraction.2
    if fraction.1 = [] ∧ exponent.1 = [] then
      (parseInt? (signAndRest.1 ++ digits)).map fun n => (.int n, s)
    else some (.float (signAndRest.1 ++ digits ++ fraction.1 ++ exponent.1), exponent.2)

/-- The constants, and otherwise a number. -/
def scanScalar (s : List Char) : Option (PyJson × List Char) :=
  match s with
  | 'n' :: 'u' :: 'l' :: 'l' :: s => some (.null, s)
  | 't' :: 'r' :: 'u' :: 'e' :: s => some (.bool true, s)
  | 'f' :: 'a' :: 'l' :: 's' :: 'e' :: s => some (.bool false, s)
  | 'N' :: 'a' :: 'N' :: s => some (.float "NaN".toList, s)
  | 'I' :: 'n' :: 'f' :: 'i' :: 'n' :: 'i' :: 't' :: 'y' :: s => some (.float "Infinity".toList, s)
  | '-' :: 'I' :: 'n' :: 'f' :: 'i' :: 'n' :: 'i' :: 't' :: 'y' :: s =>
    some (.float "-Infinity".toList, s)
  | s => scanNumber s

/-- A member put into a `dict`: a key that is there keeps its place. -/
def setMember (key : List Char) (value : PyJson) :
    List (List Char × PyJson) → List (List Char × PyJson)
  | [] => [(key, value)]
  | (k, v) :: members => if k = key then (k, value) :: members else (k, v) :: setMember key value members

mutual

/-- `scan_once`. Every item and every level takes a character at least, so twice the length of the
text is fuel enough. -/
def scanOnce (lone : Option Char) : Nat → List Char → Option (PyJson × List Char)
  | 0, _ => none
  | fuel + 1, s =>
    match s with
    | [] => none
    | '"' :: s => (scanString lone none s).map fun (text, s) => (.str text, s)
    | '{' :: s =>
      match skipWhitespace s with
      | '}' :: s => some (.dict [], s)
      | s => (scanMembers lone fuel [] s).map fun (members, s) => (.dict members, s)
    | '[' :: s =>
      match skipWhitespace s with
      | ']' :: s => some (.list [], s)
      | s => (scanItems lone fuel s).map fun (items, s) => (.list items, s)
    | s => scanScalar s

/-- The members of an object after white space. -/
def scanMembers (lone : Option Char) : Nat → List (List Char × PyJson) → List Char →
    Option (List (List Char × PyJson) × List Char)
  | 0, _, _ => none
  | fuel + 1, members, s =>
    match s with
    | '"' :: s =>
      match scanString lone none s with
      | none => none
      | some (key, s) =>
        match skipWhitespace s with
        | ':' :: s =>
          match scanOnce lone fuel (skipWhitespace s) with
          | none => none
          | some (value, s) =>
            match skipWhitespace s with
            | '}' :: s => some (setMember key value members, s)
            | ',' :: s => scanMembers lone fuel (setMember key value members) (skipWhitespace s)
            | _ => none
        | _ => none
    | _ => none

/-- The items of an array after white space. -/
def scanItems (lone : Option Char) : Nat → List Char → Option (List PyJson × List Char)
  | 0, _ => none
  | fuel + 1, s =>
    match scanOnce lone fuel s with
    | none => none
    | some (value, s) =>
      match skipWhitespace s with
      | ']' :: s => some ([value], s)
      | ',' :: s => (scanItems lone fuel (skipWhitespace s)).map fun (items, s) => (value :: items, s)
      | _ => none

end

/-- `json.loads` of a text; `none` stands for the `ValueError`. -/
def loadsWith (lone : Option Char) (s : List Char) : Option PyJson :=
  if s.head? = some '\uFEFF' then none
  else
    match scanOnce lone (2 * s.length + 1) (skipWhitespace s) with
    | none => none
    | some (value, rest) => if skipWhitespace rest = [] then some value else none

/-- `json.loads` of a text that goes into a database, which can hold no lone surrogate. -/
def loads (s : List Char) : Option PyJson := loadsWith none s

end Json

end Python
