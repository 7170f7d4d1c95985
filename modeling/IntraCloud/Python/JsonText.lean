import IntraCloud.Python.Json
import IntraCloud.Python.Uuid

/-!
# `json.dumps`

With `ensure_ascii`, as it is by default: compact, or over several lines with `indent`.
-/

namespace Python

namespace Json

/-! ## Strings -/

/-- `\u` and four hexadecimal digits. -/
def unitText (unit : Nat) : List Char := '\\' :: 'u' :: hexText 4 unit

/-- A character inside a string. -/
def escapeChar (c : Char) : List Char :=
  if c = '"' then ['\\', '"']
  else if c = '\\' then ['\\', '\\']
  else if c = '\n' then ['\\', 'n']
  else if c = '\r' then ['\\', 'r']
  else if c = '\t' then ['\\', 't']
  else if c = '\x0c' then ['\\', 'f']
  else if c = '\x08' then ['\\', 'b']
  else if ' ' ≤ c ∧ c ≤ '~' then [c]
  else if c.toNat < 0x10000 then unitText c.toNat
  else
    unitText (0xD800 + (c.toNat - 0x10000) / 1024) ++ unitText (0xDC00 + (c.toNat - 0x10000) % 1024)

/-- A string between its quotes. -/
def stringText (s : List Char) : List Char := '"' :: s.flatMap escapeChar ++ ['"']

/-! ## Values -/

/-- The line break of an indented text. -/
def newline (indent : Option Nat) (level : Nat) : List Char :=
  match indent with
  | none => []
  | some n => '\n' :: List.replicate (n * level) ' '

/-- `item_separator`, with the line break where the text is indented. -/
def separator (indent : Option Nat) (level : Nat) : List Char :=
  match indent with
  | none => [',', ' ']
  | some _ => ',' :: newline indent level

mutual

/-- The text of a value. -/
def text (indent : Option Nat) (level : Nat) : PyJson → List Char
  | .null => ['n', 'u', 'l', 'l']
  | .bool true => ['t', 'r', 'u', 'e']
  | .bool false => ['f', 'a', 'l', 's', 'e']
  | .int n => intText n
  | .float literal => literal
  | .str s => stringText s
  | .list [] => ['[', ']']
  | .list (v :: vs) =>
    '[' :: (newline indent (level + 1) ++ (text indent (level + 1) v ++
      (itemsText indent (level + 1) vs ++ (newline indent level ++ [']']))))
  | .dict [] => ['{', '}']
  | .dict ((k, v) :: ms) =>
    '{' :: (newline indent (level + 1) ++ (stringText k ++ (':' :: ' ' :: (text indent (level + 1) v ++
      (membersText indent (level + 1) ms ++ (newline indent level ++ ['}']))))))

/-- The items after the first. -/
def itemsText (indent : Option Nat) (level : Nat) : List PyJson → List Char
  | [] => []
  | v :: vs => separator indent level ++ (text indent level v ++ itemsText indent level vs)

/-- The members after the first. -/
def membersText (indent : Option Nat) (level : Nat) : List (List Char × PyJson) → List Char
  | [] => []
  | (k, v) :: ms =>
    separator indent level ++ (stringText k ++ (':' :: ' ' :: (text indent level v ++
      membersText indent level ms)))

end

/-- The order of `str`, by code points. -/
def textLe : List Char → List Char → Bool
  | [], _ => true
  | _ :: _, [] => false
  | a :: s, b :: t => if a = b then textLe s t else a.toNat < b.toNat

mutual

/-- A value with the members of every `dict` in order, as `sort_keys` has them. -/
def sorted : PyJson → PyJson
  | .list items => .list (sortedItems items)
  | .dict members => .dict ((sortedMembers members).mergeSort fun m n => textLe m.1 n.1)
  | v => v

def sortedItems : List PyJson → List PyJson
  | [] => []
  | v :: vs => sorted v :: sortedItems vs

def sortedMembers : List (List Char × PyJson) → List (List Char × PyJson)
  | [] => []
  | (k, v) :: ms => (k, sorted v) :: sortedMembers ms

end

/-- `json.dumps(value)`. -/
def dumps (value : PyJson) : List Char := text none 0 value

/-- `json.dumps(value, indent=2, sort_keys=True)`. -/
def dumpsSorted (value : PyJson) : List Char := text (some 2) 0 (sorted value)

/-- What `repr` gives of a finite `float`. -/
def FloatRepr (literal : List Char) : Prop :=
  ∃ sign whole fraction exponent, literal = sign ++ (whole ++ (fraction ++ exponent)) ∧
    (sign = [] ∨ sign = ['-']) ∧
    (whole = ['0'] ∨ whole.head? ≠ some '0' ∧ whole ≠ [] ∧ ∀ c ∈ whole, isDigit c = true) ∧
    (fraction = [] ∨ ∃ ds, fraction = '.' :: ds ∧ ds ≠ [] ∧ ∀ c ∈ ds, isDigit c = true) ∧
    (exponent = [] ∨ ∃ mark ds, exponent = 'e' :: mark :: ds ∧ (mark = '+' ∨ mark = '-') ∧ ds ≠ [] ∧
      ∀ c ∈ ds, isDigit c = true) ∧
    (fraction ≠ [] ∨ exponent ≠ [])

mutual

/-- A value the text of which reads back as it: a `dict` has no key twice, and `str` writes its
integers. -/
def Writable : PyJson → Prop
  | .null | .bool _ | .str _ => True
  | .int n => (natText n.natAbs).length ≤ maxStrDigits
  | .float literal => FloatRepr literal
  | .list items => WritableItems items
  | .dict members => (members.map (·.1)).Nodup ∧ WritableMembers members

def WritableItems : List PyJson → Prop
  | [] => True
  | v :: vs => Writable v ∧ WritableItems vs

def WritableMembers : List (List Char × PyJson) → Prop
  | [] => True
  | (_, v) :: ms => Writable v ∧ WritableMembers ms

end

end Json

end Python
