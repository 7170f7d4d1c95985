import IntraCloud.Python.Codecs

/-!
# Operations on what `json.loads` returns

`value[key]`, `value.get(key, default)` and `for item in value`; `none` stands for the exception each of
them raises on a value it does not fit.
-/

namespace Python

namespace PyJson

/-- `items[n]`, from the end where `n` is negative. -/
def index {α : Type} (items : List α) (n : Int) : Option α :=
  if 0 ≤ n then items[n.toNat]?
  else if -n ≤ items.length then items[items.length - (-n).toNat]?
  else none

/-- `value[key]`. -/
def item : PyJson → PyJson → Option PyJson
  | .dict members, .str key => Json.member? key members
  | .list items, .int n => index items n
  | .list items, .bool b => index items (if b then 1 else 0)
  | .str s, .int n => (index s n).map fun c => .str [c]
  | .str s, .bool b => (index s (if b then 1 else 0)).map fun c => .str [c]
  | _, _ => none

/-- `value[key]` with a literal key. -/
def field (value : PyJson) (key : String) : Option PyJson := value.item (.str key.toList)

/-- `value.get(key, default)`. -/
def get : PyJson → String → PyJson → Option PyJson
  | .dict members, key, default => some ((Json.member? key.toList members).getD default)
  | _, _, _ => none

/-- What `for item in value` goes over. -/
def iterate : PyJson → Option (List PyJson)
  | .list items => some items
  | .dict members => some (members.map fun m => .str m.1)
  | .str s => some (s.map fun c => .str [c])
  | _ => none

/-- What a loop over the value goes over before it raises. -/
def items (value : Option PyJson) : List PyJson := (value.bind iterate).getD []

/-- A string. -/
def asStr : PyJson → Option (List Char)
  | .str s => some s
  | _ => none

end PyJson

end Python
