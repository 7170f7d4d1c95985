import IntraCloud.Python.Codecs

/-!
# The exceptions of `json.loads`

The scanner once more, with the exception it stops at. Only a `JSONDecodeError` says that a text is
malformed: an integer of too many digits raises the `ValueError` of `int`, containers that nest too deep a
`RecursionError`, and bytes that are no text a `UnicodeDecodeError`.
-/

namespace Python.Json

inductive ScanError where
  | jsonDecodeError
  | valueError
  | recursionError
  | outOfFuel
  deriving DecidableEq, Repr

/-- Nothing stands for a `JSONDecodeError`. -/
def wellFormed {α : Type} : Option α → Except ScanError α
  | none => .error .jsonDecodeError
  | some x => .ok x

/-- The digits after a minus sign. -/
def dropMinus : List Char → List Char
  | '-' :: s => s
  | s => s

/-- The constants, and otherwise a number: where there are digits, there may be too many. -/
def scanScalarE (s : List Char) : Except ScanError (PyJson × List Char) :=
  match scanScalar s with
  | some scanned => .ok scanned
  | none => if (takeInteger (dropMinus s)).isSome then .error .valueError else .error .jsonDecodeError

mutual

/-- `scan_once`, where containers may nest `depth` levels. -/
def scanOnceE (lone : Option Char) (depth : Nat) : Nat → List Char → Except ScanError (PyJson × List Char)
  | 0, _ => .error .outOfFuel
  | fuel + 1, s =>
    match s with
    | [] => .error .jsonDecodeError
    | '"' :: s => (wellFormed (scanString lone none s)).map fun scanned => (.str scanned.1, scanned.2)
    | '{' :: s =>
      if depth = 0 then .error .recursionError
      else
        match skipWhitespace s with
        | '}' :: s => .ok (.dict [], s)
        | s => (scanMembersE lone (depth - 1) fuel [] s).map fun scanned => (.dict scanned.1, scanned.2)
    | '[' :: s =>
      if depth = 0 then .error .recursionError
      else
        match skipWhitespace s with
        | ']' :: s => .ok (.list [], s)
        | s => (scanItemsE lone (depth - 1) fuel s).map fun scanned => (.list scanned.1, scanned.2)
    | s => scanScalarE s

/-- The members of an object after white space. -/
def scanMembersE (lone : Option Char) (depth : Nat) : Nat → List (List Char × PyJson) → List Char →
    Except ScanError (List (List Char × PyJson) × List Char)
  | 0, _, _ => .error .outOfFuel
  | fuel + 1, members, s =>
    match s with
    | '"' :: s =>
      match scanString lone none s with
      | none => .error .jsonDecodeError
      | some (key, s) =>
        match skipWhitespace s with
        | ':' :: s =>
          match scanOnceE lone depth fuel (skipWhitespace s) with
          | .error e => .error e
          | .ok (value, s) =>
            match skipWhitespace s with
            | '}' :: s => .ok (setMember key value members, s)
            | ',' :: s => scanMembersE lone depth fuel (setMember key value members) (skipWhitespace s)
            | _ => .error .jsonDecodeError
        | _ => .error .jsonDecodeError
    | _ => .error .jsonDecodeError

/-- The items of an array after white space. -/
def scanItemsE (lone : Option Char) (depth : Nat) : Nat → List Char →
    Except ScanError (List PyJson × List Char)
  | 0, _ => .error .outOfFuel
  | fuel + 1, s =>
    match scanOnceE lone depth fuel s with
    | .error e => .error e
    | .ok (value, s) =>
      match skipWhitespace s with
      | ']' :: s => .ok ([value], s)
      | ',' :: s =>
        (scanItemsE lone depth fuel (skipWhitespace s)).map fun scanned => (value :: scanned.1, scanned.2)
      | _ => .error .jsonDecodeError

end

/-- `JSONDecoder.decode`. -/
def decodeE (lone : Option Char) (depth : Nat) (s : List Char) : Except ScanError PyJson :=
  match scanOnceE lone depth (2 * s.length + 1) (skipWhitespace s) with
  | .error e => .error e
  | .ok (value, rest) => if skipWhitespace rest = [] then .ok value else .error .jsonDecodeError

inductive LoadsError where
  | unicodeDecodeError
  | scan (e : ScanError)
  deriving DecidableEq, Repr

/-- `json.loads` of bytes. -/
def loadBytesE (depth : Nat) (b : Bytes) : Except LoadsError PyJson :=
  match decodeJson b with
  | none => .error .unicodeDecodeError
  | some s => (decodeE (some REPLACEMENT) depth s).mapError .scan

end Python.Json
