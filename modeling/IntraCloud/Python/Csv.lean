import Mathlib.Data.Nat.Notation

/-!
# Reading and writing CSV

`csv.reader` in the dialect `excel` with a delimiter of choice, as the state machine of `_csv.c`
over the lines of an iterator, and `csv.DictReader` on top of it. Text is a list of characters.
-/

namespace Python.Csv

/-- A row as `csv.reader` returns it. -/
abbrev Record := List (List Char)

/-- The dialect `excel` with its delimiter. `csv.reader` refuses the excluded delimiters. -/
structure Dialect where
  delimiter : Char
  valid : delimiter ≠ '\n' ∧ delimiter ≠ '\r' ∧ delimiter ≠ '"'
  deriving DecidableEq

/-- The dialect of a `delimiter` argument; `none` stands for the exception of the constructor. -/
def Dialect.of? (delimiter : List Char) : Option Dialect :=
  match delimiter with
  | [c] => if h : c ≠ '\n' ∧ c ≠ '\r' ∧ c ≠ '"' then some ⟨c, h⟩ else none
  | _ => none

/-- The states of the parser that the dialect reaches. -/
inductive ParseState where
  | startRecord
  | startField
  | inField
  | inQuotedField
  | quoteInQuotedField
  | eatCrnl
  deriving DecidableEq, Repr

/-- A reader between two characters. -/
structure Reader where
  state : ParseState
  /-- The field that is being read. -/
  field : List Char
  /-- The fields of the record that are complete. -/
  fields : Record
  deriving DecidableEq, Repr

/-- `parse_reset`. -/
def Reader.fresh : Reader := ⟨.startRecord, [], []⟩

/-- `csv.Error`. -/
inductive Error where
  | fieldLimit
  | newlineInUnquotedField
  deriving DecidableEq, Repr

/-- The default of `csv.field_size_limit`. -/
def fieldLimit : Nat := 131072

/-- `parse_add_char`, and the next state. -/
def Reader.addChar (r : Reader) (c : Char) (state : ParseState) : Except Error Reader :=
  if fieldLimit ≤ r.field.length then .error .fieldLimit
  else .ok { r with field := r.field ++ [c], state }

/-- `parse_save_field`, and the next state. -/
def Reader.saveField (r : Reader) (state : ParseState) : Reader :=
  ⟨state, [], r.fields ++ [r.field]⟩

def isNewline (c : Char) : Bool := c == '\n' || c == '\r'

/-- `START_FIELD`; `none` is the end of the line. -/
def Reader.startField (d : Dialect) (r : Reader) : Option Char → Except Error Reader
  | none => .ok (r.saveField .startRecord)
  | some c =>
    if isNewline c then .ok (r.saveField .eatCrnl)
    else if c = '"' then .ok { r with state := .inQuotedField }
    else if c = d.delimiter then .ok (r.saveField .startField)
    else r.addChar c .inField

/-- `parse_process_char`; `none` is the end of the line. -/
def Reader.processChar (d : Dialect) (r : Reader) (c : Option Char) : Except Error Reader :=
  match r.state, c with
  | .startRecord, none => .ok r
  | .startRecord, some c =>
    if isNewline c then .ok { r with state := .eatCrnl } else r.startField d (some c)
  | .startField, c => r.startField d c
  | .inField, none => .ok (r.saveField .startRecord)
  | .inField, some c =>
    if isNewline c then .ok (r.saveField .eatCrnl)
    else if c = d.delimiter then .ok (r.saveField .startField)
    else r.addChar c .inField
  | .inQuotedField, none => .ok r
  | .inQuotedField, some c =>
    if c = '"' then .ok { r with state := .quoteInQuotedField } else r.addChar c .inQuotedField
  | .quoteInQuotedField, none => .ok (r.saveField .startRecord)
  | .quoteInQuotedField, some c =>
    if c = '"' then r.addChar c .inQuotedField
    else if c = d.delimiter then .ok (r.saveField .startField)
    else if isNewline c then .ok (r.saveField .eatCrnl)
    else r.addChar c .inField
  | .eatCrnl, none => .ok { r with state := .startRecord }
  | .eatCrnl, some c => if isNewline c then .ok r else .error .newlineInUnquotedField

/-- The characters of a line and its end. -/
def Reader.feed (d : Dialect) (r : Reader) : List Char → Except Error Reader
  | [] => r.processChar d none
  | c :: cs =>
    match r.processChar d (some c) with
    | .error e => .error e
    | .ok r => r.feed d cs

/-- The records an iterator of lines yields. The lines end with an exception or are exhausted, and so
do the records. -/
def readRecords {ε : Type} (d : Dialect) (ending : Option ε) :
    Reader → List (List Char) → List Record × Option (Sum Error ε)
  | r, [] =>
    match ending with
    | some e => ([], some (.inr e))
    | none =>
      if r.field ≠ [] ∨ r.state = .inQuotedField then
        ([(r.saveField .startRecord).fields], none)
      else ([], none)
  | r, line :: lines =>
    match r.feed d line with
    | .error e => ([], some (.inl e))
    | .ok r =>
      if r.state = .startRecord then
        let rest := readRecords d ending Reader.fresh lines
        (r.fields :: rest.1, rest.2)
      else readRecords d ending r lines

/-- A row of `csv.DictReader`: the field names, and the record under them. -/
structure DictRow where
  fieldnames : Record
  record : Record
  deriving DecidableEq, Repr

/-- The rows of `csv.DictReader`: the first record names the fields, empty records are passed over. -/
def dictRows : List Record → List DictRow
  | [] => []
  | fieldnames :: records => (records.filter (· ≠ [])).map fun record => ⟨fieldnames, record⟩

/-- The value a field name is mapped to. The last field of the name wins; it is `None` where the record
is too short. -/
def lookup (key : List Char) : Record → Record → Option (Option (List Char))
  | [], _ => none
  | name :: names, record =>
    match lookup key names record.tail with
    | some value => some value
    | none => if name = key then some record.head? else none

/-- `row.get(key, default)`. -/
def DictRow.get (row : DictRow) (key default : List Char) : Option (List Char) :=
  (lookup key row.fieldnames row.record).getD (some default)

/-! ## Writing

`csv.writer` in the dialect `excel`, and the lines `io.StringIO` gives to a reader. -/

/-- The dialect `excel`. -/
def excel : Dialect := ⟨',', by decide⟩

/-- `QUOTE_MINIMAL`: the field has a character that means something to a reader. -/
def needsQuotes (field : List Char) : Bool :=
  field.any fun c => c == ',' || c == '"' || c == '\n' || c == '\r'

/-- A quoted character: quotes are doubled. -/
def quoteChar (c : Char) : List Char := if c = '"' then ['"', '"'] else [c]

/-- A field between quotes. -/
def quoted (field : List Char) : List Char := '"' :: field.flatMap quoteChar ++ ['"']

/-- `join_append_data`. -/
def fieldText (field : List Char) : List Char := if needsQuotes field then quoted field else field

/-- The fields between their delimiters. -/
def joinFields : Record → List Char
  | [] => []
  | [field] => fieldText field
  | field :: fields => fieldText field ++ ',' :: joinFields fields

/-- `writerow`. A record of one empty field would read as an empty one, so it is quoted. -/
def recordText (record : Record) : List Char :=
  (if record = [[]] then ['"', '"'] else joinFields record) ++ ['\r', '\n']

/-- What `csv.writer` has written of the records. -/
def recordsText (records : List Record) : List Char := records.flatMap recordText

/-- The lines of `io.StringIO(text)`, each with its line feed: only `\n` ends one. -/
def stringLines (line : List Char) : List Char → List (List Char)
  | [] => if line = [] then [] else [line]
  | c :: s => if c = '\n' then (line ++ [c]) :: stringLines [] s else stringLines (line ++ [c]) s

end Python.Csv
