import IntraCloud.Databases.RowEditor
import IntraCloud.Exports.Builder
import IntraCloud.Python.Codecs

/-!
# Cells in a package

What `iter_export_rows` yields of a table, and what `_restore_rows` stores of it in a table with the same columns. The
driver returns `JSONB` as text and `timestamptz` in UTC, with the zone.
-/

namespace Exports

open Databases Python

/-! ## Writing -/

/-- `str(value)` of what the driver returns. -/
def cellText : Cell → List Char
  | .integer n => intText n
  | .decimal d => d.text
  | .boolean true => "True".toList
  | .boolean false => "False".toList
  | .date d => d.text
  | .timestamp d => d.date.text ++ ' ' :: (d.time.text ++ "+00:00".toList)
  | .uuid n => uuidText n
  | .text s => s
  | .document s => s

/-- `"" if v is None else str(v)`. -/
def exportedText (v : Option Cell) : List Char := (v.map cellText).getD []

/-- What `iter_export_rows` yields of a table of cells. -/
def cellRecords (V : ValueType Cell) (columns : List DBColumn) (rows : List (Row Cell)) : List Csv.Record :=
  iterExportRows { V with text := cellText } (columns.map (·.name)) rows

/-! ## Restoring -/

/-- What `_restore_rows` raises. -/
inductive RestoreRowsError where
  | unicodeDecodeError
  | csv (e : Csv.Error)
  | keyError (name : List Char)
  /-- Of `zip(…, strict=True)`. -/
  | lengths
  | convert (e : Imports.ConvertError)
  | databaseError
  deriving DecidableEq

/-- `columns_by_name`: the last column of a name. -/
def columnByName (columns : List DBColumn) (name : List Char) : Except RestoreRowsError DBColumn :=
  match columns.reverse.find? fun c => c.name.toList == name with
  | some c => .ok c
  | none => .error (.keyError name)

/-- The parameters of a row. -/
def rowParams : List DBColumn → Csv.Record → Except RestoreRowsError (List Imports.Param)
  | [], [] => .ok []
  | c :: columns, raw :: record =>
    match Imports.convertValue raw c.dataType with
    | .error e => .error (.convert e)
    | .ok p => (rowParams columns record).map (p :: ·)
  | _, _ => .error .lengths

/-- What the columns hold after the `INSERT` of a row; the constraints of the table are left aside. -/
def insertedRow (sv : Server Cell) (t : DBTable) (columns : List DBColumn) (params : List Imports.Param) :
    Except RestoreRowsError (List (Option Cell)) :=
  match (columns.zip params).mapM fun p => sv.store (t.physicalColumn p.1) (.plain p.2) with
  | some values => .ok values
  | none => .error .databaseError

def restoreRow (sv : Server Cell) (t : DBTable) (columns : List DBColumn) (record : Csv.Record) :
    Except RestoreRowsError (List (Option Cell)) :=
  rowParams columns record >>= insertedRow sv t columns

/-- `_restore_rows`, with what the columns of the header hold in each row. The reader raises at the row after those it
has read. -/
def restoreRows (sv : Server Cell) (t : DBTable) (columns : List DBColumn) (data : Bytes) :
    Except RestoreRowsError (List (List (Option Cell))) :=
  match decodeUtf8 data with
  | none => .error .unicodeDecodeError
  | some raw =>
    let (records, ending) := Csv.readRecords Csv.excel (none : Option Empty) Csv.Reader.fresh (Csv.stringLines [] raw)
    let ended (values : List (List (Option Cell))) : Except RestoreRowsError (List (List (Option Cell))) :=
      match ending with
      | some (.inl e) => .error (.csv e)
      | _ => .ok values
    match records with
    | [] => ended []
    | header :: records => do
      let targets ← header.mapM (columnByName columns)
      ended (← records.mapM (restoreRow sv t targets))

/-- The rows come back as they were, in the order of their ids. -/
def RowsRoundTrip (sv : Server Cell) (t : DBTable) (columns : List DBColumn) (rows : List (Row Cell)) : Prop :=
  restoreRows sv t columns (utf8Encode (Csv.recordsText (cellRecords sv.toValueType columns rows))) =
    .ok ((orderById rows).map fun r => columns.map fun c => r.value sv.toValueType c.name)

/-! ## What comes back -/

/-- What the manuals of `psycopg` and the server say of a `JSONB` column and a parameter that is no `Jsonb`. -/
structure StoresPlain (sv : Server Cell) : Prop where
  /-- A document comes from text, as an input of its type, or from the empty list: that is sent as the literal of an
  empty array, in which the column reads the empty object. -/
  source : ∀ c p s, c.type = .jsonb → sv.store c (.plain p) = some (some (.document s)) →
    (∃ raw, p = .str raw) ∨ p = .json (.list []) ∧ s = "\x7b\x7d".toList
  /-- The text is one of the document. -/
  string : ∀ c raw s value, c.type = .jsonb → sv.store c (.plain (.str raw)) = some (some (.document s)) →
    Json.loads s = some (.str value) → Json.loads raw = some (.str value)
  /-- The server writes no white space around a document. -/
  trimmed : ∀ c p s, c.type = .jsonb → sv.store c (.plain p) = some (some (.document s)) → strip s = s

/-- The value comes back: a text that is not empty, with no white space around it and no longer than a reader of CSV
takes, no time and no document, and any value of another type. -/
def ComesBack : Cell → Prop
  | .timestamp _ | .document _ => False
  | .text s => s ≠ [] ∧ strip s = s ∧ s.length ≤ Csv.fieldLimit
  | _ => True

end Exports
