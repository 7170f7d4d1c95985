import IntraCloud.Imports.Services
import IntraCloud.Python.Codecs
import IntraCloud.Python.Csv

/-!
# The preview of a file

`inspect_sample` of `imports/inspect.py`, and next to it the records that the reader of `run_import` gets.
`csv.Sniffer` and `infer_type` are arguments, and so is `bytes.decode` with `errors="replace"`.
-/

namespace Imports

open Databases Python Python.Csv

def SAMPLE_BYTES : Nat := 65536

def SAMPLE_ROWS : Nat := 50

def ENCODINGS_TO_TRY : List String := ["utf-8-sig", "utf-8", "latin-1"]

/-- `bytes.decode(encoding)` by one of these names; `none` stands for the `UnicodeDecodeError`. -/
def decodeStrict (encoding : String) (bytes : Bytes) : Option (List Char) :=
  if encoding = "utf-8-sig" then decodeUtf8Sig bytes
  else if encoding = "utf-8" then decodeUtf8 bytes
  else if encoding = "latin-1" then some (decodeLatin1 bytes)
  else none

/-- `detect_encoding`. -/
def detectEncoding (sample : Bytes) : String :=
  (ENCODINGS_TO_TRY.find? fun encoding => (decodeStrict encoding sample).isSome).getD "latin-1"

/-- The encoding of the sample is UTF-8, and the whole file decodes with it to its text, without a byte order
mark. -/
def DetectsUtf8 (body : Bytes) : Prop :=
  let encoding := detectEncoding (body.take SAMPLE_BYTES)
  (encoding = "utf-8-sig" ∨ encoding = "utf-8") ∧
    ∃ text, decodeUtf8Sig body = some text ∧ decodeStrict encoding body = some text

/-- `detect_delimiter`; `sniff` is `none` where `csv.Sniffer` raises. -/
def detectDelimiter (sniff : List Char → Option Char) (sampleText : List Char) : Char :=
  (sniff sampleText).getD ','

/-- What `inspect_sample` returns. -/
structure Preview where
  encoding : String
  delimiter : Char
  headers : Record
  sampleRows : List Record
  columns : List (List Char × DataType)
  deriving DecidableEq

/-- The exception of `inspect_sample`; the message is that of the `InspectionError`. -/
inductive InspectError where
  | inspection (message : String)
  | badDelimiter
  | csv (e : Csv.Error)
  deriving DecidableEq, Repr

/-- `sample_text`. -/
def sampleText (codec : Codec) (head : Bytes) : List Char :=
  (codec (detectEncoding head) head).getD []

/-- The values of a column in the sample. -/
def columnValues (sampleRows : List Record) (i : Nat) : List (List Char) :=
  sampleRows.filterMap fun row => row[i]?

/-- `rows`, without the last one where the sample may cut it. -/
def wholeRows {α : Type} (head : Bytes) (rows : List α) : List α :=
  if SAMPLE_BYTES ≤ head.length then rows.dropLast else rows

/-- `inspect_sample`. -/
def inspectSample (codec : Codec) (sniff : List Char → Option Char)
    (inferType : List (List Char) → DataType) (head : Bytes) : Except InspectError Preview :=
  let text := sampleText codec head
  let delimiter := detectDelimiter sniff text
  match Dialect.of? [delimiter] with
  | none => .error .badDelimiter
  | some dialect =>
    let read := readRecords dialect (none : Option Empty) Reader.fresh (stringLines [] text)
    match read.2 with
    | some (.inl e) => .error (.csv e)
    | some (.inr e) => nomatch e
    | none =>
      match wholeRows head read.1 with
      | [] => .error (.inspection "CSV file appears to be empty or unreadable")
      | headers :: rows =>
        let sampleRows := rows.take SAMPLE_ROWS
        .ok
          { encoding := detectEncoding head
            delimiter
            headers
            sampleRows
            columns := headers.zipIdx.map fun header =>
              (header.1, inferType (columnValues sampleRows header.2)) }

/-! ## The reader of the import -/

/-- The records that `csv.reader` makes of the whole stream in `run_import`. -/
def importRecords (codec : Codec) (encoding : String) (dialect : Dialect) (body : Bytes) : List Record :=
  let lines := decodedLines (codec encoding) none (splitlines body)
  (readRecords dialect lines.2 Reader.fresh lines.1).1

/-- The header, and the rows that are not blank. -/
def headed : List Record → List Record
  | [] => []
  | header :: rows => header :: rows.filter (· ≠ [])

/-- The preview shows what the import will read: the header, and then its first rows. -/
def PreviewAgrees (codec : Codec) (sniff : List Char → Option Char)
    (inferType : List (List Char) → DataType) (body : Bytes) : Prop :=
  ∀ preview dialect, inspectSample codec sniff inferType (body.take SAMPLE_BYTES) = .ok preview →
    Dialect.of? [preview.delimiter] = some dialect →
      headed (preview.headers :: preview.sampleRows) <+:
        headed (importRecords codec preview.encoding dialect body)

/-! ## Where they part -/

/-- The records of lines, each with the lines it stands on. -/
def recordLines (d : Dialect) : Reader → List (List Char) → List (List Char) →
    List (List (List Char) × Record)
  | r, begun, [] =>
    if r.field ≠ [] ∨ r.state = .inQuotedField then [(begun, (r.saveField .startRecord).fields)] else []
  | r, begun, line :: lines =>
    match r.feed d line with
    | .error _ => []
    | .ok r =>
      if r.state = .startRecord then (begun ++ [line], r.fields) :: recordLines d Reader.fresh [] lines
      else recordLines d r (begun ++ [line]) lines

/-- The header and the rows that the preview shows, with their lines in the sample. -/
def shownRecords (codec : Codec) (sniff : List Char → Option Char) (head : Bytes) :
    List (List (List Char) × Record) :=
  let text := sampleText codec head
  match Dialect.of? [detectDelimiter sniff text] with
  | none => []
  | some dialect =>
    (wholeRows head (recordLines dialect Reader.fresh [] (stringLines [] text))).take (SAMPLE_ROWS + 1)

/-- No field that is shown has a line break in it. -/
def Unbroken (codec : Codec) (sniff : List Char → Option Char) (body : Bytes) : Prop :=
  ∀ shown ∈ shownRecords codec sniff (body.take SAMPLE_BYTES), ∀ field ∈ shown.2, ∀ c ∈ field,
    isNewline c = false

/-- No row that is shown begins with a byte order mark, but for the header. -/
def Unmarked (codec : Codec) (sniff : List Char → Option Char) (body : Bytes) : Prop :=
  ∀ shown ∈ (shownRecords codec sniff (body.take SAMPLE_BYTES)).tail, ∀ line ∈ shown.1,
    line.head? ≠ some '\uFEFF'

/-- `bytes.decode` with `errors="replace"`: the handler is called only where the strict decoder fails, and
puts U+FFFD there. -/
structure Codec.Replaces (codec : Codec) : Prop where
  strict : ∀ encoding bytes text, decodeStrict encoding bytes = some text →
    codec encoding bytes = some text
  lines : ∀ encoding ∈ ENCODINGS_TO_TRY, ∀ bytes text, (∀ b ∈ bytes, b ≠ 10 ∧ b ≠ 13) →
    codec encoding bytes = some text → ∀ c ∈ text, isNewline c = false

end Imports
