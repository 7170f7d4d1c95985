import IntraCloud.Imports.Convert
import IntraCloud.Python.Csv
import IntraCloud.Transition.Tasks

/-!
# The import task

`run_import` and `_checkpoint` of `imports/services.py`, and the task of `imports/tasks.py`. What an
attempt meets outside (the object store, the two databases, Celery's retry count) is its circumstances.
-/

namespace Imports

open Databases Python Python.Csv

/-- `ImportJob.Status`. -/
inductive JobStatus where
  | pending
  | running
  | completed
  | failed
  deriving DecidableEq, Repr

/-- An entry of `column_mapping`. -/
structure ColumnMapping where
  csvColumn : List Char
  targetColumn : List Char
  targetType : DataType
  deriving DecidableEq, Repr

/-- The exception that breaks an attempt off. -/
inductive Failure where
  /-- A write to the control-plane database. -/
  | controlPlane
  /-- The object store, while the stream is opened or read. -/
  | storage (message : String)
  /-- `LookupError` of `decode`. -/
  | unknownEncoding
  /-- The exception of `csv.DictReader` for its delimiter. -/
  | badDelimiter
  | csv (e : Csv.Error)
  /-- `OperationalError` or `InterfaceError` of the tenant connection. -/
  | tenant (message : String)
  deriving DecidableEq, Repr

/-- The exception a row is rejected for. -/
inductive RowError where
  /-- `AttributeError`: the row is too short, and `None` has no `strip`. -/
  | missing
  | convert (e : ConvertError)
  | database (message : String)
  deriving DecidableEq, Repr

/-- A row of `ImportJob`. Its `error_message` is the text of the failure. -/
structure ImportJob where
  encoding : String
  delimiter : List Char
  columnMapping : List ColumnMapping
  status : JobStatus
  totalRows : Option Nat
  importedRows : Nat
  rejectedRows : Nat
  lastProcessedRow : Nat
  errorMessage : Option Failure
  startedAt : Option Nat
  completedAt : Option Nat
  deriving DecidableEq, Repr

/-- A row of `ImportJobError`. Its `message` is the text of the error. -/
structure ImportJobError where
  rowNumber : Nat
  error : RowError
  rawRow : DictRow
  deriving DecidableEq, Repr

/-- The counts a checkpoint saves. -/
structure Checkpoint where
  importedRows : Nat
  rejectedRows : Nat
  lastProcessedRow : Nat
  deriving DecidableEq, Repr

/-- The two databases as one job changes them. -/
structure State where
  job : ImportJob
  errors : List ImportJobError
  /-- The rows the job has committed to the tenant table, with their number in the file. -/
  committed : List (Nat × List Param)
  /-- The numbers of the rows the job has rejected. Nothing reads them. -/
  rejected : List Nat
  /-- What has been saved at the checkpoints. Nothing reads it. -/
  checkpoints : List Checkpoint

/-- What happens to the transaction of one row. Only the first commits. -/
inductive InsertOutcome where
  | committed
  | refused (message : String)
  | disconnected (message : String)
  deriving DecidableEq, Repr

/-- The circumstances of one attempt. -/
structure Attempt where
  startedAt : Nat
  completedAt : Nat
  /-- Whether the first save of the job goes through, the save of the checkpoint with this number, and
  the last save. -/
  starts : Bool
  saves : Nat → Bool
  completes : Bool
  /-- Whether the `bulk_create` with this number goes through. -/
  storesErrors : Nat → Bool
  /-- The exception of `get_stream`. -/
  streamRefused : Option String
  /-- The lines the stream delivers before it breaks, and its exception. -/
  streamCut : Option (Nat × String)
  /-- The exception of opening the cursor. -/
  cursorRefused : Option String
  /-- What happens to the transaction of the row with this number. -/
  insert : Nat → InsertOutcome
  /-- `self.request.retries`. -/
  retries : Nat

/-- `bytes.decode(encoding, errors="replace")` by the name of the encoding; `none` stands for the
`LookupError`. -/
abbrev Codec := String → List UInt8 → Option (List Char)

/-- `_decoded_lines`: the lines, and the exception after them. -/
def decodedLines (decode : List UInt8 → Option (List Char)) (ending : Option Failure) :
    List (List UInt8) → List (List Char) × Option Failure
  | [] => ([], ending)
  | line :: lines =>
    match decode line with
    | none => ([], some .unknownEncoding)
    | some text =>
      let rest := decodedLines decode ending lines
      (text :: rest.1, rest.2)

/-- The exception the reader passes on or raises. -/
def readerFailure : Sum Csv.Error Failure → Failure
  | .inl e => .csv e
  | .inr e => e

/-- The rows `csv.DictReader` yields from the stream, and the exception after them. -/
def streamedRows (codec : Codec) (encoding : String) (dialect : Dialect) (body : List UInt8)
    (cut : Option (Nat × String)) : List DictRow × Option Failure :=
  let lines := decodedLines (codec encoding) (cut.map fun c => .storage c.2)
    (match cut with
     | none => splitlines body
     | some c => (splitlines body).take c.1)
  let records := readRecords dialect lines.2 Reader.fresh lines.1
  (dictRows records.1, records.2.map readerFailure)

/-- The data rows of a file. -/
def dataRows (codec : Codec) (body : List UInt8) (job : ImportJob) : List DictRow :=
  match Dialect.of? job.delimiter with
  | none => []
  | some dialect => (streamedRows codec job.encoding dialect body none).1

/-- `CHUNK_ROWS`. -/
def chunkRows : Nat := 1000

/-- `MAX_STORED_ERRORS`. -/
def maxStoredErrors : Nat := 1000

/-- The parameters of a row. -/
def convertRow (row : DictRow) : List ColumnMapping → Except RowError (List Param)
  | [] => .ok []
  | m :: mapping =>
    match row.get m.csvColumn [] with
    | none => .error .missing
    | some raw =>
      match convertValue raw m.targetType with
      | .error e => .error (.convert e)
      | .ok value =>
        match convertRow row mapping with
        | .error e => .error e
        | .ok values => .ok (value :: values)

/-- The local variables of `run_import` between two rows, and the databases. -/
structure Progress where
  db : State
  imported : Nat
  rejected : Nat
  rowNumber : Nat
  lastCompletedRow : Nat
  pendingErrors : List ImportJobError
  /-- How many checkpoints and how many `bulk_create`s the attempt has tried. -/
  saves : Nat
  stores : Nat

/-- The local variables before the first row. -/
def Progress.start (s : State) : Progress :=
  { db := s, imported := s.job.importedRows, rejected := s.job.rejectedRows,
    rowNumber := s.job.lastProcessedRow, lastCompletedRow := s.job.lastProcessedRow,
    pendingErrors := [], saves := 0, stores := 0 }

/-- The job row with the counts of a checkpoint. -/
def Progress.saved (p : Progress) : Progress :=
  { p with
    saves := p.saves + 1
    db := { p.db with
      job := { p.db.job with
        importedRows := p.imported, rejectedRows := p.rejected,
        lastProcessedRow := p.lastCompletedRow }
      checkpoints := p.db.checkpoints ++ [⟨p.imported, p.rejected, p.lastCompletedRow⟩] } }

/-- `_checkpoint`. After a save that fails the attempt reads nothing of the job object any more. -/
def checkpoint (a : Attempt) (p : Progress) : Progress × Option Failure :=
  if !a.saves p.saves then ({ p with saves := p.saves + 1 }, some .controlPlane)
  else
    let p := p.saved
    if p.pendingErrors = [] then (p, none)
    else if !a.storesErrors p.stores then ({ p with stores := p.stores + 1 }, some .controlPlane)
    else
      ({ p with
         stores := p.stores + 1
         db := { p.db with errors := p.db.errors ++ p.pendingErrors } }, none)

/-- The row is counted as rejected, and its error kept where there is room. -/
def Progress.reject (p : Progress) (n : Nat) (row : DictRow) (error : RowError) : Progress :=
  { p with
    rejected := p.rejected + 1
    pendingErrors :=
      if p.pendingErrors.length < maxStoredErrors then p.pendingErrors ++ [⟨n, error, row⟩]
      else p.pendingErrors
    db := { p.db with rejected := p.db.rejected ++ [n] } }

/-- The row's transaction has committed. -/
def Progress.commit (p : Progress) (n : Nat) (values : List Param) : Progress :=
  { p with
    imported := p.imported + 1
    db := { p.db with committed := p.db.committed ++ [(n, values)] } }

/-- Converting and inserting one row. A broken connection is raised. -/
def insertRow (a : Attempt) (mapping : List ColumnMapping) (n : Nat) (row : DictRow)
    (p : Progress) : Except Failure Progress :=
  match convertRow row mapping with
  | .error e => .ok (p.reject n row e)
  | .ok values =>
    match a.insert n with
    | .committed => .ok (p.commit n values)
    | .refused message => .ok (p.reject n row (.database message))
    | .disconnected message => .error (.tenant message)

/-- The body of the loop. -/
def importRow (a : Attempt) (mapping : List ColumnMapping) (n : Nat) (row : DictRow)
    (p : Progress) : Progress × Option Failure :=
  let p := { p with rowNumber := n }
  if n ≤ p.db.job.lastProcessedRow then (p, none)
  else
    match insertRow a mapping n row p with
    | .error e => (p, some e)
    | .ok p =>
      let p := { p with lastCompletedRow := n }
      if n % chunkRows = 0 then
        match checkpoint a p with
        | (p, some e) => (p, some e)
        | (p, none) => ({ p with pendingErrors := [] }, none)
      else (p, none)

/-- The loop, from the row number `n` on. -/
def importRows (a : Attempt) (mapping : List ColumnMapping) :
    Nat → List DictRow → Progress → Progress × Option Failure
  | _, [], p => (p, none)
  | n, row :: rows, p =>
    match importRow a mapping n row p with
    | (p, some e) => (p, some e)
    | (p, none) => importRows a mapping (n + 1) rows p

/-- The `try` block: the cursor, then the rows the stream delivers, then its exception. -/
def importStream (codec : Codec) (body : List UInt8) (dialect : Dialect) (a : Attempt)
    (s : State) : Progress × Option Failure :=
  match a.cursorRefused with
  | some message => (Progress.start s, some (.tenant message))
  | none =>
    let streamed := streamedRows codec s.job.encoding dialect body a.streamCut
    match importRows a s.job.columnMapping 1 streamed.1 (Progress.start s) with
    | (p, some e) => (p, some e)
    | (p, none) => (p, streamed.2)

/-- `run_import`, and the exception it raises. -/
def runImport (codec : Codec) (body : List UInt8) (a : Attempt) (s : State) :
    State × Option Failure :=
  if !a.starts then (s, some .controlPlane)
  else
    let s := { s with job := { s.job with status := .running, startedAt := some a.startedAt } }
    match a.streamRefused with
    | some message => (s, some (.storage message))
    | none =>
      match Dialect.of? s.job.delimiter with
      | none => (s, some .badDelimiter)
      | some dialect =>
        match importStream codec body dialect a s with
        | (p, some e) =>
          match checkpoint a p with
          | (p, some e) => (p.db, some e)
          | (p, none) => (p.db, some e)
        | (p, none) =>
          match checkpoint a p with
          | (p, some e) => (p.db, some e)
          | (p, none) =>
            if !a.completes then (p.db, some .controlPlane)
            else
              ({ p.db with job := { p.db.job with
                   totalRows := some p.rowNumber, status := .completed,
                   completedAt := some a.completedAt } }, none)

/-- The task of an import, with the number of retries counted by the queue. -/
def importTask (codec : Codec) (body : List UInt8) : Transition.Task State Attempt Failure where
  maxRetries := 3
  body s a := runImport codec body a s
  giveUp e s := { s with job := { s.job with status := .failed, errorMessage := some e } }

/-- `run_import_task`. -/
def runImportTask (codec : Codec) (body : List UInt8) (s : State) (a : Attempt) : State :=
  ((importTask codec body).attempt a.retries s a).1

end Imports
