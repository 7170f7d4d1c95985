import IntraCloud.Imports.Attempts
import IntraCloud.Storage.Concurrent

/-!
# What an import job owes its file, and the requests on the file

Which rows of the file have been committed and which have been rejected, over all attempts of a job.

A job keeps the file and not the object: each attempt reads the row for the key, and later opens the
object. Requests on the file take their steps before, between and during the attempts; once the stream is
open they are without effect on it.
-/

namespace Imports

open Python

/-- A job that no attempt has touched. -/
structure Fresh (s : State) : Prop where
  status : s.job.status = .pending
  importedRows : s.job.importedRows = 0
  rejectedRows : s.job.rejectedRows = 0
  lastProcessedRow : s.job.lastProcessedRow = 0
  committed : s.committed = []
  rejected : s.rejected = []
  checkpoints : s.checkpoints = []

/-- The numbers of the committed rows. -/
def State.committedRows (s : State) : List Nat := s.committed.map Prod.fst

/-- The committed row is the row of that number, converted. -/
def FromFile (rows : List Python.Csv.DictRow) (mapping : List ColumnMapping)
    (entry : Nat × List Param) : Prop :=
  ∃ row, 1 ≤ entry.1 ∧ rows[entry.1 - 1]? = some row ∧ convertRow row mapping = .ok entry.2

/-- The stored errors of a completed job: as many as rows have been rejected, up to the limit, and each of
another of these rows. -/
structure ErrorLog (s : State) : Prop where
  length : s.errors.length = min s.job.rejectedRows maxStoredErrors
  distinct : (s.errors.map (·.rowNumber)).Nodup
  rejected : ∀ e ∈ s.errors, e.rowNumber ∈ s.rejected

/-- The rows of the file against what the job has done with them. -/
structure ExactlyOnce (rows : List Python.Csv.DictRow) (s : State) : Prop where
  fromFile : ∀ entry ∈ s.committed, FromFile rows s.job.columnMapping entry
  committedOnce : s.committedRows.Nodup
  rejectedOnce : s.rejected.Nodup
  notBoth : ∀ n ∈ s.committedRows, n ∉ s.rejected
  counted : s.job.importedRows = s.committed.length ∧ s.job.rejectedRows = s.rejected.length
  checkpoints : ∀ c ∈ s.checkpoints, c.importedRows + c.rejectedRows = c.lastProcessedRow
  completed : s.job.status = .completed →
    (∀ n, 1 ≤ n ∧ n ≤ rows.length ↔ n ∈ s.committedRows ∨ n ∈ s.rejected) ∧
      s.job.totalRows = some (s.job.importedRows + s.job.rejectedRows) ∧
      s.job.importedRows + s.job.rejectedRows = rows.length

/-! ## The file between the attempts -/

/-- The file with the requests on it, the job, and the key that the attempt under way has read. -/
structure Importing where
  files : Storage.Serving
  job : State
  key : Option Uuid

/-- What happens next: a step of a request on the file, an attempt reads the row, or it goes on from there
to its end. -/
inductive ImportingAction where
  | request (a : Storage.Action)
  | load
  | attempt (a : Attempt)

/-- The content the file has. -/
def content (s : Storage.State) : Bytes := (s.objects.lookup s.file.pointer.objectKey).getD []

/-- What the attempt under way gets from the object store: the object, or the exception of a key that is
gone. -/
def Importing.opened (x : Importing) (a : Attempt) : Option (Bytes × Attempt) :=
  x.key.map fun key =>
    match x.files.state.objects.lookup key with
    | some body => (body, a)
    | none => ([], { a with streamRefused := some (a.streamRefused.getD "NoSuchKey") })

/-- A job that was just created for the file as the requests have left it. -/
def created (files : Storage.Serving) (job : State) : Importing := ⟨files, job, none⟩

def importingStep (cfg : Storage.Config) (codec : Codec) (x : Importing) : ImportingAction → Importing
  | .request a => { x with files := Storage.step cfg x.files a }
  | .load => { x with key := some x.files.state.file.pointer.objectKey }
  | .attempt a =>
    match x.opened a with
    | none => x
    | some (body, a) => { x with job := runImportTask codec body x.job a, key := none }

/-- Every row the job has committed is one of this content. -/
def CommitsFrom (codec : Codec) (original : Bytes) (s : State) : Prop :=
  ∀ entry ∈ s.committed, FromFile (dataRows codec original s.job) s.job.columnMapping entry

/-- An attempt that reads the row finds it designating this content, or an object that is gone: neither has a new
version been committed nor an older pointer been saved since the file had the content. -/
def Designates (original : Bytes) (x : Importing) : ImportingAction → Prop
  | .load =>
    ∀ body, x.files.state.objects.lookup x.files.state.file.pointer.objectKey = some body → body = original
  | _ => True

end Imports
