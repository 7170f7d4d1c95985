import IntraCloud.Imports.Services

/-!
# One attempt at its rows

What an attempt meets on its way through the rows, told from its circumstances alone: which rows it gets
to, which checkpoint follows a row, and whether what the attempt has done with a row is saved.
-/

namespace Imports

open Python Python.Csv

/-- What becomes of a row that an attempt gets to. -/
inductive Fate where
  | commits (values : List Param)
  | rejects (error : RowError)
  | breaks (failure : Failure)

/-- The conversion of the row, and what happens to its transaction. -/
def fate (a : Attempt) (mapping : List ColumnMapping) (n : Nat) (row : DictRow) : Fate :=
  match convertRow row mapping with
  | .error e => .rejects e
  | .ok values =>
    match a.insert n with
    | .committed => .commits values
    | .refused message => .rejects (.database message)
    | .disconnected message => .breaks (.tenant message)

/-- The rows the reader gives to an attempt. -/
structure Pass where
  attempt : Attempt
  mapping : List ColumnMapping
  rows : List DictRow
  /-- `job.last_processed_row` at the start. -/
  resumed : Nat

namespace Pass

variable (c : Pass)

/-- The row with this number that is not passed over. -/
def row? (n : Nat) : Option DictRow := if c.resumed < n then c.rows[n - 1]? else none

/-- What is committed of the row. -/
def commit? (n : Nat) : Option (Nat × List Param) :=
  (c.row? n).bind fun row =>
    match fate c.attempt c.mapping n row with
    | .commits values => some (n, values)
    | _ => none

/-- The error the row is rejected with. -/
def error? (n : Nat) : Option ImportJobError :=
  (c.row? n).bind fun row =>
    match fate c.attempt c.mapping n row with
    | .rejects error => some ⟨n, error, row⟩
    | _ => none

/-- The exception the row breaks the attempt off with. -/
def break? (n : Nat) : Option Failure :=
  (c.row? n).bind fun row =>
    match fate c.attempt c.mapping n row with
    | .breaks failure => some failure
    | _ => none

/-- The numbers above the first and up to the second. -/
def numbers (lo hi : Nat) : List Nat := List.range' (lo + 1) (hi - lo)

/-- The committed rows among these numbers. -/
def committedIn (lo hi : Nat) : List (Nat × List Param) := (numbers lo hi).filterMap c.commit?

/-- The errors of the rows rejected among these numbers. -/
def errorsIn (lo hi : Nat) : List ImportJobError := (numbers lo hi).filterMap c.error?

/-- The last row of the chunk before the row after `n`: a checkpoint has followed it. -/
def boundary (n : Nat) : Nat := max c.resumed (chunkRows * (n / chunkRows))

/-- The number of the checkpoint that follows the row. -/
def checkpointNumber (n : Nat) : Nat := (n - 1) / chunkRows - c.resumed / chunkRows

/-- The chunk with this number leaves errors to store. -/
def erroneous (q : Nat) : Bool :=
  !(c.errorsIn (max c.resumed (chunkRows * q)) (chunkRows * q + chunkRows)).isEmpty

/-- The number of the `bulk_create` of a chunk: how many chunks before it have stored errors. -/
def storeNumber (q : Nat) : Nat :=
  ((List.range' (c.resumed / chunkRows) (q - c.resumed / chunkRows)).filter c.erroneous).length

/-- The checkpoint after the last row of a chunk goes through. -/
def Checked (n : Nat) : Prop :=
  c.attempt.saves (c.checkpointNumber n) = true ∧
    (c.erroneous ((n - 1) / chunkRows) = true →
      c.attempt.storesErrors (c.storeNumber ((n - 1) / chunkRows)) = true)

/-- The attempt leaves the row behind. -/
def Passes (n : Nat) : Prop := c.break? n = none ∧ (n % chunkRows = 0 → c.Checked n)

/-- The attempt gets to the row. -/
def Reaches (n : Nat) : Prop := n ≤ c.rows.length ∧ ∀ m < n, c.resumed < m → c.Passes m

/-- The attempt gets through the last row of the chunk the row is in. -/
def Fills (n : Nat) : Prop :=
  c.Reaches (chunkRows * ((n - 1) / chunkRows) + chunkRows) ∧
    c.break? (chunkRows * ((n - 1) / chunkRows) + chunkRows) = none

/-- No checkpoint saves that the row has been processed: the one that follows it fails, and so does that of
the exception handler where it is a chunk's. -/
def Unsaved (n : Nat) : Prop :=
  c.attempt.saves (c.checkpointNumber n) = false ∧
    (c.Fills n → c.attempt.saves (c.checkpointNumber n + 1) = false)

/-- A checkpoint saves that the row has been processed, and none stores its error. -/
def Unstored (n : Nat) : Prop :=
  let stores := c.storeNumber ((n - 1) / chunkRows)
  (c.attempt.saves (c.checkpointNumber n) = true ∧ c.attempt.storesErrors stores = false ∧
      (c.Fills n → c.attempt.saves (c.checkpointNumber n + 1) = false ∨
        c.attempt.storesErrors (stores + 1) = false)) ∨
    (c.attempt.saves (c.checkpointNumber n) = false ∧ c.Fills n ∧
      c.attempt.saves (c.checkpointNumber n + 1) = true ∧ c.attempt.storesErrors stores = false)

/-- The last row dealt with when nothing breaks the attempt off. -/
def last : Nat := max c.rows.length c.resumed

/-- The attempt gets through its rows and the checkpoint after them. -/
def Finishes : Prop :=
  (∀ m ≤ c.rows.length, c.resumed < m → c.Passes m) ∧
    c.attempt.saves (c.last / chunkRows - c.resumed / chunkRows) = true ∧
    (c.errorsIn (c.boundary c.last) c.last ≠ [] →
      c.attempt.storesErrors (c.storeNumber (c.last / chunkRows)) = true)

instance (n : Nat) : Decidable (c.Checked n) := by
  unfold Checked; infer_instance

instance (n : Nat) : Decidable (c.Passes n) := by
  unfold Passes; infer_instance

instance (n : Nat) : Decidable (c.Reaches n) := by
  unfold Reaches; infer_instance

instance (n : Nat) : Decidable (c.Fills n) := by
  unfold Fills; infer_instance

instance (n : Nat) : Decidable (c.Unsaved n) := by
  unfold Unsaved; infer_instance

instance (n : Nat) : Decidable (c.Unstored n) := by
  unfold Unstored; infer_instance

instance : Decidable c.Finishes := by
  unfold Finishes; infer_instance

end Pass

/-- The rows an attempt gets from the reader; none where it fails before. -/
def attemptRows (codec : Codec) (body : List UInt8) (s : State) (a : Attempt) : List DictRow :=
  if a.starts && a.streamRefused.isNone && a.cursorRefused.isNone then
    match Dialect.of? s.job.delimiter with
    | none => []
    | some dialect => (streamedRows codec s.job.encoding dialect body a.streamCut).1
  else []

/-- An attempt at its rows, from the state it starts in. -/
def pass (codec : Codec) (body : List UInt8) (s : State) (a : Attempt) : Pass :=
  { attempt := a, mapping := s.job.columnMapping, rows := attemptRows codec body s a,
    resumed := s.job.lastProcessedRow }

/-- The state the attempt meets its rows in. -/
def begun (a : Attempt) (s : State) : State :=
  if a.starts then
    { s with job := { s.job with status := .running, startedAt := some a.startedAt } }
  else s

/-- The circumstances and the file let the attempt complete the job. -/
def Completes (codec : Codec) (body : List UInt8) (s : State) (a : Attempt) : Prop :=
  a.starts = true ∧ a.streamRefused = none ∧ a.cursorRefused = none ∧
    ((Dialect.of? s.job.delimiter).map fun dialect =>
      (streamedRows codec s.job.encoding dialect body a.streamCut).2) = some none ∧
    (pass codec body s a).Finishes ∧ a.completes = true

/-- Every row the attempt commits is saved as processed. -/
def SavesCommits (codec : Codec) (body : List UInt8) (s : State) (a : Attempt) : Prop :=
  let c := pass codec body s a
  ∀ n ≤ c.rows.length, c.commit? n ≠ none → c.Reaches n → ¬ c.Unsaved n

/-- Every error of a row the attempt saves as processed is stored; and where the attempt completes the job,
no more rows have been rejected than errors are to be stored. -/
def StoresErrors (codec : Codec) (body : List UInt8) (s : State) (a : Attempt) : Prop :=
  let c := pass codec body s a
  (∀ n ≤ c.rows.length, c.error? n ≠ none → c.Reaches n → ¬ c.Unstored n) ∧
    (Completes codec body s a → s.job.rejectedRows + (c.errorsIn c.resumed c.last).length ≤ maxStoredErrors)

/-- The job has ended. -/
def ImportJob.Ended (job : ImportJob) : Prop := job.status = .completed ∨ job.status = .failed

instance (codec : Codec) (body : List UInt8) (s : State) (a : Attempt) :
    Decidable (Completes codec body s a) := by
  unfold Completes; infer_instance

instance (codec : Codec) (body : List UInt8) (s : State) (a : Attempt) :
    Decidable (SavesCommits codec body s a) := by
  unfold SavesCommits; infer_instance

instance (codec : Codec) (body : List UInt8) (s : State) (a : Attempt) :
    Decidable (StoresErrors codec body s a) := by
  unfold StoresErrors; infer_instance

end Imports
