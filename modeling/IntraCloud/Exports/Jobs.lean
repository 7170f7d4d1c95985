import IntraCloud.Audit.Record
import IntraCloud.Exports.Atomicity
import IntraCloud.Exports.Package
import IntraCloud.Transition.Tasks

/-!
# Export and restore jobs

`run_export` and `run_restore` of `exports/services.py`, and their tasks. Which steps of an attempt raise
is up to its circumstances; the archive is opened and restored as `exports/restorer.py` does it.
-/

namespace Exports

open Python Relational Exports.Atomicity

/-- The exception of an attempt. -/
inductive JobError where
  /-- A step outside: a database, the object store, the key of the passphrase. -/
  | outside (message : String)
  /-- The object store has no such key. -/
  | noSuchKey
  | package (e : PackageError)

/-- The object store. -/
abbrev Objects := List (String × Bytes)

def Objects.put (objects : Objects) (key : String) (data : Bytes) : Objects :=
  (key, data) :: objects.filter (·.1 ≠ key)

def Objects.delete (objects : Objects) (key : String) : Objects := objects.filter (·.1 ≠ key)

/-! ## Exports -/

/-- `ExportJob.Status`. -/
inductive ExportStatus where
  | pending
  | running
  | completed
  | failed
  deriving DecidableEq, Repr

/-- A row of `ExportJob`. Its `error_message` is the text of the exception. -/
structure ExportJob where
  id : Uuid
  organizationId : Uuid
  encrypted : Bool
  status : ExportStatus
  objectKey : String
  sizeBytes : Option Nat
  checksumSha256 : List Char
  errorMessage : Option JobError
  completedAt : Option Nat

structure ExportState where
  job : ExportJob
  objects : Objects
  /-- The results recorded of the job. -/
  recorded : List Audit.Result

/-- The circumstances of an attempt: what each step raises, and what `build_export` returns. -/
structure ExportAttempt where
  unwraps : Option String
  loads : Option String
  starts : Option String
  built : Except String (Bytes × List Char)
  savesFailed : Option String
  recordsError : Option String
  puts : Option String
  now : Nat
  savesCompleted : Option String
  records : Option String

/-- What the steps before the job is running raise. -/
def ExportAttempt.begins (a : ExportAttempt) : Option String := a.unwraps <|> a.loads <|> a.starts

/-- `f"{EXPORT_STORAGE_PREFIX}/{job.organization_id}/{job.id}.icp"`. -/
def exportKey (job : ExportJob) : String :=
  "exports/" ++ String.ofList (uuidText job.organizationId) ++ "/" ++ String.ofList (uuidText job.id) ++ ".icp"

/-- The handler of `run_export`. -/
def exportFailed (a : ExportAttempt) (e : String) (s : ExportState) : ExportState × JobError :=
  match a.savesFailed with
  | some e' => (s, .outside e')
  | none =>
    let s := { s with job := { s.job with status := .failed, errorMessage := some (.outside e) } }
    match a.recordsError with
    | some e' => (s, .outside e')
    | none => ({ s with recorded := s.recorded ++ [.error] }, .outside e)

/-- `run_export`, and the exception it raises. -/
def runExport (s : ExportState) (a : ExportAttempt) : ExportState × Option JobError :=
  match a.begins with
  | some e => (s, some (.outside e))
  | none =>
    let s := { s with job := { s.job with status := .running } }
    match a.built with
    | .error e => ((exportFailed a e s).1, some (exportFailed a e s).2)
    | .ok (data, checksum) =>
      match a.puts with
      | some e => (s, some (.outside e))
      | none =>
        let s := { s with objects := s.objects.put (exportKey s.job) data }
        match a.savesCompleted with
        | some e => (s, some (.outside e))
        | none =>
          let s := { s with job := { s.job with
            status := .completed, objectKey := exportKey s.job, sizeBytes := some data.length,
            checksumSha256 := checksum, completedAt := some a.now } }
          match a.records with
          | some e => (s, some (.outside e))
          | none => ({ s with recorded := s.recorded ++ [.success] }, none)

/-- `run_export_task`. -/
def exportTask : Transition.Task ExportState ExportAttempt JobError where
  maxRetries := 2
  body := runExport
  giveUp e s := { s with job := { s.job with status := .failed, errorMessage := some e } }

/-! ## Restores -/

/-- `RestoreJob.Status`. -/
inductive RestoreStatus where
  | pending
  | validating
  | restoring
  | completed
  | failed
  deriving DecidableEq, Repr

/-- A row of `RestoreJob`. Its `error_message` is the text of the exception. -/
structure RestoreJob where
  id : Uuid
  status : RestoreStatus
  sourceObjectKey : String
  organizationId : Option Uuid
  report : PyJson
  errorMessage : Option JobError
  completedAt : Option Nat

structure RestoreState where
  job : RestoreJob
  objects : Objects
  /-- What has been committed to the two databases. -/
  written : Alias → List Statement
  /-- The results recorded of the job. -/
  recorded : List Audit.Result

/-- The circumstances of an attempt: what each step raises. -/
structure RestoreAttempt where
  unwraps : Option String
  loads : Option String
  starts : Option String
  streams : Option String
  opens : Option String
  verifies : Option String
  savesRestoring : Option String
  /-- The steps of `restore_package`, the text of their exception, and the report where they raise none. -/
  steps : Circumstances Alias
  raised : String
  organization : Uuid
  report : PyJson
  savesFailed : Option String
  recordsError : Option String
  deletes : Option String
  now : Nat
  savesCompleted : Option String
  records : Option String

/-- What the steps before the job is validating raise. -/
def RestoreAttempt.begins (a : RestoreAttempt) : Option String := a.unwraps <|> a.loads <|> a.starts

/-- What an attempt reads the package with: the primitives of the container and the archive, what
`restore_package` finds in it, and the passphrase of the job. -/
structure Reading (Key : Type) where
  primitives : Primitives Key
  formats : Formats
  parts : Archive → List (List Char × PyJson) → PackageParts
  passphrase : Option (List Char)

/-- The connections of a worker at the start of an attempt. -/
def world (written : Alias → List Statement) : World Alias (List Statement) :=
  ⟨fun c => ⟨written c, written c, [], false⟩, 0⟩

section Restore

variable {Key : Type} (r : Reading Key)

/-- `restore_package` on the two databases. -/
def restored (a : RestoreAttempt) (archive : Archive) (manifest : List (List Char × PyJson))
    (written : Alias → List Statement) : World Alias (List Statement) × Bool :=
  (restorePackageSteps (r.parts archive manifest)).eval Statement.run a.steps (world written)

/-- The `try` block of `run_restore`. -/
def restoreStaged (a : RestoreAttempt) (data : Bytes) (s : RestoreState) : RestoreState × Option JobError :=
  match a.opens with
  | some e => (s, some (.outside e))
  | none =>
    match openPackage r.primitives r.formats data r.passphrase with
    | .error e => (s, some (.package e))
    | .ok (archive, manifest) =>
      match a.verifies with
      | some e => (s, some (.outside e))
      | none =>
        match verifyChecksums r.formats archive manifest with
        | .error e => (s, some (.package e))
        | .ok () =>
          match a.savesRestoring with
          | some e => (s, some (.outside e))
          | none =>
            let out := restored r a archive manifest s.written
            let s := { s with
              job := { s.job with status := .restoring }
              written := fun c => (out.1.connection c).committed }
            if out.2 then (s, none) else (s, some (.outside a.raised))

/-- The handler of `run_restore`. -/
def restoreFailed (a : RestoreAttempt) (e : JobError) (s : RestoreState) : RestoreState × JobError :=
  match a.savesFailed with
  | some e' => (s, .outside e')
  | none =>
    let s := { s with job := { s.job with status := .failed, errorMessage := some e } }
    match a.recordsError with
    | some e' => (s, .outside e')
    | none => ({ s with recorded := s.recorded ++ [.error] }, e)

/-- The `finally` block of `run_restore`: its exception is passed over. -/
def deleteStaged (a : RestoreAttempt) (s : RestoreState) : RestoreState :=
  match a.deletes with
  | some _ => s
  | none => { s with objects := s.objects.delete s.job.sourceObjectKey }

/-- The end of `run_restore`. -/
def restoreCompleted (a : RestoreAttempt) (s : RestoreState) : RestoreState × Option JobError :=
  match a.savesCompleted with
  | some e => (s, some (.outside e))
  | none =>
    let s := { s with job := { s.job with
      status := .completed, organizationId := some a.organization, report := a.report,
      completedAt := some a.now } }
    match a.records with
    | some e => (s, some (.outside e))
    | none => ({ s with recorded := s.recorded ++ [.success] }, none)

/-- `run_restore`, and the exception it raises. -/
def runRestore (s : RestoreState) (a : RestoreAttempt) : RestoreState × Option JobError :=
  match a.begins with
  | some e => (s, some (.outside e))
  | none =>
    let s := { s with job := { s.job with status := .validating } }
    match a.streams with
    | some e => (s, some (.outside e))
    | none =>
      match s.objects.lookup s.job.sourceObjectKey with
      | none => (s, some .noSuchKey)
      | some data =>
        match restoreStaged r a data s with
        | (s, some e) =>
          let failed := restoreFailed a e s
          (deleteStaged a failed.1, some failed.2)
        | (s, none) => restoreCompleted a (deleteStaged a s)

/-- `run_restore_task`. -/
def restoreTask : Transition.Task RestoreState RestoreAttempt JobError where
  maxRetries := 1
  body := runRestore r
  giveUp e s := { s with job := { s.job with status := .failed, errorMessage := some e } }

end Restore

/-! ## How an attempt ends -/

/-- The job has ended. -/
def ExportJob.Ended (job : ExportJob) : Prop := job.status = .completed ∨ job.status = .failed

/-- The job has ended. -/
def RestoreJob.Ended (job : RestoreJob) : Prop := job.status = .completed ∨ job.status = .failed

/-- The circumstances leave the job ended: it had ended before and the attempt did not begin, or the save
that follows its outcome goes through, and before that the upload of a package that has been built. -/
def ExportEnds (s : ExportState) (a : ExportAttempt) : Prop :=
  (a.begins ≠ none ∧ s.job.Ended) ∨
    (a.begins = none ∧
      ((a.built.isOk = false ∧ a.savesFailed = none) ∨
        (a.built.isOk = true ∧ a.puts = none ∧ a.savesCompleted = none)))

variable {Key : Type} (r : Reading Key)

/-- Nothing is raised while this package is opened, verified and restored. -/
def Restores (s : RestoreState) (a : RestoreAttempt) (data : Bytes) : Prop :=
  a.opens = none ∧ a.verifies = none ∧ a.savesRestoring = none ∧
    ∃ archive manifest, openPackage r.primitives r.formats data r.passphrase = .ok (archive, manifest) ∧
      verifyChecksums r.formats archive manifest = .ok () ∧ (restored r a archive manifest s.written).2 = true

/-- The circumstances leave the job ended: it had ended before and the attempt did not begin, or the staged
package is read and the save that follows its outcome goes through. -/
def RestoreEnds (s : RestoreState) (a : RestoreAttempt) : Prop :=
  (a.begins ≠ none ∧ s.job.Ended) ∨
    (a.begins = none ∧ a.streams = none ∧ ∃ data, s.objects.lookup s.job.sourceObjectKey = some data ∧
      ((Restores r s a data ∧ a.savesCompleted = none) ∨ (¬ Restores r s a data ∧ a.savesFailed = none)))

/-! ## A retry -/

/-- The attempt gets to read the staged package. -/
def RestoreAttempt.Reads (a : RestoreAttempt) (s : RestoreState) (data : Bytes) : Prop :=
  a.begins = none ∧ a.streams = none ∧ s.objects.lookup s.job.sourceObjectKey = some data

/-- No step of the attempt raises. -/
structure RestoreAttempt.Faultless (a : RestoreAttempt) : Prop where
  begins : a.begins = none
  streams : a.streams = none
  opens : a.opens = none
  verifies : a.verifies = none
  savesRestoring : a.savesRestoring = none
  fails : ∀ n, a.steps.fails n = false
  commits : ∀ c, a.steps.commits c = true
  savesCompleted : a.savesCompleted = none
  records : a.records = none

/-- The package opens, its checksums are right, and the tables of its databases have an order. -/
def ValidPackage (data : Bytes) : Prop :=
  ∃ archive manifest, openPackage r.primitives r.formats data r.passphrase = .ok (archive, manifest) ∧
    verifyChecksums r.formats archive manifest = .ok () ∧
    ∀ d ∈ (r.parts archive manifest).databases, (topologicalOrder Prod.fst d.tables).isSome

end Exports
