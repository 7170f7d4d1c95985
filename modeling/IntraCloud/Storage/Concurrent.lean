import IntraCloud.Storage.Services
import IntraCloud.Transition.Runs
import Mathlib.Data.List.Count

/-!
# Requests on one file at once

Each request reads the row, and goes on with its copy of it, one step after the other. The steps of
several requests come in any order.
-/

namespace Storage

open Python

/-- A request on the file. The upload comes with what the malware scan says of it. -/
inductive Request where
  | uploadNewVersion (content : Bytes) (isClean : Bool)
  | patch (data : FileUpdate)
  | delete
  | restore
  deriving DecidableEq, Repr

/-- How far a request has come, with the row as it has read it. -/
inductive Running where
  | uploading (copy : FileObject) (content : Bytes) (isClean : Bool)
  | stored (copy : FileObject) (new : Pointer) (mimeType : String) (isClean : Bool)
  /-- The upload is committed, and the object it believes to be the previous one is still to go. -/
  | replaced (oldKey : Uuid)
  | patching (copy : FileObject) (data : FileUpdate)
  | deleting
  | restoring
  deriving DecidableEq, Repr

/-- `get_member_file`. -/
def Request.start (copy : FileObject) : Request → Running
  | .uploadNewVersion content isClean => .uploading copy content isClean
  | .patch data => .patching copy data
  | .delete => .deleting
  | .restore => .restoring

/-- The next step of a request, and what is left of it. -/
def Running.advance (cfg : Config) (s : State) : Running → State × Option Running
  | .uploading copy content isClean =>
    match hashAndSniff cfg content with
    | none => (s, none)
    | some (checksum, size, mimeType) =>
      (s.putStream content isClean, some (.stored copy ⟨s.nextKey, size, checksum⟩ mimeType isClean))
  | .stored copy new mimeType isClean =>
    match s.replace cfg copy new mimeType isClean with
    | none => (s, none)
    | some s => (s, if cfg.versioningEnabled then none else some (.replaced copy.pointer.objectKey))
  | .replaced oldKey => (s.deleteObject oldKey, none)
  | .patching copy data => (s.save (data.apply copy), none)
  | .deleting => (s.saveStatus .deleted, none)
  | .restoring => (s.saveStatus .active, none)

/-- The file, and the requests that are running. -/
structure Serving where
  state : State
  running : Nat → Option Running

/-- What happens next: a request comes in under a new number and reads the row, a request takes its next
step, or that step raises. -/
inductive Action where
  | receive (i : Nat) (request : Request)
  | advance (i : Nat)
  | raise (i : Nat)
  deriving DecidableEq, Repr

/-- The requests with one of them changed. -/
def Serving.update (x : Serving) (i : Nat) (state : State) (running : Option Running) : Serving :=
  { state, running := fun j => if j = i then running else x.running j }

def step (cfg : Config) (x : Serving) : Action → Serving
  | .receive i request =>
    match x.running i with
    | some _ => x
    | none => x.update i x.state (some (request.start x.state.file))
  | .advance i =>
    match x.running i with
    | none => x
    | some running => x.update i (running.advance cfg x.state).1 (running.advance cfg x.state).2
  | .raise i => x.update i x.state none

/-- An object with this size and checksum is stored under the key. -/
def Stored (cfg : Config) (s : State) (p : Pointer) : Prop :=
  ∃ content, s.objects.lookup p.objectKey = some content ∧ content.length = p.size ∧
    cfg.sha256 content = p.checksumSha256

/-- The row designates the last committed upload and that is stored; in a versioned bucket every earlier
one has one version, and is stored. -/
structure Integrity (cfg : Config) (s : State) : Prop where
  last : s.uploads.getLast? = some s.file.pointer
  stored : Stored cfg s s.file.pointer
  versioned : cfg.versioningEnabled = true → ∀ p ∈ s.uploads.dropLast, s.versions.count p = 1 ∧ Stored cfg s p

/-- A PATCH saves a row that designates what the row still designates. -/
def PatchesCurrent (x : Serving) : Action → Prop
  | .advance i =>
    match x.running i with
    | some (.patching copy _) => copy.pointer.objectKey = x.state.file.pointer.objectKey
    | _ => True
  | _ => True

instance (x : Serving) (a : Action) : Decidable (PatchesCurrent x a) := by
  unfold PatchesCurrent
  split
  · split <;> infer_instance
  · infer_instance

/-! ## Who gets the bytes of a file

The requests on one file one after the other, with those that hand its bytes out: the download view, the
preview of an import and the import. What a request hands out is told by the key of the object. -/

/-- A request that passes its permission check. -/
inductive Call where
  | upload (folder : Option Uuid) (displayFilename : String) (content : Bytes) (isClean : Bool)
  | change (request : Request)
  | download
  /-- `inspect_sample` takes the bytes for a CSV file or raises `InspectionError`. -/
  | preview (accepted : Bool)
  | importRows
  deriving DecidableEq, Repr

/-- A request on the file that runs to its end while no other one does. -/
def complete (cfg : Config) (s : State) (request : Request) : State :=
  (Transition.run (step cfg) ⟨s, fun _ => none⟩
    [.receive 0 request, .advance 0, .advance 0, .advance 0]).state

/-- The file after a request; there is none before its upload. -/
def serve (cfg : Config) : Option State → Call → Option State
  | none, .upload folder displayFilename content isClean =>
    uploadFile cfg folder displayFilename content isClean
  | some s, .change request => some (complete cfg s request)
  | s, _ => s

/-- The key of the object a request returns the bytes of, or imports. -/
def handedOut : Option State → Call → Option Uuid
  | some s, .download => if s.file.status = .quarantined then none else some s.file.pointer.objectKey
  | some s, .preview accepted => if accepted then some s.file.pointer.objectKey else none
  | some s, .importRows => some s.file.pointer.objectKey
  | _, _ => none

/-- The scan of the object of the row did not come back clean. -/
def State.Tainted (s : State) : Prop := s.file.pointer.objectKey ∈ s.unclean

instance (s : State) : Decidable s.Tainted := by
  unfold State.Tainted; infer_instance

/-- Nothing unclean is handed out, and afterwards the file is not active with an unclean object. -/
def Quarantined (cfg : Config) (s : Option State) (call : Call) : Prop :=
  (∀ t ∈ s, ∀ key ∈ handedOut s call, key ∉ t.unclean) ∧
    ∀ t ∈ serve cfg s call, t.file.status = .active → ¬ t.Tainted

/-- A file the object of which is unclean is not restored, not downloaded while it is deleted, and neither
previewed nor imported. -/
def Spared : Option State → Call → Prop
  | some s, .change .restore => ¬ s.Tainted
  | some s, .download => s.file.status = .deleted → ¬ s.Tainted
  | some s, .preview accepted => accepted = true → ¬ s.Tainted
  | some s, .importRows => ¬ s.Tainted
  | _, _ => True

end Storage
