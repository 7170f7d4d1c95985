import IntraCloud.System.Backups

/-!
# Scratch objects

The verification of an object-storage backup of `system/backups.py` whatever the object store does to it: a
`put_stream` may fail before it takes effect or after, and an object may not be read back.
-/

namespace Backups

open Python

variable {Key : Type}

/-- The members with what the object store does to each. -/
def withCircumstances (cs : Nat → Circumstances) (members : List TarMember) : List (TarMember × Circumstances) :=
  members.mapIdx fun i m => (m, cs i)

/-- The body of the `try`. -/
def restoreArchive (env : Env Key) (cs : Nat → Circumstances) (w : World) (record : BackupRecord) :
    Scratch × Except VerificationError Unit :=
  verifyArchive env (fun _ => withCircumstances cs) w record

/-- The bucket that `_verify_object_storage_backup_restorable` leaves. -/
def bucketAfter (env : Env Key) (cs : Nat → Circumstances) (w : World) (record : BackupRecord) : Bucket :=
  if record.status ≠ .success ∨ record.filePath = [] then w.bucket
  else (restoreArchive env cs w record).1.swept

/-! ## No trace -/

/-- The member is a file with the hash that the manifest has of it. -/
def Restores (env : Env Key) (manifest : PyJson) (m : TarMember) (data : Bytes) : Prop :=
  m.name ≠ MANIFEST ∧ m.extracted = .file data ∧
    ∃ expected, expectedHash manifest m.name = .ok expected ∧
      expected.bind PyJson.asStr = some (env.hexdigest data)

/-- The verification goes on after the member. -/
def Passes (env : Env Key) (manifest : PyJson) (e : TarMember × Circumstances) : Prop :=
  e.1.name = MANIFEST ∨ e.1.extracted = .noFile ∨
    (∃ data, Restores env manifest e.1 data) ∧ e.2.put = .done ∧ e.2.rereads = true

/-- What is put for a member after the members `before` leaves no trace: there was no object under its key; and
where the call fails after all, the object there was the same, or the key is one that an earlier member has. -/
def LeavesNoTrace (env : Env Key) (scratchPrefix : List Char) (manifest : PyJson) (b : Bucket)
    (before : List (TarMember × Circumstances)) (e : TarMember × Circumstances) (data : Bytes) : Prop :=
  (e.2.put = .done → b.get (scratchPrefix ++ e.1.name) = none) ∧
    (e.2.put = .failedAfter → b.get (scratchPrefix ++ e.1.name) = some data ∨
      ∃ earlier ∈ before, earlier.1.name = e.1.name ∧ ∃ data', Restores env manifest earlier.1 data')

/-- Every member that the verification comes to leaves no trace. -/
def Traceless (env : Env Key) (scratchPrefix : List Char) (manifest : PyJson) (b : Bucket)
    (members : List (TarMember × Circumstances)) : Prop :=
  ∀ before e after data, members = before ++ e :: after → (∀ earlier ∈ before, Passes env manifest earlier) →
    Restores env manifest e.1 data → LeavesNoTrace env scratchPrefix manifest b before e data

/-- The verification of the backup leaves no trace in the bucket. -/
def NoTrace (env : Env Key) (cs : Nat → Circumstances) (w : World) (record : BackupRecord) : Prop :=
  ∀ data members manifest, record.status = .success → record.filePath ≠ [] →
    plainContent env w record.filePath = .ok data → env.tar.getmembers data = some members →
      readManifest members = .ok manifest →
        Traceless env (scratchPrefix record) manifest w.bucket (withCircumstances cs members)

end Backups
