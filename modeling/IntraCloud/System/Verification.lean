import IntraCloud.System.ScratchObjects
import IntraCloud.Transition.Runs
import Mathlib.Data.List.Infix

/-!
# Verifying backups

`verify_backup_restorable` of `system/backups.py`: a configuration is read back, a database is restored into one that
is made for it and dropped again.
-/

namespace Backups

open Exports Python

variable {Key Content : Type}

/-- `_not_restorable_no_successful_backup`. -/
def notRestorable (w : World) (record : BackupRecord) : World × BackupRecord :=
  let record := { record with verifiedRestorable := false, verificationError := some .notCompleted,
                              verifiedAt := some w.now }
  (w.update record, record)

/-- What follows the `try` of a verification. -/
def recordVerification (w : World) (record : BackupRecord) (error : Option VerificationError) :
    World × BackupRecord :=
  let record := { record with verifiedRestorable := error.isNone, verificationError := error,
                              verifiedAt := some w.now }
  (w.update record, record)

/-! ## Configurations -/

/-- What the verification of a configuration raises. -/
inductive ConfigurationError where
  | keyNotSet
  /-- "restored configuration is missing keys: …" -/
  | missingKeys (keys : List String)
  | raised
  deriving DecidableEq, Repr

/-- The kind of the error in the record, where only its text stands. -/
def ConfigurationError.recorded : ConfigurationError → VerificationError
  | .keyNotSet => .keyNotSet
  | .missingKeys _ | .raised => .raised

/-- The bytes of the file, decrypted if its name says so. -/
def configurationData (env : Env Key) (w : World) (path : List Char) : Except ConfigurationError Bytes :=
  match w.files path with
  | none => .error .raised
  | some data =>
    if ".icb".toList.isSuffixOf path then
      if env.encryptionKey = [] then .error .keyNotSet
      else
        match readContainerPayload env.primitives data (some env.encryptionKey) with
        | .ok plain => .ok plain
        | .error _ => .error .raised
    else .ok data

/-- `key in config`; it raises for a value that contains nothing. -/
def containsKey? (config : PyJson) (key : List Char) : Option Bool :=
  match config with
  | .dict members => some (Json.member? key members).isSome
  | .list items => some (items.any fun item => item.asStr == some key)
  | .str s => some (decide (key <:+: s))
  | _ => none

/-- `[key for key in _CONFIG_BACKUP_KEYS if key not in config]`. -/
def missingKeys (config : PyJson) : List String → Option (List String)
  | [] => some []
  | key :: keys =>
    (containsKey? config key.toList).bind fun contained =>
      (missingKeys config keys).map fun missing => if contained then missing else key :: missing

/-- The body of the `try`: the configuration that has all its keys. -/
def readConfiguration (env : Env Key) (w : World) (path : List Char) : Except ConfigurationError PyJson :=
  match configurationData env w path with
  | .error e => .error e
  | .ok data =>
    match Json.loadBytes data with
    | none => .error .raised
    | some config =>
      match missingKeys config CONFIG_BACKUP_KEYS with
      | none => .error .raised
      | some [] => .ok config
      | some missing => .error (.missingKeys missing)

/-- `_verify_configuration_backup_restorable`, with the record it returns. -/
def verifyConfigurationBackupRestorable (env : Env Key) (w : World) (record : BackupRecord) :
    World × BackupRecord :=
  if record.status ≠ .success ∨ record.filePath = [] then notRestorable w record
  else
    match readConfiguration env w record.filePath with
    | .error e => recordVerification w record (some e.recorded)
    | .ok _ => recordVerification w record none

/-! ## Databases -/

/-- The databases of a server by their names. -/
abbrev Server (Content : Type) := List Char → Option Content

/-- `pg_restore` and the counts of `_validate_restored_database`. -/
structure Postgres (Content : Type) where
  /-- The content of a database that `CREATE DATABASE` makes. -/
  created : Content
  /-- What `pg_restore` leaves in it, and whether it exits with 0. -/
  pgRestore : Bytes → Content × Bool
  validates : BackupType → Content → Bool

/-- The steps of a verification that may raise, each with the connection it opens. -/
inductive VerificationStep where
  | createDatabase
  | decrypt
  | restore
  | validate
  | dropDatabase
  deriving DecidableEq, Repr

/-- Which steps raise, for reasons of their own. -/
abbrev VerificationFaults := VerificationStep → Bool

/-- `f"restore_test_\x7brecord.id.hex[:16]\x7d"`. -/
def testDbName (record : BackupRecord) : List Char := "restore_test_".toList ++ (hexText 32 record.id).take 16

/-- The body of the second `try`: what is then in the database, and what it raises. -/
def restoreIntoTest (env : Env Key) (postgres : Postgres Content) (faults : VerificationFaults) (w : World)
    (record : BackupRecord) : Content × Option VerificationError :=
  if faults .decrypt then (postgres.created, some .raised)
  else
    match plainContent env w record.filePath with
    | .error e => (postgres.created, some e)
    | .ok dump =>
      let (content, exitsWithZero) := postgres.pgRestore dump
      if faults .restore || !exitsWithZero then (content, some .raised)
      else if faults .validate || !postgres.validates record.backupType content then (content, some .raised)
      else (content, none)

/-- `_verify_postgres_backup_restorable`, with the record it returns. -/
def verifyPostgresBackupRestorable (env : Env Key) (postgres : Postgres Content) (faults : VerificationFaults)
    (server : Server Content) (w : World) (record : BackupRecord) : Server Content × World × BackupRecord :=
  if record.status ≠ .success ∨ record.filePath = [] then (server, notRestorable w record)
  else if faults .createDatabase || (server (testDbName record)).isSome then
    -- nothing has been made, and nothing is dropped
    (server, recordVerification w record (some .raised))
  else
    let (content, error) := restoreIntoTest env postgres faults w record
    let restored := Function.update server (testDbName record) (some content)
    -- an exception of `DROP DATABASE` is only logged
    let server := if faults .dropDatabase then restored else Function.update restored (testDbName record) none
    (server, recordVerification w record error)

/-! ## Objects -/

/-- `_verify_object_storage_backup_restorable` with what the object store does to each member, and with the scratch
keys that it deletes. -/
def verifyObjectsRestorable (env : Env Key) (cs : Nat → Circumstances) (deletes : List Char → Bool) (w : World)
    (record : BackupRecord) : World × BackupRecord :=
  if record.status ≠ .success ∨ record.filePath = [] then notRestorable w record
  else
    let (scratch, outcome) := restoreArchive env cs w record
    -- an exception of `delete` is only logged
    let w := { w with bucket := (scratch.restoredKeys.filter deletes).foldl Bucket.delete scratch.bucket }
    match outcome with
    | .error e => recordVerification w record (some e)
    | .ok () => recordVerification w record none

/-! ## Any backup -/

/-- The servers by their hosts, and all else. -/
structure Installation (Host Content : Type) where
  servers : Host → Server Content
  world : World

variable {Host : Type} [DecidableEq Host]

/-- A verification of the record with the id, with what raises in it. -/
structure Verification where
  faults : VerificationFaults
  circumstances : Nat → Circumstances
  deletes : List Char → Bool
  id : Uuid

/-- `verify_backup_restorable`, for the supported types. The hosts are those of `_db_settings`. -/
def verifyBackupRestorable (env : Env Key) (postgres : Postgres Content) (host : BackupType → Host)
    (s : Installation Host Content) (v : Verification) (record : BackupRecord) : Installation Host Content :=
  match record.backupType with
  | .controlDb | .tenantDb =>
    let (server, world, _) := verifyPostgresBackupRestorable env postgres v.faults
      (s.servers (host record.backupType)) s.world record
    { servers := Function.update s.servers (host record.backupType) server, world := world }
  | .objectStorage => { s with world := (verifyObjectsRestorable env v.circumstances v.deletes s.world record).1 }
  | .configuration => { s with world := (verifyConfigurationBackupRestorable env s.world record).1 }

def verifyStep (env : Env Key) (postgres : Postgres Content) (host : BackupType → Host)
    (s : Installation Host Content) (v : Verification) : Installation Host Content :=
  match s.world.records.find? fun r => r.id = v.id with
  | none => s
  | some record => verifyBackupRestorable env postgres host s v record

/-- What a backup recorded of itself, without what was verified of it. -/
def BackupRecord.outcome (r : BackupRecord) : BackupRecord :=
  { r with verifiedRestorable := false, verifiedAt := none, verificationError := none }

/-- What a verification leaves alone: the files, the outcomes of the backups and the objects that are not below
`_restore_test_`. -/
structure Untouched (w w' : World) : Prop where
  files : w'.files = w.files
  outcomes : w'.records.map BackupRecord.outcome = w.records.map BackupRecord.outcome
  ids : w'.records.map (·.id) = w.records.map (·.id)
  objects : ∀ key, ¬ "_restore_test_".toList <+: key → w'.bucket.get key = w.bucket.get key

/-! ## Deployments that differ in secrets -/

/-- The environments agree on what a configuration backup has in it unencrypted. -/
def SamePublic (environ environ' : List Char → List Char) : Prop :=
  ∀ key ∈ CONFIG_BACKUP_KEYS, key ∉ SECRET_CONFIG_KEYS → environ key.toList = environ' key.toList

/-- A backup, with what it draws and what raises in it. -/
structure BackupRun where
  faults : Faults
  draws : Draws
  backupType : BackupType

/-- `run_backup` in a deployment. -/
def backupStep (env : Env Key) (w : World) (b : BackupRun) : World :=
  (runBackup env b.faults w b.draws b.backupType).1

end Backups
