import IntraCloud.Audit.Record
import IntraCloud.Exports.Container
import IntraCloud.Python.JsonValue
import Mathlib.Data.List.Nodup
import Mathlib.Logic.Function.Basic

/-!
# Backups

`run_backup` and the verification of object-storage backups of `system/backups.py`. What each step raises,
if anything, is given from outside, with what a failing write leaves of its file. `tarfile`, SHA-256 and
the dump of a database are parameters.
-/

namespace Backups

open Exports Python

/-! ## Faults -/

/-- The exceptions, as far as an `except` clause tells them apart. -/
inductive FaultKind where
  | backupError
  | timeoutExpired
  | osError
  | other
  deriving DecidableEq, Repr

/-- An exception, its text, and what is then in the file being written. -/
structure Fault where
  kind : FaultKind
  message : List Char
  leftover : Option Bytes
  deriving DecidableEq, Repr

/-- The steps of a backup once its record exists. -/
inductive Step where
  | makeDirs
  | dump
  | getClient
  | openArchive
  | listKeys
  | getStream (key : List Char)
  | addFile (key : List Char)
  | addManifest
  | closeArchive
  | readPlain
  | wrap
  | writeEncrypted
  | removePlain
  | getSize
  | writeFile
  | save
  deriving DecidableEq, Repr

/-- What each step raises. -/
abbrev Faults := Step → Option Fault

/-- A step that may raise. -/
def attempt (faults : Faults) (step : Step) : Except Fault Unit :=
  match faults step with
  | some e => .error e
  | none => .ok ()

/-! ## The world -/

/-- `BackupRecord.BackupType`. -/
inductive BackupType where
  | controlDb
  | tenantDb
  | objectStorage
  | configuration
  deriving DecidableEq, Repr

/-- The value of a `BackupType`. -/
def BackupType.text : BackupType → List Char
  | controlDb => "control_db".toList
  | tenantDb => "tenant_db".toList
  | objectStorage => "object_storage".toList
  | configuration => "configuration".toList

/-- `BackupRecord.Status`. -/
inductive Status where
  | running
  | success
  | failed
  deriving DecidableEq, Repr

/-- What a verification raises; `raised` stands for an exception of a library. -/
inductive VerificationError where
  | notCompleted
  | keyNotSet
  | missingManifest
  | checksumMismatch (name : List Char)
  | notReadBack (name : List Char)
  | raised
  deriving DecidableEq, Repr

/-- A row of `BackupRecord`. -/
structure BackupRecord where
  id : Uuid
  backupType : BackupType
  status : Status := .running
  filePath : List Char := []
  sizeBytes : Option Nat := none
  errorMessage : List Char := []
  startedAt : Nat
  completedAt : Option Nat := none
  verifiedRestorable : Bool := false
  verifiedAt : Option Nat := none
  verificationError : Option VerificationError := none
  deriving DecidableEq, Repr

/-- The objects of the bucket in the order of its listing; no key twice. -/
structure Bucket where
  objects : List (List Char × Bytes)
  distinct : (objects.map (·.1)).Nodup

namespace Bucket

/-- `get_stream(key).read()`. -/
def get (b : Bucket) (key : List Char) : Option Bytes := (b.objects.find? fun o => o.1 = key).map (·.2)

/-- `delete`. -/
def delete (b : Bucket) (key : List Char) : Bucket where
  objects := b.objects.filter fun o => o.1 ≠ key
  distinct := b.distinct.sublist ((List.filter_sublist ..).map _)

/-- `put_stream`. -/
def put (b : Bucket) (key : List Char) (data : Bytes) : Bucket where
  objects := (b.delete key).objects ++ [(key, data)]
  distinct := by
    rw [List.map_append, List.nodup_append]
    refine ⟨(b.delete key).distinct, List.nodup_singleton key, ?_⟩
    intro x hx y hy
    obtain ⟨o, ho, rfl⟩ := List.mem_map.mp hx
    obtain rfl := List.mem_singleton.mp hy
    exact of_decide_eq_true (List.mem_filter.mp ho).2

end Bucket

/-- The files by their paths, the bucket, the rows and the clock. -/
structure World where
  now : Nat
  files : List Char → Option Bytes
  bucket : Bucket
  records : List BackupRecord

namespace World

def write (w : World) (path : List Char) (data : Bytes) : World :=
  { w with files := Function.update w.files path (some data) }

def remove (w : World) (path : List Char) : World := { w with files := Function.update w.files path none }

/-- What a write that raises leaves. -/
def spoil (w : World) (path : List Char) (e : Fault) : World :=
  match e.leftover with
  | none => w
  | some data => w.write path data

/-- `BackupRecord.objects.create`. -/
def create (w : World) (record : BackupRecord) : World := { w with records := w.records ++ [record] }

/-- The `UPDATE` of a save. -/
def update (w : World) (record : BackupRecord) : World :=
  { w with records := w.records.map fun r => if r.id = record.id then record else r }

end World

/-- What `extractfile` makes of a member of an archive: `None` where it is no file. -/
inductive Extracted where
  | noFile
  | raises
  | file (data : Bytes)
  deriving DecidableEq, Repr

/-- A member of an archive. -/
structure TarMember where
  name : List Char
  extracted : Extracted
  deriving DecidableEq, Repr

/-- `tarfile`. `getmembers` is `none` where the file cannot be read. -/
structure TarFormat where
  write : List (List Char × Bytes) → Bytes
  getmembers : Bytes → Option (List TarMember)

/-- The settings and what lies outside. -/
structure Env (Key : Type) where
  backupDir : List Char
  /-- `BACKUP_ENCRYPTION_KEY`, empty where it is not set. -/
  encryptionKey : List Char
  primitives : Primitives Key
  tar : TarFormat
  sha256 : Bytes → Bytes
  /-- `os.environ.get(key, "")`. -/
  environ : List Char → List Char
  /-- What `pg_dump` writes. -/
  dump : BackupType → Bytes
  /-- The keys that the object store takes. -/
  accepts : List Char → Bool

/-- What a backup draws: its id, the time as its file name has it, and the bytes of `os.urandom`. -/
structure Draws where
  id : Uuid
  stamp : List Char
  randomness : Randomness

variable {Key : Type}

/-- `hashlib.sha256(data).hexdigest()`. -/
def Env.hexdigest (env : Env Key) (data : Bytes) : List Char := hexOfBytes (env.sha256 data)

/-! ## Running -/

/-- `os.path.join(settings.BACKUP_DIR, filename)`. -/
def Env.path (env : Env Key) (d : Draws) (t : BackupType) (suffix : String) : List Char :=
  env.backupDir ++ (if env.backupDir = [] ∨ env.backupDir.getLast? = some '/' then [] else ['/']) ++
    t.text ++ '_' :: hexText 32 d.id ++ '_' :: d.stamp ++ suffix.toList

/-- `record.save`: `file_path` is a `varchar(500)`. -/
def save (faults : Faults) (w : World) (record : BackupRecord) : World × Except Fault BackupRecord :=
  match attempt faults .save with
  | .error e => (w, .error e)
  | .ok () =>
    if 500 < record.filePath.length then
      (w, .error ⟨.other, "value too long for type character varying(500)".toList, none⟩)
    else (w.update record, .ok record)

/-- The body of the `except` clauses. -/
def recordFailure (faults : Faults) (w : World) (record : BackupRecord) (e : Fault) :
    World × Except Fault BackupRecord :=
  save faults w { record with status := .failed, errorMessage := e.message.take 2000,
                              completedAt := some w.now }

/-- `write_container`; it raises where the key derivation does. -/
def wrapPayload (env : Env Key) (faults : Faults) (r : Randomness) (plaintext : Bytes) : Except Fault Bytes :=
  match attempt faults .wrap with
  | .error e => .error e
  | .ok () =>
    match writeContainer env.primitives r plaintext (some env.encryptionKey) with
    | none => .error ⟨.other, [], none⟩
    | some wrapped => .ok wrapped

/-- `_maybe_encrypt_file`. -/
def maybeEncryptFile (env : Env Key) (faults : Faults) (r : Randomness) (w : World) (path : List Char) :
    World × Except Fault (List Char) :=
  if env.encryptionKey = [] then (w, .ok path)
  else
    match attempt faults .readPlain with
    | .error e => (w, .error e)
    | .ok () =>
      match wrapPayload env faults r ((w.files path).getD []) with
      | .error e => (w, .error e)
      | .ok wrapped =>
        let encryptedPath := path ++ ".icb".toList
        match attempt faults .writeEncrypted with
        | .error e => (w.spoil encryptedPath e, .error e)
        | .ok () =>
          let w := w.write encryptedPath wrapped
          match attempt faults .removePlain with
          | .error e => (w, .error e)
          | .ok () => (w.remove path, .ok encryptedPath)

/-- What follows the `try` of the two backups that write a file first and encrypt it then. -/
def recordSuccess (env : Env Key) (faults : Faults) (r : Randomness) (w : World) (record : BackupRecord)
    (outputPath : List Char) : World × Except Fault BackupRecord :=
  match maybeEncryptFile env faults r w outputPath with
  | (w, .error e) => (w, .error e)
  | (w, .ok finalPath) =>
    match attempt faults .getSize with
    | .error e => (w, .error e)
    | .ok () =>
      save faults w { record with status := .success, filePath := finalPath,
                                  sizeBytes := (w.files finalPath).map List.length,
                                  completedAt := some w.now }

/-- The exceptions that `_run_postgres_backup` catches. -/
def FaultKind.caughtByPostgres : FaultKind → Bool
  | backupError | timeoutExpired | osError => true
  | other => false

/-- `_run_postgres_backup`. -/
def runPostgresBackup (env : Env Key) (faults : Faults) (w : World) (d : Draws) (t : BackupType) :
    World × Except Fault BackupRecord :=
  let record : BackupRecord := { id := d.id, backupType := t, startedAt := w.now }
  let w := w.create record
  match attempt faults .makeDirs with
  | .error e => (w, .error e)
  | .ok () =>
    let outputPath := env.path d t ".dump"
    match attempt faults .dump with
    | .error e =>
      let w := w.spoil outputPath e
      if e.kind.caughtByPostgres then recordFailure faults w record e else (w, .error e)
    | .ok () => recordSuccess env faults d.randomness (w.write outputPath (env.dump t)) record outputPath

/-- `"_manifest.json"`. -/
def MANIFEST : List Char := "_manifest.json".toList

/-- The loop over the keys: the manifest with the hashes of the objects added. -/
def addObjects (env : Env Key) (faults : Faults) :
    List (List Char × Bytes) → List (List Char × PyJson) → Except Fault (List (List Char × PyJson))
  | [], manifest => .ok manifest
  | (key, data) :: rest, manifest => do
    attempt faults (.getStream key)
    attempt faults (.addFile key)
    addObjects env faults rest (manifest ++ [(key, .str (env.hexdigest data))])

/-- `json.dumps(manifest, indent=2, sort_keys=True).encode()`. -/
def manifestBytes (manifest : List (List Char × PyJson)) : Bytes :=
  utf8Encode (Json.dumpsSorted (.dict manifest))

/-- The body of the `try` of `_run_object_storage_backup`: what is then in the archive. -/
def archiveObjects (env : Env Key) (faults : Faults) (objects : List (List Char × Bytes)) :
    Except Fault Bytes := do
  attempt faults .getClient
  attempt faults .openArchive
  attempt faults .listKeys
  let manifest ← addObjects env faults objects []
  attempt faults .addManifest
  attempt faults .closeArchive
  return env.tar.write (objects ++ [(MANIFEST, manifestBytes manifest)])

/-- `_run_object_storage_backup`. -/
def runObjectStorageBackup (env : Env Key) (faults : Faults) (w : World) (d : Draws) :
    World × Except Fault BackupRecord :=
  let record : BackupRecord := { id := d.id, backupType := .objectStorage, startedAt := w.now }
  let w := w.create record
  match attempt faults .makeDirs with
  | .error e => (w, .error e)
  | .ok () =>
    let outputPath := env.path d .objectStorage ".tar"
    match archiveObjects env faults w.bucket.objects with
    | .error e => recordFailure faults (w.spoil outputPath e) record e
    | .ok archive => recordSuccess env faults d.randomness (w.write outputPath archive) record outputPath

/-- `_CONFIG_BACKUP_KEYS`. -/
def CONFIG_BACKUP_KEYS : List String :=
  ["SECRET_KEY", "CREDENTIAL_ENCRYPTION_KEY", "ALLOWED_HOSTS", "CSRF_TRUSTED_ORIGINS",
    "CORS_ALLOWED_ORIGINS", "CONTROL_DB_NAME", "CONTROL_DB_USER", "CONTROL_DB_PASSWORD", "CONTROL_DB_HOST",
    "CONTROL_DB_PORT", "TENANT_DB_NAME", "TENANT_DB_USER", "TENANT_DB_PASSWORD", "TENANT_DB_HOST",
    "TENANT_DB_PORT", "DB_STATEMENT_TIMEOUT_MS", "REDIS_URL", "OBJECT_STORAGE_ENDPOINT",
    "OBJECT_STORAGE_REGION", "OBJECT_STORAGE_ROOT_USER", "OBJECT_STORAGE_ROOT_PASSWORD",
    "OBJECT_STORAGE_BUCKET_PREFIX", "FEATURE_EXTERNAL_SHARING_ENABLED", "FEATURE_INTERNET_GATEWAY_ENABLED",
    "MAX_UPLOAD_SIZE_BYTES", "MALWARE_SCAN_ENABLED", "CLAMAV_HOST", "CLAMAV_PORT",
    "CONNECTED_DATABASE_BLOCK_PRIVATE_NETWORKS", "ANALYTICS_MAX_ROWS", "BACKUP_DIR"]

/-- `_SECRET_CONFIG_KEYS`. -/
def SECRET_CONFIG_KEYS : List String :=
  ["SECRET_KEY", "CREDENTIAL_ENCRYPTION_KEY", "CONTROL_DB_PASSWORD", "TENANT_DB_PASSWORD",
    "OBJECT_STORAGE_ROOT_PASSWORD", "REDIS_URL"]

/-- `_REDACTED_PLACEHOLDER`. -/
def REDACTED_PLACEHOLDER : String :=
  "<redacted: set BACKUP_ENCRYPTION_KEY to include secrets in configuration backups>"

/-- The payload of a configuration backup. -/
def configurationPayload (env : Env Key) : Bytes :=
  utf8Encode (Json.dumpsSorted (.dict (CONFIG_BACKUP_KEYS.map fun key =>
    (key.toList, .str (if SECRET_CONFIG_KEYS.contains key && env.encryptionKey = [] then
      REDACTED_PLACEHOLDER.toList else env.environ key.toList)))))

/-- `_run_configuration_backup`. -/
def runConfigurationBackup (env : Env Key) (faults : Faults) (w : World) (d : Draws) :
    World × Except Fault BackupRecord :=
  let record : BackupRecord := { id := d.id, backupType := .configuration, startedAt := w.now }
  let w := w.create record
  match attempt faults .makeDirs with
  | .error e => (w, .error e)
  | .ok () =>
    let payload := configurationPayload env
    let wrapped := if env.encryptionKey = [] then .ok payload
      else wrapPayload env faults d.randomness payload
    match wrapped with
    | .error e => if e.kind = .osError then recordFailure faults w record e else (w, .error e)
    | .ok payloadOut =>
      let outputPath := env.path d .configuration (if env.encryptionKey = [] then ".json" else ".icb")
      match attempt faults .writeFile with
      | .error e =>
        let w := w.spoil outputPath e
        if e.kind = .osError then recordFailure faults w record e else (w, .error e)
      | .ok () =>
        let w := w.write outputPath payloadOut
        save faults w { record with status := .success, filePath := outputPath,
                                    sizeBytes := some payloadOut.length, completedAt := some w.now }

/-- `run_backup`, for the supported types. -/
def runBackup (env : Env Key) (faults : Faults) (w : World) (d : Draws) : BackupType →
    World × Except Fault BackupRecord
  | .controlDb => runPostgresBackup env faults w d .controlDb
  | .tenantDb => runPostgresBackup env faults w d .tenantDb
  | .objectStorage => runObjectStorageBackup env faults w d
  | .configuration => runConfigurationBackup env faults w d

/-! ## Verifying -/

/-- The plaintext that `_DecryptedTempFile` gives of a path. -/
def plainContent (env : Env Key) (w : World) (path : List Char) : Except VerificationError Bytes :=
  if ".icb".toList.isSuffixOf path then
    if env.encryptionKey = [] then .error .keyNotSet
    else
      match (w.files path).map fun data =>
          readContainerPayload env.primitives data (some env.encryptionKey) with
      | some (.ok plain) => .ok plain
      | _ => .error .raised
  else
    match w.files path with
    | some data => .ok data
    | none => .error .raised

/-- The manifest of an archive: of the first member of its name. -/
def readManifest (members : List TarMember) : Except VerificationError PyJson :=
  match members.find? fun m => m.name = MANIFEST with
  | none => .error .missingManifest
  | some m =>
    match m.extracted with
    | .noFile => .ok (.dict [])
    | .raises => .error .raised
    | .file data =>
      match Json.loadBytes data with
      | some manifest => .ok manifest
      | none => .error .raised

/-- `manifest.get(name)`; a manifest that is no `dict` has no `get`. -/
def expectedHash (manifest : PyJson) (name : List Char) : Except VerificationError (Option PyJson) :=
  match manifest with
  | .dict entries => .ok (Json.member? name entries)
  | _ => .error .raised

/-- The bucket and the scratch keys in it so far. -/
structure Scratch where
  bucket : Bucket
  restoredKeys : List (List Char)

/-- How a `put_stream` ends. -/
inductive PutOutcome where
  | done
  /-- It raises, and has changed nothing. -/
  | refused
  /-- It raises, and the object is there. -/
  | failedAfter
  deriving DecidableEq, Repr

/-- What the object store does to the restoration of one member. -/
structure Circumstances where
  put : PutOutcome
  /-- `get_stream` does not raise. -/
  rereads : Bool
  deriving DecidableEq, Repr

/-- `scratch_prefix`. -/
def scratchPrefix (record : BackupRecord) : List Char :=
  "_restore_test_".toList ++ (hexText 32 record.id).take 16 ++ ['/']

/-- The body of the loop of the verification, for a member that is a file: it is compared with the manifest, put
under its scratch key and read back. -/
def restoreFile (env : Env Key) (scratchPrefix : List Char) (manifest : PyJson) (c : Circumstances) (s : Scratch)
    (name : List Char) (data : Bytes) : Scratch × Except VerificationError Unit :=
  match expectedHash manifest name with
  | .error e => (s, .error e)
  | .ok expected =>
    if expected.bind PyJson.asStr ≠ some (env.hexdigest data) then (s, .error (.checksumMismatch name))
    else
      let scratchKey := scratchPrefix ++ name
      match c.put with
      | .refused => (s, .error .raised)
      -- the key is appended after the call
      | .failedAfter => ({ s with bucket := s.bucket.put scratchKey data }, .error .raised)
      | .done =>
        let s : Scratch := ⟨s.bucket.put scratchKey data, s.restoredKeys ++ [scratchKey]⟩
        if c.rereads = false then (s, .error .raised)
        else if (s.bucket.get scratchKey).map env.hexdigest ≠ some (env.hexdigest data) then
          (s, .error (.notReadBack name))
        else (s, .ok ())

/-- The loop of the verification. -/
def restoreMembers (env : Env Key) (scratchPrefix : List Char) (manifest : PyJson) :
    Scratch → List (TarMember × Circumstances) → Scratch × Except VerificationError Unit
  | s, [] => (s, .ok ())
  | s, (member, c) :: rest =>
    if member.name = MANIFEST then restoreMembers env scratchPrefix manifest s rest
    else
      match member.extracted with
      | .noFile => restoreMembers env scratchPrefix manifest s rest
      | .raises => (s, .error .raised)
      | .file data =>
        match restoreFile env scratchPrefix manifest c s member.name data with
        | (s, .error e) => (s, .error e)
        | (s, .ok ()) => restoreMembers env scratchPrefix manifest s rest

/-- The body of the `try` of the verification, where the object store meets the members under their scratch
keys as `circumstances` has it. -/
def verifyArchive (env : Env Key)
    (circumstances : (scratchPrefix : List Char) → List TarMember → List (TarMember × Circumstances)) (w : World)
    (record : BackupRecord) : Scratch × Except VerificationError Unit :=
  let s : Scratch := ⟨w.bucket, []⟩
  match plainContent env w record.filePath with
  | .error e => (s, .error e)
  | .ok data =>
    match env.tar.getmembers data with
    | none => (s, .error .raised)
    | some members =>
      match readManifest members with
      | .error e => (s, .error e)
      | .ok manifest =>
        restoreMembers env (scratchPrefix record) manifest s (circumstances (scratchPrefix record) members)

/-- The object store refuses the key if it does not take it, and fails nothing else. -/
def accepting (env : Env Key) (scratchKey : List Char) : Circumstances :=
  ⟨if env.accepts scratchKey then .done else .refused, true⟩

def untroubled (env : Env Key) (scratchPrefix : List Char) (members : List TarMember) :
    List (TarMember × Circumstances) :=
  members.map fun m => (m, accepting env (scratchPrefix ++ m.name))

/-- The `finally` of the verification. -/
def Scratch.swept (s : Scratch) : Bucket := s.restoredKeys.foldl Bucket.delete s.bucket

/-- `_verify_object_storage_backup_restorable`, with the record it returns. -/
def verifyObjectStorageBackupRestorable (env : Env Key) (w : World) (record : BackupRecord) :
    World × BackupRecord :=
  if record.status ≠ .success ∨ record.filePath = [] then
    let record := { record with verifiedRestorable := false, verificationError := some .notCompleted,
                                verifiedAt := some w.now }
    (w.update record, record)
  else
    let (scratch, outcome) := verifyArchive env (untroubled env) w record
    let w := { w with bucket := scratch.swept }
    let record :=
      match outcome with
      | .error e => { record with verifiedRestorable := false, verificationError := some e,
                                  verifiedAt := some w.now }
      | .ok () => { record with verifiedRestorable := true, verificationError := none,
                                verifiedAt := some w.now }
    (w.update record, record)

end Backups
