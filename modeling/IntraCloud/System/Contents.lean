import IntraCloud.Exports.Jobs
import IntraCloud.Imports.Inspect
import IntraCloud.Storage.Services
import IntraCloud.System.Authority
import IntraCloud.Transition.Runs
import Mathlib.Logic.Function.Basic

/-!
# Who reads the bytes of files

The requests that open, write or remove an object, and the tasks of imports, exports and restores. All other
requests see and change only what is in the databases and move no file to another key; what they do there is
up to them. What an export is built of and what a restore makes of a package are parameters.

The backups read every object too. They write copies under a scratch prefix, which they remove again, and
records that no request shows.
-/

namespace Contents

open Authority Organizations Permissions Python Sharing Storage

/-! ## The state -/

/-- A row of `FileObject`. -/
structure StoredFile where
  id : Uuid
  bucket : Uuid
  file : FileObject
  deriving DecidableEq, Repr

/-- A row of `ImportJob`, with what its task has done so far. -/
structure StartedImport where
  id : Uuid
  file : Uuid
  table : Uuid
  progress : Imports.State

/-- A row of `RestoreJob`, with `created_by`. -/
structure StartedRestore where
  createdBy : Uuid
  job : Exports.RestoreJob

/-- What the databases hold, and the packages of the exports and those staged for a restore. -/
structure Content where
  authority : Authority.State
  files : List StoredFile
  /-- The folders with their buckets. -/
  folders : List (Uuid × Uuid)
  /-- The buckets with `versioning_enabled`. -/
  versioned : List Uuid
  /-- The columns of the tables. -/
  columns : Uuid → List (List Char × Databases.DataType)
  imports : List StartedImport
  exports : List Exports.ExportJob
  restores : List StartedRestore
  packages : Exports.Objects

/-- With the objects of the files by their keys. -/
structure State where
  content : Content
  objects : Uuid → Option Bytes

/-- Every file has the bucket and the key of one that was there before. -/
def KeepsKeys (before after : Content) : Prop :=
  ∀ f ∈ after.files, ∃ g ∈ before.files,
    g.bucket = f.bucket ∧ g.file.pointer.objectKey = f.file.pointer.objectKey

/-- A change of what the databases hold that moves no file to another bucket or object. -/
structure Change where
  apply : Content → Content
  keeps : ∀ c, KeepsKeys c (apply c)

/-- A request that touches no object: it sees and changes the rest. -/
structure OtherRequest where
  change : Change
  answer : Content → List Char

/-- The file that `upload_file` gets, and what is drawn and found out about it. -/
structure Upload where
  folder : Option Uuid
  displayFilename : String
  data : Bytes
  isClean : Bool
  fileId : Uuid
  key : Uuid
  deriving DecidableEq, Repr

/-- What `restore_package` makes of a package: what its statements write to each database besides the rows of
files, and the files it uploads, with their buckets. -/
structure Restoration where
  change : Exports.Atomicity.Alias → Change
  uploads : List (Uuid × Upload)

/-- What lies outside: the codecs and the sniffer of the preview, the settings and SHA-256, what
`build_export` makes of an organization and the bytes of its files, what packages are read with under a
passphrase, and what `restore_package` makes of one for its actor. -/
structure Env (Key : Type) where
  codec : Imports.Codec
  sniff : List Char → Option Char
  inferType : List (List Char) → Databases.DataType
  maxUploadSizeBytes : Nat
  sha256 : Bytes → List Char
  buildExport : Content → Uuid → List (StoredFile × Option Bytes) → Except String (Bytes × List Char)
  reading : Option (List Char) → Exports.Reading Key
  restorePackage : Content → (actor : Uuid) → Exports.Archive → List (List Char × PyJson) → Restoration

/-- What a response says. -/
inductive Response where
  | notFound
  | forbidden
  | badRequest
  | tooLarge
  | conflict
  | serverError
  | file (f : StoredFile)
  | quarantined
  | download (mimeType displayFilename : String) (size : Nat) (body : Bytes)
  | preview (p : Imports.Preview)
  | inspectionError (e : Imports.InspectError)
  | importJob (id file table : Uuid) (job : Imports.ImportJob)
  | importErrors (errors : List Imports.ImportJobError)
  | exportJob (job : Exports.ExportJob)
  | package (body : Bytes)
  | restoreJob (job : Exports.RestoreJob)
  | other (text : List Char)

/-! ## Lookups and permissions -/

/-- `get_member_file`, with the organization. -/
def memberFile (c : Content) (user id : Uuid) : Option (StoredFile × Uuid) := do
  let f ← c.files.find? fun f => f.id == id
  let bucket ← getMemberBucket c.authority user f.bucket
  let organization ← bucket.organization c.authority.rows
  return (f, organization)

/-- `get_member_bucket`, with the organization. -/
def memberBucket (c : Content) (user id : Uuid) : Option Uuid := do
  let bucket ← getMemberBucket c.authority user id
  bucket.organization c.authority.rows

/-- `get_member_table`, with the organization. -/
def memberTable (c : Content) (user id : Uuid) : Option Uuid := do
  let table ← Authority.getMemberTable c.authority user id
  table.organization c.authority.rows

/-- `get_member_import_job`. -/
def memberImport (c : Content) (user id : Uuid) : Option StartedImport := do
  let job ← c.imports.find? fun job => job.id == id
  let _ ← memberTable c user job.table
  return job

/-- `get_member_export_job`. -/
def memberExport (c : Content) (user id : Uuid) : Option Exports.ExportJob :=
  c.exports.find? fun job => job.id == id && isMember c.authority.directory.memberships user job.organizationId

/-- `has_permission`. -/
def allows (c : Content) (user : Uuid) (code : String) (organization : Uuid)
    (resource : Option (String × Uuid)) : Bool :=
  hasPermission c.authority.directory.tables c.authority.now user code organization resource

/-- `_require` with a bucket. -/
def require (c : Content) (user : Uuid) (code : String) (organization bucket : Uuid) : Bool :=
  allows c user code organization (some (RESOURCE_TYPE_BUCKET, bucket))

/-- The organization a bucket belongs to. -/
def bucketOrganization (c : Content) (bucket : Uuid) : Option Uuid :=
  (c.authority.rows.find? fun r => r.kind == .bucket && r.id == bucket).bind fun r =>
    r.organization c.authority.rows

/-- The bucket belongs to the organization. -/
def OwnedBy (c : Content) (bucket organization : Uuid) : Prop :=
  ∃ r ∈ c.authority.rows, r.kind = .bucket ∧ r.id = bucket ∧ r.organization c.authority.rows = some organization

/-! ## Requests -/

section Requests

variable {Key : Type} (env : Env Key)

/-- `FileDownloadView.get`. -/
def download (s : State) (user fileId : Uuid) : Response :=
  match memberFile s.content user fileId with
  | none => .notFound
  | some (f, organization) =>
    if !require s.content user "storage.read" organization f.bucket then .forbidden
    else if f.file.status = .quarantined then .quarantined
    else
      match s.objects f.file.pointer.objectKey with
      | none => .serverError
      | some body => .download f.file.mimeType f.file.displayFilename f.file.pointer.size body

/-- `ImportPreviewView.get`. -/
def importPreview (s : State) (user fileId : Uuid) : Response :=
  match memberFile s.content user fileId with
  | none => .notFound
  | some (f, organization) =>
    if !allows s.content user "dataset.import" organization none then .forbidden
    else
      match s.objects f.file.pointer.objectKey with
      | none => .serverError
      | some body =>
        match Imports.inspectSample env.codec env.sniff env.inferType (body.take Imports.SAMPLE_BYTES) with
        | .ok preview => .preview preview
        | .error e => .inspectionError e

/-- The pointer, the type and the status of an upload. -/
def uploaded (data : Bytes) (isClean : Bool) (key : Uuid) : Option (Pointer × String × FileStatus) :=
  (hashAndSniff ⟨false, env.maxUploadSizeBytes, env.sha256⟩ data).map fun (checksum, size, mimeType) =>
    (⟨key, size, checksum⟩, mimeType, uploadStatus isClean)

/-- The row that `upload_file` writes; nothing where the upload is too large. -/
def uploadedFile (bucketId : Uuid) (u : Upload) : Option StoredFile :=
  (uploaded env u.data u.isClean u.key).map fun (pointer, mimeType, status) =>
    ⟨u.fileId, bucketId, ⟨u.folder, u.displayFilename, mimeType, pointer, status⟩⟩

/-- `unique_active_filename_per_folder` refuses the row. It lets rows without a folder pass. -/
def clashes (c : Content) (f : StoredFile) : Bool :=
  f.file.status == .active && f.file.folder.isSome && c.files.any fun g =>
    g.id != f.id && g.bucket == f.bucket && g.file.folder == f.file.folder &&
      g.file.displayFilename == f.file.displayFilename && g.file.status == .active

/-- `put_stream` of an upload. -/
def putObject (objects : Uuid → Option Bytes) (u : Upload) : Uuid → Option Bytes :=
  Function.update objects u.key (some u.data)

/-- `FileListCreateView.post`. The object stays where the row is refused. -/
def uploadFile (s : State) (user bucketId : Uuid) (u : Upload) : State × Response :=
  match memberBucket s.content user bucketId with
  | none => (s, .notFound)
  | some organization =>
    if !require s.content user "storage.write" organization bucketId then (s, .forbidden)
    else if u.folder.any (fun folder => !s.content.folders.contains (folder, bucketId)) then (s, .notFound)
    else
      match uploadedFile env bucketId u with
      | none => (s, .tooLarge)
      | some f =>
        let objects := putObject s.objects u
        if clashes s.content f then ({ s with objects }, .serverError)
        else ({ content := { s.content with files := s.content.files ++ [f] }, objects }, .file f)

/-- `FileVersionUploadView.post`. -/
def uploadNewVersion (s : State) (user fileId : Uuid) (u : Upload) : State × Response :=
  match memberFile s.content user fileId with
  | none => (s, .notFound)
  | some (f, organization) =>
    if !require s.content user "storage.write" organization f.bucket then (s, .forbidden)
    else
      match uploaded env u.data u.isClean u.key with
      | none => (s, .tooLarge)
      | some (pointer, mimeType, status) =>
        let objects := putObject s.objects u
        let new : StoredFile := { f with file := { f.file with pointer, mimeType, status } }
        if clashes s.content new then ({ s with objects }, .serverError)
        else
          let files := s.content.files.map fun g => if g.id = fileId then new else g
          let objects := if s.content.versioned.contains f.bucket then objects
            else Function.update objects f.file.pointer.objectKey none
          ({ content := { s.content with files }, objects }, .file new)

/-- `validate_column_mapping`. -/
def validateColumnMapping (columns : List (List Char × Databases.DataType))
    (mapping : List Imports.ColumnMapping) : Bool :=
  !mapping.isEmpty && decide (mapping.map (·.targetColumn)).Nodup && mapping.all fun m =>
    !m.csvColumn.isEmpty && !m.targetColumn.isEmpty && m.targetColumn != "id".toList &&
      (columns.find? fun column => column.1 == m.targetColumn).any (·.2 == m.targetType)

/-- `ImportJobListCreateView.post`. -/
def startImport (s : State) (user tableId fileId : Uuid) (encoding : String) (delimiter : List Char)
    (mapping : List Imports.ColumnMapping) (id : Uuid) : State × Response :=
  match memberTable s.content user tableId with
  | none => (s, .notFound)
  | some organization =>
    match memberFile s.content user fileId with
    | none => (s, .notFound)
    | some (_, owner) =>
      if owner ≠ organization then (s, .badRequest)
      else if !allows s.content user "dataset.import" organization none then (s, .forbidden)
      else if !validateColumnMapping (s.content.columns tableId) mapping then (s, .badRequest)
      else
        let job : Imports.ImportJob := ⟨encoding, delimiter, mapping, .pending, none, 0, 0, 0, none, none, none⟩
        ({ s with content := { s.content with
            imports := s.content.imports ++ [⟨id, fileId, tableId, ⟨job, [], [], [], []⟩⟩] } },
          .importJob id fileId tableId job)

/-- `ImportJobDetailView.get`. -/
def importJob (s : State) (user jobId : Uuid) : Response :=
  match memberImport s.content user jobId with
  | none => .notFound
  | some job => .importJob job.id job.file job.table job.progress.job

/-- `ImportJobErrorListView.get`. -/
def importErrors (s : State) (user jobId : Uuid) : Response :=
  match memberImport s.content user jobId with
  | none => .notFound
  | some job => .importErrors (job.progress.errors.take 200)

/-- `ExportJobListCreateView.post`. -/
def startExport (s : State) (user organizationId : Uuid) (encrypted : Bool) (id : Uuid) : State × Response :=
  match getMemberOrganization s.content.authority.directory user organizationId with
  | none => (s, .notFound)
  | some organization =>
    if !allows s.content user "export.manage" organization.id none then (s, .forbidden)
    else
      let job : Exports.ExportJob := ⟨id, organization.id, encrypted, .pending, "", none, [], none, none⟩
      ({ s with content := { s.content with exports := s.content.exports ++ [job] } }, .exportJob job)

/-- `ExportJobDetailView.get`. -/
def exportJob (s : State) (user jobId : Uuid) : Response :=
  match memberExport s.content user jobId with
  | none => .notFound
  | some job => .exportJob job

/-- `ExportJobDownloadView.get`. -/
def downloadExport (s : State) (user jobId : Uuid) : Response :=
  match memberExport s.content user jobId with
  | none => .notFound
  | some job =>
    if !allows s.content user "export.manage" job.organizationId none then .forbidden
    else if job.status ≠ .completed then .conflict
    else
      match s.content.packages.lookup job.objectKey with
      | none => .serverError
      | some body => .package body

/-- `f"{RESTORE_STAGING_PREFIX}/{job.id}.icp"`. -/
def stagingKey (id : Uuid) : String := "restore-staging/" ++ String.ofList (uuidText id) ++ ".icp"

/-- `RestoreJobListCreateView.post`, with the id of the job. The passphrase goes to the task. -/
def stageRestore (s : State) (user : Uuid) (package : Option Bytes) (id : Uuid) : State × Response :=
  match package with
  | none => (s, .badRequest)
  | some data =>
    if env.maxUploadSizeBytes < data.length then (s, .tooLarge)
    else
      let job : Exports.RestoreJob := ⟨id, .pending, stagingKey id, none, .dict [], none, none⟩
      ({ s with content := { s.content with
          restores := s.content.restores ++ [⟨user, job⟩]
          packages := s.content.packages.put (stagingKey id) data } }, .restoreJob job)

/-- `RestoreJobDetailView.get`. -/
def restoreJob (s : State) (user jobId : Uuid) : Response :=
  match s.content.restores.find? fun r => r.job.id == jobId && r.createdBy == user with
  | none => .notFound
  | some r => .restoreJob r.job

/-- The requests. -/
inductive Request where
  | download (fileId : Uuid)
  | importPreview (fileId : Uuid)
  | uploadFile (bucketId : Uuid) (u : Upload)
  | uploadNewVersion (fileId : Uuid) (u : Upload)
  | startImport (tableId fileId : Uuid) (encoding : String) (delimiter : List Char)
      (mapping : List Imports.ColumnMapping) (id : Uuid)
  | importJob (jobId : Uuid)
  | importErrors (jobId : Uuid)
  | startExport (organizationId : Uuid) (encrypted : Bool) (id : Uuid)
  | exportJob (jobId : Uuid)
  | downloadExport (jobId : Uuid)
  | stageRestore (package : Option Bytes) (id : Uuid)
  | restoreJob (jobId : Uuid)
  | other (r : OtherRequest)

/-- One request of an authenticated user. -/
def serve (s : State) (user : Uuid) : Request → State × Response
  | .download fileId => (s, download s user fileId)
  | .importPreview fileId => (s, importPreview env s user fileId)
  | .uploadFile bucketId u => uploadFile env s user bucketId u
  | .uploadNewVersion fileId u => uploadNewVersion env s user fileId u
  | .startImport tableId fileId encoding delimiter mapping id =>
    startImport s user tableId fileId encoding delimiter mapping id
  | .importJob jobId => (s, importJob s user jobId)
  | .importErrors jobId => (s, importErrors s user jobId)
  | .startExport organizationId encrypted id => startExport s user organizationId encrypted id
  | .exportJob jobId => (s, exportJob s user jobId)
  | .downloadExport jobId => (s, downloadExport s user jobId)
  | .stageRestore package id => stageRestore env s user package id
  | .restoreJob jobId => (s, restoreJob s user jobId)
  | .other r => ({ s with content := r.change.apply s.content }, .other (r.answer s.content))

end Requests

/-! ## Tasks -/

section Tasks

variable {Key : Type} (env : Env Key)

/-- An attempt of `run_import_task`: the file is opened by the key of its row. -/
def runImport (s : State) (jobId : Uuid) (a : Imports.Attempt) : State :=
  match s.content.imports.find? fun job => job.id == jobId with
  | none => s
  | some job =>
    let body := (s.content.files.find? fun f => f.id == job.file).bind fun f => s.objects f.file.pointer.objectKey
    let a := if body.isSome then a else { a with streamRefused := some (a.streamRefused.getD "NoSuchKey") }
    let progress := Imports.runImportTask env.codec (body.getD []) job.progress a
    { s with content := { s.content with
        imports := s.content.imports.map fun j => if j.id = jobId then { j with progress } else j } }

/-- The files that an export of an organization holds. -/
def exportedFiles (s : State) (organization : Uuid) : List (StoredFile × Option Bytes) :=
  (s.content.files.filter fun f =>
      f.file.status == .active && bucketOrganization s.content f.bucket == some organization).map
    fun f => (f, s.objects f.file.pointer.objectKey)

/-- An attempt of `run_export_task`. -/
def runExport (s : State) (jobId : Uuid) (a : Exports.ExportAttempt) : State :=
  match s.content.exports.find? fun job => job.id == jobId with
  | none => s
  | some job =>
    let built := env.buildExport s.content job.organizationId (exportedFiles s job.organizationId)
    let after := (Exports.runExport ⟨job, s.content.packages, []⟩ { a with built }).1
    { s with content := { s.content with
        exports := s.content.exports.map fun j => if j.id = jobId then after.job else j
        packages := after.objects } }

/-- The package that an attempt of a restore opens, where it gets to `restore_package`. -/
def openedPackage (r : Exports.Reading Key) (s : Exports.RestoreState) (a : Exports.RestoreAttempt) :
    Option (Exports.Archive × List (List Char × PyJson)) :=
  if (a.begins <|> a.streams <|> a.opens <|> a.verifies <|> a.savesRestoring).isSome then none
  else
    match s.objects.lookup s.job.sourceObjectKey with
    | none => none
    | some data =>
      match Exports.openPackage r.primitives r.formats data r.passphrase with
      | .error _ => none
      | .ok (archive, manifest) =>
        match Exports.verifyChecksums r.formats archive manifest with
        | .error _ => none
        | .ok () => some (archive, manifest)

/-- The files that a restore uploads. Those that are too large are left out. -/
def restoredFiles (uploads : List (Uuid × Upload)) : List (StoredFile × Upload) :=
  uploads.filterMap fun (bucketId, u) => (uploadedFile env bucketId u).map fun f => (f, u)

/-- What is in the databases after a restore that has written `files`, by what has been committed. -/
def commitRestore (r : Restoration) (files : List (StoredFile × Upload)) (tenant default : Bool)
    (c : Content) : Content :=
  let c := if tenant then (r.change .tenant).apply c else c
  if default then
    { (r.change .default).apply c with files := ((r.change .default).apply c).files ++ files.map Prod.fst }
  else c

/-- An attempt of `run_restore_task`. Of the files it uploads, the objects of the first `puts` are stored when
it is rolled back, and they stay. -/
def runRestore (s : State) (jobId : Uuid) (passphrase : Option (List Char)) (a : Exports.RestoreAttempt)
    (puts : Nat) : State :=
  match s.content.restores.find? fun r => r.job.id == jobId with
  | none => s
  | some started =>
    let before : Exports.RestoreState := ⟨started.job, s.content.packages, fun _ => [], []⟩
    let after := (Exports.runRestore (env.reading passphrase) before a).1
    let content := { s.content with
      restores := s.content.restores.map fun r => if r.job.id = jobId then { r with job := after.job } else r
      packages := after.objects }
    match openedPackage (env.reading passphrase) before a with
    | none => { s with content }
    | some (archive, manifest) =>
      let restoration := env.restorePackage s.content started.createdBy archive manifest
      let files := restoredFiles env restoration.uploads
      let committed (connection : Exports.Atomicity.Alias) := !(after.written connection).isEmpty
      let stored := if committed .default then files else files.take puts
      { content := commitRestore restoration files (committed .tenant) (committed .default) content
        objects := stored.foldl (fun objects f => putObject objects f.2) s.objects }

/-- What happens: a request, or an attempt of a task. -/
inductive Action where
  | request (user : Uuid) (r : Request)
  | runImport (jobId : Uuid) (a : Imports.Attempt)
  | runExport (jobId : Uuid) (a : Exports.ExportAttempt)
  | runRestore (jobId : Uuid) (passphrase : Option (List Char)) (a : Exports.RestoreAttempt) (puts : Nat)

/-- One action. -/
def step (s : State) : Action → State
  | .request user r => (serve env s user r).1
  | .runImport jobId a => runImport env s jobId a
  | .runExport jobId a => runExport env s jobId a
  | .runRestore jobId passphrase a puts => runRestore env s jobId passphrase a puts

end Tasks

/-! ## Confidentiality -/

variable {Key : Type} (env : Env Key)

/-- The response, where it is the user's. -/
def received (user : Uuid) (s : State) : Action → Option Response
  | .request actor r => if actor = user then some (serve env s actor r).2 else none
  | _ => none

/-- The objects of the files of other buckets are the same. -/
def Agree (bucket : Uuid) (c : Content) (objects objects' : Uuid → Option Bytes) : Prop :=
  ∀ f ∈ c.files, f.bucket ≠ bucket → objects f.file.pointer.objectKey = objects' f.file.pointer.objectKey

/-- The states differ in nothing but the bytes of the files of the bucket. -/
def SameOutside (bucket : Uuid) (s s' : State) : Prop :=
  s.content = s'.content ∧ Agree bucket s.content s.objects s'.objects

/-- The bytes have the same sizes. -/
def SameSizes (bucket : Uuid) (s s' : State) : Prop :=
  ∀ f ∈ s.content.files, f.bucket = bucket →
    (s.objects f.file.pointer.objectKey).map List.length = (s'.objects f.file.pointer.objectKey).map List.length

/-- The user may neither read the bucket, through a role or a grant, nor export its organization. -/
def Withheld (bucket user : Uuid) (s : State) : Prop :=
  ∀ organization, OwnedBy s.content bucket organization →
    require s.content user "storage.read" organization bucket = false ∧
      allows s.content user "export.manage" organization none = false

/-- No file of the bucket is previewed by the user, with the permission to import, nor imported, and its
organization is not exported. -/
def Unread (bucket user : Uuid) (s : State) : Action → Prop
  | .request actor (.importPreview fileId) =>
    actor = user → ∀ f organization, memberFile s.content user fileId = some (f, organization) →
      f.bucket = bucket → allows s.content user "dataset.import" organization none = false
  | .runImport jobId _ =>
    ∀ job ∈ s.content.imports.find? (fun job => job.id == jobId),
      ∀ f ∈ s.content.files.find? (fun f => f.id == job.file), f.bucket ≠ bucket
  | .runExport jobId _ =>
    ∀ job ∈ s.content.exports.find? (fun job => job.id == jobId),
      ¬ OwnedBy s.content bucket job.organizationId
  | _ => True

/-- The user receives the same of every two runs of the same actions from states that differ in nothing but
the bytes of the files of the bucket, of the same sizes, while the bucket is withheld from the user. -/
def Confidential (bucket user : Uuid) : Prop :=
  ∀ s s' as, SameOutside bucket s s' → SameSizes bucket s s' →
    Transition.Always (step env) (fun s _ => Withheld bucket user s) s as →
      Transition.observations (step env) (received env user) s as =
        Transition.observations (step env) (received env user) s' as

end Contents
