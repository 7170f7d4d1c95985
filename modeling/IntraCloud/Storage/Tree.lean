import IntraCloud.Relational.Forest
import IntraCloud.Storage.Services
import IntraCloud.Transition.Runs

/-!
# The folders and files of a bucket

What the requests of the storage API write to one bucket: `Folder`, `FileObject` and the object under the key
of each file. A request that a constraint refuses writes nothing.
-/

namespace Storage

open Audit Python Relational

/-- A row of `Folder`; its label is `name`. -/
abbrev Folder := Node String

/-- A row of `FileObject`, and the object under its key. -/
structure TreeFile where
  id : Uuid
  originalFilename : String
  file : FileObject
  body : Bytes
  deriving DecidableEq, Repr

/-- A bucket. -/
structure Tree where
  folders : List Folder
  files : List TreeFile
  /-- The next UUID. -/
  nextUuid : Uuid
  deriving DecidableEq, Repr

def Tree.empty : Tree := ⟨[], [], 0⟩

namespace Tree

/-! ## Writes -/

def hasFolder (t : Tree) (id : Uuid) : Bool := t.folders.any fun f => f.id == id

/-- `Folder.objects.create`: names are unique below a parent, and `NULL` is equal to no parent. -/
def createFolder (t : Tree) (parent : Option Uuid) (name : String) : Option (Tree × Uuid) :=
  if parent.isSome && t.folders.any (fun f => f.parent == parent && f.label == name) then none
  else some
    ({ t with folders := t.folders ++ [⟨t.nextUuid, parent, name⟩], nextUuid := t.nextUuid + 1 }, t.nextUuid)

/-- Both rows are active, under one name of one folder. -/
def SameName (f g : TreeFile) : Prop :=
  f.file.status = .active ∧ g.file.status = .active ∧ f.file.folder ≠ none ∧
    f.file.folder = g.file.folder ∧ f.file.displayFilename = g.file.displayFilename

instance (f g : TreeFile) : Decidable (SameName f g) := by
  unfold SameName; infer_instance

/-- `unique_active_filename_per_folder` refuses the row. -/
def clashes (t : Tree) (f : TreeFile) : Bool := t.files.any fun g => g.id != f.id && SameName f g

/-- The largest value of a `BigIntegerField`. -/
def maxBigInteger : Nat := 9223372036854775807

/-- How `upload_file` can fail: `UploadTooLarge`, or an error of the database. -/
inductive UploadError where
  | tooLarge
  | databaseError
  deriving DecidableEq, Repr

/-- `_hash_and_sniff`, with the column that takes the size. -/
def readUpload (cfg : Config) (data : Bytes) : Except UploadError (Pointer × String) :=
  match hashAndSniff cfg data with
  | none => .error .tooLarge
  | some (checksum, size, mimeType) =>
    if maxBigInteger < size then .error .databaseError else .ok (⟨0, size, checksum⟩, mimeType)

/-- `upload_file`. -/
def uploadFile (cfg : Config) (t : Tree) (folder : Option Uuid) (displayFilename originalFilename : String)
    (data : Bytes) (isClean : Bool) : Except UploadError Tree :=
  match readUpload cfg data with
  | .error e => .error e
  | .ok (pointer, mimeType) =>
    let f : TreeFile :=
      ⟨t.nextUuid, originalFilename,
        ⟨folder, displayFilename, mimeType, { pointer with objectKey := t.nextUuid }, uploadStatus isClean⟩, data⟩
    if t.clashes f then .error .databaseError
    else .ok { t with files := t.files ++ [f], nextUuid := t.nextUuid + 1 }

/-- An update of the row of a file. -/
def saveFile (t : Tree) (id : Uuid) (change : TreeFile → TreeFile) : Tree :=
  match t.files.find? fun f => f.id == id with
  | none => t
  | some f =>
    if t.clashes (change f) then t
    else { t with files := t.files.map fun g => if g.id = id then change f else g }

/-- `upload_new_version`. -/
def uploadNewVersion (cfg : Config) (t : Tree) (id : Uuid) (data : Bytes) (isClean : Bool) : Tree :=
  match readUpload cfg data with
  | .error _ => t
  | .ok (pointer, mimeType) =>
    let saved := t.saveFile id fun f =>
      { f with
        file := { f.file with
          pointer := { pointer with objectKey := t.nextUuid }, mimeType, status := uploadStatus isClean }
        body := data }
    { saved with nextUuid := t.nextUuid + 1 }

/-! ## Requests -/

/-- The requests of the storage API that write to a bucket. -/
inductive Request where
  | createFolder (parent : Option Uuid) (name : String)
  | uploadFile (folder : Option Uuid) (displayFilename originalFilename : String) (data : Bytes)
      (isClean : Bool)
  | uploadNewVersion (file : Uuid) (data : Bytes) (isClean : Bool)
  | patchFile (file : Uuid) (data : FileUpdate)
  | deleteFile (file : Uuid)
  | restoreFile (file : Uuid)

/-- A folder of a request is one of the bucket. -/
def knows (t : Tree) (folder : Option Uuid) : Bool := folder.all t.hasFolder

/-- One request. -/
def step (cfg : Config) (t : Tree) : Request → Tree
  | .createFolder parent name =>
    if !t.knows parent then t
    else
      match t.createFolder parent name with
      | none => t
      | some (t, _) => t
  | .uploadFile folder displayFilename originalFilename data isClean =>
    if !t.knows folder then t
    else
      match t.uploadFile cfg folder displayFilename originalFilename data isClean with
      | .error _ => t
      | .ok t => t
  | .uploadNewVersion file data isClean => t.uploadNewVersion cfg file data isClean
  | .patchFile file data =>
    if !t.knows (data.folder.getD none) then t
    else t.saveFile file fun f => { f with file := data.apply f.file }
  | .deleteFile file => t.saveFile file fun f => { f with file := { f.file with status := .deleted } }
  | .restoreFile file => t.saveFile file fun f => { f with file := { f.file with status := .active } }

/-- The storage API arrives at the bucket. -/
def Reachable (cfg : Config) (t : Tree) : Prop := ∃ requests, Transition.run (step cfg) empty requests = t

/-! ## What holds throughout -/

/-- The constraints of the tables, and what is recorded of every object. -/
structure Valid (cfg : Config) (t : Tree) : Prop where
  formed : Forest.Formed t.folders
  folderIds : ∀ f ∈ t.folders, f.id < t.nextUuid
  fileIds : Keyed TreeFile.id t.files
  fresh : ∀ f ∈ t.files, f.id < t.nextUuid
  folders : ∀ f ∈ t.files, ∀ id ∈ f.file.folder, ∃ g ∈ t.folders, g.id = id
  names : ∀ f ∈ t.files, ∀ g ∈ t.files, SameName f g → f = g
  contents : ∀ f ∈ t.files, f.file.pointer.checksumSha256 = cfg.sha256 f.body ∧
    f.file.pointer.size = f.body.length ∧ f.body.length ≤ cfg.maxUploadSizeBytes ∧
    f.body.length ≤ maxBigInteger

/-- The rows of the first tree are in the second one: a folder as it was, a file under its id. -/
structure Keeps (t t' : Tree) : Prop where
  folders : t.folders <+: t'.folders
  files : ∀ f ∈ t.files, ∃ g ∈ t'.files, g.id = f.id ∧ g.originalFilename = f.originalFilename

end Tree

end Storage
