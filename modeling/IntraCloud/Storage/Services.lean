import IntraCloud.Audit.Record
import IntraCloud.Python.Codecs

/-!
# One file of a bucket

`FileObject`, `FileVersion` and the object store, and what `upload_file`, `upload_new_version`,
`delete_file`, `restore_file` and `FileDetailView.patch` write to them. SHA-256 and the settings are
parameters.
-/

namespace Storage

open Python

/-- `FileObject.Status`. -/
inductive FileStatus where
  | active
  | deleted
  | quarantined
  deriving DecidableEq, Repr

/-- What a row says of the object it designates. The keys of one file differ in their last part, a fresh
UUID. -/
structure Pointer where
  objectKey : Uuid
  size : Nat
  checksumSha256 : List Char
  deriving DecidableEq, Repr

/-- The row of `FileObject`. -/
structure FileObject where
  folder : Option Uuid
  displayFilename : String
  mimeType : String
  pointer : Pointer
  status : FileStatus
  deriving DecidableEq, Repr

/-- A row of `FileVersion`. -/
abbrev FileVersion := Pointer

/-- What is the same for all requests on the file: its bucket, the settings, and
`hashlib.sha256(data).hexdigest()`. -/
structure Config where
  versioningEnabled : Bool
  maxUploadSizeBytes : Nat
  sha256 : Bytes → List Char

/-- The row, its versions and its objects. -/
structure State where
  file : FileObject
  versions : List FileVersion
  objects : List (Uuid × Bytes)
  /-- The next UUID. -/
  nextKey : Uuid
  /-- The uploads that have been committed, in their order. Nothing reads them. -/
  uploads : List Pointer
  /-- The keys of the objects whose scan did not come back clean. Nothing reads them. -/
  unclean : List Uuid

/-! ## Reading an upload -/

/-- `_MAGIC_SIGNATURES`. -/
def magicSignatures : List (Bytes × String) :=
  [([0x89, 0x50, 0x4E, 0x47, 0x0D, 0x0A, 0x1A, 0x0A], "image/png"),
    ([0xFF, 0xD8, 0xFF], "image/jpeg"),
    ([0x47, 0x49, 0x46, 0x38, 0x37, 0x61], "image/gif"),
    ([0x47, 0x49, 0x46, 0x38, 0x39, 0x61], "image/gif"),
    ([0x25, 0x50, 0x44, 0x46, 0x2D], "application/pdf"),
    ([0x50, 0x4B, 0x03, 0x04], "application/zip"),
    ([0x1F, 0x8B], "application/gzip")]

/-- `sniff_mime_type`. -/
def sniffMimeType (head : Bytes) : String :=
  match magicSignatures.find? fun s => s.1.isPrefixOf head with
  | some (_, mimeType) => mimeType
  | none => if (decodeUtf8 head).isSome then "text/plain" else "application/octet-stream"

/-- `_hash_and_sniff`: the checksum, the size and the MIME type; `none` for `UploadTooLarge`. -/
def hashAndSniff (cfg : Config) (content : Bytes) : Option (List Char × Nat × String) :=
  if cfg.maxUploadSizeBytes < content.length then none
  else some (cfg.sha256 content, content.length, sniffMimeType (content.take 4096))

/-- The status of an upload: what the scan does not confirm clean is quarantined. -/
def uploadStatus (isClean : Bool) : FileStatus := if isClean then .active else .quarantined

/-! ## Writes -/

/-- `upload_file`: the object, then the row. -/
def uploadFile (cfg : Config) (folder : Option Uuid) (displayFilename : String) (content : Bytes)
    (isClean : Bool) : Option State :=
  match hashAndSniff cfg content with
  | none => none
  | some (checksum, size, mimeType) =>
    let pointer := ⟨0, size, checksum⟩
    some
      { file := ⟨folder, displayFilename, mimeType, pointer, uploadStatus isClean⟩
        versions := []
        objects := [(0, content)]
        nextKey := 1
        uploads := [pointer]
        unclean := if isClean then [] else [0] }

/-- `client.put_stream` under a new key. -/
def State.putStream (s : State) (content : Bytes) (isClean : Bool) : State :=
  { s with
    objects := (s.nextKey, content) :: s.objects
    nextKey := s.nextKey + 1
    unclean := if isClean then s.unclean else s.nextKey :: s.unclean }

/-- `client.delete`. -/
def State.deleteObject (s : State) (key : Uuid) : State :=
  { s with objects := s.objects.filter (·.1 ≠ key) }

/-- The transaction of `upload_new_version`, with the row as it was read: a `FileVersion` of what that row
designates, then the new values; `none` for the `IntegrityError` of a key that has its version already. -/
def State.replace (cfg : Config) (s : State) (copy : FileObject) (new : Pointer) (mimeType : String)
    (isClean : Bool) : Option State :=
  if cfg.versioningEnabled = true ∧ copy.pointer.objectKey ∈ s.versions.map (·.objectKey) then none
  else
    some { s with
      file := { s.file with pointer := new, mimeType, status := uploadStatus isClean }
      versions := if cfg.versioningEnabled then s.versions ++ [copy.pointer] else s.versions
      uploads := s.uploads ++ [new] }

/-- `file.save(update_fields=["status", "updated_at"])`. -/
def State.saveStatus (s : State) (status : FileStatus) : State :=
  { s with file := { s.file with status } }

/-- The validated data of a PATCH. -/
structure FileUpdate where
  displayFilename : Option String
  folder : Option (Option Uuid)
  deriving DecidableEq, Repr

/-- The row as it was read, with the changes of a PATCH. -/
def FileUpdate.apply (data : FileUpdate) (copy : FileObject) : FileObject :=
  { copy with
    folder := data.folder.getD copy.folder
    displayFilename := data.displayFilename.getD copy.displayFilename }

/-- `file_obj.save()`: every column of the row as it was read. -/
def State.save (s : State) (file : FileObject) : State := { s with file }

end Storage
