import IntraCloud.Exports.Builder
import IntraCloud.Python.JsonValue
import IntraCloud.Storage.Tree

/-!
# The folders and files of a bucket in a package

A package has no folders: `_export_bucket` lists the active files with the names on the way to each, and
`_restore_bucket` makes the folders of these paths again.
-/

namespace Exports

open Audit Python Relational Storage

/-! ## Export -/

/-- `_folder_path`. -/
def folderPath (t : Tree) (folder : Option Uuid) : List String :=
  (Forest.upward t.folders t.nextUuid folder).reverse

/-- What the loop of `_export_bucket` reads of a file. -/
def fileContent (t : Tree) (f : TreeFile) : FileContent :=
  { folderPath := folderPath t f.file.folder
    displayFilename := f.file.displayFilename
    originalFilename := f.originalFilename
    mimeType := f.file.mimeType
    size := f.file.pointer.size
    checksumSha256 := f.file.pointer.checksumSha256
    body := f.body }

/-- The rows of `FileObject.objects.filter(bucket=bucket, status=FileObject.Status.ACTIVE)`. -/
def activeFiles (t : Tree) : List TreeFile := t.files.filter fun f => f.file.status == .active

/-- The bucket, with the answer of that query. -/
def bucketContent (name : String) (versioningEnabled : Bool) (t : Tree) (files : List TreeFile) :
    BucketContent :=
  ⟨name, versioningEnabled, files.map (fileContent t)⟩

/-! ## Restore -/

/-- What the loop of `_restore_bucket` reads of a `file_data` before the upload. -/
structure FileData where
  folderPath : List String
  contentRef : List Char
  originalFilename : String
  displayFilename : String

def fileData? (value : PyJson) : Option FileData := do
  let names ← ((value.field "folder_path").bind PyJson.iterate).bind fun items => items.mapM PyJson.asStr
  let contentRef ← strField value "content_ref"
  let originalFilename ← strField value "original_filename"
  let displayFilename ← strField value "display_filename"
  return ⟨names.map String.ofList, contentRef, String.ofList originalFilename, String.ofList displayFilename⟩

/-- The new bucket, and `folder_cache`, where a path starts with the name of the folder itself. -/
structure RestoringBucket where
  tree : Tree
  cache : List (List String × Uuid)

def RestoringBucket.empty : RestoringBucket := ⟨Tree.empty, []⟩

/-- `_get_or_create_folder`; nothing where a constraint refuses the folder. -/
def getOrCreateFolder (r : RestoringBucket) : List String → Option (RestoringBucket × Option Uuid)
  | [] => some (r, none)
  | name :: above =>
    match r.cache.lookup (name :: above) with
    | some id => some (r, some id)
    | none => do
      let (r, parent) ← getOrCreateFolder r above
      let (tree, id) ← r.tree.createFolder parent name
      return (⟨tree, r.cache ++ [(name :: above, id)]⟩, some id)

/-- The body of the loop of `_restore_bucket`, where `read` is `zf.read` and `isClean` is what the scan of an
upload says; nothing where it raises. -/
def restoreFileData (cfg : Config) (isClean : Uuid → Bool) (read : List Char → Option Bytes)
    (r : RestoringBucket) (value : PyJson) : Option RestoringBucket := do
  let file ← fileData? value
  let (r, folder) ← getOrCreateFolder r file.folderPath.reverse
  let content ← read file.contentRef
  match r.tree.uploadFile cfg folder file.displayFilename file.originalFilename content
      (isClean r.tree.nextUuid) with
  | .ok tree =>
    -- Another checksum is a warning.
    let _ ← value.field "checksum_sha256"
    return { r with tree }
  -- A warning, and the file is left out.
  | .error .tooLarge => some r
  | .error .databaseError => none

/-- `zf.read(name)`, from the members that were written. -/
def Building.read (b : Building) (name : List Char) : Option Bytes := b.entries.lookup name

/-- `_restore_bucket`, with the bucket it makes. -/
def restoreBucket (cfg : Config) (isClean : Uuid → Bool) (read : List Char → Option Bytes)
    (bucketData : PyJson) : Option Tree := do
  let _ ← strField bucketData "name"
  let _ ← bucketData.field "versioning_enabled"
  let files ← (bucketData.field "files").bind PyJson.iterate
  let r ← files.foldlM (restoreFileData cfg isClean read) RestoringBucket.empty
  return r.tree

/-! ## Round trips -/

/-- The folders are the same but for their ids, and so are the files that were exported. -/
def Isomorphic (t : Tree) (files : List TreeFile) (restored : Tree) : Prop :=
  ∃ rename, Forest.Renames rename t.folders restored.folders ∧
    (restored.files.map fun f => (f.file.folder, f.file.displayFilename, f.body)).Perm
      (files.map fun f => (f.file.folder.map rename, f.file.displayFilename, f.body))

/-- The export of the bucket, with that answer of the query, restores to an isomorphic bucket. -/
def BucketRoundTrips (f : Formats) (cfg : Config) (isClean : Uuid → Bool) (name : String) (t : Tree)
    (files : List TreeFile) : Prop :=
  ∃ b payload data restored,
    exportBucket f Building.empty (bucketContent name cfg.versioningEnabled t files) = some (b, payload) ∧
      Json.loads (Json.dumpsSorted payload) = some data ∧
      restoreBucket cfg isClean b.read data = some restored ∧
      Isomorphic t files restored

/-- What paths of active files tell of a bucket is all there is: each folder is on one of them, no two
folders have the same path, and a checksum stands for one content. -/
structure Flattens (t : Tree) : Prop where
  used : ∀ folder ∈ t.folders, ∃ f ∈ activeFiles t, Forest.Above t.folders folder.id f.file.folder
  roots : Forest.RootsDistinct t.folders
  checksums : ∀ f ∈ activeFiles t, ∀ g ∈ activeFiles t,
    f.file.pointer.checksumSha256 = g.file.pointer.checksumSha256 → f.body = g.body

end Exports
