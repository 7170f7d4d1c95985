import IntraCloud.Exports.Container
import IntraCloud.Python.JsonValue

/-!
# Opening a package

`exports/manifest.py`, `open_package` and `verify_checksums` of `exports/restorer.py`, and the members of the archive
that `restore_package` goes on to read. `zipfile` and SHA-256 are parameters.
-/

namespace Exports

open Python

/-! ## The manifest -/

def FORMAT_NAME : String := "intracloud-portable"

def FORMAT_VERSION : Int := 1

/-- `EXCLUDED_SCOPE`. -/
def EXCLUDED_SCOPE : List String :=
  ["applications", "connected_databases", "sharing", "analytics", "user_password_hashes"]

/-- `ManifestError`, by its message. -/
inductive ManifestError where
  /-- "manifest is not a JSON object" -/
  | notAnObject
  /-- "not an intracloud-portable package" -/
  | notAPackage
  /-- "manifest is missing a valid format_version" -/
  | missingFormatVersion
  /-- "this package's format_version (...) is newer than this installation understands (1) ..." -/
  | newerFormatVersion (version : Int)
  /-- "unsupported export_type: ..." -/
  | unsupportedExportType (exportType : Option PyJson)
  /-- "manifest is missing organization data" -/
  | missingOrganization

/-- The integer a value is an instance of; a `bool` is one. -/
def asInt? : PyJson → Option Int
  | .int n => some n
  | .bool b => some (if b then 1 else 0)
  | _ => none

/-- The value is this string. -/
def isStr (s : String) : Option PyJson → Bool
  | some (.str t) => t == s.toList
  | _ => false

/-- The members of a value that is a `dict`. -/
def asDict : Option PyJson → Option (List (List Char × PyJson))
  | some (.dict members) => some members
  | _ => none

/-- `validate_manifest_shape`, with the members of the manifest. -/
def validateManifestShape (manifest : PyJson) :
    Except ManifestError (List (List Char × PyJson)) :=
  match asDict (some manifest) with
  | none => .error .notAnObject
  | some members =>
    let get := fun key : String => Json.member? key.toList members
    if !isStr FORMAT_NAME (get "format") then .error .notAPackage
    else
      match (get "format_version").bind asInt? with
      | none => .error .missingFormatVersion
      | some version =>
        if FORMAT_VERSION < version then .error (.newerFormatVersion version)
        else if !isStr "organization" (get "export_type") then
          .error (.unsupportedExportType (get "export_type"))
        else if (asDict (get "organization")).isNone then .error .missingOrganization
        else .ok members

/-! ## The archive -/

/-- What reading a member raises: a `KeyError` where there is none of the name, one of
`_CORRUPT_ARCHIVE_ERRORS`, or something else. -/
inductive ArchiveError where
  | keyError
  | corrupt
  | other
  deriving DecidableEq, Repr

/-- The members of a `ZipFile` in the order of its directory, each with what decompressing it gives. -/
abbrev Archive := List (List Char × Except ArchiveError Bytes)

/-- `zf.read(name)`: the last member of a name is the one. -/
def Archive.read (a : Archive) (name : List Char) : Except ArchiveError Bytes :=
  match a.reverse.find? (·.1 == name) with
  | none => .error .keyError
  | some member => member.2

/-- `zipfile` and `hashlib.sha256`. `unpack` is `none` where `ZipFile` raises `BadZipFile`. -/
structure Formats where
  unpack : Bytes → Option Archive
  pack : List (List Char × Bytes) → Bytes
  sha256 : Bytes → BitVec 256

/-- `hashlib.sha256(data).hexdigest()`. -/
def Formats.hexdigest (f : Formats) (data : Bytes) : List Char := hexText 64 (f.sha256 data).toNat

/-! ## Opening -/

/-- What `open_package` and `verify_checksums` raise. -/
inductive PackageError where
  | container (e : ReadError)
  | validation (message : String)
  | manifest (e : ManifestError)
  | other

/-- `json.loads(zf.read("manifest.json"))`. -/
def readManifest (a : Archive) : Except PackageError PyJson :=
  match a.read "manifest.json".toList with
  | .error .keyError => .error (.validation "not a valid package: missing manifest.json")
  | .error .corrupt => .error (.validation "not a valid package: corrupt manifest.json")
  | .error .other => .error .other
  | .ok bytes =>
    match Json.loadBytes bytes with
    | none => .error (.validation "not a valid package: corrupt manifest.json")
    | some manifest => .ok manifest

/-- What `open_package` does to the payload of the container. -/
def openArchive (f : Formats) (zipBytes : Bytes) :
    Except PackageError (Archive × List (List Char × PyJson)) :=
  match f.unpack zipBytes with
  | none => .error (.validation "not a valid package: corrupt archive")
  | some a =>
    match readManifest a with
    | .error e => .error e
    | .ok manifest =>
      match validateManifestShape manifest with
      | .error e => .error (.manifest e)
      | .ok members => .ok (a, members)

/-- `open_package`. -/
def openPackage {Key : Type} (p : Primitives Key) (f : Formats) (data : Bytes)
    (passphrase : Option (List Char)) : Except PackageError (Archive × List (List Char × PyJson)) :=
  match readContainerPayload p data passphrase with
  | .error e => .error (.container e)
  | .ok zipBytes => openArchive f zipBytes

/-! ## Checksums -/

/-- The body of the loop of `verify_checksums`. -/
def verifyEntry (f : Formats) (a : Archive) (name : List Char) (expected : PyJson) :
    Except PackageError Unit :=
  let arcname := String.ofList name
  match a.read name with
  | .error .keyError =>
    .error (.validation s!"package is missing a file its manifest describes: {arcname}")
  | .error .corrupt => .error (.validation s!"corrupt data for {arcname}")
  | .error .other => .error .other
  | .ok data =>
    if expected.asStr = some (f.hexdigest data) then .ok ()
    else .error (.validation
      s!"checksum mismatch for {arcname} — package is corrupted or tampered with")

/-- The loop of `verify_checksums`. -/
def verifyEntries (f : Formats) (a : Archive) : List (List Char × PyJson) → Except PackageError Unit
  | [] => .ok ()
  | (name, expected) :: entries =>
    match verifyEntry f a name expected with
    | .error e => .error e
    | .ok () => verifyEntries f a entries

/-- `manifest.get("checksums", {})`. -/
def checksumsOf (manifest : List (List Char × PyJson)) : PyJson :=
  (Json.member? "checksums".toList manifest).getD (.dict [])

/-- `verify_checksums`. -/
def verifyChecksums (f : Formats) (a : Archive) (manifest : List (List Char × PyJson)) :
    Except PackageError Unit :=
  match asDict (some (checksumsOf manifest)) with
  | none => .error .other
  | some entries => verifyEntries f a entries

/-! ## What a restore reads -/

/-- The projects `restore_package` goes through. -/
def projectsOf (manifest : List (List Char × PyJson)) : List PyJson :=
  let organization := Json.member? "organization".toList manifest
  (PyJson.items (organization.bind (·.get "workspaces" (.list [])))).flatMap fun workspace =>
    PyJson.items (workspace.get "projects" (.list []))

/-- Each `schema_path`: `manifest["databases"][db_id]["schema_path"]`. -/
def schemaPaths (manifest : List (List Char × PyJson)) : List (List Char) :=
  (projectsOf manifest).flatMap fun project =>
    (PyJson.items (project.get "tenant_databases" (.list []))).filterMap fun id => do
      let databases ← Json.member? "databases".toList manifest
      let database ← databases.item id
      let path ← database.field "schema_path"
      path.asStr

/-- Each `rows_path` of a schema. -/
def rowsPaths (a : Archive) (schemaPath : List Char) : List (List Char) :=
  match a.read schemaPath with
  | .error _ => []
  | .ok bytes =>
    (PyJson.items ((Json.loadBytes bytes).bind (·.field "tables"))).filterMap fun table =>
      (table.field "rows_path").bind PyJson.asStr

/-- Each `content_ref`. -/
def contentRefs (manifest : List (List Char × PyJson)) : List (List Char) :=
  (projectsOf manifest).flatMap fun project =>
    (PyJson.items (project.get "buckets" (.list []))).flatMap fun bucket =>
      (PyJson.items (bucket.field "files")).filterMap fun file =>
        (file.field "content_ref").bind PyJson.asStr

/-- The members of the archive that a restore reads. -/
def namedMembers (a : Archive) (manifest : List (List Char × PyJson)) : List (List Char) :=
  schemaPaths manifest ++ (schemaPaths manifest).flatMap (rowsPaths a) ++ contentRefs manifest

/-! ## Properties -/

/-- The manifest has a checksum for the name. -/
def Listed (manifest : List (List Char × PyJson)) (name : List Char) : Prop :=
  ∃ entries, checksumsOf manifest = .dict entries ∧ name ∈ entries.map (·.1)

/-- The manifest has a checksum for the name, and the member's bytes hash to it. -/
def Verified (f : Formats) (a : Archive) (manifest : List (List Char × PyJson)) (name : List Char) :
    Prop :=
  ∃ entries data, checksumsOf manifest = .dict entries ∧ a.read name = .ok data ∧
    Json.member? name entries = some (.str (f.hexdigest data))

/-- Every member that a restore reads is verified. -/
def CoversReads (f : Formats) (a : Archive) (manifest : List (List Char × PyJson)) : Prop :=
  ∀ name ∈ namedMembers a manifest, Verified f a manifest name

end Exports
