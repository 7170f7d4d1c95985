import IntraCloud.Exports.Memberships
import IntraCloud.Exports.Package
import IntraCloud.Exports.Schema

/-!
# Building a package

`build_export` of `exports/builder.py`, over what it reads of an organization.
-/

namespace Exports

open Databases Python

/-! ## What is exported -/

/-- A `FileObject` that is `ACTIVE`, with the names of its folders and the bytes in storage. -/
structure FileContent where
  folderPath : List String
  displayFilename : String
  originalFilename : String
  mimeType : String
  size : Nat
  checksumSha256 : List Char
  body : Bytes

structure BucketContent where
  name : String
  versioningEnabled : Bool
  files : List FileContent

structure ProjectContent where
  name : String
  databases : List DatabaseContent
  buckets : List BucketContent

structure WorkspaceContent where
  name : String
  projects : List ProjectContent

/-- The tenant databases of all projects. -/
def allDatabases (workspaces : List WorkspaceContent) : List DatabaseContent :=
  workspaces.flatMap fun workspace => workspace.projects.flatMap (·.databases)

/-- The files of all buckets. -/
def allFiles (workspaces : List WorkspaceContent) : List FileContent :=
  workspaces.flatMap fun workspace => workspace.projects.flatMap fun project =>
    project.buckets.flatMap (·.files)

/-- An organization as the builder reads it. Ids are primary keys, and UUIDs have different digits;
integers and defaults are values of their columns. -/
structure OrganizationContent where
  name : String
  slug : String
  workspaces : List WorkspaceContent
  teams : List String
  memberships : List MembershipEntry
  databaseKeys : ((allDatabases workspaces).map fun d => hex d.id).Nodup
  tableKeys : ∀ d ∈ allDatabases workspaces, (d.tables.map fun t => hex t.id).Nodup
  integers : ∀ d ∈ allDatabases workspaces, ∀ t ∈ d.tables, ∀ c ∈ t.columns,
    Catalog.numbersFit c = true
  defaults : ∀ d ∈ allDatabases workspaces, ∀ t ∈ d.tables, ∀ c ∈ t.columns,
    Json.Writable (defaultJson c.defaultValue)
  sizes : ∀ file ∈ allFiles workspaces, (natText file.size).length ≤ maxStrDigits

/-! ## The archive -/

/-- The archive under way: the members written, `manifest["checksums"]`, `content_hash_to_arcname` and
`databases_manifest`. -/
structure Building where
  entries : List (List Char × Bytes)
  checksums : List (List Char × PyJson)
  arcnames : List (List Char × List Char)
  databases : List (List Char × PyJson)

def Building.empty : Building := ⟨[], [], [], []⟩

/-- `_ArchiveWriter.write_bytes`, and `write_stream` of all chunks. -/
def Building.write (f : Formats) (b : Building) (name : List Char) (data : Bytes) : Building :=
  { b with
    entries := b.entries ++ [(name, data)]
    checksums := Json.setMember name (.str (f.hexdigest data)) b.checksums }

/-- A loop that carries a state and may raise. -/
def mapAccum? {σ α β : Type} (g : σ → α → Option (σ × β)) : σ → List α → Option (σ × List β)
  | s, [] => some (s, [])
  | s, a :: as => do
    let (s, b) ← g s a
    let (s, bs) ← mapAccum? g s as
    return (s, b :: bs)

/-! ## Tenant databases -/

/-- The bytes of the rows of a table. -/
def rowsBytes (t : TableContent) : Bytes := utf8Encode (Csv.recordsText t.rows)

/-- The bytes of `schema.json`. -/
def schemaBytes (d : DatabaseContent) : Bytes := utf8Encode (Json.dumpsSorted (schemaDict d))

/-- `_export_tenant_database`, and the entry it gets in `databases_manifest`. -/
def exportDatabase (f : Formats) (b : Building) (d : DatabaseContent) : Building :=
  let b := d.tables.foldl (fun b t => b.write f (rowsArcname d t) (rowsBytes t)) b
  let b := b.write f (schemaArcname d) (schemaBytes d)
  let entry := .dict [
    ("name".toList, jsonStr d.name),
    ("schema_path".toList, .str (schemaArcname d))]
  { b with databases := Json.setMember (hex d.id) entry b.databases }

/-! ## Buckets -/

/-- `f"objects/{checksum_sha256}"`. -/
def objectArcname (checksum : List Char) : List Char := "objects/".toList ++ checksum

/-- An entry of `files_payload`. -/
def fileDict (file : FileContent) (contentRef : List Char) : PyJson :=
  .dict [
    ("folder_path".toList, .list (file.folderPath.map jsonStr)),
    ("display_filename".toList, jsonStr file.displayFilename),
    ("original_filename".toList, jsonStr file.originalFilename),
    ("mime_type".toList, jsonStr file.mimeType),
    ("size".toList, .int file.size),
    ("checksum_sha256".toList, .str file.checksumSha256),
    ("content_ref".toList, .str contentRef)]

/-- The body of the loop of `_export_bucket`; it raises where the stored bytes have another checksum. -/
def exportFile (f : Formats) (b : Building) (file : FileContent) : Option (Building × PyJson) :=
  match b.arcnames.find? (·.1 == file.checksumSha256) with
  | some found => some (b, fileDict file found.2)
  | none =>
    let contentRef := objectArcname file.checksumSha256
    let b := b.write f contentRef file.body
    if f.hexdigest file.body ≠ file.checksumSha256 then none
    else some
      ({ b with arcnames := b.arcnames ++ [(file.checksumSha256, contentRef)] },
        fileDict file contentRef)

/-- An entry of `bucket_payload`. -/
def bucketDict (bucket : BucketContent) (files : List PyJson) : PyJson :=
  .dict [
    ("name".toList, jsonStr bucket.name),
    ("versioning_enabled".toList, .bool bucket.versioningEnabled),
    ("files".toList, .list files)]

/-- `_export_bucket`. -/
def exportBucket (f : Formats) (b : Building) (bucket : BucketContent) : Option (Building × PyJson) :=
  (mapAccum? (exportFile f) b bucket.files).map fun (b, files) => (b, bucketDict bucket files)

/-! ## The manifest -/

/-- An entry of `projects_payload`. -/
def projectDict (project : ProjectContent) (buckets : List PyJson) : PyJson :=
  .dict [
    ("name".toList, jsonStr project.name),
    ("tenant_databases".toList, .list (project.databases.map fun d => .str (hex d.id))),
    ("buckets".toList, .list buckets)]

/-- The databases of a project, then its buckets. -/
def exportProject (f : Formats) (b : Building) (project : ProjectContent) :
    Option (Building × PyJson) :=
  (mapAccum? (exportBucket f) (project.databases.foldl (exportDatabase f) b) project.buckets).map
    fun (b, buckets) => (b, projectDict project buckets)

/-- An entry of `workspaces_payload`. -/
def workspaceDict (workspace : WorkspaceContent) (projects : List PyJson) : PyJson :=
  .dict [
    ("name".toList, jsonStr workspace.name),
    ("projects".toList, .list projects)]

def exportWorkspace (f : Formats) (b : Building) (workspace : WorkspaceContent) :
    Option (Building × PyJson) :=
  (mapAccum? (exportProject f) b workspace.projects).map
    fun (b, projects) => (b, workspaceDict workspace projects)

/-- An entry of `memberships_payload`. -/
def membershipDict (m : MembershipEntry) : PyJson :=
  .dict [
    ("email".toList, jsonStr m.email),
    ("team".toList, (m.team.map jsonStr).getD .null),
    ("role_slugs".toList, .list (m.roleSlugs.map jsonStr))]

/-- `manifest["organization"]`. -/
def organizationDict (content : OrganizationContent) (workspaces : List PyJson) : PyJson :=
  .dict [
    ("name".toList, jsonStr content.name),
    ("slug".toList, jsonStr content.slug),
    ("workspaces".toList, .list workspaces),
    ("teams".toList, .list (content.teams.map jsonStr)),
    ("memberships".toList, .list (content.memberships.map membershipDict))]

/-- The version of the installation, and the id of the export. -/
structure ExportInfo where
  productVersion : String
  exportId : Uuid

/-- `new_manifest`, filled in. -/
def manifestDict (info : ExportInfo) (organization : PyJson) (b : Building) : PyJson :=
  .dict [
    ("format".toList, jsonStr FORMAT_NAME),
    ("format_version".toList, .int FORMAT_VERSION),
    ("product_version".toList, jsonStr info.productVersion),
    ("export_id".toList, .str (uuidText info.exportId)),
    ("export_type".toList, jsonStr "organization"),
    ("organization".toList, organization),
    ("databases".toList, .dict b.databases),
    ("checksums".toList, .dict b.checksums),
    ("encryption".toList, .null),
    ("excluded".toList, .list (EXCLUDED_SCOPE.map jsonStr))]

/-- The members of the archive, `manifest.json` last. -/
def archiveEntries (f : Formats) (info : ExportInfo) (content : OrganizationContent) :
    Option (List (List Char × Bytes)) :=
  (mapAccum? (exportWorkspace f) Building.empty content.workspaces).map fun (b, workspaces) =>
    let manifest := manifestDict info (organizationDict content workspaces) b
    b.entries ++ [("manifest.json".toList, utf8Encode (Json.dumpsSorted manifest))]

/-- `build_export`: the container and its checksum. -/
def buildExport {Key : Type} (p : Primitives Key) (f : Formats) (r : Randomness) (info : ExportInfo)
    (content : OrganizationContent) (passphrase : Option (List Char)) : Option (Bytes × List Char) := do
  let entries ← archiveEntries f info content
  let data ← writeContainer p r (f.pack entries) passphrase
  return (data, f.hexdigest data)

/-! ## The archive format -/

/-- A name that the archive format keeps as it is. -/
def ArchiveName (name : List Char) : Prop :=
  name.length < 65536 ∧ ∀ c ∈ name, ' ' ≤ c ∧ c ≤ '~'

/-- Reading an archive gives the members that were written to it. -/
def Formats.RoundTrips (f : Formats) : Prop :=
  ∀ entries : List (List Char × Bytes), (entries.map (·.1)).Nodup →
    (∀ entry ∈ entries, ArchiveName entry.1) →
    f.unpack (f.pack entries) = some (entries.map fun entry => (entry.1, .ok entry.2))

end Exports
