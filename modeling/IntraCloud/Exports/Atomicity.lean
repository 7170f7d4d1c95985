import IntraCloud.Exports.Restorer
import IntraCloud.Relational.Transactions

/-!
# The transactions of a restore

`restore_package` as the statements it executes on its two connections, in the blocks it executes them in.
A database is what has been written to it; whether a step goes through is up to the circumstances.
-/

namespace Exports.Atomicity

open Databases Python Relational

/-- The two connections. -/
inductive Alias where
  | default
  | tenant
  deriving DecidableEq, Repr

/-- A statement, with the name of what it is about. -/
inductive Statement where
  | select
  | insert (model name : String)
  | ddl (command name : String)
  deriving DecidableEq, Repr

/-- What a statement writes. -/
def Statement.run : Statement → List Statement → List Statement
  | .select, written => written
  | s, written => written ++ [s]

/-! ## The parts of a package -/

structure DatabasePart where
  name : String
  tables : List (TableData × List Csv.Record)

structure FilePart where
  folderPath : List String
  displayFilename : String
  /-- The content exceeds the upload size limit. -/
  oversized : Bool

structure BucketPart where
  name : String
  files : List FilePart

structure ProjectPart where
  name : String
  databases : List DatabasePart
  buckets : List BucketPart

structure WorkspacePart where
  name : String
  projects : List ProjectPart

structure MembershipPart where
  email : String
  /-- There is an account with the address, and it is a member already. -/
  account : Bool
  member : Bool
  roleSlugs : List String

structure PackageParts where
  organization : String
  /-- How many slugs are drawn that are taken. -/
  takenSlugs : Nat
  teams : List String
  workspaces : List WorkspacePart
  memberships : List MembershipPart

/-- The tenant databases of the package. -/
def PackageParts.databases (package : PackageParts) : List DatabasePart :=
  package.workspaces.flatMap fun workspace => workspace.projects.flatMap (·.databases)

/-! ## Services -/

abbrev Steps := Program Alias Statement

def read : Steps := .execute .default .select

def insert (model name : String) : Steps := .execute .default (.insert model name)

/-- `audit.record`. -/
def record (action : String) : Steps := insert "audit.AuditEvent" action

/-- `_require`: a denial is recorded before it is raised. -/
def require (action : String) : Steps := .seq read (.onError .compute (record action))

/-- `_execute_tenant_ddl`. -/
def executeTenantDdl (command name : String) : Steps :=
  .atomic .tenant (.execute .tenant (.ddl command name))

/-- `_write_catalog`. -/
def writeCatalog (writes compensating : Steps) : Steps :=
  .onError (.atomic .default writes) (.ignoring compensating)

/-- `assign_role`. -/
def assignRole (slug : String) : Steps :=
  .all [read, .compute, insert "permissions.RoleAssignment" slug, record "permissions.role.assign"]

/-- `create_organization`. -/
def createOrganization (name : String) : Steps :=
  .seq
    (.atomic .default (.all [insert "organizations.Organization" name,
      insert "organizations.Membership" name, assignRole "organization-administrator"]))
    (record "organization.create")

/-- `create_tenant_database`. -/
def createTenantDatabase (name : String) : Steps :=
  .all [require "database.create", .compute, executeTenantDdl "CREATE SCHEMA" name,
    writeCatalog (insert "databases.TenantDatabase" name) (executeTenantDdl "DROP SCHEMA" name),
    record "database.create"]

/-- `create_table`. -/
def createTable (name : String) : Steps :=
  .all [require "database.table.create", .compute, executeTenantDdl "CREATE TABLE" name,
    writeCatalog (.seq (insert "databases.DBTable" name) (insert "databases.DBColumn" "id"))
      (executeTenantDdl "DROP TABLE" name),
    record "database.table.create"]

/-- `add_column`. -/
def addColumn (spec : ColumnSpec) : Steps :=
  let index : Steps :=
    if spec.isUnique then .seq (insert "databases.DBIndex" spec.name) (insert "databases.DBIndex.columns" spec.name)
    else .skip
  .all [require "database.column.create", .compute, executeTenantDdl "ADD COLUMN" spec.name,
    writeCatalog (.seq (insert "databases.DBColumn" spec.name) index)
      (executeTenantDdl "DROP COLUMN" spec.name),
    record "database.column.create"]

/-- `add_foreign_key`, which also looks for a foreign key of the column. -/
def addForeignKey (fk : ForeignKeyContent) : Steps :=
  .all [require "database.foreign_key.create", .compute, read, .compute,
    executeTenantDdl "ADD CONSTRAINT" fk.column,
    writeCatalog (insert "databases.DBForeignKey" fk.column)
      (executeTenantDdl "DROP CONSTRAINT" fk.column),
    record "database.foreign_key.create"]

/-- `upload_file`: the object is stored before its row is written. -/
def uploadFile (file : FilePart) : Steps :=
  .all [.compute, insert "storage.FileObject" file.displayFilename, record "storage.file.upload"]

/-! ## The restore -/

/-- The first loop of `_restore_tenant_database`. -/
def restoreTable (t : TableData) : Steps :=
  .all [.compute, createTable t.name, read, .each t.columns fun spec => .seq .compute (addColumn spec)]

/-- `_restore_rows`: the rows go straight to the tenant connection. -/
def restoreRows (t : TableData × List Csv.Record) : Steps :=
  .all [.compute, read, .compute,
    .each t.2 fun _ => .seq .compute (.execute .tenant (.insert t.1.name "row"))]

/-- The rows, in the order of `_topological_order`. -/
def restoreAllRows (tables : List (TableData × List Csv.Record)) : Steps :=
  match topologicalOrder Prod.fst tables with
  | none => .raise
  | some order => .each order restoreRows

/-- `_restore_tenant_database`. -/
def restoreTenantDatabase (d : DatabasePart) : Steps :=
  .all [.compute, createTenantDatabase d.name, .each d.tables fun t => restoreTable t.1,
    .each d.tables fun t => .each t.1.foreignKeys fun fk => .seq .compute (addForeignKey fk),
    restoreAllRows d.tables]

/-- The body of the loop of `_restore_bucket`, with `folder_cache`. -/
def restoreFiles (cache : List (List String)) : List FilePart → Steps
  | [] => .skip
  | file :: files =>
    let folders := missingFolders cache file.folderPath
    let upload := if file.oversized then .compute else uploadFile file
    .all [.compute, .each folders fun folder => insert "storage.Folder" (folder.getLastD ""), .compute, upload,
      restoreFiles (cache ++ folders) files]

/-- `_restore_bucket`. -/
def restoreBucket (bucket : BucketPart) : Steps :=
  .all [.compute, insert "storage.Bucket" bucket.name, restoreFiles [[]] bucket.files]

def restoreProject (project : ProjectPart) : Steps :=
  .all [.compute, insert "workspaces.Project" project.name, .each project.databases restoreTenantDatabase,
    .each project.buckets restoreBucket]

def restoreWorkspace (workspace : WorkspacePart) : Steps :=
  .all [.compute, insert "workspaces.Workspace" workspace.name, .each workspace.projects restoreProject]

/-- The body of the loop of `_restore_memberships`. Every exception of `assign_role` is passed over. -/
def restoreMembership (entry : MembershipPart) : Steps :=
  if entry.account then
    .all [read, read,
      if entry.member then .skip
      else .atomic .default (insert "organizations.Membership" entry.email),
      .each (entry.roleSlugs.filter (· ≠ "organization-administrator")) fun slug =>
        .ignoring (assignRole slug)]
  else read

/-- The body of the two blocks of `restore_package`. -/
def restoreBody (package : PackageParts) : Steps :=
  .all [.each (List.replicate (package.takenSlugs + 1) ()) fun _ => read,
    createOrganization package.organization,
    .each package.teams (insert "organizations.Team"), .each package.workspaces restoreWorkspace,
    .each package.memberships restoreMembership]

/-- `restore_package`. -/
def restorePackageSteps (package : PackageParts) : Steps :=
  .seq .compute (.atomic .default (.atomic .tenant (restoreBody package)))

/-! ## All or nothing -/

/-- If the call raised, both databases are as they were. -/
def AllOrNothing (before : World Alias (List Statement)) (out : World Alias (List Statement) × Bool) :
    Prop :=
  out.2 = false → ∀ c, (out.1.connection c).committed = (before.connection c).committed

end Exports.Atomicity
