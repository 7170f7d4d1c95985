import IntraCloud.Databases.Catalog
import IntraCloud.Organizations.Members
import IntraCloud.Permissions.Services

/-!
# The schema services

`databases/services.py` and the views that call it. Every operation follows one pipeline: the
permission check, the checks of the request, the DDL on the tenant connection, the catalog write on
the default one with a compensating DDL statement where it fails, the audit event. There is no
transaction over the two connections; the one request in hand may meet a fault at its DDL or at its
catalog write.
-/

namespace Databases

open Audit Organizations Permissions

/-- What the services read and write. -/
structure State where
  now : Nat
  memberships : List Membership
  projects : List Project
  tables : Tables
  catalog : Catalog
  tenant : Tenant
  nextUuid : Uuid
  deriving DecidableEq, Repr

/-- The exceptions of a service call and the error responses of its view. -/
inductive SchemaError where
  /-- `SchemaPermissionDenied`. -/
  | permissionDenied (message : String)
  /-- `SchemaValidationError`. -/
  | validation (message : String)
  /-- `Http404` of a lookup. -/
  | notFound
  /-- The 400 the foreign-key view returns itself. -/
  | badRequest (detail : String)
  /-- A database error that nothing maps to a response. -/
  | databaseError
  deriving DecidableEq, Repr

/-- A step that fails though the database would have accepted it. -/
inductive Fault where
  | ddl
  | catalogWrite
  deriving DecidableEq, Repr

/-- The two writes of an operation, and what undoes the first where the second fails. -/
structure Change where
  ddl : Ddl
  write : Catalog → Option Catalog
  compensating : Option Ddl

/-- The operation a service call has decided on: the rows it found and those it will insert. -/
inductive Plan where
  | createTenantDatabase (d : TenantDatabase)
  | createTable (t : DBTable) (pk : DBColumn)
  | addColumn (t : DBTable) (c : DBColumn) (index : Option DBIndex) (column : PhysicalColumn)
  | addForeignKey (fk : DBForeignKey) (c : DBColumn) (t rt : DBTable) (rc : DBColumn)
  | deleteTable (t : DBTable)
  | deleteTenantDatabase (d : TenantDatabase)
  deriving DecidableEq, Repr

/-- The writes of each operation: names go into the DDL, rows and ids into the catalog. -/
def Plan.change : Plan → Change
  | .createTenantDatabase d =>
    { ddl := .createSchema d.schemaName
      write := fun cat => cat.insertDatabase d
      compensating := some (.dropSchemaCascade d.schemaName) }
  | .createTable t pk =>
    { ddl := .createTable ⟨t.tenantDatabase⟩ t.name
      write := fun cat => cat.insertTable t pk
      compensating := some (.dropTable ⟨t.tenantDatabase⟩ t.name) }
  | .addColumn t c index column =>
    { ddl := .addColumn column
      write := fun cat => cat.insertColumn c index
      compensating := some (.dropColumn ⟨t.tenantDatabase⟩ t.name c.name) }
  | .addForeignKey fk c t rt rc =>
    { ddl := .addForeignKey (t.physicalForeignKey c rt rc fk.onDelete)
      write := fun cat => cat.insertForeignKey fk
      compensating := some (.dropConstraint ⟨t.tenantDatabase⟩ t.name c.id) }
  | .deleteTable t =>
    { ddl := .dropTable ⟨t.tenantDatabase⟩ t.name
      write := fun cat => some (cat.deleteTable t)
      compensating := none }
  | .deleteTenantDatabase d =>
    { ddl := .dropSchemaCascade d.schemaName
      write := fun cat => some (cat.deleteDatabase d)
      compensating := none }

/-- `_execute_tenant_ddl`. -/
def executeTenantDdl (ten : Tenant) (faulty : Bool) (ddl : Ddl) : Option Tenant :=
  if faulty then none else ten.exec ddl

/-- `_write_catalog`, and the bare transaction of the two deletions, which have no compensation. A
compensating statement that fails is only logged. -/
def writeCatalog (s : State) (faulty : Bool) (change : Change) : State × Except SchemaError Unit :=
  match (if faulty then none else change.write s.catalog) with
  | some catalog => ({ s with catalog }, .ok ())
  | none =>
    match change.compensating.bind s.tenant.exec with
    | some tenant => ({ s with tenant }, .error .databaseError)
    | none => (s, .error .databaseError)

/-- The DDL, then the catalog write. -/
def applyChange (s : State) (fault : Option Fault) (change : Change) :
    State × Except SchemaError Unit :=
  match executeTenantDdl s.tenant (fault == some .ddl) change.ddl with
  | none => (s, .error .databaseError)
  | some tenant => writeCatalog { s with tenant } (fault == some .catalogWrite) change

/-- What one service call is made of: the permission `_require` asks for and the event it records on
a denial, the outcome of its checks, and the event it records at the end. -/
structure Service where
  organization : Uuid
  permission : String
  action : String
  resourceType : String
  resourceId : Option Uuid
  plan : Except String Plan
  doneType : String
  doneId : Uuid
  context : List (String × ContextValue) := []

/-- The log after an `audit.record`, as the state it leaves. -/
def State.record (s : State) (e : AuditEvent) : Option State :=
  (Audit.record s.tables.audit e).map fun audit => { s with tables := { s.tables with audit } }

/-- The event `_require` records before it raises. -/
def Service.denied (svc : Service) (actor : Uuid) (requestId : String) : AuditEvent :=
  { actor := some actor, organization := some svc.organization, action := svc.action,
    resourceType := svc.resourceType, resourceId := svc.resourceId, requestId := requestId,
    result := .denied }

/-- The event recorded after the writes. -/
def Service.done (svc : Service) (actor : Uuid) (requestId : String) : AuditEvent :=
  { actor := some actor, organization := some svc.organization, action := svc.action,
    resourceType := svc.doneType, resourceId := some svc.doneId, requestId := requestId,
    context := svc.context }

/-- One service call. Two fresh ids are drawn for it. -/
def Service.call (svc : Service) (s : State) (fault : Option Fault) (actor : Uuid)
    (requestId : String) : State × Except SchemaError Unit :=
  if !hasPermission s.tables s.now actor svc.permission svc.organization none then
    match s.record (svc.denied actor requestId) with
    | none => (s, .error .databaseError)
    | some s => (s, .error (.permissionDenied (svc.permission ++ " required")))
  else
    match svc.plan with
    | .error message => (s, .error (.validation message))
    | .ok plan =>
      match applyChange { s with nextUuid := s.nextUuid + 2 } fault plan.change with
      | (s, .error e) => (s, .error e)
      | (s, .ok ()) =>
        match s.record (svc.done actor requestId) with
        | none => (s, .error .databaseError)
        | some s => (s, .ok ())

/-! ## The six operations -/

/-- `create_tenant_database`. -/
def createTenantDatabase (fresh : Uuid) (project : Project) (name : String) : Service :=
  let d : TenantDatabase := { id := fresh, project := project.id, name := name }
  { organization := project.organization
    permission := "database.create"
    action := "database.create"
    resourceType := "tenant_database"
    resourceId := none
    plan :=
      if name = "" ∨ 200 < name.length then .error "name must be between 1 and 200 characters"
      else .ok (.createTenantDatabase d)
    doneType := "tenant_database"
    doneId := d.id
    context := [("name", .str name)] }

/-- The two rows `create_table` inserts. -/
def newTable (fresh : Uuid) (tenantDatabase : TenantDatabase) (name : String) : DBTable :=
  { id := fresh, tenantDatabase := tenantDatabase.id, name := name }

def newPrimaryKey (fresh : Uuid) : DBColumn :=
  { id := fresh + 1, table := fresh, name := "id", dataType := .uuid, isPrimaryKey := true,
    isNullable := false, isUnique := true }

/-- `create_table`. -/
def createTable (fresh : Uuid) (organization : Uuid) (tenantDatabase : TenantDatabase)
    (name : String) : Service :=
  { organization := organization
    permission := "database.schema.manage"
    action := "database.table.create"
    resourceType := "tenant_database"
    resourceId := some tenantDatabase.id
    plan :=
      match validateIdentifier name "table name" with
      | .error e => .error e
      | .ok () => .ok (.createTable (newTable fresh tenantDatabase name) (newPrimaryKey fresh))
    doneType := "db_table"
    doneId := fresh
    context := [("name", .str name)] }

/-- The arguments of `add_column` that describe the column. -/
structure ColumnSpec where
  name : String
  dataType : DataType
  maxLength : Option Nat := none
  precision : Option Nat := none
  scale : Option Nat := none
  isNullable : Bool := true
  isUnique : Bool := false
  defaultValue : Option DefaultValue := none
  deriving DecidableEq, Repr

/-- The stored value of a data type. -/
def DataType.value : DataType → String
  | .text => "text"
  | .varchar => "varchar"
  | .integer => "integer"
  | .bigint => "bigint"
  | .decimal => "decimal"
  | .boolean => "boolean"
  | .date => "date"
  | .datetime => "datetime"
  | .uuid => "uuid"
  | .json => "json"

/-- The row `add_column` inserts. -/
def newColumn (fresh : Uuid) (table : DBTable) (spec : ColumnSpec) : DBColumn :=
  { id := fresh, table := table.id, name := spec.name, dataType := spec.dataType,
    maxLength := spec.maxLength, precision := spec.precision, scale := spec.scale,
    isNullable := spec.isNullable, isUnique := spec.isUnique, defaultValue := spec.defaultValue }

/-- The index row `add_column` inserts for a unique column. -/
def newIndex (fresh : Uuid) (table : DBTable) (spec : ColumnSpec) : Option DBIndex :=
  if spec.isUnique then
    some { id := fresh + 1, table := table.id, column := fresh, isUnique := true }
  else none

/-- The column the `ALTER TABLE` of `add_column` adds, once the checks have passed. -/
def columnDdl (table : DBTable) (spec : ColumnSpec) : Except String PhysicalColumn :=
  match validateColumnName spec.name with
  | .error e => .error e
  | .ok () =>
    match columnTypeSql spec.dataType spec.maxLength spec.precision spec.scale with
    | .error e => .error e
    | .ok type =>
      match defaultClauseSql spec.dataType spec.defaultValue with
      | .error e => .error e
      | .ok default => .ok
        { schema := ⟨table.tenantDatabase⟩, table := table.name, name := spec.name, type := type,
          primaryKey := false, notNull := !spec.isNullable, unique := spec.isUnique,
          default := default }

/-- `add_column`. -/
def addColumn (fresh : Uuid) (organization : Uuid) (table : DBTable) (spec : ColumnSpec) :
    Service :=
  { organization := organization
    permission := "database.schema.manage"
    action := "database.column.create"
    resourceType := "db_table"
    resourceId := some table.id
    plan :=
      match columnDdl table spec with
      | .error e => .error e
      | .ok column =>
        .ok (.addColumn table (newColumn fresh table spec) (newIndex fresh table spec) column)
    doneType := "db_table"
    doneId := table.id
    context := [("column", .str spec.name), ("data_type", .str spec.dataType.value)] }

/-- The row `add_foreign_key` inserts. -/
def newForeignKey (fresh : Uuid) (column : DBColumn) (referencesTable : DBTable)
    (referencesColumn : DBColumn) (onDelete : OnDelete) : DBForeignKey :=
  { id := fresh, column := column.id, referencesTable := referencesTable.id,
    referencesColumn := referencesColumn.id, onDelete := onDelete }

/-- The checks of `add_foreign_key`, with the table of each of the two columns. -/
def validateForeignKey (cat : Catalog) (column : DBColumn) (table referencesTable : DBTable)
    (referencesColumn : DBColumn) (onDelete : OnDelete) : Except String Unit :=
  if referencesTable.tenantDatabase ≠ table.tenantDatabase then
    .error "Foreign keys must reference a table in the same database"
  else if !(referencesColumn.isUnique || referencesColumn.isPrimaryKey) then
    .error "Foreign keys must reference a primary key or unique column"
  else if column.dataType ≠ referencesColumn.dataType then
    .error "Foreign key column type must match the referenced column type"
  else if cat.foreignKeys.any (fun fk => fk.column == column.id) then
    .error "Column already has a foreign key"
  else if onDelete = .setNull ∧ !column.isNullable then
    .error "ON DELETE SET NULL requires a nullable column"
  else .ok ()

/-- `add_foreign_key`. The column's own table is reached through the row; nothing ties the referenced
column to the referenced table. -/
def addForeignKey (fresh : Uuid) (cat : Catalog) (organization : Uuid) (column : DBColumn)
    (table referencesTable : DBTable) (referencesColumn : DBColumn) (onDelete : OnDelete) :
    Service :=
  { organization := organization
    permission := "database.schema.manage"
    action := "database.foreign_key.create"
    resourceType := "db_column"
    resourceId := some column.id
    plan :=
      match validateForeignKey cat column table referencesTable referencesColumn onDelete with
      | .error e => .error e
      | .ok () =>
        .ok (.addForeignKey (newForeignKey fresh column referencesTable referencesColumn onDelete)
          column table referencesTable referencesColumn)
    doneType := "db_column"
    doneId := column.id
    context := [("references_table", .str referencesTable.name),
      ("references_column", .str referencesColumn.name)] }

/-- `delete_table`. -/
def deleteTable (organization : Uuid) (table : DBTable) : Service :=
  { organization := organization
    permission := "database.delete"
    action := "database.table.delete"
    resourceType := "db_table"
    resourceId := some table.id
    plan := .ok (.deleteTable table)
    doneType := "db_table"
    doneId := table.id }

/-- `delete_tenant_database`. -/
def deleteTenantDatabase (organization : Uuid) (tenantDatabase : TenantDatabase) : Service :=
  { organization := organization
    permission := "database.delete"
    action := "database.drop"
    resourceType := "tenant_database"
    resourceId := some tenantDatabase.id
    plan := .ok (.deleteTenantDatabase tenantDatabase)
    doneType := "tenant_database"
    doneId := tenantDatabase.id }

/-! ## The views -/

/-- The organization a tenant database belongs to, through its project. -/
def State.databaseOrganization (s : State) (d : TenantDatabase) : Option Uuid :=
  (s.projects.find? fun p => p.id == d.project).map (·.organization)

/-- `get_member_project`. -/
def getMemberProject (s : State) (user projectId : Uuid) : Option Project :=
  s.projects.find? fun p => p.id == projectId && isMember s.memberships user p.organization

/-- `get_member_tenant_database`, with the organization. -/
def getMemberTenantDatabase (s : State) (user id : Uuid) : Option (TenantDatabase × Uuid) := do
  let d ← s.catalog.databases.find? fun d => d.id == id
  let organization ← s.databaseOrganization d
  if isMember s.memberships user organization then some (d, organization) else none

/-- `get_member_table`, with the organization. -/
def getMemberTable (s : State) (user id : Uuid) : Option (DBTable × Uuid) := do
  let t ← s.catalog.tables.find? fun t => t.id == id
  let (_, organization) ← getMemberTenantDatabase s user t.tenantDatabase
  return (t, organization)

/-- `get_member_column`, with its table and the organization. -/
def getMemberColumn (s : State) (user id : Uuid) : Option (DBColumn × DBTable × Uuid) := do
  let c ← s.catalog.columns.find? fun c => c.id == id
  let (t, organization) ← getMemberTable s user c.table
  return (c, t, organization)

/-- The requests that change a schema. -/
inductive SchemaRequest where
  | createTenantDatabase (projectId : Uuid) (name : String)
  | createTable (tenantDatabaseId : Uuid) (name : String)
  | addColumn (tableId : Uuid) (spec : ColumnSpec)
  | addForeignKey (tableId columnId referencesTableId referencesColumnId : Uuid)
      (onDelete : OnDelete)
  | deleteTable (tableId : Uuid)
  | deleteTenantDatabase (tenantDatabaseId : Uuid)
  deriving DecidableEq, Repr

/-- The lookups of a view: the service call it makes, or the error response. -/
def SchemaRequest.resolve (s : State) (actor : Uuid) : SchemaRequest → Except SchemaError Service
  | .createTenantDatabase projectId name =>
    match getMemberProject s actor projectId with
    | none => .error .notFound
    | some project => .ok (Databases.createTenantDatabase s.nextUuid project name)
  | .createTable tenantDatabaseId name =>
    match getMemberTenantDatabase s actor tenantDatabaseId with
    | none => .error .notFound
    | some (d, organization) => .ok (Databases.createTable s.nextUuid organization d name)
  | .addColumn tableId spec =>
    match getMemberTable s actor tableId with
    | none => .error .notFound
    | some (t, organization) => .ok (Databases.addColumn s.nextUuid organization t spec)
  | .addForeignKey tableId columnId referencesTableId referencesColumnId onDelete =>
    match getMemberTable s actor tableId with
    | none => .error .notFound
    | some (t, _) =>
      match getMemberColumn s actor columnId with
      | none => .error .notFound
      | some (c, ct, organization) =>
        if c.table ≠ t.id then .error (.badRequest "column does not belong to this table")
        else
          match s.catalog.tables.find? fun x =>
              x.id == referencesTableId && x.tenantDatabase == t.tenantDatabase with
          | none => .error .notFound
          | some rt =>
            match getMemberColumn s actor referencesColumnId with
            | none => .error .notFound
            | some (rc, _, _) =>
              .ok (Databases.addForeignKey s.nextUuid s.catalog organization c ct rt rc onDelete)
  | .deleteTable tableId =>
    match getMemberTable s actor tableId with
    | none => .error .notFound
    | some (t, organization) => .ok (Databases.deleteTable organization t)
  | .deleteTenantDatabase tenantDatabaseId =>
    match getMemberTenantDatabase s actor tenantDatabaseId with
    | none => .error .notFound
    | some (d, organization) => .ok (Databases.deleteTenantDatabase organization d)

/-- One request: the view's lookups, then the service call. -/
def handle (s : State) (fault : Option Fault) (actor : Uuid) (requestId : String)
    (r : SchemaRequest) : State × Except SchemaError Unit :=
  match r.resolve s actor with
  | .error e => (s, .error e)
  | .ok svc => svc.call s fault actor requestId

/-- What can happen: a schema request, perhaps with a fault in it, and changes of the members,
projects and role assignments, and of the clock. -/
inductive Action where
  | request (fault : Option Fault) (actor : Uuid) (requestId : String) (r : SchemaRequest)
  | administer (memberships : List Membership) (projects : List Project)
      (roleAssignments : List RoleAssignment)
  | advance (seconds : Nat)
  deriving DecidableEq, Repr

/-- One action. -/
def step (s : State) : Action → State
  | .request fault actor requestId r => (handle s fault actor requestId r).1
  | .administer memberships projects roleAssignments =>
    { s with memberships, projects, tables := { s.tables with roleAssignments } }
  | .advance seconds => { s with now := s.now + seconds }

end Databases
