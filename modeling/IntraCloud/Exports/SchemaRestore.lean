import IntraCloud.Databases.Agreement
import IntraCloud.Databases.Domains
import IntraCloud.Exports.Restorer
import IntraCloud.Python.JsonText

/-!
# Restoring the schema of a tenant database

`_restore_tenant_database`: the tables of a package are made by the schema services, one call after another, in a
project that has no tenant database yet.
-/

namespace Exports

open Databases Organizations Python Relational

/-! ## Reading `schema.json`

The arguments of the services, from what `json.loads` returns; nothing where an entry is of a kind that no export
writes. -/

/-- A data type by its stored value. -/
def dataType? (value : List Char) : Option DataType :=
  [DataType.text, .varchar, .integer, .bigint, .decimal, .boolean, .date, .datetime, .uuid, .json].find?
    fun dataType => dataType.value.toList == value

/-- An action by its stored value. -/
def onDelete? (value : List Char) : Option OnDelete :=
  [OnDelete.cascade, .restrict, .setNull].find? fun onDelete => (onDeleteValue onDelete).toList == value

/-- An integer or `None`. -/
def number? : PyJson → Option (Option Nat)
  | .null => some none
  | .int n => if 0 ≤ n then some (some n.toNat) else none
  | _ => none

def flag? : PyJson → Option Bool
  | .bool b => some b
  | _ => none

/-- A default. An array or object is kept as the text that it is written as. -/
def readDefault : PyJson → Option DefaultValue
  | .null => none
  | .bool b => some (.bool b)
  | .int n => some (.int n)
  | .float literal => some (.float (String.ofList literal))
  | .str s => some (.str (String.ofList s))
  | value => some (.compound (String.ofList (Json.dumps value)))

/-- The entries of `value[key]`. -/
def entries? {α : Type} (item? : PyJson → Option α) (value : PyJson) (key : String) : Option (List α) :=
  ((value.field key).bind PyJson.iterate).bind fun items => items.mapM item?

/-- An entry of `table_data["columns"]`. -/
def columnSpec? (value : PyJson) : Option ColumnSpec := do
  let name ← strField value "name"
  let dataType ← (strField value "data_type").bind dataType?
  let maxLength ← (value.field "max_length").bind number?
  let precision ← (value.field "precision").bind number?
  let scale ← (value.field "scale").bind number?
  let isNullable ← (value.field "is_nullable").bind flag?
  let isUnique ← (value.field "is_unique").bind flag?
  let defaultValue ← value.field "default_value"
  return ⟨String.ofList name, dataType, maxLength, precision, scale, isNullable, isUnique, readDefault defaultValue⟩

/-- An entry of `table_data["foreign_keys"]`. -/
def foreignKeyContent? (value : PyJson) : Option ForeignKeyContent := do
  let column ← strField value "column"
  let referencesTable ← strField value "references_table"
  let referencesColumn ← strField value "references_column"
  let onDelete ← (strField value "on_delete").bind onDelete?
  return ⟨String.ofList column, String.ofList referencesTable, String.ofList referencesColumn, onDelete⟩

/-- An entry of `schema["tables"]`. -/
def tableData? (value : PyJson) : Option TableData := do
  let name ← strField value "name"
  let columns ← entries? columnSpec? value "columns"
  let foreignKeys ← entries? foreignKeyContent? value "foreign_keys"
  let rowsPath ← strField value "rows_path"
  return ⟨String.ofList name, columns, foreignKeys, rowsPath⟩

/-- `schema["name"]` and `schema["tables"]`, from the bytes of the member. -/
def readSchema (data : Bytes) : Option (String × List TableData) := do
  let schema ← Json.loadBytes data
  let name ← strField schema "name"
  let tables ← entries? tableData? schema "tables"
  return (String.ofList name, tables)

/-- A column that JSON gives back: its numbers are those of the catalog's columns, and a default that is an array
or object is kept as its text with sorted keys. -/
structure Readable (c : DBColumn) : Prop where
  numbers : Catalog.numbersFit c = true
  writable : Json.Writable (defaultJson c.defaultValue)
  default : readDefault (Json.sorted (defaultJson c.defaultValue)) = c.defaultValue

/-! ## The calls -/

/-- What `_restore_tenant_database` raises. -/
inductive SchemaRestoreError where
  | service (e : SchemaError)
  | keyError
  /-- The `RestoreError` of `_topological_order`. -/
  | cannotResolve
  /-- What `_restore_rows` raises. -/
  | rows
  deriving DecidableEq

/-- A call of a service by the restore. -/
def callService (actor : Uuid) (s : State) (svc : Service) : Except SchemaRestoreError State :=
  match svc.call s none actor "" with
  | (s, .ok ()) => .ok s
  | (_, .error e) => .error (.service e)

/-- `tables_by_name` and `columns_by_ref`, with the last entry of a key first. -/
structure Refs where
  tables : List (String × DBTable)
  columns : List ((String × String) × DBColumn)

def Refs.empty : Refs := ⟨[], []⟩

/-- `tables_by_name[name]`. -/
def Refs.table? (refs : Refs) (name : String) : Option DBTable :=
  (refs.tables.find? fun entry => entry.1 == name).map (·.2)

/-- `columns_by_ref[(table, column)]`. -/
def Refs.column? (refs : Refs) (table column : String) : Option DBColumn :=
  (refs.columns.find? fun entry => entry.1 == (table, column)).map (·.2)

/-! ## Tables and columns -/

/-- The loop over `table_data["columns"]`. -/
def restoreColumns (actor organization : Uuid) (table : DBTable) :
    List ColumnSpec → State × Refs → Except SchemaRestoreError (State × Refs)
  | [], x => .ok x
  | spec :: specs, (s, refs) =>
    match callService actor s (addColumn s.nextUuid organization table spec) with
    | .error e => .error e
    | .ok s' =>
      let column := newColumn s.nextUuid table spec
      restoreColumns actor organization table specs
        (s', { refs with columns := ((table.name, spec.name), column) :: refs.columns })

/-- The body of the first loop over `schema["tables"]`. -/
def restoreTable (actor organization : Uuid) (d : TenantDatabase) (x : State × Refs) (t : TableData) :
    Except SchemaRestoreError (State × Refs) :=
  let (s, refs) := x
  match callService actor s (createTable s.nextUuid organization d t.name) with
  | .error e => .error e
  | .ok s' =>
    let table := newTable s.nextUuid d t.name
    restoreColumns actor organization table t.columns
      (s', { tables := (t.name, table) :: refs.tables
             columns := ((t.name, "id"), newPrimaryKey s.nextUuid) :: refs.columns })

def restoreTables (actor organization : Uuid) (d : TenantDatabase) :
    List TableData → State × Refs → Except SchemaRestoreError (State × Refs)
  | [], x => .ok x
  | t :: tables, x =>
    match restoreTable actor organization d x t with
    | .error e => .error e
    | .ok x => restoreTables actor organization d tables x

/-! ## Foreign keys -/

/-- The rows that an entry of `foreign_keys` names. -/
def Refs.resolve (refs : Refs) (entry : String × ForeignKeyContent) :
    Option (DBTable × DBColumn × DBTable × DBColumn) := do
  let table ← refs.table? entry.1
  let column ← refs.column? entry.1 entry.2.column
  let referencesTable ← refs.table? entry.2.referencesTable
  let referencesColumn ← refs.column? entry.2.referencesTable entry.2.referencesColumn
  return (table, column, referencesTable, referencesColumn)

/-- The second loop over `schema["tables"]`, with the name of the table of each entry. -/
def restoreForeignKeys (actor organization : Uuid) (refs : Refs) :
    List (String × ForeignKeyContent) → State → Except SchemaRestoreError State
  | [], s => .ok s
  | entry :: entries, s =>
    match refs.resolve entry with
    | none => .error .keyError
    | some (table, column, referencesTable, referencesColumn) =>
      match callService actor s (addForeignKey s.nextUuid s.catalog organization column table referencesTable
        referencesColumn entry.2.onDelete) with
      | .error e => .error e
      | .ok s => restoreForeignKeys actor organization refs entries s

/-- The entries of all tables. -/
def keyEntries (tables : List TableData) : List (String × ForeignKeyContent) :=
  tables.flatMap fun t => t.foreignKeys.map fun fk => (t.name, fk)

/-! ## Databases -/

/-- The last loop. `loads` says whether `_restore_rows` gets the rows of a table in, which is up to their values. -/
def restoreRowsOf (loads : TableData → Bool) (tables : List TableData) : Except SchemaRestoreError Unit :=
  match topologicalOrder id tables with
  | none => .error .cannotResolve
  | some order => if order.all loads then .ok () else .error .rows

/-- `_restore_tenant_database`. -/
def restoreTenantDatabase (actor : Uuid) (loads : TableData → Bool) (project : Project) (name : String)
    (tables : List TableData) (s : State) : Except SchemaRestoreError State := do
  let s' ← callService actor s (createTenantDatabase s.nextUuid project name)
  let d : TenantDatabase := { id := s.nextUuid, project := project.id, name := name }
  let (s', refs) ← restoreTables actor project.organization d tables (s', .empty)
  let s' ← restoreForeignKeys actor project.organization refs (keyEntries tables) s'
  restoreRowsOf loads tables
  return s'

/-- The tables of `schema.json`. -/
def schemaTables (cat : Catalog) (records : DBTable → List Python.Csv.Record) (d : TenantDatabase) :
    List TableData :=
  (databaseContent cat records d).tables.map (tableData (databaseContent cat records d))

/-- The tenant databases of a package, each in the project that is made of its own. -/
def restoreDatabases (actor : Uuid) (loads : TableData → Bool) (move : Uuid → Project) (cat : Catalog)
    (records : DBTable → List Python.Csv.Record) :
    List TenantDatabase → State → Except SchemaRestoreError State
  | [], s => .ok s
  | d :: databases, s =>
    match restoreTenantDatabase actor loads (move d.project) d.name (schemaTables cat records d) s with
    | .error e => .error e
    | .ok s => restoreDatabases actor loads move cat records databases s

/-! ## The same schema -/

/-- The rows say the same of a column. -/
def SameColumn (c c' : DBColumn) : Prop := c' = { c with id := c'.id, table := c'.table }

/-- The tables of a tenant database, in the order they were made. -/
def tablesOf (cat : Catalog) (d : TenantDatabase) : List DBTable := cat.tables.filter (·.tenantDatabase == d.id)

/-- The tables of two databases, by their places. -/
def tablePairs (cat cat' : Catalog) (d d' : TenantDatabase) : List (DBTable × DBTable) :=
  (tablesOf cat d).zip (tablesOf cat' d')

/-- The columns of two databases, by their places. -/
def columnPairs (cat cat' : Catalog) (d d' : TenantDatabase) : List (DBColumn × DBColumn) :=
  (tablePairs cat cat' d d').flatMap fun p => (cat.columnsOf p.1).zip (cat'.columnsOf p.2)

/-- The second foreign key is to the second database what the first one is to the first. -/
structure SameForeignKey (cat cat' : Catalog) (d d' : TenantDatabase) (fk fk' : DBForeignKey) : Prop where
  column : (fk.column, fk'.column) ∈ (columnPairs cat cat' d d').map fun p => (p.1.id, p.2.id)
  referencesTable : (fk.referencesTable, fk'.referencesTable) ∈ (tablePairs cat cat' d d').map fun p => (p.1.id, p.2.id)
  referencesColumn :
    (fk.referencesColumn, fk'.referencesColumn) ∈ (columnPairs cat cat' d d').map fun p => (p.1.id, p.2.id)
  onDelete : fk'.onDelete = fk.onDelete

/-- The databases have the same tables, with the same columns in the same order, and the same foreign keys. -/
structure SameSchema (cat cat' : Catalog) (d d' : TenantDatabase) : Prop where
  name : d'.name = d.name
  tables : List.Forall₂ (fun t t' => t'.name = t.name ∧ List.Forall₂ SameColumn (cat.columnsOf t) (cat'.columnsOf t'))
    (tablesOf cat d) (tablesOf cat' d')
  foreignKeys : ∀ p ∈ tablePairs cat cat' d d', ∀ fk ∈ foreignKeysOf cat p.1.id,
    ∃ fk' ∈ foreignKeysOf cat' p.2.id, SameForeignKey cat cat' d d' fk fk'
  noOthers : ∀ p ∈ tablePairs cat cat' d d', ∀ fk' ∈ foreignKeysOf cat' p.2.id,
    ∃ fk ∈ foreignKeysOf cat p.1.id, SameForeignKey cat cat' d d' fk fk'

/-- The tenant databases of the projects that a restore makes. -/
def madeDatabases (cat' : Catalog) (move : Uuid → Project) (databases : List TenantDatabase) : List TenantDatabase :=
  cat'.databases.filter fun d' => databases.any fun d => (move d.project).id == d'.project

/-- The restore succeeds, and the new projects have the databases that are exported. -/
def CatalogRoundTrips (cat : Catalog) (databases : List TenantDatabase) (records : DBTable → List Python.Csv.Record)
    (actor : Uuid) (loads : TableData → Bool) (move : Uuid → Project) (s : State) : Prop :=
  ∃ s', restoreDatabases actor loads move cat records databases s = .ok s' ∧
    List.Forall₂ (fun d d' => d'.project = (move d.project).id ∧ SameSchema cat s'.catalog d d')
      databases (madeDatabases s'.catalog move databases)

/-! ## What a package keeps -/

/-- The column that a foreign key references is one of the table that it references. -/
def KeysTied (cat : Catalog) (d : TenantDatabase) : Prop :=
  ∀ t ∈ tablesOf cat d, ∀ fk ∈ foreignKeysOf cat t.id, ∀ rc ∈ cat.columns,
    rc.id = fk.referencesColumn → rc.table = fk.referencesTable

/-- No table refers to itself by way of other tables. -/
def KeysAcyclic (cat : Catalog) (records : DBTable → List Python.Csv.Record) (d : TenantDatabase) : Prop :=
  (tableDependencies (id : TableData → TableData)).Acyclic (schemaTables cat records d)

/-! ## Requests and restores -/

/-- A tenant database of a package that somebody uploads: the entries of its `schema.json` may be anything. -/
structure DatabaseEntry where
  project : Project
  name : String
  tables : List TableData

/-- The tenant databases of any package. -/
def restoreEntries (actor : Uuid) (loads : TableData → Bool) :
    List DatabaseEntry → State → Except SchemaRestoreError State
  | [], s => .ok s
  | entry :: entries, s =>
    match restoreTenantDatabase actor loads entry.project entry.name entry.tables s with
    | .error e => .error e
    | .ok s => restoreEntries actor loads entries s

/-- What changes the schemas of an installation. -/
inductive SchemaEvent where
  | act (a : Databases.Action)
  | restore (actor : Uuid) (loads : TableData → Bool) (entries : List DatabaseEntry)

/-- One event. A restore that raises is rolled back. -/
def schemaStep (s : State) : SchemaEvent → State
  | .act a => Databases.step s a
  | .restore actor loads entries =>
    match restoreEntries actor loads entries s with
    | .ok s => s
    | .error _ => s

/-- What is asked of the requests; restores may be of any package. -/
def PermittedEvent (s : State) : SchemaEvent → Prop
  | .act a => Databases.Permitted s a
  | .restore .. => True

instance (s : State) : DecidablePred (PermittedEvent s)
  | .act a => inferInstanceAs (Decidable (Databases.Permitted s a))
  | .restore .. => inferInstanceAs (Decidable True)

end Exports
