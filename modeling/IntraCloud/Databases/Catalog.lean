import IntraCloud.Audit.Record
import IntraCloud.Databases.Ddl
import IntraCloud.Relational.Rows

/-!
# The catalog and the tenant database

`databases/models.py`: the control-plane rows that describe schemas, tables, columns and foreign
keys, with the writes the services make to them; and the part of the tenant PostgreSQL database
they describe, with the DDL the services run on it. Catalog rows refer to each other by id, DDL
addresses everything by name.
-/

namespace Databases

open Relational

/-- `f"db_{id.hex}"`, which determines the id. -/
structure SchemaName where
  database : Uuid
  deriving DecidableEq, Repr

/-- A row of `TenantDatabase`. -/
structure TenantDatabase where
  id : Uuid
  project : Uuid
  name : String
  deriving DecidableEq, Repr

def TenantDatabase.schemaName (d : TenantDatabase) : SchemaName := ⟨d.id⟩

/-- A row of `DBTable`. -/
structure DBTable where
  id : Uuid
  tenantDatabase : Uuid
  name : String
  deriving DecidableEq, Repr

/-- A row of `DBColumn`. -/
structure DBColumn where
  id : Uuid
  table : Uuid
  name : String
  dataType : DataType
  maxLength : Option Nat := none
  precision : Option Nat := none
  scale : Option Nat := none
  isPrimaryKey : Bool := false
  isNullable : Bool := true
  isUnique : Bool := false
  defaultValue : Option DefaultValue := none
  deriving DecidableEq, Repr

/-- `DBForeignKey.OnDelete`. -/
inductive OnDelete where
  | cascade
  | restrict
  | setNull
  deriving DecidableEq, Repr

/-- A row of `DBForeignKey`. -/
structure DBForeignKey where
  id : Uuid
  column : Uuid
  referencesTable : Uuid
  referencesColumn : Uuid
  onDelete : OnDelete
  deriving DecidableEq, Repr

/-- A row of `DBIndex`, named after the one column it covers. -/
structure DBIndex where
  id : Uuid
  table : Uuid
  column : Uuid
  isUnique : Bool
  deriving DecidableEq, Repr

/-- The catalog tables of the control plane. -/
structure Catalog where
  databases : List TenantDatabase
  tables : List DBTable
  columns : List DBColumn
  foreignKeys : List DBForeignKey
  indexes : List DBIndex
  deriving DecidableEq, Repr

namespace Catalog

def empty : Catalog := ⟨[], [], [], [], []⟩

/-! ## Writes -/

/-- The largest value of a `PositiveIntegerField`. -/
def maxPositiveInteger : Nat := 2147483647

/-- The value fits a nullable `PositiveIntegerField`. -/
def integerFits (n : Option Nat) : Bool := n.all (· ≤ maxPositiveInteger)

/-- The column's numbers fit their catalog columns. -/
def numbersFit (c : DBColumn) : Bool :=
  integerFits c.maxLength && integerFits c.precision && integerFits c.scale

/-- `tenant_db.save()` of a new row: names are unique in a project. -/
def insertDatabase (cat : Catalog) (d : TenantDatabase) : Option Catalog :=
  if cat.databases.any (fun x => x.project == d.project && x.name == d.name) then none
  else some { cat with databases := cat.databases ++ [d] }

/-- The two inserts of `create_table`: names are unique in a database, which must exist. -/
def insertTable (cat : Catalog) (t : DBTable) (pk : DBColumn) : Option Catalog :=
  if !cat.databases.any (fun d => d.id == t.tenantDatabase) then none
  else if cat.tables.any (fun x => x.tenantDatabase == t.tenantDatabase && x.name == t.name) then
    none
  else some { cat with tables := cat.tables ++ [t], columns := cat.columns ++ [pk] }

/-- The inserts of `add_column`: names are unique in a table, which must exist. -/
def insertColumn (cat : Catalog) (c : DBColumn) (index : Option DBIndex) : Option Catalog :=
  if !cat.tables.any (fun t => t.id == c.table) then none
  else if cat.columns.any (fun x => x.table == c.table && x.name == c.name) then none
  else if !numbersFit c then none
  else some { cat with columns := cat.columns ++ [c], indexes := cat.indexes ++ index.toList }

/-- The insert of `add_foreign_key`: a column has one foreign key, and all three rows must exist. -/
def insertForeignKey (cat : Catalog) (fk : DBForeignKey) : Option Catalog :=
  if !cat.columns.any (fun c => c.id == fk.column) then none
  else if !cat.tables.any (fun t => t.id == fk.referencesTable) then none
  else if !cat.columns.any (fun c => c.id == fk.referencesColumn) then none
  else if cat.foreignKeys.any (fun x => x.column == fk.column) then none
  else some { cat with foreignKeys := cat.foreignKeys ++ [fk] }

/-- The table with this id is among those `gone` holds of. -/
def goneTable (cat : Catalog) (gone : DBTable → Bool) (id : Uuid) : Bool :=
  cat.tables.any fun t => t.id == id && gone t

/-- The column with this id is one of theirs. -/
def goneColumn (cat : Catalog) (gone : DBTable → Bool) (id : Uuid) : Bool :=
  cat.columns.any fun c => c.id == id && cat.goneTable gone c.table

/-- Deleting the tables `gone` holds of: `on_delete=CASCADE` leads from a table to its columns, its
indexes and the foreign keys that reference it, and from a column to the foreign keys it is in. -/
def deleteTables (cat : Catalog) (gone : DBTable → Bool) : Catalog :=
  { databases := cat.databases
    tables := cat.tables.filter fun t => !gone t
    columns := cat.columns.filter fun c => !cat.goneTable gone c.table
    foreignKeys := cat.foreignKeys.filter fun fk =>
      !(cat.goneColumn gone fk.column || cat.goneTable gone fk.referencesTable ||
        cat.goneColumn gone fk.referencesColumn)
    indexes := cat.indexes.filter fun i => !cat.goneTable gone i.table }

/-- `table.delete()`. -/
def deleteTable (cat : Catalog) (t : DBTable) : Catalog :=
  cat.deleteTables fun x => x.id == t.id

/-- `tenant_database.delete()`. -/
def deleteDatabase (cat : Catalog) (d : TenantDatabase) : Catalog :=
  let cat := cat.deleteTables fun x => x.tenantDatabase == d.id
  { cat with databases := cat.databases.filter fun x => x.id != d.id }

end Catalog

/-! ## The tenant database -/

/-- A column of a tenant table. `unique` says that a unique or primary-key constraint covers it. -/
structure PhysicalColumn where
  schema : SchemaName
  table : String
  name : String
  type : SqlType
  primaryKey : Bool
  notNull : Bool
  unique : Bool
  default : DefaultClause
  deriving DecidableEq, Repr

/-- A foreign-key constraint. Its name is `f"fk_{column.id.hex}"`. -/
structure PhysicalForeignKey where
  schema : SchemaName
  table : String
  name : Uuid
  column : String
  refTable : String
  refColumn : String
  onDelete : OnDelete
  deriving DecidableEq, Repr

/-- The schemas, tables, columns and foreign keys of the tenant database. -/
structure Tenant where
  schemas : List SchemaName
  tables : List (SchemaName × String)
  columns : List PhysicalColumn
  foreignKeys : List PhysicalForeignKey
  deriving DecidableEq, Repr

def Tenant.empty : Tenant := ⟨[], [], [], []⟩

/-- The DDL statements the services build. -/
inductive Ddl where
  | createSchema (schema : SchemaName)
  | dropSchemaCascade (schema : SchemaName)
  | createTable (schema : SchemaName) (table : String)
  | dropTable (schema : SchemaName) (table : String)
  | addColumn (c : PhysicalColumn)
  | dropColumn (schema : SchemaName) (table name : String)
  | addForeignKey (fk : PhysicalForeignKey)
  | dropConstraint (schema : SchemaName) (table : String) (name : Uuid)
  deriving DecidableEq, Repr

/-- PostgreSQL can compare a referencing column of the first type with a referenced column of the
second: it finds an equality operator, or an implicit cast to the second. -/
def comparable : SqlType → SqlType → Bool
  | .text, .text | .text, .varchar _ | .varchar _, .text | .varchar _, .varchar _ => true
  | .integer, .integer | .integer, .bigint | .bigint, .integer | .bigint, .bigint => true
  | .integer, .numeric _ _ | .bigint, .numeric _ _ | .numeric _ _, .numeric _ _ => true
  | .date, .date | .date, .timestamptz | .timestamptz, .date | .timestamptz, .timestamptz => true
  | .boolean, .boolean | .uuid, .uuid | .jsonb, .jsonb => true
  | _, _ => false

namespace Tenant

/-- The column `create_table` gives every table: `UUID PRIMARY KEY DEFAULT gen_random_uuid()`. -/
def idColumn (schema : SchemaName) (table : String) : PhysicalColumn :=
  { schema, table, name := "id", type := .uuid, primaryKey := true, notNull := true,
    unique := true, default := .genRandomUuid }

/-- A foreign key of another table refers to the table. -/
def referenced (ten : Tenant) (schema : SchemaName) (table : String) : Bool :=
  ten.foreignKeys.any fun fk => fk.schema == schema && fk.refTable == table && fk.table != table

/-- A foreign key of another column refers to the column. -/
def referencedColumn (ten : Tenant) (schema : SchemaName) (table name : String) : Bool :=
  ten.foreignKeys.any fun fk =>
    fk.schema == schema && fk.refTable == table && fk.refColumn == name &&
      !(fk.table == table && fk.column == name)

/-- The referencing column of a foreign key and the unique column it refers to exist, with types that
compare. -/
def refersTo (ten : Tenant) (fk : PhysicalForeignKey) : Bool :=
  ten.columns.any fun c =>
    c.schema == fk.schema && c.table == fk.table && c.name == fk.column &&
      ten.columns.any fun rc =>
        rc.schema == fk.schema && rc.table == fk.refTable && rc.name == fk.refColumn &&
          rc.unique && comparable c.type rc.type

/-- What a statement does to the schema where PostgreSQL accepts it; `none` is an error, and the
statement's transaction is rolled back. -/
def exec (ten : Tenant) : Ddl → Option Tenant
  | .createSchema s =>
    if ten.schemas.contains s then none else some { ten with schemas := ten.schemas ++ [s] }
  | .dropSchemaCascade s =>
    if !ten.schemas.contains s then none
    else some
      { schemas := ten.schemas.filter (· != s)
        tables := ten.tables.filter (·.1 != s)
        columns := ten.columns.filter (·.schema != s)
        foreignKeys := ten.foreignKeys.filter (·.schema != s) }
  | .createTable s t =>
    if !ten.schemas.contains s || ten.tables.contains (s, t) then none
    else some
      { ten with tables := ten.tables ++ [(s, t)], columns := ten.columns ++ [idColumn s t] }
  | .dropTable s t =>
    if !ten.tables.contains (s, t) || ten.referenced s t then none
    else some
      { schemas := ten.schemas
        tables := ten.tables.filter (· != (s, t))
        columns := ten.columns.filter fun c => (c.schema, c.table) != (s, t)
        foreignKeys := ten.foreignKeys.filter fun fk => (fk.schema, fk.table) != (s, t) }
  | .addColumn c =>
    if !ten.tables.contains (c.schema, c.table) ||
        ten.columns.any (fun x => (x.schema, x.table, x.name) == (c.schema, c.table, c.name)) then
      none
    else some { ten with columns := ten.columns ++ [c] }
  | .dropColumn s t name =>
    if !ten.columns.any (fun x => (x.schema, x.table, x.name) == (s, t, name)) ||
        ten.referencedColumn s t name then none
    else some
      { ten with
        columns := ten.columns.filter fun x => (x.schema, x.table, x.name) != (s, t, name)
        foreignKeys := ten.foreignKeys.filter fun fk =>
          (fk.schema, fk.table, fk.column) != (s, t, name) }
  | .addForeignKey fk =>
    if !ten.refersTo fk ||
        ten.foreignKeys.any (fun x => (x.schema, x.table, x.name) == (fk.schema, fk.table, fk.name))
    then none
    else some { ten with foreignKeys := ten.foreignKeys ++ [fk] }
  | .dropConstraint s t name =>
    if !ten.foreignKeys.any (fun x => (x.schema, x.table, x.name) == (s, t, name)) then none
    else some
      { ten with foreignKeys := ten.foreignKeys.filter fun x =>
          (x.schema, x.table, x.name) != (s, t, name) }

end Tenant

/-! ## What the catalog describes -/

/-- The schema and name of a table in the tenant database. -/
def DBTable.physical (t : DBTable) : SchemaName × String := (⟨t.tenantDatabase⟩, t.name)

/-- The column of `t` that the row `c` describes. -/
def DBTable.physicalColumn (t : DBTable) (c : DBColumn) : PhysicalColumn :=
  { schema := ⟨t.tenantDatabase⟩, table := t.name, name := c.name,
    type := sqlType c.dataType c.maxLength c.precision c.scale, primaryKey := c.isPrimaryKey,
    notNull := !c.isNullable, unique := c.isUnique,
    default := if c.isPrimaryKey then .genRandomUuid else defaultClause c.dataType c.defaultValue }

/-- The constraint of the column `c` of `t` that refers to the column `rc` under the table `rt`. -/
def DBTable.physicalForeignKey (t : DBTable) (c : DBColumn) (rt : DBTable) (rc : DBColumn)
    (onDelete : OnDelete) : PhysicalForeignKey :=
  { schema := ⟨t.tenantDatabase⟩, table := t.name, name := c.id, column := c.name,
    refTable := rt.name, refColumn := rc.name, onDelete := onDelete }

/-- The columns the catalog's rows describe. -/
def Catalog.physicalColumns (cat : Catalog) : List PhysicalColumn :=
  cat.columns.flatMap fun c =>
    (cat.tables.filter fun t => t.id == c.table).map fun t => t.physicalColumn c

/-- The constraints the catalog's rows describe. -/
def Catalog.physicalForeignKeys (cat : Catalog) : List PhysicalForeignKey :=
  cat.foreignKeys.flatMap fun fk =>
    (cat.columns.filter fun c => c.id == fk.column).flatMap fun c =>
      (cat.tables.filter fun t => t.id == c.table).flatMap fun t =>
        (cat.tables.filter fun rt => rt.id == fk.referencesTable).flatMap fun rt =>
          (cat.columns.filter fun rc => rc.id == fk.referencesColumn).map fun rc =>
            t.physicalForeignKey c rt rc fk.onDelete

/-- The tenant database the catalog describes. -/
def Catalog.describes (cat : Catalog) : Tenant :=
  { schemas := cat.databases.map (·.schemaName)
    tables := cat.tables.map (·.physical)
    columns := cat.physicalColumns
    foreignKeys := cat.physicalForeignKeys }

/-- The tenant database has exactly the schemas, tables, columns and foreign keys the catalog
describes. -/
structure Agrees (cat : Catalog) (ten : Tenant) : Prop where
  schemas : SameMembers ten.schemas cat.describes.schemas
  tables : SameMembers ten.tables cat.describes.tables
  columns : SameMembers ten.columns cat.describes.columns
  foreignKeys : SameMembers ten.foreignKeys cat.describes.foreignKeys

instance (cat : Catalog) (ten : Tenant) : Decidable (Agrees cat ten) :=
  decidable_of_iff
    (SameMembers ten.schemas cat.describes.schemas ∧ SameMembers ten.tables cat.describes.tables ∧
      SameMembers ten.columns cat.describes.columns ∧
      SameMembers ten.foreignKeys cat.describes.foreignKeys)
    ⟨fun ⟨h1, h2, h3, h4⟩ => ⟨h1, h2, h3, h4⟩, fun h => ⟨h.1, h.2, h.3, h.4⟩⟩

end Databases
