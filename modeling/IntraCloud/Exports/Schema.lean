import IntraCloud.Databases.Services
import IntraCloud.Python.JsonValue
import IntraCloud.Python.Csv

/-!
# Tenant databases in a package

What `exports/builder.py` writes of a tenant database: `schema.json`, and the rows of each table as CSV.
-/

namespace Exports

open Databases Python

/-! ## JSON values -/

def jsonStr (s : String) : PyJson := .str s.toList

/-- An integer or `None`. -/
def jsonNat : Option Nat → PyJson
  | none => .null
  | some n => .int n

/-- The value of a default: a `float` is its `repr`, an array or object what its text is of. -/
def defaultJson : Option DefaultValue → PyJson
  | none => .null
  | some (.bool b) => .bool b
  | some (.str s) => jsonStr s
  | some (.int n) => .int n
  | some (.float repr) => .float repr.toList
  | some (.compound text) => (Json.loadsWith (some REPLACEMENT) text.toList).getD .null

/-- The stored value of an `on_delete`. -/
def onDeleteValue : OnDelete → String
  | .cascade => "cascade"
  | .restrict => "restrict"
  | .setNull => "set_null"

/-- `value[key]`, where it is a string. -/
def strField (value : PyJson) (key : String) : Option (List Char) := (value.field key).bind PyJson.asStr

/-! ## The schema -/

/-- `_column_dict`. -/
def columnDict (c : DBColumn) : PyJson :=
  .dict [
    ("name".toList, jsonStr c.name),
    ("data_type".toList, jsonStr c.dataType.value),
    ("max_length".toList, jsonNat c.maxLength),
    ("precision".toList, jsonNat c.precision),
    ("scale".toList, jsonNat c.scale),
    ("is_nullable".toList, .bool c.isNullable),
    ("is_unique".toList, .bool c.isUnique),
    ("default_value".toList, defaultJson c.defaultValue)]

/-- A foreign key, with the names its rows are found under. -/
structure ForeignKeyContent where
  column : String
  referencesTable : String
  referencesColumn : String
  onDelete : OnDelete
  deriving DecidableEq, Repr

/-- An entry of `fks_payload`. -/
def foreignKeyDict (fk : ForeignKeyContent) : PyJson :=
  .dict [
    ("column".toList, jsonStr fk.column),
    ("references_table".toList, jsonStr fk.referencesTable),
    ("references_column".toList, jsonStr fk.referencesColumn),
    ("on_delete".toList, jsonStr (onDeleteValue fk.onDelete))]

/-- `id.hex`. -/
def hex (id : Uuid) : List Char := hexText 32 id

/-- What the builder reads of a table: its columns but the primary key, its foreign keys, and what
`iter_export_rows` yields. -/
structure TableContent where
  id : Uuid
  name : String
  columns : List DBColumn
  foreignKeys : List ForeignKeyContent
  rows : List Csv.Record

/-- What the builder reads of a tenant database. -/
structure DatabaseContent where
  id : Uuid
  name : String
  tables : List TableContent

/-- `databases/<id>`. -/
def databaseBase (d : DatabaseContent) : List Char := "databases/".toList ++ hex d.id

/-- `rows_arcname`. -/
def rowsArcname (d : DatabaseContent) (t : TableContent) : List Char :=
  databaseBase d ++ ("/rows/".toList ++ (hex t.id ++ ".csv".toList))

/-- `schema_arcname`. -/
def schemaArcname (d : DatabaseContent) : List Char := databaseBase d ++ "/schema.json".toList

/-- An entry of `tables_payload`. -/
def tableDict (d : DatabaseContent) (t : TableContent) : PyJson :=
  .dict [
    ("id".toList, .str (hex t.id)),
    ("name".toList, jsonStr t.name),
    ("columns".toList, .list (t.columns.map columnDict)),
    ("foreign_keys".toList, .list (t.foreignKeys.map foreignKeyDict)),
    ("rows_path".toList, .str (rowsArcname d t))]

/-- The value of `schema.json`. -/
def schemaDict (d : DatabaseContent) : PyJson :=
  .dict [
    ("name".toList, jsonStr d.name),
    ("tables".toList, .list (d.tables.map (tableDict d)))]

/-! ## Reading the catalog -/

/-- The name of a column row. -/
def columnName (cat : Catalog) (id : Uuid) : String :=
  ((cat.columns.find? (·.id == id)).map (·.name)).getD ""

/-- The name of a table row. -/
def tableName (cat : Catalog) (id : Uuid) : String :=
  ((cat.tables.find? (·.id == id)).map (·.name)).getD ""

/-- The table of a column row. -/
def tableOfColumn (cat : Catalog) (id : Uuid) : Option Uuid :=
  (cat.columns.find? (·.id == id)).map (·.table)

/-- The foreign keys of the columns of a table. -/
def foreignKeysOf (cat : Catalog) (table : Uuid) : List DBForeignKey :=
  cat.foreignKeys.filter fun fk => tableOfColumn cat fk.column == some table

/-- A foreign key as the builder reads it. -/
def foreignKeyContent (cat : Catalog) (fk : DBForeignKey) : ForeignKeyContent :=
  { column := columnName cat fk.column
    referencesTable := tableName cat fk.referencesTable
    referencesColumn := columnName cat fk.referencesColumn
    onDelete := fk.onDelete }

/-- A table as the builder reads it, with its rows. Rows of the catalog are in the order of their
`created_at`. -/
def tableContent (cat : Catalog) (rows : DBTable → List Csv.Record) (t : DBTable) : TableContent :=
  { id := t.id
    name := t.name
    columns := cat.columns.filter fun c => c.table == t.id && !c.isPrimaryKey
    foreignKeys := (foreignKeysOf cat t.id).map (foreignKeyContent cat)
    rows := rows t }

/-- A tenant database as the builder reads it. -/
def databaseContent (cat : Catalog) (rows : DBTable → List Csv.Record) (d : TenantDatabase) :
    DatabaseContent :=
  { id := d.id
    name := d.name
    tables := (cat.tables.filter (·.tenantDatabase == d.id)).map (tableContent cat rows) }

end Exports
