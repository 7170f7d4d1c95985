import IntraCloud.Exports.Scan
import IntraCloud.Exports.Schema
import IntraCloud.Relational.Insertion
import IntraCloud.Relational.Rounds
import Mathlib.Data.List.Infix

/-!
# What a restore reads

The entries of a package as `exports/restorer.py` takes them apart, and the order in which it fills tables.
-/

namespace Exports

open Databases Python Relational

/-- An entry of `schema["tables"]`. -/
structure TableData where
  name : String
  columns : List ColumnSpec
  foreignKeys : List ForeignKeyContent
  rowsPath : List Char
  deriving DecidableEq

/-- The tables a table has to come after. -/
def TableData.dependencies (t : TableData) : List String :=
  (t.foreignKeys.map (·.referencesTable)).filter (· ≠ t.name)

/-- Tables, by what is said of each. -/
def tableDependencies {α : Type} (data : α → TableData) : Dependencies α String where
  name t := (data t).name
  needs t := (data t).dependencies

/-- `by_name[name]`: the last table of the name. -/
def byName {α : Type} (data : α → TableData) (tables : List α) (t : α) : α :=
  (tables.reverse.find? fun u => (data u).name == (data t).name).getD t

/-- `_topological_order`; `none` stands for the `RestoreError`. -/
def topologicalOrder {α : Type} (data : α → TableData) (tables : List α) : Option (List α) :=
  ((tableDependencies data).rounds tables.length [] tables).map fun resolved =>
    resolved.map (byName data tables)

/-- A run of `_topological_order`, without fuel for its loop. -/
def TopologicalOrderRuns {α : Type} (data : α → TableData) (tables : List α) (result : Option (List α)) :
    Prop :=
  ∃ resolved, (tableDependencies data).Loop [] tables resolved ∧
    result = resolved.map fun resolved => resolved.map (byName data tables)

/-- The folders `_get_or_create_folder` makes for a path: the prefixes of it that are not there yet. -/
def missingFolders (cache : List (List String)) (path : List String) : List (List String) :=
  path.inits.filter fun folder => !cache.contains folder

/-! ## The rows of a restored tenant database

The last loop of `_restore_tenant_database`: the rows of the package go into the empty tables, whose foreign
keys are there already. -/

variable {ν ν' : Type}

/-- A table of `schema.json`, with the rows of its CSV file. -/
abbrev TablePart (ν : Type) := TableData × List (Row ν)

/-- The foreign key that `add_foreign_key` makes of an entry of `foreign_keys`. -/
def restoredKey (schema : SchemaName) (t : TableData) (fk : ForeignKeyContent) : ForeignKey TableKey String :=
  { table := (schema, t.name)
    column := fk.column
    refTable := (schema, fk.referencesTable)
    refColumn := fk.referencesColumn }

/-- The foreign keys of the restored tables. -/
def restoredKeys (schema : SchemaName) (tables : List (TablePart ν)) : List (ForeignKey TableKey String) :=
  tables.flatMap fun t => t.1.foreignKeys.map (restoredKey schema t.1)

/-- The rows, one table after another. -/
def restoredRows (schema : SchemaName) (tables : List (TablePart ν)) : TenantRows ν :=
  tables.flatMap fun t => t.2.map fun r => ((schema, t.1.name), r)

/-- The exceptions of the loop: the `RestoreError`, and the `IntegrityError` of an `INSERT`. -/
inductive RowsError where
  | cannotResolve
  | foreignKey (table : TableKey) (id : Uuid)
  deriving DecidableEq, Repr

/-- The loop. `convert` is what becomes of the values of a row in the CSV file and in `_convert_value`, where
these raise nothing. -/
def restoreAllRows (V : ValueType ν') (convert : Row ν → Row ν') (schema : SchemaName)
    (tables : List (TablePart ν)) : Except RowsError (TenantRows ν') :=
  match topologicalOrder Prod.fst tables with
  | none => .error .cannotResolve
  | some order =>
    match V.values.insertAll (restoredKeys schema tables) []
        ((restoredRows schema order).map fun x => (x.1, convert x.2)) with
    | .error x => .error (.foreignKey x.1 x.2.id)
    | .ok rows => .ok rows

/-- There is an order of the tables, and in it no row is inserted before a row it refers to. -/
def RestoresInOrder (V : ValueType ν) (schema : SchemaName) (tables : List (TablePart ν)) : Prop :=
  ∃ order, topologicalOrder Prod.fst tables = some order ∧
    V.values.InOrder (restoredKeys schema tables) (restoredRows schema order)

/-- Whatever values the rows have then, as long as those that referred to each other do, no foreign key
refuses a row. -/
def NeverRefused (V : ValueType ν) (schema : SchemaName) (tables : List (TablePart ν)) : Prop :=
  ∀ (ν' : Type) (V' : ValueType ν') (convert : Row ν → Row ν'),
    V.values.Keeps V'.values (restoredKeys schema tables) convert →
      ∃ restored, restoreAllRows V' convert schema tables = .ok restored

/-! ### The package of a tenant database -/

/-- The arguments of `add_column` for a column of `schema.json`. -/
def columnSpec (c : DBColumn) : ColumnSpec :=
  { name := c.name, dataType := c.dataType, maxLength := c.maxLength, precision := c.precision,
    scale := c.scale, isNullable := c.isNullable, isUnique := c.isUnique, defaultValue := c.defaultValue }

/-- A table as the restore reads it. -/
def tableData (d : DatabaseContent) (t : TableContent) : TableData :=
  { name := t.name
    columns := t.columns.map columnSpec
    foreignKeys := t.foreignKeys
    rowsPath := rowsArcname d t }

/-- The tables of a tenant database as they are in its package. -/
def packageTables (V : ValueType ν) (cat : Catalog) (rows : TenantRows ν) (d : TenantDatabase) :
    List (TablePart ν) :=
  let records (t : DBTable) :=
    iterExportRows V ((cat.columns.filter (·.table == t.id)).map (·.name)) (rows.ofTable t.physical)
  (exportedTables cat [d]).map fun t =>
    (tableData (databaseContent cat records d) (tableContent cat records t),
      orderById (rows.ofTable t.physical))

/-- A row that refers to a row of its own table refers to itself or to a row with a smaller id. -/
def SelfReferencesBackward (V : ValueType ν) (keys : List TenantKey) (rows : TenantRows ν) : Prop :=
  ∀ key ∈ keys, key.refTable = key.table → ∀ r ∈ rows.ofTable key.table,
    r.value V key.column = none ∨
      ∃ r' ∈ rows.ofTable key.table, V.values.refers key.toForeignKey r r' = true ∧ r'.id ≤ r.id

/-- No table depends on itself through foreign keys between different tables. -/
def AcyclicTables (tables : List (TablePart ν)) : Prop :=
  (tableDependencies (Prod.fst : TablePart ν → TableData)).Acyclic tables

end Exports
