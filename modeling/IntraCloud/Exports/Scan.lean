import IntraCloud.Databases.Agreement
import IntraCloud.Databases.Rows
import IntraCloud.Exports.Schema

/-!
# Reading tables while rows are written

`build_export` reads the tables of an organization one after another, each with a `SELECT` of its own and
none of them in a transaction. What others commit comes between the reads.
-/

namespace Exports

open Databases Relational Transition

/-- The schema services arrive at the catalog, from two empty databases. -/
def Reachable (cat : Catalog) : Prop :=
  ∃ s as, s.catalog = Catalog.empty ∧ s.tenant = Tenant.empty ∧ (run Databases.step s as).catalog = cat

/-! ## What is read -/

/-- The tables of the tenant databases, in the order they are read. -/
def exportedTables (cat : Catalog) (databases : List TenantDatabase) : List DBTable :=
  databases.flatMap fun d => cat.tables.filter (·.tenantDatabase == d.id)

/-- A foreign key that `schema.json` lists for a table. -/
def exportedKey (t : DBTable) (fk : ForeignKeyContent) : TenantKey :=
  { table := t.physical
    column := fk.column
    refTable := (⟨t.tenantDatabase⟩, fk.referencesTable)
    refColumn := fk.referencesColumn
    onDelete := fk.onDelete }

/-- The foreign keys of the tenant databases. -/
def exportedKeys (cat : Catalog) (databases : List TenantDatabase) : List TenantKey :=
  (exportedTables cat databases).flatMap fun t =>
    (foreignKeysOf cat t.id).map fun fk => exportedKey t (foreignKeyContent cat fk)

/-! ## The steps -/

variable {ν : Type}

/-- The committed rows, the tables still to be read, and the rows that the package has of the others. -/
structure Scan (ν : Type) where
  rows : TenantRows ν
  pending : List TableKey
  exported : List (TableKey × List (Row ν))
  deriving DecidableEq, Repr

/-- The export reads its next table, or somebody writes a row. -/
inductive Event (ν : Type) where
  | read
  | write (w : RowWrite ν)
  deriving DecidableEq, Repr

/-- One step. The server enforces the foreign keys of all tenant databases. -/
def Scan.step (V : ValueType ν) (cat : Catalog) (s : Scan ν) : Event ν → Scan ν
  | .read =>
    match s.pending with
    | [] => s
    | t :: pending =>
      { s with pending, exported := s.exported ++ [(t, orderById (s.rows.ofTable t))] }
  | .write w => { s with rows := w.apply V (exportedKeys cat cat.databases) s.rows }

/-- The export has read nothing yet. -/
def Scan.start (cat : Catalog) (databases : List TenantDatabase) (rows : TenantRows ν) : Scan ν :=
  { rows, pending := (exportedTables cat databases).map (·.physical), exported := [] }

/-- The rows the package has of a table that was read. -/
def Scan.copied (s : Scan ν) (t : TableKey) : Option (List (Row ν)) :=
  (s.exported.find? fun entry => entry.1 == t).map (·.2)

/-- The rows the package has of a table. -/
def Scan.exportedRows (s : Scan ν) (t : TableKey) : List (Row ν) := (s.copied t).getD []

/-- Once all tables are read, every reference in an exported row is null or to an exported row. -/
def Scan.Consistent (V : ValueType ν) (keys : List TenantKey) (s : Scan ν) : Prop :=
  s.pending = [] → V.values.Closed (keys.map (·.toForeignKey)) s.exportedRows

/-- A write between two reads takes away nothing that an exported row refers to from a table that is still
to be read, and adds nothing to such a table that refers to a row the package does not have of a table that
was read. -/
def Undisturbed (V : ValueType ν) (cat : Catalog) (keys : List TenantKey) (s : Scan ν) :
    Event ν → Prop
  | .read => True
  | .write w => Harmless s.copied V.values (keys.map (·.toForeignKey)) s.rows.ofTable
      (s.step V cat (.write w)).rows.ofTable

end Exports
