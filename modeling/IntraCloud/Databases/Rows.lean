import IntraCloud.Databases.Catalog
import IntraCloud.Python.Csv
import IntraCloud.Relational.References
import Mathlib.Data.List.Sort

/-!
# Rows of tenant tables

`iter_export_rows` of `databases/rows.py`, and what an insert or a delete of a row does in a database that
enforces foreign keys. Values, their equality and their `str` are arguments.
-/

namespace Databases

open Relational

/-- A table of the tenant database. -/
abbrev TableKey := SchemaName × String

/-- A row of a tenant table: its primary key, and its other values that are not NULL. -/
structure Row (ν : Type) where
  id : Uuid
  cells : List (String × ν)
  deriving DecidableEq, Repr

/-- The values of a column type of the server. -/
structure ValueType (ν : Type) where
  /-- A primary key as a value. -/
  uuid : Uuid → ν
  /-- The operator `=`. -/
  same : ν → ν → Bool
  /-- `str` of the value as the driver returns it. -/
  text : ν → List Char

variable {ν : Type}

/-- The value of a column. -/
def Row.value (V : ValueType ν) (r : Row ν) (column : String) : Option ν :=
  if column = "id" then some (V.uuid r.id)
  else (r.cells.find? fun cell => cell.1 == column).map (·.2)

def ValueType.values (V : ValueType ν) : Values (Row ν) String ν := ⟨Row.value V, V.same⟩

/-! ## Reading -/

/-- `ORDER BY id`. -/
def orderById (rows : List (Row ν)) : List (Row ν) := rows.insertionSort fun r r' => r.id ≤ r'.id

/-- `iter_export_rows` of a table with these columns and rows. -/
def iterExportRows (V : ValueType ν) (columnNames : List String) (rows : List (Row ν)) :
    List Python.Csv.Record :=
  columnNames.map (·.toList) ::
    (orderById rows).map fun r => columnNames.map fun column => ((r.value V column).map V.text).getD []

/-! ## Writing -/

/-- A foreign key of the tenant database, with what a delete of the referenced row does. -/
structure TenantKey extends ForeignKey TableKey String where
  onDelete : OnDelete
  deriving DecidableEq, Repr

/-- The rows of all tables. -/
abbrev TenantRows (ν : Type) := List (TableKey × Row ν)

def TenantRows.ofTable (rows : TenantRows ν) (t : TableKey) : List (Row ν) :=
  (rows.filter fun stored => stored.1 == t).map (·.2)

/-- Every foreign key holds. -/
def TenantRows.Sound (V : ValueType ν) (keys : List TenantKey) (rows : TenantRows ν) : Prop :=
  V.values.Closed (keys.map (·.toForeignKey)) rows.ofTable

instance (V : ValueType ν) (keys : List TenantKey) (rows : TenantRows ν) :
    Decidable (rows.Sound V keys) := by
  unfold TenantRows.Sound; infer_instance

/-- A stored row, by its table and its primary key. -/
def storedKey (stored : TableKey × Row ν) : TableKey × Uuid := (stored.1, stored.2.id)

/-- The key is one of the stored row's table, and the row refers to one of these rows. -/
def refersTo (V : ValueType ν) (rows : TenantRows ν) (gone : List (TableKey × Uuid)) (key : TenantKey)
    (stored : TableKey × Row ν) : Bool :=
  stored.1 == key.table && rows.any fun target =>
    gone.contains (storedKey target) && target.1 == key.refTable &&
      V.values.refers key.toForeignKey stored.2 target.2

/-- The rows that go with these: those that refer to one of them under `ON DELETE CASCADE`. Every round but
the last adds one, so there are no more rounds than rows. -/
def cascade (V : ValueType ν) (keys : List TenantKey) (rows : TenantRows ν) :
    Nat → List (TableKey × Uuid) → List (TableKey × Uuid)
  | 0, gone => gone
  | fuel + 1, gone =>
    let more := rows.filter fun stored =>
      !gone.contains (storedKey stored) && keys.any fun key =>
        key.onDelete == .cascade && refersTo V rows gone key stored
    if more.isEmpty then gone else cascade V keys rows fuel (gone ++ more.map storedKey)

/-- A row after `ON DELETE SET NULL` of the keys that refer to rows that go. -/
def setNull (V : ValueType ν) (keys : List TenantKey) (rows : TenantRows ν) (gone : List (TableKey × Uuid))
    (stored : TableKey × Row ν) : TableKey × Row ν :=
  let nulled (column : String) := keys.any fun key =>
    key.onDelete == .setNull && key.column == column && refersTo V rows gone key stored
  (stored.1, { stored.2 with cells := stored.2.cells.filter fun cell => !nulled cell.1 })

/-- An `INSERT` or a `DELETE` of one row, in a transaction of its own. -/
inductive RowWrite (ν : Type) where
  | insert (table : TableKey) (row : Row ν)
  | delete (table : TableKey) (id : Uuid)
  deriving DecidableEq, Repr

/-- What a statement writes before the constraints are checked. -/
def RowWrite.perform (V : ValueType ν) (keys : List TenantKey) (rows : TenantRows ν) :
    RowWrite ν → TenantRows ν
  | .insert table row => rows ++ [(table, row)]
  | .delete table id =>
    let gone := cascade V keys rows rows.length [(table, id)]
    (rows.filter fun stored => !gone.contains (storedKey stored)).map (setNull V keys rows gone)

/-- The rows after a statement; one that leaves a reference dangling is refused. -/
def RowWrite.apply (V : ValueType ν) (keys : List TenantKey) (rows : TenantRows ν) (w : RowWrite ν) :
    TenantRows ν :=
  if (w.perform V keys rows).Sound V keys then w.perform V keys rows else rows

theorem RowWrite.sound_apply {V : ValueType ν} {keys : List TenantKey} {rows : TenantRows ν}
    (h : rows.Sound V keys) (w : RowWrite ν) : (w.apply V keys rows).Sound V keys := by
  unfold apply
  by_cases hsound : (w.perform V keys rows).Sound V keys
  · rw [if_pos hsound]
    exact hsound
  · rw [if_neg hsound]
    exact h

end Databases
