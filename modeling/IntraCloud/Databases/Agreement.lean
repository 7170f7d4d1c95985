import IntraCloud.Databases.Services
import IntraCloud.Transition.Runs

/-!
# Conditions on schema requests

When the catalog and the tenant database go on agreeing (`Permitted`), and when the foreign-key rows
stay consistent as well (`Matched`): the conditions are about the request and the state it meets.
-/

namespace Databases

open Audit Permissions

/-- What a request decides on that passes the lookups, the permission check and the checks of the
service, and whose DDL PostgreSQL accepts. -/
def SchemaRequest.accepted (r : SchemaRequest) (s : State) (actor : Uuid) : Option Plan :=
  match r.resolve s actor with
  | .error _ => none
  | .ok svc =>
    if !hasPermission s.tables s.now actor svc.permission svc.organization none then none
    else
      match svc.plan with
      | .error _ => none
      | .ok plan => if (s.tenant.exec plan.change.ddl).isSome then some plan else none

/-- The tables a deletion removes. -/
def SchemaRequest.deletes : SchemaRequest → Option (DBTable → Bool)
  | .deleteTable id => some fun t => t.id == id
  | .deleteTenantDatabase id => some fun t => t.tenantDatabase == id
  | _ => none

/-- Deleting these tables takes the row away with the column it references, while its constraint is on
one table that stays and refers to another one that stays. -/
def Catalog.severs (cat : Catalog) (gone : DBTable → Bool) (fk : DBForeignKey) : Bool :=
  cat.goneColumn gone fk.referencesColumn && !cat.goneTable gone fk.referencesTable &&
    !cat.goneColumn gone fk.column

/-- A deletion meets no fault at its catalog write and severs no foreign key, and the request id of a
request that goes through fits the audit log. -/
def Permitted (s : State) : Action → Prop
  | .request fault actor requestId r =>
    ∀ plan ∈ r.accepted s actor,
      fault = some .ddl ∨
        (∀ gone ∈ r.deletes, fault = none ∧
          ∀ fk ∈ s.catalog.foreignKeys, s.catalog.severs gone fk = false) ∧
        (fault = none → (plan.change.write s.catalog).isSome = true → varcharFits 64 requestId = true)
  | _ => True

instance (s : State) : DecidablePred (Permitted s) := fun a => by
  cases a <;> unfold Permitted <;> infer_instance

/-- A deletion meets no fault at its catalog write, and a foreign key that goes through references a
column of the table it references. -/
def Matched (s : State) : Action → Prop
  | .request fault actor _ r =>
    (r.accepted s actor).isSome = true → fault ≠ some .ddl →
      match r with
      | .deleteTable _ | .deleteTenantDatabase _ => fault = none
      | .addForeignKey _ _ referencesTable referencesColumn _ =>
        fault = none → ∀ c ∈ s.catalog.columns, c.id = referencesColumn → c.table = referencesTable
      | _ => True
  | _ => True

instance (s : State) : DecidablePred (Matched s) := fun a => by
  cases a <;> unfold Matched
  · rename_i r
    cases r <;> infer_instance
  · infer_instance
  · infer_instance

/-- The action is a request that raised. -/
def Raises (s : State) : Action → Prop
  | .request fault actor requestId r => (handle s fault actor requestId r).2 ≠ .ok ()
  | _ => False

/-- The rows a foreign-key row refers to. -/
structure Catalog.Resolves (cat : Catalog) (fk : DBForeignKey) (c : DBColumn) (t rt : DBTable)
    (rc : DBColumn) : Prop where
  column_mem : c ∈ cat.columns
  column_id : c.id = fk.column
  table_mem : t ∈ cat.tables
  table_id : t.id = c.table
  refTable_mem : rt ∈ cat.tables
  refTable_id : rt.id = fk.referencesTable
  refColumn_mem : rc ∈ cat.columns
  refColumn_id : rc.id = fk.referencesColumn

/-- The row references a unique column of the table it references, of the type of its own column and
in the same database, and describes exactly the constraint of its column. -/
def Consistent (cat : Catalog) (ten : Tenant) (fk : DBForeignKey) : Prop :=
  ∃ c t rt rc, cat.Resolves fk c t rt rc ∧ rc.table = rt.id ∧
    rt.tenantDatabase = t.tenantDatabase ∧ (rc.isPrimaryKey = true ∨ rc.isUnique = true) ∧
    rc.dataType = c.dataType ∧
    ∀ x, (x ∈ ten.foreignKeys ∧ x.name = c.id) ↔ x = t.physicalForeignKey c rt rc fk.onDelete

/-- The catalog has a row for every schema, table and column of the tenant database. It may have rows of more. -/
structure Covers (cat : Catalog) (ten : Tenant) : Prop where
  schemas : ∀ schema ∈ ten.schemas, ∃ d ∈ cat.databases, d.schemaName = schema
  tables : ∀ x ∈ ten.tables, ∃ t ∈ cat.tables, t.physical = x
  columns : ∀ x ∈ ten.columns, ∃ c ∈ cat.columns, ∃ t ∈ cat.tables, t.id = c.table ∧ t.physicalColumn c = x

end Databases
