import IntraCloud.Databases.Agreement

/-!
# Two clients at once

The steps of a request taken apart: the lookups and checks, the DDL, the catalog write, and the
compensation where it fails. Each is a transaction of its own and no lock spans two of them, so those
of two clients may come in any order. The audit event at the end touches neither database.
-/

namespace Databases

open Permissions

/-- How far a request has come. -/
inductive Stage where
  | waiting
  | planned (plan : Plan)
  | applied (plan : Plan)
  | undoing (plan : Plan)
  | finished (done : Option Plan)
  deriving DecidableEq, Repr

/-- A client's request. -/
structure Task where
  actor : Uuid
  request : SchemaRequest
  stage : Stage
  deriving DecidableEq, Repr

/-- The next step of a request. `refuses` says that PostgreSQL refuses the DDL for a reason outside the
schema, such as the rows of the table. -/
def Task.advance (task : Task) (refuses : Bool) (s : State) : State × Stage :=
  match task.stage with
  | .waiting =>
    match task.request.resolve s task.actor with
    | .error _ => (s, .finished none)
    | .ok svc =>
      if !hasPermission s.tables s.now task.actor svc.permission svc.organization none then
        (s, .finished none)
      else
        match svc.plan with
        | .error _ => (s, .finished none)
        | .ok plan => ({ s with nextUuid := s.nextUuid + 2 }, .planned plan)
  | .planned plan =>
    match executeTenantDdl s.tenant refuses plan.change.ddl with
    | none => (s, .finished none)
    | some tenant => ({ s with tenant }, .applied plan)
  | .applied plan =>
    match plan.change.write s.catalog with
    | some catalog => ({ s with catalog }, .finished (some plan))
    | none => (s, .undoing plan)
  | .undoing plan =>
    match plan.change.compensating.bind s.tenant.exec with
    | some tenant => ({ s with tenant }, .finished none)
    | none => (s, .finished none)
  | .finished done => (s, .finished done)

/-- The databases and the requests of two clients. -/
structure Race where
  state : State
  task : Bool → Task

/-- One step of the client `k`. -/
def Race.step (x : Race) (a : Bool × Bool) : Race :=
  let (k, refuses) := a
  let (state, stage) := (x.task k).advance refuses x.state
  { state, task := fun j => if j = k then { x.task k with stage } else x.task j }

def Stage.isFinished : Stage → Bool
  | .finished _ => true
  | _ => false

/-- The four operations on the tables of a database. -/
def SchemaRequest.onTables : SchemaRequest → Bool
  | .createTenantDatabase .. | .deleteTenantDatabase .. => false
  | _ => true

/-- The type a column specification asks for. -/
def ColumnSpec.type (spec : ColumnSpec) : SqlType :=
  sqlType spec.dataType spec.maxLength spec.precision spec.scale

/-- The numbers of a column specification fit its catalog row. Only those its type uses are checked
before the DDL. -/
def ColumnSpec.numbersFit (spec : ColumnSpec) : Bool :=
  Catalog.integerFits spec.maxLength && Catalog.integerFits spec.precision &&
    Catalog.integerFits spec.scale

/-- The request passes its lookups, the permission check and the checks of the service. -/
def SchemaRequest.passes (r : SchemaRequest) (s : State) (actor : Uuid) : Bool :=
  match r.resolve s actor with
  | .error _ => false
  | .ok svc =>
    hasPermission s.tables s.now actor svc.permission svc.organization none && svc.plan.toBool

/-- The table and the column a request adds. -/
def SchemaRequest.added : SchemaRequest → Option (Uuid × ColumnSpec)
  | .addColumn tableId spec => some (tableId, spec)
  | _ => none

/-- The column of a new foreign key, and the table and the column it references. -/
def SchemaRequest.referring : SchemaRequest → Option (Uuid × Uuid × Uuid)
  | .addForeignKey _ columnId rtId rcId _ => some (columnId, rtId, rcId)
  | _ => none

/-- The first request adds a unique column under a new name, with numbers its catalog row cannot hold,
and the second a foreign key that references the same table through a column of that name of another
table; both pass all checks. -/
def Clashes (s : State) (actor actor' : Uuid) (r r' : SchemaRequest) : Prop :=
  r.passes s actor = true ∧ r'.passes s actor' = true ∧
    ∃ added ∈ r.added, ∃ referring ∈ r'.referring,
      let (tableId, spec) := added
      let (columnId, rtId, rcId) := referring
      rtId = tableId ∧ spec.isUnique = true ∧ spec.numbersFit = false ∧
        (∀ x ∈ s.catalog.columns, x.table = tableId → x.name ≠ spec.name) ∧
        (∃ rc ∈ s.catalog.columns, rc.id = rcId ∧ rc.name = spec.name) ∧
        ∃ c ∈ s.catalog.columns, c.id = columnId ∧
          comparable (sqlType c.dataType c.maxLength c.precision c.scale) spec.type = true

instance (s : State) (actor actor' : Uuid) (r r' : SchemaRequest) :
    Decidable (Clashes s actor actor' r r') := by
  unfold Clashes; infer_instance

/-- The requests of two clients clash. -/
def Task.clashes (s : State) (task task' : Task) : Prop :=
  Clashes s task.actor task'.actor task.request task'.request

instance (s : State) (task task' : Task) : Decidable (task.clashes s task') := by
  unfold Task.clashes; infer_instance

/-- The tenant database has exactly the tables and columns the catalog describes. -/
def TablesAgree (cat : Catalog) (ten : Tenant) : Prop :=
  Relational.SameMembers ten.tables cat.describes.tables ∧
    Relational.SameMembers ten.columns cat.describes.columns

instance (cat : Catalog) (ten : Tenant) : Decidable (TablesAgree cat ten) := by
  unfold TablesAgree; infer_instance

end Databases
