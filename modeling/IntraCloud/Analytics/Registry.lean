import IntraCloud.Analytics.Operations
import IntraCloud.Analytics.Services
import IntraCloud.Databases.Domains

/-!
# Dashboards over the registry

`run_analysis` on the operations of `analytics/operations.py`, and what a widget of a stored dashboard can make of
them.
-/

namespace Analytics

open Audit Databases Python Statistics

variable {ν K : Type} [Arithmetic K]

/-- What stands behind the analyses: the libraries, the driver, the setting, and how errors and results are
written. -/
structure Backend (ν K : Type) where
  env : Environment ν K
  valueType : ValueType ν
  cap : Nat
  float : ν → Double K
  /-- The rows that the `k`-th query of an operation returns of a table. -/
  answers : Nat → List (Row ν) → List (Row ν)
  message : Raised ν → String
  json : Result ν K → PyJson
  profile : DBTable → List DBColumn → List (Row ν) → Analysis

/-- A table with these columns and rows. -/
def Backend.source (B : Backend ν K) (columns : List DBColumn) (rows : List (Row ν)) : Source ν (Double K) :=
  ⟨B.valueType, B.cap, columns, rows, B.float⟩

/-- `params or \x7b\x7d`. -/
def orEmpty (E : Environment ν K) (params : PyJson) : PyJson := if truthy E params then params else .dict []

/-- The `try` of `run_analysis`. -/
def Backend.attempt (B : Backend ν K) (op : Operation ν K) (columns : List DBColumn) (rows : List (Row ν))
    (params : PyJson) : Analysis :=
  match op B.env (B.source columns rows) (fun k => B.answers k rows) (orEmpty B.env params) with
  | .ok result => .result (B.json result)
  | .error e => if e.caught then .invalid (B.message e) else .crash

/-- The operations, as `run_analysis` runs them. -/
def Backend.registry (B : Backend ν K) : Operations ν where
  get name := (OPERATIONS.lookup name).map fun op _ columns rows params => B.attempt op columns rows params
  profile := B.profile

/-! ## Widgets -/

/-- What `render_dashboard` finds under the `table_id` of a widget. -/
def tableOf (access : Uuid → Option (Access ν)) (widget : PyJson) : Option (Access ν) :=
  ((widget.field "table_id").bind tableIdOf).join.bind access

/-- The dashboard has one result for each widget, in order: data or one of the errors that are caught, and the
one that a dashboard of this widget alone has. -/
def RendersEach (ops : Operations ν) (access : Uuid → Option (Access ν)) (dashboard : Dashboard) : Prop :=
  ∃ results, renderDashboard ops access dashboard = some results ∧
    List.Forall₂ (fun widget result =>
      renderDashboard ops access { dashboard with widgets := [widget] } = some [result] ∧
        result.outcome ≠ .error .serverError) dashboard.widgets results

/-- A dashboard as it is stored: the serializer lets only objects through, `_validate_widgets` accepted it for the
tables of its database, and a `JSONB` column holds it. -/
structure StoredDashboard (B : Backend ν K) (belongs : Uuid → Bool) (dashboard : Dashboard) : Prop where
  objects : ∀ widget ∈ dashboard.widgets, ∃ members, widget = .dict members
  valid : validateWidgets B.registry belongs dashboard.widgets = .ok ()
  held : ∀ widget ∈ dashboard.widgets, documentHolds B.env.floatText widget = true

/-- The operation asks the parameters for a value before it knows them for an object, or asks the server for too
many columns. -/
def Escapes (E : Environment ν K) (columns : List DBColumn) (widget : PyJson) : Prop :=
  ∃ params, widget.get "params" (.dict []) = some params ∧
    ((widget.field "operation" = some (.str "count".toList) ∨
        widget.field "operation" = some (.str "duplicate_count".toList)) ∧
        truthy E params = true ∧ (∀ members, params ≠ .dict members) ∨
      widget.field "operation" = some (.str "duplicate_count".toList) ∧
        ∃ names, columnNames E (orEmpty E params) = .ok names ∧
          (∀ name ∈ names, ∃ s, name = .str s ∧ ∃ c ∈ columns, c.name.toList = s) ∧ MAX_TARGETS < names.length)

end Analytics
