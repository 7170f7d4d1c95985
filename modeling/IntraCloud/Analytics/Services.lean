import IntraCloud.Databases.Rows
import IntraCloud.Python.JsonValue
import IntraCloud.Python.Uuid
import Mathlib.Data.Option.Defs

/-!
# Analyses and dashboards

`analytics/services.py`. The operations of the registry and the profile of a table are arguments: each of
them reads one table.
-/

namespace Analytics

open Audit Databases Python

variable {ν : Type}

/-! ## Operations -/

/-- What an operation comes to. -/
inductive Analysis where
  | result (data : PyJson)
  /-- `AnalyticsValidationError`, or one of the errors that `run_analysis` turns into it. -/
  | invalid (detail : String)
  /-- Another exception. -/
  | crash

/-- `OPERATIONS` and `profile_table`. -/
structure Operations (ν : Type) where
  /-- `OPERATIONS.get(operation)`, of `params or {}`. -/
  get : String → Option (DBTable → List DBColumn → List (Row ν) → PyJson → Analysis)
  profile : DBTable → List DBColumn → List (Row ν) → Analysis

/-- `AnalyticsValidationError`. -/
inductive AnalyticsError where
  | unknownOperation (operation : PyJson)
  | invalid (detail : String)
  /-- "each widget needs table_id and operation" -/
  | incompleteWidget
  /-- "does not belong to this dashboard's database" -/
  | foreignTable (tableId : PyJson)

/-- Why a function of `services.py` raises; `serverError` stands for the errors that no view handles. -/
inductive Failure where
  | notFound
  | denied
  | invalid (e : AnalyticsError)
  | serverError

/-- A table as an actor finds it, and whether the actor has `database.read` on its database. -/
structure Access (ν : Type) where
  table : DBTable
  columns : List DBColumn
  rows : List (Row ν)
  allowed : Bool

def Analysis.outcome : Analysis → Except Failure PyJson
  | .result data => .ok data
  | .invalid detail => .error (.invalid (.invalid detail))
  | .crash => .error .serverError

/-- `run_analysis`. A list or a `dict` is no key of `OPERATIONS`. -/
def runAnalysis (ops : Operations ν) (a : Access ν) (operation params : PyJson) : Except Failure PyJson :=
  if !a.allowed then .error .denied
  else
    match operation with
    | .str name =>
      match ops.get (String.ofList name) with
      | none => .error (.invalid (.unknownOperation operation))
      | some fn => (fn a.table a.columns a.rows params).outcome
    | .list _ | .dict _ => .error .serverError
    | _ => .error (.invalid (.unknownOperation operation))

/-- `run_profile`. -/
def runProfile (ops : Operations ν) (a : Access ν) : Except Failure PyJson :=
  if !a.allowed then .error .denied else (ops.profile a.table a.columns a.rows).outcome

/-! ## Dashboards -/

/-- A row of `Dashboard`. -/
structure Dashboard where
  id : Uuid
  tenantDatabase : Uuid
  name : String
  widgets : List PyJson

/-- `UUIDField.to_python`; nothing where it raises a `ValidationError`. -/
def tableIdOf : PyJson → Option (Option Uuid)
  | .null => some none
  | .bool b => some (some (if b then 1 else 0))
  | .int n => if 0 ≤ n ∧ n < 340282366920938463463374607431768211456 then some (some n.toNat) else none
  | .str s => (parseUuid? s).map some
  | _ => none

/-- `_validate_widgets`, where `belongs` finds the tables of the database. -/
def validateWidgets (ops : Operations ν) (belongs : Uuid → Bool) : List PyJson → Except Failure Unit
  | [] => .ok ()
  | widget :: widgets =>
    match widget.field "table_id", widget.field "operation" with
    | some tableId, some operation =>
      match operation with
      | .list _ | .dict _ => .error .serverError
      | .str name =>
        if (ops.get (String.ofList name)).isNone then .error (.invalid (.unknownOperation operation))
        else
          match tableIdOf tableId with
          | none => .error .serverError
          | some id =>
            if id.any belongs then validateWidgets ops belongs widgets
            else .error (.invalid (.foreignTable tableId))
      | _ => .error (.invalid (.unknownOperation operation))
    | _, _ => .error (.invalid .incompleteWidget)

/-- A widget as `render_dashboard` returns it. -/
structure WidgetResult where
  title : PyJson
  chartType : PyJson
  outcome : Except Failure PyJson

/-- One round of the loop of `render_dashboard`, where `access` is `get_member_table`; nothing where an error
is not caught. -/
def renderWidget (ops : Operations ν) (access : Uuid → Option (Access ν)) (widget : PyJson) :
    Option WidgetResult := do
  let title ← widget.get "title" (.str [])
  let chartType ← widget.get "chart_type" (.str "table".toList)
  let tableId ← (widget.field "table_id").bind tableIdOf
  match tableId.bind access with
  | none => some ⟨title, chartType, .error .notFound⟩
  | some a =>
    let operation ← widget.field "operation"
    let params ← widget.get "params" (.dict [])
    match runAnalysis ops a operation params with
    | .error .serverError => none
    | outcome => some ⟨title, chartType, outcome⟩

/-- `render_dashboard`. -/
def renderDashboard (ops : Operations ν) (access : Uuid → Option (Access ν)) (dashboard : Dashboard) :
    Option (List WidgetResult) :=
  dashboard.widgets.mapM (renderWidget ops access)

/-! ## Tables the actor may not read

Whatever their rows are, the analyses of them come to the same. -/

/-- Accesses to the same table, with the same rows if the actor may read them. -/
structure SameAccess (a a' : Access ν) : Prop where
  table : a.table = a'.table
  columns : a.columns = a'.columns
  allowed : a.allowed = a'.allowed
  rows : a.allowed = true → a.rows = a'.rows

theorem SameAccess.eq_of_allowed {a a' : Access ν} (h : SameAccess a a') (hallowed : a.allowed = true) :
    a = a' := by
  obtain ⟨table, columns, rows, allowed⟩ := a
  obtain ⟨table', columns', rows', allowed'⟩ := a'
  obtain ⟨rfl, rfl, rfl, hrows⟩ := h
  obtain rfl : rows = rows' := hrows hallowed
  rfl

theorem runAnalysis_eq {a a' : Access ν} (h : SameAccess a a') (ops : Operations ν) (operation params : PyJson) :
    runAnalysis ops a operation params = runAnalysis ops a' operation params := by
  by_cases hallowed : a.allowed = true
  · rw [h.eq_of_allowed hallowed]
  · have hallowed' : ¬ a'.allowed = true := h.allowed ▸ hallowed
    unfold runAnalysis
    rw [if_pos (by simpa using hallowed), if_pos (by simpa using hallowed')]

theorem runProfile_eq {a a' : Access ν} (h : SameAccess a a') (ops : Operations ν) :
    runProfile ops a = runProfile ops a' := by
  by_cases hallowed : a.allowed = true
  · rw [h.eq_of_allowed hallowed]
  · have hallowed' : ¬ a'.allowed = true := h.allowed ▸ hallowed
    unfold runProfile
    rw [if_pos (by simpa using hallowed), if_pos (by simpa using hallowed')]

/-- A dashboard shows the same of tables that the actor may not read. -/
theorem renderDashboard_eq {access access' : Uuid → Option (Access ν)}
    (h : ∀ id, Option.Rel SameAccess (access id) (access' id)) (ops : Operations ν) (dashboard : Dashboard) :
    renderDashboard ops access dashboard = renderDashboard ops access' dashboard := by
  have hwidget : renderWidget ops access = renderWidget ops access' := by
    funext widget
    unfold renderWidget
    refine bind_congr fun title => bind_congr fun chartType => bind_congr fun tableId => ?_
    cases tableId with
    | none => rfl
    | some id =>
      have hid := h id
      simp only [Option.bind_some]
      generalize access id = a at hid ⊢
      generalize access' id = a' at hid ⊢
      cases hid with
      | none => rfl
      | some hsame => simp only [runAnalysis_eq hsame]
  rw [renderDashboard, renderDashboard, hwidget]

end Analytics
