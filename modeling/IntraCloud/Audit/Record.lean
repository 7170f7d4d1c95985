import Mathlib.Logic.Basic

/-!
# The audit log

`audit.services.record` inserts one `AuditEvent` row. PostgreSQL refuses a string longer than its
`varchar(n)` column, so an insert whose request id (or action, or resource type) does not fit
raises a `DataError` and writes nothing. The log is append-only: rows are only ever added.
-/

/-- A primary key. Keys are only ever compared; a fresh one comes from a counter. -/
abbrev Uuid := Nat

namespace Audit

/-- `AuditEvent.Result`. -/
inductive Result where
  | success
  | denied
  | error
  deriving DecidableEq, Repr

/-- A value of the event's `context` object. -/
inductive ContextValue where
  | str (s : String)
  | int (n : Int)
  | bool (b : Bool)
  | uuid (id : Uuid)
  deriving DecidableEq, Repr

/-- A row of `AuditEvent`. The resource id is the text of a UUID, or empty. -/
structure AuditEvent where
  actor : Option Uuid
  organization : Option Uuid
  action : String
  resourceType : String := ""
  resourceId : Option Uuid := none
  requestId : String := ""
  result : Result := .success
  context : List (String × ContextValue) := []
  deriving DecidableEq, Repr

/-- `varchar(n)`: PostgreSQL counts characters. -/
def varcharFits (n : Nat) (s : String) : Bool := s.length ≤ n

/-- The row fits its columns: `action` and `resource_type` are `varchar(100)`, `request_id` is
`varchar(64)`. The text of a UUID has 36 characters, so `resource_id` always fits its 64. -/
def AuditEvent.fits (e : AuditEvent) : Bool :=
  varcharFits 100 e.action && varcharFits 100 e.resourceType && varcharFits 64 e.requestId

/-- `record`: the log with the event appended, or `none` for the `DataError`. -/
def record (log : List AuditEvent) (e : AuditEvent) : Option (List AuditEvent) :=
  if e.fits then some (log ++ [e]) else none

theorem record_of_fits {log : List AuditEvent} {e : AuditEvent} (h : e.fits = true) :
    record log e = some (log ++ [e]) := by
  simp [record, h]

theorem record_eq_some {log log' : List AuditEvent} {e : AuditEvent} :
    record log e = some log' ↔ e.fits = true ∧ log' = log ++ [e] := by
  by_cases h : e.fits = true
  · simp only [record, h, if_true, Option.some.injEq, true_and]
    exact eq_comm
  · simp [record, h]

theorem record_eq_none {log : List AuditEvent} {e : AuditEvent} :
    record log e = none ↔ e.fits = false := by
  by_cases h : e.fits = true <;> simp [record, h]

/-- With names that fit, an event is refused for its request id only. -/
theorem fits_eq {e : AuditEvent} (haction : varcharFits 100 e.action = true)
    (htype : varcharFits 100 e.resourceType = true) : e.fits = varcharFits 64 e.requestId := by
  simp [AuditEvent.fits, haction, htype]

end Audit
