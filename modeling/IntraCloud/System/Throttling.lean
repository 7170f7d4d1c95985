import IntraCloud.System.Authority
import IntraCloud.Transition.Runs
import Mathlib.Logic.Function.Basic

/-!
# The throttle of the import jobs

`system/throttling.py`, and the endpoint that uses it: the organization is read off the URL, then the budget
of the organization is charged, and only then is the table looked up among those of the user's organizations.
What the base class makes of the cached history of one key is a parameter. Other requests may change the
database between any two of these.
-/

namespace Throttling

open Authority Organizations

/-- `DEFAULT_THROTTLE_RATES`. -/
def DEFAULT_THROTTLE_RATES : List (String × String) :=
  [("anon", "30/minute"), ("user", "300/minute"), ("auth", "10/minute"), ("import", "20/minute")]

/-- `SimpleRateThrottle`: what its `allow_request` answers under a rate at a time, from what the cache holds
under the key, and what the cache holds then; and what stands for no entry. -/
structure SimpleRateThrottle (History : Type) where
  fresh : History
  allowRequest : (rate : String) → (now : Nat) → History → Bool × History

/-- What the cache holds under the key of a scope and an identifier. -/
abbrev Cache (History : Type) := String × Uuid → History

variable {History : Type}

/-- `OrganizationRateThrottle.allow_request`. -/
def allowRequest (base : SimpleRateThrottle History) (cache : Cache History) (scope : Option String)
    (organization : Option Uuid) (now : Nat) : Bool × Cache History :=
  match scope, organization with
  | some scope, some organization =>
    match DEFAULT_THROTTLE_RATES.lookup scope with
    | none => (true, cache)
    | some rate =>
      let key := (scope, organization)
      let (allowed, history) := base.allowRequest rate now (cache key)
      (allowed, Function.update cache key history)
  | _, _ => (true, cache)

/-- The methods, as far as the view tells them apart. -/
inductive Method where
  | get
  | post
  | options
  | other
  deriving DecidableEq, Repr

/-- A request for the import jobs of a table, and the database it meets. -/
structure Arrival where
  db : State
  now : Nat
  user : Option Uuid
  method : Method
  tableId : Uuid

/-- What becomes of a request. -/
inductive Outcome where
  | notAuthenticated
  | throttled
  | notFound
  | methodNotAllowed
  | handled
  deriving DecidableEq, Repr

/-- `request.throttle_organization_id`: no membership is asked for. -/
def throttleOrganizationId (db : State) (tableId : Uuid) : Option Uuid :=
  (db.rows.find? fun r => r.kind == .table && r.id == tableId).bind fun r => r.organization db.rows

/-- What the handlers of the view start with. -/
def handle (a : Arrival) (user : Uuid) : Outcome :=
  match a.method with
  | .get | .post => if (getMemberTable a.db user a.tableId).isSome then .handled else .notFound
  | .options => .handled
  | .other => .methodNotAllowed

/-- `ImportJobListCreateView.dispatch`: the permission, the throttle and the handler. -/
def dispatch (base : SimpleRateThrottle History) (cache : Cache History) (a : Arrival) :
    Cache History × Outcome :=
  match a.user with
  | none => (cache, .notAuthenticated)
  | some user =>
    let (allowed, cache) :=
      allowRequest base cache (some "import") (throttleOrganizationId a.db a.tableId) a.now
    (cache, if allowed then handle a user else .throttled)

/-- One request. -/
def step (base : SimpleRateThrottle History) (cache : Cache History) (a : Arrival) : Cache History :=
  (dispatch base cache a).1

/-! ## Separate budgets -/

/-- The request is by a member of the organization. -/
def byMember (organization : Uuid) (a : Arrival) : Bool :=
  a.user.any fun user => isMember a.db.directory.memberships user organization

/-- The request is for a table of the organization. -/
def concerns (organization : Uuid) (a : Arrival) : Bool :=
  throttleOrganizationId a.db a.tableId == some organization

/-- What the members of an organization see of the requests for its tables: which are throttled. -/
def seenByMembers (base : SimpleRateThrottle History) (organization : Uuid) (cache : Cache History)
    (a : Arrival) : Option Bool :=
  if byMember organization a && concerns organization a then
    some ((dispatch base cache a).2 == .throttled)
  else none

/-- Taking out the requests of those who are no members changes nothing for the members. -/
def Separate (base : SimpleRateThrottle History) (organization : Uuid) (cache : Cache History)
    (as : List Arrival) : Prop :=
  Transition.observations (step base) (seenByMembers base organization) cache as =
    Transition.observations (step base) (seenByMembers base organization) cache
      (as.filter (byMember organization))

/-- The budget of the organization is used up. -/
def Exhausted (base : SimpleRateThrottle History) (organization : Uuid) (cache : Cache History)
    (now : Nat) : Prop :=
  (base.allowRequest "20/minute" now (cache ("import", organization))).1 = false

/-- A request that no member of the organization makes is for a table of another one, or not authenticated,
or finds the budget of the organization used up. -/
def Spares (base : SimpleRateThrottle History) (organization : Uuid) (cache : Cache History)
    (a : Arrival) : Prop :=
  byMember organization a = false → a.user = none ∨ concerns organization a = false ∨
    Exhausted base organization cache a.now

end Throttling
