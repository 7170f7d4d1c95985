import IntraCloud.Organizations.Services
import IntraCloud.Python.Uuid

/-!
# Registrations at once

`RegisterSerializer` of `accounts/serializers.py` and `register_application` of `applications/services.py`, as the
steps that other requests may come between: the check of an address, and the insertion of a user. Each is a
transaction of its own.
-/

namespace Registration

open Organizations Python

/-- The settings, and `BaseUserManager.normalize_email`. -/
structure Environment extends Settings where
  normalizeEmail : String → String

/-- How far a request has come. -/
inductive Stage where
  /-- `RegisterView.post` with an address. -/
  | registering (email : String)
  /-- `validate_email` has returned, after its check has seen so many users. -/
  | validated (email : String) (seen : Nat)
  /-- `register_application` with the id of the new application. -/
  | registeringApplication (application : Nat)
  | finished
  deriving DecidableEq, Repr

/-- The users, and the requests of any number of clients. -/
structure Registry where
  users : List User
  nextUuid : Nat
  request : Nat → Stage

/-- A client's request takes its next step. It may be refused for a reason outside this model: another validator
of the field or of another field, or another statement of the transaction. -/
structure Action where
  client : Nat
  refused : Bool
  deriving DecidableEq, Repr

/-- The address of the identity user of an application. -/
def serviceEmail (application : Nat) : String :=
  "service-account+" ++ String.ofList (uuidText application) ++ "@service.internal"

/-- `User.objects.filter(email__iexact=email).exists()`. -/
def Registry.knows (env : Environment) (x : Registry) (email : String) : Bool :=
  x.users.any fun u => env.upper u.email == env.upper email

/-- `_create_user` of a normalized address, with the constraint of the column. -/
def Registry.create (x : Registry) (email : String) : Registry :=
  if x.users.any (·.email == email) then x
  else { x with users := x.users ++ [(⟨x.nextUuid, email, false⟩ : User)], nextUuid := x.nextUuid + 1 }

/-- `RegisterSerializer.validate_email`. -/
def validateEmail (env : Environment) (x : Registry) (value : String) : Stage :=
  let value := env.normalizeEmail value
  if x.knows env value then .finished else .validated value x.users.length

/-- The next step of a request. -/
def Stage.advance (env : Environment) (x : Registry) : Stage → Registry × Stage
  | .registering email => (x, validateEmail env x email)
  | .validated email _ => (x.create (env.normalizeEmail email), .finished)
  | .registeringApplication application => (x.create (env.normalizeEmail (serviceEmail application)), .finished)
  | .finished => (x, .finished)

/-- One step of the client. -/
def step (env : Environment) (x : Registry) (a : Action) : Registry :=
  let (y, stage) := if a.refused then (x, .finished) else (x.request a.client).advance env x
  { y with request := fun client => if client = a.client then stage else x.request client }

/-- Requests that have not begun. -/
def Registry.Initial (x : Registry) : Prop :=
  ∀ client email seen, x.request client ≠ .validated email seen

/-- No two users have addresses that are equal ignoring case. -/
def EmailsUnique (env : Environment) (x : Registry) : Prop :=
  x.users.Pairwise fun u v => env.upper u.email ≠ env.upper v.email

/-- `User.objects.get(email__iexact=email)` does not find several users. -/
def LooksUpOne (env : Environment) (x : Registry) : Prop :=
  ∀ email, userByEmail env.toSettings x.users email ≠ .multiple

/-- The address that the next step inserts, and how many users the request's check has seen. -/
def Stage.creating (env : Environment) : Stage → Option (String × Nat)
  | .validated email seen => some (env.normalizeEmail email, seen)
  | .registeringApplication application => some (env.normalizeEmail (serviceEmail application), 0)
  | _ => none

/-- Since the check of the request, or in all where it makes none, no user has come with another spelling of the
address that it inserts now. -/
def Undisturbed (env : Environment) (x : Registry) (a : Action) : Prop :=
  a.refused = true ∨ ∀ email seen, (x.request a.client).creating env = some (email, seen) →
    ∀ u ∈ x.users.drop seen, env.upper u.email = env.upper email → u.email = email

end Registration
