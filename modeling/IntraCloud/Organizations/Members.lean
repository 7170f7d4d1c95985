import IntraCloud.Audit.Record

/-!
# Organizations and their members

The rows of `organizations.models` that decide what a user can look up: every `get_member_*` query
asks for an active membership of the organization the row belongs to.
-/

namespace Organizations

/-- `Membership.Status`. -/
inductive MembershipStatus where
  | invited
  | active
  | suspended
  deriving DecidableEq, Repr

/-- A row of `Membership`. -/
structure Membership where
  user : Uuid
  organization : Uuid
  team : Option Uuid
  status : MembershipStatus
  deriving DecidableEq, Repr

/-- A row of `Team`. -/
structure Team where
  id : Uuid
  organization : Uuid
  deriving DecidableEq, Repr

/-- A row of `Project`, with the organization of its workspace. -/
structure Project where
  id : Uuid
  organization : Uuid
  deriving DecidableEq, Repr

/-- The user is an active member of the organization. -/
def isMember (memberships : List Membership) (user organization : Uuid) : Bool :=
  memberships.any fun m =>
    m.user == user && m.organization == organization && m.status == .active

end Organizations
