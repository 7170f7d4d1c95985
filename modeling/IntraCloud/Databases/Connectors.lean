import IntraCloud.Python.IpAddress

/-!
# Dialling a connected database

`assert_host_is_safe` and `_connect` of `databases/connectors.py`. The resolver answers each lookup as it
likes, numbered in the order they are made; a numeric address is its own answer. `psycopg.connect` splits
the host at its commas, looks the parts up itself, and dials their addresses until one of them connects.
-/

namespace Databases

open Python

/-- What a lookup raises: `socket.gaierror`, or the `UnicodeError` of a name that IDNA refuses. -/
inductive LookupError where
  | gaierror
  | unicodeError
  deriving DecidableEq, Repr

/-- The answer to the `n`th lookup, of this name. -/
abbrev Resolver := (n : Nat) → (host : List Char) → Except LookupError (List IpAddress)

/-- `_ALWAYS_UNSAFE_ATTRS`. -/
def ALWAYS_UNSAFE_ATTRS : List (IpAddress → Bool) :=
  [IpAddress.isLinkLocal, IpAddress.isUnspecified, IpAddress.isReserved, IpAddress.isMulticast]

/-- `_PRIVATE_NETWORK_ATTRS`. -/
def PRIVATE_NETWORK_ATTRS : List (IpAddress → Bool) := [IpAddress.isPrivate, IpAddress.isLoopback]

/-- Why an address is refused. -/
inductive Refusal where
  | privateAddress
  | nonRoutable
  deriving DecidableEq, Repr

/-- What `assert_host_is_safe` holds against one address. -/
def refusal (blockPrivate : Bool) (ip : IpAddress) : Option Refusal :=
  if ip.isLoopback then if blockPrivate then some .privateAddress else none
  else if ALWAYS_UNSAFE_ATTRS.any fun attr => attr ip then some .nonRoutable
  else if blockPrivate && PRIVATE_NETWORK_ATTRS.any fun attr => attr ip then some .privateAddress
  else none

/-- What `_connect` raises. -/
inductive ConnectError where
  /-- `UnsafeHost`. -/
  | unresolved (host : List Char)
  | unsafeHost (host : List Char) (ip : IpAddress) (why : Refusal)
  /-- `ConnectionFailed`. -/
  | connectionFailed
  /-- Not caught. -/
  | unicodeError
  deriving DecidableEq, Repr

/-- The addresses of one answer, in order. -/
def checkAddresses (blockPrivate : Bool) (host : List Char) : List IpAddress → Except ConnectError Unit
  | [] => .ok ()
  | ip :: rest =>
    match refusal blockPrivate ip with
    | some why => .error (.unsafeHost host ip why)
    | none => checkAddresses blockPrivate host rest

/-- `assert_host_is_safe`. -/
def assertHostIsSafe (resolver : Resolver) (blockPrivate : Bool) (host : List Char) :
    Except ConnectError Unit :=
  match resolver 0 host with
  | .error .gaierror => .error (.unresolved host)
  | .error .unicodeError => .error .unicodeError
  | .ok addresses => checkAddresses blockPrivate host addresses

/-- `host.split(",")`. -/
def splitHosts : List Char → List (List Char)
  | [] => [[]]
  | ',' :: s => [] :: splitHosts s
  | c :: s =>
    match splitHosts s with
    | [] => [[c]]
    | part :: parts => (c :: part) :: parts

/-- The addresses of the parts, from the lookup `n` on. An empty part and a path name a local socket; a
part that does not resolve is passed over; `none` stands for the `UnicodeError`. -/
def lookUp (resolver : Resolver) : (n : Nat) → List (List Char) → Option (List IpAddress)
  | _, [] => some []
  | n, part :: parts =>
    if part = [] ∨ part.head? = some '/' then lookUp resolver n parts
    else
      match resolver n part with
      | .error .unicodeError => none
      | .error .gaierror => lookUp resolver (n + 1) parts
      | .ok addresses => (lookUp resolver (n + 1) parts).map fun rest => addresses ++ rest

/-- The addresses that `psycopg.connect` has to dial. -/
def targets (resolver : Resolver) (host : List Char) : Option (List IpAddress) :=
  lookUp resolver 1 (splitHosts host)

/-- The addresses dialled: all up to the first that connects. -/
def dial (connects : IpAddress → Bool) : List IpAddress → List IpAddress
  | [] => []
  | ip :: rest => if connects ip then [ip] else ip :: dial connects rest

/-- `_connect`: the addresses dialled, and the outcome. -/
def connect (resolver : Resolver) (connects : IpAddress → Bool) (blockPrivate : Bool) (host : List Char) :
    List IpAddress × Except ConnectError Unit :=
  match assertHostIsSafe resolver blockPrivate host with
  | .error e => ([], .error e)
  | .ok () =>
    match targets resolver host with
    | none => ([], .error .unicodeError)
    | some addresses =>
      (dial connects addresses, if addresses.any connects then .ok () else .error .connectionFailed)

end Databases
