import IntraCloud.Transition.Runs
import Mathlib.Logic.Function.Basic

/-!
# The role of the tenant database

`system/tenant_role.py`: a role with few privileges is provisioned, one statement at a time. The connection commits
each statement by itself.
-/

namespace TenantRole

abbrev Name := List Char

/-- A row of `pg_roles`, with its password. -/
structure PgRole where
  login : Bool
  superuser : Bool
  createdb : Bool
  createrole : Bool
  password : List Char
  deriving DecidableEq, Repr

/-- The privileges on a database. -/
structure PgDatabase where
  /-- PUBLIC may connect. -/
  publicConnect : Bool
  connect : Name → Bool
  create : Name → Bool

/-- A PostgreSQL server. -/
structure Cluster where
  roles : Name → Option PgRole
  databases : Name → Option PgDatabase

namespace Cluster

def setRole (c : Cluster) (name : Name) (role : PgRole) : Cluster :=
  { c with roles := Function.update c.roles name (some role) }

def setDatabase (c : Cluster) (name : Name) (d : PgDatabase) : Cluster :=
  { c with databases := Function.update c.databases name (some d) }

variable {c : Cluster} {name other : Name} {role : PgRole} {d : PgDatabase}

@[simp] theorem roles_setRole_self : (c.setRole name role).roles name = some role := Function.update_self ..

theorem roles_setRole_of_ne (h : other ≠ name) : (c.setRole name role).roles other = c.roles other :=
  Function.update_of_ne h ..

@[simp] theorem databases_setRole : (c.setRole name role).databases = c.databases := rfl

@[simp] theorem databases_setDatabase_self : (c.setDatabase name d).databases name = some d := Function.update_self ..

theorem databases_setDatabase_of_ne (h : other ≠ name) : (c.setDatabase name d).databases other = c.databases other :=
  Function.update_of_ne h ..

@[simp] theorem roles_setDatabase : (c.setDatabase name d).roles = c.roles := rfl

theorem setRole_eq_self (h : c.roles name = some role) : c.setRole name role = c := by
  rw [setRole, ← h, Function.update_eq_self]

theorem setDatabase_eq_self (h : c.databases name = some d) : c.setDatabase name d = c := by
  rw [setDatabase, ← h, Function.update_eq_self]

end Cluster

/-! ## Statements -/

inductive Statement where
  /-- `CREATE ROLE {} WITH LOGIN PASSWORD {} NOSUPERUSER NOCREATEDB NOCREATEROLE` -/
  | createRole (name : Name) (password : List Char)
  /-- `ALTER ROLE {} WITH LOGIN PASSWORD {}` -/
  | alterRole (name : Name) (password : List Char)
  /-- `GRANT CONNECT, CREATE ON DATABASE {} TO {}` -/
  | grant (database name : Name)
  /-- `REVOKE CONNECT ON DATABASE {} FROM PUBLIC` -/
  | revoke (database : Name)
  deriving DecidableEq, Repr

/-- What `CREATE ROLE` makes. -/
def newRole (password : List Char) : PgRole := ⟨true, false, false, false, password⟩

def PgRole.altered (role : PgRole) (password : List Char) : PgRole := { role with login := true, password := password }

def PgDatabase.granted (d : PgDatabase) (name : Name) : PgDatabase :=
  { d with connect := Function.update d.connect name true, create := Function.update d.create name true }

def PgDatabase.revoked (d : PgDatabase) : PgDatabase := { d with publicConnect := false }

/-- What the server does. It takes the name of a role, with its password, or does not. -/
def Statement.exec (takes : Name → List Char → Bool) (statement : Statement) (c : Cluster) : Option Cluster :=
  match statement with
  | .createRole name password =>
    if takes name password && (c.roles name).isNone then
      some (c.setRole name (newRole password))
    else none
  | .alterRole name password =>
    if takes name password then
      (c.roles name).map fun role => c.setRole name (role.altered password)
    else none
  | .grant database name =>
    if (c.roles name).isSome then
      (c.databases database).map fun d => c.setDatabase database (d.granted name)
    else none
  | .revoke database =>
    (c.databases database).map fun d => c.setDatabase database d.revoked

/-! ## Faults -/

/-- How a statement ends for the client, whatever the server thinks of it. -/
inductive Outcome where
  | done
  /-- It raises, and has done nothing. -/
  | refused
  /-- It raises, and has been executed. -/
  | lost
  deriving DecidableEq, Repr

/-- The steps of a call. -/
inductive Step where
  | connect
  | select
  | role
  | grant
  | revoke
  deriving DecidableEq, Repr

abbrev Faults := Step → Outcome

/-- `TenantRoleError`. -/
inductive TenantRoleError where
  /-- "role … already exists" -/
  | alreadyExists (name : Name)
  /-- "could not provision the tenant role" -/
  | couldNotProvision
  deriving DecidableEq, Repr

variable (takes : Name → List Char → Bool)

/-- `cur.execute`. -/
def execute (c : Cluster) (statement : Statement) : Outcome → Cluster × Except TenantRoleError Unit
  | .refused => (c, .error .couldNotProvision)
  | .lost => ((statement.exec takes c).getD c, .error .couldNotProvision)
  | .done =>
    match statement.exec takes c with
    | none => (c, .error .couldNotProvision)
    | some c => (c, .ok ())

/-- Statements one after the other. -/
def executeAll (c : Cluster) : List (Statement × Outcome) → Cluster × Except TenantRoleError Unit
  | [] => (c, .ok ())
  | (statement, outcome) :: rest =>
    match execute takes c statement outcome with
    | (c, .error e) => (c, .error e)
    | (c, .ok ()) => executeAll c rest

/-! ## Provisioning -/

/-- `provision_role`. -/
def provisionRole (tenantDbName : Name) (faults : Faults) (c : Cluster) (name : Name) (password : List Char) :
    Cluster × Except TenantRoleError Unit :=
  if faults .connect ≠ .done ∨ faults .select ≠ .done then (c, .error .couldNotProvision)
  else if (c.roles name).isSome then (c, .error (.alreadyExists name))
  else
    executeAll takes c [(.createRole name password, faults .role), (.grant tenantDbName name, faults .grant),
      (.revoke tenantDbName, faults .revoke)]

/-- `ensure_role`. -/
def ensureRole (tenantDbName : Name) (faults : Faults) (c : Cluster) (name : Name) (password : List Char) :
    Cluster × Except TenantRoleError Unit :=
  if faults .connect ≠ .done ∨ faults .select ≠ .done then (c, .error .couldNotProvision)
  else
    let roleExists := (c.roles name).isSome
    let statement : Statement := if roleExists then .alterRole name password else .createRole name password
    executeAll takes c [(statement, faults .role), (.grant tenantDbName name, faults .grant),
      (.revoke tenantDbName, faults .revoke)]

/-! ## Runs -/

/-- A call of one of the two management commands. -/
structure Call where
  /-- `provision_tenant_role`, or else `ensure_tenant_role`. -/
  strict : Bool
  name : Name
  password : List Char
  faults : Faults

/-- What a call does, and how it ends. -/
def Call.perform (tenantDbName : Name) (c : Cluster) (call : Call) : Cluster × Except TenantRoleError Unit :=
  if call.strict then provisionRole takes tenantDbName call.faults c call.name call.password
  else ensureRole takes tenantDbName call.faults c call.name call.password

def callStep (tenantDbName : Name) (c : Cluster) (call : Call) : Cluster := (call.perform takes tenantDbName c).1

/-! ## What calls may do, and what they promise -/

/-- What calls may have made of a server: new roles as `CREATE ROLE` makes them, old ones but for a password of
`ensure_role`, and on the one database CONNECT and CREATE for the names of the calls. -/
structure Within (db : Name) (calls : List Call) (c₀ c : Cluster) : Prop where
  kept : ∀ r, (c₀.roles r).isSome = true → (c.roles r).isSome = true
  created : ∀ r role, c₀.roles r = none → c.roles r = some role →
    ∃ call ∈ calls, call.name = r ∧ role = newRole call.password
  altered : ∀ r before after, c₀.roles r = some before → c.roles r = some after →
    after = before ∨ ∃ call ∈ calls, call.strict = false ∧ call.name = r ∧ after = before.altered call.password
  others : ∀ d, d ≠ db → c.databases d = c₀.databases d
  exists_iff : (c.databases db).isSome = (c₀.databases db).isSome
  privileges : ∀ before after, c₀.databases db = some before → c.databases db = some after →
    (after.publicConnect = true → before.publicConnect = true) ∧
      ∀ r, (before.connect r = true → after.connect r = true) ∧ (before.create r = true → after.create r = true) ∧
        (after.connect r = true → before.connect r = true ∨ ∃ call ∈ calls, call.name = r) ∧
        (after.create r = true → before.create r = true ∨ ∃ call ∈ calls, call.name = r)

/-- The role can be used for the tenant database, and PUBLIC cannot connect to it. -/
structure Ready (db name : Name) (c : Cluster) : Prop where
  login : ∃ role, c.roles name = some role ∧ role.login = true
  privileges : ∃ d, c.databases db = some d ∧ d.publicConnect = false ∧ d.connect name = true ∧ d.create name = true

/-- The role has the password. -/
def HasPassword (name : Name) (password : List Char) (c : Cluster) : Prop :=
  ∃ role, c.roles name = some role ∧ role.password = password

end TenantRole
