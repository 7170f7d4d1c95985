import IntraCloud.Databases.Services

/-!
# Connected databases

`databases/connections.py`: registering, testing and deleting an externally hosted database. The
external database and the encryption of credentials are parameters.
-/

namespace Databases

open Audit Organizations Permissions

/-- `ConnectedDatabase.Status`. -/
inductive ConnectionStatus where
  | untested
  | connected
  | unreachable
  deriving DecidableEq, Repr

/-- The stored value of a status. -/
def ConnectionStatus.value : ConnectionStatus → String
  | .untested => "untested"
  | .connected => "connected"
  | .unreachable => "unreachable"

/-- A row of `ConnectedDatabase`. -/
structure ConnectedDatabase where
  id : Uuid
  project : Uuid
  name : String
  engine : String
  host : String
  port : Nat
  databaseName : String
  username : String
  encryptedPassword : String
  sslmode : String
  status : ConnectionStatus
  lastTestedAt : Option Nat
  lastTestError : String
  createdBy : Uuid
  deriving DecidableEq, Repr

/-- `ConnectionParams`. -/
structure ConnectionParams where
  host : String
  port : Nat
  database : String
  username : String
  password : String
  sslmode : String
  deriving DecidableEq, Repr

/-- What lies outside: `test_connection` of the PostgreSQL connector, with the message of its
`ConnectionFailed`, and the two functions of `databases/crypto.py`. -/
structure Connector where
  testConnection : ConnectionParams → Except String Unit
  encryptCredential : String → String
  decryptCredential : String → Option String

/-- The control plane as these calls see it. -/
structure Site extends State where
  connectedDatabases : List ConnectedDatabase
  deriving DecidableEq, Repr

/-- The exceptions of `connections.py` and what else its views meet. -/
inductive ConnectionError where
  /-- `ConnectionPermissionDenied`. -/
  | permissionDenied (message : String)
  /-- `ConnectionValidationError`. -/
  | validation (message : String)
  /-- `Http404` of a lookup. -/
  | notFound
  /-- `CredentialDecryptionError`. -/
  | credentialDecryption
  /-- A database error that nothing maps to a response. -/
  | databaseError
  deriving DecidableEq, Repr

/-- The log after an `audit.record`, as the state it leaves. -/
def Site.record (s : Site) (e : AuditEvent) : Option Site :=
  (s.toState.record e).map fun toState => { s with toState }

/-- An `audit.record` and what the call ends with after it. -/
def Site.recordThen (s : Site) (e : AuditEvent) (result : Except ConnectionError Unit) :
    Site × Except ConnectionError Unit :=
  match s.record e with
  | none => (s, .error .databaseError)
  | some s => (s, result)

/-- The event `_require` records before it raises. -/
def connectionDenied (actor organization : Uuid) (action : String) (resourceId : Option Uuid)
    (requestId : String) : AuditEvent :=
  { actor := some actor, organization := some organization, action := action,
    resourceType := "connected_database", resourceId := resourceId, requestId := requestId,
    result := .denied }

/-- `_require` of `connection.manage`. -/
def requireConnection (s : Site) (actor organization : Uuid) (action : String)
    (resourceId : Option Uuid) (requestId : String) : Site × Except ConnectionError Unit :=
  if hasPermission s.tables s.now actor "connection.manage" organization none then (s, .ok ())
  else
    s.recordThen (connectionDenied actor organization action resourceId requestId)
      (.error (.permissionDenied "connection.manage required"))

/-- The organization a connected database belongs to, through its project. -/
def Site.connectionOrganization (s : Site) (c : ConnectedDatabase) : Option Uuid :=
  (s.projects.find? fun p => p.id == c.project).map (·.organization)

/-- `get_member_connected_database`, with the organization. -/
def getMemberConnectedDatabase (s : Site) (user id : Uuid) : Option (ConnectedDatabase × Uuid) := do
  let c ← s.connectedDatabases.find? fun c => c.id == id
  let organization ← s.connectionOrganization c
  if isMember s.memberships user organization then some (c, organization) else none

/-- The arguments of `create_connected_database` that describe the connection. -/
structure ConnectionSpec where
  name : String
  engine : String
  host : String
  port : Nat
  databaseName : String
  username : String
  password : String
  sslmode : String
  deriving DecidableEq, Repr

def ConnectionSpec.params (spec : ConnectionSpec) : ConnectionParams :=
  { host := spec.host, port := spec.port, database := spec.databaseName, username := spec.username,
    password := spec.password, sslmode := spec.sslmode }

/-- `_connection_params`. -/
def ConnectedDatabase.params (c : ConnectedDatabase) (password : String) : ConnectionParams :=
  { host := c.host, port := c.port, database := c.databaseName, username := c.username,
    password := password, sslmode := c.sslmode }

/-- `CONNECTORS` has one engine. -/
def supportedEngine (engine : String) : Bool := engine == "postgresql"

/-- The row `create_connected_database` inserts. -/
def newConnection (out : Connector) (s : Site) (actor : Uuid) (project : Project)
    (spec : ConnectionSpec) : ConnectedDatabase :=
  { id := s.nextUuid, project := project.id, name := spec.name, engine := spec.engine,
    host := spec.host, port := spec.port, databaseName := spec.databaseName,
    username := spec.username, encryptedPassword := out.encryptCredential spec.password,
    sslmode := spec.sslmode, status := .connected, lastTestedAt := some s.now, lastTestError := "",
    createdBy := actor }

/-- The row fits its columns, and its name is new in its project. -/
def Site.insertable (s : Site) (c : ConnectedDatabase) : Bool :=
  varcharFits 200 c.name && varcharFits 20 c.engine && varcharFits 255 c.host &&
    decide (c.port ≤ Catalog.maxPositiveInteger) && varcharFits 200 c.databaseName &&
    varcharFits 200 c.username && varcharFits 20 c.sslmode &&
    !s.connectedDatabases.any fun x => x.project == c.project && x.name == c.name

/-- The event recorded where the connection test of `create_connected_database` fails. -/
def connectionFailed (actor organization : Uuid) (name message requestId : String) : AuditEvent :=
  { actor := some actor, organization := some organization, action := "connection.create",
    resourceType := "connected_database", requestId := requestId, result := .error,
    context := [("name", .str name), ("error", .str message)] }

/-- The event recorded once the row is there. -/
def connectionCreated (actor organization : Uuid) (c : ConnectedDatabase) (requestId : String) :
    AuditEvent :=
  { actor := some actor, organization := some organization, action := "connection.create",
    resourceType := "connected_database", resourceId := some c.id, requestId := requestId,
    context := [("name", .str c.name), ("host", .str c.host),
      ("database_name", .str c.databaseName)] }

/-- `create_connected_database`: the connection is tested before anything is saved. -/
def createConnectedDatabase (out : Connector) (s : Site) (actor : Uuid) (project : Project)
    (spec : ConnectionSpec) (requestId : String) : Site × Except ConnectionError Unit :=
  match requireConnection s actor project.organization "connection.create" none requestId with
  | (s, .error e) => (s, .error e)
  | (s, .ok ()) =>
    if spec.name = "" ∨ 200 < spec.name.length then
      (s, .error (.validation "name must be between 1 and 200 characters"))
    else if !supportedEngine spec.engine then
      (s, .error (.validation ("unsupported engine: '" ++ spec.engine ++ "'")))
    else
      match out.testConnection spec.params with
      | .error message =>
        s.recordThen (connectionFailed actor project.organization spec.name message requestId)
          (.error (.validation message))
      | .ok () =>
        let c := newConnection out s actor project spec
        if !s.insertable c then (s, .error .databaseError)
        else
          let s := { s with connectedDatabases := s.connectedDatabases ++ [c]
                            nextUuid := s.nextUuid + 1 }
          s.recordThen (connectionCreated actor project.organization c requestId) (.ok ())

/-- The row after a connection test. -/
def ConnectedDatabase.tested (c : ConnectedDatabase) (now : Nat) (outcome : Except String Unit) :
    ConnectedDatabase :=
  match outcome with
  | .error message =>
    { c with status := .unreachable, lastTestError := message, lastTestedAt := some now }
  | .ok () => { c with status := .connected, lastTestError := "", lastTestedAt := some now }

/-- `connected_database.save(update_fields=...)`. -/
def Site.saveConnection (s : Site) (c : ConnectedDatabase) : Site :=
  { s with connectedDatabases := s.connectedDatabases.map fun x => if x.id = c.id then c else x }

/-- The event recorded once a test's outcome is saved. -/
def connectionTested (actor organization : Uuid) (c : ConnectedDatabase) (requestId : String) :
    AuditEvent :=
  { actor := some actor, organization := some organization, action := "connection.test",
    resourceType := "connected_database", resourceId := some c.id, requestId := requestId,
    context := [("status", .str c.status.value)] }

/-- `test_connected_database`. -/
def testConnectedDatabase (out : Connector) (s : Site) (actor organization : Uuid)
    (c : ConnectedDatabase) (requestId : String) : Site × Except ConnectionError Unit :=
  match requireConnection s actor organization "connection.test" (some c.id) requestId with
  | (s, .error e) => (s, .error e)
  | (s, .ok ()) =>
    if !supportedEngine c.engine then
      (s, .error (.validation ("unsupported engine: '" ++ c.engine ++ "'")))
    else
      match out.decryptCredential c.encryptedPassword with
      | none => (s, .error .credentialDecryption)
      | some password =>
        let c := c.tested s.now (out.testConnection (c.params password))
        if !varcharFits 500 c.lastTestError then (s, .error .databaseError)
        else
          let s := s.saveConnection c
          s.recordThen (connectionTested actor organization c requestId) (.ok ())

/-- The event recorded once the row is gone. -/
def connectionDeleted (actor organization : Uuid) (c : ConnectedDatabase) (requestId : String) :
    AuditEvent :=
  { actor := some actor, organization := some organization, action := "connection.delete",
    resourceType := "connected_database", resourceId := some c.id, requestId := requestId }

/-- `delete_connected_database`. -/
def deleteConnectedDatabase (s : Site) (actor organization : Uuid) (c : ConnectedDatabase)
    (requestId : String) : Site × Except ConnectionError Unit :=
  match requireConnection s actor organization "connection.delete" (some c.id) requestId with
  | (s, .error e) => (s, .error e)
  | (s, .ok ()) =>
    let s := { s with connectedDatabases := s.connectedDatabases.filter fun x => x.id != c.id }
    s.recordThen (connectionDeleted actor organization c requestId) (.ok ())

end Databases
