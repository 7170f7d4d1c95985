import IntraCloud.System.Auditing
import IntraCloud.Transition.Runs

/-!
# Reading connected databases

The rest of `databases/connections.py` and the connector of `databases/connectors.py`: the schema and the rows of an
externally hosted database. Whatever is dialled is dialled by `_connect`, and its parameters are listed here, request by
request.
-/

namespace Databases

open Audit Permissions Sharing

/-- A row of the query of `introspect_schema`. -/
structure InformationRow where
  tableName : String
  columnName : String
  dataType : String
  isNullable : String
  deriving DecidableEq, Repr

/-- `ColumnInfo`. -/
structure ColumnInfo where
  name : String
  dataType : String
  isNullable : Bool
  deriving DecidableEq, Repr

/-- `TableInfo`. -/
structure TableInfo where
  name : String
  columns : List ColumnInfo
  deriving DecidableEq, Repr

/-- What an external database answers; nothing where a query raises `psycopg.Error`. -/
structure ExternalDatabase (ρ : Type) where
  selectOne : Option Unit
  informationRows : Option (List InformationRow)
  count : String → Option Nat
  rows : String → (limit offset : Nat) → Option (List ρ)

/-- `_connect`, with the message of its `ConnectionFailed`. -/
abbrev Reach (ρ : Type) := ConnectionParams → Except String (ExternalDatabase ρ)

/-- The two functions of `databases/crypto.py`. -/
structure Credentials where
  encryptCredential : String → String
  decryptCredential : String → Option String

variable {ρ : Type}

/-! ## The connector -/

/-- `test_connection`. -/
def testConnection (reach : Reach ρ) (params : ConnectionParams) : Except String Unit :=
  match reach params with
  | .error message => .error message
  | .ok external =>
    match external.selectOne with
    | none => .error "could not connect to the external database"
    | some () => .ok ()

/-- `tables.setdefault(table_name, []).append(…)`. -/
def addColumnInfo (tables : List TableInfo) (row : InformationRow) : List TableInfo :=
  let column : ColumnInfo := ⟨row.columnName, row.dataType, row.isNullable == "YES"⟩
  if tables.any fun t => t.name == row.tableName then
    tables.map fun t => if t.name = row.tableName then { t with columns := t.columns ++ [column] } else t
  else tables ++ [⟨row.tableName, [column]⟩]

/-- `introspect_schema`. -/
def introspectSchema (reach : Reach ρ) (params : ConnectionParams) : Except String (List TableInfo) :=
  match reach params with
  | .error message => .error message
  | .ok external =>
    match external.informationRows with
    | none => .error "could not read schema from the external database"
    | some rows => .ok (rows.foldl addColumnInfo [])

/-- `MAX_LIMIT` of `databases/connectors.py`. -/
def Connectors.MAX_LIMIT : Nat := 500

/-- What `list_rows` returns. -/
structure ExternalRows (ρ : Type) where
  count : Nat
  limit : Nat
  offset : Nat
  results : List ρ

/-- `list_rows` of the connector. -/
def listExternalRows (reach : Reach ρ) (params : ConnectionParams) (tableName : String) (limit offset : Int) :
    Except String (ExternalRows ρ) :=
  let limit := (max 1 (min limit Connectors.MAX_LIMIT)).toNat
  let offset := (max 0 offset).toNat
  match reach params with
  | .error message => .error message
  | .ok external =>
    match external.count tableName with
    | none => .error "could not read rows from the external database"
    | some count =>
      match external.rows tableName limit offset with
      | none => .error "could not read rows from the external database"
      | some results => .ok ⟨count, limit, offset, results⟩

/-- The connector as the other calls see it. -/
def connectorOf (reach : Reach ρ) (credentials : Credentials) : Connector :=
  ⟨testConnection reach, credentials.encryptCredential, credentials.decryptCredential⟩

/-! ## The calls -/

/-- What reading a connected database raises. -/
inductive BrowseError where
  | connection (e : ConnectionError)
  /-- `ConnectionFailed`. -/
  | connectionFailed (message : String)
  deriving DecidableEq, Repr

/-- `_require` of `database.read`, which a grant on the connected database gives, too. -/
def requireRead (s : Site) (actor organization : Uuid) (action : String) (resourceId : Uuid) (requestId : String) :
    Site × Except ConnectionError Unit :=
  if hasPermission s.tables s.now actor "database.read" organization
      (some (RESOURCE_TYPE_CONNECTED_DATABASE, resourceId)) then (s, .ok ())
  else
    s.recordThen (connectionDenied actor organization action (some resourceId) requestId)
      (.error (.permissionDenied "database.read required"))

/-- What the two calls begin with: the parameters, with the stored password. -/
def readParams (credentials : Credentials) (s : Site) (actor organization : Uuid) (c : ConnectedDatabase)
    (action requestId : String) : Site × Except BrowseError ConnectionParams :=
  match requireRead s actor organization action c.id requestId with
  | (s, .error e) => (s, .error (.connection e))
  | (s, .ok ()) =>
    if !supportedEngine c.engine then
      (s, .error (.connection (.validation ("unsupported engine: '" ++ c.engine ++ "'"))))
    else
      match credentials.decryptCredential c.encryptedPassword with
      | none => (s, .error (.connection .credentialDecryption))
      | some password => (s, .ok (c.params password))

/-- `get_connected_database_schema`. -/
def getConnectedDatabaseSchema (reach : Reach ρ) (credentials : Credentials) (s : Site) (actor organization : Uuid)
    (c : ConnectedDatabase) (requestId : String) : Site × Except BrowseError (List TableInfo) :=
  match readParams credentials s actor organization c "connection.schema.read" requestId with
  | (s, .error e) => (s, .error e)
  | (s, .ok params) =>
    match introspectSchema reach params with
    | .error message => (s, .error (.connectionFailed message))
    | .ok tables => (s, .ok tables)

/-- `list_connected_database_rows`. -/
def listConnectedDatabaseRows (reach : Reach ρ) (credentials : Credentials) (s : Site) (actor organization : Uuid)
    (c : ConnectedDatabase) (tableName : String) (limit offset : Int) (requestId : String) :
    Site × Except BrowseError (ExternalRows ρ) :=
  match readParams credentials s actor organization c "connection.rows.read" requestId with
  | (s, .error e) => (s, .error e)
  | (s, .ok params) =>
    match introspectSchema reach params with
    | .error message => (s, .error (.connectionFailed message))
    | .ok tables =>
      if tables.any fun t => t.name == tableName then
        match listExternalRows reach params tableName limit offset with
        | .error message => (s, .error (.connectionFailed message))
        | .ok rows => (s, .ok rows)
      else (s, .error (.connection (.validation ("unknown table: " ++ tableName))))

end Databases

namespace System

open Databases Organizations Permissions Sharing

variable {ρ : Type}

/-! ## Events -/

/-- The two reading requests. -/
inductive Browse where
  | schema (id : Uuid)
  | rows (id : Uuid) (tableName : String) (limit offset : Int)
  deriving DecidableEq, Repr

def Browse.id : Browse → Uuid
  | .schema id | .rows id .. => id

/-- What a reading request answers. -/
inductive BrowseResponse (ρ : Type) where
  | notFound
  | schema (result : Except BrowseError (List TableInfo))
  | rows (result : Except BrowseError (ExternalRows ρ))

/-- The views of the schema and of the rows. -/
def serveBrowse (reach : Reach ρ) (credentials : Credentials) (p : Platform) (actor : Uuid) (requestId : String)
    (b : Browse) : Platform × BrowseResponse ρ :=
  match getMemberConnectedDatabase p.toSite actor b.id with
  | none => (p, .notFound)
  | some (c, organization) =>
    match b with
    | .schema _ =>
      let (toSite, result) := getConnectedDatabaseSchema reach credentials p.toSite actor organization c requestId
      ({ p with toSite }, .schema result)
    | .rows _ tableName limit offset =>
      let (toSite, result) :=
        listConnectedDatabaseRows reach credentials p.toSite actor organization c tableName limit offset requestId
      ({ p with toSite }, .rows result)

/-- What happens to the platform, with the reading requests. -/
inductive Occurrence where
  | act (a : Action)
  | browse (actor : Uuid) (incoming : Option String) (generated : Nat) (b : Browse)

/-- An occurrence in the world as it is then. -/
structure Moment (ρ : Type) where
  reach : Reach ρ
  externalSharing : Bool
  occurrence : Occurrence

/-- What is answered; a change from elsewhere is answered by nothing. -/
inductive Answer (ρ : Type) where
  | none
  | response (r : Response)
  | browse (r : BrowseResponse ρ)

def Moment.deployment (m : Moment ρ) (credentials : Credentials) : Deployment :=
  ⟨connectorOf m.reach credentials, m.externalSharing⟩

/-- The platform after the moment, and the answer. -/
def Moment.serve (credentials : Credentials) (p : Platform) (m : Moment ρ) : Platform × Answer ρ :=
  match m.occurrence with
  | .act (.request actor incoming generated req) =>
    let (p, r) := System.serve (m.deployment credentials) p actor (requestId incoming generated) req
    (p, .response r)
  | .act a => (step (m.deployment credentials) p a, .none)
  | .browse actor incoming generated b =>
    let (p, r) := serveBrowse m.reach credentials p actor (requestId incoming generated) b
    (p, .browse r)

def momentStep (credentials : Credentials) (p : Platform) (m : Moment ρ) : Platform := (m.serve credentials p).1

/-! ## What is dialled -/

/-- The stored parameters, where the password can be decrypted. -/
def storedParams (credentials : Credentials) (c : ConnectedDatabase) : List ConnectionParams :=
  if supportedEngine c.engine then (credentials.decryptCredential c.encryptedPassword).toList.map c.params else []

/-- The parameters that a request of the platform has `_connect` dial. -/
def Request.dials (credentials : Credentials) (p : Platform) (actor : Uuid) : Request → List ConnectionParams
  | .createConnection projectId spec =>
    match getMemberProject p.toState actor projectId with
    | none => []
    | some project =>
      if hasPermission p.tables p.now actor "connection.manage" project.organization none &&
          !(spec.name == "" || decide (200 < spec.name.length)) && supportedEngine spec.engine then [spec.params]
      else []
  | .testConnection id =>
    match getMemberConnectedDatabase p.toSite actor id with
    | none => []
    | some (c, organization) =>
      if hasPermission p.tables p.now actor "connection.manage" organization none then storedParams credentials c
      else []
  | _ => []

/-- The parameters that a reading request has it dial. -/
def Browse.dials (credentials : Credentials) (p : Platform) (actor : Uuid) (b : Browse) : List ConnectionParams :=
  match getMemberConnectedDatabase p.toSite actor b.id with
  | none => []
  | some (c, organization) =>
    if hasPermission p.tables p.now actor "database.read" organization
        (some (RESOURCE_TYPE_CONNECTED_DATABASE, c.id)) then storedParams credentials c
    else []

def Occurrence.dials (credentials : Credentials) (p : Platform) : Occurrence → List ConnectionParams
  | .act (.request actor _ _ req) => req.dials credentials p actor
  | .act _ => []
  | .browse actor _ _ b => b.dials credentials p actor

/-! ## Who submitted them -/

/-- In some moment of the run a member who then managed the connections of the organization submitted these parameters
for a new connected database of it. -/
def Submitted (credentials : Credentials) (p : Platform) (ms : List (Moment ρ)) (params : ConnectionParams) : Prop :=
  ∃ before m after actor incoming generated projectId spec project,
    ms = before ++ m :: after ∧
      m.occurrence = .act (.request actor incoming generated (.createConnection projectId spec)) ∧
      spec.params = params ∧
      getMemberProject (Transition.run (momentStep credentials) p before).toState actor projectId = some project ∧
      hasPermission (Transition.run (momentStep credentials) p before).tables
        (Transition.run (momentStep credentials) p before).now actor "connection.manage" project.organization none =
          true

/-- They were dialled with success before they were saved. -/
def Tested (ms : List (Moment ρ)) (params : ConnectionParams) : Prop :=
  ∃ m ∈ ms, testConnection m.reach params = .ok ()

/-- What a row of the connected databases holds. -/
structure Saved (credentials : Credentials) (p : Platform) (ms : List (Moment ρ)) (c : ConnectedDatabase)
    (params : ConnectionParams) : Prop where
  submitted : Submitted credentials p ms params
  tested : Tested ms params
  password : credentials.decryptCredential c.encryptedPassword = some params.password
  fields : c.params params.password = params
  status : c.status = .connected ∧ c.lastTestError = "" ∨
    c.status = .unreachable ∧ ∃ m ∈ ms, testConnection m.reach params = .error c.lastTestError

end System
