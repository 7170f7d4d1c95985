import IntraCloud.Databases.Connections
import IntraCloud.Python.Uuid
import IntraCloud.Sharing.Services

/-!
# The mutating endpoints

The requests to the databases, connections and sharing endpoints that change something, on one control
plane, with the request id the middleware gives them. Rows of tenant tables are not part of the state:
of a request that writes them only its authorization is modelled.
-/

namespace System

open Audit Databases Organizations Permissions Sharing

/-- A row of `Organization`. -/
structure Organization where
  id : Uuid
  externalSharingEnabled : Bool
  deriving DecidableEq, Repr

/-- The control plane and the tenant schema. -/
structure Platform extends Site where
  organizations : List Organization
  users : List Uuid
  teams : List Team
  /-- Rows of `Bucket`, with their organization. -/
  buckets : List (Uuid × Uuid)
  shareGrants : List ShareGrant
  deriving DecidableEq, Repr

/-- The resources that can be shared. -/
def Platform.resources (p : Platform) : List Resource :=
  (p.buckets.map fun (id, organization) => ⟨RESOURCE_TYPE_BUCKET, id, organization⟩) ++
    (p.catalog.databases.filterMap fun d => (p.databaseOrganization d).map fun organization =>
      ⟨RESOURCE_TYPE_TENANT_DATABASE, d.id, organization⟩) ++
    p.connectedDatabases.filterMap fun c => (p.connectionOrganization c).map fun organization =>
      ⟨RESOURCE_TYPE_CONNECTED_DATABASE, c.id, organization⟩

/-- What `sharing/services.py` sees of it. -/
def Platform.sharing (p : Platform) : Sharing.State :=
  { now := p.now, users := p.users, teams := p.teams, memberships := p.memberships,
    resources := p.resources, tables := p.tables, shareGrants := p.shareGrants,
    nextUuid := p.nextUuid }

/-- What `sharing/services.py` leaves of it. -/
def Platform.withSharing (p : Platform) (s : Sharing.State) : Platform :=
  { p with tables := s.tables, shareGrants := s.shareGrants, nextUuid := s.nextUuid }

/-- `RequestIDMiddleware`: the `X-Request-ID` header, or a fresh id where it is absent or empty. -/
def requestId (incoming : Option String) (generated : Nat) : String :=
  match incoming with
  | none => String.ofList (Python.uuidText generated)
  | some header => if header = "" then String.ofList (Python.uuidText generated) else header

/-- The deployment: what lies outside, and `FEATURE_EXTERNAL_SHARING_ENABLED`. -/
structure Deployment where
  connector : Connector
  externalSharing : Bool

/-- The requests. Rows are inserted, updated and deleted under one permission check. -/
inductive Request where
  | schema (r : SchemaRequest)
  | createConnection (projectId : Uuid) (spec : ConnectionSpec)
  | testConnection (id : Uuid)
  | deleteConnection (id : Uuid)
  | createShare (r : ShareRequest)
  | revokeShare (shareId : Uuid)
  | setExternalSharing (organization : Uuid) (enabled : Bool)
  | writeRow (tableId : Uuid)
  deriving DecidableEq, Repr

/-- What a request ends in. -/
inductive Response where
  | ok
  | badRequest (detail : String)
  | forbidden
  | notFound
  | serverError
  deriving DecidableEq, Repr

/-- The responses of `databases/views.py`. -/
def schemaResponse : Except SchemaError Unit → Response
  | .ok () => .ok
  | .error (.permissionDenied _) => .forbidden
  | .error (.validation message) => .badRequest message
  | .error (.badRequest detail) => .badRequest detail
  | .error .notFound => .notFound
  | .error .databaseError => .serverError

/-- The responses of its connection views. -/
def connectionResponse : Except ConnectionError Unit → Response
  | .ok () => .ok
  | .error (.permissionDenied _) => .forbidden
  | .error (.validation message) => .badRequest message
  | .error .notFound => .notFound
  | .error .credentialDecryption | .error .databaseError => .serverError

/-- The responses of `sharing/views.py`. -/
def sharingResponse {α : Type} : Except SharingError α → Response
  | .ok _ => .ok
  | .error (.permissionDenied _) => .forbidden
  | .error (.validation message) => .badRequest message
  | .error .notFound => .notFound
  | .error .databaseError => .serverError

/-- `set_external_sharing_enabled`. -/
def setExternalSharingEnabled (feature : Bool) (p : Platform) (actor organization : Uuid)
    (enabled : Bool) (requestId : String) : Platform × Except SharingError Unit :=
  match requirePermission p.sharing actor "sharing.manage" organization "sharing.external.toggle"
      none requestId with
  | (s, .error e) => (p.withSharing s, .error e)
  | (s, .ok ()) =>
    let p := p.withSharing s
    if enabled && !feature then
      (p, .error (.validation ("external sharing is disabled for this deployment " ++
        "(FEATURE_EXTERNAL_SHARING_ENABLED is off) and cannot be enabled per-organization")))
    else
      let p := { p with organizations := p.organizations.map fun o =>
                          if o.id = organization then { o with externalSharingEnabled := enabled }
                          else o }
      match p.sharing.record
          { actor := some actor, organization := some organization,
            action := if enabled then "sharing.external.enable" else "sharing.external.disable",
            resourceType := "organization", resourceId := some organization,
            requestId := requestId } with
      | none => (p, .error .databaseError)
      | some s => (p.withSharing s, .ok ())

/-- One request under its request id. -/
def serve (out : Deployment) (p : Platform) (actor : Uuid) (requestId : String) :
    Request → Platform × Response
  | .schema r =>
    let (toState, result) := handle p.toState none actor requestId r
    ({ p with toState }, schemaResponse result)
  | .createConnection projectId spec =>
    match getMemberProject p.toState actor projectId with
    | none => (p, .notFound)
    | some project =>
      let (toSite, result) :=
        createConnectedDatabase out.connector p.toSite actor project spec requestId
      ({ p with toSite }, connectionResponse result)
  | .testConnection id =>
    match getMemberConnectedDatabase p.toSite actor id with
    | none => (p, .notFound)
    | some (c, organization) =>
      let (toSite, result) :=
        testConnectedDatabase out.connector p.toSite actor organization c requestId
      ({ p with toSite }, connectionResponse result)
  | .deleteConnection id =>
    match getMemberConnectedDatabase p.toSite actor id with
    | none => (p, .notFound)
    | some (c, organization) =>
      let (toSite, result) := deleteConnectedDatabase p.toSite actor organization c requestId
      ({ p with toSite }, connectionResponse result)
  | .createShare r =>
    let (s, result) := postShareGrant p.sharing { r with actor, requestId }
    (p.withSharing s, sharingResponse result)
  | .revokeShare shareId =>
    let (s, result) := deleteShareGrant p.sharing actor shareId requestId
    (p.withSharing s, sharingResponse result)
  | .setExternalSharing organization enabled =>
    if !isMember p.memberships actor organization then (p, .notFound)
    else
      let (p, result) :=
        setExternalSharingEnabled out.externalSharing p actor organization enabled requestId
      (p, sharingResponse result)
  | .writeRow tableId =>
    match getMemberTable p.toState actor tableId with
    | none => (p, .notFound)
    | some (t, organization) =>
      if hasPermission p.tables p.now actor "database.write" organization
          (some (RESOURCE_TYPE_TENANT_DATABASE, t.tenantDatabase)) then (p, .ok)
      else (p, .forbidden)

end System
