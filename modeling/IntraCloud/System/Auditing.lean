import IntraCloud.Databases.Agreement
import IntraCloud.System.Platform

/-!
# What the audit log owes a request

Which requests are denied, which ones change something, and what the log must hold once they have
finished. The conditions are about the request and the state it meets.
-/

namespace System

open Audit Databases Organizations Permissions Sharing

/-- The control-plane rows and the tenant schema. -/
def Platform.rows (p : Platform) :=
  (p.catalog, p.tenant, p.connectedDatabases, p.organizations, p.shareGrants,
    p.tables.resourceGrants)

/-- The action of a schema request. -/
def schemaAction : SchemaRequest → String
  | .createTenantDatabase .. => "database.create"
  | .createTable .. => "database.table.create"
  | .addColumn .. => "database.column.create"
  | .addForeignKey .. => "database.foreign_key.create"
  | .deleteTable _ => "database.table.delete"
  | .deleteTenantDatabase _ => "database.drop"

/-- The action under which a request that goes through is recorded; row writes have none. -/
def Request.action : Request → Option String
  | .schema r => some (schemaAction r)
  | .createConnection .. => some "connection.create"
  | .testConnection _ => some "connection.test"
  | .deleteConnection _ => some "connection.delete"
  | .createShare _ => some "sharing.create"
  | .revokeShare _ => some "sharing.revoke"
  | .setExternalSharing _ enabled =>
    some (if enabled then "sharing.external.enable" else "sharing.external.disable")
  | .writeRow _ => none

/-- The view finds what the request is about. -/
def Platform.canShare (p : Platform) (actor : Uuid) (r : ShareRequest) : Bool :=
  isMember p.memberships actor r.organization && !r.user.any (fun u => !p.users.contains u) &&
    !r.team.any fun t => !p.sharing.memberTeam actor t r.organization

/-- The request finds what it is about, and its actor lacks the permission for it. -/
def Request.denied (p : Platform) (actor : Uuid) : Request → Bool
  | .schema r =>
    match r.resolve p.toState actor with
    | .error _ => false
    | .ok svc => !hasPermission p.tables p.now actor svc.permission svc.organization none
  | .createConnection projectId _ =>
    (getMemberProject p.toState actor projectId).any fun project =>
      !hasPermission p.tables p.now actor "connection.manage" project.organization none
  | .testConnection id | .deleteConnection id =>
    (getMemberConnectedDatabase p.toSite actor id).any fun (_, organization) =>
      !hasPermission p.tables p.now actor "connection.manage" organization none
  | .createShare r =>
    p.canShare actor r && !hasPermission p.tables p.now actor "sharing.manage" r.organization none
  | .revokeShare shareId =>
    (getMemberShare p.sharing actor shareId).any fun share =>
      !hasPermission p.tables p.now actor "sharing.manage" share.organization none
  | .setExternalSharing organization _ =>
    isMember p.memberships actor organization &&
      !hasPermission p.tables p.now actor "sharing.manage" organization none
  | .writeRow tableId =>
    (getMemberTable p.toState actor tableId).any fun (t, organization) =>
      !hasPermission p.tables p.now actor "database.write" organization
        (some (RESOURCE_TYPE_TENANT_DATABASE, t.tenantDatabase))

/-- The connection test of the row can be made and its outcome saved, and the saved row is another. -/
def Platform.testChanges (out : Deployment) (p : Platform) (c : ConnectedDatabase) : Bool :=
  supportedEngine c.engine &&
    (out.connector.decryptCredential c.encryptedPassword).any fun password =>
      let c' := c.tested p.now (out.connector.testConnection (c.params password))
      varcharFits 500 c'.lastTestError &&
        p.connectedDatabases.any fun x => x.id == c.id && x != c'

/-- The request passes its lookups and all checks, PostgreSQL accepts its writes, and they change a
row or the schema. -/
def Request.changes (out : Deployment) (p : Platform) (actor : Uuid) : Request → Bool
  | .schema r =>
    (r.accepted p.toState actor).any fun plan => (plan.change.write p.catalog).isSome
  | .createConnection projectId spec =>
    (getMemberProject p.toState actor projectId).any fun project =>
      hasPermission p.tables p.now actor "connection.manage" project.organization none &&
        !(decide (spec.name = "") || decide (200 < spec.name.length)) &&
        supportedEngine spec.engine && (out.connector.testConnection spec.params).toBool &&
        p.insertable (newConnection out.connector p.toSite actor project spec)
  | .testConnection id =>
    (getMemberConnectedDatabase p.toSite actor id).any fun (c, organization) =>
      hasPermission p.tables p.now actor "connection.manage" organization none &&
        p.testChanges out c
  | .deleteConnection id =>
    (getMemberConnectedDatabase p.toSite actor id).any fun (_, organization) =>
      hasPermission p.tables p.now actor "connection.manage" organization none
  | .createShare r =>
    let r := { r with actor }
    p.canShare actor r && hasPermission p.tables p.now actor "sharing.manage" r.organization none &&
      (validateShare p.sharing r).toBool &&
      (grantAll p.tables (r.fanOut p.nextUuid (levelCodes r.resourceType r.level)
        (targetUsers p.sharing r))).toBool
  | .revokeShare shareId =>
    (getMemberShare p.sharing actor shareId).any fun share =>
      hasPermission p.tables p.now actor "sharing.manage" share.organization none &&
        (p.shareGrants.any (fun sh => sh.id == share.id && sh.revokedAt != some p.now) ||
          p.tables.resourceGrants.any (share.deletes p.memberships))
  | .setExternalSharing organization enabled =>
    isMember p.memberships actor organization &&
      hasPermission p.tables p.now actor "sharing.manage" organization none &&
      (out.externalSharing || !enabled) &&
      p.organizations.any fun o => o.id == organization && o.externalSharingEnabled != enabled
  | .writeRow _ => false

/-- The events a request adds to the log. -/
def newEvents (out : Deployment) (p : Platform) (actor : Uuid) (requestId : String)
    (req : Request) : List AuditEvent :=
  (serve out p actor requestId req).1.tables.audit.drop p.tables.audit.length

/-- Once the request has finished: where it changed something an event describes it, and where it was
denied there is a denial event. -/
structure Audited (out : Deployment) (p : Platform) (actor : Uuid) (requestId : String)
    (req : Request) : Prop where
  effect : (serve out p actor requestId req).1.rows ≠ p.rows →
    ∃ e ∈ newEvents out p actor requestId req,
      e.actor = some actor ∧ e.requestId = requestId ∧ e.result = .success ∧
        some e.action = req.action
  denial : req.denied p actor = true →
    ∃ e ∈ newEvents out p actor requestId req,
      e.actor = some actor ∧ e.requestId = requestId ∧ e.result = .denied

/-- What happens to the platform: a request, or a change from elsewhere of the rows that decide who may
do what. -/
inductive Action where
  | request (actor : Uuid) (incoming : Option String) (generated : Nat) (req : Request)
  | administer (memberships : List Membership) (projects : List Project) (teams : List Team)
      (users : List Uuid) (organizations : List Organization) (buckets : List (Uuid × Uuid))
      (permissions : List String) (roleAssignments : List RoleAssignment)
  | advance (seconds : Nat)

/-- One action. -/
def step (out : Deployment) (p : Platform) : Action → Platform
  | .request actor incoming generated req =>
    (serve out p actor (requestId incoming generated) req).1
  | .administer memberships projects teams users organizations buckets permissions
      roleAssignments =>
    { p with memberships, projects, teams, users, organizations, buckets,
             tables := { p.tables with permissions, roleAssignments } }
  | .advance seconds => { p with now := p.now + seconds }

end System
