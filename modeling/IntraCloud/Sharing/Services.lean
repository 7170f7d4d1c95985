import IntraCloud.Organizations.Members
import IntraCloud.Permissions.Services

/-!
# Internal sharing

`sharing/services.py`: a `ShareGrant` records that one resource is shared with a user, a team or a
whole organization at a level; creating it fans out into one `ResourceGrant` per (target user,
permission code of the level), and revoking it deletes the rows of the principal's current members.
The state is the part of the control-plane database these calls read and write, and the clock.
-/

namespace Sharing

open Audit Organizations Permissions

/-- `ShareGrant.Level`. -/
inductive Level where
  | read
  | write
  | admin
  deriving DecidableEq, Repr

/-- The stored value of a level. -/
def Level.value : Level → String
  | .read => "read"
  | .write => "write"
  | .admin => "admin"

/-- `ShareGrant.PrincipalType`. -/
inductive PrincipalType where
  | user
  | team
  | organization
  deriving DecidableEq, Repr

/-- The stored value of a principal type. -/
def PrincipalType.value : PrincipalType → String
  | .user => "user"
  | .team => "team"
  | .organization => "organization"

/-- `storage.views.RESOURCE_TYPE_BUCKET`. -/
def RESOURCE_TYPE_BUCKET : String := "storage.bucket"

/-- `databases.views.RESOURCE_TYPE_TENANT_DATABASE`. -/
def RESOURCE_TYPE_TENANT_DATABASE : String := "databases.tenant_database"

/-- `databases.connections.RESOURCE_TYPE_CONNECTED_DATABASE`. -/
def RESOURCE_TYPE_CONNECTED_DATABASE : String := "databases.connected_database"

/-- `LEVEL_PERMISSIONS[resource_type]`, or `none` for a resource type that has no entry. -/
def levelPermissions (resourceType : String) : Option (List (Level × List String)) :=
  if resourceType = RESOURCE_TYPE_BUCKET then
    some [(.read, ["storage.read"]),
      (.write, ["storage.read", "storage.write"]),
      (.admin, ["storage.read", "storage.write", "storage.delete", "storage.share",
        "storage.manage"])]
  else if resourceType = RESOURCE_TYPE_TENANT_DATABASE then
    some [(.read, ["database.read"]),
      (.write, ["database.read", "database.write"]),
      (.admin, ["database.read", "database.write", "dataset.export"])]
  else if resourceType = RESOURCE_TYPE_CONNECTED_DATABASE then
    some [(.read, ["database.read"])]
  else none

/-- `LEVEL_PERMISSIONS[resource_type][level]`, empty where there is no such entry. -/
def levelCodes (resourceType : String) (level : Level) : List String :=
  ((levelPermissions resourceType).bind (List.lookup level)).getD []

/-- A row of `ShareGrant`. -/
structure ShareGrant where
  id : Uuid
  organization : Uuid
  resourceType : String
  resourceId : Uuid
  principalType : PrincipalType
  user : Option Uuid
  team : Option Uuid
  level : Level
  expiresAt : Option Nat
  revokedAt : Option Nat
  createdBy : Uuid
  /-- Not a column: the users the share was given to and whose membership has covered them ever
  since. It is what the completeness of sharing is stated about. -/
  covered : List Uuid
  deriving DecidableEq, Repr

/-- A row of `Bucket`, `TenantDatabase` or `ConnectedDatabase`, under its resource type. -/
structure Resource where
  resourceType : String
  id : Uuid
  organization : Uuid
  deriving DecidableEq, Repr

/-- The control-plane rows, the next fresh key and the clock. -/
structure State where
  now : Nat
  users : List Uuid
  teams : List Team
  memberships : List Membership
  resources : List Resource
  tables : Tables
  shareGrants : List ShareGrant
  nextUuid : Uuid
  deriving DecidableEq, Repr

/-- The exceptions of the two calls. -/
inductive SharingError where
  /-- `SharingPermissionDenied`. -/
  | permissionDenied (message : String)
  /-- `SharingValidationError`. -/
  | validation (message : String)
  /-- `Http404` of a lookup. -/
  | notFound
  /-- A database error that nothing maps to a response. -/
  | databaseError
  deriving DecidableEq, Repr

/-- The log after an `audit.record`, as the state it leaves. -/
def State.record (s : State) (e : AuditEvent) : Option State :=
  (Audit.record s.tables.audit e).map fun audit => { s with tables := { s.tables with audit } }

/-- `_require`: a denial is recorded before it is raised. -/
def requirePermission (s : State) (actor : Uuid) (code : String) (organization : Uuid)
    (action : String) (resourceId : Option Uuid) (requestId : String) :
    State × Except SharingError Unit :=
  if hasPermission s.tables s.now actor code organization none then (s, .ok ())
  else
    match s.record
        { actor := some actor, organization := some organization, action := action,
          resourceType := "share_grant", resourceId := resourceId, requestId := requestId,
          result := .denied } with
    | none => (s, .error .databaseError)
    | some s => (s, .error (.permissionDenied (code ++ " required")))

/-- `_principal_user_ids`. -/
def principalUserIds (memberships : List Membership) (principalType : PrincipalType)
    (user team : Option Uuid) (organization : Uuid) : List Uuid :=
  match principalType with
  | .user => user.toList
  | .team =>
    (memberships.filter fun m => m.team == team && team.isSome && m.status == .active).map (·.user)
  | .organization =>
    (memberships.filter fun m =>
      m.organization == organization && m.status == .active).map (·.user)

/-- `_principal_user_ids` of a share's own principal. -/
def ShareGrant.userIds (share : ShareGrant) (memberships : List Membership) : List Uuid :=
  principalUserIds memberships share.principalType share.user share.team share.organization

/-- The arguments of `create_share_grant`. -/
structure ShareRequest where
  actor : Uuid
  organization : Uuid
  resourceType : String
  resourceId : Uuid
  principalType : PrincipalType
  level : Level
  user : Option Uuid
  team : Option Uuid
  expiresAt : Option Nat
  requestId : String
  deriving DecidableEq, Repr

/-- The checks of `create_share_grant` after `_require`, and the permission codes of the level. -/
def validateShare (s : State) (r : ShareRequest) : Except SharingError (List String) :=
  match levelPermissions r.resourceType with
  | none => .error (.validation s!"unsupported resource_type: '{r.resourceType}'")
  | some levels =>
    match levels.lookup r.level with
    | none =>
      .error (.validation
        s!"level '{r.level.value}' is not supported for '{r.resourceType}'")
    | some codes =>
      if !s.resources.any (fun x => x.resourceType == r.resourceType && x.id == r.resourceId &&
          x.organization == r.organization) then
        .error (.validation "resource not found in this organization")
      else
        match r.principalType with
        | .user =>
          match r.user with
          | none => .error (.validation "user is required for a user-level share")
          | some user =>
            if !isMember s.memberships user r.organization then
              .error (.validation "user is not an active member of this organization")
            else .ok codes
        | .team =>
          if !s.teams.any (fun t => some t.id == r.team && t.organization == r.organization) then
            .error (.validation "team must belong to this organization")
          else .ok codes
        | .organization => .ok codes

/-- `User.objects.filter(id__in=_principal_user_ids(...))`. -/
def targetUsers (s : State) (r : ShareRequest) : List Uuid :=
  s.users.filter fun u =>
    (principalUserIds s.memberships r.principalType r.user r.team r.organization).contains u

/-- The grant the share's fan-out creates for one user and one code. -/
def ShareRequest.grant (r : ShareRequest) (shareId : Uuid) (code : String) (user : Uuid) :
    ResourceGrant :=
  { user := user, permission := code, organization := r.organization,
    resourceType := r.resourceType, resourceId := r.resourceId, grantedBy := some r.actor,
    expiresAt := r.expiresAt, origin := .share shareId }

/-- The grants of the nested loops of `create_share_grant`, in their order. -/
def ShareRequest.fanOut (r : ShareRequest) (shareId : Uuid) (codes : List String)
    (targets : List Uuid) : List ResourceGrant :=
  codes.flatMap fun code => targets.map fun user => r.grant shareId code user

/-- The nested loops of `create_share_grant`: an `IntegrityError` rolls its savepoint back and is
passed over, any other failure ends the whole transaction. -/
def grantAll (t : Tables) : List ResourceGrant → Except SharingError Tables
  | [] => .ok t
  | g :: gs =>
    match grantResourcePermission t g with
    | .ok t => grantAll t gs
    | .error .integrityError => grantAll t gs
    | .error .unknownPermission => .error (.validation s!"Unknown permission: '{g.permission}'")
    | .error .dataError => .error .databaseError

/-- The row `create_share_grant` inserts. -/
def ShareRequest.shareGrant (r : ShareRequest) (id : Uuid) (covered : List Uuid) : ShareGrant :=
  { id := id, organization := r.organization, resourceType := r.resourceType,
    resourceId := r.resourceId, principalType := r.principalType, user := r.user, team := r.team,
    level := r.level, expiresAt := r.expiresAt, revokedAt := none, createdBy := r.actor,
    covered := covered }

/-- The state the transaction of `create_share_grant` commits. -/
def State.withShare (s : State) (share : ShareGrant) (tables : Tables) : State :=
  { s with tables, shareGrants := s.shareGrants ++ [share], nextUuid := s.nextUuid + 1 }

/-- `create_share_grant`: check, then in one transaction insert the share and fan it out, then
record. The record comes after the commit: where it fails, the share stays. -/
def createShareGrant (s : State) (r : ShareRequest) : State × Except SharingError ShareGrant :=
  match requirePermission s r.actor "sharing.manage" r.organization "sharing.create"
      (some r.resourceId) r.requestId with
  | (s, .error e) => (s, .error e)
  | (s, .ok ()) =>
    match validateShare s r with
    | .error e => (s, .error e)
    | .ok codes =>
      let share := r.shareGrant s.nextUuid (targetUsers s r)
      match grantAll s.tables (r.fanOut share.id codes (targetUsers s r)) with
      | .error e => (s, .error e)
      | .ok tables =>
        let s := s.withShare share tables
        match s.record
            { actor := some r.actor, organization := some r.organization,
              action := "sharing.create", resourceType := "share_grant", resourceId := some share.id,
              requestId := r.requestId,
              context := [("resource_type", .str r.resourceType),
                ("resource_id", .uuid r.resourceId),
                ("principal_type", .str r.principalType.value), ("level", .str r.level.value)] } with
        | none => (s, .error .databaseError)
        | some s => (s, .ok share)

/-- The rows `revoke_share_grant` deletes: those of the principal's current members, for the codes
of the share's level, on the share's resource. -/
def ShareGrant.deletes (share : ShareGrant) (memberships : List Membership) (g : ResourceGrant) :
    Bool :=
  (share.userIds memberships).contains g.user &&
    (levelCodes share.resourceType share.level).contains g.permission &&
    g.organization == share.organization && g.resourceType == share.resourceType &&
    g.resourceId == share.resourceId

/-- The state after the two writes of `revoke_share_grant`. -/
def State.withoutShare (s : State) (share : ShareGrant) : State :=
  { s with
    tables := { s.tables with
      resourceGrants := s.tables.resourceGrants.filter fun g => !share.deletes s.memberships g }
    shareGrants := s.shareGrants.map fun sh =>
      if sh.id = share.id then { sh with revokedAt := some s.now } else sh }

/-- `revoke_share_grant`: delete the rows, set `revoked_at`, record. -/
def revokeShareGrant (s : State) (actor : Uuid) (share : ShareGrant) (requestId : String) :
    State × Except SharingError Unit :=
  match requirePermission s actor "sharing.manage" share.organization "sharing.revoke"
      (some share.resourceId) requestId with
  | (s, .error e) => (s, .error e)
  | (s, .ok ()) =>
    let s := s.withoutShare share
    match s.record
        { actor := some actor, organization := some share.organization,
          action := "sharing.revoke", resourceType := "share_grant", resourceId := some share.id,
          requestId := requestId } with
    | none => (s, .error .databaseError)
    | some s => (s, .ok ())

/-- `get_member_team`, and the view's check that the team is of this organization. -/
def State.memberTeam (s : State) (user team organization : Uuid) : Bool :=
  s.teams.any fun t =>
    t.id == team && t.organization == organization && isMember s.memberships user organization

/-- `ShareGrantListCreateView.post`: resolve the organization, the user and the team, then create. -/
def postShareGrant (s : State) (r : ShareRequest) : State × Except SharingError ShareGrant :=
  if !isMember s.memberships r.actor r.organization then (s, .error .notFound)
  else if r.user.any (fun u => !s.users.contains u) then (s, .error .notFound)
  else if r.team.any (fun t => !s.memberTeam r.actor t r.organization) then (s, .error .notFound)
  else createShareGrant s r

/-- `get_member_share`. -/
def getMemberShare (s : State) (user shareId : Uuid) : Option ShareGrant :=
  s.shareGrants.find? fun sh => sh.id == shareId && isMember s.memberships user sh.organization

/-- `ShareGrantDetailView.delete`. -/
def deleteShareGrant (s : State) (actor shareId : Uuid) (requestId : String) :
    State × Except SharingError Unit :=
  match getMemberShare s actor shareId with
  | none => (s, .error .notFound)
  | some share => revokeShareGrant s actor share requestId

/-- What can happen to the state: the two requests, grants made or removed directly, the clock,
and changes of membership. -/
inductive Action where
  | create (r : ShareRequest)
  | revoke (actor shareId : Uuid) (requestId : String)
  | grantDirectly (g : ResourceGrant)
  | removeDirectly (user : Uuid) (permission resourceType : String) (resourceId : Uuid)
  | advance (seconds : Nat)
  | changeMemberships (memberships : List Membership)
  deriving DecidableEq, Repr

/-- `grant_resource_permission` called by itself. -/
def grantDirectly (s : State) (g : ResourceGrant) : State :=
  match grantResourcePermission s.tables { g with origin := .direct } with
  | .ok tables => { s with tables }
  | .error _ => s

/-- A grant row deleted by hand. -/
def removeDirectly (s : State) (key : Uuid × String × String × Uuid) : State :=
  { s with tables := { s.tables with
      resourceGrants := s.tables.resourceGrants.filter fun g => g.key != key } }

/-- New memberships: a share goes on covering the users it covered and still reaches. -/
def changeMemberships (s : State) (memberships : List Membership) : State :=
  { s with
    memberships
    shareGrants := s.shareGrants.map fun sh =>
      { sh with covered := sh.covered.filter fun u => (sh.userIds memberships).contains u } }

/-- One action. -/
def step (s : State) : Action → State
  | .create r => (postShareGrant s r).1
  | .revoke actor shareId requestId => (deleteShareGrant s actor shareId requestId).1
  | .grantDirectly g => grantDirectly s g
  | .removeDirectly user permission resourceType resourceId =>
    removeDirectly s (user, permission, resourceType, resourceId)
  | .advance seconds => { s with now := s.now + seconds }
  | .changeMemberships memberships => changeMemberships s memberships

end Sharing
