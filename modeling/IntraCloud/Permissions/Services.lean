import IntraCloud.Audit.Record

/-!
# The authorization service

`permissions/services.py`: a user holds a permission in an organization through a role assigned
there or platform-wide, or, on one resource, through a `ResourceGrant` that has not expired.
`grant_resource_permission` is the one place such grants are created.
-/

namespace Permissions

open Audit

/-- A role, as far as checks read it: the codes it bundles. -/
structure Role where
  slug : String
  permissions : List String
  deriving DecidableEq, Repr

/-- A row of `RoleAssignment`; no organization means platform-wide. -/
structure RoleAssignment where
  user : Uuid
  role : Role
  organization : Option Uuid
  deriving DecidableEq, Repr

/-- Which call created a grant. Not a column of the table: it is what the soundness of sharing
is stated about. -/
inductive Origin where
  | direct
  | share (id : Uuid)
  deriving DecidableEq, Repr

/-- A row of `ResourceGrant`. -/
structure ResourceGrant where
  user : Uuid
  permission : String
  organization : Uuid
  resourceType : String
  resourceId : Uuid
  grantedBy : Option Uuid
  expiresAt : Option Nat
  origin : Origin
  deriving DecidableEq, Repr

/-- The columns of the constraint `unique_resource_grant`. -/
def ResourceGrant.key (g : ResourceGrant) : Uuid × String × String × Uuid :=
  (g.user, g.permission, g.resourceType, g.resourceId)

/-- The tables `has_permission` and `grant_resource_permission` read and write. -/
structure Tables where
  permissions : List String
  roleAssignments : List RoleAssignment
  resourceGrants : List ResourceGrant
  audit : List AuditEvent
  deriving DecidableEq, Repr

/-- `has_role_permission` of an authenticated user. -/
def hasRolePermission (t : Tables) (user : Uuid) (code : String) (organization : Uuid) : Bool :=
  t.roleAssignments.any fun a =>
    (a.organization == some organization || a.organization == none) && a.user == user &&
      a.role.permissions.contains code

/-- `Q(expires_at__isnull=True) | Q(expires_at__gt=now)`. -/
def ResourceGrant.unexpired (now : Nat) (g : ResourceGrant) : Bool :=
  match g.expiresAt with
  | none => true
  | some e => now < e

/-- `has_resource_permission` of an authenticated user. -/
def hasResourcePermission (t : Tables) (now : Nat) (user : Uuid) (code : String)
    (organization : Uuid) (resourceType : String) (resourceId : Uuid) : Bool :=
  t.resourceGrants.any fun g =>
    g.unexpired now && g.user == user && g.organization == organization && g.permission == code &&
      g.resourceType == resourceType && g.resourceId == resourceId

/-- `has_permission`. -/
def hasPermission (t : Tables) (now : Nat) (user : Uuid) (code : String) (organization : Uuid)
    (resource : Option (String × Uuid)) : Bool :=
  hasRolePermission t user code organization ||
    match resource with
    | some (resourceType, resourceId) =>
      hasResourcePermission t now user code organization resourceType resourceId
    | none => false

/-- How `grant_resource_permission` can fail. -/
inductive GrantError where
  /-- `PermissionError_`: no such permission code. -/
  | unknownPermission
  /-- `IntegrityError`: the unique constraint. -/
  | integrityError
  /-- `DataError`: a string too long for its column. -/
  | dataError
  deriving DecidableEq, Repr

/-- `grant_resource_permission`: validate, insert, record. An insert that fails writes nothing. -/
def grantResourcePermission (t : Tables) (g : ResourceGrant) : Except GrantError Tables :=
  if !t.permissions.contains g.permission then .error .unknownPermission
  else if !varcharFits 100 g.resourceType then .error .dataError
  else if t.resourceGrants.any (fun h => h.key == g.key) then .error .integrityError
  else
    match record t.audit
        { actor := g.grantedBy, organization := some g.organization,
          action := "permissions.resource_grant.create", resourceType := g.resourceType,
          resourceId := some g.resourceId,
          context := [("permission", .str g.permission), ("granted_to", .uuid g.user)] } with
    | none => .error .dataError
    | some audit =>
      .ok { t with resourceGrants := t.resourceGrants ++ [g], audit := audit }

/-- A grant that succeeds adds exactly its row, and no row had its key before. -/
theorem grantResourcePermission_ok {t t' : Tables} {g : ResourceGrant}
    (h : grantResourcePermission t g = .ok t') :
    t'.resourceGrants = t.resourceGrants ++ [g] ∧ t'.permissions = t.permissions ∧
      t'.roleAssignments = t.roleAssignments ∧ ∀ h ∈ t.resourceGrants, h.key ≠ g.key := by
  unfold grantResourcePermission at h
  split at h
  · cases h
  split at h
  · cases h
  split at h
  · cases h
  rename_i hkey
  split at h
  · cases h
  · cases h
    exact ⟨rfl, rfl, rfl, by simpa using hkey⟩

/-- An `IntegrityError` means that a row with the same key is already there. -/
theorem grantResourcePermission_integrityError {t : Tables} {g : ResourceGrant}
    (h : grantResourcePermission t g = .error .integrityError) :
    ∃ h ∈ t.resourceGrants, h.key = g.key := by
  unfold grantResourcePermission at h
  split at h
  · cases h
  split at h
  · cases h
  split at h
  · rename_i hkey
    simpa using hkey
  · split at h <;> cases h

theorem grantResourcePermission_unknown {t : Tables} {g : ResourceGrant}
    (h : g.permission ∉ t.permissions) :
    grantResourcePermission t g = .error .unknownPermission := by
  simp [grantResourcePermission, h]

theorem hasResourcePermission_iff {t : Tables} {now : Nat} {user : Uuid} {code : String}
    {organization : Uuid} {resourceType : String} {resourceId : Uuid} :
    hasResourcePermission t now user code organization resourceType resourceId = true ↔
      ∃ g ∈ t.resourceGrants, g.unexpired now = true ∧ g.organization = organization ∧
        g.key = (user, code, resourceType, resourceId) := by
  simp only [hasResourcePermission, List.any_eq_true, Bool.and_eq_true, beq_iff_eq,
    ResourceGrant.key, Prod.mk.injEq]
  constructor
  · rintro ⟨g, hg, ⟨⟨⟨⟨hu, h1⟩, h2⟩, h3⟩, h4⟩, h5⟩
    exact ⟨g, hg, hu, h2, h1, h3, h4, h5⟩
  · rintro ⟨g, hg, hu, h2, h1, h3, h4, h5⟩
    exact ⟨g, hg, ⟨⟨⟨⟨hu, h1⟩, h2⟩, h3⟩, h4⟩, h5⟩

end Permissions
