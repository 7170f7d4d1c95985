import IntraCloud.Permissions.Services

/-!
# The permission catalog

`permissions/catalog.py`: the permission codes and the system roles, which every organization shares.
-/

namespace Permissions

/-- The codes of `PERMISSIONS`. -/
def PERMISSIONS : List String :=
  ["storage.read", "storage.write", "storage.delete", "storage.share", "storage.manage",
    "database.create", "database.read", "database.write", "database.schema.manage",
    "database.delete", "dataset.import", "dataset.export", "dataset.analyze",
    "application.create", "application.credentials.manage", "permissions.manage", "users.manage",
    "audit.read", "backup.manage", "export.manage", "connection.manage", "sharing.manage",
    "system.admin"]

/-- The one role that may be assigned platform-wide. -/
def PLATFORM_WIDE_ROLE_SLUG : String := "super-administrator"

/-- The role the creator of an organization is given. -/
def ORGANIZATION_ADMINISTRATOR : String := "organization-administrator"

/-- A role that bundles one of these is administrative. -/
def ADMIN_PERMISSION_CODES : List String := ["permissions.manage", "system.admin"]

/-- `SYSTEM_ROLES`. -/
def SYSTEM_ROLES : List Role :=
  [⟨"super-administrator", PERMISSIONS⟩,
    ⟨"organization-administrator", PERMISSIONS.filter (· != "system.admin")⟩,
    ⟨"storage-administrator",
      ["storage.read", "storage.write", "storage.delete", "storage.share", "storage.manage"]⟩,
    ⟨"database-administrator",
      ["database.create", "database.read", "database.write", "database.schema.manage",
        "database.delete", "dataset.import", "dataset.export", "dataset.analyze",
        "connection.manage"]⟩,
    ⟨"developer",
      ["application.create", "application.credentials.manage", "database.read",
        "database.write", "dataset.import", "dataset.export", "dataset.analyze"]⟩,
    ⟨"editor",
      ["storage.read", "storage.write", "database.read", "database.write", "dataset.import"]⟩,
    ⟨"viewer", ["storage.read", "database.read"]⟩,
    ⟨"auditor", ["audit.read"]⟩,
    ⟨"guest", []⟩,
    ⟨"service-account", []⟩]

/-- `Role.objects.get(slug=slug, organization__isnull=True)`. -/
def systemRole? (slug : String) : Option Role := SYSTEM_ROLES.find? (·.slug == slug)

theorem systemRole?_slug {slug : String} {role : Role} (h : systemRole? slug = some role) :
    role.slug = slug := by
  have hfound := List.find?_some h
  exact beq_iff_eq.1 hfound

/-- Only the platform-wide role bundles `system.admin`. -/
theorem slug_of_systemAdmin {slug : String} {role : Role} (h : systemRole? slug = some role)
    (hadmin : role.permissions.contains "system.admin" = true) : slug = PLATFORM_WIDE_ROLE_SLUG := by
  have hslug := systemRole?_slug h
  have hmem := List.mem_of_find?_eq_some h
  rw [← hslug]
  have hall : ∀ r ∈ SYSTEM_ROLES, r.permissions.contains "system.admin" = true →
      r.slug = PLATFORM_WIDE_ROLE_SLUG := by decide
  exact hall role hmem hadmin

end Permissions
