/-
# Roles and permissions

The RBAC tables, `RBACRepository.UserPermissions`, `Service.HasPermission` and the
policy that says which method needs which permission.
-/

import Mathlib.Data.List.Dedup
import Mathlib.Data.List.Sort
import GoFoundation.Postgres.Text

namespace GoFoundation.Rbac

open Postgres

/-- `rbac.Permission`, and a row of `permissions`. -/
structure Permission where
  id : UUID
  name : String
  resource : String
  action : String
  description : String
  deriving DecidableEq, Repr

/-- The tables `user_roles`, `role_permissions` and `permissions`. -/
structure Tables where
  userRoles : List (UUID × UUID)
  rolePermissions : List (UUID × UUID)
  permissions : List Permission
  deriving DecidableEq, Repr

/-- The join of `UserPermissions`. -/
def Tables.granted (tables : Tables) (userID : UUID) : List Permission :=
  tables.userRoles.flatMap fun assigned =>
    if assigned.1 = userID then
      tables.rolePermissions.flatMap fun carried =>
        if carried.1 = assigned.2 then
          tables.permissions.filter fun permission => permission.id = carried.2
        else []
    else []

/-- `UserPermissions`; an id that is no UUID makes the statement fail. -/
def userPermissions (tables : Tables) (userID : String) : Option (List Permission) :=
  (UUID.parse userID).map fun id =>
    (tables.granted id).dedup.insertionSort fun first second => first.name ≤ second.name

/-- `Service.HasPermission`; `none` is an error. -/
def hasPermission (tables : Tables) (userID permission : String) : Option Bool :=
  (userPermissions tables userID).map fun permissions =>
    permissions.any fun granted => granted.name = permission

/-- `policy.Policies`. -/
def policies : List (String × String) :=
  [("/audit.v1.AuditService/ListAuditEvents", "audit:read"),
    ("/user.v1.UserService/CreateUser", "users:create"),
    ("/user.v1.UserService/GetUser", "users:read"),
    ("/user.v1.UserService/ListUsers", "users:read"),
    ("/rbac.v1.RBACService/ListRoles", "roles:read"),
    ("/rbac.v1.RBACService/ListPermissions", "roles:read"),
    ("/rbac.v1.RBACService/AssignRole", "roles:assign"),
    ("/rbac.v1.RBACService/RemoveRole", "roles:assign"),
    ("/rbac.v1.RBACService/AssignPermissionToRole", "roles:manage"),
    ("/rbac.v1.RBACService/RemovePermissionFromRole", "roles:manage")]

/-- A role assigned to the user carries a permission of this name. -/
def Tables.Carries (tables : Tables) (userID : UUID) (name : String) : Prop :=
  ∃ role, (userID, role) ∈ tables.userRoles ∧ ∃ permission ∈ tables.permissions,
    (role, permission.id) ∈ tables.rolePermissions ∧ permission.name = name

theorem mem_granted {tables : Tables} {userID : UUID} {permission : Permission} :
    permission ∈ tables.granted userID ↔ ∃ role, (userID, role) ∈ tables.userRoles ∧
      (role, permission.id) ∈ tables.rolePermissions ∧ permission ∈ tables.permissions := by
  constructor
  · intro hmem
    obtain ⟨⟨user, role⟩, hassigned, hmem⟩ := List.mem_flatMap.mp hmem
    split at hmem
    · next huser =>
        obtain ⟨⟨role', id⟩, hcarried, hmem⟩ := List.mem_flatMap.mp hmem
        split at hmem
        · next hrole =>
            obtain ⟨hpermission, hid⟩ := List.mem_filter.mp hmem
            obtain rfl : user = userID := huser
            obtain rfl : role' = role := hrole
            obtain rfl : permission.id = id := of_decide_eq_true hid
            exact ⟨role', hassigned, hcarried, hpermission⟩
        · cases hmem
    · cases hmem
  · rintro ⟨role, hassigned, hcarried, hpermission⟩
    refine List.mem_flatMap.mpr ⟨(userID, role), hassigned, ?_⟩
    rw [if_pos rfl]
    refine List.mem_flatMap.mpr ⟨(role, permission.id), hcarried, ?_⟩
    rw [if_pos rfl]
    exact List.mem_filter.mpr ⟨hpermission, decide_eq_true rfl⟩

/-- `HasPermission` says what the tables say. -/
theorem hasPermission_eq_some_true {tables : Tables} {userID name : String} {id : UUID}
    (hparse : UUID.parse userID = some id) :
    hasPermission tables userID name = some true ↔ tables.Carries id name := by
  have hany : ((tables.granted id).dedup.insertionSort
      (fun first second : Permission => first.name ≤ second.name)).any
        (fun granted => granted.name = name) = true ↔
          ∃ permission ∈ tables.granted id, permission.name = name := by
    simp
  rw [hasPermission, userPermissions, hparse, Option.map_some, Option.map_some, Option.some.injEq,
    hany]
  constructor
  · rintro ⟨permission, hmem, hname⟩
    obtain ⟨role, hassigned, hcarried, hpermission⟩ := mem_granted.mp hmem
    exact ⟨role, hassigned, permission, hpermission, hcarried, hname⟩
  · rintro ⟨role, hassigned, permission, hpermission, hcarried, hname⟩
    exact ⟨permission, mem_granted.mpr ⟨role, hassigned, hcarried, hpermission⟩, hname⟩

end GoFoundation.Rbac
