/-
# The migrations

What the files in `migrations` do to the tables, up and down.  A file is executed as a
whole or not at all.  Between two of them, and between going up and down again, the
servers use the tables that are there.

`000001_create_users` also installs an extension, and some files create indexes that no
constraint needs; neither is part of the model.
-/

import GoFoundation.Administration.System
import GoFoundation.Audit.Model
import GoFoundation.Idempotency.Store
import GoFoundation.Sessions.Repository

namespace GoFoundation.Migrations

open Library Postgres Users Rbac Administration

/-! ## Schema -/

/-- The tables, those that exist.  The four tables of `000002_create_rbac` are created and
dropped together. -/
structure Schema where
  users : Option (List User)
  rbac : Option (List Role × Tables)
  auditEvents : Option (List Audit.Row)
  authSessions : Option (List Sessions.Row)
  idempotencyRecords : Option (List Idempotency.Row)

/-- An empty database. -/
def Schema.empty : Schema := ⟨none, none, none, none, none⟩

/-- `CREATE TABLE`; `none` is an error. -/
def createTable {τ : Type} (table : Option τ) (rows : τ) : Option τ :=
  if table.isSome then none else some rows

/-- `gen_random_uuid`, call by call. -/
abbrev Draw := Nat → UUID

/-! ## Seeds -/

/-- A row of `permissions` without its id. -/
structure PermissionSeed where
  name : String
  resource : String
  action : String
  description : String
  deriving DecidableEq, Repr

/-- A row of `roles` without its id. -/
structure RoleSeed where
  name : String
  description : String
  deriving DecidableEq, Repr

/-- The permissions of `000003_seed_rbac`. -/
def permissionSeeds : List PermissionSeed :=
  [⟨"users:read", "users", "read", "View users"⟩,
    ⟨"users:create", "users", "create", "Create users"⟩,
    ⟨"users:update", "users", "update", "Update users"⟩,
    ⟨"users:disable", "users", "disable", "Enable or disable users"⟩,
    ⟨"users:delete", "users", "delete", "Delete users"⟩,
    ⟨"roles:read", "roles", "read", "View roles"⟩,
    ⟨"roles:manage", "roles", "manage", "Create and update roles"⟩,
    ⟨"roles:assign", "roles", "assign", "Assign roles to users"⟩]

/-- The roles of `000003_seed_rbac`. -/
def roleSeeds : List RoleSeed :=
  [⟨"super_admin", "All starter permissions"⟩, ⟨"user_admin", "User administration permissions"⟩,
    ⟨"viewer", "Read-only user access"⟩]

/-- The permission of `000004_create_audit_events`. -/
def auditSeed : PermissionSeed := ⟨"audit:read", "audit", "read", "View the audit trail"⟩

/-- What a permission has besides its id. -/
def seedOf (permission : Permission) : PermissionSeed :=
  ⟨permission.name, permission.resource, permission.action, permission.description⟩

/-- What a role has besides its id. -/
def roleSeedOf (role : Role) : RoleSeed := ⟨role.name, role.description⟩

/-- The rows of `permissions` with the ids drawn for them. -/
def permissionRows (draw : Draw) (seeds : List PermissionSeed) : List Permission :=
  seeds.zipIdx.map fun seed =>
    ⟨draw seed.2, seed.1.name, seed.1.resource, seed.1.action, seed.1.description⟩

/-- The rows of `roles` with the ids drawn for them, after so many others. -/
def roleRows (draw : Draw) (first : Nat) (seeds : List RoleSeed) : List Role :=
  (seeds.zipIdx first).map fun seed => ⟨draw seed.2, seed.1.name, seed.1.description⟩

/-- The constraints of `permissions`. -/
def permissionsClash (permission other : Permission) : Bool :=
  permission.id = other.id || permission.name = other.name ||
    (permission.resource = other.resource && permission.action = other.action)

/-- The constraints of `roles`. -/
def rolesClash (role other : Role) : Bool := role.id = other.id || role.name = other.name

/-- The primary key of a table of pairs. -/
def pairsClash (pair other : UUID × UUID) : Bool := pair = other

/-- `SELECT r.id, p.id FROM roles r JOIN permissions p … WHERE r.name = …`. -/
def joinPairs (roles : List Role) (permissions : List Permission) (name : String)
    (cond : Permission → Bool) : List (UUID × UUID) :=
  (roles.filter fun role => role.name = name).flatMap fun role =>
    (permissions.filter cond).map fun permission => (role.id, permission.id)

/-! ## Files -/

/-- A migration; `none` is an error, and nothing is changed. -/
structure Migration where
  up : Draw → Schema → Option Schema
  down : Schema → Option Schema

/-- `000001_create_users`. -/
def createUsers : Migration where
  up _ schema := do
    let users ← createTable schema.users []
    some { schema with users := some users }
  down schema :=
    -- A table that others refer to cannot be dropped.
    if schema.rbac.isSome || schema.authSessions.isSome then none
    else some { schema with users := none }

/-- `000002_create_rbac`. -/
def createRbac : Migration where
  up _ schema := do
    let _ ← schema.users
    let rbac ← createTable schema.rbac ([], ⟨[], [], []⟩)
    some { schema with rbac := some rbac }
  down schema := some { schema with rbac := none }

/-- The permissions of the role `user_admin`. -/
def userAdminPermissions : List String :=
  ["users:read", "users:create", "users:update", "users:disable", "roles:read"]

/-- `000003_seed_rbac`. -/
def seedRbac : Migration where
  up draw schema := do
    let (roles, tables) ← schema.rbac
    let permissions ← Table.insertAll permissionsClash tables.permissions
      (permissionRows draw permissionSeeds)
    let roles ← Table.insertAll rolesClash roles (roleRows draw permissionSeeds.length roleSeeds)
    let pairs ← Table.insertAll pairsClash tables.rolePermissions
      (joinPairs roles permissions "super_admin" fun _ => true)
    let pairs ← Table.insertAll pairsClash pairs
      (joinPairs roles permissions "user_admin" fun permission =>
        permission.name ∈ userAdminPermissions)
    let pairs ← Table.insertAll pairsClash pairs
      (joinPairs roles permissions "viewer" fun permission => permission.name = "users:read")
    some { schema with rbac := some (roles, ⟨tables.userRoles, pairs, permissions⟩) }
  down schema := do
    let _ ← schema.rbac
    some { schema with rbac := some ([], ⟨[], [], []⟩) }

/-- `DELETE FROM permissions WHERE name = …`, which deletes from `role_permissions` what
refers to the permission. -/
def deletePermission (name : String) (tables : Tables) : Tables where
  userRoles := tables.userRoles
  rolePermissions := Table.deleteWhere (fun pair =>
    tables.permissions.any fun permission => permission.name = name && permission.id = pair.2)
      tables.rolePermissions
  permissions := Table.deleteWhere (fun permission => permission.name = name) tables.permissions

/-- `000004_create_audit_events`. -/
def createAuditEvents : Migration where
  up draw schema := do
    let events ← createTable schema.auditEvents []
    let (roles, tables) ← schema.rbac
    let permissions ← Table.insertAll permissionsClash tables.permissions
      (permissionRows draw [auditSeed])
    let pairs ← Table.insertAll pairsClash tables.rolePermissions
      (joinPairs roles permissions "super_admin" fun permission => permission.name = "audit:read")
    some { schema with
      auditEvents := some events
      rbac := some (roles, ⟨tables.userRoles, pairs, permissions⟩) }
  down schema := do
    let (roles, tables) ← schema.rbac
    let _ ← schema.auditEvents
    some { schema with
      auditEvents := none
      rbac := some (roles, deletePermission "audit:read" tables) }

/-- `000005_create_auth_sessions`. -/
def createAuthSessions : Migration where
  up _ schema := do
    let _ ← schema.users
    let sessions ← createTable schema.authSessions []
    some { schema with authSessions := some sessions }
  down schema := do
    let _ ← schema.authSessions
    some { schema with authSessions := none }

/-- `000006_create_idempotency_records`. -/
def createIdempotencyRecords : Migration where
  up _ schema := do
    let records ← createTable schema.idempotencyRecords []
    some { schema with idempotencyRecords := some records }
  down schema := do
    let _ ← schema.idempotencyRecords
    some { schema with idempotencyRecords := none }

/-- The files in order. -/
def migrations : List Migration :=
  [createUsers, createRbac, seedRbac, createAuditEvents, createAuthSessions,
    createIdempotencyRecords]

/-! ## The system -/

/-- A statement of a server on the tables.  The tables that no migration reads may take any
rows. -/
inductive Use
  | createUser (user : Entity)
  | insertAdmin (user : Entity)
  | grantSuperAdmin (email : String)
  | assignment (attempt : Attempt)
  | auditEvents (rows : List Audit.Row)
  | authSessions (rows : List Sessions.Row)
  | idempotencyRecords (rows : List Idempotency.Row)

/-- The statement on the table `users`. -/
def Schema.withUsers (schema : Schema) (act : List User → List User) : Schema :=
  { schema with users := schema.users.map act }

/-- The statement on users, roles and permissions. -/
def Schema.withContents (schema : Schema) (act : Contents → Contents) : Schema :=
  match schema.users, schema.rbac with
  | some users, some (roles, tables) =>
      { schema with
        users := some (act ⟨users, roles, tables⟩).users
        rbac := some ((act ⟨users, roles, tables⟩).roles, (act ⟨users, roles, tables⟩).tables) }
  | _, _ => schema

/-- The tables after a statement; it fails without effect where a table is missing. -/
def Use.exec (schema : Schema) : Use → Schema
  | createUser user => schema.withUsers fun users =>
      match create users user with
      | .ok users' => users'
      | .error _ => users
  | insertAdmin user => schema.withUsers fun users =>
      (Administration.insertAdmin users user).getD users
  | grantSuperAdmin email => schema.withContents fun contents =>
      (Administration.grantSuperAdmin contents email).getD contents
  | assignment attempt => schema.withContents fun contents => contents.step attempt
  | auditEvents rows => { schema with auditEvents := schema.auditEvents.map fun _ => rows }
  | authSessions rows => { schema with authSessions := schema.authSessions.map fun _ => rows }
  | idempotencyRecords rows =>
      { schema with idempotencyRecords := schema.idempotencyRecords.map fun _ => rows }

/-- `schema_migrations`, and the tables. -/
structure State where
  version : Nat
  dirty : Bool
  schema : Schema

/-- The next file is executed, or the last one is taken back, or a server uses the tables. -/
inductive Label
  | up (draw : Draw)
  | down
  | use (use : Use)

/-- The outcome of a file: a failed one leaves the version dirty. -/
def State.migrated (s : State) (version : Nat) : Option Schema → State
  | some schema => ⟨version, false, schema⟩
  | none => ⟨version, true, s.schema⟩

/-- Migrations and use in any order, from an empty database.  A dirty version is not
migrated further. -/
def system : System State Label where
  init s := s = ⟨0, false, .empty⟩
  next s
    | .up draw =>
        if s.dirty then none
        else migrations[s.version]?.map fun migration =>
          s.migrated (s.version + 1) (migration.up draw s.schema)
    | .down =>
        if s.dirty then none
        else match s.version with
          | 0 => none
          | version + 1 => migrations[version]?.map fun migration =>
              s.migrated version (migration.down s.schema)
    | .use use => some { s with schema := use.exec s.schema }

/-- As many ids as a file draws at most. -/
def drawn : Nat := permissionSeeds.length + roleSeeds.length

/-- The ids that a file draws differ. -/
def Distinct (draw : Draw) : Prop := ∀ m < drawn, ∀ n < drawn, draw m = draw n → m = n

/-- `gen_random_uuid` draws ids that differ, and none that a permission has. -/
structure Fresh (draw : Draw) (schema : Schema) : Prop where
  distinct : Distinct draw
  permissions : ∀ roles tables, schema.rbac = some (roles, tables) →
    ∀ permission ∈ tables.permissions, ∀ n < drawn, permission.id ≠ draw n

/-- The ids that a step draws are new. -/
def DrawsFresh (s : State) : Label → Prop
  | .up draw => Fresh draw s.schema
  | .down | .use _ => True

end GoFoundation.Migrations
