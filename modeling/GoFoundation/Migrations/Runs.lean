/-
# Migrating a database that is in use

`WellFormed` says of each version which tables it has and which seeds are in them.  Every
file leads from the one version to the next, and taking it back at once restores what was
there; the statements of the servers stay within a version.  So no file ever fails, in
whatever order files and statements come.
-/

import GoFoundation.Administration.Conduct
import GoFoundation.Migrations.Model

namespace GoFoundation.Migrations

open Library Postgres Users Rbac Administration

/-! ## Versions -/

/-- The seeds of `permissions` at a version. -/
def permissionsAt (version : Nat) : List PermissionSeed :=
  if 4 ≤ version then permissionSeeds ++ [auditSeed]
  else if 3 ≤ version then permissionSeeds
  else []

/-- The seeds of `roles` at a version. -/
def rolesAt (version : Nat) : List RoleSeed := if 3 ≤ version then roleSeeds else []

/-- The roles and permissions are those of the version, and nothing violates a constraint. -/
structure Seeded (version : Nat) (contents : Contents) : Prop where
  consistent : contents.Consistent
  roles : contents.roles.map roleSeedOf = rolesAt version
  permissions : contents.tables.permissions.map seedOf = permissionsAt version

/-- The tables of a version. -/
structure WellFormed (version : Nat) (schema : Schema) : Prop where
  users : schema.users.isSome = decide (1 ≤ version)
  rbac : schema.rbac.isSome = decide (2 ≤ version)
  auditEvents : schema.auditEvents.isSome = decide (4 ≤ version)
  authSessions : schema.authSessions.isSome = decide (5 ≤ version)
  idempotencyRecords : schema.idempotencyRecords.isSome = decide (6 ≤ version)
  unclashing : ∀ users, schema.users = some users → Unclashing users
  seeded : ∀ users roles tables, schema.users = some users → schema.rbac = some (roles, tables) →
    Seeded version ⟨users, roles, tables⟩

/-- The file leads from the version to the next one, and back to what was there. -/
structure Migration.Sound (migration : Migration) (version : Nat) : Prop where
  up : ∀ schema draw, WellFormed version schema → Fresh draw schema →
    ∃ schema', migration.up draw schema = some schema' ∧ WellFormed (version + 1) schema' ∧
      migration.down schema' = some schema
  down : ∀ schema, WellFormed (version + 1) schema →
    ∃ schema', migration.down schema = some schema' ∧ WellFormed version schema'

/-! ## Seeds -/

section Seeds

variable {draw : Draw} {permissions : List Permission} {roles : List Role}

/-- The constraints of `permissions` apart from the primary key. -/
def seedsClash (seed other : PermissionSeed) : Bool :=
  seed.name = other.name || (seed.resource = other.resource && seed.action = other.action)

theorem map_seedOf_permissionRows (draw : Draw) (seeds : List PermissionSeed) :
    (permissionRows draw seeds).map seedOf = seeds := by
  rw [permissionRows, List.map_map]
  exact List.zipIdx_map_fst 0 seeds

theorem map_id_permissionRows (draw : Draw) (seeds : List PermissionSeed) :
    (permissionRows draw seeds).map Permission.id = (List.range' 0 seeds.length).map draw := by
  rw [permissionRows, List.map_map, ← List.zipIdx_map_snd 0 seeds, List.map_map]
  rfl

theorem map_roleSeedOf_roleRows (draw : Draw) (first : Nat) (seeds : List RoleSeed) :
    (roleRows draw first seeds).map roleSeedOf = seeds := by
  rw [roleRows, List.map_map]
  exact List.zipIdx_map_fst first seeds

theorem map_id_roleRows (draw : Draw) (first : Nat) (seeds : List RoleSeed) :
    (roleRows draw first seeds).map Role.id = (List.range' first seeds.length).map draw := by
  rw [roleRows, List.map_map, ← List.zipIdx_map_snd first seeds, List.map_map]
  rfl

/-- Ids that are drawn one after the other differ. -/
theorem Distinct.nodup (hdistinct : Distinct draw) (first count : Nat)
    (hcount : first + count ≤ drawn) : ((List.range' first count).map draw).Nodup := by
  refine List.Nodup.map_on ?_ List.nodup_range'
  intro m hm n hn
  rw [List.mem_range'_1] at hm hn
  exact hdistinct m (by omega) n (by omega)

/-- Seeds that clash with none that are there are inserted under new ids. -/
theorem insertAll_permissions (permissions : List Permission) (seeds : List PermissionSeed)
    (hdistinct : Distinct draw) (hlength : seeds.length ≤ drawn)
    (hnew : ∀ permission ∈ permissions, ∀ n < drawn, permission.id ≠ draw n)
    (hids : (permissions.map Permission.id).Nodup)
    (hseeds : (permissions.map seedOf ++ seeds).Pairwise fun first second =>
      seedsClash second first = false) :
    Table.insertAll permissionsClash permissions (permissionRows draw seeds) =
        some (permissions ++ permissionRows draw seeds) ∧
      ((permissions ++ permissionRows draw seeds).map Permission.id).Nodup := by
  have hnodup : ((permissions ++ permissionRows draw seeds).map Permission.id).Nodup := by
    rw [List.map_append, map_id_permissionRows]
    have hnodup := hdistinct.nodup 0 seeds.length (by omega)
    refine List.nodup_append.mpr ⟨hids, hnodup, ?_⟩
    intro id hid other hother heq
    obtain ⟨permission, hpermission, rfl⟩ := List.mem_map.mp hid
    obtain ⟨n, hn, rfl⟩ := List.mem_map.mp hother
    rw [List.mem_range'_1] at hn
    exact hnew permission hpermission n (by omega) heq
  refine ⟨Table.insertAll_eq_append ?_, hnodup⟩
  rw [← map_seedOf_permissionRows draw seeds, ← List.map_append, List.pairwise_map] at hseeds
  refine ((List.pairwise_map.mp hnodup).and hseeds).imp ?_
  rintro first second ⟨hid, hclash⟩
  have hid' : decide (second.id = first.id) = false := decide_eq_false (Ne.symm hid)
  rw [seedsClash] at hclash
  rw [permissionsClash, hid', Bool.false_or]
  exact hclash

theorem insertAll_roles (hdistinct : Distinct draw) :
    Table.insertAll rolesClash [] (roleRows draw permissionSeeds.length roleSeeds) =
        some (roleRows draw permissionSeeds.length roleSeeds) ∧
      ((roleRows draw permissionSeeds.length roleSeeds).map Role.id).Nodup := by
  have hnodup : ((roleRows draw permissionSeeds.length roleSeeds).map Role.id).Nodup := by
    rw [map_id_roleRows]
    exact hdistinct.nodup _ _ le_rfl
  have hseeds : ((roleRows draw permissionSeeds.length roleSeeds).map roleSeedOf).Pairwise fun first second =>
      decide (second.name = first.name) = false := by
    rw [map_roleSeedOf_roleRows]
    decide
  refine ⟨?_, hnodup⟩
  have hclash : (([] : List Role) ++ roleRows draw permissionSeeds.length roleSeeds).Pairwise
      fun first second => rolesClash second first = false := by
    refine ((List.pairwise_map.mp hnodup).and (List.pairwise_map.mp hseeds)).imp ?_
    rintro first second ⟨hid, hname⟩
    rw [rolesClash, decide_eq_false (Ne.symm hid), Bool.false_or]
    exact hname
  exact Table.insertAll_eq_append hclash

end Seeds

/-! ## Pairs -/

section Pairs

variable {roles : List Role} {permissions : List Permission} {name name' : String}
  {cond cond' : Permission → Bool}

theorem mem_joinPairs {pair : UUID × UUID} :
    pair ∈ joinPairs roles permissions name cond ↔
      ∃ role ∈ roles, role.name = name ∧ ∃ permission ∈ permissions, cond permission = true ∧
        pair = (role.id, permission.id) := by
  simp only [joinPairs, List.mem_flatMap, List.mem_map, List.mem_filter, decide_eq_true_eq]
  constructor
  · rintro ⟨role, ⟨hrole, hname⟩, permission, ⟨hpermission, hcond⟩, rfl⟩
    exact ⟨role, hrole, hname, permission, hpermission, hcond, rfl⟩
  · rintro ⟨role, hrole, hname, permission, hpermission, hcond, rfl⟩
    exact ⟨role, ⟨hrole, hname⟩, permission, ⟨hpermission, hcond⟩, rfl⟩

theorem nodup_joinPairs (hroles : (roles.map Role.id).Nodup)
    (hpermissions : (permissions.map Permission.id).Nodup) :
    (joinPairs roles permissions name cond).Nodup := by
  rw [joinPairs, List.nodup_flatMap]
  constructor
  · intro role _
    refine List.pairwise_map.mpr (((List.pairwise_map.mp hpermissions).filter cond).imp ?_)
    intro first second hid heq
    exact hid (Prod.mk.inj heq).2
  · refine ((List.pairwise_map.mp hroles).filter _).imp ?_
    intro first second hid pair hfirst hsecond
    obtain ⟨permission, -, rfl⟩ := List.mem_map.mp hfirst
    obtain ⟨other, -, heq⟩ := List.mem_map.mp hsecond
    exact hid (Prod.mk.inj heq).1.symm

/-- Two roles have no pairs in common. -/
theorem disjoint_joinPairs (hroles : (roles.map Role.id).Nodup) (hname : name ≠ name') :
    ∀ pair ∈ joinPairs roles permissions name cond,
      ∀ other ∈ joinPairs roles permissions name' cond', pair ≠ other := by
  intro pair hpair other hother heq
  obtain ⟨role, hrole, hrole', permission, -, -, rfl⟩ := mem_joinPairs.mp hpair
  obtain ⟨second, hsecond, hsecond', other', -, -, rfl⟩ := mem_joinPairs.mp hother
  have hsame := Table.eq_of_key_eq hroles hrole hsecond (Prod.mk.inj heq).1
  exact hname (hrole'.symm.trans (hsame ▸ hsecond'))

theorem insertAll_pairs {pairs new : List (UUID × UUID)} (hnodup : (pairs ++ new).Nodup) :
    Table.insertAll pairsClash pairs new = some (pairs ++ new) := by
  apply Table.insertAll_eq_append
  refine List.Pairwise.imp ?_ hnodup
  intro first second hne
  exact decide_eq_false (Ne.symm hne)

theorem insertAll_pairs_nil {new : List (UUID × UUID)} (hnodup : new.Nodup) :
    Table.insertAll pairsClash [] new = some new := by
  have hnodup' : ([] ++ new).Nodup := hnodup
  exact insertAll_pairs hnodup'

/-- What a join selects refers to rows that are there. -/
theorem knows_joinPairs {contents : Contents} (hroles : ∀ role ∈ roles, role ∈ contents.roles)
    (hpermissions : ∀ permission ∈ permissions, permission ∈ contents.tables.permissions) :
    ∀ pair ∈ joinPairs roles permissions name cond, contents.knowsRolePermission pair = true := by
  intro pair hpair
  obtain ⟨role, hrole, -, permission, hpermission, -, rfl⟩ := mem_joinPairs.mp hpair
  rw [Contents.knowsRolePermission, Bool.and_eq_true, List.any_eq_true, List.any_eq_true]
  exact ⟨⟨role, hroles role hrole, decide_eq_true rfl⟩,
    permission, hpermissions permission hpermission, decide_eq_true rfl⟩

end Pairs

/-! ## Files -/

section Files

variable {schema : Schema} {version : Nat}

theorem isSome_createTable {τ : Type} {table : Option τ} (rows : τ) (hnone : table.isSome = false) :
    createTable table rows = some rows := by
  rw [createTable, hnone]
  rfl

theorem eq_none_of_isSome {τ : Type} {table : Option τ} (hnone : table.isSome = false) :
    table = none := Option.not_isSome_iff_eq_none.mp (by rw [hnone]; exact Bool.false_ne_true)

theorem createUsers_sound : createUsers.Sound 0 where
  up schema draw h _ := by
    have hcreate := isSome_createTable ([] : List User) h.users
    refine ⟨{ schema with users := some [] }, ?_, ?_, ?_⟩
    · simp [createUsers, hcreate]
    · refine { h with users := rfl, unclashing := ?_, seeded := ?_ }
      · rintro users heq
        cases heq
        exact List.Pairwise.nil
      · intro users roles tables _ hrbac
        have hnone := eq_none_of_isSome h.rbac
        rw [show schema.rbac = some (roles, tables) from hrbac] at hnone
        cases hnone
    · have hrbac : schema.rbac.isSome = false := h.rbac
      have hsessions : schema.authSessions.isSome = false := h.authSessions
      simp only [createUsers, hrbac, hsessions, Bool.or_self, Bool.false_eq_true, if_false]
      rw [← eq_none_of_isSome h.users]
  down schema h := by
    have hrbac : schema.rbac.isSome = false := h.rbac
    have hsessions : schema.authSessions.isSome = false := h.authSessions
    refine ⟨{ schema with users := none }, ?_, ?_⟩
    · simp [createUsers, hrbac, hsessions]
    · refine { h with users := rfl, unclashing := ?_, seeded := ?_ }
      · intro users heq
        cases heq
      · intro users roles tables heq
        cases heq

theorem createRbac_sound : createRbac.Sound 1 where
  up schema draw h _ := by
    obtain ⟨users, husers⟩ := Option.isSome_iff_exists.mp h.users
    have hcreate := isSome_createTable (([], ⟨[], [], []⟩) : List Role × Tables) h.rbac
    refine ⟨{ schema with rbac := some ([], ⟨[], [], []⟩) }, ?_, ?_, ?_⟩
    · simp [createRbac, husers, hcreate]
    · refine { h with rbac := rfl, seeded := ?_ }
      intro users' roles tables husers' heq
      cases heq
      refine ⟨?_, rfl, rfl⟩
      have hunclashing := h.unclashing users' husers'
      exact
        { users := List.pairwise_map.mpr (hunclashing.imp fun h => (id_ne_of_clashes h))
          roles := List.Pairwise.nil
          roleNames := List.Pairwise.nil
          permissions := List.Pairwise.nil
          permissionNames := List.Pairwise.nil
          userRoles := List.Pairwise.nil
          rolePermissions := List.Pairwise.nil
          userRoles_known := fun pair hpair => absurd hpair List.not_mem_nil
          rolePermissions_known := fun pair hpair => absurd hpair List.not_mem_nil }
    · simp only [createRbac]
      rw [← eq_none_of_isSome h.rbac]
  down schema h := by
    refine ⟨{ schema with rbac := none }, rfl, { h with rbac := rfl, seeded := ?_ }⟩
    intro users roles tables _ heq
    cases heq

/-- Roles and permissions that have no rows leave none to the other two tables. -/
theorem tables_eq_empty {users : List User} {roles : List Role} {tables : Tables}
    (h : Seeded 2 ⟨users, roles, tables⟩) : roles = [] ∧ tables = ⟨[], [], []⟩ := by
  have hroles : roles = [] := List.map_eq_nil_iff.mp h.roles
  have hpermissions : tables.permissions = [] := List.map_eq_nil_iff.mp h.permissions
  obtain ⟨userRoles, rolePermissions, permissions⟩ := tables
  obtain rfl : permissions = [] := hpermissions
  subst hroles
  have huserRoles : userRoles = [] := by
    refine List.eq_nil_iff_forall_not_mem.mpr fun pair hpair => ?_
    have hknown := h.consistent.userRoles_known pair hpair
    simp [Contents.knowsUserRole] at hknown
  have hrolePermissions : rolePermissions = [] := by
    refine List.eq_nil_iff_forall_not_mem.mpr fun pair hpair => ?_
    have hknown := h.consistent.rolePermissions_known pair hpair
    simp [Contents.knowsRolePermission] at hknown
  rw [huserRoles, hrolePermissions]
  exact ⟨rfl, rfl⟩

/-- The pairs of `000003_seed_rbac`. -/
def seedPairs (draw : Draw) : List (UUID × UUID) :=
  joinPairs (roleRows draw permissionSeeds.length roleSeeds) (permissionRows draw permissionSeeds)
      "super_admin" (fun _ => true) ++
    joinPairs (roleRows draw permissionSeeds.length roleSeeds)
      (permissionRows draw permissionSeeds) "user_admin"
      (fun permission => permission.name ∈ userAdminPermissions) ++
    joinPairs (roleRows draw permissionSeeds.length roleSeeds)
      (permissionRows draw permissionSeeds) "viewer" (fun permission => permission.name = "users:read")

/-- The tables that `000003_seed_rbac` leaves. -/
def seedTables (draw : Draw) : Tables := ⟨[], seedPairs draw, permissionRows draw permissionSeeds⟩

theorem permissionSeeds_pairwise :
    permissionSeeds.Pairwise fun first second => seedsClash second first = false := by decide

theorem auditSeed_pairwise :
    (permissionSeeds ++ [auditSeed]).Pairwise fun first second => seedsClash second first = false := by
  decide

theorem seedRbac_up (schema : Schema) {draw : Draw} (hdistinct : Distinct draw)
    (hrbac : schema.rbac = some ([], ⟨[], [], []⟩)) :
    seedRbac.up draw schema = some { schema with
        rbac := some (roleRows draw permissionSeeds.length roleSeeds, seedTables draw) } ∧
      (seedPairs draw).Nodup ∧
      ((roleRows draw permissionSeeds.length roleSeeds).map Role.id).Nodup ∧
      ((permissionRows draw permissionSeeds).map Permission.id).Nodup := by
  obtain ⟨hpermissions, hids⟩ := insertAll_permissions [] permissionSeeds hdistinct (by decide)
    (fun _ h => absurd h List.not_mem_nil) List.Pairwise.nil permissionSeeds_pairwise
  rw [List.nil_append] at hpermissions hids
  obtain ⟨hroles, hroleIDs⟩ := insertAll_roles hdistinct
  have hnodup : (seedPairs draw).Nodup := by
    have hjoin : ∀ name cond, (joinPairs (roleRows draw permissionSeeds.length roleSeeds)
        (permissionRows draw permissionSeeds) name cond).Nodup :=
      fun name cond => nodup_joinPairs hroleIDs hids
    refine List.nodup_append.mpr ⟨List.nodup_append.mpr ⟨hjoin _ _, hjoin _ _, ?_⟩, hjoin _ _, ?_⟩
    · exact disjoint_joinPairs hroleIDs (by decide)
    · intro pair hpair
      rcases List.mem_append.mp hpair with hsuper | hadmin
      · exact disjoint_joinPairs hroleIDs (by decide) pair hsuper
      · exact disjoint_joinPairs hroleIDs (by decide) pair hadmin
  refine ⟨?_, hnodup, hroleIDs, hids⟩
  have hsecond := (List.nodup_append.mp hnodup).1
  have hfirst := (List.nodup_append.mp hsecond).1
  simp only [seedRbac, hrbac, hpermissions, hroles, Option.bind_eq_bind, Option.bind_some,
    insertAll_pairs_nil hfirst, insertAll_pairs hsecond]
  rw [insertAll_pairs hnodup]
  rfl

theorem seedRbac_sound : seedRbac.Sound 2 where
  up schema draw h hfresh := by
    obtain ⟨users, husers⟩ := Option.isSome_iff_exists.mp h.users
    obtain ⟨⟨roles, tables⟩, hrbac⟩ := Option.isSome_iff_exists.mp h.rbac
    have hseeded := h.seeded users roles tables husers hrbac
    obtain ⟨rfl, rfl⟩ := tables_eq_empty hseeded
    obtain ⟨hup, hpairs, hroleIDs, hids⟩ := seedRbac_up schema hfresh.distinct hrbac
    refine ⟨_, hup, ?_, ?_⟩
    · refine { h with rbac := rfl, seeded := ?_ }
      intro users' roles tables husers' heq
      rw [show schema.users = some users' from husers', Option.some.injEq] at husers
      cases heq
      subst husers
      refine ⟨?_, map_roleSeedOf_roleRows _ _ _, map_seedOf_permissionRows _ _⟩
      have hnames : ((roleRows draw permissionSeeds.length roleSeeds).map Role.name).Nodup := by
        have hseeds := congrArg (List.map RoleSeed.name)
          (map_roleSeedOf_roleRows draw permissionSeeds.length roleSeeds)
        rw [List.map_map] at hseeds
        rw [show Role.name = RoleSeed.name ∘ roleSeedOf from rfl, hseeds]
        decide
      have hpermissionNames : ((permissionRows draw permissionSeeds).map Permission.name).Nodup := by
        have hseeds := congrArg (List.map PermissionSeed.name)
          (map_seedOf_permissionRows draw permissionSeeds)
        rw [List.map_map] at hseeds
        rw [show Permission.name = PermissionSeed.name ∘ seedOf from rfl, hseeds]
        decide
      exact
        { users := hseeded.consistent.users
          roles := hroleIDs
          roleNames := hnames
          permissions := hids
          permissionNames := hpermissionNames
          userRoles := List.Pairwise.nil
          rolePermissions := hpairs
          userRoles_known := fun pair hpair => absurd hpair List.not_mem_nil
          rolePermissions_known := by
            intro pair hpair
            have hknows : ∀ name cond, ∀ pair ∈ joinPairs
                (roleRows draw permissionSeeds.length roleSeeds)
                (permissionRows draw permissionSeeds) name cond,
                Contents.knowsRolePermission ⟨users', _, seedTables draw⟩ pair = true :=
              fun name cond => knows_joinPairs (fun _ h => h) fun _ h => h
            rcases List.mem_append.mp hpair with hpair | hviewer
            · rcases List.mem_append.mp hpair with hsuper | hadmin
              · exact hknows _ _ pair hsuper
              · exact hknows _ _ pair hadmin
            · exact hknows _ _ pair hviewer }
    · simp only [seedRbac, Option.bind_eq_bind, Option.bind_some]
      rw [← hrbac]
  down schema h := by
    obtain ⟨users, husers⟩ := Option.isSome_iff_exists.mp h.users
    obtain ⟨⟨roles, tables⟩, hrbac⟩ := Option.isSome_iff_exists.mp h.rbac
    have hseeded := h.seeded users roles tables husers hrbac
    refine ⟨{ schema with rbac := some ([], ⟨[], [], []⟩) }, ?_, ?_⟩
    · simp only [seedRbac, hrbac, Option.bind_eq_bind, Option.bind_some]
    · refine { h with rbac := rfl, seeded := ?_ }
      intro users' roles' tables' husers' heq
      rw [show schema.users = some users' from husers', Option.some.injEq] at husers
      cases heq
      subst husers
      refine ⟨?_, rfl, rfl⟩
      exact
        { users := hseeded.consistent.users
          roles := List.Pairwise.nil
          roleNames := List.Pairwise.nil
          permissions := List.Pairwise.nil
          permissionNames := List.Pairwise.nil
          userRoles := List.Pairwise.nil
          rolePermissions := List.Pairwise.nil
          userRoles_known := fun pair hpair => absurd hpair List.not_mem_nil
          rolePermissions_known := fun pair hpair => absurd hpair List.not_mem_nil }

/-- What `000004_create_audit_events` adds to the roles' permissions. -/
def auditPairs (draw : Draw) (roles : List Role) (permissions : List Permission) :
    List (UUID × UUID) :=
  joinPairs roles (permissions ++ permissionRows draw [auditSeed]) "super_admin"
    fun permission => permission.name = "audit:read"

section Audit

variable {draw : Draw} {users : List User} {roles : List Role} {tables : Tables}

/-- Before it there is no permission of this name. -/
theorem name_ne_audit (hseeded : Seeded 3 ⟨users, roles, tables⟩) {permission : Permission}
    (hpermission : permission ∈ tables.permissions) : permission.name ≠ "audit:read" := by
  have hall : ∀ seed ∈ permissionSeeds, seed.name ≠ "audit:read" := by decide
  have hmem : seedOf permission ∈ permissionSeeds := by
    have hseeds : tables.permissions.map seedOf = permissionSeeds := hseeded.permissions
    rw [← hseeds]
    exact List.mem_map_of_mem hpermission
  exact hall _ hmem

/-- The pairs it adds are about the new permission. -/
theorem snd_of_mem_auditPairs (hseeded : Seeded 3 ⟨users, roles, tables⟩) {pair : UUID × UUID}
    (hpair : pair ∈ auditPairs draw roles tables.permissions) : pair.2 = draw 0 := by
  obtain ⟨role, -, -, permission, hpermission, hname, rfl⟩ := mem_joinPairs.mp hpair
  rcases List.mem_append.mp hpermission with hold | hnew
  · exact absurd (of_decide_eq_true hname) (name_ne_audit hseeded hold)
  · rw [List.mem_singleton.mp hnew]

theorem snd_ne_of_mem_rolePermissions (hseeded : Seeded 3 ⟨users, roles, tables⟩)
    (hfresh : ∀ permission ∈ tables.permissions, ∀ n < drawn, permission.id ≠ draw n)
    {pair : UUID × UUID} (hpair : pair ∈ tables.rolePermissions) : pair.2 ≠ draw 0 := by
  have hknown := hseeded.consistent.rolePermissions_known pair hpair
  rw [Contents.knowsRolePermission, Bool.and_eq_true, List.any_eq_true, List.any_eq_true] at hknown
  obtain ⟨-, permission, hpermission, hid⟩ := hknown
  rw [← of_decide_eq_true hid]
  exact hfresh permission hpermission 0 (by decide)

/-- Deleting the permission takes the rows back that were added. -/
theorem deletePermission_added (hseeded : Seeded 3 ⟨users, roles, tables⟩)
    (hfresh : ∀ permission ∈ tables.permissions, ∀ n < drawn, permission.id ≠ draw n) :
    deletePermission "audit:read" ⟨tables.userRoles,
      tables.rolePermissions ++ auditPairs draw roles tables.permissions,
      tables.permissions ++ permissionRows draw [auditSeed]⟩ = tables := by
  have hnew : permissionRows draw [auditSeed] =
      [⟨draw 0, "audit:read", "audit", "read", "View the audit trail"⟩] := rfl
  -- The condition on a pair is that it is about the new permission.
  have hcond : ∀ pair : UUID × UUID,
      ((tables.permissions ++ permissionRows draw [auditSeed]).any fun permission =>
        permission.name = "audit:read" && permission.id = pair.2) = decide (pair.2 = draw 0) := by
    intro pair
    rw [List.any_append, hnew, List.any_cons, List.any_nil, Bool.or_false]
    have hold : (tables.permissions.any fun permission =>
        permission.name = "audit:read" && permission.id = pair.2) = false := by
      rw [List.any_eq_false]
      intro permission hpermission hmatch
      rw [Bool.and_eq_true, decide_eq_true_eq] at hmatch
      exact name_ne_audit hseeded hpermission hmatch.1
    rw [hold]
    simp [eq_comm]
  rw [deletePermission, Tables.mk.injEq]
  refine ⟨rfl, ?_, ?_⟩
  · rw [Table.deleteWhere, List.filter_append]
    have hkept : (tables.rolePermissions.filter fun pair => !decide (pair.2 = draw 0)) =
        tables.rolePermissions := by
      rw [List.filter_eq_self]
      intro pair hpair
      rw [decide_eq_false (snd_ne_of_mem_rolePermissions hseeded hfresh hpair)]
      rfl
    have hdropped : ((auditPairs draw roles tables.permissions).filter fun pair =>
        !decide (pair.2 = draw 0)) = [] := by
      rw [List.filter_eq_nil_iff]
      intro pair hpair
      rw [decide_eq_true (snd_of_mem_auditPairs hseeded hpair)]
      exact Bool.false_ne_true
    simp only [hcond]
    rw [hkept, hdropped, List.append_nil]
  · rw [Table.deleteWhere, List.filter_append]
    have hkept : (tables.permissions.filter fun permission =>
        !decide (permission.name = "audit:read")) = tables.permissions := by
      rw [List.filter_eq_self]
      intro permission hpermission
      rw [decide_eq_false (name_ne_audit hseeded hpermission)]
      rfl
    rw [hkept, hnew]
    exact List.append_nil _

theorem createAuditEvents_up (schema : Schema) (hseeded : Seeded 3 ⟨users, roles, tables⟩)
    (hevents : schema.auditEvents.isSome = false) (hrbac : schema.rbac = some (roles, tables))
    (hdistinct : Distinct draw)
    (hfresh : ∀ permission ∈ tables.permissions, ∀ n < drawn, permission.id ≠ draw n) :
    createAuditEvents.up draw schema = some { schema with
        auditEvents := some []
        rbac := some (roles, ⟨tables.userRoles,
          tables.rolePermissions ++ auditPairs draw roles tables.permissions,
          tables.permissions ++ permissionRows draw [auditSeed]⟩) } ∧
      (tables.rolePermissions ++ auditPairs draw roles tables.permissions).Nodup ∧
      ((tables.permissions ++ permissionRows draw [auditSeed]).map Permission.id).Nodup := by
  obtain ⟨hinsert, hids⟩ := insertAll_permissions tables.permissions [auditSeed] hdistinct
    (by decide) hfresh hseeded.consistent.permissions (by
      rw [show tables.permissions.map seedOf = permissionSeeds from hseeded.permissions]
      exact auditSeed_pairwise)
  have hnodup : (tables.rolePermissions ++ auditPairs draw roles tables.permissions).Nodup := by
    refine List.nodup_append.mpr ⟨hseeded.consistent.rolePermissions,
      nodup_joinPairs hseeded.consistent.roles hids, ?_⟩
    intro pair hpair other hother heq
    have hother' := snd_of_mem_auditPairs hseeded hother
    rw [← heq] at hother'
    exact snd_ne_of_mem_rolePermissions hseeded hfresh hpair hother'
  refine ⟨?_, hnodup, hids⟩
  have hpairs := insertAll_pairs hnodup
  rw [auditPairs] at hpairs
  simp only [createAuditEvents, isSome_createTable _ hevents, hrbac, hinsert,
    Option.bind_eq_bind, Option.bind_some, hpairs]
  rfl

end Audit

theorem createAuditEvents_sound : createAuditEvents.Sound 3 where
  up schema draw h hfresh := by
    obtain ⟨users, husers⟩ := Option.isSome_iff_exists.mp h.users
    obtain ⟨⟨roles, tables⟩, hrbac⟩ := Option.isSome_iff_exists.mp h.rbac
    have hseeded := h.seeded users roles tables husers hrbac
    have hnew := hfresh.permissions roles tables hrbac
    obtain ⟨hup, hpairs, hids⟩ := createAuditEvents_up schema hseeded h.auditEvents hrbac
      hfresh.distinct hnew
    refine ⟨_, hup, ?_, ?_⟩
    · refine { h with auditEvents := rfl, rbac := rfl, seeded := ?_ }
      intro users' roles' tables' husers' heq
      rw [show schema.users = some users' from husers', Option.some.injEq] at husers
      cases heq
      subst husers
      have hseeds : (tables.permissions ++ permissionRows draw [auditSeed]).map seedOf =
          permissionSeeds ++ [auditSeed] := by
        rw [List.map_append, map_seedOf_permissionRows,
          show tables.permissions.map seedOf = permissionSeeds from hseeded.permissions]
      refine ⟨?_, hseeded.roles, hseeds⟩
      have hnames : ((tables.permissions ++ permissionRows draw [auditSeed]).map
          Permission.name).Nodup := by
        have hnames := congrArg (List.map PermissionSeed.name) hseeds
        rw [List.map_map] at hnames
        rw [show Permission.name = PermissionSeed.name ∘ seedOf from rfl, hnames]
        decide
      refine { hseeded.consistent with
        permissions := hids
        permissionNames := hnames
        rolePermissions := hpairs
        rolePermissions_known := ?_ }
      intro pair hpair
      rcases List.mem_append.mp hpair with hold | hadded
      · have hknown := hseeded.consistent.rolePermissions_known pair hold
        rw [Contents.knowsRolePermission, Bool.and_eq_true] at hknown ⊢
        refine ⟨hknown.1, ?_⟩
        rw [List.any_append, show (tables.permissions.any fun permission =>
          decide (permission.id = pair.2)) = true from hknown.2, Bool.true_or]
      · exact knows_joinPairs (fun _ h => h) (fun _ h => h) pair hadded
    · simp only [createAuditEvents, Option.bind_eq_bind, Option.bind_some,
        deletePermission_added hseeded hnew]
      rw [← hrbac, ← eq_none_of_isSome h.auditEvents]
  down schema h := by
    obtain ⟨users, husers⟩ := Option.isSome_iff_exists.mp h.users
    obtain ⟨⟨roles, tables⟩, hrbac⟩ := Option.isSome_iff_exists.mp h.rbac
    obtain ⟨events, hevents⟩ := Option.isSome_iff_exists.mp h.auditEvents
    have hseeded := h.seeded users roles tables husers hrbac
    refine ⟨{ schema with
      auditEvents := none
      rbac := some (roles, deletePermission "audit:read" tables) }, ?_, ?_⟩
    · simp only [createAuditEvents, hrbac, hevents, Option.bind_eq_bind, Option.bind_some]
    · refine { h with auditEvents := rfl, rbac := rfl, seeded := ?_ }
      intro users' roles' tables' husers' heq
      rw [show schema.users = some users' from husers', Option.some.injEq] at husers
      cases heq
      subst husers
      refine ⟨?_, hseeded.roles, ?_⟩
      · refine { hseeded.consistent with
          permissions := Table.nodup_map_deleteWhere hseeded.consistent.permissions
          permissionNames := Table.nodup_map_deleteWhere hseeded.consistent.permissionNames
          rolePermissions := hseeded.consistent.rolePermissions.sublist
            (Table.deleteWhere_sublist _ _)
          rolePermissions_known := ?_ }
        intro pair hpair
        obtain ⟨hold, hkept⟩ := Table.mem_deleteWhere.mp hpair
        have hknown := hseeded.consistent.rolePermissions_known pair hold
        rw [Contents.knowsRolePermission, Bool.and_eq_true, List.any_eq_true, List.any_eq_true]
          at hknown ⊢
        obtain ⟨hrole, permission, hpermission, hid⟩ := hknown
        refine ⟨hrole, permission, Table.mem_deleteWhere.mpr ⟨hpermission, ?_⟩, hid⟩
        -- Otherwise the pair would be gone with its permission.
        by_contra hname
        rw [Bool.not_eq_false] at hname
        rw [List.any_eq_false] at hkept
        exact hkept permission hpermission (by rw [hname, hid]; rfl)
      · show (tables.permissions.filter fun permission =>
          !decide (permission.name = "audit:read")).map seedOf = permissionSeeds
        have hfilter : (tables.permissions.filter fun permission =>
            !decide (permission.name = "audit:read")).map seedOf =
              (tables.permissions.map seedOf).filter fun seed =>
                !decide (seed.name = "audit:read") := by
          rw [List.filter_map]
          rfl
        rw [hfilter, show tables.permissions.map seedOf = permissionSeeds ++ [auditSeed] from
          hseeded.permissions]
        decide

theorem createAuthSessions_sound : createAuthSessions.Sound 4 where
  up schema draw h _ := by
    obtain ⟨users, husers⟩ := Option.isSome_iff_exists.mp h.users
    have hcreate := isSome_createTable ([] : List Sessions.Row) h.authSessions
    refine ⟨{ schema with authSessions := some [] }, ?_, ?_, ?_⟩
    · simp [createAuthSessions, husers, hcreate]
    · refine { h with authSessions := rfl, seeded := ?_ }
      intro users' roles tables husers' hrbac
      have hseeded := h.seeded users' roles tables husers' hrbac
      exact ⟨hseeded.consistent, hseeded.roles, hseeded.permissions⟩
    · simp only [createAuthSessions, Option.bind_eq_bind, Option.bind_some]
      rw [← eq_none_of_isSome h.authSessions]
  down schema h := by
    obtain ⟨sessions, hsessions⟩ := Option.isSome_iff_exists.mp h.authSessions
    refine ⟨{ schema with authSessions := none }, by simp [createAuthSessions, hsessions], ?_⟩
    refine { h with authSessions := rfl, seeded := ?_ }
    intro users' roles tables husers' hrbac
    have hseeded := h.seeded users' roles tables husers' hrbac
    exact ⟨hseeded.consistent, hseeded.roles, hseeded.permissions⟩

theorem createIdempotencyRecords_sound : createIdempotencyRecords.Sound 5 where
  up schema draw h _ := by
    have hcreate := isSome_createTable ([] : List Idempotency.Row) h.idempotencyRecords
    refine ⟨{ schema with idempotencyRecords := some [] }, ?_, ?_, ?_⟩
    · simp [createIdempotencyRecords, hcreate]
    · refine { h with idempotencyRecords := rfl, seeded := ?_ }
      intro users' roles tables husers' hrbac
      have hseeded := h.seeded users' roles tables husers' hrbac
      exact ⟨hseeded.consistent, hseeded.roles, hseeded.permissions⟩
    · simp only [createIdempotencyRecords, Option.bind_eq_bind, Option.bind_some]
      rw [← eq_none_of_isSome h.idempotencyRecords]
  down schema h := by
    obtain ⟨records, hrecords⟩ := Option.isSome_iff_exists.mp h.idempotencyRecords
    refine ⟨{ schema with idempotencyRecords := none },
      by simp [createIdempotencyRecords, hrecords], ?_⟩
    refine { h with idempotencyRecords := rfl, seeded := ?_ }
    intro users' roles tables husers' hrbac
    have hseeded := h.seeded users' roles tables husers' hrbac
    exact ⟨hseeded.consistent, hseeded.roles, hseeded.permissions⟩

/-- Each file fits the version it is for. -/
theorem migrations_sound {version : Nat} {migration : Migration}
    (hget : migrations[version]? = some migration) : migration.Sound version := by
  match version with
  | 0 => cases hget; exact createUsers_sound
  | 1 => cases hget; exact createRbac_sound
  | 2 => cases hget; exact seedRbac_sound
  | 3 => cases hget; exact createAuditEvents_sound
  | 4 => cases hget; exact createAuthSessions_sound
  | 5 => cases hget; exact createIdempotencyRecords_sound
  | version + 6 => cases hget

end Files

/-! ## Use -/

section Use

variable {version : Nat} {schema : Schema} {contents contents' : Contents}

/-- What a statement of a server may do to users, roles and permissions. -/
structure Keeps (contents contents' : Contents) : Prop where
  consistent : contents.Consistent → contents'.Consistent
  users : contents'.users = contents.users
  roles : contents'.roles = contents.roles
  permissions : contents'.tables.permissions = contents.tables.permissions

theorem keeps_step (contents : Contents) (attempt : Attempt) :
    Keeps contents (contents.step attempt) := by
  rcases step_cases contents attempt with ⟨-, hstep⟩ | ⟨pair, present, -, hchanges⟩
  · rw [hstep]
    exact ⟨id, rfl, rfl, rfl⟩
  · exact ⟨hchanges.consistent, hchanges.users, hchanges.roles, hchanges.permissions⟩

theorem keeps_grantSuperAdmin (contents : Contents) (email : String) :
    Keeps contents ((grantSuperAdmin contents email).getD contents) := by
  cases hgrant : grantSuperAdmin contents email with
  | none => exact ⟨id, rfl, rfl, rfl⟩
  | some contents' =>
      have hpromotes := grantSuperAdmin_promotes hgrant
      exact ⟨hpromotes.consistent, hpromotes.users, hpromotes.roles, hpromotes.permissions⟩

theorem WellFormed.withContents {act : Contents → Contents}
    (hact : ∀ contents, Keeps contents (act contents)) (h : WellFormed version schema) :
    WellFormed version (schema.withContents act) := by
  unfold Schema.withContents
  split
  · next users roles tables husers hrbac =>
      have hkeeps := hact ⟨users, roles, tables⟩
      have hrbac' : (some ((act ⟨users, roles, tables⟩).roles,
          (act ⟨users, roles, tables⟩).tables)).isSome = decide (2 ≤ version) := by
        rw [← h.rbac, hrbac]
        rfl
      have husers' : (some (act ⟨users, roles, tables⟩).users).isSome = decide (1 ≤ version) := by
        rw [← h.users, husers]
        rfl
      refine { h with users := husers', rbac := hrbac', unclashing := ?_, seeded := ?_ }
      · intro users' heq
        cases heq
        rw [hkeeps.users]
        exact h.unclashing users husers
      · intro users' roles' tables' heq heq'
        cases heq
        cases heq'
        have hseeded := h.seeded users roles tables husers hrbac
        refine ⟨hkeeps.consistent hseeded.consistent, ?_, ?_⟩
        · rw [show (act ⟨users, roles, tables⟩).roles = roles from hkeeps.roles]
          exact hseeded.roles
        · rw [show (act ⟨users, roles, tables⟩).tables.permissions = tables.permissions from
            hkeeps.permissions]
          exact hseeded.permissions
  · exact h

/-- The users stay, or one is added that clashes with none. -/
theorem WellFormed.withUsers {act : List User → List User}
    (hact : ∀ users, act users = users ∨ ∃ row, act users = users ++ [row] ∧
      ∀ other ∈ users, row.clashes other = false) (h : WellFormed version schema) :
    WellFormed version (schema.withUsers act) := by
  have hsome : (schema.users.map act).isSome = decide (1 ≤ version) := by
    rw [Option.isSome_map]
    exact h.users
  refine { h with users := hsome, unclashing := ?_, seeded := ?_ }
  · intro users' heq
    obtain ⟨users, husers, rfl⟩ := Option.map_eq_some_iff.mp heq
    rcases hact users with hsame | ⟨row, hrow, hclash⟩
    · rw [hsame]
      exact h.unclashing users husers
    · rw [hrow]
      exact unclashing_append (h.unclashing users husers) hclash
  · intro users' roles tables heq hrbac
    obtain ⟨users, husers, rfl⟩ := Option.map_eq_some_iff.mp heq
    have hseeded := h.seeded users roles tables husers hrbac
    rcases hact users with hsame | ⟨row, hrow, hclash⟩
    · rw [hsame]
      exact hseeded
    · rw [hrow]
      refine ⟨?_, hseeded.roles, hseeded.permissions⟩
      refine consistent_setUsers hseeded.consistent ?_ fun user huser =>
        List.mem_append_left _ huser
      apply Table.nodup_map_append hseeded.consistent.users
      exact fun other hother => id_ne_of_clashes (hclash other hother)

/-- The servers stay within a version. -/
theorem WellFormed.exec (h : WellFormed version schema) (use : Use) :
    WellFormed version (use.exec schema) := by
  cases use with
  | createUser user =>
      refine h.withUsers fun users => ?_
      cases hcreate : create users user with
      | error err => exact Or.inl rfl
      | ok users' =>
          obtain ⟨row, -, hrow, hclash⟩ := create_eq_ok_iff_append hcreate
          exact Or.inr ⟨row, hrow, hclash⟩
  | insertAdmin user =>
      refine h.withUsers fun users => ?_
      cases hinsert : insertAdmin users user with
      | none => exact Or.inl rfl
      | some users' =>
          obtain ⟨row, -, ⟨hsame, -⟩ | ⟨hrow, hclash⟩⟩ := insertAdmin_cases hinsert
          · exact Or.inl hsame
          · exact Or.inr ⟨row, hrow, hclash⟩
  | grantSuperAdmin email => exact h.withContents fun contents => keeps_grantSuperAdmin contents email
  | assignment attempt => exact h.withContents fun contents => keeps_step contents attempt
  | auditEvents rows => exact { h with auditEvents := (Option.isSome_map ..).trans h.auditEvents }
  | authSessions rows => exact { h with authSessions := (Option.isSome_map ..).trans h.authSessions }
  | idempotencyRecords rows =>
      exact { h with idempotencyRecords := (Option.isSome_map ..).trans h.idempotencyRecords }

end Use

/-! ## Runs -/

/-- What holds at any time. -/
structure Migrated (s : State) : Prop where
  clean : s.dirty = false
  version : s.version ≤ migrations.length
  wellFormed : WellFormed s.version s.schema

theorem wellFormed_empty : WellFormed 0 .empty where
  users := rfl
  rbac := rfl
  auditEvents := rfl
  authSessions := rfl
  idempotencyRecords := rfl
  unclashing _ heq := by cases heq
  seeded _ _ _ heq := by cases heq

theorem Migrated.next {s t : State} {label : Label} (h : Migrated s) (hfresh : DrawsFresh s label)
    (hnext : system.next s label = some t) : Migrated t := by
  cases label with
  | use use =>
      cases hnext
      exact ⟨h.clean, h.version, h.wellFormed.exec use⟩
  | up draw =>
      simp only [system, h.clean, Bool.false_eq_true, if_false, Option.map_eq_some_iff] at hnext
      obtain ⟨migration, hget, rfl⟩ := hnext
      obtain ⟨schema', hup, hwell, -⟩ :=
        (migrations_sound hget).up s.schema draw h.wellFormed hfresh
      rw [hup]
      exact ⟨rfl, (List.getElem?_eq_some_iff.mp hget).1, hwell⟩
  | down =>
      obtain ⟨version, dirty, schema⟩ := s
      obtain rfl : dirty = false := h.clean
      cases version with
      | zero => cases hnext
      | succ version =>
          simp only [system, Bool.false_eq_true, if_false, Option.map_eq_some_iff] at hnext
          obtain ⟨migration, hget, rfl⟩ := hnext
          obtain ⟨schema', hdown, hwell⟩ := (migrations_sound hget).down schema h.wellFormed
          rw [hdown]
          exact ⟨rfl, Nat.le_of_succ_le h.version, hwell⟩

theorem migrated_of_reachable {s : State} (hreach : system.ReachableBy DrawsFresh s) :
    Migrated s := by
  refine hreach.invariant ?_ fun s label t _ h hfresh hnext => h.next hfresh hnext
  rintro s rfl
  exact ⟨rfl, Nat.zero_le _, wellFormed_empty⟩

/-- The draws of a run of files are new, file by file. -/
def DrawsFreshFrom : State → List Draw → Prop
  | _, [] => True
  | s, draw :: rest => Fresh draw s.schema ∧
      ∀ t, system.next s (.up draw) = some t → DrawsFreshFrom t rest

/-- Ids for every file. -/
def sampleDraws (k n : Nat) : UUID := .ofNat (100 * k + n)

/-- The last three digits tell small numbers apart. -/
theorem ofNat_inj {m n : Nat} (hm : m < 4096) (hn : n < 4096) (heq : UUID.ofNat m = .ofNat n) :
    m = n := by
  rw [UUID.ofNat, UUID.ofNat, UUID.mk.injEq] at heq
  have hdigits := List.ofFn_injective heq
  have hlast := congrArg Fin.val (congrFun hdigits 31)
  have hsecond := congrArg Fin.val (congrFun hdigits 30)
  have hthird := congrArg Fin.val (congrFun hdigits 29)
  simp only [Nat.shiftRight_eq_div_pow] at hlast hsecond hthird
  simp at hlast hsecond hthird
  omega

theorem sampleDraws_inj {k l m n : Nat} (hk : k < 6) (hl : l < 6) (hm : m < drawn) (hn : n < drawn)
    (heq : sampleDraws k m = sampleDraws l n) : k = l ∧ m = n := by
  have hdrawn : drawn = 11 := rfl
  have hnumber := ofNat_inj (by omega) (by omega) heq
  omega

theorem distinct_sampleDraws : ∀ k < 6, Distinct (sampleDraws k) := by
  intro k hk m hm n hn heq
  exact (sampleDraws_inj hk hk hm hn heq).2

theorem drawsFreshFrom_sampleDraws :
    DrawsFreshFrom ⟨0, false, .empty⟩ [sampleDraws 0, sampleDraws 1, sampleDraws 2] := by
  refine ⟨⟨distinct_sampleDraws 0 (by decide), fun _ _ h => by cases h⟩, ?_⟩
  intro t hnext
  cases hnext
  refine ⟨⟨distinct_sampleDraws 1 (by decide), fun _ _ h => by cases h⟩, ?_⟩
  intro t hnext
  cases hnext
  refine ⟨⟨distinct_sampleDraws 2 (by decide), ?_⟩, fun _ _ => trivial⟩
  intro roles tables h permission hpermission
  cases h
  cases hpermission

/-- The first three files on an empty database. -/
theorem run_sampleDraws : ∃ t, system.run ⟨0, false, .empty⟩
    ([sampleDraws 0, sampleDraws 1, sampleDraws 2].map .up) = some t ∧ t.version = 3 := by
  have hsome : (system.run ⟨0, false, .empty⟩
      ([sampleDraws 0, sampleDraws 1, sampleDraws 2].map .up)).any (fun t => t.version = 3) = true := by
    decide +kernel
  cases hrun : system.run ⟨0, false, .empty⟩
      ([sampleDraws 0, sampleDraws 1, sampleDraws 2].map .up) with
  | none =>
      rw [hrun] at hsome
      cases hsome
  | some t =>
      rw [hrun] at hsome
      exact ⟨t, rfl, of_decide_eq_true hsome⟩

/-- Files that were executed one after the other, on a database in any state that
migrations and use have led to, can be taken back, and what was there is restored. -/
theorem ups_are_taken_back (s t : State) (hreach : system.ReachableBy DrawsFresh s)
    (draws : List Draw) (hfresh : DrawsFreshFrom s draws)
    (hrun : system.run s (draws.map .up) = some t) :
    system.run t (List.replicate draws.length .down) = some s := by
  induction draws generalizing s with
  | nil =>
      rw [List.map_nil, System.run_nil, Option.some.injEq] at hrun
      rw [← hrun]
      rfl
  | cons draw rest ih =>
      rw [List.map_cons, System.run_cons, Option.bind_eq_some_iff] at hrun
      obtain ⟨mid, hnext, hrest⟩ := hrun
      have h := migrated_of_reachable hreach
      have hmid := ih mid (hreach.step (a := .up draw) hfresh.1 hnext) (hfresh.2 mid hnext) hrest
      have hback : system.next mid .down = some s := by
        simp only [system, h.clean, Bool.false_eq_true, if_false, Option.map_eq_some_iff] at hnext
        obtain ⟨migration, hget, rfl⟩ := hnext
        obtain ⟨schema', hup, -, hdown⟩ :=
          (migrations_sound hget).up s.schema draw h.wellFormed hfresh.1
        obtain ⟨version, dirty, schema⟩ := s
        obtain rfl : dirty = false := h.clean
        rw [hup]
        simp only [system, State.migrated, Bool.false_eq_true, if_false, hget, Option.map_some,
          hdown]
      rw [List.length_cons, List.replicate_succ', System.run_append, hmid, Option.bind_some,
        System.run_cons, hback]
      rfl

theorem ups_are_taken_back_sampleDraws :
    ∃ t, t.version = 3 ∧ system.run t (List.replicate 3 .down) = some ⟨0, false, .empty⟩ := by
  obtain ⟨t, hrun, hversion⟩ := run_sampleDraws
  exact ⟨t, hversion, ups_are_taken_back _ t (.init rfl) _ drawsFreshFrom_sampleDraws hrun⟩

end GoFoundation.Migrations
