/-
# Assignments

The calls that change who has which role and which role carries which permission,
`AuthHandler.Me`, and what follows for a user after any sequence of such calls.

Both relations are tables of pairs.  A pair is inserted with `ON CONFLICT DO NOTHING`
and deleted whether it is there or not, so the only calls that fail are those with an
id that is no UUID or names nothing, and those that the database refuses.
-/

import GoFoundation.Library.LastWrite
import GoFoundation.Library.Table
import GoFoundation.Server.Chain

namespace GoFoundation.Rbac

open Postgres Grpc Users Server Library

/-! ## Tables -/

/-- `rbac.Role`, and a row of `roles`. -/
structure Role where
  id : UUID
  name : String
  description : String
  deriving DecidableEq, Repr

/-- The tables that the repository and `Me` read. -/
structure Contents where
  users : List User
  roles : List Role
  tables : Tables

namespace Contents

/-- Both references of a row of `user_roles` exist. -/
def knowsUserRole (contents : Contents) (pair : UUID × UUID) : Bool :=
  (contents.users.any fun user => user.id = pair.1) &&
    contents.roles.any fun role => role.id = pair.2

/-- Both references of a row of `role_permissions` exist. -/
def knowsRolePermission (contents : Contents) (pair : UUID × UUID) : Bool :=
  (contents.roles.any fun role => role.id = pair.1) &&
    contents.tables.permissions.any fun permission => permission.id = pair.2

/-- The keys and references that the migrations declare. -/
structure Consistent (contents : Contents) : Prop where
  users : (contents.users.map User.id).Nodup
  roles : (contents.roles.map Role.id).Nodup
  roleNames : (contents.roles.map Role.name).Nodup
  permissions : (contents.tables.permissions.map Permission.id).Nodup
  permissionNames : (contents.tables.permissions.map Permission.name).Nodup
  userRoles : contents.tables.userRoles.Nodup
  rolePermissions : contents.tables.rolePermissions.Nodup
  userRoles_known : ∀ pair ∈ contents.tables.userRoles, contents.knowsUserRole pair = true
  rolePermissions_known : ∀ pair ∈ contents.tables.rolePermissions,
    contents.knowsRolePermission pair = true

/-- The contents with another table `user_roles`. -/
def setUserRoles (contents : Contents) (pairs : List (UUID × UUID)) : Contents :=
  { contents with tables := { contents.tables with userRoles := pairs } }

/-- The contents with another table `role_permissions`. -/
def setRolePermissions (contents : Contents) (pairs : List (UUID × UUID)) : Contents :=
  { contents with tables := { contents.tables with rolePermissions := pairs } }

end Contents

/-- Contents that satisfy the constraints. -/
structure Database where
  contents : Contents
  consistent : contents.Consistent

/-! ## Calls -/

/-- `INSERT … ON CONFLICT DO NOTHING` into a table of pairs of references; `none` is an
error. -/
def insertPair (known : UUID × UUID → Bool) (first second : String) (pairs : List (UUID × UUID)) :
    Option (List (UUID × UUID)) := do
  let first ← UUID.parse first
  let second ← UUID.parse second
  if (first, second) ∈ pairs then some pairs
  else if known (first, second) then some (pairs ++ [(first, second)])
  else none

/-- `DELETE` from a table of pairs; `none` is an error. -/
def deletePair (first second : String) (pairs : List (UUID × UUID)) :
    Option (List (UUID × UUID)) := do
  let first ← UUID.parse first
  let second ← UUID.parse second
  some (Table.deleteWhere (fun pair => pair = (first, second)) pairs)

/-- `RBACRepository.AssignRole`. -/
def assignRole (contents : Contents) (userID roleID : String) : Option Contents :=
  (insertPair contents.knowsUserRole userID roleID contents.tables.userRoles).map
    contents.setUserRoles

/-- `RBACRepository.RemoveRole`. -/
def removeRole (contents : Contents) (userID roleID : String) : Option Contents :=
  (deletePair userID roleID contents.tables.userRoles).map contents.setUserRoles

/-- `RBACRepository.AssignPermissionToRole`. -/
def assignPermissionToRole (contents : Contents) (roleID permissionID : String) :
    Option Contents :=
  (insertPair contents.knowsRolePermission roleID permissionID
    contents.tables.rolePermissions).map contents.setRolePermissions

/-- `RBACRepository.RemovePermissionFromRole`. -/
def removePermissionFromRole (contents : Contents) (roleID permissionID : String) :
    Option Contents :=
  (deletePair roleID permissionID contents.tables.rolePermissions).map contents.setRolePermissions

/-- A call of the service. -/
inductive Call
  | assignRole (userID roleID : String)
  | removeRole (userID roleID : String)
  | assignPermissionToRole (roleID permissionID : String)
  | removePermissionFromRole (roleID permissionID : String)
  deriving DecidableEq, Repr

/-- The contents after a call; `none` is an error, and nothing is changed. -/
def Call.exec (contents : Contents) : Call → Option Contents
  | assignRole userID roleID => Rbac.assignRole contents userID roleID
  | removeRole userID roleID => Rbac.removeRole contents userID roleID
  | assignPermissionToRole roleID permissionID =>
      Rbac.assignPermissionToRole contents roleID permissionID
  | removePermissionFromRole roleID permissionID =>
      Rbac.removePermissionFromRole contents roleID permissionID

/-- A call, and whether the database fails it. -/
structure Attempt where
  call : Call
  fails : Bool
  deriving DecidableEq, Repr

/-- The outcome of an attempt. -/
def Attempt.exec (contents : Contents) (attempt : Attempt) : Option Contents :=
  if attempt.fails then none else attempt.call.exec contents

/-- The contents after an attempt, which a failed one leaves as they are. -/
def Contents.step (contents : Contents) (attempt : Attempt) : Contents :=
  (attempt.exec contents).getD contents

/-- A row of one of the two relations. -/
inductive Pair
  | userRole (user role : UUID)
  | rolePermission (role permission : UUID)
  deriving DecidableEq, Repr

/-- The row is there. -/
def Contents.has (contents : Contents) : Pair → Bool
  | .userRole user role => (user, role) ∈ contents.tables.userRoles
  | .rolePermission role permission => (role, permission) ∈ contents.tables.rolePermissions

/-- The row that a call is about, and whether the call assigns. -/
def Call.target : Call → Option (Pair × Bool)
  | assignRole userID roleID => do
      some (.userRole (← UUID.parse userID) (← UUID.parse roleID), true)
  | removeRole userID roleID => do
      some (.userRole (← UUID.parse userID) (← UUID.parse roleID), false)
  | assignPermissionToRole roleID permissionID => do
      some (.rolePermission (← UUID.parse roleID) (← UUID.parse permissionID), true)
  | removePermissionFromRole roleID permissionID => do
      some (.rolePermission (← UUID.parse roleID) (← UUID.parse permissionID), false)

/-- The row that an attempt is about, if it succeeds. -/
def Attempt.write (contents : Contents) (attempt : Attempt) : Option (Pair × Bool) :=
  (attempt.exec contents).bind fun _ => attempt.call.target

/-- The successful calls of a run, in order. -/
def Contents.successes : Contents → List Attempt → List (Pair × Bool) :=
  LastWrite.writes step fun contents attempt => attempt.write contents

/-! ## One call -/

theorem insertPair_eq_some {known : UUID × UUID → Bool} {first second : String}
    {pairs pairs' : List (UUID × UUID)} (h : insertPair known first second pairs = some pairs') :
    ∃ a b, UUID.parse first = some a ∧ UUID.parse second = some b ∧
      ((a, b) ∈ pairs ∨ known (a, b) = true) ∧
      (∀ pair, pair ∈ pairs' ↔ pair = (a, b) ∨ pair ∈ pairs) ∧ (pairs.Nodup → pairs'.Nodup) := by
  simp only [insertPair, Option.bind_eq_bind, Option.bind_eq_some_iff] at h
  obtain ⟨a, ha, b, hb, h⟩ := h
  refine ⟨a, b, ha, hb, ?_⟩
  by_cases hmem : (a, b) ∈ pairs
  · rw [if_pos hmem] at h
    cases h
    refine ⟨Or.inl hmem, ?_, id⟩
    intro pair
    exact ⟨Or.inr, fun h => h.elim (fun heq => heq ▸ hmem) id⟩
  · rw [if_neg hmem, Option.ite_none_right_eq_some] at h
    obtain ⟨hknown, heq⟩ := h
    cases heq
    refine ⟨Or.inr hknown, ?_, ?_⟩
    · intro pair
      rw [List.mem_append, List.mem_singleton, or_comm]
    · intro hnodup
      exact List.nodup_append.mpr ⟨hnodup, List.nodup_singleton _, fun pair hpair other hother =>
        fun heq => hmem (List.mem_singleton.mp hother ▸ heq ▸ hpair)⟩

theorem deletePair_eq_some {first second : String} {pairs pairs' : List (UUID × UUID)}
    (h : deletePair first second pairs = some pairs') :
    ∃ a b, UUID.parse first = some a ∧ UUID.parse second = some b ∧
      (∀ pair, pair ∈ pairs' ↔ pair ≠ (a, b) ∧ pair ∈ pairs) ∧ (pairs.Nodup → pairs'.Nodup) := by
  simp only [deletePair, Option.bind_eq_bind, Option.bind_eq_some_iff, Option.some.injEq] at h
  obtain ⟨a, ha, b, hb, rfl⟩ := h
  refine ⟨a, b, ha, hb, ?_, fun hnodup => hnodup.sublist (Table.deleteWhere_sublist _ _)⟩
  intro pair
  rw [Table.mem_deleteWhere, decide_eq_false_iff_not, and_comm]

namespace Contents

variable {contents contents' : Contents} {pairs : List (UUID × UUID)}

theorem Consistent.setUserRoles (hcontents : contents.Consistent) (hnodup : pairs.Nodup)
    (hknown : ∀ pair ∈ pairs, contents.knowsUserRole pair = true) :
    (contents.setUserRoles pairs).Consistent :=
  { hcontents with userRoles := hnodup, userRoles_known := hknown }

theorem Consistent.setRolePermissions (hcontents : contents.Consistent) (hnodup : pairs.Nodup)
    (hknown : ∀ pair ∈ pairs, contents.knowsRolePermission pair = true) :
    (contents.setRolePermissions pairs).Consistent :=
  { hcontents with rolePermissions := hnodup, rolePermissions_known := hknown }

/-- What a successful call does: it makes one row present or absent. -/
structure Changes (contents contents' : Contents) (pair : Pair) (present : Bool) : Prop where
  has : ∀ other, contents'.has other = if other = pair then present else contents.has other
  users : contents'.users = contents.users
  roles : contents'.roles = contents.roles
  permissions : contents'.tables.permissions = contents.tables.permissions
  consistent : contents.Consistent → contents'.Consistent

theorem has_userRole {user role : UUID} :
    contents.has (.userRole user role) = true ↔ (user, role) ∈ contents.tables.userRoles :=
  decide_eq_true_iff

theorem has_rolePermission {role permission : UUID} :
    contents.has (.rolePermission role permission) = true ↔
      (role, permission) ∈ contents.tables.rolePermissions :=
  decide_eq_true_iff

/-- A new table `user_roles` with one row made present or absent. -/
theorem changes_setUserRoles {user role : UUID} {present : Bool}
    (hmem : ∀ pair, pair ∈ pairs ↔
      if pair = (user, role) then present = true else pair ∈ contents.tables.userRoles)
    (hconsistent : contents.Consistent → (contents.setUserRoles pairs).Consistent) :
    Changes contents (contents.setUserRoles pairs) (.userRole user role) present := by
  refine ⟨?_, rfl, rfl, rfl, hconsistent⟩
  intro other
  cases other with
  | rolePermission role' permission => rfl
  | userRole user' role' =>
      rw [Bool.eq_iff_iff, has_userRole]
      show (user', role') ∈ pairs ↔ _
      simp only [hmem, Prod.mk.injEq, Pair.userRole.injEq]
      split
      · rfl
      · rw [has_userRole]

/-- A new table `role_permissions` with one row made present or absent. -/
theorem changes_setRolePermissions {role permission : UUID} {present : Bool}
    (hmem : ∀ pair, pair ∈ pairs ↔
      if pair = (role, permission) then present = true else pair ∈ contents.tables.rolePermissions)
    (hconsistent : contents.Consistent → (contents.setRolePermissions pairs).Consistent) :
    Changes contents (contents.setRolePermissions pairs) (.rolePermission role permission)
      present := by
  refine ⟨?_, rfl, rfl, rfl, hconsistent⟩
  intro other
  cases other with
  | userRole user role' => rfl
  | rolePermission role' permission' =>
      rw [Bool.eq_iff_iff, has_rolePermission]
      show (role', permission') ∈ pairs ↔ _
      simp only [hmem, Prod.mk.injEq, Pair.rolePermission.injEq]
      split
      · rfl
      · rw [has_rolePermission]

end Contents

open Contents

theorem mem_ite_true {pair target : UUID × UUID} {pairs : List (UUID × UUID)} :
    (if pair = target then true = true else pair ∈ pairs) ↔ pair = target ∨ pair ∈ pairs := by
  split <;> simp_all

theorem mem_ite_false {pair target : UUID × UUID} {pairs : List (UUID × UUID)} :
    (if pair = target then false = true else pair ∈ pairs) ↔ pair ≠ target ∧ pair ∈ pairs := by
  split <;> simp_all

theorem assignRole_changes {contents contents' : Contents} {userID roleID : String}
    (h : assignRole contents userID roleID = some contents') :
    ∃ user role, UUID.parse userID = some user ∧ UUID.parse roleID = some role ∧
      Changes contents contents' (.userRole user role) true := by
  obtain ⟨pairs, hinsert, rfl⟩ := Option.map_eq_some_iff.mp h
  obtain ⟨user, role, huser, hrole, hknown, hmem, hnodup⟩ := insertPair_eq_some hinsert
  refine ⟨user, role, huser, hrole, changes_setUserRoles ?_ ?_⟩
  · intro pair
    rw [hmem, mem_ite_true]
  · intro hcontents
    apply hcontents.setUserRoles (hnodup hcontents.userRoles)
    intro pair hpair
    rcases (hmem pair).mp hpair with rfl | hold
    · exact hknown.elim (hcontents.userRoles_known _) id
    · exact hcontents.userRoles_known pair hold

theorem removeRole_changes {contents contents' : Contents} {userID roleID : String}
    (h : removeRole contents userID roleID = some contents') :
    ∃ user role, UUID.parse userID = some user ∧ UUID.parse roleID = some role ∧
      Changes contents contents' (.userRole user role) false := by
  obtain ⟨pairs, hdelete, rfl⟩ := Option.map_eq_some_iff.mp h
  obtain ⟨user, role, huser, hrole, hmem, hnodup⟩ := deletePair_eq_some hdelete
  refine ⟨user, role, huser, hrole, changes_setUserRoles ?_ ?_⟩
  · intro pair
    rw [hmem, mem_ite_false]
  · intro hcontents
    apply hcontents.setUserRoles (hnodup hcontents.userRoles)
    intro pair hpair
    exact hcontents.userRoles_known pair ((hmem pair).mp hpair).2

theorem assignPermissionToRole_changes {contents contents' : Contents}
    {roleID permissionID : String}
    (h : assignPermissionToRole contents roleID permissionID = some contents') :
    ∃ role permission, UUID.parse roleID = some role ∧ UUID.parse permissionID = some permission ∧
      Changes contents contents' (.rolePermission role permission) true := by
  obtain ⟨pairs, hinsert, rfl⟩ := Option.map_eq_some_iff.mp h
  obtain ⟨role, permission, hrole, hpermission, hknown, hmem, hnodup⟩ := insertPair_eq_some hinsert
  refine ⟨role, permission, hrole, hpermission, changes_setRolePermissions ?_ ?_⟩
  · intro pair
    rw [hmem, mem_ite_true]
  · intro hcontents
    apply hcontents.setRolePermissions (hnodup hcontents.rolePermissions)
    intro pair hpair
    rcases (hmem pair).mp hpair with rfl | hold
    · exact hknown.elim (hcontents.rolePermissions_known _) id
    · exact hcontents.rolePermissions_known pair hold

theorem removePermissionFromRole_changes {contents contents' : Contents}
    {roleID permissionID : String}
    (h : removePermissionFromRole contents roleID permissionID = some contents') :
    ∃ role permission, UUID.parse roleID = some role ∧ UUID.parse permissionID = some permission ∧
      Changes contents contents' (.rolePermission role permission) false := by
  obtain ⟨pairs, hdelete, rfl⟩ := Option.map_eq_some_iff.mp h
  obtain ⟨role, permission, hrole, hpermission, hmem, hnodup⟩ := deletePair_eq_some hdelete
  refine ⟨role, permission, hrole, hpermission, changes_setRolePermissions ?_ ?_⟩
  · intro pair
    rw [hmem, mem_ite_false]
  · intro hcontents
    apply hcontents.setRolePermissions (hnodup hcontents.rolePermissions)
    intro pair hpair
    exact hcontents.rolePermissions_known pair ((hmem pair).mp hpair).2

/-- A successful call makes its row present or absent. -/
theorem Call.exec_changes {contents contents' : Contents} {call : Call}
    (h : call.exec contents = some contents') :
    ∃ pair present, call.target = some (pair, present) ∧
      Changes contents contents' pair present := by
  cases call with
  | assignRole userID roleID =>
      obtain ⟨user, role, huser, hrole, hchanges⟩ := assignRole_changes h
      exact ⟨_, _, by simp [target, huser, hrole], hchanges⟩
  | removeRole userID roleID =>
      obtain ⟨user, role, huser, hrole, hchanges⟩ := removeRole_changes h
      exact ⟨_, _, by simp [target, huser, hrole], hchanges⟩
  | assignPermissionToRole roleID permissionID =>
      obtain ⟨role, permission, hrole, hpermission, hchanges⟩ := assignPermissionToRole_changes h
      exact ⟨_, _, by simp [target, hrole, hpermission], hchanges⟩
  | removePermissionFromRole roleID permissionID =>
      obtain ⟨role, permission, hrole, hpermission, hchanges⟩ := removePermissionFromRole_changes h
      exact ⟨_, _, by simp [target, hrole, hpermission], hchanges⟩

/-! ## Runs -/

/-- An attempt changes its row, or nothing. -/
theorem step_cases (contents : Contents) (attempt : Attempt) :
    (attempt.write contents = none ∧ contents.step attempt = contents) ∨
      ∃ pair present, attempt.write contents = some (pair, present) ∧
        Changes contents (contents.step attempt) pair present := by
  cases hexec : attempt.exec contents with
  | none =>
      left
      simp [Attempt.write, Contents.step, hexec]
  | some contents' =>
      right
      have hcall : attempt.call.exec contents = some contents' := by
        unfold Attempt.exec at hexec
        split at hexec
        · cases hexec
        · exact hexec
      obtain ⟨pair, present, htarget, hchanges⟩ := Call.exec_changes hcall
      refine ⟨pair, present, ?_, ?_⟩
      · rw [Attempt.write, hexec]
        exact htarget
      · rw [Contents.step, hexec]
        exact hchanges

/-- The contents after a run. -/
def Contents.run (contents : Contents) (attempts : List Attempt) : Contents :=
  attempts.foldl Contents.step contents

theorem has_step (contents : Contents) (attempt : Attempt) (pair : Pair) :
    (contents.step attempt).has pair =
      (LastWrite.last pair (attempt.write contents).toList).getD (contents.has pair) := by
  rcases step_cases contents attempt with ⟨hwrite, hstep⟩ | ⟨target, present, hwrite, hchanges⟩
  · rw [hwrite, hstep]
    rfl
  · rw [hwrite, hchanges.has, Option.toList_some, LastWrite.last_singleton]
    split <;> rfl

/-- A row is there exactly if the last successful call on it assigned it, or none was
on it and it was there before. -/
theorem has_run (contents : Contents) (attempts : List Attempt) (pair : Pair) :
    (contents.run attempts).has pair =
      (LastWrite.last pair (contents.successes attempts)).getD (contents.has pair) :=
  LastWrite.read_foldl has_step attempts contents pair

theorem Contents.Consistent.step {contents : Contents} (hcontents : contents.Consistent)
    (attempt : Attempt) : (contents.step attempt).Consistent := by
  rcases step_cases contents attempt with ⟨-, hstep⟩ | ⟨target, present, -, hchanges⟩
  · rw [hstep]
    exact hcontents
  · exact hchanges.consistent hcontents

theorem Contents.Consistent.run {contents : Contents} (hcontents : contents.Consistent)
    (attempts : List Attempt) : (contents.run attempts).Consistent := by
  induction attempts generalizing contents with
  | nil => exact hcontents
  | cons attempt rest ih => exact ih (hcontents.step attempt)

/-- The database after a run. -/
def Database.run (db : Database) (attempts : List Attempt) : Database :=
  ⟨db.contents.run attempts, db.consistent.run attempts⟩

/-! ## What a user may do -/

/-- Some role that the user has carries the permission. -/
def Contents.Grants (contents : Contents) (user : UUID) (permission : Permission) : Prop :=
  permission ∈ contents.tables.permissions ∧ ∃ role,
    contents.has (.userRole user role) = true ∧
      contents.has (.rolePermission role permission.id) = true

theorem mem_granted_iff {contents : Contents} {user : UUID} {permission : Permission} :
    permission ∈ contents.tables.granted user ↔ contents.Grants user permission := by
  rw [mem_granted]
  apply Iff.intro
  · intro h
    obtain ⟨role, hassigned, hcarried, hpermission⟩ := h
    exact ⟨hpermission, role, has_userRole.mpr hassigned, has_rolePermission.mpr hcarried⟩
  · intro h
    obtain ⟨hpermission, role, hassigned, hcarried⟩ := h
    exact ⟨role, has_userRole.mp hassigned, has_rolePermission.mp hcarried, hpermission⟩

/-- `Permissions` lists the permissions that the user's roles carry, each once. -/
theorem userPermissions_spec {contents : Contents} (hcontents : contents.Consistent)
    {userID : String} {user : UUID} (hparse : UUID.parse userID = some user) :
    ∃ permissions, userPermissions contents.tables userID = some permissions ∧
      permissions.Nodup ∧ (permissions.map Permission.name).Nodup ∧
      ∀ permission, permission ∈ permissions ↔ contents.Grants user permission := by
  have hperm := List.perm_insertionSort (fun first second : Permission => first.name ≤ second.name)
    (contents.tables.granted user).dedup
  have hnodup := hperm.nodup_iff.mpr (List.nodup_dedup _)
  have hmem : ∀ permission, permission ∈ (contents.tables.granted user).dedup.insertionSort
      (fun first second : Permission => first.name ≤ second.name) ↔
        contents.Grants user permission := by
    intro permission
    rw [hperm.mem_iff, List.mem_dedup, mem_granted_iff]
  refine ⟨_, by rw [userPermissions, hparse]; rfl, hnodup, ?_, hmem⟩
  apply hnodup.map_on
  intro first hfirst second hsecond hname
  exact Table.eq_of_key_eq hcontents.permissionNames ((hmem first).mp hfirst).1
    ((hmem second).mp hsecond).1 hname

/-- `HasPermission` says what the tables say; for an id that is no UUID it fails. -/
theorem hasPermission_iff {contents : Contents} {userID name : String} :
    hasPermission contents.tables userID name = some true ↔
      ∃ user, UUID.parse userID = some user ∧
        ∃ permission, contents.Grants user permission ∧ permission.name = name := by
  cases hparse : UUID.parse userID with
  | none =>
      rw [hasPermission, userPermissions, hparse]
      simp
  | some user =>
      rw [hasPermission_eq_some_true hparse]
      apply Iff.intro
      · intro h
        obtain ⟨role, hassigned, permission, hpermission, hcarried, hname⟩ := h
        exact ⟨user, rfl, permission, mem_granted_iff.mp
          (mem_granted.mpr ⟨role, hassigned, hcarried, hpermission⟩), hname⟩
      · intro h
        obtain ⟨user', heq, permission, hgrants, hname⟩ := h
        cases heq
        obtain ⟨role, hassigned, hcarried, hpermission⟩ := mem_granted.mp
          (mem_granted_iff.mpr hgrants)
        exact ⟨role, hassigned, permission, hpermission, hcarried, hname⟩

/-! ## `Me` -/

/-- `RBACRepository.UserRoles`; an id that is no UUID makes the statement fail. -/
def userRoles (contents : Contents) (userID : String) : Option (List Role) :=
  (UUID.parse userID).map fun id =>
    (contents.tables.userRoles.flatMap fun assigned =>
      if assigned.1 = id then contents.roles.filter fun role => role.id = assigned.2
      else []).insertionSort fun first second => first.name ≤ second.name

/-- Which statements of `Me` the database fails. -/
structure Failures where
  user : Bool
  roles : Bool
  permissions : Bool
  deriving DecidableEq, Repr

/-- `authv1.MeResponse`. -/
structure MeResponse where
  id : String
  name : String
  email : String
  provider : String
  roles : List String
  permissions : List String
  deriving DecidableEq, Repr

/-- `AuthHandler.Me`. -/
def me (P : Protobuf) (failures : Failures) (contents : Contents) (identity : Option Identity) :
    Except (Option GoError) MeResponse :=
  match identity with
  | none => .error (Apierror.new P .unauthenticated "AUTHENTICATION_REQUIRED"
      "authentication required" [])
  | some identity =>
      match if failures.user then .failed else getByID contents.users identity.userID with
      | .notFound => .error (Apierror.resource P .notFound "USER_NOT_FOUND" "user not found" "user"
          identity.userID)
      | .failed => .error (Apierror.new P .internal "USER_LOOKUP_FAILED" "load user failed" [])
      | .found user =>
          match if failures.roles then none else userRoles contents user.id.text with
          | none => .error (Apierror.new P .internal "ROLE_LOOKUP_FAILED" "load roles failed" [])
          | some roles =>
              match if failures.permissions then none
                else userPermissions contents.tables user.id.text with
              | none => .error (Apierror.new P .internal "PERMISSION_LOOKUP_FAILED"
                  "load permissions failed" [])
              | some permissions => .ok
                  { id := user.id.text
                    name := user.name
                    email := user.email
                    provider := identity.provider
                    roles := roles.map Role.name
                    permissions := permissions.map Permission.name }

/-- What `Me` answers comes from the same list that `HasPermission` searches. -/
theorem me_eq_ok {P : Protobuf} {failures : Failures} {contents : Contents} {identity : Identity}
    {response : MeResponse} (h : me P failures contents (some identity) = .ok response) :
    ∃ user, UUID.parse identity.userID = some user ∧ ∃ permissions,
      userPermissions contents.tables user.text = some permissions ∧
        response.permissions = permissions.map Permission.name := by
  simp only [me] at h
  split at h
  · cases h
  · cases h
  · next user hfound =>
      split at h
      · cases h
      · split at h
        · cases h
        · next permissions hpermissions =>
            cases h
            have hget : getByID contents.users identity.userID = .found user := by
              split at hfound
              · cases hfound
              · exact hfound
            have hselect : userPermissions contents.tables user.id.text = some permissions := by
              split at hpermissions
              · cases hpermissions
              · exact hpermissions
            refine ⟨user.id, ?_, permissions, hselect, rfl⟩
            unfold getByID at hget
            split at hget
            · next id hparse =>
                obtain ⟨-, hid⟩ := lookup_eq_found hget
                rw [hparse, of_decide_eq_true hid]
            · cases hget

/-- `Me` answers for every user, unless the database fails. -/
theorem exists_me_eq_ok (P : Protobuf) {contents : Contents} {identity : Identity} {user : User}
    (huser : user ∈ contents.users) (hparse : UUID.parse identity.userID = some user.id) :
    ∃ response, me P ⟨false, false, false⟩ contents (some identity) = .ok response := by
  obtain ⟨found, hfound⟩ : ∃ found, getByID contents.users identity.userID = .found found := by
    have hsome : (contents.users.find? fun other => other.id = user.id).isSome = true :=
      List.find?_isSome.mpr ⟨user, huser, decide_eq_true rfl⟩
    obtain ⟨found, hfind⟩ := Option.isSome_iff_exists.mp hsome
    refine ⟨found, ?_⟩
    rw [getByID, hparse]
    show lookup contents.users (fun other => other.id = user.id) = _
    rw [lookup, hfind]
  simp only [me, hfound, userRoles, userPermissions, UUID.parse_text, Bool.false_eq_true, if_false,
    Option.map_some]
  exact ⟨_, rfl⟩

/-- `Me` lists a permission exactly if `HasPermission` finds it, and lists it once. -/
theorem me_permissions {P : Protobuf} {failures : Failures} {contents : Contents}
    (hcontents : contents.Consistent) {identity : Identity} {response : MeResponse}
    (h : me P failures contents (some identity) = .ok response) :
    response.permissions.Nodup ∧ ∀ name, name ∈ response.permissions ↔
      hasPermission contents.tables identity.userID name = some true := by
  obtain ⟨user, hparse, permissions, hselect, heq⟩ := me_eq_ok h
  obtain ⟨permissions', hselect', -, hnodup, hmem⟩ :=
    userPermissions_spec hcontents (UUID.parse_text user)
  obtain rfl : permissions = permissions' := Option.some.inj (hselect.symm.trans hselect')
  rw [heq]
  refine ⟨hnodup, ?_⟩
  intro name
  rw [hasPermission_iff, List.mem_map]
  apply Iff.intro
  · intro h
    obtain ⟨permission, hpermission, hname⟩ := h
    exact ⟨user, hparse, permission, (hmem permission).mp hpermission, hname⟩
  · intro h
    obtain ⟨user', hparse', permission, hgrants, hname⟩ := h
    rw [hparse] at hparse'
    cases hparse'
    exact ⟨permission, (hmem permission).mpr hgrants, hname⟩

/-- The interceptor lets a call pass exactly if `HasPermission` says so. -/
theorem checkAuthorization_eq_ok_iff {P : Protobuf} {env : Env} {method permission : String}
    {ctx : Context} {req : Body P} {s : State} {identity : Identity}
    (hpolicy : policies.lookup method = some permission) (hidentity : ctx.identity = some identity)
    (hfails : env.permissionsFail = false) :
    checkAuthorization env method ctx req s = .ok ctx ↔
      hasPermission s.directory.rbac identity.userID permission = some true := by
  simp only [checkAuthorization, hpolicy, hidentity, checkPermission, hfails, Bool.false_eq_true,
    if_false]
  cases hasPermission s.directory.rbac identity.userID permission with
  | none => simp
  | some allowed => cases allowed <;> simp

/-! ## Removing one of several roles -/

theorem permissions_step (contents : Contents) (attempt : Attempt) :
    (contents.step attempt).tables.permissions = contents.tables.permissions := by
  rcases step_cases contents attempt with ⟨-, hstep⟩ | ⟨target, present, -, hchanges⟩
  · rw [hstep]
  · exact hchanges.permissions

/-- An attempt leaves every row alone but the one that its call is about. -/
theorem has_step_of_ne {contents : Contents} {attempt : Attempt} {pair : Pair}
    (hne : ∀ present, attempt.call.target ≠ some (pair, present)) :
    (contents.step attempt).has pair = contents.has pair := by
  rcases step_cases contents attempt with ⟨-, hstep⟩ | ⟨target, present, hwrite, hchanges⟩
  · rw [hstep]
  · rw [hchanges.has, if_neg]
    intro heq
    obtain ⟨contents', -, htarget⟩ := Option.bind_eq_some_iff.mp hwrite
    exact hne present (heq ▸ htarget)

/-- What the user may do through another role stays. -/
theorem grants_removeRole {contents : Contents} {user kept : UUID} {permission : Permission}
    (hpermission : permission ∈ contents.tables.permissions)
    (hassigned : contents.has (.userRole user kept) = true)
    (hcarried : contents.has (.rolePermission kept permission.id) = true)
    (userID : String) {roleID : String} (hrole : UUID.parse roleID ≠ some kept) (fails : Bool) :
    (contents.step ⟨.removeRole userID roleID, fails⟩).Grants user permission := by
  refine ⟨?_, kept, ?_, ?_⟩
  · rw [permissions_step]
    exact hpermission
  · rw [has_step_of_ne, hassigned]
    intro present htarget
    simp only [Call.target, Option.bind_eq_bind, Option.bind_eq_some_iff, Option.some.injEq,
      Prod.mk.injEq, Pair.userRole.injEq] at htarget
    obtain ⟨user', -, role, hparse, ⟨-, rfl⟩, -⟩ := htarget
    exact hrole hparse
  · rw [has_step_of_ne, hcarried]
    intro present htarget
    simp [Call.target, Option.bind_eq_some_iff] at htarget

/-! ## The closure -/

/-- After any calls, what a user may do is what the roles say that the last successful
calls left, and every part of the server reads it so. -/
theorem permissions_are_role_closure (db : Database) (attempts : List Attempt) :
    (∀ pair, (db.run attempts).contents.has pair =
      (LastWrite.last pair (db.contents.successes attempts)).getD (db.contents.has pair)) ∧
    (∀ userID name, hasPermission (db.run attempts).contents.tables userID name = some true ↔
      ∃ user, UUID.parse userID = some user ∧ ∃ permission,
        (db.run attempts).contents.Grants user permission ∧ permission.name = name) ∧
    (∀ userID user, UUID.parse userID = some user → ∃ permissions,
      userPermissions (db.run attempts).contents.tables userID = some permissions ∧
        permissions.Nodup ∧ (permissions.map Permission.name).Nodup ∧
        ∀ permission, permission ∈ permissions ↔
          (db.run attempts).contents.Grants user permission) ∧
    (∀ P failures identity response,
      me P failures (db.run attempts).contents (some identity) = .ok response →
        response.permissions.Nodup ∧
        (∀ name, name ∈ response.permissions ↔
          hasPermission (db.run attempts).contents.tables identity.userID name = some true) ∧
        ∀ env method permission ctx (req : Body P) s,
          policies.lookup method = some permission → ctx.identity = some identity →
          env.permissionsFail = false → s.directory.rbac = (db.run attempts).contents.tables →
          (checkAuthorization env method ctx req s = .ok ctx ↔
            permission ∈ response.permissions)) ∧
    (∀ P identity, ∀ user ∈ (db.run attempts).contents.users,
      UUID.parse identity.userID = some user.id → ∃ response,
        me P ⟨false, false, false⟩ (db.run attempts).contents (some identity) = .ok response) ∧
    ∀ userID user kept permission, UUID.parse userID = some user →
      permission ∈ (db.run attempts).contents.tables.permissions →
      (db.run attempts).contents.has (.userRole user kept) = true →
      (db.run attempts).contents.has (.rolePermission kept permission.id) = true →
      ∀ roleID fails, UUID.parse roleID ≠ some kept →
        hasPermission (db.run (attempts ++ [⟨.removeRole userID roleID, fails⟩])).contents.tables
          userID permission.name = some true := by
  refine ⟨?_, ?_, ?_, ?_, ?_, ?_⟩
  · intro pair
    exact has_run db.contents attempts pair
  · intro userID name
    exact hasPermission_iff
  · intro userID user hparse
    exact userPermissions_spec (db.run attempts).consistent hparse
  · intro P failures identity response hme
    obtain ⟨hnodup, hmem⟩ := me_permissions (db.run attempts).consistent hme
    refine ⟨hnodup, hmem, ?_⟩
    intro env method permission ctx req s hpolicy hidentity hfails htables
    rw [checkAuthorization_eq_ok_iff hpolicy hidentity hfails, htables, hmem]
  · intro P identity user huser hparse
    exact exists_me_eq_ok P huser hparse
  · intro userID user kept permission hparse hpermission hassigned hcarried roleID fails hrole
    have hgrants := grants_removeRole hpermission hassigned hcarried userID hrole fails
    have hrun : (db.run (attempts ++ [⟨.removeRole userID roleID, fails⟩])).contents =
        (db.run attempts).contents.step ⟨.removeRole userID roleID, fails⟩ :=
      List.foldl_concat ..
    rw [hrun, hasPermission_iff]
    exact ⟨user, hparse, permission, hgrants, rfl⟩

/-- A user with a role that carries a permission, and another role. -/
def sampleDatabase : Database where
  contents :=
    { users := [⟨.ofNat 1, "Ada", "ada@example.org", "", true, "local", "", 0, 0⟩]
      roles := [⟨.ofNat 5, "admin", ""⟩, ⟨.ofNat 7, "reader", ""⟩]
      tables :=
        { userRoles := [(.ofNat 1, .ofNat 5)]
          rolePermissions := [(.ofNat 5, .ofNat 6)]
          permissions := [⟨.ofNat 6, "users:read", "users", "read", ""⟩] } }
  consistent :=
    { users := by decide
      roles := by decide
      roleNames := by decide
      permissions := by decide
      permissionNames := by decide
      userRoles := by decide
      rolePermissions := by decide
      userRoles_known := by decide
      rolePermissions_known := by decide }

/-- The other role gets the permission and the user the other role; a call for a user
who does not exist comes between. -/
def sampleAttempts : List Attempt :=
  [⟨.assignPermissionToRole (UUID.ofNat 7).text (UUID.ofNat 6).text, false⟩,
    ⟨.assignRole (UUID.ofNat 2).text (UUID.ofNat 7).text, false⟩,
    ⟨.assignRole (UUID.ofNat 1).text (UUID.ofNat 7).text, false⟩]

/-- The first role is removed, and the user may still do the same. -/
theorem permissions_are_role_closure_sampleAttempts :
    (sampleDatabase.contents.successes sampleAttempts).length = 2 ∧
      hasPermission (sampleDatabase.run (sampleAttempts ++
        [⟨.removeRole (UUID.ofNat 1).text (UUID.ofNat 5).text, false⟩])).contents.tables
        (UUID.ofNat 1).text "users:read" = some true := by
  have hclosure := (permissions_are_role_closure sampleDatabase sampleAttempts).2.2.2.2.2
  refine ⟨by decide +kernel, ?_⟩
  exact hclosure (UUID.ofNat 1).text (.ofNat 1) (.ofNat 7)
    ⟨.ofNat 6, "users:read", "users", "read", ""⟩ (UUID.parse_text _) (by decide +kernel)
    (by decide +kernel) (by decide +kernel) (UUID.ofNat 5).text false (by decide +kernel)

end GoFoundation.Rbac
