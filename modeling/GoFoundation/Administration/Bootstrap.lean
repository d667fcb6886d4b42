/-
# The first administrator

`EnsureAdmin`, which a server executes before it serves.  It has two statements and no
transaction: the one inserts the configured user unless the email is taken, the other one
gives `super_admin` to whoever has the email.

Several servers may start at once, and those that serve already may change the tables
between the two statements.
-/

import GoFoundation.Administration.Calls

namespace GoFoundation.Administration

open Library Postgres Users Server Rbac

/-! ## Statements -/

/-- The user that the first statement inserts. -/
def adminEntity (id : UUID) (name email passwordHash : String) (now : Int) : Entity where
  id := id.text
  name := name
  email := email
  passwordHash := passwordHash
  enabled := true
  authProvider := "local"
  externalSubject := ""
  createdAt := now
  updatedAt := now

/-- `INSERT INTO users … ON CONFLICT(email) DO NOTHING`; `none` is an error, also where
another constraint is violated. -/
def insertAdmin (users : List User) (user : Entity) : Option (List User) :=
  (toRow user).bind fun row =>
    if users.any fun other => other.email = row.email then some users
    else if users.any fun other => row.clashes other then none
    else some (users ++ [row])

/-- The rows that the second statement selects. -/
def superAdmins (contents : Contents) (email : String) : List (UUID × UUID) :=
  (contents.users.filter fun user => user.email = email).flatMap fun user =>
    (contents.roles.filter fun role => role.name = "super_admin").map fun role =>
      (user.id, role.id)

/-- `INSERT … ON CONFLICT DO NOTHING` of one selected row. -/
def addPair (rows : List (UUID × UUID)) (pair : UUID × UUID) : List (UUID × UUID) :=
  if rows.any fun other => other = pair then rows else rows ++ [pair]

/-- `INSERT INTO user_roles … SELECT … ON CONFLICT DO NOTHING`; `none` is an error. -/
def grantSuperAdmin (contents : Contents) (email : String) : Option Contents :=
  (checkText email).map fun email =>
    contents.setUserRoles ((superAdmins contents email).foldl addPair contents.tables.userRoles)

/-! ## The program -/

/-- The arguments of `EnsureAdmin`, with what the environment decides: the hash, the new
id, the time, and whether the statements fail. -/
structure Start where
  email : String
  password : String
  name : String
  hash : String → Except String String
  id : UUID
  now : Int
  insertFails : Bool
  grantFails : Bool

namespace Start

/-- The email as it is looked up and stored. -/
@[irreducible]
def address (tables : CaseTables) (start : Start) : String := tables.normalise start.email

/-- No administrator is configured. -/
def Idle (tables : CaseTables) (start : Start) : Prop :=
  start.address tables = "" ∨ start.password = ""

instance (tables : CaseTables) (start : Start) : Decidable (start.Idle tables) :=
  inferInstanceAs (Decidable (_ ∨ _))

/-- The name as it is stored. -/
def displayName (start : Start) : String :=
  if start.name = "" then "Starter Admin" else start.name

/-- The user, with the hash of the password. -/
def entity (tables : CaseTables) (start : Start) (passwordHash : String) : Entity :=
  adminEntity start.id start.displayName (start.address tables) passwordHash start.now

@[simp]
theorem entity_email (tables : CaseTables) (start : Start) (passwordHash : String) :
    (start.entity tables passwordHash).email = start.address tables := by
  rw [entity, adminEntity]

end Start

/-- The first statement, and whether it succeeds. -/
def insertion (tables : CaseTables) (start : Start) (passwordHash : String) :
    Program Shared Bool :=
  Program.atomically fun s =>
    match if start.insertFails then none
      else insertAdmin s.contents.users (start.entity tables passwordHash) with
    | none => (s, false)
    | some users => ({ s with contents := { s.contents with users := users } }, true)

/-- The second statement, what it adds to the history, and whether it succeeds. -/
def promotion (i : Nat) (tables : CaseTables) (start : Start) : Program Shared Bool :=
  Program.atomically fun s =>
    match if start.grantFails then none else grantSuperAdmin s.contents (start.address tables) with
    | none => (s, false)
    | some contents =>
        ({ contents := contents
           log := ((superAdmins s.contents (start.address tables)).map fun pair =>
             .ensured i pair.1 pair.2) ++ s.log }, true)

/-- `EnsureAdmin`; the result is the error, apart from the text of the database. -/
def ensureAdmin (i : Nat) (tables : CaseTables) (start : Start) :
    Program Shared (Option String) :=
  if start.Idle tables then .done none
  else
    match start.hash start.password with
    | .error text => .done (some text)
    | .ok passwordHash =>
        (insertion tables start passwordHash).bind fun
        | false => .done (some "bootstrap admin")
        | true => (promotion i tables start).bind fun
          | false => .done (some "bootstrap admin role")
          | true => .done none

/-! ## What the statements do -/

section Insert

variable {users users' : List User} {user : Entity}

/-- The table is the same, with the email on it, or has the row in addition. -/
theorem insertAdmin_cases (h : insertAdmin users user = some users') :
    ∃ row, toRow user = some row ∧
      ((users' = users ∧ ∃ other ∈ users, other.email = row.email) ∨
        (users' = users ++ [row] ∧ ∀ other ∈ users, row.clashes other = false)) := by
  obtain ⟨row, hrow, h⟩ := Option.bind_eq_some_iff.mp h
  refine ⟨row, hrow, ?_⟩
  split at h
  · next htaken =>
      rw [Option.some.injEq] at h
      obtain ⟨other, hother, hemail⟩ := List.any_eq_true.mp htaken
      exact Or.inl ⟨h.symm, other, hother, of_decide_eq_true hemail⟩
  · split at h
    · cases h
    · next hclash =>
        rw [Option.some.injEq] at h
        refine Or.inr ⟨h.symm, ?_⟩
        intro other hother
        by_contra hrow'
        rw [Bool.not_eq_false] at hrow'
        exact hclash (List.any_eq_true.mpr ⟨other, hother, hrow'⟩)

/-- An email that does not end in a space is stored as it is. -/
theorem email_of_toRow {row : User} (hrow : toRow user = some row)
    (hsolid : EndsSolid user.email) : row.email = user.email := by
  simp only [toRow, Option.bind_eq_bind, Option.bind_eq_some_iff, Option.some.injEq] at hrow
  obtain ⟨id, -, name, -, email, ⟨checked, hcheck, hemail⟩, hash, -, provider, -, subject, -, rfl⟩ :=
    hrow
  have hchecked : checked = user.email := by
    rcases checkText_cases user.email with ⟨heq, -⟩ | ⟨heq, -⟩
    · rw [heq, Option.some.injEq] at hcheck
      exact hcheck.symm
    · rw [heq] at hcheck
      cases hcheck
  rw [hchecked, varchar_of_endsSolid hsolid, Option.ite_none_right_eq_some] at hemail
  exact (Option.some.inj hemail.2).symm

theorem endsSolid_address (tables : CaseTables) (start : Start) :
    EndsSolid (start.address tables) := by
  rw [Start.address]
  exact endsSolid_lower (endsSolid_trimSpaceText _)

/-- The row of the administrator has the configured email. -/
theorem email_of_toRow_entity {tables : CaseTables} {start : Start} {passwordHash : String}
    {row : User} (hrow : toRow (start.entity tables passwordHash) = some row) :
    row.email = start.address tables := by
  have hsolid : EndsSolid (start.entity tables passwordHash).email := by
    rw [Start.entity_email]
    exact endsSolid_address tables start
  rw [email_of_toRow hrow hsolid, Start.entity_email]

end Insert

section Grant

variable {contents contents' : Contents} {email : String}

theorem mem_superAdmins {pair : UUID × UUID} :
    pair ∈ superAdmins contents email ↔
      ∃ user ∈ contents.users, user.email = email ∧
        ∃ role ∈ contents.roles, role.name = "super_admin" ∧ pair = (user.id, role.id) := by
  simp only [superAdmins, List.mem_flatMap, List.mem_map, List.mem_filter, decide_eq_true_eq]
  constructor
  · rintro ⟨user, ⟨huser, hemail⟩, role, ⟨hrole, hname⟩, rfl⟩
    exact ⟨user, huser, hemail, role, hrole, hname, rfl⟩
  · rintro ⟨user, huser, hemail, role, hrole, hname, rfl⟩
    exact ⟨user, ⟨huser, hemail⟩, role, ⟨hrole, hname⟩, rfl⟩

/-- A row that is there already is not added again. -/
theorem addPair_cases (rows : List (UUID × UUID)) (pair : UUID × UUID) :
    (pair ∈ rows ∧ addPair rows pair = rows) ∨
      (pair ∉ rows ∧ addPair rows pair = rows ++ [pair]) := by
  have hany : (rows.any fun other => other = pair) = true ↔ pair ∈ rows := by simp
  unfold addPair
  by_cases hmem : pair ∈ rows
  · exact Or.inl ⟨hmem, if_pos (hany.mpr hmem)⟩
  · exact Or.inr ⟨hmem, if_neg (mt hany.mp hmem)⟩

theorem mem_foldl_addPair {rows pairs : List (UUID × UUID)} {pair : UUID × UUID} :
    pair ∈ pairs.foldl addPair rows ↔ pair ∈ pairs ∨ pair ∈ rows := by
  induction pairs generalizing rows with
  | nil => simp
  | cons head rest ih =>
      have hadd : pair ∈ addPair rows head ↔ pair = head ∨ pair ∈ rows := by
        rcases addPair_cases rows head with ⟨hmem, heq⟩ | ⟨-, heq⟩
        · rw [heq]
          exact ⟨Or.inr, fun h => h.elim (fun heq => heq ▸ hmem) id⟩
        · rw [heq, List.mem_append, List.mem_singleton, or_comm]
      rw [List.foldl_cons, ih, hadd, List.mem_cons]
      tauto

theorem nodup_foldl_addPair {rows : List (UUID × UUID)} (hrows : rows.Nodup)
    (pairs : List (UUID × UUID)) : (pairs.foldl addPair rows).Nodup := by
  induction pairs generalizing rows with
  | nil => exact hrows
  | cons head rest ih =>
      rw [List.foldl_cons]
      apply ih
      rcases addPair_cases rows head with ⟨-, heq⟩ | ⟨hnew, heq⟩
      · rw [heq]
        exact hrows
      · rw [heq]
        refine List.nodup_append.mpr ⟨hrows, List.nodup_singleton _, ?_⟩
        intro pair hpair other hother heq
        exact hnew (List.mem_singleton.mp hother ▸ heq ▸ hpair)

/-- What the second statement does: the selected rows are there, and nothing else
changes. -/
structure Promotes (contents contents' : Contents) (pairs : List (UUID × UUID)) : Prop where
  has : ∀ pair, contents'.has pair =
    (contents.has pair || pairs.any fun selected => pair = .userRole selected.1 selected.2)
  users : contents'.users = contents.users
  roles : contents'.roles = contents.roles
  permissions : contents'.tables.permissions = contents.tables.permissions
  consistent : contents.Consistent → contents'.Consistent

theorem grantSuperAdmin_promotes (h : grantSuperAdmin contents email = some contents') :
    Promotes contents contents' (superAdmins contents email) := by
  obtain ⟨checked, hcheck, rfl⟩ := Option.map_eq_some_iff.mp h
  have hchecked : checked = email := by
    rcases checkText_cases email with ⟨heq, -⟩ | ⟨heq, -⟩
    · rw [heq, Option.some.injEq] at hcheck
      exact hcheck.symm
    · rw [heq] at hcheck
      cases hcheck
  subst hchecked
  refine ⟨?_, rfl, rfl, rfl, ?_⟩
  · intro pair
    cases pair with
    | rolePermission role permission =>
        have hnone : ((superAdmins contents checked).any fun selected =>
            Pair.rolePermission role permission = .userRole selected.1 selected.2) = false := by
          simp
        rw [hnone, Bool.or_false]
        rfl
    | userRole user role =>
        rw [Bool.eq_iff_iff, Bool.or_eq_true, Contents.has_userRole, Contents.has_userRole,
          List.any_eq_true]
        show (user, role) ∈ (superAdmins contents checked).foldl addPair contents.tables.userRoles ↔ _
        rw [mem_foldl_addPair]
        constructor
        · rintro (hselected | hold)
          · exact Or.inr ⟨_, hselected, decide_eq_true rfl⟩
          · exact Or.inl hold
        · rintro (hold | ⟨selected, hselected, heq⟩)
          · exact Or.inr hold
          · have heq := of_decide_eq_true heq
            rw [Pair.userRole.injEq] at heq
            rw [heq.1, heq.2]
            exact Or.inl hselected
  · intro hcontents
    refine hcontents.setUserRoles (nodup_foldl_addPair hcontents.userRoles _) ?_
    intro pair hpair
    rcases mem_foldl_addPair.mp hpair with hselected | hold
    · obtain ⟨user, huser, -, role, hrole, -, rfl⟩ := mem_superAdmins.mp hselected
      rw [Contents.knowsUserRole, Bool.and_eq_true, List.any_eq_true, List.any_eq_true]
      exact ⟨⟨user, huser, decide_eq_true rfl⟩, role, hrole, decide_eq_true rfl⟩
    · exact hcontents.userRoles_known pair hold

end Grant

end GoFoundation.Administration
