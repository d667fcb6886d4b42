/-
# Passwords behind the service

A password reaches the repository as its hash and in no other way.  `bare` leaves the
hash out of a user, and `registration` is what `Service.Create` would be if there were no
passwords.  A call that gets past its password is this registration, up to the hash that
is stored; so neither the answer of the handler nor its error depends on the password.
-/

import GoFoundation.Users.Passwords
import GoFoundation.Users.Service

namespace GoFoundation.Users

open Postgres Grpc

/-! ## Hashes -/

/-- An `auth.PasswordHasher` whose hashes a text column takes. -/
structure Hasher where
  hash : String → Except String String
  checkText_hash : ∀ {password passwordHash}, hash password = .ok passwordHash →
    checkText passwordHash = some passwordHash

/-- The password gets past the checks of `Service.Create`. -/
def PassesChecks (password : String) : Prop :=
  Go.trimSpaceText password ≠ "" ∧ ¬ (Go.encodeUtf8 password).length < 8

instance (password : String) : Decidable (PassesChecks password) :=
  inferInstanceAs (Decidable (_ ∧ _))

/-- The service gets past the password: the checks pass and the hasher succeeds. -/
def Hasher.Accepts (hasher : Hasher) (password : String) : Prop :=
  PassesChecks password ∧ ∃ passwordHash, hasher.hash password = .ok passwordHash

namespace PasswordHasher

open Go Go.Base64

theorem hash_isSome (argon : Argon2) (password : Bytes)
    (salt : { salt : Bytes // salt.length = 16 }) : (hash argon password salt).isSome = true := by
  rw [hash, Option.isSome_map]
  exact argon.idKey_isSome password salt

theorem toNat_of_mem_encodeToString {bytes : Bytes} {c : Char}
    (hc : c ∈ encodeToString rawStd bytes) : c.toNat ≠ 0 := by
  have hsymbol : ∀ sextet, (rawStd.symbol sextet).toNat ≠ 0 := by decide +kernel
  obtain ⟨sextet, -, rfl⟩ := List.mem_map.mp hc
  exact hsymbol sextet

/-- A hash has the characters of its format and of base64. -/
theorem checkText_formatHash (salt key : Bytes) :
    checkText (formatHash salt key) = some (formatHash salt key) := by
  have hformat : ("$argon2id$v=19$m=19456,t=2,p=1$".toList.all fun c => c.toNat ≠ 0) = true := by
    decide
  rcases checkText_cases (formatHash salt key) with ⟨hcheck, -⟩ | ⟨-, hzero⟩
  · exact hcheck
  · apply absurd _ hzero
    intro c hc
    rw [toList_formatHash, List.mem_append, List.mem_append, List.mem_append,
      List.mem_singleton] at hc
    rcases hc with ((hc | hsalt) | rfl) | hkey
    · exact of_decide_eq_true (List.all_eq_true.mp hformat c hc)
    · exact toNat_of_mem_encodeToString hsalt
    · decide
    · exact toNat_of_mem_encodeToString hkey

/-- `NewPasswordHasher`, with the salt that `rand.Read` draws or its error. -/
def hasher (argon : Argon2) (draw : Except String { salt : Bytes // salt.length = 16 }) :
    Hasher where
  hash password :=
    match draw with
    | .error text => .error text
    | .ok salt => .ok ((hash argon (encodeUtf8 password) salt).get (hash_isSome argon _ salt))
  checkText_hash := by
    intro password passwordHash hhash
    cases draw with
    | error text => cases hhash
    | ok salt =>
        have hget := Except.ok.inj hhash
        obtain ⟨key, -, hkey⟩ := Option.map_eq_some_iff.mp (Option.eq_some_of_isSome
          (hash_isSome argon (encodeUtf8 password) salt))
        rw [← hget, ← hkey]
        exact checkText_formatHash salt key

end PasswordHasher

/-! ## Without the hash -/

/-- The user without the hash of the password. -/
def Entity.bare (user : Entity) : Entity := { user with passwordHash := "" }

/-- The row without the hash of the password. -/
def User.bare (user : User) : User := { user with passwordHash := "" }

/-- `UserRepository.Create`, whose statement may fail. -/
def insertUser (fails : Bool) (users : List User) (user : Entity) :
    Except CreateError (List User) :=
  if fails then .error .failed else create users user

/-- `Service.Create` without the password. -/
def registration (tables : CaseTables) (repo : Entity → Except CreateError (List User))
    (name email : String) (id : UUID) (now : Int) : Except ServiceError (Entity × List User) :=
  match newUser tables id.text name email now with
  | .error text => .error (.other text)
  | .ok user =>
      match repo user with
      | .error .emailExists => .error .emailExists
      | .error .failed => .error (.other "insert user")
      | .ok stored => .ok (user, stored)

/-- What the handler makes of what the service returns. -/
def answered {σ : Type} (P : Protobuf) (email : String) :
    Except ServiceError (Entity × σ) → Except (Option GoError) (UserMessage × σ)
  | .ok (user, stored) => .ok (toProtoUser user, stored)
  | .error err => .error (mapUserErr P "email" email err)

/-- The answer, and the rows without their hashes. -/
def bareAnswer (answer : UserMessage × List User) : UserMessage × List User :=
  (answer.1, answer.2.map User.bare)

theorem toRow_bare {user : Entity}
    (hcheck : checkText user.passwordHash = some user.passwordHash) :
    toRow user.bare = (toRow user).map User.bare := by
  have hempty : checkText "" = some "" := by decide
  simp only [toRow, Entity.bare, Option.bind_eq_bind, Option.map_bind, hcheck, hempty,
    Option.bind_some, Function.comp_def, Option.map_some, User.bare]

theorem clashes_bare (user other : User) : user.bare.clashes other.bare = user.clashes other := rfl

/-- Whether a user is stored does not depend on the hashes. -/
theorem create_bare {users : List User} {user : Entity}
    (hcheck : checkText user.passwordHash = some user.passwordHash) :
    create (users.map User.bare) user.bare = (create users user).map (List.map User.bare) := by
  rw [create, create, toRow_bare hcheck]
  cases toRow user with
  | none => rfl
  | some row =>
      have hany : ((users.map User.bare).any fun other => row.bare.clashes other) =
          users.any fun other => row.clashes other := by
        simp only [List.any_map, Function.comp_def, clashes_bare]
      simp only [Option.map_some, hany]
      split
      · rfl
      · simp [Except.map]

section Refines

variable {P : Protobuf} {tables : CaseTables} {hasher : Hasher} {fails : Bool}
  {users : List User} {input : CreateUserRequest} {id : UUID} {now : Int}

theorem insertUser_bare {user : Entity}
    (hcheck : checkText user.passwordHash = some user.passwordHash) :
    insertUser fails (users.map User.bare) user.bare =
      (insertUser fails users user).map (List.map User.bare) := by
  cases fails with
  | true => rfl
  | false => exact create_bare hcheck

/-- Past its password, `Service.Create` is the registration, up to the hash. -/
theorem create_refines (haccepts : hasher.Accepts input.password) :
    (Service.create tables hasher.hash (insertUser fails users) input id now).map
        (Prod.map Entity.bare (List.map User.bare)) =
      registration tables (insertUser fails (users.map User.bare)) input.name input.email id
        now := by
  obtain ⟨hpasses, passwordHash, hhash⟩ := haccepts
  rw [Service.create, if_neg hpasses.1, if_neg hpasses.2, registration]
  cases hnew : newUser tables id.text input.name input.email now with
  | error text => rfl
  | ok user =>
      have hbare : ({ user with passwordHash := passwordHash } : Entity).bare = user := by
        rw [newUser_eq_ok hnew]
        rfl
      have hinsert : insertUser fails (users.map User.bare) user =
          (insertUser fails users { user with passwordHash := passwordHash }).map
            (List.map User.bare) := by
        rw [← insertUser_bare (hasher.checkText_hash hhash), hbare]
      simp only [hhash, hinsert]
      cases insertUser fails users { user with passwordHash := passwordHash } with
      | error err => cases err <;> rfl
      | ok stored => simp only [Except.map, Prod.map, hbare]

/-- The handler tells the client nothing that depends on the hash. -/
theorem createUser_refines (haccepts : hasher.Accepts input.password) :
    (UserHandler.createUser P tables hasher.hash (insertUser fails users) input id now).map
        bareAnswer =
      answered P input.email (registration tables (insertUser fails (users.map User.bare))
        input.name input.email id now) := by
  rw [← create_refines haccepts, UserHandler.createUser]
  cases Service.create tables hasher.hash (insertUser fails users) input id now with
  | error err => rfl
  | ok created => rfl

/-- Two requests that differ in the password are answered alike, and leave the same rows up
to the hashes. -/
theorem createUser_congr (P : Protobuf) (tables : CaseTables) (fails : Bool) (id : UUID)
    (now : Int) {hasher' : Hasher} {users' : List User} {input' : CreateUserRequest}
    (haccepts : hasher.Accepts input.password) (haccepts' : hasher'.Accepts input'.password)
    (hname : input.name = input'.name) (hemail : input.email = input'.email)
    (husers : users.map User.bare = users'.map User.bare) :
    (UserHandler.createUser P tables hasher.hash (insertUser fails users) input id now).map
        bareAnswer =
      (UserHandler.createUser P tables hasher'.hash (insertUser fails users') input' id now).map
        bareAnswer := by
  rw [createUser_refines haccepts, createUser_refines haccepts', hname, hemail, husers]

end Refines

end GoFoundation.Users
