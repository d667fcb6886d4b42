/-
# The user entity and its rows

`user.New`, and the statements of the PostgreSQL repository that store a user and
look one up by the email.

Which characters have which lower case is data of the standard library and differs
between its versions.  It enters as `CaseTables`; the functions of `strings` on top
follow the characters one by one.
-/

import GoFoundation.Postgres.Text
import GoFoundation.Users.Model

namespace GoFoundation.Users

open Postgres

/-! ## Case -/

/-- The tables of the package `unicode`: the lower case of a character, and the
character that stands for all those that differ from it in case only. -/
structure CaseTables where
  toLower : Char → Char
  fold : Char → Char
  isSpace_toLower : ∀ c, Go.isSpace (toLower c) = true → Go.isSpace c = true

namespace CaseTables

variable (tables : CaseTables)

/-- `strings.ToLower`. -/
def lower (text : String) : String := String.ofList (text.toList.map tables.toLower)

/-- `strings.EqualFold`. -/
def equalFold (first second : String) : Bool :=
  first.toList.map tables.fold = second.toList.map tables.fold

theorem equalFold_refl (text : String) : tables.equalFold text text = true := decide_eq_true rfl

theorem equalFold_symm {first second : String} (h : tables.equalFold first second = true) :
    tables.equalFold second first = true :=
  decide_eq_true (of_decide_eq_true h).symm

theorem equalFold_trans {first second third : String} (h : tables.equalFold first second = true)
    (h' : tables.equalFold second third = true) : tables.equalFold first third = true :=
  decide_eq_true ((of_decide_eq_true h).trans (of_decide_eq_true h'))

/-- An email as `user.New` and `Login` spell it. -/
def normalise (email : String) : String := tables.lower (Go.trimSpaceText email)

/-- Letters of ASCII, and the two letters sigma, which have the same upper case. -/
def sample : CaseTables where
  toLower c := if 'A' ≤ c && c ≤ 'Z' then Char.ofNat (c.toNat + 32) else c
  fold c :=
    if 'A' ≤ c && c ≤ 'Z' then Char.ofNat (c.toNat + 32) else if c = 'ς' then 'σ' else c
  isSpace_toLower c hspace := by
    split at hspace
    · next hletter =>
        rw [Bool.and_eq_true, decide_eq_true_eq, decide_eq_true_eq, Char.le_def, Char.le_def,
          UInt32.le_iff_toNat_le, UInt32.le_iff_toNat_le] at hletter
        have hall : ∀ n : Fin 91, 65 ≤ n.val → Go.isSpace (Char.ofNat (n.val + 32)) = false := by
          decide +kernel
        have hbound : c.toNat < 91 := Nat.lt_succ_of_le hletter.2
        rw [hall ⟨c.toNat, hbound⟩ hletter.1] at hspace
        cases hspace
    · exact hspace

end CaseTables

/-- `user.User` as the program holds it, with any text for an id; that of a row is a
UUID. -/
structure Entity where
  id : String
  name : String
  email : String
  passwordHash : String
  enabled : Bool
  authProvider : String
  externalSubject : String
  createdAt : Int
  updatedAt : Int
  deriving DecidableEq, Repr

/-- `scanUser`: what the program reads from a row. -/
def User.entity (user : User) : Entity where
  id := user.id.text
  name := user.name
  email := user.email
  passwordHash := user.passwordHash
  enabled := user.enabled
  authProvider := user.authProvider
  externalSubject := user.externalSubject
  createdAt := user.createdAt
  updatedAt := user.updatedAt

theorem User.entity_injective : Function.Injective User.entity := by
  intro first second heq
  have hid : first.id = second.id := UUID.text_injective (congrArg Entity.id heq)
  cases first
  cases second
  simp only [User.entity, Entity.mk.injEq] at heq hid
  simp only [User.mk.injEq]
  exact ⟨hid, heq.2⟩

/-- `user.New`. -/
def newUser (tables : CaseTables) (id name email : String) (now : Int) : Except String Entity :=
  if Go.trimSpaceText name = "" then .error "name is required"
  else if tables.normalise email = "" then .error "email is required"
  else .ok
    { id := id
      name := Go.trimSpaceText name
      email := tables.normalise email
      passwordHash := ""
      enabled := true
      authProvider := "local"
      externalSubject := ""
      createdAt := now
      updatedAt := now }

/-! ## Statements -/

/-- Why a user is not created: `ErrEmailExists`, or another error. -/
inductive CreateError
  | emailExists
  | failed
  deriving DecidableEq, Repr

/-- The row of a user; `none` where a column refuses its value. -/
def toRow (user : Entity) : Option User := do
  let id ← UUID.parse user.id
  let name ← (checkText user.name).bind (varchar 255)
  let email ← (checkText user.email).bind (varchar 320)
  let passwordHash ← checkText user.passwordHash
  let authProvider ← (checkText user.authProvider).bind (varchar 50)
  let externalSubject ← (checkText user.externalSubject).bind (varchar 255)
  some
    { id := id
      name := name
      email := email
      passwordHash := passwordHash
      enabled := user.enabled
      authProvider := authProvider
      externalSubject := externalSubject
      createdAt := toTimestamptz user.createdAt
      updatedAt := toTimestamptz user.updatedAt }

/-- The two rows violate the primary key or one of the unique indexes. -/
def User.clashes (user other : User) : Bool :=
  user.id = other.id || user.email = other.email ||
    (user.externalSubject ≠ "" && user.authProvider = other.authProvider &&
      user.externalSubject = other.externalSubject)

/-- `UserRepository.Create`; every unique violation is reported as `ErrEmailExists`. -/
def create (users : List User) (user : Entity) : Except CreateError (List User) :=
  match toRow user with
  | none => .error .failed
  | some row =>
      if users.any fun other => row.clashes other then .error .emailExists
      else .ok (users ++ [row])

/-- `UserRepository.GetByEmail`; the statement fails on a zero character. -/
def getByEmail (users : List User) (email : String) : Lookup :=
  match checkText email with
  | none => .failed
  | some email => lookup users fun user => user.email = email

/-! ## What `user.New` guarantees -/

/-- The text does not end in a space. -/
def EndsSolid (text : String) : Prop := ∀ c, text.toList.getLast? = some c → Go.isSpace c = false

theorem endsSolid_trimSpaceText (text : String) : EndsSolid (Go.trimSpaceText text) := by
  intro c hlast
  rw [Go.trimSpaceText, String.toList_ofList, Go.trim, List.getLast?_reverse] at hlast
  have hhead := List.head?_dropWhile_not Go.isSpace
    ((text.toList.dropWhile Go.isSpace).reverse)
  rw [hlast] at hhead
  exact hhead

theorem endsSolid_lower {tables : CaseTables} {text : String} (hsolid : EndsSolid text) :
    EndsSolid (tables.lower text) := by
  intro c hlast
  rw [CaseTables.lower, String.toList_ofList, List.getLast?_map] at hlast
  obtain ⟨d, hd, rfl⟩ := Option.map_eq_some_iff.mp hlast
  cases hspace : Go.isSpace (tables.toLower d) with
  | false => rfl
  | true =>
      have := tables.isSpace_toLower d hspace
      rw [hsolid d hd] at this
      cases this

/-- A text that does not end in a space is stored as it is, or not at all. -/
theorem varchar_of_endsSolid {size : Nat} {text : String} (hsolid : EndsSolid text) :
    varchar size text = if text.toList.length ≤ size then some text else none := by
  unfold varchar
  split
  · rfl
  · next hlong =>
      rw [if_neg]
      intro hspaces
      have hne : text.toList.drop size ≠ [] := by
        rw [ne_eq, List.drop_eq_nil_iff]
        exact hlong
      have hlast : text.toList.getLast? = some ((text.toList.drop size).getLast hne) := by
        rw [← List.getLast?_eq_some_getLast hne, List.getLast?_drop, if_neg hlong]
      have hspace : (text.toList.drop size).getLast hne = ' ' :=
        of_decide_eq_true (List.all_eq_true.mp hspaces _ (List.getLast_mem hne))
      have hsolid' := hsolid _ hlast
      rw [hspace] at hsolid'
      revert hsolid'
      decide

/-- A user as `user.New` builds it, with times that a column can hold. -/
structure Built (tables : CaseTables) (user : Entity) : Prop where
  new : ∃ name email, newUser tables user.id name email user.createdAt = .ok user
  createdAt : IsTimestamptz user.createdAt
  /-- An id that is a UUID is spelled as `uuid.NewString` spells it. -/
  spelled : ∀ id, UUID.parse user.id = some id → user.id = id.text

theorem newUser_eq_ok {tables : CaseTables} {id name email : String} {now : Int} {user : Entity}
    (hnew : newUser tables id name email now = .ok user) :
    user =
      ⟨id, Go.trimSpaceText name, tables.normalise email, "", true, "local", "", now, now⟩ := by
  unfold newUser at hnew
  split at hnew
  · cases hnew
  · split at hnew
    · cases hnew
    · cases hnew
      rfl

/-- The columns of the user's row take their values. -/
def Fits (user : Entity) : Prop :=
  (∃ id, UUID.parse user.id = some id) ∧
    (user.name.toList.length ≤ 255 ∧ ∀ c ∈ user.name.toList, c.toNat ≠ 0) ∧
    user.email.toList.length ≤ 320 ∧ ∀ c ∈ user.email.toList, c.toNat ≠ 0

theorem checkText_bind_varchar {size : Nat} {text : String}
    [Decidable (text.toList.length ≤ size ∧ ∀ c ∈ text.toList, c.toNat ≠ 0)]
    (hsolid : EndsSolid text) :
    (checkText text).bind (varchar size) =
      if text.toList.length ≤ size ∧ ∀ c ∈ text.toList, c.toNat ≠ 0 then some text else none := by
  obtain ⟨hcheck, hzero⟩ | ⟨hcheck, hzero⟩ := checkText_cases text
  · rw [hcheck, Option.bind_some, varchar_of_endsSolid hsolid]
    split
    · next hsize => rw [if_pos ⟨hsize, hzero⟩]
    · next hsize => rw [if_neg fun h => hsize h.1]
  · rw [hcheck, if_neg fun h => hzero h.2]
    rfl

/-- A new user is stored as it is, or not at all. -/
theorem toRow_of_built {tables : CaseTables} {user : Entity} (hbuilt : Built tables user) :
    (Fits user ∧ ∃ row, toRow user = some row ∧ row.entity = user) ∨
      (¬ Fits user ∧ toRow user = none) := by
  obtain ⟨name, email, hnew⟩ := hbuilt.new
  have huser := newUser_eq_ok hnew
  have htime : toTimestamptz user.createdAt = user.createdAt := hbuilt.createdAt
  have hname : EndsSolid user.name := by
    rw [huser]
    exact endsSolid_trimSpaceText name
  have hemail : EndsSolid user.email := by
    rw [huser]
    exact endsSolid_lower (endsSolid_trimSpaceText email)
  have hhash : checkText user.passwordHash = some user.passwordHash := by
    have hempty : user.passwordHash = "" := by rw [huser]
    rw [hempty]
    decide
  have hprovider : (checkText user.authProvider).bind (varchar 50) = some user.authProvider := by
    have hlocal : user.authProvider = "local" := by rw [huser]
    rw [hlocal]
    decide
  have hsubject : (checkText user.externalSubject).bind (varchar 255) =
      some user.externalSubject := by
    have hempty : user.externalSubject = "" := by rw [huser]
    rw [hempty]
    decide
  have hupdated : toTimestamptz user.updatedAt = user.updatedAt := by
    have hsame : user.updatedAt = user.createdAt := by rw [huser]
    rw [hsame]
    exact htime
  by_cases hfits : Fits user
  · obtain ⟨⟨id, hid⟩, hname', hemail'⟩ := hfits
    refine .inl ⟨⟨⟨id, hid⟩, hname', hemail'⟩, ?_⟩
    simp only [toRow, hid, checkText_bind_varchar hname, checkText_bind_varchar hemail,
      if_pos hname', if_pos hemail', hhash, hprovider, hsubject, hupdated, htime,
      Option.bind_eq_bind, Option.bind_some, Option.some.injEq, exists_eq_left', User.entity]
    rw [← hbuilt.spelled id hid]
  · refine .inr ⟨hfits, ?_⟩
    simp only [toRow, checkText_bind_varchar hname, checkText_bind_varchar hemail,
      Option.bind_eq_bind]
    cases hid : UUID.parse user.id with
    | none => rfl
    | some id =>
        rw [Option.bind_some]
        by_cases hname' : user.name.toList.length ≤ 255 ∧ ∀ c ∈ user.name.toList, c.toNat ≠ 0
        · rw [if_pos hname', if_neg fun hemail' => hfits ⟨⟨id, hid⟩, hname', hemail'⟩]
          rfl
        · rw [if_neg hname']
          rfl

end GoFoundation.Users
