/-
# The user service

`Service.Create` and `Service.Get`, the handlers in front of them, and the rules of
`user.proto` that a request has passed before its handler runs.

The rules and the service check the same fields in two notions of white space and of
length.  The pattern for a name asks for a character that is no ASCII space, and the
service for one that is no Unicode space; a password is only measured by the rules.
What the service then refuses is a plain error, and `mapUserErr` makes a fault of the
server of it.
-/

import Mathlib.Data.List.TakeWhile
import GoFoundation.Grpc.ErrorInfo
import GoFoundation.Users.Repositories

namespace GoFoundation.Users

open Postgres Grpc

/-! ## Requests -/

/-- `userv1.CreateUserRequest`, and `CreateInput`. -/
structure CreateUserRequest where
  name : String
  email : String
  password : String
  deriving DecidableEq, Repr

/-- The class `[:space:]` of RE2. -/
def isPosixSpace (c : Char) : Bool := (9 ≤ c.toNat && c.toNat ≤ 13) || c.toNat = 0x20

/-- `[a-zA-Z0-9]`. -/
def isAlphanumeric (c : Char) : Bool :=
  ('a' ≤ c && c ≤ 'z') || ('A' ≤ c && c ≤ 'Z') || ('0' ≤ c && c ≤ '9')

/-- A character of the local part of an email, as HTML defines it. -/
def isEmailAtom (c : Char) : Bool :=
  isAlphanumeric c || ".!#$%&'*+/=?^_`\x7b|\x7d~-".toList.contains c

/-- `[a-zA-Z0-9](?:[a-zA-Z0-9-]{0,61}[a-zA-Z0-9])?`. -/
def isDomainLabel (label : List Char) : Bool :=
  1 ≤ label.length && label.length ≤ 63 && (label.all fun c => isAlphanumeric c || c = '-') &&
    label.head?.all isAlphanumeric && label.getLast?.all isAlphanumeric

/-- The rule `string.email`: the grammar of HTML.  Neither part has an at sign. -/
def isEmail (text : String) : Bool :=
  match text.toList.dropWhile (· ≠ '@') with
  | [] => false
  | _ :: domain =>
      text.toList.takeWhile (· ≠ '@') ≠ [] &&
        (text.toList.takeWhile (· ≠ '@')).all isEmailAtom &&
        (domain.splitOn '.').all isDomainLabel

/-- The rules for a `CreateUserRequest`.  Lengths are in characters.  The pattern
`.*[^[:space:]].*` is searched for, so it asks for one character outside the class. -/
def CreateUserRequest.valid (request : CreateUserRequest) : Bool :=
  1 ≤ request.name.toList.length && request.name.toList.length ≤ 100 &&
    (request.name.toList.any fun c => !isPosixSpace c) &&
    isEmail request.email && request.email.toList.length ≤ 254 &&
    8 ≤ request.password.toList.length && request.password.toList.length ≤ 128

/-! ## The service -/

/-- The errors of the service: the ones that `mapUserErr` knows, and any other. -/
inductive ServiceError
  | notFound
  | emailExists
  | invalidUserID
  | invalidPageToken
  | other (text : String)
  deriving DecidableEq, Repr

namespace Service

/-- `Service.Create` over a hasher and a repository, with the id that `uuid.NewString`
draws and what the clock reads. -/
def create {σ : Type} (tables : CaseTables) (hash : String → Except String String)
    (repo : Entity → Except CreateError σ) (input : CreateUserRequest) (id : UUID) (now : Int) :
    Except ServiceError (Entity × σ) :=
  if Go.trimSpaceText input.password = "" then .error (.other "password is required")
  else if (Go.encodeUtf8 input.password).length < 8 then
    .error (.other "password must be at least 8 characters")
  else
    match newUser tables id.text input.name input.email now with
    | .error text => .error (.other text)
    | .ok user =>
        match hash input.password with
        | .error text => .error (.other text)
        | .ok passwordHash =>
            match repo { user with passwordHash := passwordHash } with
            | .error .emailExists => .error .emailExists
            | .error .failed => .error (.other "insert user")
            | .ok stored => .ok ({ user with passwordHash := passwordHash }, stored)

/-- `Service.Get`, where `parses` is whether `uuid.Parse` accepts a text. -/
def get (parses : String → Bool) (users : List User) (id : String) :
    Except ServiceError Entity :=
  if parses id then
    match getByID users id with
    | .found user => .ok user.entity
    | .notFound => .error .notFound
    | .failed => .error (.other "query user")
  else .error .invalidUserID

end Service

/-! ## The handlers -/

/-- `timestamppb.Timestamp`. -/
structure Timestamp where
  seconds : Int
  nanos : Int
  deriving DecidableEq, Repr

/-- `timestamppb.New`. -/
def Timestamp.new (t : Int) : Timestamp := ⟨t / 1000000000, t % 1000000000⟩

/-- `userv1.User`. -/
structure UserMessage where
  id : String
  name : String
  email : String
  enabled : Bool
  createdAt : Timestamp
  updatedAt : Timestamp
  deriving DecidableEq, Repr

/-- `toProtoUser`. -/
def toProtoUser (user : Entity) : UserMessage where
  id := user.id
  name := user.name
  email := user.email
  enabled := user.enabled
  createdAt := .new user.createdAt
  updatedAt := .new user.updatedAt

/-- `mapUserErr`. -/
def mapUserErr (P : Protobuf) (field resourceName : String) : ServiceError → Option GoError
  | .notFound =>
      Apierror.resource P .notFound "USER_NOT_FOUND" "user not found" "user" resourceName
  | .emailExists =>
      Apierror.resource P .alreadyExists "USER_EMAIL_EXISTS" "email already exists" "user"
        resourceName
  | .invalidUserID =>
      Apierror.invalidArgument P "USER_ID_INVALID" "invalid user id"
        [⟨field, "must be a valid UUID"⟩]
  | .invalidPageToken =>
      Apierror.invalidArgument P "PAGE_TOKEN_INVALID" "invalid page token"
        [⟨field, "must be a valid page token"⟩]
  | .other _ => Apierror.new P .internal "USER_OPERATION_FAILED" "user operation failed" []

namespace UserHandler

/-- `UserHandler.CreateUser`. -/
def createUser {σ : Type} (P : Protobuf) (tables : CaseTables)
    (hash : String → Except String String) (repo : Entity → Except CreateError σ)
    (request : CreateUserRequest) (id : UUID) (now : Int) :
    Except (Option GoError) (UserMessage × σ) :=
  match Service.create tables hash repo request id now with
  | .ok (user, stored) => .ok (toProtoUser user, stored)
  | .error err => .error (mapUserErr P "email" request.email err)

/-- `UserHandler.GetUser`. -/
def getUser (P : Protobuf) (parses : String → Bool) (users : List User) (id : String) :
    Except (Option GoError) UserMessage :=
  match Service.get parses users id with
  | .ok user => .ok (toProtoUser user)
  | .error err => .error (mapUserErr P "id" id err)

/-- `UserHandler.ListUsers`, given what the service returned. -/
def listUsers (P : Protobuf) (pageToken : String) :
    Except Pagination.ListError (Pagination.Page User) →
      Except (Option GoError) (List UserMessage × String)
  | .ok page => .ok (page.items.map fun user => toProtoUser user.entity, page.nextPageToken)
  | .error .invalidPageToken =>
      .error (mapUserErr P "page_token" pageToken .invalidPageToken)
  | .error .failed => .error (mapUserErr P "page_token" pageToken (.other "list users"))

end UserHandler

open UserHandler (createUser)

/-! ## The two layers of validation -/

/-- Nothing is left of a text that is all spaces. -/
theorem trimSpaceText_eq_empty {text : String} :
    Go.trimSpaceText text = "" ↔ ∀ c ∈ text.toList, Go.isSpace c = true := by
  have hempty : Go.trimSpaceText text = "" ↔ Go.trim Go.isSpace text.toList = [] := by
    rw [← String.toList_inj, Go.trimSpaceText, String.toList_ofList]
    rfl
  rw [hempty, Go.trim, List.reverse_eq_nil_iff, List.dropWhile_eq_nil_iff]
  apply Iff.intro
  · intro hall c hc
    by_contra hspace
    -- A character that is no space survives the first cut, and then the second.
    have hfirst : text.toList.dropWhile Go.isSpace ≠ [] := by
      rw [ne_eq, List.dropWhile_eq_nil_iff]
      exact fun h => hspace (h c hc)
    have hhead := List.head?_dropWhile_not Go.isSpace text.toList
    rw [List.head?_eq_some_head hfirst] at hhead
    have hmem : (text.toList.dropWhile Go.isSpace).head hfirst ∈
        (text.toList.dropWhile Go.isSpace).reverse :=
      List.mem_reverse.mpr (List.head_mem hfirst)
    simp [hall _ hmem] at hhead
  · intro hall c hc
    exact hall c ((List.dropWhile_sublist _).mem (List.mem_reverse.mp hc))

theorem normalise_eq_empty {tables : CaseTables} {email : String} :
    tables.normalise email = "" ↔ Go.trimSpaceText email = "" := by
  rw [CaseTables.normalise, CaseTables.lower, ← String.toList_inj, ← String.toList_inj,
    String.toList_ofList]
  simp

/-- A text has at least as many bytes as characters. -/
theorem length_le_length_encodeUtf8 (text : String) :
    text.toList.length ≤ (Go.encodeUtf8 text).length := by
  rw [Go.encodeUtf8]
  induction text.toList with
  | nil => simp
  | cons c rest ih =>
      have hpos : 0 < (String.utf8EncodeChar c).length := by
        rw [String.length_utf8EncodeChar]
        exact c.utf8Size_pos
      rw [List.flatMap_cons, List.length_append, List.length_cons]
      omega

/-- An email has an at sign, so it is not all spaces. -/
theorem trimSpaceText_of_isEmail {email : String} (hemail : isEmail email = true) :
    Go.trimSpaceText email ≠ "" := by
  have hat : '@' ∈ email.toList := by
    unfold isEmail at hemail
    split at hemail
    · cases hemail
    · next first domain hdrop =>
        have hhead := List.head?_dropWhile_not (fun c : Char => decide (c ≠ '@')) email.toList
        rw [hdrop] at hhead
        have hfirst : first = '@' := by simpa using hhead
        have hmem : first ∈ email.toList.dropWhile (· ≠ '@') := by
          rw [hdrop]
          exact List.mem_cons_self
        exact hfirst ▸ (List.dropWhile_sublist _).mem hmem
  intro hempty
  have hspace := trimSpaceText_eq_empty.mp hempty '@' hat
  revert hspace
  decide

section Layers

variable {σ : Type} {P : Protobuf} {tables : CaseTables} {hash : String → Except String String}
  {repo : Entity → Except CreateError σ} {request : CreateUserRequest} {id : UUID} {now : Int}

/-- The handler answers with the created user, or that the email is taken. -/
def Answers (P : Protobuf) (request : CreateUserRequest) :
    Except (Option GoError) (UserMessage × σ) → Prop
  | .ok _ => True
  | .error err =>
      err = Apierror.resource P .alreadyExists "USER_EMAIL_EXISTS" "email already exists" "user"
        request.email

theorem not_answers_internal :
    ¬ Answers (σ := σ) P request
      (.error (Apierror.new P .internal "USER_OPERATION_FAILED" "user operation failed" [])) :=
  Apierror.new_ne_new P (by simp) (by simp) (by simp) _ _ _ _ _ _

/-- Past the checks of the service, the hasher and the repository decide. -/
theorem createUser_answers (hhash : ∀ password, ∃ passwordHash, hash password = .ok passwordHash)
    (hrepo : ∀ user, repo user ≠ .error .failed) (hemail : tables.normalise request.email ≠ "")
    (hbytes : ¬ (Go.encodeUtf8 request.password).length < 8)
    (hname : Go.trimSpaceText request.name ≠ "")
    (hpassword : Go.trimSpaceText request.password ≠ "") :
    Answers P request (createUser P tables hash repo request id now) := by
  obtain ⟨passwordHash, hhashed⟩ := hhash request.password
  simp only [createUser, Service.create, if_neg hpassword, if_neg hbytes, newUser, if_neg hname,
    if_neg hemail, hhashed]
  split
  · trivial
  · next err heq =>
      split at heq
      · cases heq
        rfl
      · next hstore => exact absurd hstore (hrepo _)
      · cases heq

theorem createUser_of_blank_password (hpassword : Go.trimSpaceText request.password = "") :
    createUser P tables hash repo request id now = .error
      (Apierror.new P .internal "USER_OPERATION_FAILED" "user operation failed" []) := by
  simp only [createUser, Service.create, if_pos hpassword, mapUserErr]

theorem createUser_of_blank_name (hbytes : ¬ (Go.encodeUtf8 request.password).length < 8)
    (hname : Go.trimSpaceText request.name = "") :
    createUser P tables hash repo request id now = .error
      (Apierror.new P .internal "USER_OPERATION_FAILED" "user operation failed" []) := by
  by_cases hpassword : Go.trimSpaceText request.password = ""
  · exact createUser_of_blank_password hpassword
  · simp only [createUser, Service.create, if_neg hpassword, if_neg hbytes, newUser, if_pos hname,
      mapUserErr]

/-- A request that passed the rules is answered with a user or `AlreadyExists` exactly
when something is left of the name and of the password after `TrimSpace`. -/
theorem create_user_answers_iff (P : Protobuf) (tables : CaseTables)
    (hhash : ∀ password, ∃ passwordHash, hash password = .ok passwordHash)
    (hrepo : ∀ user, repo user ≠ .error .failed) (request : CreateUserRequest)
    (hvalid : request.valid = true) (id : UUID) (now : Int) :
    Answers P request (createUser P tables hash repo request id now) ↔
      Go.trimSpaceText request.name ≠ "" ∧ Go.trimSpaceText request.password ≠ "" := by
  simp only [CreateUserRequest.valid, Bool.and_eq_true, decide_eq_true_eq] at hvalid
  obtain ⟨⟨⟨⟨-, hemail⟩, -⟩, hlength⟩, -⟩ := hvalid
  have hnormal : tables.normalise request.email ≠ "" :=
    mt normalise_eq_empty.mp (trimSpaceText_of_isEmail hemail)
  have hbytes : ¬ (Go.encodeUtf8 request.password).length < 8 := by
    have hle := length_le_length_encodeUtf8 request.password
    omega
  apply Iff.intro
  · intro hanswers
    apply And.intro
    · intro hname
      rw [createUser_of_blank_name hbytes hname] at hanswers
      exact not_answers_internal hanswers
    · intro hpassword
      rw [createUser_of_blank_password hpassword] at hanswers
      exact not_answers_internal hanswers
  · rintro ⟨hname, hpassword⟩
    exact createUser_answers hhash hrepo hnormal hbytes hname hpassword

end Layers

/-- A hasher that succeeds. -/
def sampleHash (_ : String) : Except String String := .ok "$argon2id$"

theorem sampleHash_ok (password : String) :
    ∃ passwordHash, sampleHash password = .ok passwordHash := ⟨_, rfl⟩

/-- The repository in memory, with nobody in it: it stores, or the email is taken. -/
def sampleRepo : Entity → Except CreateError (List Entity) := Memory.create CaseTables.sample [] []

theorem sampleRepo_ne_failed (user : Entity) : sampleRepo user ≠ .error .failed := by
  unfold sampleRepo Memory.create
  split <;> simp

/-- A request with white space around the name and capitals in the email. -/
def adaRequest : CreateUserRequest := ⟨" Ada ", "Ada@Example.com", "correct horse"⟩

theorem create_user_answers_ada :
    adaRequest.valid = true ∧ Answers Protobuf.wire adaRequest
      (createUser Protobuf.wire CaseTables.sample sampleHash sampleRepo adaRequest (.ofNat 1)
        0) := by
  have hvalid : adaRequest.valid = true := by decide +kernel
  have hiff := create_user_answers_iff Protobuf.wire CaseTables.sample sampleHash_ok
    sampleRepo_ne_failed adaRequest hvalid (.ofNat 1) 0
  exact ⟨hvalid, hiff.mpr (by decide +kernel)⟩

/-- Eight spaces are a password of eight characters. -/
theorem blank_password_is_internal :
    ¬ ∀ request : CreateUserRequest, request.valid = true →
      Answers Protobuf.wire request
        (createUser Protobuf.wire CaseTables.sample sampleHash sampleRepo request (.ofNat 1) 0) := by
  intro hall
  have hanswers := hall ⟨"Ada", "ada@example.com", "        "⟩ (by decide +kernel)
  rw [createUser_of_blank_password (by decide +kernel)] at hanswers
  exact not_answers_internal hanswers

end GoFoundation.Users
