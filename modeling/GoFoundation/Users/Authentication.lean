/-
# Authentication

`AuthenticationService.Authenticate`: the first verifier that accepts the token
decides, and the identity it claims must belong to a user who is enabled.  The
verifiers check signatures with code that is not part of the repository; each is
a function here.
-/

import GoFoundation.Postgres.Text
import GoFoundation.Server.Context
import GoFoundation.Users.Model

namespace GoFoundation.Users

open Postgres Grpc Server

/-- `auth.TokenVerifier`; `none` is an error. -/
abbrev TokenVerifier := GoString → Option Identity

/-- `UserRepository.GetByID`; an id that is no UUID makes the statement fail. -/
def getByID (users : List User) (id : String) : Lookup :=
  match UUID.parse id with
  | some id => lookup users fun user => user.id = id
  | none => .failed

/-- `UserRepository.GetByExternalIdentity`.  An absent subject equals nothing. -/
def getByExternalIdentity (users : List User) (provider subject : String) : Lookup :=
  lookup users fun user =>
    user.authProvider = provider && user.externalSubject = subject && user.externalSubject ≠ ""

/-- The lookup for the identity that a verifier returned. -/
def lookupIdentity (users : List User) (identity : Identity) : Lookup :=
  if identity.provider = "local" then getByID users identity.userID
  else getByExternalIdentity users identity.provider identity.userID

/-- The identity that `Authenticate` returns for a user. -/
def identityOf (claimed : Identity) (user : User) : Identity :=
  if claimed.provider = "local" then { claimed with username := user.name, email := user.email }
  else ⟨user.id.text, user.name, user.email, claimed.provider, ""⟩

/-- What becomes of the identity that a verifier returned, given the answer of the
lookup. -/
def resolve (claimed : Identity) : Lookup → Option Identity
  | .found user => if user.enabled then some (identityOf claimed user) else none
  | .notFound | .failed => none

/-- `AuthenticationService.Authenticate`, over lookups; `none` is
`ErrInvalidToken`. -/
def authenticate (lookup : Identity → Lookup) (raw : GoString) :
    List TokenVerifier → Option Identity
  | [] => none
  | verify :: rest =>
      match verify raw with
      | none => authenticate lookup raw rest
      | some claimed => resolve claimed (lookup claimed)

/-! ## What acceptance means -/

theorem lookup_eq_found {users : List User} {cond : User → Bool} {user : User}
    (hfound : lookup users cond = .found user) : user ∈ users ∧ cond user = true := by
  unfold lookup at hfound
  split at hfound
  · next found hfind =>
      cases hfound
      exact ⟨List.mem_of_find?_eq_some hfind, List.find?_some hfind⟩
  · cases hfound

/-- A lookup by a condition that one row meets at most finds exactly that row. -/
theorem lookup_eq_found_iff {users : List User} {cond : User → Bool}
    (hunique : ∀ first ∈ users, ∀ second ∈ users, cond first = true → cond second = true →
      first = second) {user : User} :
    lookup users cond = .found user ↔ user ∈ users ∧ cond user = true := by
  refine ⟨lookup_eq_found, fun ⟨hmem, hcond⟩ => ?_⟩
  unfold lookup
  cases hfind : users.find? cond with
  | none => exact absurd hcond (List.find?_eq_none.mp hfind user hmem)
  | some other =>
      have hsame := hunique other (List.mem_of_find?_eq_some hfind) user hmem
        (List.find?_some hfind) hcond
      rw [hsame]

/-- The identity returned names the user who was found. -/
theorem parse_identityOf {users : List User} {claimed : Identity} {user : User}
    (hfound : lookupIdentity users claimed = .found user) :
    user ∈ users ∧ UUID.parse (identityOf claimed user).userID = some user.id := by
  by_cases hlocal : claimed.provider = "local"
  · rw [lookupIdentity, if_pos hlocal, getByID] at hfound
    rw [identityOf, if_pos hlocal]
    split at hfound
    · next id hparse =>
        obtain ⟨hmem, hid⟩ := lookup_eq_found hfound
        exact ⟨hmem, hparse.trans (congrArg some (of_decide_eq_true hid).symm)⟩
    · cases hfound
  · rw [lookupIdentity, if_neg hlocal] at hfound
    rw [identityOf, if_neg hlocal]
    exact ⟨(lookup_eq_found hfound).1, UUID.parse_text user.id⟩

/-- Who authenticates presented a token that a verifier accepted, for an enabled
user. -/
theorem authenticate_eq_some {lookup : Identity → Lookup} {raw : GoString}
    {verifiers : List TokenVerifier} {identity : Identity}
    (hauth : authenticate lookup raw verifiers = some identity) :
    ∃ verify ∈ verifiers, ∃ claimed user, verify raw = some claimed ∧
      lookup claimed = .found user ∧ user.enabled = true ∧ identity = identityOf claimed user := by
  induction verifiers with
  | nil => cases hauth
  | cons verify rest ih =>
      rw [authenticate] at hauth
      split at hauth
      · obtain ⟨verify', hmem, hrest⟩ := ih hauth
        exact ⟨verify', List.mem_cons_of_mem _ hmem, hrest⟩
      · next claimed hverify =>
          refine ⟨verify, List.mem_cons_self, claimed, ?_⟩
          cases hlookup : lookup claimed with
          | found user =>
              rw [hlookup, resolve, Option.ite_none_right_eq_some, Option.some.injEq] at hauth
              exact ⟨user, hverify, rfl, hauth.1, hauth.2.symm⟩
          | notFound | failed =>
              rw [hlookup] at hauth
              cases hauth

end GoFoundation.Users
