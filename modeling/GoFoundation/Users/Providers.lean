/-
# The order of the providers

`main` hands `Authenticate` the local verifier and, when it is configured, the one
for OpenID Connect.  The loop skips a verifier that refuses the token but returns at
once when the lookup fails, so the order of the list matters as soon as two verifiers
accept a token.  Issuer and audience keep the two apart; with at most one that
accepts, the order is of no consequence.

An external identity is rebuilt from the row.  A local one is the verifier's own with
name and email replaced: its user id has the spelling of the token's subject, and the
lookup compares it as a UUID.
-/

import GoFoundation.Library.Table
import GoFoundation.Users.Authentication

namespace GoFoundation.Users

open Library Postgres Grpc Server

/-- The claims of a token that either verifier reads. -/
structure Claims where
  subject : String
  username : String
  email : String
  sessionID : String
  deriving DecidableEq, Repr

/-- `JWTProvider.Verify`, over what checks the signature, the issuer, the audience
and the expiry and reads the claims. -/
def jwtVerify (parse : GoString → Option Claims) : TokenVerifier := fun raw =>
  (parse raw).map fun claims =>
    ⟨claims.subject, claims.username, claims.email, "local", claims.sessionID⟩

/-- `Verifier.Verify` of the package `oidc`; it reads no session. -/
def oidcVerify (parse : GoString → Option Claims) : TokenVerifier := fun raw =>
  (parse raw).map fun claims => ⟨claims.subject, claims.username, claims.email, "oidc", ""⟩

/-- The rows `users` can hold: the primary key, and the unique index on the external
identities that are present. -/
structure Directory where
  users : List User
  ids : (users.map User.id).Nodup
  external : ∀ first ∈ users, ∀ second ∈ users, first.externalSubject ≠ "" →
    first.authProvider = second.authProvider →
    first.externalSubject = second.externalSubject → first = second

/-- The user that an accepted identity stands for: by id for the provider `local`, by
provider and subject otherwise. -/
def ResolvesTo (claimed : Identity) (user : User) : Prop :=
  if claimed.provider = "local" then UUID.parse claimed.userID = some user.id
  else claimed.userID ≠ "" ∧ user.authProvider = claimed.provider ∧
    user.externalSubject = claimed.userID

theorem Directory.lookupIdentity_eq_found (directory : Directory) {claimed : Identity}
    {user : User} : lookupIdentity directory.users claimed = .found user ↔
      user ∈ directory.users ∧ ResolvesTo claimed user := by
  unfold lookupIdentity ResolvesTo
  split
  · unfold getByID
    cases hparse : UUID.parse claimed.userID with
    | none => simp
    | some id =>
        rw [lookup_eq_found_iff]
        · simp [eq_comm]
        · intro first hfirst second hsecond hid hid'
          exact Table.eq_of_key_eq directory.ids hfirst hsecond
            ((of_decide_eq_true hid).trans (of_decide_eq_true hid').symm)
  · unfold getByExternalIdentity
    rw [lookup_eq_found_iff]
    · simp only [Bool.and_eq_true, decide_eq_true_eq]
      apply Iff.intro
      · rintro ⟨hmem, ⟨hprovider, hsubject⟩, hpresent⟩
        exact ⟨hmem, hsubject ▸ hpresent, hprovider, hsubject⟩
      · rintro ⟨hmem, hpresent, hprovider, hsubject⟩
        exact ⟨hmem, ⟨hprovider, hsubject⟩, hsubject ▸ hpresent⟩
    · intro first hfirst second hsecond hcond hcond'
      simp only [Bool.and_eq_true, decide_eq_true_eq] at hcond hcond'
      exact directory.external first hfirst second hsecond hcond.2
        (hcond.1.1.trans hcond'.1.1.symm) (hcond.1.2.trans hcond'.1.2.symm)

/-! ## The loop over the verifiers -/

section Loop

variable {lookup : Identity → Lookup} {raw : GoString} {verifiers : List TokenVerifier}

/-- At most one verifier of the list accepts the token. -/
def AtMostOneAccepts (raw : GoString) (verifiers : List TokenVerifier) : Prop :=
  (verifiers.countP fun verify => (verify raw).isSome) ≤ 1

instance (raw : GoString) (verifiers : List TokenVerifier) :
    Decidable (AtMostOneAccepts raw verifiers) :=
  inferInstanceAs (Decidable (_ ≤ _))

theorem AtMostOneAccepts.perm {other : List TokenVerifier} (hperm : verifiers.Perm other)
    (hone : AtMostOneAccepts raw verifiers) : AtMostOneAccepts raw other := by
  unfold AtMostOneAccepts at *
  rwa [← hperm.countP_eq]

theorem AtMostOneAccepts.tail {verify : TokenVerifier}
    (hone : AtMostOneAccepts raw (verify :: verifiers)) : AtMostOneAccepts raw verifiers := by
  unfold AtMostOneAccepts at *
  rw [List.countP_cons] at hone
  omega

/-- Behind a verifier that accepts, all refuse. -/
theorem AtMostOneAccepts.refuses {verify : TokenVerifier} {claimed : Identity}
    (hone : AtMostOneAccepts raw (verify :: verifiers)) (haccepts : verify raw = some claimed) :
    ∀ other ∈ verifiers, other raw = none := by
  unfold AtMostOneAccepts at hone
  rw [List.countP_cons, haccepts] at hone
  have hzero : (verifiers.countP fun verify => (verify raw).isSome) = 0 := by
    simpa using hone
  simpa using List.countP_eq_zero.mp hzero

/-- One verifier of the list accepts the token; then its identity decides. -/
theorem authenticate_of_accepted (hone : AtMostOneAccepts raw verifiers)
    {verify : TokenVerifier} (hmem : verify ∈ verifiers) {claimed : Identity}
    (haccepts : verify raw = some claimed) :
    authenticate lookup raw verifiers = resolve claimed (lookup claimed) := by
  induction verifiers with
  | nil => cases hmem
  | cons head rest ih =>
      rcases List.mem_cons.mp hmem with rfl | hrest
      · simp only [authenticate, haccepts]
      · cases hhead : head raw with
        | none =>
            simp only [authenticate, hhead]
            exact ih hone.tail hrest
        | some other =>
            have hrefuses := hone.refuses hhead verify hrest
            rw [haccepts] at hrefuses
            cases hrefuses

theorem authenticate_of_refused (hnone : ∀ verify ∈ verifiers, verify raw = none) :
    authenticate lookup raw verifiers = none := by
  induction verifiers with
  | nil => rfl
  | cons head rest ih =>
      simp only [authenticate, hnone head List.mem_cons_self]
      exact ih fun verify hmem => hnone verify (List.mem_cons_of_mem _ hmem)

/-- With at most one verifier that accepts, the list may be permuted. -/
theorem authenticate_perm {other : List TokenVerifier} (hperm : verifiers.Perm other)
    (hone : AtMostOneAccepts raw verifiers) :
    authenticate lookup raw other = authenticate lookup raw verifiers := by
  by_cases hany : ∃ verify ∈ verifiers, ∃ claimed, verify raw = some claimed
  · obtain ⟨verify, hmem, claimed, haccepts⟩ := hany
    rw [authenticate_of_accepted (hone.perm hperm) (hperm.mem_iff.mp hmem) haccepts,
      authenticate_of_accepted hone hmem haccepts]
  · have hnone : ∀ verify ∈ verifiers, verify raw = none := by
      intro verify hmem
      rw [Option.eq_none_iff_forall_ne_some]
      exact fun claimed haccepts => hany ⟨verify, hmem, claimed, haccepts⟩
    rw [authenticate_of_refused hnone,
      authenticate_of_refused fun verify hmem => hnone verify (hperm.mem_iff.mpr hmem)]

end Loop

/-! ## The result -/

/-- `Authenticate` does not depend on the order of the verifiers, succeeds exactly for
an accepted identity of an enabled user, and then returns an identity that is the
user's own in the sense of `own`. -/
structure OrderFree (own : Identity → User → Identity → Prop) (directory : Directory)
    (raw : GoString) (verifiers : List TokenVerifier) : Prop where
  permuted : ∀ other, verifiers.Perm other →
    authenticate (lookupIdentity directory.users) raw other =
      authenticate (lookupIdentity directory.users) raw verifiers
  succeeds : (authenticate (lookupIdentity directory.users) raw verifiers).isSome ↔
    ∃ verify ∈ verifiers, ∃ claimed, verify raw = some claimed ∧
      ∃ user ∈ directory.users, ResolvesTo claimed user ∧ user.enabled = true
  returned : ∀ identity,
    authenticate (lookupIdentity directory.users) raw verifiers = some identity →
      ∃ verify ∈ verifiers, ∃ claimed, verify raw = some claimed ∧
        ∃ user ∈ directory.users, ResolvesTo claimed user ∧ own claimed user identity

/-- User id, name and email are the texts of the row. -/
def OwnTexts (_ : Identity) (user : User) (identity : Identity) : Prop :=
  identity.userID = user.id.text ∧ identity.username = user.name ∧ identity.email = user.email

/-- Name and email are those of the row, and the user id is its id: in the spelling of
the token's subject for the provider `local`, as the row prints it otherwise. -/
def OwnValues (claimed : Identity) (user : User) (identity : Identity) : Prop :=
  UUID.parse identity.userID = some user.id ∧
    identity.userID = (if claimed.provider = "local" then claimed.userID else user.id.text) ∧
    identity.username = user.name ∧ identity.email = user.email

theorem ownValues_identityOf {claimed : Identity} {user : User}
    (hresolves : ResolvesTo claimed user) : OwnValues claimed user (identityOf claimed user) := by
  unfold ResolvesTo at hresolves
  unfold OwnValues identityOf
  split
  · next hlocal =>
      rw [if_pos hlocal] at hresolves
      exact ⟨hresolves, rfl, rfl, rfl⟩
  · exact ⟨UUID.parse_text user.id, rfl, rfl, rfl⟩

theorem authenticate_order_free (directory : Directory) (raw : GoString)
    (verifiers : List TokenVerifier) (hone : AtMostOneAccepts raw verifiers) :
    OrderFree OwnValues directory raw verifiers where
  permuted _ hperm := authenticate_perm hperm hone
  succeeds := by
    apply Iff.intro
    · intro hsome
      obtain ⟨identity, hauth⟩ := Option.isSome_iff_exists.mp hsome
      obtain ⟨verify, hmem, claimed, user, haccepts, hfound, henabled, -⟩ :=
        authenticate_eq_some hauth
      obtain ⟨huser, hresolves⟩ := directory.lookupIdentity_eq_found.mp hfound
      exact ⟨verify, hmem, claimed, haccepts, user, huser, hresolves, henabled⟩
    · rintro ⟨verify, hmem, claimed, haccepts, user, huser, hresolves, henabled⟩
      have hfound := directory.lookupIdentity_eq_found.mpr ⟨huser, hresolves⟩
      rw [authenticate_of_accepted hone hmem haccepts, hfound, resolve, if_pos henabled]
      rfl
  returned := by
    intro identity hauth
    obtain ⟨verify, hmem, claimed, user, haccepts, hfound, -, rfl⟩ := authenticate_eq_some hauth
    obtain ⟨huser, hresolves⟩ := directory.lookupIdentity_eq_found.mp hfound
    exact ⟨verify, hmem, claimed, haccepts, user, huser, hresolves,
      ownValues_identityOf hresolves⟩

/-- One user who signs in with a password, and one who signs in elsewhere. -/
def twoUsers : Directory where
  users :=
    [⟨.ofNat 171, "Ada", "ada@example.com", "$argon2id$", true, "local", "", 0, 0⟩,
      ⟨.ofNat 7, "Bob", "bob@example.com", "", true, "oidc", "sub-7", 0, 0⟩]
  ids := by decide +kernel
  external := by decide +kernel

/-- A local verifier that accepts one token, with this subject. -/
def localVerifier (subject : String) : TokenVerifier :=
  jwtVerify fun raw => if raw = [1] then some ⟨subject, "old name", "", "session"⟩ else none

/-- A verifier for OpenID Connect that accepts another token. -/
def externalVerifier : TokenVerifier :=
  oidcVerify fun raw => if raw = [2] then some ⟨"sub-7", "bobby", "", ""⟩ else none

theorem authenticate_order_free_external :
    OrderFree OwnValues twoUsers [2]
      [localVerifier "00000000-0000-0000-0000-0000000000ab", externalVerifier] :=
  authenticate_order_free _ _ _ (by decide)

/-- A token whose subject spells the user id with capitals authenticates the user, but
the identity keeps the spelling of the token. -/
theorem local_subject_not_respelled :
    ¬ ∀ (directory : Directory) (raw : GoString) (verifiers : List TokenVerifier),
      AtMostOneAccepts raw verifiers → OrderFree OwnTexts directory raw verifiers := by
  intro hall
  have hfree := hall twoUsers [1]
    [localVerifier "00000000-0000-0000-0000-0000000000AB", externalVerifier] (by decide)
  have hauth : authenticate (lookupIdentity twoUsers.users) [1]
      [localVerifier "00000000-0000-0000-0000-0000000000AB", externalVerifier] =
        some ⟨"00000000-0000-0000-0000-0000000000AB", "Ada", "ada@example.com", "local",
          "session"⟩ := by
    decide +kernel
  obtain ⟨-, -, -, -, user, huser, -, hid, -⟩ := hfree.returned _ hauth
  have hspelled : ∀ user ∈ twoUsers.users,
      "00000000-0000-0000-0000-0000000000AB" ≠ user.id.text := by
    decide +kernel
  exact hspelled user huser hid

end GoFoundation.Users
