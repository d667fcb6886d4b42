/-
# Access tokens

`local.JWTProvider`, which signs the access tokens of local users and verifies them.  The
library that encodes and signs is not part of the repository: `sign` and `decode` are
functions here, and results name what they need of the two.  The checks that the library
makes on the claims decide whether a token is accepted, so they are written out.
-/

import GoFoundation.Sessions.Disclosure

namespace GoFoundation.Sessions

open Library Postgres Grpc Users Server

/-! ## Claims -/

/-- `claims`.  The times are `NumericDate`s, in seconds. -/
structure Claims where
  username : String
  email : String
  sessionID : String
  issuer : String
  subject : String
  audience : List String
  issuedAt : Option Int
  expiresAt : Option Int
  notBefore : Option Int
  deriving DecidableEq, Repr

/-- The text of a number is exact up to here: it is read as a floating-point number. -/
def exactSeconds : Int := 9007199254740992

/-- The times survive being written and read. -/
def Claims.Exact (claims : Claims) : Prop :=
  ∀ time ∈ claims.issuedAt.toList ++ claims.expiresAt.toList ++ claims.notBefore.toList,
    0 ≤ time ∧ time ≤ exactSeconds

/-- `JWTProvider`, with `SignedString` under the private key and, for the texts that are
signed by `RS256` and verify under the public key, the claims in them. -/
structure JWTProvider where
  sign : Claims → Option GoString
  decode : GoString → Option Claims
  issuer : String
  audience : String
  ttl : Int
  ttl_pos : 0 < ttl

namespace JWTProvider

variable (provider : JWTProvider)

/-- The keys belong together, and claims are read as they were written. -/
structure Lawful : Prop where
  decode_sign : ∀ claims raw, claims.Exact → provider.sign claims = some raw →
    provider.decode raw = some claims

/-! ## Issue and Verify -/

/-- The claims that `Issue` signs. -/
def claimsFor (now : Int) (identity : Identity) : Claims where
  username := identity.username
  email := identity.email
  sessionID := identity.sessionID
  issuer := provider.issuer
  subject := identity.userID
  audience := [provider.audience]
  issuedAt := some (unix now)
  expiresAt := some (unix (now + provider.ttl))
  notBefore := none

/-- `JWTProvider.Issue`. -/
def issue (now : Int) (identity : Identity) : Option AccessToken :=
  (provider.sign (provider.claimsFor now identity)).map fun raw =>
    { accessToken := raw
      expiresAt := now + provider.ttl }

/-- `verifyExpiresAt`, where the claim is required. -/
def verifyExpiresAt (now : Int) (claims : Claims) : Bool :=
  match claims.expiresAt with
  | some expiresAt => now < expiresAt * 1000000000
  | none => false

/-- `verifyNotBefore`, where the claim is not required. -/
def verifyNotBefore (now : Int) (claims : Claims) : Bool :=
  match claims.notBefore with
  | some notBefore => notBefore * 1000000000 ≤ now
  | none => true

/-- `verifyAudience`, which is not called without an audience to expect. -/
def verifyAudience (claims : Claims) : Bool :=
  provider.audience = "" ||
    (String.join claims.audience ≠ "" && claims.audience.any fun audience =>
      audience = provider.audience)

/-- `verifyIssuer`, which is not called without an issuer to expect. -/
def verifyIssuer (claims : Claims) : Bool :=
  provider.issuer = "" || (claims.issuer ≠ "" && claims.issuer = provider.issuer)

/-- `Validator.Validate`, with the options of `Verify`. -/
def validate (now : Int) (claims : Claims) : Bool :=
  verifyExpiresAt now claims && verifyNotBefore now claims && provider.verifyAudience claims &&
    provider.verifyIssuer claims

/-- `JWTProvider.Verify`. -/
def verify (now : Int) : TokenVerifier := fun raw =>
  (provider.decode raw).bind fun claims =>
    if provider.validate now claims then
      some ⟨claims.subject, claims.username, claims.email, "local", claims.sessionID⟩
    else none

/-! ## What is accepted -/

variable {provider}

end JWTProvider

end GoFoundation.Sessions
