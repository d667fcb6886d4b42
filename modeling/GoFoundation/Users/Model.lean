/-
# Users

The user entity and the lookups by which other components read the table
`users`.  Nothing in the server changes a user once it is created, but an
operator may, so components that only look users up take the answer of a lookup
as given.
-/

import GoFoundation.Postgres.Types

namespace GoFoundation.Users

open Postgres

/-- `user.User`, which is also a row of `users` with absent texts read as empty. -/
structure User where
  id : UUID
  name : String
  email : String
  passwordHash : String
  enabled : Bool
  authProvider : String
  externalSubject : String
  createdAt : Int
  updatedAt : Int
  deriving DecidableEq, Repr

/-- What a lookup returns: a user, `user.ErrNotFound`, or another error. -/
inductive Lookup
  | found (user : User)
  | notFound
  | failed
  deriving DecidableEq, Repr

/-- A lookup that is a `SELECT` by a condition and not itself in error. -/
def lookup (users : List User) (cond : User → Bool) : Lookup :=
  match users.find? cond with
  | some user => .found user
  | none => .notFound

end GoFoundation.Users
