/-
# Listing users

`UserRepository.List` and `Service.List` of users, with the pattern match of
their search.
-/

import GoFoundation.Pagination.Service
import GoFoundation.Users.Model

namespace GoFoundation.Users

open Postgres Pagination

/-! ## Patterns -/

/-- `text LIKE pattern`, on characters: a percent sign stands for any text, an
underscore for one character, and a backslash takes the next one literally. -/
def like : List Char → List Char → Bool
  | [], text => text.isEmpty
  | '%' :: pattern, text => text.tails.any fun rest => like pattern rest
  | '_' :: pattern, _ :: text => like pattern text
  | '\\' :: c :: pattern, d :: text => c = d && like pattern text
  | c :: pattern, d :: text => c = d && like pattern text
  | _ :: _, [] => false

/-- `text ILIKE '%' || search || '%'`.  How letters are lowered depends on the
locale of the database. -/
def iLikeSearch (lower : String → String) (search text : String) : Bool :=
  like (lower ("%" ++ search ++ "%")).toList (lower text).toList

/-! ## The repository and the service -/

/-- `user.ListFilter`. -/
structure ListFilter where
  limit : Nat
  search : String
  afterCreatedAt : Option Int
  afterID : String
  deriving DecidableEq, Repr

/-- The condition of the statement on the search. -/
def matchesSearch (lower : String → String) (search : String) (user : User) : Bool :=
  search = "" || iLikeSearch lower search user.name || iLikeSearch lower search user.email

/-- `UserRepository.List`. -/
def listUsers (lower : String → String) (users : List User) (filter : ListFilter) :
    Option (List User) :=
  selectPage User.createdAt User.id (matchesSearch lower filter.search) filter.afterCreatedAt
    filter.afterID filter.limit users

/-- `user.ListInput` without the page that is asked for. -/
structure ListInput where
  search : String
  deriving DecidableEq, Repr

/-- `Service.List` of users: pages of twenty unless the client asks otherwise. -/
def list (codec : CursorCodec) (lower : String → String) (input : ListInput) (users : List User)
    (pageSize : Int) (pageToken : String) : Except ListError (Page User) :=
  Pagination.list codec 20 (cursorOf User.createdAt User.id)
    (fun after limit => listUsers lower users
      { limit := limit
        search := Go.trimSpaceText input.search
        afterCreatedAt := after.map Cursor.time
        afterID := after.elim "" Cursor.id })
    pageSize pageToken

end GoFoundation.Users
