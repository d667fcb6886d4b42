/-
# Administrative calls, statement by statement

The calls that read or write users, roles and permissions, from the lookup of the
caller's identity to the last statement of the handler.  A call does not hold a
transaction: `AuthorizationUnary` reads the permissions in one statement and the handler
executes another one later, and other calls may come between.

What the interceptors in between may answer in place of the handler, and which
statements the database fails, is part of the call.  The history records which calls were
let pass, in which state, and which rows they changed; no statement reads it.
-/

import GoFoundation.Library.Threads
import GoFoundation.Rbac.Assignments
import GoFoundation.Users.Secrecy

namespace GoFoundation.Administration

open Library Postgres Grpc Users Server Rbac

/-! ## State -/

/-- What has happened to the assignments. -/
inductive Event
  | /-- `AuthorizationUnary` let the call pass: the actor had the permission in these
    contents. -/
    allowed (call : Nat) (actor permission : String) (contents : Contents)
  | /-- A handler made a row present or absent. -/
    changed (call : Nat) (actor method : String) (pair : Pair) (present : Bool)
  | /-- A starting server made sure that the user has the role. -/
    ensured (call : Nat) (user role : UUID)

namespace Event

/-- The call or start that the event belongs to. -/
def call : Event → Nat
  | allowed call _ _ _ | changed call _ _ _ _ | ensured call _ _ => call

/-- What the event wrote. -/
def write : Event → Option (Pair × Bool)
  | allowed _ _ _ _ => none
  | changed _ _ _ pair present => some (pair, present)
  | ensured _ user role => some (.userRole user role, true)

/-- The call, if the event is a change that a handler made. -/
def changer : Event → Option Nat
  | changed call _ _ _ _ => some call
  | allowed _ _ _ _ | ensured _ _ _ => none

end Event

/-- The tables, and the history, newest first. -/
structure Shared where
  contents : Contents
  log : List Event

/-! ## Requests -/

/-- A request, with what the environment draws for it. -/
inductive Request
  | createUser (request : CreateUserRequest) (id : UUID) (now : Int)
  | getUser (id : String)
  | change (call : Rbac.Call)
  | listRoles
  | listPermissions
  | me
  deriving DecidableEq, Repr

/-- `info.FullMethod` of the requests that change assignments. -/
def changeMethod : Rbac.Call → String
  | .assignRole _ _ => "/rbac.v1.RBACService/AssignRole"
  | .removeRole _ _ => "/rbac.v1.RBACService/RemoveRole"
  | .assignPermissionToRole _ _ => "/rbac.v1.RBACService/AssignPermissionToRole"
  | .removePermissionFromRole _ _ => "/rbac.v1.RBACService/RemovePermissionFromRole"

/-- `info.FullMethod`. -/
def Request.method : Request → String
  | createUser _ _ _ => "/user.v1.UserService/CreateUser"
  | getUser _ => "/user.v1.UserService/GetUser"
  | change call => changeMethod call
  | listRoles => "/rbac.v1.RBACService/ListRoles"
  | listPermissions => "/rbac.v1.RBACService/ListPermissions"
  | me => "/auth.v1.AuthService/Me"

/-- The responses. -/
inductive Reply
  | user (message : UserMessage)
  | /-- The four responses without fields. -/
    empty
  | roles (roles : List Role)
  | permissions (permissions : List Permission)
  | me (response : MeResponse)
  deriving DecidableEq, Repr

/-- What a call returns. -/
abbrev Answer := Except (Option GoError) Reply

/-- The statements of a call: of `Authenticate`, of `HasPermission`, and up to three of the
handler. -/
inductive Statement
  | identity
  | authorization
  | first
  | second
  | third
  deriving DecidableEq, Repr

/-- A call whose token a verifier accepted. -/
structure Rpc where
  /-- The identity that the verifier returned. -/
  claimed : Identity
  request : Request
  /-- The error of `ValidationUnary`, if it turns the call away. -/
  invalid : Option (Option GoError)
  /-- The answer of `IdempotencyUnary`, if it gives one in place of the handler. -/
  intercepted : Option Answer
  /-- `PasswordHasher.Hash`. -/
  hash : String → Except String String
  /-- The statements that fail. -/
  fails : Statement → Bool

/-- What `main` wires together, with `uuid.Parse`. -/
structure Config where
  tables : CaseTables
  parses : String → Bool

/-! ## Handlers -/

variable (P : Protobuf)

namespace RBACHandler

/-- How the handlers answer that only execute a statement. -/
def respond (reason message : String) (attempt : Attempt) (contents : Contents) :
    Contents × Answer :=
  match attempt.exec contents with
  | some contents' => (contents', .ok .empty)
  | none => (contents, .error (Apierror.new P .internal reason message []))

/-- `RBACHandler.AssignRole`. -/
def assignRole (userID roleID : String) (fails : Bool) : Contents → Contents × Answer :=
  respond P "ROLE_ASSIGNMENT_FAILED" "assign role failed" ⟨.assignRole userID roleID, fails⟩

/-- `RBACHandler.RemoveRole`. -/
def removeRole (userID roleID : String) (fails : Bool) : Contents → Contents × Answer :=
  respond P "ROLE_REMOVAL_FAILED" "remove role failed" ⟨.removeRole userID roleID, fails⟩

/-- `RBACHandler.AssignPermissionToRole`. -/
def assignPermissionToRole (roleID permissionID : String) (fails : Bool) :
    Contents → Contents × Answer :=
  respond P "PERMISSION_ASSIGNMENT_FAILED" "assign permission failed"
    ⟨.assignPermissionToRole roleID permissionID, fails⟩

/-- `RBACHandler.RemovePermissionFromRole`. -/
def removePermissionFromRole (roleID permissionID : String) (fails : Bool) :
    Contents → Contents × Answer :=
  respond P "PERMISSION_REMOVAL_FAILED" "remove permission failed"
    ⟨.removePermissionFromRole roleID permissionID, fails⟩

/-- The handler of a request that changes assignments. -/
def change (fails : Bool) : Rbac.Call → Contents → Contents × Answer
  | .assignRole userID roleID => assignRole P userID roleID fails
  | .removeRole userID roleID => removeRole P userID roleID fails
  | .assignPermissionToRole roleID permissionID =>
      assignPermissionToRole P roleID permissionID fails
  | .removePermissionFromRole roleID permissionID =>
      removePermissionFromRole P roleID permissionID fails

/-- `RBACHandler.ListRoles`. -/
def listRoles (fails : Bool) (contents : Contents) : Answer :=
  if fails then .error (Apierror.new P .internal "ROLE_LIST_FAILED" "list roles failed" [])
  else .ok (.roles (contents.roles.insertionSort fun first second => first.name ≤ second.name))

/-- `RBACHandler.ListPermissions`. -/
def listPermissions (fails : Bool) (contents : Contents) : Answer :=
  if fails then
    .error (Apierror.new P .internal "PERMISSION_LIST_FAILED" "list permissions failed" [])
  else .ok (.permissions
    (contents.tables.permissions.insertionSort fun first second => first.name ≤ second.name))

/-- Whichever handler it is, the contents are those after the attempt. -/
theorem change_fst (fails : Bool) (call : Rbac.Call) (contents : Contents) :
    (change P fails call contents).1 = contents.step ⟨call, fails⟩ := by
  have hrespond : ∀ reason message,
      (respond P reason message ⟨call, fails⟩ contents).1 = contents.step ⟨call, fails⟩ := by
    intro reason message
    rw [respond, Contents.step]
    cases Attempt.exec contents ⟨call, fails⟩ with
    | none => rfl
    | some contents' => rfl
  cases call <;> exact hrespond _ _

end RBACHandler

/-- `UserHandler.CreateUser`, whose one statement is the `INSERT`. -/
def createUser (config : Config) (hash : String → Except String String) (fails : Bool)
    (request : CreateUserRequest) (id : UUID) (now : Int) (contents : Contents) :
    Contents × Answer :=
  match UserHandler.createUser P config.tables hash (insertUser fails contents.users) request id
      now with
  | .ok (message, users) => ({ contents with users := users }, .ok (.user message))
  | .error err => (contents, .error err)

/-- `UserHandler.GetUser`. -/
def getUser (config : Config) (fails : Bool) (id : String) (contents : Contents) : Answer :=
  if fails && config.parses id then .error (mapUserErr P "id" id (.other "query user"))
  else (UserHandler.getUser P config.parses contents.users id).map .user

/-- `AuthHandler.Me`, with a statement for the user, one for the roles and one for the
permissions. -/
def me (fails : Statement → Bool) (identity : Identity) : Program Shared Answer :=
  (Program.select fun s =>
    if fails .first then .failed else getByID s.contents.users identity.userID).bind fun
  | .notFound => .done (.error (Apierror.resource P .notFound "USER_NOT_FOUND" "user not found"
      "user" identity.userID))
  | .failed => .done (.error (Apierror.new P .internal "USER_LOOKUP_FAILED" "load user failed" []))
  | .found user =>
      (Program.select fun s =>
        if fails .second then none else userRoles s.contents user.id.text).bind fun
      | none => .done (.error (Apierror.new P .internal "ROLE_LOOKUP_FAILED" "load roles failed"
          []))
      | some roles =>
          (Program.select fun s =>
            if fails .third then none
            else userPermissions s.contents.tables user.id.text).bind fun
          | none => .done (.error (Apierror.new P .internal "PERMISSION_LOOKUP_FAILED"
              "load permissions failed" []))
          | some permissions => .done (.ok (.me
              { id := user.id.text
                name := user.name
                email := user.email
                provider := identity.provider
                roles := roles.map Role.name
                permissions := permissions.map Permission.name }))

/-- A handler that executes one statement on the contents. -/
def executing (act : Contents → Contents × Answer) : Program Shared Answer :=
  Program.atomically fun s => ({ s with contents := (act s.contents).1 }, (act s.contents).2)

/-- A handler that changes assignments, and what it adds to the history. -/
def changing (i : Nat) (actor : String) (fails : Bool) (call : Rbac.Call) :
    Program Shared Answer :=
  Program.atomically fun s =>
    ({ contents := (RBACHandler.change P fails call s.contents).1
       log := ((Attempt.write s.contents ⟨call, fails⟩).map fun target =>
         .changed i actor (changeMethod call) target.1 target.2).toList ++ s.log },
      (RBACHandler.change P fails call s.contents).2)

/-- The handler of the request. -/
def handle (config : Config) (i : Nat) (rpc : Rpc) (identity : Identity) :
    Program Shared Answer :=
  match rpc.request with
  | .createUser request id now =>
      executing (createUser P config rpc.hash (rpc.fails .first) request id now)
  | .getUser id => executing fun contents => (contents, getUser P config (rpc.fails .first) id contents)
  | .change call => changing P i identity.userID (rpc.fails .first) call
  | .listRoles => executing fun contents =>
      (contents, RBACHandler.listRoles P (rpc.fails .first) contents)
  | .listPermissions => executing fun contents =>
      (contents, RBACHandler.listPermissions P (rpc.fails .first) contents)
  | .me => me P rpc.fails identity

/-! ## Calls -/

/-- The rest of the chain behind `AuthorizationUnary`. -/
def execute (config : Config) (i : Nat) (rpc : Rpc) (identity : Identity) :
    Program Shared Answer :=
  match rpc.intercepted with
  | some answer => .done answer
  | none => handle P config i rpc identity

/-- The statement of `AuthorizationUnary`, and what it adds to the history. -/
def authorize (i : Nat) (fails : Bool) (identity : Identity) (permission : String) :
    Program Shared (Option Bool) :=
  Program.atomically fun s =>
    let allowed := if fails then none else hasPermission s.contents.tables identity.userID permission
    (if allowed = some true then
        { s with log := .allowed i identity.userID permission s.contents :: s.log }
      else s, allowed)

/-- `AuthorizationUnary` and what is behind it. -/
def authorized (config : Config) (i : Nat) (rpc : Rpc) (identity : Identity) :
    Program Shared Answer :=
  match policies.lookup rpc.request.method with
  | none => execute P config i rpc identity
  | some permission =>
      (authorize i (rpc.fails .authorization) identity permission).bind fun
      | none => .done (.error (Apierror.new P .internal "AUTHORIZATION_CHECK_FAILED"
          "authorization check failed" []))
      | some false => .done (.error (Apierror.new P .permissionDenied "INSUFFICIENT_PERMISSIONS"
          "insufficient permissions" []))
      | some true => execute P config i rpc identity

/-- A call, from the lookup of `Authenticate` on. -/
def serve (config : Config) (i : Nat) (rpc : Rpc) : Program Shared Answer :=
  (Program.select fun s =>
    if rpc.fails .identity then .failed
    else lookupIdentity s.contents.users rpc.claimed).bind fun found =>
  match resolve rpc.claimed found with
  | none => .done (.error (Apierror.new P .unauthenticated "ACCESS_TOKEN_INVALID"
      "invalid access token" []))
  | some identity =>
      match rpc.invalid with
      | some err => .done (.error err)
      | none => authorized P config i rpc identity

/-! ## Undisturbed calls -/

/-- With nobody in between, `Me` is the function of one state. -/
theorem run_me (fails : Statement → Bool) (identity : Identity) (s : Shared) :
    ((me P fails identity).run s) =
      (s, (Rbac.me P ⟨fails .first, fails .second, fails .third⟩ s.contents (some identity)).map
        .me) := by
  simp only [me, Rbac.me, Program.run_bind, Program.run_select]
  cases (if fails .first = true then Lookup.failed
    else getByID s.contents.users identity.userID) with
  | notFound => rfl
  | failed => rfl
  | found user =>
      simp only [Program.run_bind, Program.run_select]
      cases (if fails .second = true then none else userRoles s.contents user.id.text) with
      | none => rfl
      | some roles =>
          simp only [Program.run_bind, Program.run_select]
          cases (if fails .third = true then none
            else userPermissions s.contents.tables user.id.text) with
          | none => rfl
          | some permissions => rfl

end GoFoundation.Administration
