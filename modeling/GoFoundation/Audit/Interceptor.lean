/-
# The audit interceptor, apart from the store

Which calls `AuditUnary` records and what it puts into an event.  The event mixes
values of the server with what the client sent: the request id and the user agent
come from metadata as they are.
-/

import GoFoundation.Audit.Model
import GoFoundation.Idempotency.Interceptor
import GoFoundation.Server.Context

namespace GoFoundation.Audit

open Postgres Grpc Server Idempotency

/-- The type assertions of `mutationEvent` with the getters of the generated
messages; `none` where a message has another type. -/
structure Generated (P : Protobuf) where
  /-- The session of a `RevokeSessionRequest`. -/
  revokeSessionRequest : P.Message → Option String
  /-- The id of the user of a `CreateUserResponse` that has one. -/
  createUserResponse : P.Message → Option String
  /-- The user and the role of an `AssignRoleRequest`. -/
  assignRoleRequest : P.Message → Option (String × String)
  /-- The user and the role of a `RemoveRoleRequest`. -/
  removeRoleRequest : P.Message → Option (String × String)
  /-- The role and the permission of an `AssignPermissionToRoleRequest`. -/
  assignPermissionToRoleRequest : P.Message → Option (String × String)
  /-- The role and the permission of a `RemovePermissionFromRoleRequest`. -/
  removePermissionFromRoleRequest : P.Message → Option (String × String)

/-- The part of an event that depends on the method. -/
structure Mutation where
  action : String
  resourceType : String
  resourceID : String
  metadata : List (String × String)
  deriving DecidableEq, Repr

/-- `relationshipEvent`. -/
def relationshipEvent (action resourceType relatedKey : String) (ids : String × String) :
    Mutation where
  action := action
  resourceType := resourceType
  resourceID := ids.1
  metadata := [(relatedKey, ids.2)]

section

variable {P : Protobuf}

/-- A getter on the request; a value of another type reads as empty. -/
def Body.view {α : Type} (getter : P.Message → Option α) (default : α) : Body P → α
  | .message value => (getter value).getD default
  | .other => default

/-- The id of the created user, if the response has one. -/
def createdUser (generated : Generated P) : Response P → String
  | .message value => (generated.createUserResponse value).getD ""
  | .other => ""

/-- `mutationEvent`; `none` for a method that is no mutation. -/
def mutationEvent (generated : Generated P) (method : String) (req : Body P)
    (response : Response P) : Option Mutation :=
  if method = "/auth.v1.AuthService/RevokeSession" then
    some ⟨"session.revoke", "session", Body.view generated.revokeSessionRequest "" req, []⟩
  else if method = "/user.v1.UserService/CreateUser" then
    some ⟨"user.create", "user", createdUser generated response, []⟩
  else if method = "/rbac.v1.RBACService/AssignRole" then
    some (relationshipEvent "role.assign" "user" "role_id"
      (Body.view generated.assignRoleRequest ("", "") req))
  else if method = "/rbac.v1.RBACService/RemoveRole" then
    some (relationshipEvent "role.remove" "user" "role_id"
      (Body.view generated.removeRoleRequest ("", "") req))
  else if method = "/rbac.v1.RBACService/AssignPermissionToRole" then
    some (relationshipEvent "permission.assign" "role" "permission_id"
      (Body.view generated.assignPermissionToRoleRequest ("", "") req))
  else if method = "/rbac.v1.RBACService/RemovePermissionFromRole" then
    some (relationshipEvent "permission.remove" "role" "permission_id"
      (Body.view generated.removePermissionFromRoleRequest ("", "") req))
  else none

/-- `errorReason`. -/
def errorReason (P : Protobuf) (err : Option GoError) : String :=
  match err with
  | none => ""
  | some err => (((convert err).details.findSome? P.errorInfoOf).map ErrorInfo.reason).getD ""

/-- The event that `AuditUnary` records once the handler has returned. -/
def auditEvent (generated : Generated P) (ctx : Context) (method : String) (req : Body P)
    (outcome : Outcome P) (id : UUID) (occurredAt : Int) : Option Event :=
  (mutationEvent generated method req outcome.response).map fun mutation =>
    { id := id
      occurredAt := occurredAt
      actorID := (ctx.identity.map Identity.userID).getD ""
      action := mutation.action
      resourceType := mutation.resourceType
      resourceID := mutation.resourceID
      requestID := ctx.requestID
      rpcMethod := method
      grpcCode := (codeOf outcome.err).name
      errorReason := errorReason P outcome.err
      clientIP := ctx.peer.getD ""
      userAgent := (ctx.first "user-agent").getD []
      metadata := mutation.metadata }

/-- The methods that are recorded, with the action and the type of the resource. -/
def mutationKinds : List (String × String × String) :=
  [("/auth.v1.AuthService/RevokeSession", "session.revoke", "session"),
    ("/user.v1.UserService/CreateUser", "user.create", "user"),
    ("/rbac.v1.RBACService/AssignRole", "role.assign", "user"),
    ("/rbac.v1.RBACService/RemoveRole", "role.remove", "user"),
    ("/rbac.v1.RBACService/AssignPermissionToRole", "permission.assign", "role"),
    ("/rbac.v1.RBACService/RemovePermissionFromRole", "permission.remove", "role")]

theorem mem_mutationKinds {generated : Generated P} {method : String} {req : Body P}
    {response : Response P} {mutation : Mutation}
    (hmutation : mutationEvent generated method req response = some mutation) :
    (method, mutation.action, mutation.resourceType) ∈ mutationKinds := by
  unfold mutationEvent at hmutation
  repeat' split at hmutation
  all_goals cases hmutation
  all_goals
    next hmethod =>
      subst hmethod
      simp [mutationKinds, relationshipEvent]

/-- The mutation methods. -/
def mutationMethods : List String := mutationKinds.map Prod.fst

/-- There is an event for the mutation methods and for no other. -/
theorem mutationEvent_isSome_iff {generated : Generated P} {method : String} {req : Body P}
    {response : Response P} :
    (mutationEvent generated method req response).isSome = true ↔ method ∈ mutationMethods := by
  constructor
  · intro hsome
    obtain ⟨mutation, hmutation⟩ := Option.isSome_iff_exists.mp hsome
    exact List.mem_map_of_mem (mem_mutationKinds hmutation)
  · intro hmem
    simp only [mutationMethods, mutationKinds, List.map_cons, List.map_nil, List.mem_cons,
      List.not_mem_nil, or_false] at hmem
    rcases hmem with rfl | rfl | rfl | rfl | rfl | rfl <;> simp [mutationEvent]

end

end GoFoundation.Audit
