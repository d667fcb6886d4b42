/-
# The context of a call

What an interceptor can read of a call: the metadata that the client sent, the
address of the peer, and what earlier interceptors put into the context, the
request id and the identity.
-/

import GoFoundation.Go.Strings

namespace GoFoundation.Server

open Grpc

/-- `metadata.MD`: the values that came with each key. -/
abbrev Metadata := List (String × GoString)

/-- `MD.Get`. -/
def Metadata.get (md : Metadata) (key : String) : List GoString :=
  (md.filter fun entry => entry.1 = key).map Prod.snd

/-- `auth.Identity`. -/
structure Identity where
  userID : String
  username : String
  email : String
  provider : String
  sessionID : String
  deriving DecidableEq, Repr

/-- What the context of a call carries.  The request id is empty until it is set. -/
structure Context where
  metadata : Option Metadata
  peer : Option String
  requestID : GoString
  identity : Option Identity
  deriving DecidableEq, Repr

/-- The first value that came with a key. -/
def Context.first (ctx : Context) (key : String) : Option GoString :=
  ctx.metadata.bind fun md => (md.get key).head?

/-- The request message: any value, and usually a protobuf message. -/
inductive Body (P : Protobuf)
  | message (value : P.Message)
  | other

/-- A call as the server receives it. -/
structure Request (P : Protobuf) where
  method : String
  metadata : Option Metadata
  peer : Option String
  body : Body P

/-- The context in which the first interceptor runs. -/
def Request.context {P : Protobuf} (request : Request P) : Context where
  metadata := request.metadata
  peer := request.peer
  requestID := []
  identity := none

/-- The request id of `RequestIDUnary`: the first one that the client sent, if it
is not empty, and otherwise the new UUID. -/
def requestIDOf (ctx : Context) (fresh : GoString) : GoString :=
  let id := (ctx.first "x-request-id").getD []
  if id = [] then fresh else id

/-- `incomingIdempotencyKey`; empty if there is none. -/
def incomingIdempotencyKey (ctx : Context) : GoString := (ctx.first "idempotency-key").getD []

/-- `bearer`: the token of the first `authorization` value, or the error for its
absence or form. -/
def bearer (P : Protobuf) (ctx : Context) : Except (Option GoError) GoString :=
  match ctx.metadata with
  | none => .error (Apierror.new P .unauthenticated "AUTHORIZATION_METADATA_MISSING"
      "authorization metadata missing" [])
  | some md =>
      match md.get "authorization" with
      | [] => .error (Apierror.new P .unauthenticated "ACCESS_TOKEN_MISSING"
          "authorization token missing" [])
      | value :: _ =>
          match Go.splitAtSpace (Go.trimSpace value) with
          | none => .error (Apierror.new P .unauthenticated "AUTHORIZATION_SCHEME_INVALID"
              "invalid authorization scheme" [])
          | some (scheme, token) =>
              if !Go.equalFold scheme "Bearer" || Go.trimSpace token = [] then
                .error (Apierror.new P .unauthenticated "AUTHORIZATION_SCHEME_INVALID"
                  "invalid authorization scheme" [])
              else .ok (Go.trimSpace token)

end GoFoundation.Server
