/-
# The idempotency interceptor, apart from the store

What `IdempotencyUnary` does between the statements of the store: which methods
and keys it accepts, the parameters it acquires under, how it encodes the outcome
of a handler and how it turns a stored record back into an outcome.

The round trip is the content of this module.  A completed record answers with
what a client could see of the handler's outcome: the same message, or a status
error with the same code, message and details.
-/

import GoFoundation.Grpc.Status
import GoFoundation.Idempotency.Store

namespace GoFoundation.Idempotency

open Postgres Grpc

/-- `interceptor.IdempotencyOptions` with what `config.Load` has checked. -/
structure Options where
  enabled : Bool
  ttl : Int
  lockTimeout : Int
  lockTimeout_pos : 0 < lockTimeout
  lockTimeout_lt : lockTimeout < ttl

/-- The idempotency part of `config.Load`, once the values are parsed. -/
def loadOptions (enabled : Bool) (ttl lockTimeout : Int) : Except String Options :=
  if ttl ≤ 0 then .error "IDEMPOTENCY_TTL must be positive"
  else if hlock : lockTimeout ≤ 0 ∨ ttl ≤ lockTimeout then
    .error "IDEMPOTENCY_LOCK_TIMEOUT must be positive and shorter than IDEMPOTENCY_TTL"
  else .ok ⟨enabled, ttl, lockTimeout, by omega, by omega⟩

/-- What `config.Load` gives when nothing is configured: a day, and thirty seconds. -/
def defaultOptions : Options where
  enabled := true
  ttl := 86400000000000
  lockTimeout := 30000000000
  lockTimeout_pos := by decide
  lockTimeout_lt := by decide

/-- `idempotentMethod`. -/
def idempotentMethod (method : String) : Bool :=
  method ∈ ["/auth.v1.AuthService/RevokeSession",
    "/user.v1.UserService/CreateUser",
    "/rbac.v1.RBACService/AssignRole",
    "/rbac.v1.RBACService/RemoveRole",
    "/rbac.v1.RBACService/AssignPermissionToRole",
    "/rbac.v1.RBACService/RemovePermissionFromRole"]

/-- The bytes a key may consist of. -/
def validKeyByte (value : UInt8) : Bool :=
  (97 ≤ value && value ≤ 122) || (65 ≤ value && value ≤ 90) || (48 ≤ value && value ≤ 57) ||
    value == 46 || value == 95 || value == 58 || value == 45

/-- `validIdempotencyKey`. -/
def validIdempotencyKey (key : GoString) : Bool :=
  8 ≤ key.length && key.length ≤ 255 && key.all validKeyByte

/-- A call that asks for idempotent execution, once its key and its request have
been hashed. -/
structure Call where
  actorID : UUID
  rpcMethod : String
  keyHash : Bytes
  requestHash : Bytes
  deriving DecidableEq, Repr

/-- The scope a call addresses. -/
def Call.scope (call : Call) : Scope := ⟨call.actorID, call.rpcMethod, call.keyHash⟩

/-- The parameters `IdempotencyUnary` acquires under, with two fresh UUIDs and
the clock reading `now`. -/
def acquireParams (options : Options) (call : Call) (id ownerToken : UUID) (now : Int) :
    AcquireParams where
  id := id
  actorID := call.actorID
  rpcMethod := call.rpcMethod
  keyHash := call.keyHash
  requestHash := call.requestHash
  ownerToken := ownerToken
  now := now
  lockedUntil := now + options.lockTimeout
  expiresAt := now + options.ttl

/-! ## Outcomes -/

/-- The response value of a handler. -/
inductive Response (P : Protobuf)
  | message (value : P.Message)
  | /-- `nil`, or a value that is no protobuf message. -/
    other

/-- The two results of a gRPC handler. -/
structure Outcome (P : Protobuf) where
  response : Response P
  err : Option GoError

variable (P : Protobuf)

/-- `transientIdempotencyError`. -/
def transientIdempotencyError (err : Option GoError) : Bool :=
  codeOf err ∈ [Code.internal, .unknown, .unavailable, .deadlineExceeded, .resourceExhausted,
    .aborted, .canceled]

variable {P} in
/-- What a client can see of an outcome: the response, or the status of the error. -/
def Outcome.visible (outcome : Outcome P) : Outcome P :=
  match outcome.err with
  | none => ⟨outcome.response, none⟩
  | some err => ⟨.other, some (.status (convert err))⟩

/-- `encodeIdempotencyResult`; `none` is an error. -/
def encodeIdempotencyResult (outcome : Outcome P) : Option Encoded :=
  match outcome.err with
  | some err => (P.marshalStatus (convert err)).map fun payload => ⟨"", none, some payload⟩
  | none =>
      match outcome.response with
      | .other => none
      | .message value =>
          (P.marshal value).map fun payload => ⟨P.fullName value, some payload, none⟩

/-- The answer when a stored result cannot be decoded. -/
def replayFailed : Outcome P :=
  ⟨.other, Apierror.new P .internal "IDEMPOTENCY_REPLAY_FAILED" "internal server error" []⟩

/-- `replayIdempotencyRecord`. -/
def replayIdempotencyRecord (record : Record) : Outcome P :=
  if 0 < record.statusPayload.length then
    match P.unmarshalStatus record.statusPayload with
    | none => replayFailed P
    | some value => ⟨.other, errorProto value⟩
  else if P.registered record.responseType then
    match P.unmarshal record.responseType record.responsePayload with
    | none => replayFailed P
    | some value => ⟨.message value, none⟩
  else replayFailed P

/-- The answer to a request that `Acquire` did not grant. -/
def refusal (record : Record) : Disposition → Outcome P
  | .replay => replayIdempotencyRecord P record
  | .conflict => ⟨.other, Apierror.new P .alreadyExists "IDEMPOTENCY_KEY_REUSED"
      "idempotency key was already used with a different request" []⟩
  | .inProgress => ⟨.other, Apierror.new P .aborted "IDEMPOTENCY_REQUEST_IN_PROGRESS"
      "a request with this idempotency key is already in progress" [.retryInfo 1000000000]⟩
  | .acquired => ⟨.other, Apierror.new P .internal "IDEMPOTENCY_CONFIGURATION_ERROR"
      "internal server error" []⟩

/-- The answer when `Acquire` returned an error. -/
def storeUnavailable : Outcome P :=
  ⟨.other, Apierror.new P .unavailable "IDEMPOTENCY_STORE_UNAVAILABLE"
    "idempotency service unavailable" []⟩

/-! ## The round trip -/

/-- A record holds an encoded result: its payload columns are those `Complete`
wrote, read back through `COALESCE`. -/
structure Record.Holds (record : Record) (result : Encoded) : Prop where
  responseType : record.responseType = result.responseType
  responsePayload : record.responsePayload = result.responsePayload.getD []
  statusPayload : record.statusPayload = result.statusPayload.getD []

/-- Storing a result and scanning the row gives the result back: an empty type
name survives the detour through `NULL`. -/
theorem toRecord_completeSet_holds (result : Encoded) (now : Int) (row : Row) :
    (completeSet result now row).toRecord.Holds result where
  responseType := by
    by_cases hname : result.responseType = "" <;> simp [completeSet, Row.toRecord, hname]
  responsePayload := rfl
  statusPayload := rfl

variable {P}

/-- A handler's outcome, once encoded and stored, is replayed as what a client
could see of it.  Zero-length payloads of empty messages are covered: the branch
is taken on the status payload, which is never empty for an error. -/
theorem replay_of_encode (hP : P.Lawful) {outcome : Outcome P} {result : Encoded}
    (hencode : encodeIdempotencyResult P outcome = some result)
    (hcode : ∀ err, outcome.err = some err → (convert err).code ≠ .ok)
    {record : Record} (hholds : record.Holds result) :
    replayIdempotencyRecord P record = outcome.visible := by
  rcases outcome with ⟨response, err⟩
  cases err with
  | some err =>
      obtain ⟨payload, hpayload, rfl⟩ := Option.map_eq_some_iff.mp hencode
      have hne := hP.marshalStatus_ne_nil _ _ hpayload (hcode err rfl)
      have hstatus : record.statusPayload = payload := hholds.statusPayload
      simp [replayIdempotencyRecord, hstatus, List.length_pos_iff.mpr hne,
        hP.unmarshalStatus_marshalStatus _ _ hpayload, Outcome.visible,
        errorProto_of_ne_ok (hcode err rfl)]
  | none =>
      cases response with
      | other => cases hencode
      | message value =>
          obtain ⟨payload, hpayload, rfl⟩ := Option.map_eq_some_iff.mp hencode
          have hstatus : record.statusPayload = [] := hholds.statusPayload
          have hpay : record.responsePayload = payload := hholds.responsePayload
          have htype : record.responseType = P.fullName value := hholds.responseType
          simp [replayIdempotencyRecord, hstatus, htype, hpay, hP.registered_fullName,
            hP.unmarshal_marshal _ _ hpayload, Outcome.visible]

end GoFoundation.Idempotency
