/-
# Statuses, Go errors and structured API errors

The part of the gRPC status package that the interceptors read, Go error chains
as far as `errors.Is` and `errors.As` look into them, and the `apierror` package
on top.

The protobuf runtime is not part of the repository.  It enters as the parameter
`Protobuf`: the functions the server calls, with no assumption on them.  What a
result needs of the runtime it asks for by name, through `Protobuf.Lawful`.
-/

import GoFoundation.Postgres.Types

namespace GoFoundation.Grpc

/-- A Go string that a client controls: any bytes, not only valid UTF-8. -/
abbrev GoString := Bytes

/-- `codes.Code`.  Numbers past the named ones travel as `other`, counted from
the first unnamed code. -/
inductive Code
  | ok | canceled | unknown | invalidArgument | deadlineExceeded | notFound | alreadyExists
  | permissionDenied | resourceExhausted | failedPrecondition | aborted | outOfRange
  | unimplemented | internal | unavailable | dataLoss | unauthenticated
  | other (offset : Nat)
  deriving DecidableEq, Repr

namespace Code

/-- `Code.String`. -/
def name : Code → String
  | ok => "OK"
  | canceled => "Canceled"
  | unknown => "Unknown"
  | invalidArgument => "InvalidArgument"
  | deadlineExceeded => "DeadlineExceeded"
  | notFound => "NotFound"
  | alreadyExists => "AlreadyExists"
  | permissionDenied => "PermissionDenied"
  | resourceExhausted => "ResourceExhausted"
  | failedPrecondition => "FailedPrecondition"
  | aborted => "Aborted"
  | outOfRange => "OutOfRange"
  | unimplemented => "Unimplemented"
  | internal => "Internal"
  | unavailable => "Unavailable"
  | dataLoss => "DataLoss"
  | unauthenticated => "Unauthenticated"
  | other offset => "Code(" ++ toString (17 + offset) ++ ")"

end Code

/-- `anypb.Any`: a serialized message with the URL of its type. -/
structure AnyMessage where
  typeURL : String
  value : Bytes
  deriving DecidableEq, Repr

/-- The status message of the wire, which is also what a `*status.Status` holds. -/
structure Status where
  code : Code
  message : String
  details : List AnyMessage
  deriving DecidableEq, Repr

/-! ## Error chains -/

/-- A Go error with what it wraps.  A multi-error with more than two branches
is a nested `join`; only the outermost text of a chain is ever read. -/
inductive GoError
  | status (value : Status)
  | canceled
  | deadlineExceeded
  | plain (text : String)
  | wrap (text : String) (inner : GoError)
  | join (text : String) (first second : GoError)
  deriving DecidableEq, Repr

namespace GoError

/-- `Error()`. -/
def text : GoError → String
  | status value => "rpc error: code = " ++ value.code.name ++ " desc = " ++ value.message
  | canceled => "context canceled"
  | deadlineExceeded => "context deadline exceeded"
  | plain text => text
  | wrap text _ => text
  | join text _ _ => text

/-- `errors.As` for the interface of errors that carry a status: the first one
met by the depth-first walk over the chain. -/
def findStatus : GoError → Option Status
  | status value => some value
  | canceled | deadlineExceeded | plain _ => none
  | wrap _ inner => inner.findStatus
  | join _ first second => first.findStatus.or second.findStatus

/-- `errors.Is(err, context.Canceled)`. -/
def isCanceled : GoError → Bool
  | canceled => true
  | status _ | deadlineExceeded | plain _ => false
  | wrap _ inner => inner.isCanceled
  | join _ first second => first.isCanceled || second.isCanceled

/-- `errors.Is(err, context.DeadlineExceeded)`. -/
def isDeadlineExceeded : GoError → Bool
  | deadlineExceeded => true
  | status _ | canceled | plain _ => false
  | wrap _ inner => inner.isDeadlineExceeded
  | join _ first second => first.isDeadlineExceeded || second.isDeadlineExceeded

end GoError

/-- `status.FromError` on a non-nil error: a bare status error gives its status,
a wrapped one gives the wrapped status under the text of the whole chain, and
anything else is reported as `Unknown` and not a status. -/
def fromError (err : GoError) : Status × Bool :=
  match err with
  | .status value => (value, true)
  | err =>
      match err.findStatus with
      | some value => ({ value with message := err.text }, true)
      | none => (⟨.unknown, err.text, []⟩, false)

/-- `status.Convert` on a non-nil error. -/
def convert (err : GoError) : Status := (fromError err).1

/-- `status.Code`. -/
def codeOf : Option GoError → Code
  | none => .ok
  | some err => (convert err).code

/-- `status.FromContextError` on a non-nil error. -/
def fromContextError (err : GoError) : Status :=
  if err.isDeadlineExceeded then ⟨.deadlineExceeded, err.text, []⟩
  else if err.isCanceled then ⟨.canceled, err.text, []⟩
  else ⟨.unknown, err.text, []⟩

/-- `status.ErrorProto`: an `OK` status is no error. -/
def errorProto (value : Status) : Option GoError :=
  if value.code = .ok then none else some (.status value)

@[simp]
theorem convert_status (value : Status) : convert (.status value) = value := rfl

theorem errorProto_of_ne_ok {value : Status} (hcode : value.code ≠ .ok) :
    errorProto value = some (.status value) := if_neg hcode

/-! ## The protobuf runtime -/

/-- `errdetails.ErrorInfo`.  The order of the metadata entries means nothing. -/
structure ErrorInfo where
  reason : String
  domain : String
  metadata : List (String × GoString)
  deriving DecidableEq, Repr

/-- One entry of `errdetails.BadRequest`. -/
structure FieldViolation where
  field : String
  description : String
  deriving DecidableEq, Repr

/-- The detail messages the server attaches to an error. -/
inductive Detail
  | errorInfo (info : ErrorInfo)
  | badRequest (violations : List FieldViolation)
  | resourceInfo (resourceType resourceName description : String)
  | retryInfo (retryDelay : Int)
  deriving DecidableEq, Repr

/-- The full name of a detail's message type. -/
def Detail.fullName : Detail → String
  | errorInfo _ => "google.rpc.ErrorInfo"
  | badRequest _ => "google.rpc.BadRequest"
  | resourceInfo _ _ _ => "google.rpc.ResourceInfo"
  | retryInfo _ => "google.rpc.RetryInfo"

/-- The protobuf runtime and the registry of generated message types. -/
structure Protobuf where
  /-- A message value of some generated type. -/
  Message : Type
  /-- `ProtoReflect().Descriptor().FullName()`. -/
  fullName : Message → String
  /-- Deterministic marshalling; `none` is an error. -/
  marshal : Message → Option Bytes
  /-- `protoregistry.GlobalTypes.FindMessageByName` succeeds. -/
  registered : String → Bool
  /-- Unmarshal into a new message of the named type; `none` is an error. -/
  unmarshal : String → Bytes → Option Message
  /-- `proto.Marshal` of a status message. -/
  marshalStatus : Status → Option Bytes
  /-- `proto.Unmarshal` into a status message. -/
  unmarshalStatus : Bytes → Option Status
  /-- `proto.Marshal` of a detail message. -/
  marshalDetail : Detail → Option Bytes
  /-- `proto.Unmarshal` into an `ErrorInfo`. -/
  unmarshalErrorInfo : Bytes → Option ErrorInfo

/-- What results about stored outcomes need of the runtime: what was marshalled
is read back, a status that is not `OK` has a non-empty encoding (its code is a
non-default field), and every type that is marshalled is registered. -/
structure Protobuf.Lawful (P : Protobuf) : Prop where
  unmarshal_marshal : ∀ message payload, P.marshal message = some payload →
    P.unmarshal (P.fullName message) payload = some message
  registered_fullName : ∀ message, P.registered (P.fullName message) = true
  unmarshalStatus_marshalStatus : ∀ value payload, P.marshalStatus value = some payload →
    P.unmarshalStatus payload = some value
  marshalStatus_ne_nil : ∀ value payload, P.marshalStatus value = some payload →
    value.code ≠ .ok → payload ≠ []

/-- The runtime on the two messages that concrete runs use: the empty response of
`AssignRole`, which marshals to no bytes, and one `NotFound` status. -/
def Protobuf.sample : Protobuf where
  Message := Unit
  fullName _ := "rbac.v1.AssignRoleResponse"
  marshal _ := some []
  registered name := name = "rbac.v1.AssignRoleResponse"
  unmarshal name payload :=
    if name = "rbac.v1.AssignRoleResponse" ∧ payload = [] then some () else none
  marshalStatus value :=
    if value = ⟨.notFound, "no", []⟩ then some [8, 5, 18, 2, 110, 111] else none
  unmarshalStatus payload :=
    if payload = [8, 5, 18, 2, 110, 111] then some ⟨.notFound, "no", []⟩ else none
  marshalDetail _ := none
  unmarshalErrorInfo _ := none

theorem Protobuf.lawful_sample : Protobuf.sample.Lawful where
  unmarshal_marshal message payload hpayload := by
    cases hpayload
    rfl
  registered_fullName _ := rfl
  unmarshalStatus_marshalStatus value payload hpayload := by
    simp only [Protobuf.sample, Option.ite_none_right_eq_some, Option.some.injEq] at hpayload
    obtain ⟨rfl, rfl⟩ := hpayload
    rfl
  marshalStatus_ne_nil value payload hpayload _ := by
    simp only [Protobuf.sample, Option.ite_none_right_eq_some, Option.some.injEq] at hpayload
    exact hpayload.2 ▸ List.cons_ne_nil _ _

/-- `anypb.New` of a detail. -/
def Protobuf.anyOf (P : Protobuf) (detail : Detail) : Option AnyMessage :=
  (P.marshalDetail detail).map fun value =>
    ⟨"type.googleapis.com/" ++ detail.fullName, value⟩

/-- `Any.MessageIs`. -/
def AnyMessage.messageIs (detail : AnyMessage) (fullName : String) : Bool :=
  detail.typeURL = fullName || detail.typeURL.endsWith ("/" ++ fullName)

/-- The `ErrorInfo` that a detail holds, if it holds one. -/
def Protobuf.errorInfoOf (P : Protobuf) (detail : AnyMessage) : Option ErrorInfo :=
  if detail.messageIs "google.rpc.ErrorInfo" then P.unmarshalErrorInfo detail.value else none

end GoFoundation.Grpc

namespace GoFoundation.Apierror

open Grpc

/-- `apierror.Domain`. -/
def domain : String := "go-foundation"

/-- `apierror.New`: a status with an `ErrorInfo` in front of the other details.
A detail that does not marshal is left out. -/
def new (P : Protobuf) (code : Code) (reason message : String)
    (details : List Detail) : Option GoError :=
  errorProto ⟨code, message,
    (Detail.errorInfo ⟨reason, domain, []⟩ :: details).filterMap P.anyOf⟩

/-- `apierror.InvalidArgument`. -/
def invalidArgument (P : Protobuf) (reason message : String)
    (fields : List FieldViolation) : Option GoError :=
  new P .invalidArgument reason message [.badRequest fields]

/-- `apierror.Resource`. -/
def resource (P : Protobuf) (code : Code)
    (reason message resourceType resourceName : String) : Option GoError :=
  new P code reason message [.resourceInfo resourceType resourceName message]

/-- An error built by `apierror.New` is a bare status error, unless it was asked
for under the code `OK`. -/
theorem new_eq_some (P : Protobuf) {code : Code} (hcode : code ≠ .ok)
    (reason message : String) (details : List Detail) :
    ∃ value : Status, value.code = code ∧ value.message = message ∧
      new P code reason message details = some (.status value) :=
  ⟨_, rfl, rfl, if_neg hcode⟩

/-- Errors under different codes differ. -/
theorem new_ne_new (P : Protobuf) {code code' : Code} (hcode : code ≠ .ok) (hcode' : code' ≠ .ok)
    (hne : code ≠ code') (reason reason' message message' : String)
    (details details' : List Detail) :
    new P code reason message details ≠ new P code' reason' message' details' := by
  obtain ⟨value, hvalueCode, -, hvalue⟩ := new_eq_some P hcode reason message details
  obtain ⟨value', hvalueCode', -, hvalue'⟩ := new_eq_some P hcode' reason' message' details'
  intro hsame
  rw [hvalue, hvalue', Option.some.injEq, GoError.status.injEq] at hsame
  rw [← hvalueCode, ← hvalueCode', hsame] at hne
  exact hne rfl

/-! ## Details for every error -/

/-- `defaultReason`. -/
def defaultReason : Code → String
  | .canceled => "REQUEST_CANCELED"
  | .invalidArgument => "INVALID_ARGUMENT"
  | .deadlineExceeded => "DEADLINE_EXCEEDED"
  | .notFound => "RESOURCE_NOT_FOUND"
  | .alreadyExists => "RESOURCE_ALREADY_EXISTS"
  | .permissionDenied => "PERMISSION_DENIED"
  | .unauthenticated => "UNAUTHENTICATED"
  | .unavailable => "SERVICE_UNAVAILABLE"
  | .unimplemented => "NOT_IMPLEMENTED"
  | .internal => "INTERNAL_ERROR"
  | _ => "RPC_ERROR"

/-- The metadata entry that names the request, unless the request has no id. -/
def withRequestID (requestID : GoString) (info : ErrorInfo) : ErrorInfo :=
  if requestID = [] then info
  else
    { info with
      metadata := ("request_id", requestID) ::
        info.metadata.filter fun entry => entry.1 ≠ "request_id" }

/-- A detail of the status, with the request id if it is an `ErrorInfo`, and
whether it was one. -/
def ensureDetail (P : Protobuf) (requestID : GoString) (detail : AnyMessage) :
    AnyMessage × Bool :=
  match P.errorInfoOf detail with
  | none => (detail, false)
  | some info =>
      match P.anyOf (.errorInfo (withRequestID requestID info)) with
      | none => (detail, false)
      | some encoded => (encoded, true)

/-- The status that `Ensure` starts from: that of the error, or a generic one that
does not expose what a plain error says. -/
def ensureBase (err : GoError) : Status :=
  if (fromError err).2 then (fromError err).1
  else if err.isCanceled || err.isDeadlineExceeded then fromContextError err
  else ⟨.internal, "internal server error", []⟩

/-- `apierror.Ensure`. -/
def ensure (P : Protobuf) (err : Option GoError) (requestID : GoString) : Option GoError :=
  err.bind fun err =>
    let base := ensureBase err
    let details := base.details.map (ensureDetail P requestID)
    let added := if details.any Prod.snd then []
      else (P.anyOf (.errorInfo (withRequestID requestID
        ⟨defaultReason base.code, domain, []⟩))).toList
    errorProto { base with details := details.map Prod.fst ++ added }

end GoFoundation.Apierror
