/-
# The interceptor chain

The ten unary interceptors of the server, in the order in which `main` installs
them, as functions that pass the state of the server through.  Three of them are
gates: they let a call pass, perhaps with more in its context, or turn it away.

One request runs alone here.  What the environment decides for it, the clock
readings, the new UUIDs and which statements fail, is in `Env`.  Logs and metrics
other than the denied permissions are not kept.
-/

import GoFoundation.Audit.Interceptor
import GoFoundation.Rbac.Model
import GoFoundation.Users.Authentication

namespace GoFoundation.Server

open Postgres Grpc Idempotency Users

variable (P : Protobuf)

/-! ## State -/

/-- What the handlers of the server work on. -/
structure Directory where
  users : List User
  rbac : Rbac.Tables

/-- The tables, and what has happened: which permissions were denied, with which
contexts the handler was invoked, and which records were replayed, newest first. -/
structure State where
  directory : Directory
  idempotency : List Idempotency.Row
  audit : List Audit.Row
  denied : List String
  invocations : List Context
  replays : List Record

/-- How `protovalidate.Validate` ends. -/
inductive Validation
  | valid
  | violations (fields : List FieldViolation)
  | failed
  deriving DecidableEq, Repr

/-- What `main` wires together, with the code that is not part of the repository:
the verifiers, the validation rules and the hash. -/
structure Config where
  verifiers : List TokenVerifier
  validate : P.Message → Validation
  generated : Audit.Generated P
  options : Options
  sha256 : Bytes → Bytes

/-- What the environment decides for one request. -/
structure Env where
  requestID : UUID
  usersFail : Bool
  permissionsFail : Bool
  recordID : UUID
  ownerToken : UUID
  now : Int
  /-- The rows that the cleanup of `Acquire` removes. -/
  expired : List UUID
  acquireFails : Bool
  finishFails : Bool
  completedAt : Int
  eventID : UUID
  occurredAt : Int
  recordFails : Bool

/-- How the innermost handler ends. -/
inductive Result
  | returned (outcome : Outcome P)
  | panicked

/-- A handler, or the part of the chain below an interceptor. -/
abbrev Handler := Context → Body P → State → Outcome P × State

variable {P}

/-! ## Gates -/

/-- Why a gate turns a call away. -/
structure Rejection where
  err : Option GoError
  denied : Option String

/-- Let the call pass, or answer with the error. -/
def gate (check : Context → Body P → State → Except Rejection Context) (next : Handler P) :
    Handler P := fun ctx req s =>
  match check ctx req s with
  | .ok ctx' => next ctx' req s
  | .error rejection =>
      (⟨.other, rejection.err⟩, { s with denied := rejection.denied.toList ++ s.denied })

/-- The methods for which `main` asks for no token. -/
def publicMethods : List String :=
  ["/grpc.health.v1.Health/Check", "/grpc.health.v1.Health/Watch", "/auth.v1.AuthService/Login",
    "/auth.v1.AuthService/Refresh", "/auth.v1.AuthService/Logout"]

/-- The lookup of an identity, which may fail. -/
def lookupUser (env : Env) (users : List User) (claimed : Identity) : Lookup :=
  if env.usersFail then .failed else lookupIdentity users claimed

/-- What `AuthenticationUnary` does before it calls the handler. -/
def checkAuthentication (config : Config P) (env : Env) (method : String) (ctx : Context)
    (_ : Body P) (s : State) : Except Rejection Context :=
  if method ∈ publicMethods then .ok ctx
  else
    match bearer P ctx with
    | .error err => .error ⟨err, none⟩
    | .ok raw =>
        match authenticate (lookupUser env s.directory.users) raw config.verifiers with
        | none => .error ⟨Apierror.new P .unauthenticated "ACCESS_TOKEN_INVALID"
            "invalid access token" [], none⟩
        | some identity => .ok { ctx with identity := some identity }

/-- What `ValidationUnary` does before it calls the handler. -/
def checkValidation (config : Config P) (ctx : Context) (req : Body P) (_ : State) :
    Except Rejection Context :=
  match req with
  | .other => .error ⟨Apierror.new P .internal "VALIDATION_CONFIGURATION_ERROR"
      "internal server error" [], none⟩
  | .message value =>
      match config.validate value with
      | .valid => .ok ctx
      | .violations fields => .error ⟨Apierror.invalidArgument P "REQUEST_VALIDATION_FAILED"
          "request validation failed" fields, none⟩
      | .failed => .error ⟨Apierror.new P .internal "VALIDATION_CONFIGURATION_ERROR"
          "internal server error" [], none⟩

/-- `HasPermission`, whose statement may fail. -/
def checkPermission (env : Env) (tables : Rbac.Tables) (userID permission : String) :
    Option Bool :=
  if env.permissionsFail then none else Rbac.hasPermission tables userID permission

/-- What `AuthorizationUnary` does before it calls the handler. -/
def checkAuthorization (env : Env) (method : String) (ctx : Context) (_ : Body P) (s : State) :
    Except Rejection Context :=
  match Rbac.policies.lookup method with
  | none => .ok ctx
  | some permission =>
      match ctx.identity with
      | none => .error ⟨Apierror.new P .unauthenticated "AUTHENTICATION_REQUIRED"
          "authentication required" [], none⟩
      | some identity =>
          match checkPermission env s.directory.rbac identity.userID permission with
          | none => .error ⟨Apierror.new P .internal "AUTHORIZATION_CHECK_FAILED"
              "authorization check failed" [], none⟩
          | some false => .error ⟨Apierror.new P .permissionDenied "INSUFFICIENT_PERMISSIONS"
              "insufficient permissions" [], some permission⟩
          | some true => .ok ctx

/-! ## The interceptors -/

/-- `RequestIDUnary`. -/
def requestIDUnary (env : Env) (next : Handler P) : Handler P := fun ctx =>
  next { ctx with requestID := requestIDOf ctx (Go.encodeUtf8 env.requestID.text) }

/-- `ErrorDetailsUnary`. -/
def errorDetailsUnary (next : Handler P) : Handler P := fun ctx req s =>
  let (outcome, s') := next ctx req s
  (⟨outcome.response, Apierror.ensure P outcome.err ctx.requestID⟩, s')

/-- `AuthenticationUnary`. -/
def authenticationUnary (config : Config P) (env : Env) (method : String) :
    Handler P → Handler P := gate (checkAuthentication config env method)

/-- `ValidationUnary`. -/
def validationUnary (config : Config P) : Handler P → Handler P := gate (checkValidation config)

/-- `AuthorizationUnary`. -/
def authorizationUnary (env : Env) (method : String) : Handler P → Handler P :=
  gate (checkAuthorization env method)

/-- The call that `IdempotencyUnary` reserves a key for; `.error none` is a call
that asks for no key. -/
def idempotentCall (config : Config P) (method : String) (ctx : Context) (req : Body P) :
    Except (Option (Outcome P)) (Identity × Bytes × Bytes) :=
  if !config.options.enabled || !idempotentMethod method then .error none
  else if incomingIdempotencyKey ctx = [] then .error none
  else if !validIdempotencyKey (incomingIdempotencyKey ctx) then
    .error (some ⟨.other, Apierror.invalidArgument P "IDEMPOTENCY_KEY_INVALID"
      "invalid idempotency key" [⟨"idempotency-key", "must be 8-255 URL-safe characters"⟩]⟩)
  else
    match ctx.identity, req with
    | none, _ => .error (some ⟨.other, Apierror.new P .unauthenticated "AUTHENTICATION_REQUIRED"
        "authentication required" []⟩)
    | some _, .other => .error (some ⟨.other, Apierror.new P .internal
        "IDEMPOTENCY_CONFIGURATION_ERROR" "internal server error" []⟩)
    | some identity, .message value =>
        match P.marshal value with
        | none => .error (some ⟨.other, Apierror.new P .internal "IDEMPOTENCY_FINGERPRINT_FAILED"
            "internal server error" []⟩)
        | some bytes =>
            .ok (identity, config.sha256 (incomingIdempotencyKey ctx), config.sha256 bytes)

/-- `Acquire` for the call; an actor that is no UUID makes its statements fail. -/
def reserve (config : Config P) (env : Env) (method : String) (rows : List Idempotency.Row)
    (identity : Identity) (keyHash requestHash : Bytes) :
    List Idempotency.Row × Except AcquireError (Record × Disposition) :=
  match UUID.parse identity.userID, env.acquireFails with
  | some actorID, false =>
      acquire (acquireParams config.options ⟨actorID, method, keyHash, requestHash⟩ env.recordID
        env.ownerToken env.now) env.expired rows
  | _, _ => (deleteByID env.expired rows, .error .reserve)

/-- What `IdempotencyUnary` does with the table once the handler has returned. -/
def settle (env : Env) (record : Record) (outcome : Outcome P) (rows : List Idempotency.Row) :
    List Idempotency.Row :=
  if env.finishFails then rows
  else if transientIdempotencyError outcome.err then release rows record.id env.ownerToken
  else
    match encodeIdempotencyResult P outcome with
    | none => rows
    | some result => (complete rows record.id env.ownerToken result env.completedAt).1

/-- `IdempotencyUnary`. -/
def idempotencyUnary (config : Config P) (env : Env) (method : String) (next : Handler P) :
    Handler P := fun ctx req s =>
  match idempotentCall config method ctx req with
  | .error none => next ctx req s
  | .error (some outcome) => (outcome, s)
  | .ok (identity, keyHash, requestHash) =>
      match reserve config env method s.idempotency identity keyHash requestHash with
      | (rows, .error _) => (storeUnavailable P, { s with idempotency := rows })
      | (rows, .ok (record, .acquired)) =>
          let (outcome, s') := next ctx req { s with idempotency := rows }
          (outcome, { s' with idempotency := settle env record outcome s'.idempotency })
      | (rows, .ok (record, .replay)) =>
          (replayIdempotencyRecord P record,
            { s with idempotency := rows, replays := record :: s.replays })
      | (rows, .ok (record, disposition)) =>
          (refusal P record disposition, { s with idempotency := rows })

/-- `AuditUnary`; an event that the database refuses is dropped. -/
def auditUnary (config : Config P) (env : Env) (method : String) (next : Handler P) :
    Handler P := fun ctx req s =>
  let (outcome, s') := next ctx req s
  match Audit.auditEvent config.generated ctx method req outcome env.eventID env.occurredAt with
  | none => (outcome, s')
  | some event =>
      if env.recordFails then (outcome, s')
      else (outcome, { s' with audit := (Audit.record s'.audit event).getD s'.audit })

/-- `MetricsUnary`, apart from what it measures. -/
def metricsUnary (next : Handler P) : Handler P := next

/-- `LoggingUnary`, apart from what it logs. -/
def loggingUnary (next : Handler P) : Handler P := next

/-- `RecoveryUnary`, around a handler that may panic. -/
def recoveryUnary (handler : Context → Body P → Directory → Result P × Directory) :
    Handler P := fun ctx req s =>
  let (result, directory) := handler ctx req s.directory
  let s' := { s with directory := directory, invocations := ctx :: s.invocations }
  match result with
  | .returned outcome => (outcome, s')
  | .panicked =>
      (⟨.other, Apierror.new P .internal "PANIC_RECOVERED" "internal server error" []⟩, s')

/-- The part of the chain behind the gates. -/
def execution (config : Config P) (env : Env) (method : String)
    (handler : Context → Body P → Directory → Result P × Directory) : Handler P :=
  idempotencyUnary config env method (auditUnary config env method
    (metricsUnary (loggingUnary (recoveryUnary handler))))

/-- The chain that `main` installs. -/
def chain (config : Config P) (env : Env) (method : String)
    (handler : Context → Body P → Directory → Result P × Directory) : Handler P :=
  requestIDUnary env (errorDetailsUnary (authenticationUnary config env method
    (validationUnary config (authorizationUnary env method
      (execution config env method handler)))))

/-- A request is served. -/
def serve (config : Config P) (env : Env)
    (handler : Context → Body P → Directory → Result P × Directory) (request : Request P)
    (s : State) : Outcome P × State :=
  chain config env request.method handler request.context request.body s

end GoFoundation.Server
