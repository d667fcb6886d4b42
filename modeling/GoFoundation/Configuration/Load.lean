/-
# The configuration of a server

`config.Load`, which reads the environment.  A variable that is not set and one that is set
to nothing are the same to `os.Getenv`, and both get the default; the operating system
passes no value with a zero byte.
-/

import GoFoundation.Go.Parse
import GoFoundation.Idempotency.Interceptor

namespace GoFoundation.Configuration

open Go Grpc Idempotency

/-! ## The environment -/

/-- The variables that `Load` reads. -/
inductive Variable
  | appName | appEnv | shutdownTimeout
  | grpcHost | grpcPort | metricsAddr
  | httpHost | httpPort | docsEnabled
  | databaseURL | databaseMaxConnections | databaseMinConnections
  | authLocalEnabled | jwtIssuer | jwtAudience | jwtPrivateKeyFile | jwtPublicKeyFile
  | jwtAccessTokenTTL | jwtRefreshTokenTTL
  | oidcEnabled | oidcIssuerURL | oidcClientID
  | idempotencyEnabled | idempotencyTTL | idempotencyLockTimeout
  | otelEnabled | otelExporterOTLPEndpoint
  deriving DecidableEq, Repr

/-- The names of the variables. -/
def Variable.name : Variable → String
  | appName => "APP_NAME"
  | appEnv => "APP_ENV"
  | shutdownTimeout => "SHUTDOWN_TIMEOUT"
  | grpcHost => "GRPC_HOST"
  | grpcPort => "GRPC_PORT"
  | metricsAddr => "METRICS_ADDR"
  | httpHost => "HTTP_HOST"
  | httpPort => "HTTP_PORT"
  | docsEnabled => "DOCS_ENABLED"
  | databaseURL => "DATABASE_URL"
  | databaseMaxConnections => "DATABASE_MAX_CONNECTIONS"
  | databaseMinConnections => "DATABASE_MIN_CONNECTIONS"
  | authLocalEnabled => "AUTH_LOCAL_ENABLED"
  | jwtIssuer => "JWT_ISSUER"
  | jwtAudience => "JWT_AUDIENCE"
  | jwtPrivateKeyFile => "JWT_PRIVATE_KEY_FILE"
  | jwtPublicKeyFile => "JWT_PUBLIC_KEY_FILE"
  | jwtAccessTokenTTL => "JWT_ACCESS_TOKEN_TTL"
  | jwtRefreshTokenTTL => "JWT_REFRESH_TOKEN_TTL"
  | oidcEnabled => "OIDC_ENABLED"
  | oidcIssuerURL => "OIDC_ISSUER_URL"
  | oidcClientID => "OIDC_CLIENT_ID"
  | idempotencyEnabled => "IDEMPOTENCY_ENABLED"
  | idempotencyTTL => "IDEMPOTENCY_TTL"
  | idempotencyLockTimeout => "IDEMPOTENCY_LOCK_TIMEOUT"
  | otelEnabled => "OTEL_ENABLED"
  | otelExporterOTLPEndpoint => "OTEL_EXPORTER_OTLP_ENDPOINT"

/-- The value of a variable. -/
abbrev EnvValue := { s : GoString // 0 ∉ s }

/-- What `os.Getenv` returns. -/
abbrev Environment := Variable → EnvValue

/-! ## Configurations -/

structure AppConfig where
  name : GoString
  environment : GoString
  shutdownTimeout : Int
  deriving DecidableEq

structure GRPCConfig where
  host : GoString
  port : Int
  metricsAddr : GoString
  deriving DecidableEq

structure HTTPConfig where
  host : GoString
  port : Int
  docsEnabled : Bool
  deriving DecidableEq

structure DatabaseConfig where
  url : GoString
  maxConnections : Int
  minConnections : Int
  url_ne : url ≠ []
  deriving DecidableEq

structure AuthConfig where
  localEnabled : Bool
  issuer : GoString
  audience : GoString
  privateKeyFile : GoString
  publicKeyFile : GoString
  tokenTTL : Int
  refreshTokenTTL : Int
  tokenTTL_pos : 0 < tokenTTL
  refreshTokenTTL_pos : 0 < refreshTokenTTL
  deriving DecidableEq

structure OIDCConfig where
  enabled : Bool
  issuerURL : GoString
  clientID : GoString
  issuerURL_ne : enabled = true → issuerURL ≠ []
  deriving DecidableEq

structure ObservabilityConfig where
  otelEnabled : Bool
  otlpEndpoint : GoString
  deriving DecidableEq

/-- `Config`, with what `Load` has checked. -/
structure Config where
  app : AppConfig
  grpc : GRPCConfig
  http : HTTPConfig
  database : DatabaseConfig
  auth : AuthConfig
  oidc : OIDCConfig
  idempotency : Options
  observability : ObservabilityConfig

/-! ## Errors -/

/-- Why the text of a variable cannot be read. -/
inductive Cause
  | number (err : NumError)
  | duration (err : DurationError)
  deriving DecidableEq, Repr

/-- The errors of `Load`. -/
inductive LoadError
  | invalid (key : Variable) (cause : Cause)
  | notPositive (key : Variable)
  | lockTimeout
  | databaseURL
  | keyFiles
  | oidcIssuerURL
  deriving DecidableEq, Repr

/-- The texts of the errors; that of the cause comes from the library. -/
def LoadError.text (describe : Cause → String) : LoadError → String
  | invalid key cause => "invalid " ++ key.name ++ ": " ++ describe cause
  | notPositive key => key.name ++ " must be positive"
  | lockTimeout => "IDEMPOTENCY_LOCK_TIMEOUT must be positive and shorter than IDEMPOTENCY_TTL"
  | databaseURL => "DATABASE_URL is required"
  | keyFiles => "JWT key files are required when local auth is enabled"
  | oidcIssuerURL => "OIDC_ISSUER_URL is required when OIDC is enabled"

/-- The variable that an error tells to set. -/
def LoadError.key : LoadError → Variable
  | invalid key _ => key
  | notPositive key => key
  | lockTimeout => .idempotencyLockTimeout
  | databaseURL => .databaseURL
  | keyFiles => .jwtPrivateKeyFile
  | oidcIssuerURL => .oidcIssuerURL

/-- The text of an error names the variable. -/
theorem LoadError.text_eq (describe : Cause → String) {err : LoadError} (hne : err ≠ .keyFiles) :
    ∃ before after, err.text describe = before ++ err.key.name ++ after := by
  cases err with
  | invalid key cause => exact ⟨"invalid ", ": " ++ describe cause, by simp [text, LoadError.key, String.append_assoc]⟩
  | notPositive key => exact ⟨"", " must be positive", by simp [text, LoadError.key]⟩
  | lockTimeout => exact ⟨"", " must be positive and shorter than IDEMPOTENCY_TTL", rfl⟩
  | databaseURL => exact ⟨"", " is required", rfl⟩
  | keyFiles => exact absurd rfl hne
  | oidcIssuerURL => exact ⟨"", " is required when OIDC is enabled", rfl⟩

/-! ## Load -/

section Load

variable (fraction : Nat → Nat → Nat → Nat) (env : Environment)

/-- `strEnv`. -/
def strEnv (k : Variable) (d : String) : GoString :=
  if (env k).val = [] then encodeUtf8 d else (env k).val

/-- `intEnv`. -/
def intEnv (k : Variable) (d : Int) : Except LoadError Int :=
  if (env k).val = [] then .ok d
  else (atoi (env k).val).mapError fun err => .invalid k (.number err)

/-- `boolEnv`. -/
def boolEnv (k : Variable) (d : Bool) : Except LoadError Bool :=
  if (env k).val = [] then .ok d
  else (parseBool (env k).val).mapError fun err => .invalid k (.number err)

/-- `durationEnv`. -/
def durationEnv (k : Variable) (d : Int) : Except LoadError Int :=
  if (env k).val = [] then .ok d
  else (parseDuration fraction (env k).val).mapError fun err => .invalid k (.duration err)

/-- The value, unless it fails a check. -/
def ensure {α : Type} (p : α → Prop) [DecidablePred p] (err : LoadError) (a : α) :
    Except LoadError { a // p a } :=
  if h : p a then .ok ⟨a, h⟩ else .error err

/-- The conversion from `int` to `int32`. -/
def toInt32 (n : Int) : Int := n.bmod 4294967296

/-- `Load`. -/
def load : Except LoadError Config := do
  let port ← intEnv env .grpcPort 50051
  let httpPort ← intEnv env .httpPort 8080
  let docsEnabled ← boolEnv env .docsEnabled true
  let maxc ← intEnv env .databaseMaxConnections 20
  let minc ← intEnv env .databaseMinConnections 2
  let shutdown ← durationEnv fraction env .shutdownTimeout 10000000000
  let ttl ← durationEnv fraction env .jwtAccessTokenTTL 900000000000
  let ttl ← ensure (fun ttl => 0 < ttl) (.notPositive .jwtAccessTokenTTL) ttl
  let refreshTTL ← durationEnv fraction env .jwtRefreshTokenTTL 2592000000000000
  let refreshTTL ← ensure (fun ttl => 0 < ttl) (.notPositive .jwtRefreshTokenTTL) refreshTTL
  let localEnabled ← boolEnv env .authLocalEnabled true
  let oidcEnabled ← boolEnv env .oidcEnabled false
  let idempotencyEnabled ← boolEnv env .idempotencyEnabled true
  let idempotencyTTL ← durationEnv fraction env .idempotencyTTL 86400000000000
  let idempotencyTTL ← ensure (fun ttl => 0 < ttl) (.notPositive .idempotencyTTL) idempotencyTTL
  let lockTimeout ← durationEnv fraction env .idempotencyLockTimeout 30000000000
  let lockTimeout ← ensure (fun lock => 0 < lock ∧ lock < idempotencyTTL.val) .lockTimeout
    lockTimeout
  let otelEnabled ← boolEnv env .otelEnabled false
  let db ← ensure (fun db => db ≠ []) .databaseURL (env .databaseURL).val
  let issuer := strEnv env .jwtIssuer "go-foundation"
  let aud := strEnv env .jwtAudience "grpc-api"
  let priv := strEnv env .jwtPrivateKeyFile "./secrets/jwt_private.pem"
  let pub := strEnv env .jwtPublicKeyFile "./secrets/jwt_public.pem"
  let _ ← ensure (fun files => ¬(localEnabled = true ∧ (files.1 = [] ∨ files.2 = []))) .keyFiles
    (priv, pub)
  let issuerURL ← ensure (fun url => oidcEnabled = true → url ≠ []) .oidcIssuerURL
    (env .oidcIssuerURL).val
  .ok
    { app :=
        { name := strEnv env .appName "go-foundation"
          environment := strEnv env .appEnv "development"
          shutdownTimeout := shutdown }
      grpc :=
        { host := strEnv env .grpcHost "0.0.0.0"
          port := port
          metricsAddr := strEnv env .metricsAddr ":9090" }
      http :=
        { host := strEnv env .httpHost "0.0.0.0"
          port := httpPort
          docsEnabled := docsEnabled }
      database :=
        { url := db
          maxConnections := toInt32 maxc
          minConnections := toInt32 minc
          url_ne := db.property }
      auth :=
        { localEnabled := localEnabled
          issuer := issuer
          audience := aud
          privateKeyFile := priv
          publicKeyFile := pub
          tokenTTL := ttl
          refreshTokenTTL := refreshTTL
          tokenTTL_pos := ttl.property
          refreshTokenTTL_pos := refreshTTL.property }
      oidc :=
        { enabled := oidcEnabled
          issuerURL := issuerURL
          clientID := (env .oidcClientID).val
          issuerURL_ne := issuerURL.property }
      idempotency :=
        { enabled := idempotencyEnabled
          ttl := idempotencyTTL
          lockTimeout := lockTimeout
          lockTimeout_pos := lockTimeout.property.1
          lockTimeout_lt := lockTimeout.property.2 }
      observability :=
        { otelEnabled := otelEnabled
          otlpEndpoint := strEnv env .otelExporterOTLPEndpoint "localhost:4317" } }

end Load

end GoFoundation.Configuration
