/-
# Which configurations there are

Every value that `Load` can return, and nothing else: texts with a default are never
empty, numbers are those of their Go types, and what is checked is what the rest of the
server assumes of its options.
-/

import GoFoundation.Configuration.Load

namespace GoFoundation.Configuration

open Go Grpc Idempotency

section Reading

variable {fraction : Nat → Nat → Nat → Nat} {env : Environment} {config : Config}

/-! ## What is read -/

theorem bind_eq_ok {ε α β : Type} {x : Except ε α} {f : α → Except ε β} {b : β} :
    (x >>= f) = .ok b ↔ ∃ a, x = .ok a ∧ f a = .ok b := by
  cases x with
  | error err =>
      constructor
      · intro heq
        cases heq
      · rintro ⟨a, heq, -⟩
        cases heq
  | ok a =>
      constructor
      · exact fun heq => ⟨a, rfl, heq⟩
      · rintro ⟨a', heq, hrest⟩
        cases heq
        exact hrest

theorem ensure_eq_ok {α : Type} {p : α → Prop} [DecidablePred p] {err : LoadError} {a : α}
    {b : { a // p a }} : ensure p err a = .ok b ↔ a = b.val := by
  unfold ensure
  split
  · rw [Except.ok.injEq, Subtype.ext_iff]
  · next h =>
      constructor
      · intro heq
        cases heq
      · intro heq
        exact absurd b.property (heq ▸ h)

/-- The configuration is what the variables say. -/
structure Reads (fraction : Nat → Nat → Nat → Nat) (env : Environment) (config : Config) :
    Prop where
  name : strEnv env .appName "go-foundation" = config.app.name
  environment : strEnv env .appEnv "development" = config.app.environment
  shutdownTimeout :
    durationEnv fraction env .shutdownTimeout 10000000000 = .ok config.app.shutdownTimeout
  grpcHost : strEnv env .grpcHost "0.0.0.0" = config.grpc.host
  grpcPort : intEnv env .grpcPort 50051 = .ok config.grpc.port
  metricsAddr : strEnv env .metricsAddr ":9090" = config.grpc.metricsAddr
  httpHost : strEnv env .httpHost "0.0.0.0" = config.http.host
  httpPort : intEnv env .httpPort 8080 = .ok config.http.port
  docsEnabled : boolEnv env .docsEnabled true = .ok config.http.docsEnabled
  url : (env .databaseURL).val = config.database.url
  maxConnections : ∃ maxc, intEnv env .databaseMaxConnections 20 = .ok maxc ∧
    toInt32 maxc = config.database.maxConnections
  minConnections : ∃ minc, intEnv env .databaseMinConnections 2 = .ok minc ∧
    toInt32 minc = config.database.minConnections
  localEnabled : boolEnv env .authLocalEnabled true = .ok config.auth.localEnabled
  issuer : strEnv env .jwtIssuer "go-foundation" = config.auth.issuer
  audience : strEnv env .jwtAudience "grpc-api" = config.auth.audience
  privateKeyFile :
    strEnv env .jwtPrivateKeyFile "./secrets/jwt_private.pem" = config.auth.privateKeyFile
  publicKeyFile :
    strEnv env .jwtPublicKeyFile "./secrets/jwt_public.pem" = config.auth.publicKeyFile
  tokenTTL : durationEnv fraction env .jwtAccessTokenTTL 900000000000 = .ok config.auth.tokenTTL
  refreshTokenTTL : durationEnv fraction env .jwtRefreshTokenTTL 2592000000000000 =
    .ok config.auth.refreshTokenTTL
  oidcEnabled : boolEnv env .oidcEnabled false = .ok config.oidc.enabled
  issuerURL : (env .oidcIssuerURL).val = config.oidc.issuerURL
  clientID : (env .oidcClientID).val = config.oidc.clientID
  idempotencyEnabled : boolEnv env .idempotencyEnabled true = .ok config.idempotency.enabled
  idempotencyTTL :
    durationEnv fraction env .idempotencyTTL 86400000000000 = .ok config.idempotency.ttl
  lockTimeout : durationEnv fraction env .idempotencyLockTimeout 30000000000 =
    .ok config.idempotency.lockTimeout
  otelEnabled : boolEnv env .otelEnabled false = .ok config.observability.otelEnabled
  otlpEndpoint :
    strEnv env .otelExporterOTLPEndpoint "localhost:4317" = config.observability.otlpEndpoint

/-- A default that is no empty text makes an empty text impossible. -/
theorem strEnv_ne_nil {k : Variable} {d : String} (hd : encodeUtf8 d ≠ []) :
    strEnv env k d ≠ [] := by
  unfold strEnv
  split
  · exact hd
  · assumption

/-- The error about key files does not occur. -/
theorem keyFiles_ne_nil (env : Environment) (localEnabled : Bool) :
    ¬(localEnabled = true ∧ (strEnv env .jwtPrivateKeyFile "./secrets/jwt_private.pem" = [] ∨
      strEnv env .jwtPublicKeyFile "./secrets/jwt_public.pem" = [])) := by
  rintro ⟨-, hempty | hempty⟩
  · exact strEnv_ne_nil (by decide +kernel) hempty
  · exact strEnv_ne_nil (by decide +kernel) hempty

theorem load_eq_ok_iff : load fraction env = .ok config ↔ Reads fraction env config := by
  constructor
  · intro hload
    simp only [load, bind_eq_ok, ensure_eq_ok] at hload
    obtain ⟨port, hport, httpPort, hhttpPort, docs, hdocs, maxc, hmaxc, minc, hminc, shutdown,
      hshutdown, _, httl, ttl, rfl, _, hrefresh, refreshTTL, rfl, localEnabled, hlocal, oidcEnabled,
      hoidc, enabled, henabled, _, hidempotency, idempotencyTTL, rfl, _, hlock, lockTimeout, rfl,
      otel, hotel, db, hdb, _, -, issuerURL, hissuer, heq⟩ := hload
    cases heq
    exact
      { name := rfl
        environment := rfl
        shutdownTimeout := hshutdown
        grpcHost := rfl
        grpcPort := hport
        metricsAddr := rfl
        httpHost := rfl
        httpPort := hhttpPort
        docsEnabled := hdocs
        url := hdb
        maxConnections := ⟨maxc, hmaxc, rfl⟩
        minConnections := ⟨minc, hminc, rfl⟩
        localEnabled := hlocal
        issuer := rfl
        audience := rfl
        privateKeyFile := rfl
        publicKeyFile := rfl
        tokenTTL := httl
        refreshTokenTTL := hrefresh
        oidcEnabled := hoidc
        issuerURL := hissuer
        clientID := rfl
        idempotencyEnabled := henabled
        idempotencyTTL := hidempotency
        lockTimeout := hlock
        otelEnabled := hotel
        otlpEndpoint := rfl }
  · intro hreads
    obtain ⟨maxc, hmaxc, hmax⟩ := hreads.maxConnections
    obtain ⟨minc, hminc, hmin⟩ := hreads.minConnections
    simp only [load, bind_eq_ok, ensure_eq_ok]
    refine ⟨_, hreads.grpcPort, _, hreads.httpPort, _, hreads.docsEnabled, maxc, hmaxc, minc, hminc,
      _, hreads.shutdownTimeout, _, hreads.tokenTTL, ⟨_, config.auth.tokenTTL_pos⟩, rfl,
      _, hreads.refreshTokenTTL, ⟨_, config.auth.refreshTokenTTL_pos⟩, rfl,
      _, hreads.localEnabled, _, hreads.oidcEnabled, _, hreads.idempotencyEnabled,
      _, hreads.idempotencyTTL,
      ⟨_, config.idempotency.lockTimeout_pos.trans config.idempotency.lockTimeout_lt⟩, rfl,
      _, hreads.lockTimeout,
      ⟨_, config.idempotency.lockTimeout_pos, config.idempotency.lockTimeout_lt⟩, rfl,
      _, hreads.otelEnabled, ⟨_, config.database.url_ne⟩, hreads.url,
      ⟨_, keyFiles_ne_nil env _⟩, rfl, ⟨_, config.oidc.issuerURL_ne⟩, hreads.issuerURL, ?_⟩
    simp only [hreads.name, hreads.environment, hreads.grpcHost, hreads.metricsAddr,
      hreads.httpHost, hreads.issuer, hreads.audience, hreads.privateKeyFile, hreads.publicKeyFile,
      hreads.clientID, hreads.otlpEndpoint, hmax, hmin]

/-! ## What values there are -/

/-- A text that a variable with a default can have. -/
def IsText (s : GoString) : Prop := s ≠ [] ∧ 0 ∉ s

instance (s : GoString) : Decidable (IsText s) := inferInstanceAs (Decidable (_ ∧ _))

/-- A number of the type `int`, or a duration. -/
def IsInt64 (n : Int) : Prop := -9223372036854775808 ≤ n ∧ n ≤ 9223372036854775807

instance (n : Int) : Decidable (IsInt64 n) := inferInstanceAs (Decidable (_ ∧ _))

/-- A number of the type `int32`. -/
def IsInt32 (n : Int) : Prop := -2147483648 ≤ n ∧ n ≤ 2147483647

/-- The values are those that variables can be given. -/
structure Config.Representable (config : Config) : Prop where
  defaulted : ∀ s ∈ [config.app.name, config.app.environment, config.grpc.host,
    config.grpc.metricsAddr, config.http.host, config.auth.issuer, config.auth.audience,
    config.auth.privateKeyFile, config.auth.publicKeyFile, config.observability.otlpEndpoint],
    IsText s
  plain : ∀ s ∈ [config.database.url, config.oidc.issuerURL, config.oidc.clientID], 0 ∉ s
  ports : ∀ n ∈ [config.grpc.port, config.http.port], IsInt64 n
  connections : ∀ n ∈ [config.database.maxConnections, config.database.minConnections], IsInt32 n
  durations : ∀ d ∈ [config.app.shutdownTimeout, config.auth.tokenTTL, config.auth.refreshTokenTTL,
    config.idempotency.ttl, config.idempotency.lockTimeout], IsInt64 d

theorem isText_strEnv (env : Environment) (k : Variable) {d : String} (hd : IsText (encodeUtf8 d)) :
    IsText (strEnv env k d) := by
  unfold strEnv
  split
  · exact hd
  · next hne => exact ⟨hne, (env k).property⟩

theorem isInt64_of_intEnv {k : Variable} {d n : Int} (hd : IsInt64 d)
    (hread : intEnv env k d = .ok n) : IsInt64 n := by
  unfold intEnv at hread
  split at hread
  · cases hread
    exact hd
  · cases hatoi : atoi (env k).val with
    | error err =>
        rw [hatoi] at hread
        cases hread
    | ok m =>
        rw [hatoi] at hread
        cases hread
        exact range_of_atoi hatoi

theorem isInt64_of_durationEnv {k : Variable} {d n : Int} (hd : IsInt64 d)
    (hread : durationEnv fraction env k d = .ok n) : IsInt64 n := by
  unfold durationEnv at hread
  split at hread
  · cases hread
    exact hd
  · cases hparse : parseDuration fraction (env k).val with
    | error err =>
        rw [hparse] at hread
        cases hread
    | ok m =>
        rw [hparse] at hread
        cases hread
        exact range_of_parseDuration hparse

theorem isInt32_toInt32 (n : Int) : IsInt32 (toInt32 n) := by
  unfold IsInt32 toInt32
  rw [Int.bmod_def]
  omega

theorem toInt32_of_isInt32 {n : Int} (hn : IsInt32 n) : toInt32 n = n := by
  unfold IsInt32 at hn
  rw [toInt32, Int.bmod_def]
  omega

theorem Reads.representable (hreads : Reads fraction env config) : config.Representable where
  defaulted := by
    simp only [List.forall_mem_cons, ← hreads.name, ← hreads.environment, ← hreads.grpcHost,
      ← hreads.metricsAddr, ← hreads.httpHost, ← hreads.issuer, ← hreads.audience,
      ← hreads.privateKeyFile, ← hreads.publicKeyFile, ← hreads.otlpEndpoint]
    refine ⟨?_, ?_, ?_, ?_, ?_, ?_, ?_, ?_, ?_, ?_, fun _ h => absurd h List.not_mem_nil⟩
    all_goals exact isText_strEnv env _ (by decide +kernel)
  plain := by
    simp only [List.forall_mem_cons, ← hreads.url, ← hreads.issuerURL, ← hreads.clientID]
    exact ⟨(env _).property, (env _).property, (env _).property, fun _ h => absurd h List.not_mem_nil⟩
  ports := by
    simp only [List.forall_mem_cons]
    exact ⟨isInt64_of_intEnv (by decide) hreads.grpcPort,
      isInt64_of_intEnv (by decide) hreads.httpPort, fun _ h => absurd h List.not_mem_nil⟩
  connections := by
    obtain ⟨maxc, -, hmax⟩ := hreads.maxConnections
    obtain ⟨minc, -, hmin⟩ := hreads.minConnections
    simp only [List.forall_mem_cons, ← hmax, ← hmin]
    exact ⟨isInt32_toInt32 maxc, isInt32_toInt32 minc, fun _ h => absurd h List.not_mem_nil⟩
  durations := by
    simp only [List.forall_mem_cons]
    exact ⟨isInt64_of_durationEnv (by decide) hreads.shutdownTimeout,
      isInt64_of_durationEnv (by decide) hreads.tokenTTL,
      isInt64_of_durationEnv (by decide) hreads.refreshTokenTTL,
      isInt64_of_durationEnv (by decide) hreads.idempotencyTTL,
      isInt64_of_durationEnv (by decide) hreads.lockTimeout, fun _ h => absurd h List.not_mem_nil⟩

end Reading

/-! ## How a configuration is written -/

/-- The texts that give a configuration. -/
def Config.environ (config : Config) : Variable → GoString
  | .appName => config.app.name
  | .appEnv => config.app.environment
  | .shutdownTimeout => formatDuration config.app.shutdownTimeout
  | .grpcHost => config.grpc.host
  | .grpcPort => formatInt config.grpc.port
  | .metricsAddr => config.grpc.metricsAddr
  | .httpHost => config.http.host
  | .httpPort => formatInt config.http.port
  | .docsEnabled => formatBool config.http.docsEnabled
  | .databaseURL => config.database.url
  | .databaseMaxConnections => formatInt config.database.maxConnections
  | .databaseMinConnections => formatInt config.database.minConnections
  | .authLocalEnabled => formatBool config.auth.localEnabled
  | .jwtIssuer => config.auth.issuer
  | .jwtAudience => config.auth.audience
  | .jwtPrivateKeyFile => config.auth.privateKeyFile
  | .jwtPublicKeyFile => config.auth.publicKeyFile
  | .jwtAccessTokenTTL => formatDuration config.auth.tokenTTL
  | .jwtRefreshTokenTTL => formatDuration config.auth.refreshTokenTTL
  | .oidcEnabled => formatBool config.oidc.enabled
  | .oidcIssuerURL => config.oidc.issuerURL
  | .oidcClientID => config.oidc.clientID
  | .idempotencyEnabled => formatBool config.idempotency.enabled
  | .idempotencyTTL => formatDuration config.idempotency.ttl
  | .idempotencyLockTimeout => formatDuration config.idempotency.lockTimeout
  | .otelEnabled => formatBool config.observability.otelEnabled
  | .otelExporterOTLPEndpoint => config.observability.otlpEndpoint

section Writing

variable {fraction : Nat → Nat → Nat → Nat} {env : Environment} {config : Config}

theorem strEnv_of_eq {k : Variable} {d : String} {s : GoString} (hs : IsText s)
    (henv : (env k).val = s) : strEnv env k d = s := by
  rw [strEnv, henv, if_neg hs.1]

theorem intEnv_of_eq {k : Variable} {d n : Int} (hn : IsInt64 n)
    (henv : (env k).val = formatInt n) : intEnv env k d = .ok n := by
  rw [intEnv, henv, if_neg (formatInt_ne_nil n), atoi_formatInt hn.1 hn.2]
  rfl

theorem boolEnv_of_eq {k : Variable} {d b : Bool} (henv : (env k).val = formatBool b) :
    boolEnv env k d = .ok b := by
  have hne : formatBool b ≠ [] := by cases b <;> decide +kernel
  rw [boolEnv, henv, if_neg hne, parseBool_formatBool]
  rfl

theorem durationEnv_of_eq {k : Variable} {d n : Int} (hn : IsInt64 n)
    (henv : (env k).val = formatDuration n) : durationEnv fraction env k d = .ok n := by
  have hne : formatDuration n ≠ [] :=
    List.append_ne_nil_of_left_ne_nil (formatInt_ne_nil n) _
  rw [durationEnv, henv, if_neg hne, parseDuration_formatDuration hn.1 hn.2]
  rfl

theorem zero_notMem_formatInt (n : Int) : 0 ∉ formatInt n := by
  have hdigits : 0 ∉ formatNat n.natAbs := fun hmem =>
    absurd (isDigit_of_mem_formatNat hmem) (by decide)
  unfold formatInt
  split
  · exact List.not_mem_cons_of_ne_of_not_mem (by decide) hdigits
  · exact hdigits

theorem zero_notMem_environ (hconfig : config.Representable) (k : Variable) :
    0 ∉ config.environ k := by
  have hbool : ∀ b, 0 ∉ formatBool b := by
    intro b
    cases b <;> decide +kernel
  have hduration : ∀ d, 0 ∉ formatDuration d := by
    intro d hmem
    obtain hmem | hmem := List.mem_append.mp hmem
    · exact zero_notMem_formatInt d hmem
    · revert hmem
      decide +kernel
  have htexts := hconfig.defaulted
  have hplain := hconfig.plain
  simp only [List.forall_mem_cons, IsText] at htexts hplain
  cases k <;> simp only [Config.environ] <;> grind [zero_notMem_formatInt]

/-- Every configuration with such values is read from its texts. -/
theorem reads_environ (hconfig : config.Representable) :
    Reads fraction (fun k => ⟨config.environ k, zero_notMem_environ hconfig k⟩) config := by
  have htexts := hconfig.defaulted
  have hports := hconfig.ports
  have hconnections := hconfig.connections
  have hdurations := hconfig.durations
  simp only [List.forall_mem_cons] at htexts hports hconnections hdurations
  obtain ⟨hname, henvironment, hgrpc, hmetrics, hhttp, hissuer, haudience, hprivate, hpublic, hotlp,
    -⟩ := htexts
  obtain ⟨hmax, hmin, -⟩ := hconnections
  obtain ⟨hshutdown, httl, hrefresh, hidempotency, hlock, -⟩ := hdurations
  have hwide : ∀ n, IsInt32 n → IsInt64 n := by
    intro n hn
    unfold IsInt32 at hn
    unfold IsInt64
    omega
  exact
    { name := strEnv_of_eq hname rfl
      environment := strEnv_of_eq henvironment rfl
      shutdownTimeout := durationEnv_of_eq hshutdown rfl
      grpcHost := strEnv_of_eq hgrpc rfl
      grpcPort := intEnv_of_eq hports.1 rfl
      metricsAddr := strEnv_of_eq hmetrics rfl
      httpHost := strEnv_of_eq hhttp rfl
      httpPort := intEnv_of_eq hports.2.1 rfl
      docsEnabled := boolEnv_of_eq rfl
      url := rfl
      maxConnections := ⟨_, intEnv_of_eq (hwide _ hmax) rfl, toInt32_of_isInt32 hmax⟩
      minConnections := ⟨_, intEnv_of_eq (hwide _ hmin) rfl, toInt32_of_isInt32 hmin⟩
      localEnabled := boolEnv_of_eq rfl
      issuer := strEnv_of_eq hissuer rfl
      audience := strEnv_of_eq haudience rfl
      privateKeyFile := strEnv_of_eq hprivate rfl
      publicKeyFile := strEnv_of_eq hpublic rfl
      tokenTTL := durationEnv_of_eq httl rfl
      refreshTokenTTL := durationEnv_of_eq hrefresh rfl
      oidcEnabled := boolEnv_of_eq rfl
      issuerURL := rfl
      clientID := rfl
      idempotencyEnabled := boolEnv_of_eq rfl
      idempotencyTTL := durationEnv_of_eq hidempotency rfl
      lockTimeout := durationEnv_of_eq hlock rfl
      otelEnabled := boolEnv_of_eq rfl
      otlpEndpoint := strEnv_of_eq hotlp rfl }

end Writing

/-- A server can be given every configuration with values of the Go types that keeps what
the type `Config` says of it, and no other. -/
theorem exists_load_iff (fraction : Nat → Nat → Nat → Nat) (config : Config) :
    (∃ env, load fraction env = .ok config) ↔ config.Representable := by
  constructor
  · rintro ⟨env, hload⟩
    exact (load_eq_ok_iff.mp hload).representable
  · intro hconfig
    exact ⟨_, load_eq_ok_iff.mpr (reads_environ hconfig)⟩

/-! ## The options of the interceptor -/

/-- The idempotency part of `Load` is the one that the interceptor is described with. -/
theorem loadOptions_of_load {fraction : Nat → Nat → Nat → Nat} {env : Environment}
    {config : Config} (hload : load fraction env = .ok config) :
    ∃ enabled ttl lock, boolEnv env .idempotencyEnabled true = .ok enabled ∧
      durationEnv fraction env .idempotencyTTL 86400000000000 = .ok ttl ∧
      durationEnv fraction env .idempotencyLockTimeout 30000000000 = .ok lock ∧
      loadOptions enabled ttl lock = .ok config.idempotency := by
  have hreads := load_eq_ok_iff.mp hload
  have hpos := config.idempotency.lockTimeout_pos
  have hlt := config.idempotency.lockTimeout_lt
  refine ⟨_, _, _, hreads.idempotencyEnabled, hreads.idempotencyTTL, hreads.lockTimeout, ?_⟩
  rw [loadOptions, if_neg (by omega), dif_neg (by omega)]

theorem quarterHour_pos : (0 : Int) < 900000000000 := by decide

theorem thirtyDays_pos : (0 : Int) < 2592000000000000 := by decide

/-- The defaults, with a database. -/
def Config.sample : Config where
  app := ⟨encodeUtf8 "go-foundation", encodeUtf8 "development", 10000000000⟩
  grpc := ⟨encodeUtf8 "0.0.0.0", 50051, encodeUtf8 ":9090"⟩
  http := ⟨encodeUtf8 "0.0.0.0", 8080, true⟩
  database := ⟨encodeUtf8 "postgres://localhost", 20, 2, by decide +kernel⟩
  auth :=
    { localEnabled := true
      issuer := encodeUtf8 "go-foundation"
      audience := encodeUtf8 "grpc-api"
      privateKeyFile := encodeUtf8 "./secrets/jwt_private.pem"
      publicKeyFile := encodeUtf8 "./secrets/jwt_public.pem"
      tokenTTL := 900000000000
      refreshTokenTTL := 2592000000000000
      tokenTTL_pos := quarterHour_pos
      refreshTokenTTL_pos := thirtyDays_pos }
  oidc := ⟨false, [], [], by decide⟩
  idempotency := defaultOptions
  observability := ⟨false, encodeUtf8 "localhost:4317"⟩

theorem representable_sample : Config.sample.Representable where
  defaulted := by decide +kernel
  plain := by decide +kernel
  ports := by decide +kernel
  connections := by
    simp only [List.forall_mem_cons, IsInt32]
    decide +kernel
  durations := by decide +kernel

/-- There is a server with any options for which results on the interceptor are stated. -/
theorem exists_load_of_options (fraction : Nat → Nat → Nat → Nat) (options : Options)
    (httl : IsInt64 options.ttl) :
    ∃ env config, load fraction env = .ok config ∧ config.idempotency = options := by
  have hpos := options.lockTimeout_pos
  have hlt := options.lockTimeout_lt
  have hlock : IsInt64 options.lockTimeout := by
    unfold IsInt64 at httl ⊢
    omega
  have hconfig : Config.Representable { Config.sample with idempotency := options } :=
    { defaulted := representable_sample.defaulted
      plain := representable_sample.plain
      ports := representable_sample.ports
      connections := representable_sample.connections
      durations := by
        simp only [List.forall_mem_cons]
        exact ⟨by decide, by decide, by decide, httl, hlock, fun _ h => absurd h List.not_mem_nil⟩ }
  obtain ⟨env, hload⟩ := (exists_load_iff fraction _).mpr hconfig
  exact ⟨env, _, hload, rfl⟩

end GoFoundation.Configuration
