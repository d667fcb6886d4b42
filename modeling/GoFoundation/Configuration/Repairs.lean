/-
# Repairing an environment

`Load` stops at the first variable that it cannot accept, and its error tells which one to
set.  The checks that it makes are a checklist, so an operator who sets the variables that
the errors are about gets to the end of it, unless `IDEMPOTENCY_TTL` is one nanosecond, for
which there is no lock timeout.
-/

import GoFoundation.Library.Checklist
import GoFoundation.Configuration.Accepted

namespace GoFoundation.Configuration

open Go Grpc Idempotency Library

variable {fraction : Nat → Nat → Nat → Nat} {env env' : Environment} {config : Config}

/-! ## The checks -/

/-- The error of a computation. -/
def faultOf {α : Type} : Except LoadError α → Option LoadError
  | .error err => some err
  | .ok _ => none

theorem faultOf_eq_none {α : Type} {x : Except LoadError α} :
    faultOf x = none ↔ ∃ a, x = .ok a := by
  cases x <;> simp [faultOf]

theorem faultOf_bind {α β : Type} {x : Except LoadError α} {f : α → Except LoadError β}
    {rest : Option LoadError} (hrest : ∀ a, x = .ok a → faultOf (f a) = rest) :
    faultOf (x >>= f) = (faultOf x).or rest := by
  cases x with
  | error err => rfl
  | ok a => exact hrest a rfl

/-- A duration that has to be positive. -/
def positive (fraction : Nat → Nat → Nat → Nat) (env : Environment) (k : Variable) (d : Int) :
    Except LoadError { ttl : Int // 0 < ttl } :=
  durationEnv fraction env k d >>= ensure (fun ttl => 0 < ttl) (.notPositive k)

/-- What is wrong with the lock timeout, given a time to live. -/
def lockFault (fraction : Nat → Nat → Nat → Nat) (env : Environment) : Option LoadError :=
  match durationEnv fraction env .idempotencyLockTimeout 30000000000 with
  | .error err => some err
  | .ok lock =>
      match durationEnv fraction env .idempotencyTTL 86400000000000 with
      | .error _ => none
      | .ok ttl => if 0 < ttl ∧ ¬(0 < lock ∧ lock < ttl) then some .lockTimeout else none

/-- What is wrong with the issuer, given whether OIDC is enabled. -/
def issuerFault (env : Environment) : Option LoadError :=
  match boolEnv env .oidcEnabled false with
  | .error _ => none
  | .ok enabled =>
      if enabled = true ∧ (env .oidcIssuerURL).val = [] then some .oidcIssuerURL else none

/-- The check of a number. -/
def intCheck (k : Variable) (d : Int) : Check Variable EnvValue LoadError where
  key := k
  reads := []
  fault env := faultOf (intEnv env k d)
  reads_only env env' h := by simp only [intEnv, h k List.mem_cons_self]

/-- The check of a switch. -/
def boolCheck (k : Variable) (d : Bool) : Check Variable EnvValue LoadError where
  key := k
  reads := []
  fault env := faultOf (boolEnv env k d)
  reads_only env env' h := by simp only [boolEnv, h k List.mem_cons_self]

theorem durationEnv_congr {k : Variable} {d : Int} (hk : env k = env' k) :
    durationEnv fraction env k d = durationEnv fraction env' k d := by
  simp only [durationEnv, hk]

/-- The check of a duration. -/
def durationCheck (fraction : Nat → Nat → Nat → Nat) (k : Variable) (d : Int) :
    Check Variable EnvValue LoadError where
  key := k
  reads := []
  fault env := faultOf (durationEnv fraction env k d)
  reads_only env env' h := by rw [durationEnv_congr (h k List.mem_cons_self)]

/-- The check of a time to live. -/
def positiveCheck (fraction : Nat → Nat → Nat → Nat) (k : Variable) (d : Int) :
    Check Variable EnvValue LoadError where
  key := k
  reads := []
  fault env := faultOf (positive fraction env k d)
  reads_only env env' h := by rw [positive, positive, durationEnv_congr (h k List.mem_cons_self)]

/-- The check of the lock timeout. -/
def lockCheck (fraction : Nat → Nat → Nat → Nat) : Check Variable EnvValue LoadError where
  key := .idempotencyLockTimeout
  reads := [.idempotencyTTL]
  fault := lockFault fraction
  reads_only env env' h := by
    simp only [lockFault, durationEnv_congr (h .idempotencyLockTimeout (by simp)),
      durationEnv_congr (h .idempotencyTTL (by simp))]

/-- The check that there is a database. -/
def urlCheck : Check Variable EnvValue LoadError where
  key := .databaseURL
  reads := []
  fault env := if (env .databaseURL).val = [] then some .databaseURL else none
  reads_only env env' h := by rw [h .databaseURL List.mem_cons_self]

/-- The check of the issuer. -/
def issuerCheck : Check Variable EnvValue LoadError where
  key := .oidcIssuerURL
  reads := [.oidcEnabled]
  fault := issuerFault
  reads_only env env' h := by
    simp only [issuerFault, boolEnv, h .oidcIssuerURL (by simp), h .oidcEnabled (by simp)]

/-- The checks of `Load`, in order.  Those of the key files cannot fail. -/
def checks (fraction : Nat → Nat → Nat → Nat) : List (Check Variable EnvValue LoadError) :=
  [intCheck .grpcPort 50051,
    intCheck .httpPort 8080,
    boolCheck .docsEnabled true,
    intCheck .databaseMaxConnections 20,
    intCheck .databaseMinConnections 2,
    durationCheck fraction .shutdownTimeout 10000000000,
    positiveCheck fraction .jwtAccessTokenTTL 900000000000,
    positiveCheck fraction .jwtRefreshTokenTTL 2592000000000000,
    boolCheck .authLocalEnabled true,
    boolCheck .oidcEnabled false,
    boolCheck .idempotencyEnabled true,
    positiveCheck fraction .idempotencyTTL 86400000000000,
    lockCheck fraction,
    boolCheck .otelEnabled false,
    urlCheck,
    issuerCheck]

theorem ordered_checks (fraction : Nat → Nat → Nat → Nat) : Check.Ordered (checks fraction) := by
  simp [Check.Ordered, checks, intCheck, boolCheck, durationCheck, positiveCheck, lockCheck,
    urlCheck, issuerCheck]

/-! ## Load makes these checks -/

theorem faultOf_ensure {α : Type} {p : α → Prop} [DecidablePred p] {err : LoadError} {a : α} :
    faultOf (ensure p err a) = if p a then none else some err := by
  unfold ensure
  split <;> rfl

theorem faultOf_bind_of_pass {α β : Type} {x : Except LoadError α} {f : α → Except LoadError β}
    {rest : Option LoadError} (hpass : faultOf x = none)
    (hrest : ∀ a, x = .ok a → faultOf (f a) = rest) : faultOf (x >>= f) = rest := by
  rw [faultOf_bind hrest, hpass]
  rfl

theorem map_firstFault_cons (check : Check Variable EnvValue LoadError)
    (after : List (Check Variable EnvValue LoadError)) :
    (Check.firstFault (check :: after) env).map Prod.snd =
      (check.fault env).or ((Check.firstFault after env).map Prod.snd) := by
  cases hfault : check.fault env with
  | some err =>
      rw [Check.firstFault_cons_of_fault hfault]
      rfl
  | none =>
      rw [Check.firstFault_cons_of_pass hfault]
      rfl

theorem positive_eq_ok {k : Variable} {d : Int} {ttl : { ttl : Int // 0 < ttl }} :
    positive fraction env k d = .ok ttl ↔ durationEnv fraction env k d = .ok ttl.val := by
  simp only [positive, bind_eq_ok, ensure_eq_ok, exists_eq_right]

/-- The check of the lock timeout, once the time to live is read. -/
theorem lockFault_eq {ttl : { ttl : Int // 0 < ttl }}
    (httl : positive fraction env .idempotencyTTL 86400000000000 = .ok ttl) :
    faultOf (durationEnv fraction env .idempotencyLockTimeout 30000000000 >>=
      ensure (fun lock => 0 < lock ∧ lock < ttl.val) .lockTimeout) = lockFault fraction env := by
  rw [lockFault, positive_eq_ok.mp httl]
  cases hread : durationEnv fraction env .idempotencyLockTimeout 30000000000 with
  | error err => rfl
  | ok lock =>
      show faultOf (ensure (fun lock => 0 < lock ∧ lock < ttl.val) .lockTimeout lock) = _
      rw [faultOf_ensure]
      by_cases hlock : 0 < lock ∧ lock < ttl.val
      · simp [hlock]
      · simp [hlock, ttl.property]

/-- The check of the issuer, once it is known whether OIDC is enabled. -/
theorem issuerFault_eq {enabled : Bool} (henabled : boolEnv env .oidcEnabled false = .ok enabled) :
    faultOf (ensure (fun url => enabled = true → url ≠ []) .oidcIssuerURL
      (env .oidcIssuerURL).val) = issuerFault env := by
  rw [issuerFault, henabled, faultOf_ensure]
  by_cases hurl : (env .oidcIssuerURL).val = [] <;> cases enabled <;> simp [hurl]

/-- `Load` fails with the first fault of the checklist. -/
theorem faultOf_load (fraction : Nat → Nat → Nat → Nat) (env : Environment) :
    faultOf (load fraction env) = (Check.firstFault (checks fraction) env).map Prod.snd := by
  simp only [checks, map_firstFault_cons]
  unfold load
  refine faultOf_bind fun port _ => ?_
  refine faultOf_bind fun httpPort _ => ?_
  refine faultOf_bind fun docsEnabled _ => ?_
  refine faultOf_bind fun maxc _ => ?_
  refine faultOf_bind fun minc _ => ?_
  refine faultOf_bind fun shutdown _ => ?_
  rw [← bind_assoc]
  refine faultOf_bind fun ttl _ => ?_
  rw [← bind_assoc]
  refine faultOf_bind fun refreshTTL _ => ?_
  refine faultOf_bind fun localEnabled _ => ?_
  refine faultOf_bind fun oidcEnabled hoidc => ?_
  refine faultOf_bind fun idempotencyEnabled _ => ?_
  rw [← bind_assoc]
  refine faultOf_bind fun idempotencyTTL hidempotency => ?_
  rw [← bind_assoc]
  refine (faultOf_bind fun lockTimeout _ => ?_).trans
    (congrArg (fun fault => Option.or fault _) (lockFault_eq hidempotency))
  refine faultOf_bind fun otelEnabled _ => ?_
  refine (faultOf_bind fun db _ => ?_).trans
    (congrArg (fun fault => Option.or fault _) ?_)
  · refine faultOf_bind_of_pass ?_ fun files _ => ?_
    · rw [faultOf_ensure, if_pos (keyFiles_ne_nil env localEnabled)]
    · refine (faultOf_bind fun issuerURL _ => ?_).trans
        (congrArg (fun fault => Option.or fault _) (issuerFault_eq hoidc))
      rfl
  · rw [faultOf_ensure, ite_not]
    rfl

theorem key_of_intEnv {k : Variable} {d : Int} {err : LoadError}
    (hfault : faultOf (intEnv env k d) = some err) : err.key = k := by
  unfold intEnv at hfault
  split at hfault
  · cases hfault
  · cases hatoi : atoi (env k).val <;> rw [hatoi] at hfault <;> cases hfault
    rfl

theorem key_of_boolEnv {k : Variable} {d : Bool} {err : LoadError}
    (hfault : faultOf (boolEnv env k d) = some err) : err.key = k := by
  unfold boolEnv at hfault
  split at hfault
  · cases hfault
  · cases hparse : parseBool (env k).val <;> rw [hparse] at hfault <;> cases hfault
    rfl

theorem key_of_durationEnv {k : Variable} {d : Int} {err : LoadError}
    (hfault : faultOf (durationEnv fraction env k d) = some err) : err.key = k := by
  unfold durationEnv at hfault
  split at hfault
  · cases hfault
  · cases hparse : parseDuration fraction (env k).val <;> rw [hparse] at hfault <;> cases hfault
    rfl

theorem key_of_positive {k : Variable} {d : Int} {err : LoadError}
    (hfault : faultOf (positive fraction env k d) = some err) : err.key = k := by
  cases hread : durationEnv fraction env k d with
  | error other =>
      rw [positive, hread] at hfault
      have hsame : faultOf (durationEnv fraction env k d) = some err := by
        rw [hread]
        exact hfault
      exact key_of_durationEnv hsame
  | ok ttl =>
      rw [positive, hread] at hfault
      replace hfault : faultOf (ensure (fun ttl => 0 < ttl) (.notPositive k) ttl) = some err := hfault
      rw [faultOf_ensure] at hfault
      split at hfault <;> cases hfault
      rfl

theorem key_of_lockFault {err : LoadError} (hfault : lockFault fraction env = some err) :
    err.key = .idempotencyLockTimeout := by
  unfold lockFault at hfault
  split at hfault
  · next other hread =>
      have hsame : faultOf (durationEnv fraction env .idempotencyLockTimeout 30000000000) =
          some err := by
        rw [hread]
        exact hfault
      exact key_of_durationEnv hsame
  · split at hfault
    · cases hfault
    · split at hfault <;> cases hfault
      rfl

theorem key_of_issuerFault {err : LoadError} (hfault : issuerFault env = some err) :
    err.key = .oidcIssuerURL := by
  unfold issuerFault at hfault
  split at hfault
  · cases hfault
  · split at hfault <;> cases hfault
    rfl

theorem key_of_urlCheck {err : LoadError} (hfault : urlCheck.fault env = some err) :
    err.key = .databaseURL := by
  simp only [urlCheck] at hfault
  split at hfault <;> cases hfault
  rfl

/-- Each check reports the variable that it is about. -/
theorem key_of_fault : ∀ check ∈ checks fraction, ∀ err, check.fault env = some err →
    err.key = check.key := by
  simp only [checks, List.forall_mem_cons]
  exact ⟨fun _ => key_of_intEnv, fun _ => key_of_intEnv, fun _ => key_of_boolEnv,
    fun _ => key_of_intEnv, fun _ => key_of_intEnv, fun _ => key_of_durationEnv,
    fun _ => key_of_positive, fun _ => key_of_positive, fun _ => key_of_boolEnv,
    fun _ => key_of_boolEnv, fun _ => key_of_boolEnv, fun _ => key_of_positive,
    fun _ => key_of_lockFault, fun _ => key_of_boolEnv, fun _ => key_of_urlCheck,
    fun _ => key_of_issuerFault, fun _ h => absurd h List.not_mem_nil⟩

/-- What `Load` returns an error about is the first fault. -/
theorem firstFault_of_load {err : LoadError} (hload : load fraction env = .error err) :
    Check.firstFault (checks fraction) env = some (err.key, err) := by
  have hfault := faultOf_load fraction env
  rw [hload] at hfault
  obtain ⟨⟨key, other⟩, hfirst, rfl⟩ := Option.map_eq_some_iff.mp hfault.symm
  obtain ⟨before, check, after, heq, -, hcheck, rfl⟩ := Check.exists_split_of_fault hfirst
  rw [hfirst, key_of_fault check (by rw [heq]; simp) _ hcheck]

theorem firstFault_of_load_ok (hload : load fraction env = .ok config) :
    Check.firstFault (checks fraction) env = none := by
  have hfault := faultOf_load fraction env
  rw [hload] at hfault
  exact Option.map_eq_none_iff.mp hfault.symm

/-! ## Repairs -/

/-- Repairs of an environment: a step sets the variable that the error of `Load` is about. -/
def repairs (fraction : Nat → Nat → Nat → Nat) : System Environment EnvValue where
  init _ := True
  next env v :=
    match load fraction env with
    | .error err => some (Function.update env err.key v)
    | .ok _ => none

/-- The variables that the errors are about, in the course of repairs. -/
def complaints (fraction : Nat → Nat → Nat → Nat) : Environment → List EnvValue → List Variable
  | _, [] => []
  | env, v :: rest =>
      match load fraction env with
      | .error err => err.key :: complaints fraction (Function.update env err.key v) rest
      | .ok _ => []

/-- The order in which variables are checked. -/
def readOrder : List Variable :=
  [.grpcPort, .httpPort, .docsEnabled, .databaseMaxConnections, .databaseMinConnections,
    .shutdownTimeout, .jwtAccessTokenTTL, .jwtRefreshTokenTTL, .authLocalEnabled, .oidcEnabled,
    .idempotencyEnabled, .idempotencyTTL, .idempotencyLockTimeout, .otelEnabled, .databaseURL,
    .oidcIssuerURL]

theorem repairs_next (env : Environment) (v : EnvValue) :
    (repairs fraction).next env v = (Check.repairs (checks fraction)).next env v := by
  show (match load fraction env with
    | .error err => some (Function.update env err.key v)
    | .ok _ => none) = (Check.firstFault (checks fraction) env).map _
  cases hload : load fraction env with
  | error err => rw [firstFault_of_load hload]; rfl
  | ok config => rw [firstFault_of_load_ok hload]; rfl

theorem repairs_run (env : Environment) (values : List EnvValue) :
    (repairs fraction).run env values = (Check.repairs (checks fraction)).run env values := by
  induction values generalizing env with
  | nil => rfl
  | cons v rest ih => simp only [System.run_cons, repairs_next, ih]

theorem complaints_eq (env : Environment) (values : List EnvValue) :
    complaints fraction env values = Check.reported (checks fraction) env values := by
  induction values generalizing env with
  | nil => rfl
  | cons v rest ih =>
      rw [complaints, Check.reported]
      cases hload : load fraction env with
      | error err => simp only [firstFault_of_load hload, ih]
      | ok config => simp only [firstFault_of_load_ok hload]

/-- The time to live of idempotency records is not a nanosecond. -/
def RoomForLock (fraction : Nat → Nat → Nat → Nat) (env : Environment) : Prop :=
  durationEnv fraction env .idempotencyTTL 86400000000000 ≠ .ok 1

theorem RoomForLock.update {k : Variable} (hroom : RoomForLock fraction env)
    (hk : k ≠ .idempotencyTTL) (v : EnvValue) :
    RoomForLock fraction (Function.update env k v) := by
  unfold RoomForLock
  rw [durationEnv_congr (Function.update_of_ne hk.symm v env)]
  exact hroom

/-- No value. -/
def unset : EnvValue := ⟨[], List.not_mem_nil⟩

theorem durationEnv_unset (k : Variable) (d : Int) :
    durationEnv fraction (Function.update env k unset) k d = .ok d := by
  rw [durationEnv, Function.update_self]
  exact if_pos rfl

/-- The lock timeout of a nanosecond is accepted, where there is room for it. -/
theorem lockFault_update (hroom : RoomForLock fraction env) {v : EnvValue}
    (hv : v.val = formatDuration 1) :
    lockFault fraction (Function.update env .idempotencyLockTimeout v) = none := by
  have hlock : durationEnv fraction (Function.update env .idempotencyLockTimeout v)
      .idempotencyLockTimeout 30000000000 = .ok 1 :=
    durationEnv_of_eq (by decide) (by rw [Function.update_self, hv])
  have httl : durationEnv fraction (Function.update env .idempotencyLockTimeout v)
      .idempotencyTTL 86400000000000 = durationEnv fraction env .idempotencyTTL 86400000000000 :=
    durationEnv_congr (Function.update_of_ne (a := Variable.idempotencyTTL) (by decide) v env)
  rw [lockFault, hlock, httl]
  cases hread : durationEnv fraction env .idempotencyTTL 86400000000000 with
  | error err => rfl
  | ok ttl =>
      have hne : ttl ≠ 1 := by
        rintro rfl
        exact hroom hread
      refine if_neg fun hfault => hfault.2 ⟨by decide, ?_⟩
      have hpos := hfault.1
      omega

theorem issuerFault_update {v : EnvValue} (hv : v.val ≠ []) :
    issuerFault (Function.update env .oidcIssuerURL v) = none := by
  unfold issuerFault
  split
  · rfl
  · rw [Function.update_self, if_neg fun h => hv h.2]

/-- Each check can be met by its variable, and there is room for the lock timeout still. -/
theorem exists_meet : ∀ check ∈ checks fraction, ∀ env, RoomForLock fraction env →
    ∃ v, check.fault (Function.update env check.key v) = none ∧
      RoomForLock fraction (Function.update env check.key v) := by
  -- Most variables have a default, so it is enough not to set them.
  have hint : ∀ k d, k ≠ .idempotencyTTL → ∀ env, RoomForLock fraction env →
      ∃ v, (intCheck k d).fault (Function.update env k v) = none ∧
        RoomForLock fraction (Function.update env k v) := by
    intro k d hk env hroom
    refine ⟨unset, ?_, hroom.update hk _⟩
    simp only [intCheck, intEnv, Function.update_self]
    rfl
  have hbool : ∀ k d, k ≠ .idempotencyTTL → ∀ env, RoomForLock fraction env →
      ∃ v, (boolCheck k d).fault (Function.update env k v) = none ∧
        RoomForLock fraction (Function.update env k v) := by
    intro k d hk env hroom
    refine ⟨unset, ?_, hroom.update hk _⟩
    simp only [boolCheck, boolEnv, Function.update_self]
    rfl
  have hpositive : ∀ (k : Variable) (d : Int), 0 < d → ∀ env : Environment,
      (positiveCheck fraction k d).fault (Function.update env k unset) = none := by
    intro k d hd env
    exact faultOf_eq_none.mpr ⟨⟨d, hd⟩, positive_eq_ok.mpr (durationEnv_unset k d)⟩
  have hone : 0 ∉ formatDuration 1 := by decide +kernel
  simp only [checks, List.forall_mem_cons]
  refine ⟨hint _ _ (by decide), hint _ _ (by decide), hbool _ _ (by decide), hint _ _ (by decide),
    hint _ _ (by decide), ?_, ?_, ?_, hbool _ _ (by decide), hbool _ _ (by decide),
    hbool _ _ (by decide), ?_, ?_, hbool _ _ (by decide), ?_, ?_,
    fun _ h => absurd h List.not_mem_nil⟩ <;> intro env hroom
  · refine ⟨unset, ?_, hroom.update (k := .shutdownTimeout) (by decide) _⟩
    have hread : durationEnv fraction (Function.update env .shutdownTimeout unset)
        .shutdownTimeout 10000000000 = .ok 10000000000 := durationEnv_unset _ _
    exact faultOf_eq_none.mpr ⟨_, hread⟩
  · exact ⟨unset, hpositive _ _ (by decide) env,
      hroom.update (k := .jwtAccessTokenTTL) (by decide) _⟩
  · exact ⟨unset, hpositive _ _ (by decide) env,
      hroom.update (k := .jwtRefreshTokenTTL) (by decide) _⟩
  · refine ⟨unset, hpositive _ _ (by decide) env, fun heq => ?_⟩
    have hread : durationEnv fraction (Function.update env .idempotencyTTL unset)
        .idempotencyTTL 86400000000000 = .ok 86400000000000 := durationEnv_unset _ _
    rw [show durationEnv fraction (Function.update env .idempotencyTTL unset)
      .idempotencyTTL 86400000000000 = .ok 1 from heq] at hread
    cases hread
  · exact ⟨⟨_, hone⟩, lockFault_update hroom rfl,
      hroom.update (k := .idempotencyLockTimeout) (by decide) _⟩
  · refine ⟨⟨[120], by decide⟩, ?_, hroom.update (by decide) _⟩
    simp only [urlCheck, Function.update_self]
    rfl
  · exact ⟨⟨[120], by decide⟩, issuerFault_update (by decide), hroom.update (by decide) _⟩

/-! ## What repairs lead to -/

theorem fault_of_idempotencyTTL
    (httl : durationEnv fraction env .idempotencyTTL 86400000000000 = .ok 1) :
    ∀ check ∈ checks fraction, check.key = .idempotencyTTL → check.fault env = none := by
  simp only [checks, List.forall_mem_cons]
  refine ⟨?_, ?_, ?_, ?_, ?_, ?_, ?_, ?_, ?_, ?_, ?_, fun _ => ?_, ?_, ?_, ?_, ?_,
    fun _ h => absurd h List.not_mem_nil⟩
  case refine_12 =>
    exact faultOf_eq_none.mpr ⟨⟨1, by decide⟩, positive_eq_ok.mpr httl⟩
  all_goals
    intro hkey
    cases hkey

/-- A time to live of a nanosecond is not complained about. -/
theorem idempotencyTTL_of_run {values : List EnvValue}
    (httl : durationEnv fraction env .idempotencyTTL 86400000000000 = .ok 1)
    (hrun : (repairs fraction).run env values = some env') :
    durationEnv fraction env' .idempotencyTTL 86400000000000 = .ok 1 := by
  have hstep : ∀ env v next, durationEnv fraction env .idempotencyTTL 86400000000000 = .ok 1 →
      (repairs fraction).next env v = some next →
        durationEnv fraction next .idempotencyTTL 86400000000000 = .ok 1 := by
    intro env v next httl hnext
    rw [repairs_next] at hnext
    obtain ⟨⟨key, err⟩, hfault, rfl⟩ := Option.map_eq_some_iff.mp hnext
    obtain ⟨before, check, after, heq, -, hcheck, rfl⟩ := Check.exists_split_of_fault hfault
    have hkey : check.key ≠ .idempotencyTTL := by
      intro hkey
      rw [fault_of_idempotencyTTL httl check (by rw [heq]; simp) hkey] at hcheck
      cases hcheck
    rw [← httl]
    exact durationEnv_congr (Function.update_of_ne hkey.symm v env)
  exact System.run_preserves hstep hrun httl

/-- An operator who sets the variables that the errors of `Load` are about comes to a
configuration, after as many repairs as there are variables to check, unless the time to
live of idempotency records is a nanosecond; and where no repair leaves its complaint
standing, each variable is complained about once at most, in the order of the source. -/
theorem repairs_end (fraction : Nat → Nat → Nat → Nat) (env : Environment) :
    ((∃ values env' config, values.length ≤ readOrder.length ∧
        (repairs fraction).run env values = some env' ∧ load fraction env' = .ok config) ↔
      RoomForLock fraction env) ∧
    ∀ values, (complaints fraction env values).IsChain (· ≠ ·) →
      (complaints fraction env values).Sublist readOrder := by
  refine ⟨⟨?_, ?_⟩, ?_⟩
  · rintro ⟨values, env', config, -, hrun, hload⟩ httl
    have hreads := (load_eq_ok_iff.mp hload).idempotencyTTL
    rw [idempotencyTTL_of_run httl hrun, Except.ok.injEq] at hreads
    have hpos := config.idempotency.lockTimeout_pos
    have hlt := config.idempotency.lockTimeout_lt
    omega
  · intro hroom
    obtain ⟨values, env', hlength, hrun, hpass⟩ :=
      Check.exists_repairs (ordered_checks fraction) exists_meet hroom
    cases hload : load fraction env' with
    | error err =>
        have hfault := firstFault_of_load hload
        rw [Check.firstFault_eq_none.mpr hpass] at hfault
        cases hfault
    | ok config => exact ⟨values, env', config, hlength, (repairs_run env values).trans hrun, hload⟩
  · intro values hprogress
    rw [complaints_eq] at hprogress ⊢
    exact Check.reported_sublist (ordered_checks fraction) env values hprogress

/-- An environment in which nothing is set is repaired by a database. -/
theorem repairs_end_unset :
    (∃ values env' config, values.length ≤ 16 ∧
      (repairs fun _ _ _ => 0).run (fun _ => unset) values = some env' ∧
        load (fun _ _ _ => 0) env' = .ok config) ∧
    (complaints (fun _ _ _ => 0) (fun _ => unset) [⟨[120], by decide⟩]).Sublist readOrder := by
  have hroom : RoomForLock (fun _ _ _ => 0) fun _ => unset := by
    intro hread
    cases hread
  exact ⟨(repairs_end (fun _ _ _ => 0) fun _ => unset).1.mpr hroom,
    (repairs_end (fun _ _ _ => 0) fun _ => unset).2 _ (by decide +kernel)⟩

end GoFoundation.Configuration
