/-
# Complete mediation

No call of a method that is not public reaches its handler, and no stored result
is replayed for it, unless the three gates let it pass; and a call that a gate
turns away leaves no trace in the tables.

The proof has three parts: what passing the gates means, what the chain behind
them can do, and that the chain is the one after the other.
-/

import GoFoundation.Server.Chain

namespace GoFoundation.Server

open Postgres Grpc Idempotency Users

variable {P : Protobuf}

/-! ## What is replayed -/

/-- A statement of `Acquire` that does not grant leaves the table alone, and a
record that it returns is of a row in the scope. -/
theorem exec_not_granted {p : AcquireParams} {pc : Pc} {rows rows' : List Idempotency.Row}
    {after : Next} (hexec : exec p pc rows = (rows', after)) :
    (∀ pc', after = .goto pc' → rows' = rows) ∧
    ∀ record, after = .returns record .replay →
      ∃ row ∈ rows, row.scope = p.scope ∧ record = row.toRecord := by
  -- Both lookups classify the record that they find.
  have hfound : ∀ row ∈ rows, row.scope = p.scope → ∀ record,
      Next.returns row.toRecord (classify p row.toRecord) = .returns record .replay →
        ∃ row ∈ rows, row.scope = p.scope ∧ record = row.toRecord := by
    intro row hrow hscope record heq
    exact ⟨row, hrow, hscope, ((Next.returns.injEq ..).mp heq).1.symm⟩
  cases pc with
  | insert =>
      rw [exec] at hexec
      split at hexec <;> cases hexec <;> simp
  | find =>
      rw [exec] at hexec
      rcases find_cases rows p.scope with ⟨-, hnone⟩ | ⟨row, hrow, hscope, hsome⟩
      · rw [hnone] at hexec
        cases hexec
        simp
      · rw [hsome] at hexec
        simp only at hexec
        split at hexec <;> cases hexec
        · simp
        · exact ⟨by simp, hfound row hrow hscope⟩
  | takeOver id =>
      rw [exec] at hexec
      rcases takeOver_cases rows p id with ⟨-, hnone⟩ | ⟨row, -, -, hsome⟩
      · rw [hnone] at hexec
        cases hexec
        simp
      · rw [hsome] at hexec
        cases hexec
        simp
  | findAgain =>
      rw [exec] at hexec
      rcases find_cases rows p.scope with ⟨-, hnone⟩ | ⟨row, hrow, hscope, hsome⟩
      · rw [hnone] at hexec
        cases hexec
        simp
      · rw [hsome] at hexec
        cases hexec
        exact ⟨by simp, hfound row hrow hscope⟩

/-- A record that `Acquire` returns for replay is of a row in the scope. -/
theorem acquireFrom_replay {p : AcquireParams} {fuel : Nat} {pc : Pc}
    {rows rows' : List Idempotency.Row} {record : Record}
    (hacquire : acquireFrom p fuel pc rows = (rows', .ok (record, .replay))) :
    ∃ row ∈ rows, row.scope = p.scope ∧ record = row.toRecord := by
  induction fuel generalizing pc rows with
  | zero => cases hacquire
  | succ fuel ih =>
      rw [acquireFrom] at hacquire
      split at hacquire
      · next mid pc' hexec =>
          obtain rfl := (exec_not_granted hexec).1 pc' rfl
          exact ih hacquire
      · next mid record' disposition hexec =>
          cases hacquire
          exact (exec_not_granted hexec).2 record rfl
      · cases hacquire

/-! ## Behind the gates -/

/-- What the chain behind the gates can do with a call: it may invoke the handler
with the context it was given, once, or replay a record of the actor. -/
structure Effects (method : String) (ctx : Context) (s s' : State) : Prop where
  invocations : s'.invocations = s.invocations ∨ s'.invocations = ctx :: s.invocations
  replays : s'.replays = s.replays ∨ ∃ record, s'.replays = record :: s.replays ∧
    (∃ row ∈ s.idempotency, record = row.toRecord) ∧ record.rpcMethod = method ∧
    ∃ identity, ctx.identity = some identity ∧
      UUID.parse identity.userID = some record.actorID

/-- `RecoveryUnary` invokes the handler, which works on the directory and on nothing else. -/
theorem recoveryUnary_state
    (handler : Context → Body P → Directory → Result P × Directory) (ctx : Context)
    (req : Body P) (s : State) :
    (recoveryUnary handler ctx req s).2 =
      { s with
        directory := (handler ctx req s.directory).2
        invocations := ctx :: s.invocations } := by
  simp only [recoveryUnary]
  split <;> rfl

/-- `AuditUnary` writes to the trail and to nothing else. -/
theorem auditUnary_state (config : Config P) (env : Env) (method : String)
    (next : Handler P) (ctx : Context) (req : Body P) (s : State) :
    (auditUnary config env method next ctx req s).2 =
      { (next ctx req s).2 with
        audit := (auditUnary config env method next ctx req s).2.audit } := by
  simp only [auditUnary]
  split
  · rfl
  · split <;> rfl

/-- A key is reserved only for a call with an identity. -/
theorem identity_of_idempotentCall {config : Config P} {method : String} {ctx : Context}
    {req : Body P} {identity : Identity} {hashes : Bytes × Bytes}
    (hcall : idempotentCall config method ctx req = .ok (identity, hashes)) :
    ctx.identity = some identity := by
  unfold idempotentCall at hcall
  split at hcall
  · cases hcall
  · split at hcall
    · cases hcall
    · split at hcall
      · cases hcall
      · split at hcall
        · cases hcall
        · cases hcall
        · next identity' value hidentity =>
            split at hcall
            · cases hcall
            · cases hcall
              exact hidentity

/-- A record that is replayed is in the table, of the actor and the method. -/
theorem reserve_replay {config : Config P} {env : Env} {method : String}
    {rows rows' : List Idempotency.Row} {identity : Identity} {keyHash requestHash : Bytes}
    {record : Record}
    (hreserve : reserve config env method rows identity keyHash requestHash =
      (rows', .ok (record, .replay))) :
    (∃ row ∈ rows, record = row.toRecord) ∧ record.rpcMethod = method ∧
      UUID.parse identity.userID = some record.actorID := by
  unfold reserve at hreserve
  split at hreserve
  · next actorID hparse hfails =>
      obtain ⟨row, hrow, hscope, rfl⟩ := acquireFrom_replay hreserve
      obtain ⟨hactor, hmethod, -⟩ := (Scope.mk.injEq ..).mp hscope
      refine ⟨⟨row, (mem_deleteByID.mp hrow).1, rfl⟩, hmethod, ?_⟩
      rw [hparse]
      exact congrArg some hactor.symm
  · cases hreserve

theorem execution_effects (config : Config P) (env : Env) (method : String)
    (handler : Context → Body P → Directory → Result P × Directory) (ctx : Context)
    (req : Body P) (s : State) :
    Effects method ctx s (execution config env method handler ctx req s).2 := by
  -- Below the idempotency interceptor the handler is invoked once.
  have hinner : ∀ s, (auditUnary config env method
        (metricsUnary (loggingUnary (recoveryUnary handler))) ctx req s).2.invocations =
          ctx :: s.invocations ∧
      (auditUnary config env method
        (metricsUnary (loggingUnary (recoveryUnary handler))) ctx req s).2.replays =
          s.replays := by
    intro s
    have hstate := auditUnary_state config env method (recoveryUnary handler) ctx req s
    rw [recoveryUnary_state] at hstate
    have hinvocations := congrArg State.invocations hstate
    have hreplays := congrArg State.replays hstate
    exact ⟨hinvocations, hreplays⟩
  unfold execution
  generalize auditUnary config env method
    (metricsUnary (loggingUnary (recoveryUnary handler))) = next at hinner
  unfold idempotencyUnary
  split
  · exact ⟨.inr (hinner s).1, .inl (hinner s).2⟩
  · exact ⟨.inl rfl, .inl rfl⟩
  · next identity keyHash requestHash hcall =>
      split
      · exact ⟨.inl rfl, .inl rfl⟩
      · next rows record hreserve =>
          exact ⟨.inr (hinner { s with idempotency := rows }).1,
            .inl (hinner { s with idempotency := rows }).2⟩
      · next rows record hreserve =>
          obtain ⟨hstored, hmethod, hactor⟩ := reserve_replay hreserve
          exact ⟨.inl rfl, .inr ⟨record, rfl, hstored, hmethod, identity,
            identity_of_idempotentCall hcall, hactor⟩⟩
      · exact ⟨.inl rfl, .inl rfl⟩

/-! ## The gates -/

/-- The three gates in turn. -/
def passGates (config : Config P) (env : Env) (method : String) (ctx : Context) (req : Body P)
    (s : State) : Except Rejection Context := do
  let ctx ← checkAuthentication config env method ctx req s
  let ctx ← checkValidation config ctx req s
  checkAuthorization env method ctx req s

/-- The context with which a request comes to the gates. -/
def Request.identified (env : Env) (request : Request P) : Context :=
  { request.context with
    requestID := requestIDOf request.context (Go.encodeUtf8 env.requestID.text) }

/-- What becomes of the error of an outcome on its way out. -/
def Outcome.ensured (requestID : GoString) (outcome : Outcome P) : Outcome P :=
  ⟨outcome.response, Apierror.ensure P outcome.err requestID⟩

/-- A request that passes the gates is executed, and one that does not changes
nothing but the count of denied permissions. -/
theorem serve_eq (config : Config P) (env : Env)
    (handler : Context → Body P → Directory → Result P × Directory) (request : Request P)
    (s : State) :
    (∃ ctx, passGates config env request.method (request.identified env) request.body s = .ok ctx ∧
      (serve config env handler request s).2 =
        (execution config env request.method handler ctx request.body s).2) ∨
    (∃ rejection, passGates config env request.method (request.identified env) request.body s =
        .error rejection ∧
      serve config env handler request s =
        (Outcome.ensured (request.identified env).requestID ⟨.other, rejection.err⟩,
          { s with denied := rejection.denied.toList ++ s.denied })) := by
  have hserve : serve config env handler request s =
      errorDetailsUnary (authenticationUnary config env request.method (validationUnary config
        (authorizationUnary env request.method (execution config env request.method handler))))
          (request.identified env) request.body s := rfl
  rw [hserve]
  simp only [errorDetailsUnary, authenticationUnary, validationUnary, authorizationUnary, passGates,
    gate]
  cases checkAuthentication config env request.method (request.identified env) request.body s with
  | error rejection => exact .inr ⟨rejection, rfl, rfl⟩
  | ok ctx₁ =>
      simp only [bind, Except.bind]
      cases checkValidation config ctx₁ request.body s with
      | error rejection => exact .inr ⟨rejection, rfl, rfl⟩
      | ok ctx₂ =>
          simp only
          cases checkAuthorization env request.method ctx₂ request.body s with
          | error rejection => exact .inr ⟨rejection, rfl, rfl⟩
          | ok ctx₃ => exact .inl ⟨ctx₃, rfl, rfl⟩

/-- A call that may go on: the token was accepted by a verifier and belongs to an
enabled user, the message is valid, and the user has the permission that the
policy asks for. -/
structure Mediated (config : Config P) (request : Request P) (s : State) (user : User) :
    Prop where
  token : ∃ raw, bearer P request.context = .ok raw ∧ ∃ verify ∈ config.verifiers,
    ∃ claimed, verify raw = some claimed ∧
      lookupIdentity s.directory.users claimed = .found user
  exists_user : user ∈ s.directory.users
  enabled : user.enabled = true
  valid : ∃ value, request.body = .message value ∧ config.validate value = .valid
  permitted : ∀ permission, Rbac.policies.lookup request.method = some permission →
    s.directory.rbac.Carries user.id permission

/-- Passing the authentication of a method that is not public. -/
theorem checkAuthentication_ok {config : Config P} {env : Env} {method : String}
    {ctx ctx' : Context} {req : Body P} {s : State} (hprivate : method ∉ publicMethods)
    (hcheck : checkAuthentication config env method ctx req s = .ok ctx') :
    ∃ raw, bearer P ctx = .ok raw ∧ ∃ verify ∈ config.verifiers, ∃ claimed user,
      verify raw = some claimed ∧ lookupIdentity s.directory.users claimed = .found user ∧
        user.enabled = true ∧ ctx' = { ctx with identity := some (identityOf claimed user) } := by
  rw [checkAuthentication, if_neg hprivate] at hcheck
  split at hcheck
  · cases hcheck
  · next raw hbearer =>
      split at hcheck
      · cases hcheck
      · next identity hauth =>
          cases hcheck
          obtain ⟨verify, hverify, claimed, user, hclaimed, hfound, henabled, rfl⟩ :=
            authenticate_eq_some hauth
          rw [lookupUser] at hfound
          split at hfound
          · cases hfound
          · exact ⟨raw, hbearer, verify, hverify, claimed, user, hclaimed, hfound, henabled, rfl⟩

theorem checkValidation_ok {config : Config P} {ctx ctx' : Context} {req : Body P} {s : State}
    (hcheck : checkValidation config ctx req s = .ok ctx') :
    ctx' = ctx ∧ ∃ value, req = .message value ∧ config.validate value = .valid := by
  unfold checkValidation at hcheck
  split at hcheck
  · cases hcheck
  · next value =>
      split at hcheck
      · next hvalid =>
          cases hcheck
          exact ⟨rfl, value, rfl, hvalid⟩
      · cases hcheck
      · cases hcheck

theorem checkAuthorization_ok {env : Env} {method : String} {ctx ctx' : Context} {req : Body P}
    {s : State} (hcheck : checkAuthorization env method ctx req s = .ok ctx') :
    ctx' = ctx ∧ ∀ permission, Rbac.policies.lookup method = some permission →
      ∃ identity, ctx.identity = some identity ∧
        Rbac.hasPermission s.directory.rbac identity.userID permission = some true := by
  unfold checkAuthorization at hcheck
  split at hcheck
  · next hnone =>
      cases hcheck
      refine ⟨rfl, fun permission hsome => ?_⟩
      rw [hnone] at hsome
      cases hsome
  · next permission hsome =>
      split at hcheck
      · cases hcheck
      · next identity hidentity =>
          split at hcheck
          · cases hcheck
          · cases hcheck
          · next hallowed =>
              cases hcheck
              refine ⟨rfl, fun permission' hsome' => ⟨identity, hidentity, ?_⟩⟩
              obtain rfl : permission = permission' := Option.some.inj (hsome.symm.trans hsome')
              rw [checkPermission] at hallowed
              split at hallowed
              · cases hallowed
              · exact hallowed

/-- Whoever passes the gates of a method that is not public is mediated, and the
context names the user. -/
theorem mediated_of_passGates {config : Config P} {env : Env} {request : Request P} {s : State}
    {ctx : Context} (hprivate : request.method ∉ publicMethods)
    (hpass : passGates config env request.method (request.identified env) request.body s =
      .ok ctx) :
    ∃ user, Mediated config request s user ∧ ∃ identity, ctx.identity = some identity ∧
      UUID.parse identity.userID = some user.id := by
  rw [passGates] at hpass
  simp only [bind, Except.bind] at hpass
  split at hpass
  · cases hpass
  · next ctx₁ hauthn =>
      split at hpass
      · cases hpass
      · next ctx₂ hvalid =>
          obtain ⟨raw, hbearer, verify, hverify, claimed, user, hclaimed, hfound, henabled, rfl⟩ :=
            checkAuthentication_ok hprivate hauthn
          obtain ⟨rfl, hmessage⟩ := checkValidation_ok hvalid
          obtain ⟨rfl, hpermitted⟩ := checkAuthorization_ok hpass
          obtain ⟨hmem, hparse⟩ := parse_identityOf hfound
          refine ⟨user, ⟨⟨raw, hbearer, verify, hverify, claimed, hclaimed, hfound⟩, hmem,
            henabled, hmessage, fun permission hpolicy => ?_⟩, _, rfl, hparse⟩
          obtain ⟨identity, hidentity, hallowed⟩ := hpermitted permission hpolicy
          cases hidentity
          exact (Rbac.hasPermission_eq_some_true hparse).mp hallowed

/-! ## The result -/

/-- Complete mediation.  For every request and every state of the tables: a
handler of a method that is not public is invoked only if the call is mediated,
and in the context of that user; a record is replayed only if the call is
mediated, and then it is a record of that user and that method; and a request
that a gate turns away changes no table and invokes nothing. -/
theorem complete_mediation (config : Config P) (env : Env)
    (handler : Context → Body P → Directory → Result P × Directory) (request : Request P)
    (s : State) :
    (request.method ∉ publicMethods →
      ((serve config env handler request s).2.invocations = s.invocations ∨
        ∃ ctx user identity,
          (serve config env handler request s).2.invocations = ctx :: s.invocations ∧
            Mediated config request s user ∧ ctx.identity = some identity ∧
            UUID.parse identity.userID = some user.id) ∧
      ((serve config env handler request s).2.replays = s.replays ∨
        ∃ record user, (serve config env handler request s).2.replays = record :: s.replays ∧
          Mediated config request s user ∧ (∃ row ∈ s.idempotency, record = row.toRecord) ∧
          record.actorID = user.id ∧ record.rpcMethod = request.method)) ∧
    (∀ rejection, passGates config env request.method (request.identified env) request.body s =
        .error rejection →
      (serve config env handler request s).2.idempotency = s.idempotency ∧
      (serve config env handler request s).2.audit = s.audit ∧
      (serve config env handler request s).2.directory = s.directory ∧
      (serve config env handler request s).2.invocations = s.invocations ∧
      (serve config env handler request s).2.replays = s.replays) := by
  rcases serve_eq config env handler request s with ⟨ctx, hpass, hserve⟩ |
    ⟨rejection, hpass, hserve⟩
  · rw [hserve]
    constructor
    · intro hprivate
      obtain ⟨user, hmediated, identity, hidentity, hparse⟩ := mediated_of_passGates hprivate hpass
      obtain ⟨hinvocations, hreplays⟩ :=
        execution_effects config env request.method handler ctx request.body s
      constructor
      · exact hinvocations.imp_right fun hinvoked =>
          ⟨ctx, user, identity, hinvoked, hmediated, hidentity, hparse⟩
      · apply hreplays.imp_right
        rintro ⟨record, hreplayed, hstored, hmethod, identity', hidentity', hactor⟩
        obtain rfl : identity = identity' := Option.some.inj (hidentity.symm.trans hidentity')
        exact ⟨record, user, hreplayed, hmediated, hstored,
          Option.some.inj (hactor.symm.trans hparse), hmethod⟩
    · intro rejection hrejected
      rw [hpass] at hrejected
      cases hrejected
  · rw [hserve]
    exact ⟨fun _ => ⟨.inl rfl, .inl rfl⟩, fun _ _ => ⟨rfl, rfl, rfl, rfl, rfl⟩⟩

/-! ## A request made twice -/

/-- One verifier, which knows one token; a hash that keeps what it is given. -/
def sampleConfig : Config Protobuf.sample where
  verifiers := [fun raw =>
    if raw = Go.encodeUtf8 "eyJ" then some ⟨(UUID.ofNat 1).text, "", "", "local", ""⟩ else none]
  validate _ := .valid
  generated := ⟨fun _ => none, fun _ => none, fun _ => none, fun _ => none, fun _ => none,
    fun _ => none⟩
  options := defaultOptions
  sha256 := id

/-- A user who may assign roles, and empty tables otherwise. -/
def sampleState : State where
  directory :=
    { users := [⟨.ofNat 1, "Ada", "ada@example.org", "", true, "local", "", 0, 0⟩]
      rbac :=
        { userRoles := [(.ofNat 1, .ofNat 5)]
          rolePermissions := [(.ofNat 5, .ofNat 6)]
          permissions := [⟨.ofNat 6, "roles:assign", "roles", "assign", ""⟩] } }
  idempotency := []
  audit := []
  denied := []
  invocations := []
  replays := []

def sampleEnv (id : Nat) (now : Int) : Env where
  requestID := .ofNat (id + 1)
  usersFail := false
  permissionsFail := false
  recordID := .ofNat (id + 2)
  ownerToken := .ofNat (id + 3)
  now := now
  expired := []
  acquireFails := false
  finishFails := false
  completedAt := now
  eventID := .ofNat (id + 4)
  occurredAt := now
  recordFails := false

def sampleRequest : Request Protobuf.sample where
  method := "/rbac.v1.RBACService/AssignRole"
  metadata := some [("authorization", Go.encodeUtf8 "Bearer eyJ"),
    ("idempotency-key", Go.encodeUtf8 "assign-1")]
  peer := none
  body := .message ()

/-- A handler that answers and changes nothing. -/
def sampleHandler : Context → Body Protobuf.sample → Directory →
    Result Protobuf.sample × Directory := fun _ _ directory =>
  (.returned ⟨.message (), none⟩, directory)

/-- After the request has been served once. -/
def servedOnce : State :=
  (serve sampleConfig (sampleEnv 100 0) sampleHandler sampleRequest sampleState).2

/-- The second time the request is answered from the table. -/
theorem complete_mediation_servedOnce :
    servedOnce.invocations.length = 1 ∧ servedOnce.audit.length = 1 ∧ ∃ record user,
      (serve sampleConfig (sampleEnv 200 1000) sampleHandler sampleRequest servedOnce).2.replays =
        [record] ∧
      Mediated sampleConfig sampleRequest servedOnce user ∧ record.actorID = user.id := by
  have hreplayed : (serve sampleConfig (sampleEnv 200 1000) sampleHandler sampleRequest
      servedOnce).2.replays.length = 1 := by
    decide +kernel
  have hnone : servedOnce.replays = [] := by decide +kernel
  have hmediation := ((complete_mediation sampleConfig (sampleEnv 200 1000) sampleHandler
    sampleRequest servedOnce).1 (by decide)).2
  rw [hnone] at hmediation
  rcases hmediation with hnothing | ⟨record, user, hrecord, hmediated, -, hactor, -⟩
  · rw [hnothing] at hreplayed
    cases hreplayed
  · exact ⟨by decide +kernel, by decide +kernel, record, user, hrecord, hmediated, hactor⟩

end GoFoundation.Server
