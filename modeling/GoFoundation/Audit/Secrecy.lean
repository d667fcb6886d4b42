/-
# Passwords and the trail

Two servers that differ in the hashes of their users, and in nothing else that the trail
could tell, handle the same calls of `CreateUser` with other passwords.  Each call leaves
them so, and with the same trail.

Of the other mutations an event keeps the ids that it is meant to keep, the code and the
reason.
-/

import GoFoundation.Audit.Findable
import GoFoundation.Users.Secrecy

namespace GoFoundation.Audit

open Postgres Grpc Server Users

variable {P : Protobuf}

/-! ## What is recorded -/

/-- The event that `AuditUnary` hands to `Record` around a handler. -/
def recorded (config : Config P) (env : Env) (method : String) (next : Handler P)
    (ctx : Context) (req : Body P) (s : State) : Option Event :=
  auditEvent config.generated ctx method req (next ctx req s).1 env.eventID env.occurredAt

/-- An event is made of what `mutationEvent` reads, of the code and the reason, and of the
context; the id and the time are drawn for it. -/
theorem auditEvent_congr {generated : Generated P} {ctx : Context} {method : String}
    {req req' : Body P} {outcome outcome' : Idempotency.Outcome P} {mutation : Mutation}
    (hmutation : mutationEvent generated method req outcome.response = some mutation)
    (hmutation' : mutationEvent generated method req' outcome'.response = some mutation)
    (hreceived : received P outcome.err = received P outcome'.err) (id id' : UUID)
    (occurredAt occurredAt' : Int) :
    ∃ event, auditEvent generated ctx method req outcome id occurredAt = some event ∧
      auditEvent generated ctx method req' outcome' id' occurredAt' =
        some { event with id := id', occurredAt := occurredAt' } := by
  have hcode : ∀ err : Option GoError,
      ((codeOf err).name, errorReason P err) = received P err := by
    intro err
    cases err <;> rfl
  obtain ⟨hname, hreason⟩ := Prod.mk.inj
    ((hcode outcome.err).trans (hreceived.trans (hcode outcome'.err).symm))
  rw [auditEvent, auditEvent, hmutation, hmutation']
  exact ⟨_, rfl, by rw [Option.map_some, hname, hreason]⟩

/-! ## Calls of `CreateUser` -/

/-- What is around `UserHandler.CreateUser`: the generated messages, the case tables, and
what the environment decides, which is the new id, the clock and whether the `INSERT`
fails. -/
structure Surroundings (P : Protobuf) where
  /-- The getters of a `CreateUserRequest`. -/
  request : P.Message → Option CreateUserRequest
  /-- The `CreateUserResponse` with the user. -/
  response : UserMessage → P.Message
  tables : CaseTables
  userID : UUID
  now : Int
  insertFails : Bool

/-- What the server makes of what the handler returns. -/
def respond (around : Surroundings P) (directory : Server.Directory) :
    Except (Option GoError) (UserMessage × List User) → Result P × Server.Directory
  | .ok (user, users) =>
      (.returned ⟨.message (around.response user), none⟩, { directory with users := users })
  | .error err => (.returned ⟨.other, err⟩, directory)

/-- `UserHandler.CreateUser` on the tables of the server. -/
def createUserHandler (around : Surroundings P) (hasher : Hasher) :
    Context → Body P → Server.Directory → Result P × Server.Directory := fun _ req directory =>
  respond around directory (UserHandler.createUser P around.tables hasher.hash
    (insertUser around.insertFails directory.users) (Body.view around.request ⟨"", "", ""⟩ req)
    around.userID around.now)

/-- A call of `CreateUser` as it reaches `AuditUnary`. -/
structure CreateCall (P : Protobuf) where
  around : Surroundings P
  env : Env
  ctx : Context
  hasher : Hasher
  req : Body P

namespace CreateCall

/-- What `AuditUnary` is around. -/
def handler (call : CreateCall P) : Handler P :=
  recoveryUnary (createUserHandler call.around call.hasher)

/-- The event of the call. -/
def event (config : Config P) (call : CreateCall P) (s : State) : Option Event :=
  recorded config call.env "/user.v1.UserService/CreateUser" call.handler call.ctx call.req s

/-- The server after the call. -/
def after (config : Config P) (call : CreateCall P) (s : State) : State :=
  (auditUnary config call.env "/user.v1.UserService/CreateUser" call.handler call.ctx call.req
    s).2

/-- There is an event for the call, and it is the one that is put before the store. -/
theorem exists_event (config : Config P) (call : CreateCall P) (s : State) :
    ∃ event, call.event config s = some event ∧
      (call.after config s).audit =
        if call.env.recordFails then s.audit else (record s.audit event).getD s.audit := by
  obtain ⟨event, hevent, -⟩ := exists_auditEvent config.generated call.ctx
    (show "/user.v1.UserService/CreateUser" ∈ mutationMethods by decide) call.req
    (call.handler call.ctx call.req s).1 call.env.eventID call.env.occurredAt
  have hrecorded := (auditUnary_eq config call.env "/user.v1.UserService/CreateUser" call.handler
    call.ctx call.req s hevent).2
  refine ⟨event, hevent, ?_⟩
  rw [after, hrecorded, handler, recoveryUnary_state]

theorem after_directory (config : Config P) (call : CreateCall P) (s : State) :
    (call.after config s).directory =
      (createUserHandler call.around call.hasher call.ctx call.req s.directory).2 := by
  rw [after, auditUnary_state, handler, recoveryUnary_state]

/-- The message of the call is this request, and the service gets past its password. -/
def Asks (call : CreateCall P) (request : CreateUserRequest) : Prop :=
  Holds call.around.request call.req request ∧ call.hasher.Accepts request.password

/-- The two calls differ in their passwords and in how these are hashed. -/
structure Alike (first second : CreateCall P) : Prop where
  around : first.around = second.around
  env : first.env = second.env
  ctx : first.ctx = second.ctx
  requests : ∃ request request', first.Asks request ∧ second.Asks request' ∧
    request.name = request'.name ∧ request.email = request'.email

end CreateCall

/-- The servers have the same trail and the same users, up to the hashes of these. -/
structure SameButHashes (s s' : State) : Prop where
  users : s.directory.users.map User.bare = s'.directory.users.map User.bare
  audit : s.audit = s'.audit

theorem SameButHashes.refl (s : State) : SameButHashes s s := ⟨rfl, rfl⟩

section TwoRuns

variable {first second : CreateCall P} {s s' : State}

theorem respond_congr (around : Surroundings P) {directory directory' : Server.Directory}
    (husers : directory.users.map User.bare = directory'.users.map User.bare)
    {answer answer' : Except (Option GoError) (UserMessage × List User)}
    (hanswer : answer.map bareAnswer = answer'.map bareAnswer) :
    (respond around directory answer).1 = (respond around directory' answer').1 ∧
      (respond around directory answer).2.users.map User.bare =
        (respond around directory' answer').2.users.map User.bare := by
  cases answer with
  | error err =>
      cases answer' with
      | error err' =>
          obtain rfl := Except.error.inj hanswer
          exact ⟨rfl, husers⟩
      | ok created' => cases hanswer
  | ok created =>
      cases answer' with
      | error err' => cases hanswer
      | ok created' =>
          obtain ⟨huser, hstored⟩ := Prod.mk.inj (Except.ok.inj hanswer)
          exact ⟨by rw [respond, respond, huser], hstored⟩

/-- The handler returns the same, and the users that it leaves are the same up to the
hashes. -/
theorem createUserHandler_congr (halike : first.Alike second) (ctx : Context)
    {directory directory' : Server.Directory}
    (husers : directory.users.map User.bare = directory'.users.map User.bare) :
    (createUserHandler first.around first.hasher ctx first.req directory).1 =
        (createUserHandler second.around second.hasher ctx second.req directory').1 ∧
      (createUserHandler first.around first.hasher ctx first.req directory).2.users.map
          User.bare =
        (createUserHandler second.around second.hasher ctx second.req directory').2.users.map
          User.bare := by
  obtain ⟨request, request', ⟨hholds, haccepts⟩, ⟨hholds', haccepts'⟩, hname, hemail⟩ :=
    halike.requests
  rw [← halike.around] at hholds' ⊢
  rw [createUserHandler, createUserHandler, view_of_holds hholds, view_of_holds hholds']
  exact respond_congr first.around husers (createUser_congr P first.around.tables
    first.around.insertFails first.around.userID first.around.now haccepts haccepts' hname hemail
    husers)

/-- One call each: the events are the same, and the servers still agree. -/
theorem CreateCall.Alike.step (halike : first.Alike second) (config : Config P)
    (hsame : SameButHashes s s') :
    first.event config s = second.event config s' ∧
      SameButHashes (first.after config s) (second.after config s') := by
  obtain ⟨hresult, husers⟩ := createUserHandler_congr halike first.ctx hsame.users
  have houtcome : (first.handler first.ctx first.req s).1 =
      (second.handler first.ctx second.req s').1 := by
    unfold CreateCall.handler recoveryUnary
    dsimp only
    rw [hresult]
    split <;> rfl
  have hevent : first.event config s = second.event config s' := by
    rw [CreateCall.event, CreateCall.event, recorded, recorded, ← halike.env, ← halike.ctx,
      houtcome]
    rfl
  obtain ⟨event, hfirst, htrail⟩ := first.exists_event config s
  obtain ⟨event', hsecond, htrail'⟩ := second.exists_event config s'
  have hsameEvent : event = event' :=
    Option.some.inj (hfirst.symm.trans (hevent.trans hsecond))
  refine ⟨hevent, ?_, ?_⟩
  · rw [CreateCall.after_directory, CreateCall.after_directory, ← halike.ctx]
    exact husers
  · rw [htrail, htrail', hsameEvent, hsame.audit, halike.env]

/-- The servers after some calls, one after the other. -/
def CreateCall.afterAll (config : Config P) (calls : List (CreateCall P)) (s : State) : State :=
  calls.foldl (fun s call => call.after config s) s

/-- Any number of calls: the trails never come apart. -/
theorem SameButHashes.afterAll (config : Config P) {calls calls' : List (CreateCall P)}
    (halike : List.Forall₂ CreateCall.Alike calls calls') (hsame : SameButHashes s s') :
    SameButHashes (CreateCall.afterAll config calls s) (CreateCall.afterAll config calls' s') := by
  induction halike generalizing s s' with
  | nil => exact hsame
  | cons hhead _ ih =>
      rw [CreateCall.afterAll, CreateCall.afterAll, List.foldl_cons, List.foldl_cons]
      exact ih (hhead.step config hsame).2

end TwoRuns

/-! ## The other mutations -/

/-- Whatever else is in the two requests and in what is returned for them. -/
theorem recorded_of_carriedBy (config : Config P) {change : Change} {req req' : Body P}
    (hcarried : change.CarriedBy config.generated req)
    (hcarried' : change.CarriedBy config.generated req') (ctx : Context) (env env' : Env)
    {next next' : Handler P} {s s' : State}
    (hreceived : received P (next ctx req s).1.err = received P (next' ctx req' s').1.err) :
    ∃ event, recorded config env change.method next ctx req s = some event ∧
      recorded config env' change.method next' ctx req' s' =
        some { event with id := env'.eventID, occurredAt := env'.occurredAt } :=
  auditEvent_congr (change.mutationEvent_of_carriedBy hcarried _)
    (change.mutationEvent_of_carriedBy hcarried' _) hreceived _ _ _ _

/-- The event of a call of `CreateUser` is the same for every password that the service
accepts, whether the call succeeds or fails, and so is the trail.  The event of any other
mutation is the same for all requests with the same ids, apart from its id and its time,
when the errors of the handlers have the same code and the same first reason. -/
theorem trail_independent_of_passwords (config : Config P) :
    (∀ first second : CreateCall P, first.Alike second → ∀ s : State, ∃ event,
      first.event config s = some event ∧ second.event config s = some event ∧
        (first.after config s).audit = (second.after config s).audit) ∧
    ∀ (change : Change) (ctx : Context) (req req' : Body P),
      change.CarriedBy config.generated req → change.CarriedBy config.generated req' →
      ∀ (env env' : Env) (next next' : Handler P) (s s' : State),
        received P (next ctx req s).1.err = received P (next' ctx req' s').1.err →
        ∃ event, recorded config env change.method next ctx req s = some event ∧
          recorded config env' change.method next' ctx req' s' =
            some { event with id := env'.eventID, occurredAt := env'.occurredAt } := by
  apply And.intro
  · intro first second halike s
    obtain ⟨hevents, hafter⟩ := halike.step config (SameButHashes.refl s)
    obtain ⟨event, hfirst, -⟩ := first.exists_event config s
    exact ⟨event, hfirst, hevents.symm.trans hfirst, hafter.audit⟩
  · intro change ctx req req' hcarried hcarried' env env' next next' s s' hreceived
    exact recorded_of_carriedBy config hcarried hcarried' ctx env env' hreceived

/-! ## Two passwords -/

/-- The messages of two methods; a request to assign a role has a field that is no id. -/
inductive SampleMessage
  | createUser (request : CreateUserRequest)
  | created (user : UserMessage)
  | assignRole (userID roleID note : String)

/-- The runtime on these messages. -/
def messages : Protobuf :=
  { Protobuf.wire with
    Message := SampleMessage
    fullName := fun _ => ""
    marshal := fun _ => none
    unmarshal := fun _ _ => none }

/-- The getters of the messages. -/
def messagesConfig : Config messages where
  verifiers := []
  validate _ := .valid
  generated :=
    { revokeSessionRequest := fun _ => none
      createUserResponse := fun
        | .created user => some user.id
        | _ => none
      assignRoleRequest := fun
        | .assignRole userID roleID _ => some (userID, roleID)
        | _ => none
      removeRoleRequest := fun _ => none
      assignPermissionToRoleRequest := fun _ => none
      removePermissionFromRoleRequest := fun _ => none }
  options := Idempotency.defaultOptions
  sha256 := fun bytes => bytes

/-- A call for Ada, whose password is hashed under a salt of sixteen equal bytes. -/
def signUp (password : String) (salt : UInt8) : CreateCall messages where
  around :=
    { request := fun
        | .createUser request => some request
        | _ => none
      response := .created
      tables := .sample
      userID := .ofNat 20
      now := 5000
      insertFails := false }
  env := sampleEnv 100 5000
  ctx := assigningContext
  hasher := PasswordHasher.hasher .sample (.ok ⟨List.replicate 16 salt, List.length_replicate⟩)
  req := .message (.createUser ⟨"Ada", "ada@example.org", password⟩)

theorem alike_signUp {password password' : String} (hpasses : PassesChecks password)
    (hpasses' : PassesChecks password') (salt salt' : UInt8) :
    (signUp password salt).Alike (signUp password' salt') where
  around := rfl
  env := rfl
  ctx := rfl
  requests := ⟨_, _, ⟨⟨_, rfl, rfl⟩, hpasses, _, rfl⟩, ⟨⟨_, rfl, rfl⟩, hpasses', _, rfl⟩, rfl, rfl⟩

/-- No users yet. -/
def newState : State :=
  { sampleState with directory := { sampleState.directory with users := [] } }

/-- A handler that does not find the role, and words it in its own way. -/
def roleNotFound (text : String) : Handler messages := fun _ _ s =>
  (⟨.other, Apierror.new messages .notFound "ROLE_NOT_FOUND" text []⟩, s)

/-- Ada is created, and where she exists she is refused.  Two attempts to assign a role fail
for the same reason, told in other words. -/
theorem trail_independent_of_passwords_ada :
    (∃ event, (signUp "correct horse" 1).event messagesConfig newState = some event ∧
      (signUp "battery staple" 2).event messagesConfig newState = some event ∧
      event.grpcCode = "OK" ∧ event.resourceID = (UUID.ofNat 20).text) ∧
    (∃ event, (signUp "correct horse" 1).event messagesConfig sampleState = some event ∧
      (signUp "battery staple" 2).event messagesConfig sampleState = some event ∧
      event.grpcCode = "AlreadyExists" ∧ event.errorReason = "USER_EMAIL_EXISTS") ∧
    ∃ event,
      recorded messagesConfig (sampleEnv 100 5000) "/rbac.v1.RBACService/AssignRole"
        (roleNotFound "role not found") assigningContext (.message (.assignRole "u" "r" "one"))
        newState = some event ∧
      recorded messagesConfig (sampleEnv 200 9000) "/rbac.v1.RBACService/AssignRole"
        (roleNotFound "no such role") assigningContext (.message (.assignRole "u" "r" "two"))
        sampleState = some { event with id := .ofNat 204, occurredAt := 9000 } := by
  have halike : (signUp "correct horse" 1).Alike (signUp "battery staple" 2) :=
    alike_signUp (by decide +kernel) (by decide +kernel) 1 2
  have hnew : ((signUp "correct horse" 1).event messagesConfig newState).map
      (fun event => (event.grpcCode, event.resourceID)) = some ("OK", (UUID.ofNat 20).text) := by
    decide +kernel
  have htaken : ((signUp "correct horse" 1).event messagesConfig sampleState).map
      (fun event => (event.grpcCode, event.errorReason)) =
        some ("AlreadyExists", "USER_EMAIL_EXISTS") := by
    decide +kernel
  have hreceived : received messages
      (roleNotFound "role not found" assigningContext (.message (.assignRole "u" "r" "one"))
        newState).1.err =
      received messages (roleNotFound "no such role" assigningContext
        (.message (.assignRole "u" "r" "two")) sampleState).1.err := by
    decide +kernel
  refine ⟨?_, ?_, ?_⟩
  · obtain ⟨event, hfirst, hsecond, -⟩ :=
      (trail_independent_of_passwords messagesConfig).1 _ _ halike newState
    rw [hfirst, Option.map_some, Option.some.injEq, Prod.mk.injEq] at hnew
    exact ⟨event, hfirst, hsecond, hnew⟩
  · obtain ⟨event, hfirst, hsecond, -⟩ :=
      (trail_independent_of_passwords messagesConfig).1 _ _ halike sampleState
    rw [hfirst, Option.map_some, Option.some.injEq, Prod.mk.injEq] at htaken
    exact ⟨event, hfirst, hsecond, htaken⟩
  · exact (trail_independent_of_passwords messagesConfig).2 (.rbac (.assignRole "u" "r"))
      assigningContext _ _ ⟨_, rfl, rfl⟩ ⟨_, rfl, rfl⟩ _ _ _ _ _ _ hreceived

end GoFoundation.Audit
