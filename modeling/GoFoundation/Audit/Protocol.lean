/-
# Concurrent requests through the idempotency and audit interceptors

Requests that the gates have let pass run through `IdempotencyUnary` and then
`AuditUnary`, any number of them at a time.  A request with a key stands in the
store as the store's own protocol has it; this module adds what happens around
it: the handler returns, the event is built, and `Record` executes.

The history keeps every call whose handler has returned, and the executions of the
recorded methods twice: when the handler has returned, and when `Record` has
executed.
-/

import GoFoundation.Idempotency.Protocol
import GoFoundation.Server.Mediation

namespace GoFoundation.Audit

open Library Postgres Grpc Server Idempotency

variable {P : Protobuf}

/-- A request that the gates let pass in some state, with its context then. -/
structure Authorized (config : Config P) where
  request : Request P
  ctx : Context
  admitted : ∃ env s, passGates config env request.method (request.identified env) request.body s =
    .ok ctx

/-- A handler of a recorded method has returned, and this is the event for it. -/
structure Execution (config : Config P) where
  request : Nat
  call : Authorized config
  outcome : Outcome P
  event : Event

/-- The event that `AuditUnary` builds for a call. -/
def Authorized.event {config : Config P} (call : Authorized config) (outcome : Outcome P)
    (id : UUID) (occurredAt : Int) : Option Event :=
  auditEvent config.generated call.ctx call.request.method call.request.body outcome id occurredAt

/-- The call is one of a mutation method. -/
def Authorized.isMutation {config : Config P} (call : Authorized config) : Bool :=
  call.request.method ∈ mutationMethods

/-- There is an event for the mutations and for no other call. -/
theorem Authorized.isSome_event {config : Config P} (call : Authorized config)
    (outcome : Outcome P) (id : UUID) (occurredAt : Int) :
    (call.event outcome id occurredAt).isSome = call.isMutation := by
  rw [Bool.eq_iff_iff, isMutation, decide_eq_true_iff, event, auditEvent, Option.isSome_map]
  exact mutationEvent_isSome_iff

/-- Where a request stands. -/
inductive Phase (config : Config P)
  | idle
  | /-- In the store: up to its handler, if the key is granted. -/
    reserving (call : Authorized config)
  | /-- Before the handler, without a key. -/
    running (call : Authorized config)
  | /-- Before `Record`. -/
    recording (execution : Execution config) (keyed : Bool)
  | /-- Answered, or back in the store. -/
    done

/-- The store, the audit trail at the beginning and now, the requests, the event
ids drawn so far and the history. -/
structure World (config : Config P) where
  store : Idempotency.World P
  before : List Row
  trail : List Row
  calls : Nat → Phase config
  issued : List UUID
  handled : List (Authorized config)
  executed : List (Execution config)
  recorded : List (Execution config)

/-- The steps: a request begins, the store moves, a handler returns, or `Record`
executes. -/
inductive Label (config : Config P)
  | begin (i : Nat) (call : Authorized config) (id ownerToken : UUID)
  | store (label : Idempotency.Label P)
  | handler (i : Nat) (outcome : Outcome P) (eventID : UUID)
  | record (i : Nat)

/-- The labels that are the store's own business. -/
def ownLabel : Idempotency.Label P → Bool
  | .begin _ _ _ _ | .handler _ _ => false
  | _ => true

variable {config : Config P}

/-- A request enters a phase. -/
def World.enter (w : World config) (i : Nat) (phase : Phase config) : World config :=
  { w with calls := Function.update w.calls i phase }

/-- A handler has returned. -/
def World.handle (w : World config) (call : Authorized config) : World config :=
  { w with handled := call :: w.handled }

/-- The handler of a recorded method has returned, and `Record` is next. -/
def World.execute (w : World config) (execution : Execution config) (keyed : Bool)
    (eventID : UUID) : World config :=
  { w.enter execution.request (.recording execution keyed) with
    issued := eventID :: w.issued
    handled := execution.call :: w.handled
    executed := execution :: w.executed }

/-- The outcome goes back through `IdempotencyUnary`. -/
def World.resume (mode : Sweep) (w : World config) (i : Nat) (outcome : Outcome P)
    (keyed : Bool) : Option (World config) :=
  if keyed then
    (Idempotency.next config.options mode w.store (.handler i outcome)).map fun store =>
      World.enter { w with store := store } i .done
  else some (w.enter i .done)

/-- The request begins with `IdempotencyUnary`.  An actor that is no UUID makes
`Acquire` fail. -/
def World.begin (mode : Sweep) (w : World config) (i : Nat) (call : Authorized config)
    (id ownerToken : UUID) : Option (World config) :=
  match idempotentCall config call.request.method call.ctx call.request.body with
  | .error none => some (w.enter i (.running call))
  | .error (some _) => some (w.enter i .done)
  | .ok (identity, keyHash, requestHash) =>
      match UUID.parse identity.userID with
      | none => some (w.enter i .done)
      | some actorID =>
          (Idempotency.next config.options mode w.store (.begin i
            ⟨actorID, call.request.method, keyHash, requestHash⟩ id ownerToken)).map fun store =>
              World.enter { w with store := store } i (.reserving call)

/-- The handler has returned; `AuditUnary` builds the event. -/
def World.returned (mode : Sweep) (w : World config) (i : Nat) (call : Authorized config)
    (outcome : Outcome P) (eventID : UUID) (keyed : Bool) : Option (World config) :=
  match call.event outcome eventID w.store.clock with
  | none => (w.handle call).resume mode i outcome keyed
  | some event =>
      if eventID ∈ w.issued then none
      else some (w.execute ⟨i, call, outcome, event⟩ keyed eventID)

/-- `Record` executes; an event that the database refuses is dropped. -/
def World.write (w : World config) (execution : Execution config) : World config :=
  { w with
    trail := (record w.trail execution.event).getD w.trail
    recorded := w.recorded ++ [execution] }

/-- The steps of the requests. -/
def next (mode : Sweep) (w : World config) : Label config → Option (World config)
  | .begin i call id ownerToken =>
      match w.calls i with
      | .idle => w.begin mode i call id ownerToken
      | _ => none
  | .store label =>
      if ownLabel label then
        (Idempotency.next config.options mode w.store label).map fun store =>
          { w with store := store }
      else none
  | .handler i outcome eventID =>
      match w.calls i, w.store.requests i with
      | .running call, _ => w.returned mode i call outcome eventID false
      | .reserving call, .executing _ => w.returned mode i call outcome eventID true
      | _, _ => none
  | .record i =>
      match w.calls i with
      | .recording execution keyed =>
          (w.write execution).resume mode i execution.outcome keyed
      | _ => none

/-- Requests over an empty store and any audit trail. -/
def system (config : Config P) (mode : Sweep) : System (World config) (Label config) where
  init w := (Idempotency.system P config.options mode).init w.store ∧ w.trail = w.before ∧
    (∀ i, w.calls i = .idle) ∧ (∀ row ∈ w.before, row.id ∈ w.issued) ∧ w.handled = [] ∧
    w.executed = [] ∧ w.recorded = []
  next := next mode

/-- Nothing has begun, and the trail is empty. -/
def World.start (clock : Int) : World config :=
  ⟨.start clock, [], [], fun _ => .idle, [], [], [], []⟩

theorem init_start (mode : Sweep) (clock : Int) :
    (system config mode).init (World.start clock) :=
  ⟨Idempotency.init_start config.options mode clock, rfl, fun _ => rfl, by simp [World.start],
    rfl, rfl, rfl⟩

/-! ## What a step can do -/

/-- The outcome goes back, to the client or into the store. -/
inductive Resumed (mode : Sweep) (w : World config) (i : Nat) (outcome : Outcome P) :
    World config → Prop
  | plain : Resumed mode w i outcome (w.enter i .done)
  | keyed {store : Idempotency.World P}
      (hstep : Idempotency.Step config.options mode w.store (.handler i outcome) store) :
      Resumed mode w i outcome (World.enter { w with store := store } i .done)

/-- Every step. -/
inductive Step (mode : Sweep) (w : World config) : Label config → World config → Prop
  | turnedAway {i call id ownerToken} (hidle : w.calls i = .idle) :
      Step mode w (.begin i call id ownerToken) (w.enter i .done)
  | unkeyed {i call id ownerToken} (hidle : w.calls i = .idle) :
      Step mode w (.begin i call id ownerToken) (w.enter i (.running call))
  | keyed {i call id ownerToken storeCall store} (hidle : w.calls i = .idle)
      (hstep : Idempotency.Step config.options mode w.store
        (.begin i storeCall id ownerToken) store) :
      Step mode w (.begin i call id ownerToken)
        (World.enter { w with store := store } i (.reserving call))
  | store {label store} (hown : ownLabel label = true)
      (hstep : Idempotency.Step config.options mode w.store label store) :
      Step mode w (.store label) { w with store := store }
  | unaudited {i call outcome eventID w'} (hevent : call.event outcome eventID w.store.clock = none)
      (hbefore : w.calls i = .running call ∨ w.calls i = .reserving call)
      (hresumed : Resumed mode (w.handle call) i outcome w') :
      Step mode w (.handler i outcome eventID) w'
  | executed {i call outcome eventID event keyed}
      (hbefore : w.calls i = .running call ∨
        w.calls i = .reserving call ∧ ∃ g, w.store.requests i = .executing g)
      (hevent : call.event outcome eventID w.store.clock = some event)
      (hfresh : eventID ∉ w.issued) :
      Step mode w (.handler i outcome eventID) (w.execute ⟨i, call, outcome, event⟩ keyed eventID)
  | recorded {i execution keyed w'} (hbefore : w.calls i = .recording execution keyed)
      (hresumed : Resumed mode (w.write execution) i execution.outcome w') :
      Step mode w (.record i) w'

theorem resumed_of_resume {mode : Sweep} {w w' : World config} {i : Nat} {outcome : Outcome P}
    {keyed : Bool} (hresume : w.resume mode i outcome keyed = some w') :
    Resumed mode w i outcome w' := by
  unfold World.resume at hresume
  split at hresume
  · obtain ⟨store, hnext, rfl⟩ := Option.map_eq_some_iff.mp hresume
    exact .keyed (step_of_next hnext)
  · cases hresume
    exact .plain

theorem step_begin {mode : Sweep} {w w' : World config} {i : Nat} {call : Authorized config}
    {id ownerToken : UUID} (hidle : w.calls i = .idle)
    (hbegin : w.begin mode i call id ownerToken = some w') :
    Step mode w (.begin i call id ownerToken) w' := by
  unfold World.begin at hbegin
  split at hbegin
  · cases hbegin
    exact .unkeyed hidle
  · cases hbegin
    exact .turnedAway hidle
  · split at hbegin
    · cases hbegin
      exact .turnedAway hidle
    · obtain ⟨store, hnext, rfl⟩ := Option.map_eq_some_iff.mp hbegin
      exact .keyed hidle (step_of_next hnext)

theorem step_returned {mode : Sweep} {w w' : World config} {i : Nat} {call : Authorized config}
    {outcome : Outcome P} {eventID : UUID} {keyed : Bool}
    (hbefore : w.calls i = .running call ∨
      w.calls i = .reserving call ∧ ∃ g, w.store.requests i = .executing g)
    (hreturned : w.returned mode i call outcome eventID keyed = some w') :
    Step mode w (.handler i outcome eventID) w' := by
  unfold World.returned at hreturned
  split at hreturned
  · next hevent =>
      exact .unaudited hevent (hbefore.imp_right And.left) (resumed_of_resume hreturned)
  · next event hevent =>
      rw [Option.ite_none_left_eq_some, Option.some.injEq] at hreturned
      obtain ⟨hfresh, rfl⟩ := hreturned
      exact .executed hbefore hevent hfresh

/-- The step function does nothing but the steps listed. -/
theorem audit_step_of_next {mode : Sweep} {w w' : World config} {label : Label config}
    (hnext : (system config mode).next w label = some w') : Step mode w label w' := by
  cases label with
  | begin i call id ownerToken =>
      simp only [system, next] at hnext
      split at hnext
      · next hidle => exact step_begin hidle hnext
      · cases hnext
  | store label =>
      simp only [system, next, Option.ite_none_right_eq_some, Option.map_eq_some_iff] at hnext
      obtain ⟨hown, store, hstore, rfl⟩ := hnext
      exact .store hown (step_of_next hstore)
  | handler i outcome eventID =>
      simp only [system, next] at hnext
      split at hnext
      · next call hcall => exact step_returned (.inl hcall) hnext
      · next call g hcall hstore => exact step_returned (.inr ⟨hcall, g, hstore⟩) hnext
      · cases hnext
  | record i =>
      simp only [system, next] at hnext
      split at hnext
      · next execution keyed hcall => exact .recorded hcall (resumed_of_resume hnext)
      · cases hnext

@[simp]
theorem World.enter_self (w : World config) (i : Nat) (phase : Phase config) :
    (w.enter i phase).calls i = phase := Function.update_self ..

theorem World.enter_of_ne (w : World config) {i j : Nat} (hne : j ≠ i) (phase : Phase config) :
    (w.enter i phase).calls j = w.calls j := Function.update_of_ne hne ..

@[simp]
theorem World.execute_self (w : World config) (e : Execution config) (keyed : Bool)
    (eventID : UUID) : (w.execute e keyed eventID).calls e.request = .recording e keyed :=
  Function.update_self ..

theorem World.execute_of_ne (w : World config) (e : Execution config) (keyed : Bool)
    (eventID : UUID) {j : Nat} (hne : j ≠ e.request) :
    (w.execute e keyed eventID).calls j = w.calls j := Function.update_of_ne hne ..

end GoFoundation.Audit
