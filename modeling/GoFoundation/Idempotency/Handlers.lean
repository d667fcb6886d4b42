/-
# A handler that changes a state, behind the interceptor

`IdempotencyUnary` knows a handler by its method and its outcome.  Here the handler also
changes a state that all its runs share, and it is called with a key and without one, while
other methods use the same records.

A client that is answered without an error is answered from a run: of the handler, for the
very request that it made, in the state that the handler found.
-/

import GoFoundation.Idempotency.Replay
import GoFoundation.Idempotency.Retry

namespace GoFoundation.Idempotency

open Library Postgres Grpc

variable {P : Protobuf}

/-! ## Whose an answer is -/

/-- What the history of the store tells of the executions and of the answers. -/
structure Attributed (w : World P) : Prop where
  executed : ∀ g outcome, .executed g outcome ∈ w.log →
    (w.requests g.request).params = some g.params
  returned : ∀ i g outcome, (w.requests i = .releasing g outcome ∨
    ∃ result, w.requests i = .completing g outcome result) → .executed g outcome ∈ w.log
  answered : ∀ i p answer, .answered i p answer ∈ w.log →
    (w.requests i).params = some p ∧ ∀ outcome, answer = .executed outcome →
      ∃ g, .executed g outcome ∈ w.log ∧ g.params = p

section Moves

variable {mode : Sweep} {w : World P} {i : Nat} {label : Label P} {before after : Phase P}
  {rows : List Row} {events : List (Event P)}

/-- An execution is one of the grant that the request has. -/
theorem Moves.executed_grant (hmove : Moves mode w i label before after rows events) {g : Grant}
    {outcome : Outcome P} (hmem : .executed g outcome ∈ events) :
    before = .executing g ∧ label = .handler i outcome := by
  cases hmove with
  | handledTransient htrans | handledUnencodable htrans hencode | handled htrans hencode =>
      simp only [List.mem_cons, List.not_mem_nil, or_false, reduceCtorEq, false_or,
        Event.executed.injEq] at hmem
      obtain ⟨rfl, rfl⟩ := hmem
      exact ⟨rfl, rfl⟩
  | _ => simp at hmem

/-- A request that has an outcome got it from its handler. -/
theorem Moves.returned_after (hmove : Moves mode w i label before after rows events) {g : Grant}
    {outcome : Outcome P} (hafter : after = .releasing g outcome ∨
      ∃ result, after = .completing g outcome result) : .executed g outcome ∈ events := by
  obtain rfl | ⟨result, rfl⟩ := hafter
  · cases hmove
    exact List.mem_singleton_self _
  · rw [hmove.completing_after.2.2.2]
    exact List.mem_singleton_self _

/-- The answer of a request is about this request; an outcome in it is the one it had. -/
theorem Moves.answered_after (hmove : Moves mode w i label before after rows events) {j : Nat}
    {p : AcquireParams} {answer : Answer P} (hmem : .answered j p answer ∈ events) :
    j = i ∧ before.params = some p ∧ ∀ outcome, answer = .executed outcome →
      ∃ g, g.params = p ∧ (.executed g outcome ∈ events ∨ before = .releasing g outcome ∨
        ∃ result, before = .completing g outcome result) := by
  refine ⟨?_, hmove.events_params.2 j p answer hmem, ?_⟩
  · cases hmove <;> simp_all
  · rintro outcome rfl
    cases hmove <;> simp_all

end Moves

namespace Attributed

variable {options : Options} {mode : Sweep} {w : World P}

theorem init (hinit : (system P options mode).init w) : Attributed w := by
  obtain ⟨-, hidle, hlog⟩ := hinit
  constructor <;> simp [hidle, hlog]

theorem begin (h : Attributed w) {i : Nat} (hidle : w.requests i = .idle) {p : AcquireParams}
    {issued : List UUID} : Attributed (w.begun i p issued) := by
  have hkept : ∀ j q, (w.requests j).params = some q →
      ((w.begun i p issued).requests j).params = some q := by
    intro j q hq
    rw [World.begun_requests_of_ne (ne_of_idle hidle hq)]
    exact hq
  constructor
  case executed => exact fun g outcome hmem => hkept _ _ (h.executed g outcome hmem)
  case returned =>
    intro j g outcome hphase
    by_cases hj : j = i
    · subst hj
      simp at hphase
    · rw [World.begun_requests_of_ne hj] at hphase
      exact h.returned j g outcome hphase
  case answered =>
    intro j q answer hmem
    obtain ⟨hparams, hanswer⟩ := h.answered j q answer hmem
    exact ⟨hkept _ _ hparams, hanswer⟩

theorem move (h : Attributed w) (hwf : Wf options w) {i : Nat} {label : Label P}
    {after : Phase P} {rows : List Row} {events : List (Event P)}
    (hmove : Moves mode w i label (w.requests i) after rows events) :
    Attributed (w.move i rows after events) := by
  constructor
  case executed =>
    intro g outcome hmem
    rw [hmove.params_move]
    obtain hnew | hold := List.mem_append.mp hmem
    · obtain ⟨hrequest, hparams⟩ := hwf.grants i g (by rw [(hmove.executed_grant hnew).1]; rfl)
      rw [hrequest, hparams]
    · exact h.executed g outcome hold
  case returned =>
    intro j g outcome hphase
    by_cases hj : j = i
    · subst hj
      rw [World.move_requests_self] at hphase
      exact List.mem_append_left _ (hmove.returned_after hphase)
    · rw [World.move_requests_of_ne hj] at hphase
      exact List.mem_append_right _ (h.returned j g outcome hphase)
  case answered =>
    intro j p answer hmem
    rw [hmove.params_move]
    obtain hnew | hold := List.mem_append.mp hmem
    · obtain ⟨rfl, hparams, hanswer⟩ := hmove.answered_after hnew
      refine ⟨hparams, fun outcome heq => ?_⟩
      obtain ⟨g, hg, hexecuted | hphase⟩ := hanswer outcome heq
      · exact ⟨g, List.mem_append_left _ hexecuted, hg⟩
      · exact ⟨g, List.mem_append_right _ (h.returned j g outcome hphase), hg⟩
    · obtain ⟨hparams, hanswer⟩ := h.answered j p answer hold
      refine ⟨hparams, fun outcome heq => ?_⟩
      obtain ⟨g, hexecuted, hg⟩ := hanswer outcome heq
      exact ⟨g, List.mem_append_right _ hexecuted, hg⟩

theorem of_reachable (hreach : (system P options mode).Reachable w) : Attributed w := by
  apply hreach.invariant (fun _ hinit => init hinit)
  intro w label w' hprior h hnext
  cases step_of_next hnext with
  | tick hle => exact ⟨h.executed, h.returned, h.answered⟩
  | begin hidle hid htoken hne => exact h.begin hidle
  | move hmove => exact h.move (Wf.of_reachable hprior) hmove

end Attributed

theorem new_ne_none {code : Code} (hcode : code ≠ .ok) {reason message : String}
    {details : List Detail} : Apierror.new P code reason message details ≠ none := by
  obtain ⟨value, -, -, hvalue⟩ := Apierror.new_eq_some P hcode reason message details
  rw [hvalue]
  exact Option.some_ne_none _

/-- A refusal without an error is a replay. -/
theorem eq_replay_of_refusal {record : Record} {disposition : Disposition}
    (hok : (refusal P record disposition).err = none) : disposition = .replay := by
  cases disposition with
  | replay => rfl
  | conflict => exact absurd hok (new_ne_none (show Code.alreadyExists ≠ .ok by decide))
  | inProgress => exact absurd hok (new_ne_none (show Code.aborted ≠ .ok by decide))
  | acquired => exact absurd hok (new_ne_none (show Code.internal ≠ .ok by decide))

/-- An answer without an error is the outcome of an execution under the same scope, of a
request with the same payload. -/
theorem executed_of_answered (hP : P.Lawful) {options : Options} {mode : Sweep} {w : World P}
    (hreach : (system P options mode).ReachableBy (fun _ label => label.FailsProperly) w)
    {i : Nat} {p : AcquireParams} {answer : Answer P} (hanswered : .answered i p answer ∈ w.log)
    (hok : answer.outcome.err = none) :
    Executed w.log p.scope p.requestHash answer.outcome := by
  cases answer with
  | unavailable err => exact absurd hok (new_ne_none (show Code.unavailable ≠ .ok by decide))
  | executed outcome =>
      obtain ⟨g, hexecuted, rfl⟩ :=
        ((Attributed.of_reachable hreach.reachable).answered i p _ hanswered).2 outcome rfl
      exact ⟨g, hexecuted, rfl, rfl⟩
  | refused record disposition =>
      obtain rfl := eq_replay_of_refusal hok
      obtain ⟨later, earlier, hlog⟩ := List.append_of_mem hanswered
      obtain ⟨row, ⟨outcome, result, ⟨g, hmem, hscope, hhash⟩, hstable, hholds⟩, hrow, hrowHash,
        rfl⟩ := (Provenance.of_reachable hreach).replayed i p record earlier ⟨later, hlog.symm⟩
      have hreplay : (Answer.refused row.toRecord .replay).outcome = outcome.visible :=
        replay_of_encode hP hstable.encode hstable.code_ne_ok hholds
      rw [hreplay] at hok ⊢
      have hvisible : outcome.visible = outcome := by
        rcases outcome with ⟨response, _ | err⟩
        · rfl
        · cases hok
      rw [hvisible, hlog]
      exact ⟨g, List.mem_append_right _ (List.mem_cons_of_mem _ hmem), hscope.trans hrow,
        hhash.trans hrowHash⟩

/-! ## The handler and its state -/

/-- A handler: its method, the SHA-256 of a request's bytes, and what becomes of the state
when it runs, by what the environment chooses. -/
structure Endpoint (P : Protobuf) (σ Request Choice : Type) where
  method : String
  requestHash : Request → Bytes
  handle : Choice → Request → σ → Outcome P × σ
  failsProperly : ∀ choice request s err, (handle choice request s).1.err = some err →
    (convert err).code ≠ .ok

/-- A run of the handler. -/
structure Run (σ Request Choice : Type) where
  request : Request
  choice : Choice
  before : σ

section Endpoint

variable {σ Request Choice : Type} (endpoint : Endpoint P σ Request Choice)

def Run.outcome (run : Run σ Request Choice) : Outcome P :=
  (endpoint.handle run.choice run.request run.before).1

def Run.after (run : Run σ Request Choice) : σ :=
  (endpoint.handle run.choice run.request run.before).2

/-- The records, the state at the beginning and now, the request behind each call with a key,
the runs of the handler, newest first, and the calls without a key. -/
structure Serving (P : Protobuf) (σ Request Choice : Type) where
  store : World P
  initial : σ
  state : σ
  asked : Nat → Option Request
  runs : List (Run σ Request Choice)
  plain : List (Request × Outcome P)

/-- The steps: a call with a key begins, its handler runs, a call without a key is served, or
the store moves, which other methods use as well. -/
inductive ServingLabel (P : Protobuf) (Request Choice : Type)
  | begin (i : Nat) (request : Request) (actorID : UUID) (keyHash : Bytes) (id ownerToken : UUID)
  | handler (i : Nat) (choice : Choice)
  | plain (request : Request) (choice : Choice)
  | store (label : Label P)

variable {endpoint}

/-- The labels that are not about the method. -/
def Serving.isForeign (w : Serving P σ Request Choice) (method : String) : Label P → Bool
  | .begin _ call _ _ => call.rpcMethod ≠ method
  | .handler i outcome => (w.asked i).isNone &&
      outcome.err.all fun err => (convert err).code ≠ .ok
  | _ => true

variable (endpoint)

/-- The handler runs. -/
def Serving.execute (w : Serving P σ Request Choice) (choice : Choice) (request : Request) :
    Serving P σ Request Choice :=
  { w with
    state := (endpoint.handle choice request w.state).2
    runs := ⟨request, choice, w.state⟩ :: w.runs }

/-- Calls of one method, among others. -/
def serving (options : Options) (mode : Sweep) :
    System (Serving P σ Request Choice) (ServingLabel P Request Choice) where
  init w := (system P options mode).init w.store ∧ w.state = w.initial ∧
    (∀ i, w.asked i = none) ∧ w.runs = [] ∧ w.plain = []
  next w
    | .begin i request actorID keyHash id ownerToken =>
        (next options mode w.store (.begin i
          ⟨actorID, endpoint.method, keyHash, endpoint.requestHash request⟩ id ownerToken)).map
            fun store => { w with store := store, asked := Function.update w.asked i (some request) }
    | .handler i choice =>
        match w.asked i with
        | none => none
        | some request =>
            (next options mode w.store (.handler i (endpoint.handle choice request w.state).1)).map
              fun store => { w.execute endpoint choice request with store := store }
    | .plain request choice =>
        some { w.execute endpoint choice request with
          plain := (request, (endpoint.handle choice request w.state).1) :: w.plain }
    | .store label =>
        if w.isForeign endpoint.method label then
          (next options mode w.store label).map fun store => { w with store := store }
        else none

/-- The state is what the runs have made of the first one, each in the state that the one
before it left. -/
def Chained (initial : σ) : List (Run σ Request Choice) → σ → Prop
  | [], state => state = initial
  | run :: runs, state => state = run.after endpoint ∧ Chained initial runs run.before

namespace Chained

variable {endpoint} {initial state : σ} {runs : List (Run σ Request Choice)} {R : σ → σ → Prop}

/-- What relates the states before and after every run relates the states along a chain. -/
theorem along (hrefl : ∀ s, R s s) (htrans : ∀ s t u, R s t → R t u → R s u)
    (hstep : ∀ run : Run σ Request Choice, R run.before (run.after endpoint))
    (h : Chained endpoint initial runs state) :
    R initial state ∧ ∀ run ∈ runs, R initial run.before ∧ R (run.after endpoint) state := by
  induction runs generalizing state with
  | nil =>
      obtain rfl := h
      exact ⟨hrefl _, by simp⟩
  | cons last runs ih =>
      obtain ⟨rfl, hbefore⟩ := h
      obtain ⟨hinitial, hruns⟩ := ih hbefore
      refine ⟨htrans _ _ _ hinitial (hstep last), fun run hrun => ?_⟩
      obtain rfl | hearlier := List.mem_cons.mp hrun
      · exact ⟨hinitial, hrefl _⟩
      · obtain ⟨hfirst, hlater⟩ := hruns run hearlier
        exact ⟨hfirst, htrans _ _ _ hlater (hstep last)⟩

/-- Of two runs one is before the other. -/
theorem ordered (hrefl : ∀ s, R s s) (htrans : ∀ s t u, R s t → R t u → R s u)
    (hstep : ∀ run : Run σ Request Choice, R run.before (run.after endpoint))
    (h : Chained endpoint initial runs state) {first second : Run σ Request Choice}
    (hfirst : first ∈ runs) (hsecond : second ∈ runs) : first = second ∨
      R (first.after endpoint) second.before ∨ R (second.after endpoint) first.before := by
  induction runs generalizing state with
  | nil => cases hfirst
  | cons last runs ih =>
      obtain ⟨-, hbefore⟩ := h
      have hruns := (along hrefl htrans hstep hbefore).2
      obtain rfl | hfirst' := List.mem_cons.mp hfirst <;>
        obtain rfl | hsecond' := List.mem_cons.mp hsecond
      · exact .inl rfl
      · exact .inr (.inr (hruns second hsecond').2)
      · exact .inr (.inl (hruns first hfirst').2)
      · exact ih hbefore hfirst' hsecond'

end Chained

/-- A client has made the request. -/
def Serving.Made (w : Serving P σ Request Choice) (request : Request) : Prop :=
  (∃ i, w.asked i = some request) ∨ ∃ outcome, (request, outcome) ∈ w.plain

/-- A client has been answered. -/
def Serving.Answered (w : Serving P σ Request Choice) (request : Request) (outcome : Outcome P) :
    Prop :=
  (request, outcome) ∈ w.plain ∨ ∃ i p answer, w.asked i = some request ∧
    .answered i p answer ∈ w.store.log ∧ answer.outcome = outcome

/-- No two requests with a key have one SHA-256. -/
def Serving.Distinct (w : Serving P σ Request Choice) : Prop :=
  ∀ i j first second, w.asked i = some first → w.asked j = some second →
    endpoint.requestHash first = endpoint.requestHash second → first = second

end Endpoint

/-! ## What a step of the store does -/

section Steps

variable {options : Options} {mode : Sweep} {w w' : World P} {label : Label P} {j : Nat}
  {p : AcquireParams}

theorem idle_of_begin {call : Call} {id ownerToken : UUID}
    (hstep : Step options mode w (.begin j call id ownerToken) w') : w.requests j = .idle := by
  cases hstep with
  | begin hidle hid htoken hne => exact hidle
  | move hmove =>
      generalize w.requests _ = before at hmove
      cases hmove

theorem params_of_begin {call : Call} {id ownerToken : UUID}
    (hstep : Step options mode w (.begin j call id ownerToken) w') :
    (w'.requests j).params = some (acquireParams options call id ownerToken w.clock) := by
  cases hstep with
  | begin hidle hid htoken hne =>
      show ((Function.update w.requests j _) j).params = _
      rw [Function.update_self]
      rfl
  | move hmove =>
      generalize w.requests _ = before at hmove
      cases hmove

/-- A request keeps the parameters with which it began. -/
theorem params_kept_of_step (hstep : Step options mode w label w')
    (hparams : (w.requests j).params = some p) : (w'.requests j).params = some p := by
  cases hstep with
  | tick hle => exact hparams
  | @begin i call id ownerToken hidle hid htoken hne =>
      show ((Function.update w.requests i _) j).params = some p
      rw [Function.update_of_ne (ne_of_idle hidle hparams)]
      exact hparams
  | move hmove => exact (hmove.params_move j).trans hparams

theorem params_of_step (hstep : Step options mode w label w')
    (hparams : (w'.requests j).params = some p) : (w.requests j).params = some p ∨
      ∃ call id ownerToken, label = .begin j call id ownerToken ∧
        p = acquireParams options call id ownerToken w.clock := by
  cases hstep with
  | tick hle => exact .inl hparams
  | @begin i call id ownerToken hidle hid htoken hne =>
      obtain ⟨-, hold⟩ | ⟨rfl, rfl⟩ := World.begun_params hparams
      · exact .inl hold
      · exact .inr ⟨call, id, ownerToken, rfl, rfl⟩
  | move hmove => exact .inl ((hmove.params_move j).symm.trans hparams)

theorem executed_of_step (hstep : Step options mode w label w') {g : Grant} {outcome : Outcome P}
    (hmem : .executed g outcome ∈ w'.log) : .executed g outcome ∈ w.log ∨
      ∃ i, label = .handler i outcome ∧ w.requests i = .executing g := by
  cases hstep with
  | tick hle => exact .inl hmem
  | begin hidle hid htoken hne => exact .inl hmem
  | @move i _ after rows events hmove =>
      obtain hnew | hold := List.mem_append.mp hmem
      · obtain ⟨hphase, hlabel⟩ := hmove.executed_grant hnew
        exact .inr ⟨i, hlabel, hphase⟩
      · exact .inl hold

end Steps

/-! ## The runs behind the answers -/

section Serves

variable {σ Request Choice : Type} {endpoint : Endpoint P σ Request Choice} {options : Options}
  {mode : Sweep} {w w' : Serving P σ Request Choice}

/-- What the runs have to do with the history of the store. -/
structure Serves (endpoint : Endpoint P σ Request Choice) (options : Options) (mode : Sweep)
    (w : Serving P σ Request Choice) : Prop where
  reach : (system P options mode).ReachableBy (fun _ label => label.FailsProperly) w.store
  begun : ∀ i request, w.asked i = some request → ∃ p, (w.store.requests i).params = some p
  params : ∀ i p, (w.store.requests i).params = some p →
    (∃ request, w.asked i = some request ∧ p.rpcMethod = endpoint.method ∧
      p.requestHash = endpoint.requestHash request) ∨
    (w.asked i = none ∧ p.rpcMethod ≠ endpoint.method)
  executed : ∀ g outcome, .executed g outcome ∈ w.store.log →
    g.params.rpcMethod = endpoint.method →
      ∃ run ∈ w.runs, w.asked g.request = some run.request ∧ run.outcome endpoint = outcome
  plain : ∀ request outcome, (request, outcome) ∈ w.plain →
    ∃ run ∈ w.runs, run.request = request ∧ run.outcome endpoint = outcome
  made : ∀ run ∈ w.runs, w.Made run.request
  chained : Chained endpoint w.initial w.runs w.state

namespace Serves

theorem init (hinit : (serving endpoint options mode).init w) : Serves endpoint options mode w := by
  obtain ⟨hstore, hstate, hasked, hruns, hplain⟩ := hinit
  have hreach : (system P options mode).ReachableBy (fun _ label => label.FailsProperly) w.store :=
    .init hstore
  obtain ⟨-, hidle, hlog⟩ := hstore
  refine ⟨hreach, ?_, ?_, ?_, ?_, ?_, ?_⟩
  · simp [hasked]
  · simp [hidle, Phase.params]
  · simp [hlog]
  · simp [hplain]
  · simp [hruns]
  · rw [hruns, hstate]
    rfl

/-- A call with a key begins. -/
theorem begin (h : Serves endpoint options mode w) {i : Nat} {request : Request} (call : Call)
    {id ownerToken : UUID} (hmethod : call.rpcMethod = endpoint.method)
    (hhash : call.requestHash = endpoint.requestHash request) {store : World P}
    (hnext : (system P options mode).next w.store (.begin i call id ownerToken) = some store) :
    Serves endpoint options mode
      { w with store := store, asked := Function.update w.asked i (some request) } := by
  have hstep := step_of_next hnext
  have hidle := idle_of_begin hstep
  have hattributed := Attributed.of_reachable h.reach.reachable
  have hlabel : (Label.begin i call id ownerToken : Label P).FailsProperly := trivial
  refine ⟨h.reach.step hlabel hnext, ?_, ?_, ?_, h.plain, ?_, h.chained⟩
  · intro j other hasked
    by_cases hj : j = i
    · subst hj
      exact ⟨_, params_of_begin hstep⟩
    · obtain ⟨p, hp⟩ := h.begun j other ((Function.update_of_ne hj _ _).symm.trans hasked)
      exact ⟨p, params_kept_of_step hstep hp⟩
  · intro j p hparams
    obtain hold | ⟨_, _, _, hlabel, rfl⟩ := params_of_step hstep hparams
    · have hj : j ≠ i := ne_of_idle hidle hold
      simpa only [Function.update_of_ne hj] using h.params j p hold
    · cases hlabel
      exact .inl ⟨request, Function.update_self .., hmethod, hhash⟩
  · intro g outcome hmem hg
    obtain hold | ⟨_, hlabel, -⟩ := executed_of_step hstep hmem
    · have hj : g.request ≠ i := ne_of_idle hidle (hattributed.executed g outcome hold)
      simpa only [Function.update_of_ne hj] using h.executed g outcome hold hg
    · cases hlabel
  · intro run hrun
    refine (h.made run hrun).imp_left fun ⟨j, hj⟩ => ?_
    obtain ⟨p, hp⟩ := h.begun j run.request hj
    exact ⟨j, (Function.update_of_ne (ne_of_idle hidle hp) _ _).trans hj⟩

/-- The handler of a call with a key runs. -/
theorem handler (h : Serves endpoint options mode w) {i : Nat} {choice : Choice}
    {request : Request} (hasked : w.asked i = some request) {store : World P}
    (hnext : (system P options mode).next w.store
      (.handler i (endpoint.handle choice request w.state).1) = some store) :
    Serves endpoint options mode { w.execute endpoint choice request with store := store } := by
  have hstep := step_of_next hnext
  have hlabel : (Label.handler i (endpoint.handle choice request w.state).1).FailsProperly :=
    endpoint.failsProperly choice request w.state
  refine ⟨h.reach.step hlabel hnext, ?_, ?_, ?_, ?_, ?_, rfl, h.chained⟩
  · intro j other hother
    obtain ⟨p, hp⟩ := h.begun j other hother
    exact ⟨p, params_kept_of_step hstep hp⟩
  · intro j p hparams
    obtain hold | ⟨_, _, _, hlabel, -⟩ := params_of_step hstep hparams
    · exact h.params j p hold
    · cases hlabel
  · intro g outcome hmem hg
    obtain hold | ⟨_, hlabel, hphase⟩ := executed_of_step hstep hmem
    · obtain ⟨run, hrun, hrest⟩ := h.executed g outcome hold hg
      exact ⟨run, List.mem_cons_of_mem _ hrun, hrest⟩
    · cases hlabel
      have hrequest : g.request = i :=
        ((Wf.of_reachable h.reach.reachable).grants i g (by rw [hphase]; rfl)).1
      exact ⟨_, List.mem_cons_self, hrequest ▸ hasked, rfl⟩
  · intro other outcome hmem
    obtain ⟨run, hrun, hrest⟩ := h.plain other outcome hmem
    exact ⟨run, List.mem_cons_of_mem _ hrun, hrest⟩
  · exact List.forall_mem_cons.mpr ⟨.inl ⟨i, hasked⟩, h.made⟩

/-- A call without a key is served. -/
theorem plainly (h : Serves endpoint options mode w) (request : Request) (choice : Choice) :
    Serves endpoint options mode { w.execute endpoint choice request with
      plain := (request, (endpoint.handle choice request w.state).1) :: w.plain } := by
  refine ⟨h.reach, h.begun, h.params, ?_, ?_, ?_, rfl, h.chained⟩
  · intro g outcome hmem hg
    obtain ⟨run, hrun, hrest⟩ := h.executed g outcome hmem hg
    exact ⟨run, List.mem_cons_of_mem _ hrun, hrest⟩
  · intro other outcome hmem
    obtain heq | hold := List.mem_cons.mp hmem
    · cases heq
      exact ⟨_, List.mem_cons_self, rfl, rfl⟩
    · obtain ⟨run, hrun, hrest⟩ := h.plain other outcome hold
      exact ⟨run, List.mem_cons_of_mem _ hrun, hrest⟩
  · refine List.forall_mem_cons.mpr ⟨.inr ⟨_, List.mem_cons_self⟩, fun run hrun => ?_⟩
    exact (h.made run hrun).imp_right fun ⟨outcome, hold⟩ => ⟨outcome, List.mem_cons_of_mem _ hold⟩

/-- The store moves, and no run of the handler is in it. -/
theorem foreign (h : Serves endpoint options mode w) {label : Label P}
    (hforeign : w.isForeign endpoint.method label = true) {store : World P}
    (hnext : (system P options mode).next w.store label = some store) :
    Serves endpoint options mode { w with store := store } := by
  have hstep := step_of_next hnext
  have hlabel : label.FailsProperly := by
    cases label with
    | handler i outcome =>
        intro err herr
        simp only [Serving.isForeign, herr, Option.all_some, Bool.and_eq_true,
          decide_eq_true_eq] at hforeign
        exact hforeign.2
    | _ => exact trivial
  refine ⟨h.reach.step hlabel hnext, ?_, ?_, ?_, h.plain, h.made, h.chained⟩
  · intro j other hother
    obtain ⟨p, hp⟩ := h.begun j other hother
    exact ⟨p, params_kept_of_step hstep hp⟩
  · intro j p hparams
    obtain hold | ⟨call, id, ownerToken, rfl, rfl⟩ := params_of_step hstep hparams
    · exact h.params j p hold
    · refine .inr ⟨?_, of_decide_eq_true hforeign⟩
      cases hasked : w.asked j with
      | none => rfl
      | some request =>
          obtain ⟨p, hp⟩ := h.begun j request hasked
          exact absurd rfl (ne_of_idle (idle_of_begin hstep) hp)
  · intro g outcome hmem hg
    obtain hold | ⟨i, rfl, hphase⟩ := executed_of_step hstep hmem
    · exact h.executed g outcome hold hg
    · -- The handler that returned is not that of this method.
      have hgrant := (Wf.of_reachable h.reach.reachable).grants i g (by rw [hphase]; rfl)
      simp only [Serving.isForeign, Bool.and_eq_true, Option.isNone_iff_eq_none] at hforeign
      obtain ⟨request, hasked, -⟩ | ⟨-, hother⟩ := h.params i g.params hgrant.2
      · rw [hforeign.1] at hasked
        cases hasked
      · exact absurd hg hother

theorem of_reachable (hreach : (serving endpoint options mode).Reachable w) :
    Serves endpoint options mode w := by
  apply hreach.invariant (fun _ hinit => init hinit)
  intro w label w' _ h hnext
  cases label with
  | begin i request actorID keyHash id ownerToken =>
      obtain ⟨store, hstore, rfl⟩ := Option.map_eq_some_iff.mp hnext
      exact h.begin ⟨actorID, endpoint.method, keyHash, endpoint.requestHash request⟩ rfl rfl hstore
  | handler i choice =>
      cases hasked : w.asked i with
      | none => simp [serving, hasked] at hnext
      | some request =>
          simp only [serving, hasked] at hnext
          obtain ⟨store, hstore, rfl⟩ := Option.map_eq_some_iff.mp hnext
          exact h.handler hasked hstore
  | plain request choice =>
      cases hnext
      exact h.plainly request choice
  | store label =>
      obtain ⟨hforeign, hmap⟩ := Option.ite_none_right_eq_some.mp hnext
      obtain ⟨store, hstore, rfl⟩ := Option.map_eq_some_iff.mp hmap
      exact h.foreign hforeign hstore

/-- A client that is answered without an error is answered from a run for its request. -/
theorem run_of_answered (hP : P.Lawful) (h : Serves endpoint options mode w)
    (hdistinct : w.Distinct endpoint) {request : Request} {outcome : Outcome P}
    (hanswered : w.Answered request outcome) (hok : outcome.err = none) :
    ∃ run ∈ w.runs, run.request = request ∧ run.outcome endpoint = outcome := by
  obtain hplain | ⟨i, p, answer, hasked, hlog, rfl⟩ := hanswered
  · exact h.plain request outcome hplain
  · have hattributed := Attributed.of_reachable h.reach.reachable
    obtain ⟨g, hexecuted, hscope, hhash⟩ := executed_of_answered hP h.reach hlog hok
    obtain ⟨request', hasked', hmethod, hrequest⟩ | ⟨hnone, -⟩ :=
      h.params i p (hattributed.answered i p answer hlog).1
    · rw [hasked, Option.some.injEq] at hasked'
      subst hasked'
      have hg : g.params.rpcMethod = endpoint.method :=
        (congrArg Scope.rpcMethod hscope).trans hmethod
      obtain ⟨run, hrun, hself, houtcome⟩ := h.executed g _ hexecuted hg
      refine ⟨run, hrun, ?_, houtcome⟩
      obtain ⟨other, hother, -, hotherHash⟩ | ⟨-, hne⟩ :=
        h.params g.request g.params (hattributed.executed g _ hexecuted)
      · rw [hself, Option.some.injEq] at hother
        subst hother
        exact hdistinct _ _ _ _ hself hasked (hotherHash.symm.trans (hhash.trans hrequest))
      · exact absurd hg hne
    · rw [hasked] at hnone
      cases hnone

end Serves

end Serves

end GoFoundation.Idempotency
