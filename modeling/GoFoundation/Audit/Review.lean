/-
# A review of the trail

An auditor follows the list of audit events page by page, while requests go on.  What is on
the trail when the review begins is shown, each event once, and whatever is shown that was
not there before the server has happened: some call was executed as the event says.
-/

import GoFoundation.Audit.Trail
import GoFoundation.Audit.Findable
import GoFoundation.Pagination.Complete
import GoFoundation.Pagination.Tokens

namespace GoFoundation.Audit

open Library Postgres Pagination Grpc Server Idempotency

variable {P : Protobuf} {config : Config P}

/-! ## The system -/

/-- The server and the auditor: the executions recorded when the review began, the events
shown since, the token for the next page, and whether that was empty. -/
structure Review (config : Config P) where
  world : World config
  due : List (Execution config)
  seen : List AuditEvent
  token : String
  finished : Bool

/-- A review begins. -/
def Review.start (world : World config) : Review config := ⟨world, world.recorded, [], "", false⟩

/-- The auditor is answered. -/
def Review.receive (r : Review config) :
    Except (Option GoError) (List AuditEvent × String) → Review config
  | .ok (events, nextPageToken) =>
      { r with
        seen := r.seen ++ events
        token := nextPageToken
        finished := nextPageToken = "" }
  | .error _ => r

/-- A table that had rows before: ids are its key, and times are whole microseconds. -/
structure TrailOK (rows : List Row) : Prop where
  ids : (rows.map Row.id).Nodup
  times : ∀ row ∈ rows, Storable row.occurredAt

/-- The message tells what was executed: whose call it was, of which method, with which
request id, what was changed, and how it ended. -/
structure Execution.Shows (e : Execution config) (message : AuditEvent) : Prop where
  id : message.id = e.event.id.text
  actor : ∃ actorID, actorOf e.call.ctx = some actorID ∧ message.actorID = actorID.text
  method : message.rpcMethod = e.call.request.method
  requestID : (toText e.call.ctx.requestID).bind (varchar 255) = some message.requestID
  change : ∃ mutation, mutationEvent config.generated e.call.request.method e.call.request.body
      e.outcome.response = some mutation ∧
    message.action = mutation.action ∧ message.resourceType = mutation.resourceType ∧
      varcharColumn 255 mutation.resourceID = some message.resourceID ∧
      message.metadata = mutation.metadata
  grpcCode : varcharColumn 32 (codeOf e.outcome.err).name = some message.grpcCode
  errorReason : varcharColumn 150 (errorReason P e.outcome.err) = some message.errorReason

/-! ## What a step does to the trail -/

section Steps

variable {mode : Sweep} {w w' : World config} {label : Label config}

theorem clock_le_of_store_step {options : Options} {store store' : Idempotency.World P}
    {label : Idempotency.Label P} (hstep : Idempotency.Step options mode store label store') :
    store.clock ≤ store'.clock := by
  cases hstep with
  | tick hle => exact hle
  | begin hidle hid htoken hne => exact le_rfl
  | move hmove => exact le_rfl

theorem of_resumed {i : Nat} {outcome : Outcome P} (hresumed : Resumed mode w i outcome w') :
    w'.trail = w.trail ∧ w'.executed = w.executed ∧ w'.recorded = w.recorded ∧
      w.store.clock ≤ w'.store.clock := by
  cases hresumed with
  | plain => exact ⟨rfl, rfl, rfl, le_rfl⟩
  | keyed hstep => exact ⟨rfl, rfl, rfl, clock_le_of_store_step hstep⟩

/-- An event carries the time at which its handler returned. -/
theorem executed_of_step (hstep : Step mode w label w') : w.store.clock ≤ w'.store.clock ∧
    ∀ e ∈ w'.executed, e ∈ w.executed ∨ e.event.occurredAt = w.store.clock := by
  cases hstep with
  | turnedAway | unkeyed => exact ⟨le_rfl, fun e he => .inl he⟩
  | keyed hidle hstore => exact ⟨clock_le_of_store_step hstore, fun e he => .inl he⟩
  | store hown hstore => exact ⟨clock_le_of_store_step hstore, fun e he => .inl he⟩
  | unaudited hevent hbefore hresumed =>
      obtain ⟨-, hexecuted, -, hle⟩ := of_resumed hresumed
      exact ⟨hle, fun e he => .inl (hexecuted ▸ he)⟩
  | executed hbefore hevent hfresh =>
      refine ⟨le_rfl, fun e he => ?_⟩
      obtain rfl | he := List.mem_cons.mp he
      · obtain ⟨mutation, -, rfl⟩ := Option.map_eq_some_iff.mp hevent
        exact .inr rfl
      · exact .inl he
  | recorded hbefore hresumed =>
      obtain ⟨-, hexecuted, -, hle⟩ := of_resumed hresumed
      exact ⟨hle, fun e he => .inl (hexecuted ▸ he)⟩

end Steps

/-! ## The review as a walk -/

/-- The walk that a review is, over the trail of its beginning. -/
structure Review.Follows (codec : CursorCodec) (input : ListInput) (r : Review config)
    (start : List Row) (w : Walk Row) : Prop where
  ok : TrailOK start
  due : ∀ e ∈ r.due, ∀ row, e.event.toRow = some row → row ∈ start
  walk : ∃ visits, (walks Row.occurredAt Row.id (list codec input)).run (Walk.start start) visits =
    some w
  rows : w.rows = r.world.trail
  seen : w.returned.map Row.toProto = r.seen
  token : w.token = r.token
  finished : w.finished = r.finished

/-- The invariant of reviews. -/
structure Reviewed (mode : Sweep) (codec : CursorCodec) (input : ListInput) (r : Review config) :
    Prop where
  reach : (system config mode).Reachable r.world
  ok : TrailOK r.world.trail
  clock : 0 ≤ r.world.store.clock
  times : ∀ e ∈ r.world.executed, 0 ≤ e.event.occurredAt
  due : ∀ e ∈ r.due, e ∈ r.world.recorded
  follows : ∃ start w, r.Follows codec input start w

section Invariant

variable {mode : Sweep} {codec : CursorCodec} {input : ListInput} {r r' : Review config}

theorem TrailOK.append {rows : List Row} (hok : TrailOK rows) {row : Row}
    (hnew : ∀ old ∈ rows, old.id ≠ row.id) (htime : Storable row.occurredAt) :
    TrailOK (rows ++ [row]) where
  ids := Table.nodup_map_append hok.ids hnew
  times := by
    intro other hother
    obtain hold | hself := List.mem_append.mp hother
    · exact hok.times other hold
    · exact List.mem_singleton.mp hself ▸ htime

/-- A walk goes on by a visit. -/
theorem exists_visits {start : List Row} {w w' : Walk Row} {visit : Visit Row}
    (hwalk : ∃ visits, (walks Row.occurredAt Row.id (list codec input)).run (Walk.start start)
      visits = some w)
    (hnext : (walks Row.occurredAt Row.id (list codec input)).next w visit = some w') :
    ∃ visits, (walks Row.occurredAt Row.id (list codec input)).run (Walk.start start) visits =
      some w' := by
  obtain ⟨visits, hrun⟩ := hwalk
  refine ⟨visits ++ [visit], ?_⟩
  rw [System.run_append, hrun, Option.bind_some, System.run_cons, hnext]
  rfl

/-- The auditor gets a page, and the walk with him. -/
theorem Reviewed.page (h : Reviewed mode codec input r) (hopen : r.finished = false)
    (pageSize : Int) :
    Reviewed mode codec input
      (r.receive (listAuditEvents P (list codec input r.world.trail pageSize r.token))) := by
  obtain ⟨start, w, hfollows⟩ := h.follows
  have hvisit : (walks Row.occurredAt Row.id (list codec input)).next w (.fetch pageSize) =
      some (w.receive (list codec input w.rows pageSize w.token)) := by
    simp only [walks, hfollows.finished, hopen]
    rfl
  have hwalk := exists_visits hfollows.walk hvisit
  rw [hfollows.rows, hfollows.token] at hwalk
  cases hpage : list codec input r.world.trail pageSize r.token with
  | error err =>
      cases err <;> exact h
  | ok page =>
      rw [hpage] at hwalk
      refine { h with
        follows := ⟨start, w.receive (.ok page),
          { ok := hfollows.ok
            due := hfollows.due
            walk := hwalk
            rows := hfollows.rows
            seen := ?_
            token := rfl
            finished := rfl }⟩ }
      show (w.returned ++ page.items).map Row.toProto = r.seen ++ page.items.map Row.toProto
      rw [List.map_append, hfollows.seen]

end Invariant

/-! ## What the auditor is told -/

end GoFoundation.Audit
