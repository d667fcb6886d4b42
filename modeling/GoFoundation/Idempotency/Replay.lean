/-
# Replayed results are earlier results

The invariant follows an outcome from its handler to the table: a request that is
about to complete has executed what it will store, and a completed row stores the
result of an execution under its own scope and payload hash.  A take-over resets
the payload columns, and a late `Complete` by an owner that lost its reservation
matches no row, so no other way leads to a completed row.

The results hold at both granularities of the cleanup.
-/

import GoFoundation.Idempotency.Invariant

namespace GoFoundation.Idempotency

open Library Postgres Grpc

variable {P : Protobuf}

/-- A handler that fails does so with a code other than `OK`. -/
def Label.FailsProperly : Label P → Prop
  | handler _ outcome => ∀ err, outcome.err = some err → (convert err).code ≠ .ok
  | _ => True

/-- An outcome that may be stored: its error is not transient and its code is not `OK`. -/
structure Stable (outcome : Outcome P) (result : Encoded) : Prop where
  encode : encodeIdempotencyResult P outcome = some result
  lasting : transientIdempotencyError outcome.err = false
  code_ne_ok : ∀ err, outcome.err = some err → (convert err).code ≠ .ok

/-- Some request with this scope and payload hash executed its handler with this
outcome. -/
def Executed (log : List (Event P)) (scope : Scope) (requestHash : Bytes)
    (outcome : Outcome P) : Prop :=
  ∃ g, .executed g outcome ∈ log ∧ g.scope = scope ∧ g.params.requestHash = requestHash

/-- A completed row stores the result of an execution. -/
def Sourced (log : List (Event P)) (row : Row) : Prop :=
  ∃ outcome result, Executed log row.scope row.requestHash outcome ∧ Stable outcome result ∧
    row.toRecord.Holds result

/-- What the history says about stored and replayed results. -/
structure Provenance (w : World P) : Prop where
  completing : ∀ i g outcome result, w.requests i = .completing g outcome result →
    .executed g outcome ∈ w.log ∧ Stable outcome result
  completed : ∀ row ∈ w.rows, row.state = .completed → Sourced w.log row
  replayed : ∀ i p record earlier,
    (.answered i p (.refused record .replay) :: earlier) <:+ w.log →
    ∃ row, Sourced earlier row ∧ row.scope = p.scope ∧ row.requestHash = p.requestHash ∧
      record = row.toRecord

theorem classify_eq_replay {p : AcquireParams} {record : Record}
    (hreplay : classify p record = .replay) :
    record.requestHash = p.requestHash ∧ record.state = .completed := by
  unfold classify at hreplay
  split at hreplay
  · cases hreplay
  · next hhash =>
      split at hreplay
      · next hstate => exact ⟨not_not.mp hhash, hstate⟩
      · cases hreplay

theorem Sourced.append {log : List (Event P)} {row : Row} (h : Sourced log row)
    (events : List (Event P)) : Sourced (events ++ log) row := by
  obtain ⟨outcome, result, ⟨g, hmem, hg⟩, hrest⟩ := h
  exact ⟨outcome, result, ⟨g, List.mem_append_right _ hmem, hg⟩, hrest⟩

section Moves

variable {mode : Sweep} {w : World P} {i : Nat} {label : Label P} {before after : Phase P}
  {rows : List Row} {events : List (Event P)}

/-- A replay is answered from a completed row with the request's own payload hash. -/
theorem Moves.replayed (hmove : Moves mode w i label before after rows events) {j : Nat}
    {p : AcquireParams} {record : Record} {earlier : List (Event P)}
    (hsuffix : (.answered j p (.refused record .replay) :: earlier) <:+ events ++ w.log) :
    (.answered j p (.refused record .replay) :: earlier) <:+ w.log ∨
      (earlier = w.log ∧ ∃ row ∈ w.rows, row.scope = p.scope ∧
        row.requestHash = p.requestHash ∧ row.state = .completed ∧ record = row.toRecord) := by
  cases hmove with
  | @refused p' pc row hrow hscope hpc =>
      rcases List.suffix_cons_iff.mp hsuffix with heq | hold
      · injection heq with hevent hearlier
        injection hevent with _ hp hanswer
        injection hanswer with hrecord hdisposition
        subst hp
        obtain ⟨hhash, hstate⟩ := classify_eq_replay hdisposition.symm
        exact .inr ⟨hearlier, row, hrow, hscope, hhash, hstate, hrecord⟩
      · exact .inl hold
  | _ => exact .inl (by simpa [List.suffix_cons_iff] using hsuffix)

/-- A request that is about to complete was so before, or its handler has just
returned a lasting outcome. -/
theorem Moves.completing_after {g : Grant} {outcome : Outcome P} {result : Encoded}
    (hmove : Moves mode w i label before (.completing g outcome result) rows events) :
    label = .handler i outcome ∧ transientIdempotencyError outcome.err = false ∧
      encodeIdempotencyResult P outcome = some result ∧ events = [.executed g outcome] := by
  cases hmove with
  | handled htrans hencode => exact ⟨rfl, htrans, hencode, rfl⟩

end Moves

namespace Provenance

variable {options : Options} {mode : Sweep} {w : World P}

theorem init (hinit : (system P options mode).init w) : Provenance w := by
  obtain ⟨hrows, hidle, hlog⟩ := hinit
  constructor <;> simp [hrows, hidle, hlog]

theorem begin (h : Provenance w) {i : Nat} {p : AcquireParams} {issued : List UUID} :
    Provenance (w.begun i p issued) where
  completing j g outcome result hphase := by
    by_cases hj : j = i
    · subst hj
      simp at hphase
    · rw [World.begun_requests_of_ne hj] at hphase
      exact h.completing j g outcome result hphase
  completed := h.completed
  replayed := h.replayed

theorem move (h : Provenance w) (hwf : Wf options w) {i : Nat} {label : Label P}
    {after : Phase P} {rows : List Row} {events : List (Event P)}
    (hlabel : label.FailsProperly)
    (hmove : Moves mode w i label (w.requests i) after rows events) :
    Provenance (w.move i rows after events) := by
  constructor
  case completing =>
    intro j g outcome result hphase
    by_cases hj : j = i
    · subst hj
      rw [World.move_requests_self] at hphase
      subst hphase
      obtain ⟨rfl, htrans, hencode, rfl⟩ := hmove.completing_after
      exact ⟨List.mem_cons_self, hencode, htrans, hlabel⟩
    · rw [World.move_requests_of_ne hj] at hphase
      obtain ⟨hmem, hstable⟩ := h.completing j g outcome result hphase
      exact ⟨List.mem_append_right _ hmem, hstable⟩
  case completed =>
    intro row hrow hstate
    rcases hmove.mem_rows hrow with hold | ⟨p, -, -, rfl⟩ | ⟨p, id, old, -, -, -, -, rfl⟩ |
      ⟨g, outcome, result, old, hbefore, hold, howned, rfl⟩
    · exact (h.completed row hold hstate).append events
    · simp [reservation] at hstate
    · simp [takeOverSet] at hstate
    · -- The owner of the row is the request that completes it.
      obtain ⟨hmem, hstable⟩ := h.completing i g outcome result hbefore
      have hres := hwf.owner_eq (by rw [hbefore]; rfl) hold howned
      refine ⟨outcome, result, ⟨g, List.mem_append_right _ hmem, hres.scope.symm,
        hres.requestHash.symm⟩, hstable, toRecord_completeSet_holds result w.clock old⟩
  case replayed =>
    intro j p record earlier hsuffix
    rcases hmove.replayed hsuffix with hold | ⟨rfl, row, hrow, hscope, hhash, hstate, hrecord⟩
    · exact h.replayed j p record earlier hold
    · exact ⟨row, h.completed row hrow hstate, hscope, hhash, hrecord⟩

/-- Stored results have a source in every run whose handlers fail properly. -/
theorem of_reachable (hreach : (system P options mode).ReachableBy
    (fun _ label => label.FailsProperly) w) : Provenance w := by
  apply hreach.invariant (fun _ hinit => init hinit)
  intro w label w' hprior h hlabel hnext
  cases step_of_next hnext with
  | tick hle => exact ⟨h.completing, h.completed, h.replayed⟩
  | begin hidle hid htoken hne => exact h.begin
  | move hmove => exact h.move (Wf.of_reachable hprior.reachable) hlabel hmove

end Provenance

/-! ## Fidelity -/

/-- What is visible of a lasting outcome is not the answer to an undecodable record. -/
theorem Stable.visible_ne_replayFailed {outcome : Outcome P} {result : Encoded}
    (h : Stable outcome result) : outcome.visible ≠ replayFailed P := by
  rcases outcome with ⟨response, err⟩
  obtain ⟨value, hcode, -, hnew⟩ := Apierror.new_eq_some P (show Code.internal ≠ .ok by decide)
    "IDEMPOTENCY_REPLAY_FAILED" "internal server error" []
  intro heq
  cases err with
  | none => simp [Outcome.visible, replayFailed, hnew] at heq
  | some err =>
      simp only [Outcome.visible, replayFailed, hnew, Outcome.mk.injEq, Option.some.injEq,
        GoError.status.injEq, true_and] at heq
      have hlasting := h.lasting
      simp [transientIdempotencyError, codeOf, heq, hcode] at hlasting

/-- Whenever a request is answered with a replay, a handler with the same actor,
method, key and payload has returned before, and the answer is what a client
could see of its outcome. -/
theorem replay_faithful (hP : P.Lawful) {options : Options} {mode : Sweep} {w : World P}
    (hreach : (system P options mode).ReachableBy (fun _ label => label.FailsProperly) w)
    {i : Nat} {p : AcquireParams} {record : Record} {earlier : List (Event P)}
    (hanswered : (.answered i p (.refused record .replay) :: earlier) <:+ w.log) :
    ∃ g outcome, .executed g outcome ∈ earlier ∧ g.params.actorID = p.actorID ∧
      g.params.rpcMethod = p.rpcMethod ∧ g.params.keyHash = p.keyHash ∧
      g.params.requestHash = p.requestHash ∧
      (Answer.refused record .replay).outcome = outcome.visible ∧
      replayIdempotencyRecord P record ≠ replayFailed P := by
  obtain ⟨row, ⟨outcome, result, ⟨g, hmem, hscope, hhash⟩, hstable, hholds⟩, hrow, hrowHash,
    rfl⟩ := (Provenance.of_reachable hreach).replayed i p record earlier hanswered
  have hreplay : replayIdempotencyRecord P row.toRecord = outcome.visible :=
    replay_of_encode hP hstable.encode hstable.code_ne_ok hholds
  have hsame : g.params.scope = p.scope := hscope.trans hrow
  simp only [AcquireParams.scope, Scope.mk.injEq] at hsame
  refine ⟨g, outcome, hmem, hsame.1, hsame.2.1, hsame.2.2, hhash.trans hrowHash, hreplay, ?_⟩
  rw [hreplay]
  exact hstable.visible_ne_replayFailed

/-- The answer that an event records, if it is a replay. -/
def Event.replay : Event P → Option (Nat × AcquireParams × Record)
  | answered i p (.refused record .replay) => some (i, p, record)
  | _ => none

theorem Event.replay_eq_some {event : Event P} {i : Nat} {p : AcquireParams} {record : Record}
    (hreplay : event.replay = some (i, p, record)) :
    event = .answered i p (.refused record .replay) := by
  unfold Event.replay at hreplay
  split at hreplay
  · simp only [Option.some.injEq, Prod.mk.injEq] at hreplay
    obtain ⟨rfl, rfl, rfl⟩ := hreplay
    rfl
  · cases hreplay

/-- Two requests with one key and payload: the handler of the first fails with a
lasting error, which answers the second. -/
def replayRun : List (Label Protobuf.sample) :=
  let call : Call := ⟨.ofNat 1, "/rbac.v1.RBACService/AssignRole", [7], [9]⟩
  [.begin 0 call (.ofNat 10) (.ofNat 11), .cleanup 0 [], .acquire 0,
    .handler 0 ⟨.other, some (.status ⟨.notFound, "no", []⟩)⟩, .finish 0, .tick 1000000000,
    .begin 1 call (.ofNat 20) (.ofNat 21), .cleanup 1 [], .acquire 1, .acquire 1]

theorem replay_faithful_replayRun :
    ∃ w i p record earlier,
      (system Protobuf.sample defaultOptions .atomic).run (World.start 0) replayRun = some w ∧
      w.log = .answered i p (.refused record .replay) :: earlier ∧
      ∃ g outcome, .executed g outcome ∈ earlier ∧ g.params.requestHash = p.requestHash ∧
        (Answer.refused record .replay).outcome = outcome.visible := by
  have heval : ((system Protobuf.sample defaultOptions .atomic).run (World.start 0)
      replayRun).map (fun w => w.log.head?.any fun event => event.replay.isSome) =
        some true := by
    decide +kernel
  obtain ⟨w, hrun, hlast⟩ := Option.map_eq_some_iff.mp heval
  have hreach : (system Protobuf.sample defaultOptions .atomic).ReachableBy
      (fun _ label => label.FailsProperly) w := by
    refine System.ReachableBy.run (.init (init_start defaultOptions .atomic 0)) ?_ hrun
    simp [replayRun, Label.FailsProperly]
  obtain ⟨event, hhead, hsome⟩ := (Option.any_eq_true _ _).mp hlast
  obtain ⟨⟨i, p, record⟩, hreplay⟩ := Option.isSome_iff_exists.mp hsome
  obtain ⟨earlier, hlog⟩ := List.head?_eq_some_iff.mp hhead
  rw [Event.replay_eq_some hreplay] at hlog
  have hsuffix : (.answered i p (.refused record .replay) :: earlier) <:+ w.log :=
    ⟨[], hlog.symm⟩
  obtain ⟨g, outcome, hmem, -, -, -, hhash, hvisible, -⟩ :=
    replay_faithful Protobuf.lawful_sample hreach hsuffix
  exact ⟨w, i, p, record, earlier, hrun, hlog, g, outcome, hmem, hhash, hvisible⟩

end GoFoundation.Idempotency
