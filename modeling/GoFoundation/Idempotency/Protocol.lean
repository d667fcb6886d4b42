/-
# Concurrent requests over the idempotency store

Any number of requests, from any number of server processes, share the table.
Each request is where it stands in `IdempotencyUnary`: before one of the
statements of the store, or before its handler.  A label names the request that
moves and carries what the environment chooses, such as the outcome of a handler,
the rows a cleanup selects or that a statement fails.

`Now` is the shared clock read when a request begins.  Record ids and owner
tokens are drawn fresh.  The log is history only; no step reads it.

The cleanup is the one statement that is modelled at two granularities: as one
atomic step, or as PostgreSQL runs it at READ COMMITTED, a sub-select that takes
a snapshot and a later `DELETE` by id.
-/

import GoFoundation.Library.Transition
import GoFoundation.Idempotency.Interceptor

namespace GoFoundation.Idempotency

open Library Postgres Grpc

/-- How the statement of `cleanupExpired` runs. -/
inductive Sweep
  | atomic
  | readCommitted
  deriving DecidableEq, Repr

/-- A granted reservation: the request that got it, the parameters it was
granted under and the id of the row. -/
structure Grant where
  request : Nat
  params : AcquireParams
  id : UUID
  deriving DecidableEq, Repr

namespace Grant

def scope (g : Grant) : Scope := g.params.scope

def token (g : Grant) : UUID := g.params.ownerToken

/-- The column `locked_until` a grant writes. -/
def lockedUntil (g : Grant) : Int := toTimestamptz g.params.lockedUntil

/-- The column `expires_at` a grant writes. -/
def expiresAt (g : Grant) : Int := toTimestamptz g.params.expiresAt

end Grant

variable (P : Protobuf)

/-- How a request was answered. -/
inductive Answer
  | refused (record : Record) (disposition : Disposition)
  | unavailable (err : AcquireError)
  | executed (outcome : Outcome P)

variable {P} in
/-- What `IdempotencyUnary` returns. -/
def Answer.outcome : Answer P → Outcome P
  | refused record disposition => refusal P record disposition
  | unavailable _ => storeUnavailable P
  | executed outcome => outcome

/-- Where a request stands. -/
inductive Phase
  | idle
  | /-- Before the cleanup. -/
    cleaning (p : AcquireParams)
  | /-- The sub-select of the cleanup has run, its `DELETE` has not. -/
    sweeping (p : AcquireParams) (ids : List UUID)
  | /-- Before a statement of `Acquire`. -/
    acquiring (p : AcquireParams) (pc : Pc)
  | /-- The key is reserved and the handler has not returned. -/
    executing (g : Grant)
  | /-- The handler failed transiently; before `Release`. -/
    releasing (g : Grant) (outcome : Outcome P)
  | /-- The outcome is encoded; before `Complete`. -/
    completing (g : Grant) (outcome : Outcome P) (result : Encoded)
  | done (p : AcquireParams) (g : Option Grant) (answer : Answer P)

/-- What happened, for the history. -/
inductive Event
  | granted (g : Grant) (time : Int)
  | executed (g : Grant) (outcome : Outcome P)
  | completed (g : Grant)
  | released (g : Grant)
  | answered (request : Nat) (p : AcquireParams) (answer : Answer P)

/-- The shared clock and table, the requests, the UUIDs drawn so far and the
history, newest event first. -/
structure World where
  clock : Int
  rows : List Row
  requests : Nat → Phase P
  issued : List UUID
  log : List (Event P)

/-- The steps, each by one request. -/
inductive Label
  | tick (time : Int)
  | begin (i : Nat) (call : Call) (id ownerToken : UUID)
  | cleanup (i : Nat) (ids : List UUID)
  | snapshot (i : Nat) (ids : List UUID)
  | sweep (i : Nat)
  | acquire (i : Nat)
  | handler (i : Nat) (outcome : Outcome P)
  | finish (i : Nat)
  | fail (i : Nat)

variable {P}

/-- One request moves on: the table after its statement, its new phase and what
goes into the history. -/
def World.move (w : World P) (i : Nat) (rows : List Row) (phase : Phase P)
    (events : List (Event P)) : World P :=
  { w with
    rows := rows
    requests := Function.update w.requests i phase
    log := events ++ w.log }

/-- The statement error that each statement of `Acquire` reports. -/
def Pc.error : Pc → AcquireError
  | insert => .reserve
  | find => .load
  | takeOver _ => .takeOver
  | findAgain => .load

/-- What a request does after a statement of `Acquire`. -/
def World.resume (w : World P) (i : Nat) (p : AcquireParams) : List Row × Next → World P
  | (rows, .goto pc) => w.move i rows (.acquiring p pc) []
  | (rows, .returns record .acquired) =>
      w.move i rows (.executing ⟨i, p, record.id⟩) [.granted ⟨i, p, record.id⟩ w.clock]
  | (rows, .returns record disposition) =>
      w.move i rows (.done p none (.refused record disposition))
        [.answered i p (.refused record disposition)]
  | (rows, .fails err) =>
      w.move i rows (.done p none (.unavailable err)) [.answered i p (.unavailable err)]

/-- What a request does once its handler has returned. -/
def World.handled (w : World P) (i : Nat) (g : Grant) (outcome : Outcome P) : World P :=
  if transientIdempotencyError outcome.err then
    w.move i w.rows (.releasing g outcome) [.executed g outcome]
  else
    match encodeIdempotencyResult P outcome with
    | none => w.move i w.rows (.done g.params (some g) (.executed outcome))
        [.answered i g.params (.executed outcome), .executed g outcome]
    | some result => w.move i w.rows (.completing g outcome result) [.executed g outcome]

/-- The request returns the handler's outcome; `event` is what its last
statement did to the row. -/
def World.finished (w : World P) (i : Nat) (g : Grant) (outcome : Outcome P)
    (rows : List Row) (event : List (Event P)) : World P :=
  w.move i rows (.done g.params (some g) (.executed outcome))
    (.answered i g.params (.executed outcome) :: event)

/-- The steps of the requests. -/
def next (options : Options) (mode : Sweep) (w : World P) : Label P → Option (World P)
  | .tick time => if w.clock ≤ time then some { w with clock := time } else none
  | .begin i call id ownerToken =>
      match w.requests i with
      | .idle =>
          if id ∉ w.issued ∧ ownerToken ∉ w.issued ∧ id ≠ ownerToken then
            some { w with
              issued := id :: ownerToken :: w.issued
              requests := Function.update w.requests i
                (.cleaning (acquireParams options call id ownerToken w.clock)) }
          else none
      | _ => none
  | .cleanup i ids =>
      match w.requests i with
      | .cleaning p =>
          if mode = .atomic ∧ SelectsExpired w.rows (toTimestamptz p.now) ids then
            some (w.move i (deleteByID ids w.rows) (.acquiring p .insert) [])
          else none
      | _ => none
  | .snapshot i ids =>
      match w.requests i with
      | .cleaning p =>
          if mode = .readCommitted ∧ SelectsExpired w.rows (toTimestamptz p.now) ids then
            some (w.move i w.rows (.sweeping p ids) [])
          else none
      | _ => none
  | .sweep i =>
      match w.requests i with
      | .sweeping p ids => some (w.move i (deleteByID ids w.rows) (.acquiring p .insert) [])
      | _ => none
  | .acquire i =>
      match w.requests i with
      | .acquiring p pc => some (w.resume i p (exec p pc w.rows))
      | _ => none
  | .handler i outcome =>
      match w.requests i with
      | .executing g => some (w.handled i g outcome)
      | _ => none
  | .finish i =>
      match w.requests i with
      | .releasing g outcome =>
          some (w.finished i g outcome (release w.rows g.id g.token)
            (if w.rows.any (ownedInProgress g.id g.token) then [.released g] else []))
      | .completing g outcome result =>
          some (w.finished i g outcome (complete w.rows g.id g.token result w.clock).1
            (if (complete w.rows g.id g.token result w.clock).2 = 1 then [.completed g] else []))
      | _ => none
  | .fail i =>
      match w.requests i with
      | .cleaning p => some (w.move i w.rows (.acquiring p .insert) [])
      | .sweeping p _ => some (w.move i w.rows (.acquiring p .insert) [])
      | .acquiring p pc =>
          some (w.move i w.rows (.done p none (.unavailable pc.error))
            [.answered i p (.unavailable pc.error)])
      | .releasing g outcome => some (w.finished i g outcome w.rows [])
      | .completing g outcome _ => some (w.finished i g outcome w.rows [])
      | _ => none

/-- Requests over an initially empty table. -/
def system (P : Protobuf) (options : Options) (mode : Sweep) :
    System (World P) (Label P) where
  init w := w.rows = [] ∧ (∀ i, w.requests i = .idle) ∧ w.log = []
  next := next options mode

/-- No request has begun and the table is empty. -/
def World.start (clock : Int) : World P := ⟨clock, [], fun _ => .idle, [], []⟩

theorem init_start (options : Options) (mode : Sweep) (clock : Int) :
    (system P options mode).init (World.start clock) := ⟨rfl, fun _ => rfl, rfl⟩

/-! ## What one request can do -/

/-- A move of request `i`: its label, the phase it leaves, the phase it enters,
the table after its statement and the new events.  A failed statement changes
nothing. -/
inductive Moves (mode : Sweep) (w : World P) (i : Nat) :
    Label P → Phase P → Phase P → List Row → List (Event P) → Prop
  | cleanup {p ids} (hmode : mode = .atomic)
      (hsel : SelectsExpired w.rows (toTimestamptz p.now) ids) :
      Moves mode w i (.cleanup i ids) (.cleaning p) (.acquiring p .insert)
        (deleteByID ids w.rows) []
  | snapshot {p ids} (hmode : mode = .readCommitted)
      (hsel : SelectsExpired w.rows (toTimestamptz p.now) ids) :
      Moves mode w i (.snapshot i ids) (.cleaning p) (.sweeping p ids) w.rows []
  | sweep {p ids} :
      Moves mode w i (.sweep i) (.sweeping p ids) (.acquiring p .insert)
        (deleteByID ids w.rows) []
  | inserted {p} (hscope : ∀ row ∈ w.rows, row.scope ≠ p.scope)
      (hid : ∀ row ∈ w.rows, row.id ≠ p.id) :
      Moves mode w i (.acquire i) (.acquiring p .insert) (.executing ⟨i, p, p.id⟩)
        (w.rows ++ [reservation p]) [.granted ⟨i, p, p.id⟩ w.clock]
  | conflicted {p row} (hrow : row ∈ w.rows) (hscope : row.scope = p.scope) :
      Moves mode w i (.acquire i) (.acquiring p .insert) (.acquiring p .find) w.rows []
  | violated {p row} (hrow : row ∈ w.rows) (hid : row.id = p.id) :
      Moves mode w i (.acquire i) (.acquiring p .insert)
        (.done p none (.unavailable .reserve)) w.rows [.answered i p (.unavailable .reserve)]
  | found {p row} (hrow : row ∈ w.rows) (hscope : row.scope = p.scope)
      (hdue : takeOverDue row.toRecord p.now = true) :
      Moves mode w i (.acquire i) (.acquiring p .find) (.acquiring p (.takeOver row.id))
        w.rows []
  | tookOver {p id row} (hrow : row ∈ w.rows) (hcond : takeOverCond p id row = true) :
      Moves mode w i (.acquire i) (.acquiring p (.takeOver id)) (.executing ⟨i, p, id⟩)
        (Table.updateWhere (takeOverCond p id) (takeOverSet p) w.rows)
        [.granted ⟨i, p, id⟩ w.clock]
  | missed {p id} (hnone : ∀ row ∈ w.rows, takeOverCond p id row = false) :
      Moves mode w i (.acquire i) (.acquiring p (.takeOver id)) (.acquiring p .findAgain)
        w.rows []
  | refused {p pc row} (hrow : row ∈ w.rows) (hscope : row.scope = p.scope)
      (hpc : pc = .findAgain ∨ pc = .find ∧ takeOverDue row.toRecord p.now = false) :
      Moves mode w i (.acquire i) (.acquiring p pc)
        (.done p none (.refused row.toRecord (classify p row.toRecord))) w.rows
        [.answered i p (.refused row.toRecord (classify p row.toRecord))]
  | vanished {p pc} (hpc : pc = .find ∨ pc = .findAgain)
      (hnone : ∀ row ∈ w.rows, row.scope ≠ p.scope) :
      Moves mode w i (.acquire i) (.acquiring p pc) (.done p none (.unavailable .load))
        w.rows [.answered i p (.unavailable .load)]
  | handledTransient {g outcome} (htrans : transientIdempotencyError outcome.err = true) :
      Moves mode w i (.handler i outcome) (.executing g) (.releasing g outcome) w.rows
        [.executed g outcome]
  | handledUnencodable {g outcome} (htrans : transientIdempotencyError outcome.err = false)
      (hencode : encodeIdempotencyResult P outcome = none) :
      Moves mode w i (.handler i outcome) (.executing g)
        (.done g.params (some g) (.executed outcome)) w.rows
        [.answered i g.params (.executed outcome), .executed g outcome]
  | handled {g outcome result} (htrans : transientIdempotencyError outcome.err = false)
      (hencode : encodeIdempotencyResult P outcome = some result) :
      Moves mode w i (.handler i outcome) (.executing g) (.completing g outcome result)
        w.rows [.executed g outcome]
  | released {g outcome row} (hrow : row ∈ w.rows)
      (howned : ownedInProgress g.id g.token row = true) :
      Moves mode w i (.finish i) (.releasing g outcome)
        (.done g.params (some g) (.executed outcome)) (release w.rows g.id g.token)
        [.answered i g.params (.executed outcome), .released g]
  | releaseMissed {g outcome}
      (hnone : ∀ row ∈ w.rows, ownedInProgress g.id g.token row = false) :
      Moves mode w i (.finish i) (.releasing g outcome)
        (.done g.params (some g) (.executed outcome)) w.rows
        [.answered i g.params (.executed outcome)]
  | completed {g outcome result} (hone : w.rows.countP (ownedInProgress g.id g.token) = 1) :
      Moves mode w i (.finish i) (.completing g outcome result)
        (.done g.params (some g) (.executed outcome))
        (complete w.rows g.id g.token result w.clock).1
        [.answered i g.params (.executed outcome), .completed g]
  | completeLost {g outcome result}
      (hone : w.rows.countP (ownedInProgress g.id g.token) ≠ 1) :
      Moves mode w i (.finish i) (.completing g outcome result)
        (.done g.params (some g) (.executed outcome))
        (complete w.rows g.id g.token result w.clock).1
        [.answered i g.params (.executed outcome)]
  | cleanupFailed {p} :
      Moves mode w i (.fail i) (.cleaning p) (.acquiring p .insert) w.rows []
  | sweepFailed {p ids} :
      Moves mode w i (.fail i) (.sweeping p ids) (.acquiring p .insert) w.rows []
  | acquireFailed {p pc} :
      Moves mode w i (.fail i) (.acquiring p pc) (.done p none (.unavailable pc.error))
        w.rows [.answered i p (.unavailable pc.error)]
  | releaseFailed {g outcome} :
      Moves mode w i (.fail i) (.releasing g outcome)
        (.done g.params (some g) (.executed outcome)) w.rows
        [.answered i g.params (.executed outcome)]
  | completeFailed {g outcome result} :
      Moves mode w i (.fail i) (.completing g outcome result)
        (.done g.params (some g) (.executed outcome)) w.rows
        [.answered i g.params (.executed outcome)]

/-- Every step: time passes, a request begins, or a request moves. -/
inductive Step (options : Options) (mode : Sweep) (w : World P) : Label P → World P → Prop
  | tick {time} (hle : w.clock ≤ time) :
      Step options mode w (.tick time) { w with clock := time }
  | begin {i call id ownerToken} (hidle : w.requests i = .idle) (hid : id ∉ w.issued)
      (htoken : ownerToken ∉ w.issued) (hne : id ≠ ownerToken) :
      Step options mode w (.begin i call id ownerToken) { w with
        issued := id :: ownerToken :: w.issued
        requests := Function.update w.requests i
          (.cleaning (acquireParams options call id ownerToken w.clock)) }
  | move {i label after rows events}
      (hmove : Moves mode w i label (w.requests i) after rows events) :
      Step options mode w label (w.move i rows after events)

/-- A return that is no grant is an answer. -/
theorem resume_returns (w : World P) (i : Nat) (p : AcquireParams) (rows : List Row)
    (record : Record) {disposition : Disposition} (hne : disposition ≠ .acquired) :
    w.resume i p (rows, .returns record disposition) =
      w.move i rows (.done p none (.refused record disposition))
        [.answered i p (.refused record disposition)] := by
  cases disposition with
  | acquired => exact absurd rfl hne
  | replay | conflict | inProgress => rfl

/-- Resuming `Acquire` after one statement is one of the moves above. -/
theorem moves_resume (mode : Sweep) (w : World P) (i : Nat) (p : AcquireParams) (pc : Pc) :
    ∃ after rows events, w.resume i p (exec p pc w.rows) = w.move i rows after events ∧
      Moves mode w i (.acquire i) (.acquiring p pc) after rows events := by
  cases pc with
  | insert =>
      simp only [exec]
      cases hins : insertReservation w.rows p with
      | inserted row =>
          obtain ⟨rfl, hscope, hid⟩ := insertReservation_eq_inserted hins
          exact ⟨_, _, _, rfl, .inserted hscope hid⟩
      | conflict =>
          obtain ⟨row, hrow, hscope⟩ := insertReservation_eq_conflict hins
          exact ⟨_, _, _, rfl, .conflicted hrow hscope⟩
      | uniqueViolation =>
          obtain ⟨row, hrow, hid⟩ := insertReservation_eq_uniqueViolation hins
          exact ⟨_, _, _, rfl, .violated hrow hid⟩
  | find =>
      simp only [exec]
      rcases find_cases w.rows p.scope with ⟨hnone, hfind⟩ | ⟨row, hrow, hscope, hfind⟩
      · rw [hfind]
        exact ⟨_, _, _, rfl, .vanished (.inl rfl) hnone⟩
      · rw [hfind]
        by_cases hdue : takeOverDue row.toRecord p.now = true
        · simp only [hdue, if_true]
          exact ⟨_, _, _, rfl, .found hrow hscope hdue⟩
        · simp only [hdue, Bool.false_eq_true, if_false]
          exact ⟨_, _, _, resume_returns w i p w.rows _ (classify_ne_acquired _ _),
            .refused hrow hscope (.inr ⟨rfl, by simpa using hdue⟩)⟩
  | takeOver id =>
      simp only [exec]
      rcases takeOver_cases w.rows p id with ⟨hnone, heq⟩ | ⟨row, hrow, hcond, heq⟩
      · rw [heq]
        exact ⟨_, _, _, rfl, .missed hnone⟩
      · have hid : row.id = id := (takeOverCond_iff.mp hcond).1
        rw [heq]
        subst hid
        exact ⟨_, _, _, rfl, .tookOver hrow hcond⟩
  | findAgain =>
      simp only [exec]
      rcases find_cases w.rows p.scope with ⟨hnone, hfind⟩ | ⟨row, hrow, hscope, hfind⟩
      · rw [hfind]
        exact ⟨_, _, _, rfl, .vanished (.inr rfl) hnone⟩
      · rw [hfind]
        exact ⟨_, _, _, resume_returns w i p w.rows _ (classify_ne_acquired _ _),
          .refused hrow hscope (.inl rfl)⟩

/-- What a request does with its handler's outcome is one of the moves above. -/
theorem moves_handled (mode : Sweep) (w : World P) (i : Nat) (g : Grant)
    (outcome : Outcome P) :
    ∃ after rows events, w.handled i g outcome = w.move i rows after events ∧
      Moves mode w i (.handler i outcome) (.executing g) after rows events := by
  unfold World.handled
  cases htrans : transientIdempotencyError outcome.err with
  | true => exact ⟨_, _, _, rfl, .handledTransient htrans⟩
  | false =>
      cases hencode : encodeIdempotencyResult P outcome with
      | none => exact ⟨_, _, _, rfl, .handledUnencodable htrans hencode⟩
      | some result => exact ⟨_, _, _, rfl, .handled htrans hencode⟩

/-- A `Release` that meets its row deletes it; one that does not changes nothing. -/
theorem moves_release (mode : Sweep) (w : World P) (i : Nat) (g : Grant)
    (outcome : Outcome P) :
    ∃ after rows events, w.finished i g outcome (release w.rows g.id g.token)
        (if w.rows.any (ownedInProgress g.id g.token) then [.released g] else []) =
          w.move i rows after events ∧
      Moves mode w i (.finish i) (.releasing g outcome) after rows events := by
  cases hany : w.rows.any (ownedInProgress g.id g.token) with
  | true =>
      obtain ⟨row, hrow, howned⟩ := List.any_eq_true.mp hany
      exact ⟨_, _, _, rfl, .released hrow howned⟩
  | false =>
      have hnone : ∀ row ∈ w.rows, ownedInProgress g.id g.token row = false := by
        simpa using hany
      have hrows : release w.rows g.id g.token = w.rows := Table.deleteWhere_eq_self hnone
      rw [hrows]
      exact ⟨_, _, _, rfl, .releaseMissed hnone⟩

/-- `Complete` either hits exactly one row or reports a lost reservation. -/
theorem moves_complete (mode : Sweep) (w : World P) (i : Nat) (g : Grant)
    (outcome : Outcome P) (result : Encoded) :
    ∃ after rows events,
      w.finished i g outcome (complete w.rows g.id g.token result w.clock).1
        (if (complete w.rows g.id g.token result w.clock).2 = 1 then [.completed g] else []) =
          w.move i rows after events ∧
      Moves mode w i (.finish i) (.completing g outcome result) after rows events := by
  by_cases hone : w.rows.countP (ownedInProgress g.id g.token) = 1
  · rw [if_pos (show (complete w.rows g.id g.token result w.clock).2 = 1 from hone)]
    exact ⟨_, _, _, rfl, .completed hone⟩
  · rw [if_neg (show ¬ (complete w.rows g.id g.token result w.clock).2 = 1 from hone)]
    exact ⟨_, _, _, rfl, .completeLost hone⟩

/-- A move of a request that is in the phase the move starts from is a step. -/
theorem Step.of_moves {options : Options} {mode : Sweep} {w w' : World P} {i : Nat}
    {label : Label P} {before : Phase P} (hphase : w.requests i = before)
    (hmove : ∃ after rows events, w' = w.move i rows after events ∧
      Moves mode w i label before after rows events) :
    Step options mode w label w' := by
  obtain ⟨after, rows, events, rfl, hmove⟩ := hmove
  exact .move (hphase ▸ hmove)

/-- The step function does nothing but the steps listed. -/
theorem step_of_next {options : Options} {mode : Sweep} {w w' : World P} {label : Label P}
    (hnext : (system P options mode).next w label = some w') :
    Step options mode w label w' := by
  cases label with
  | tick time =>
      simp only [system, next, Option.ite_none_right_eq_some, Option.some.injEq] at hnext
      obtain ⟨hle, rfl⟩ := hnext
      exact .tick hle
  | begin i call id ownerToken =>
      simp only [system, next] at hnext
      split at hnext
      · next hidle =>
          simp only [Option.ite_none_right_eq_some, Option.some.injEq] at hnext
          obtain ⟨⟨hid, htoken, hne⟩, rfl⟩ := hnext
          exact .begin hidle hid htoken hne
      · cases hnext
  | cleanup i ids =>
      simp only [system, next] at hnext
      split at hnext
      · next p hphase =>
          simp only [Option.ite_none_right_eq_some, Option.some.injEq] at hnext
          obtain ⟨⟨hmode, hsel⟩, rfl⟩ := hnext
          exact .of_moves hphase ⟨_, _, _, rfl, .cleanup hmode hsel⟩
      · cases hnext
  | snapshot i ids =>
      simp only [system, next] at hnext
      split at hnext
      · next p hphase =>
          simp only [Option.ite_none_right_eq_some, Option.some.injEq] at hnext
          obtain ⟨⟨hmode, hsel⟩, rfl⟩ := hnext
          exact .of_moves hphase ⟨_, _, _, rfl, .snapshot hmode hsel⟩
      · cases hnext
  | sweep i =>
      simp only [system, next] at hnext
      split at hnext
      · next p ids hphase =>
          injection hnext with hnext
          exact .of_moves hphase ⟨_, _, _, hnext.symm, .sweep⟩
      · cases hnext
  | acquire i =>
      simp only [system, next] at hnext
      split at hnext
      · next p pc hphase =>
          injection hnext with hnext
          exact .of_moves hphase (hnext ▸ moves_resume mode w i p pc)
      · cases hnext
  | handler i outcome =>
      simp only [system, next] at hnext
      split at hnext
      · next g hphase =>
          injection hnext with hnext
          exact .of_moves hphase (hnext ▸ moves_handled mode w i g outcome)
      · cases hnext
  | finish i =>
      simp only [system, next] at hnext
      split at hnext
      · next g outcome hphase =>
          injection hnext with hnext
          exact .of_moves hphase (hnext ▸ moves_release mode w i g outcome)
      · next g outcome result hphase =>
          injection hnext with hnext
          exact .of_moves hphase (hnext ▸ moves_complete mode w i g outcome result)
      · cases hnext
  | fail i =>
      simp only [system, next] at hnext
      split at hnext
      · next p hphase =>
          injection hnext with hnext
          exact .of_moves hphase ⟨_, _, _, hnext.symm, .cleanupFailed⟩
      · next p ids hphase =>
          injection hnext with hnext
          exact .of_moves hphase ⟨_, _, _, hnext.symm, .sweepFailed⟩
      · next p pc hphase =>
          injection hnext with hnext
          exact .of_moves hphase ⟨_, _, _, hnext.symm, .acquireFailed⟩
      · next g outcome hphase =>
          injection hnext with hnext
          exact .of_moves hphase ⟨_, _, _, hnext.symm, .releaseFailed⟩
      · next g outcome result hphase =>
          injection hnext with hnext
          exact .of_moves hphase ⟨_, _, _, hnext.symm, .completeFailed⟩
      · cases hnext

end GoFoundation.Idempotency
