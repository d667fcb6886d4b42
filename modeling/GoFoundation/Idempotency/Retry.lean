/-
# Retrying with one key

One client sends the same request again and again, each time after the answer to
the last one, while other clients do what they like on other scopes.  The handler
then runs once for each leading transient outcome and once more for the first
lasting one, and every later request is answered with that outcome.

The proof follows the sequence through four stages: no reservation, a handler at
work, an outcome on its way, a stored result.  What other requests do to the
table and what this sequence does to it are kept apart: a foreign move never
touches a row of the scope, unless the row has expired.

A handler here is everything inside `IdempotencyUnary`, so a request that is
answered without it is not audited either.
-/

import GoFoundation.Idempotency.Cleanup
import GoFoundation.Idempotency.Replay

namespace GoFoundation.Idempotency

open Library Postgres Grpc

variable {P : Protobuf}

/-! ## The sequence -/

/-- Request `i` belongs to the sequence. -/
def Own (S : Scope) (w : World P) (i : Nat) (p : AcquireParams) : Prop :=
  (w.requests i).params = some p ∧ p.scope = S

namespace Phase

/-- The request has been answered. -/
def isDone : Phase P → Bool
  | done _ _ _ => true
  | _ => false

/-- The request has not reached its `INSERT`, or stands before it. -/
def isWaiting : Phase P → Bool
  | cleaning _ | sweeping _ _ | acquiring _ .insert => true
  | _ => false

/-- The request met a record and is about to read it. -/
def isFinding : Phase P → Bool
  | acquiring _ .find => true
  | _ => false

/-- The outcome that a request is about to return. -/
def returning : Phase P → Option (Outcome P)
  | releasing _ outcome | completing _ outcome _ => some outcome
  | _ => none

/-- A bound on the steps a request still takes. -/
def rank : Phase P → Nat
  | idle => 0
  | cleaning _ => 8
  | sweeping _ _ => 7
  | acquiring _ .insert => 6
  | acquiring _ .find => 5
  | acquiring _ (.takeOver _) => 4
  | acquiring _ .findAgain => 3
  | executing _ => 2
  | releasing _ _ | completing _ _ _ => 1
  | done _ _ _ => 0

end Phase

/-- The discipline of a sequence with payload hash `H` on scope `S`: its requests
carry the payload and follow one another, its statements succeed, and what its
handlers return can be stored. -/
structure Orderly (S : Scope) (H : Bytes) (w : World P) (label : Label P) : Prop where
  sequential : ∀ i call id ownerToken, label = .begin i call id ownerToken → call.scope = S →
    call.requestHash = H ∧ ∀ j p, Own S w j p → (w.requests j).isDone = true
  reliable : ∀ i p, label = .fail i → ¬ Own S w i p
  encodable : ∀ i outcome p, label = .handler i outcome → Own S w i p →
    (∀ err, outcome.err = some err → (convert err).code ≠ .ok) ∧
      (transientIdempotencyError outcome.err = false →
        encodeIdempotencyResult P outcome ≠ none)

/-- The record of the scope, if there is one, has not expired. -/
def Unexpired (S : Scope) (w : World P) : Prop :=
  ∀ row ∈ w.rows, row.scope = S → w.clock < row.expiresAt

/-- Every request of the sequence is sent before the current record expires. -/
def SentUnexpired (S : Scope) (w : World P) : Label P → Prop
  | .begin _ call _ _ => call.scope = S → Unexpired S w
  | _ => True

/-! ## Its history -/

/-- The handler outcome that an event records for the scope. -/
def Event.ran (S : Scope) : Event P → Option (Outcome P)
  | executed g outcome => if g.scope = S then some outcome else none
  | _ => none

/-- The answer that an event records for the scope. -/
def Event.answerOn (S : Scope) : Event P → Option (Answer P)
  | answered _ p answer => if p.scope = S then some answer else none
  | _ => none

/-- What the handlers of the scope returned, oldest first. -/
def runs (S : Scope) (log : List (Event P)) : List (Outcome P) :=
  (log.filterMap (Event.ran S)).reverse

/-- What the requests on the scope were answered, oldest first. -/
def answers (S : Scope) (log : List (Event P)) : List (Answer P) :=
  (log.filterMap (Event.answerOn S)).reverse

/-- The handler ran for each of some transient outcomes and then at most once
more, for a lasting one.  The answers are these outcomes, unchanged and in order
(one of them may be on its way), and then replays of the lasting one. -/
def ExactlyOnce (S : Scope) (w : World P) : Prop :=
  ∃ (transients : List (Outcome P)) (lasting pending : Option (Outcome P))
    (later : List (Answer P)),
    (∀ outcome ∈ transients, transientIdempotencyError outcome.err = true) ∧
    (∀ outcome ∈ lasting, transientIdempotencyError outcome.err = false) ∧
    runs S w.log = transients ++ lasting.toList ∧
    (∀ outcome ∈ pending, ∃ i p, Own S w i p ∧ (w.requests i).returning = some outcome) ∧
    answers S w.log ++ pending.toList.map .executed =
      (runs S w.log).map .executed ++ later ∧
    ∀ answer ∈ later, ∃ outcome ∈ lasting, ∃ record,
      answer = .refused record .replay ∧ answer.outcome = outcome.visible

theorem runs_append (S : Scope) (events log : List (Event P)) :
    runs S (events ++ log) = runs S log ++ runs S events := by
  simp [runs]

theorem answers_append (S : Scope) (events log : List (Event P)) :
    answers S (events ++ log) = answers S log ++ answers S events := by
  simp [answers]

/-- The history of a sequence after some transient outcomes: what ran since and
what was answered. -/
structure Recorded (S : Scope) (w : World P) (transients ran : List (Outcome P))
    (answered : List (Answer P)) : Prop where
  transient : ∀ outcome ∈ transients, transientIdempotencyError outcome.err = true
  runs_eq : runs S w.log = transients ++ ran
  answers_eq : answers S w.log = transients.map .executed ++ answered

/-- The sequence holds the row of the scope, by a grant that is still at work. -/
structure Holding (S : Scope) (w : World P) (g : Grant) (row : Row) : Prop where
  mem : row ∈ w.rows
  reserves : Reserves g row
  inProgress : row.state = .inProgress
  scope : g.scope = S
  others : ∀ i p, Own S w i p → i ≠ g.request → (w.requests i).isDone = true

/-- The row of the scope holds the result of a lasting outcome. -/
structure Stored (S : Scope) (H : Bytes) (w : World P) (row : Row) (outcome : Outcome P) :
    Prop where
  mem : row ∈ w.rows
  scope : row.scope = S
  hash : row.requestHash = H
  completed : row.state = .completed
  result : ∃ result, Stable outcome result ∧ row.toRecord.Holds result

/-- How far a sequence has come. -/
inductive Stage (S : Scope) (H : Bytes) (w : World P) (transients : List (Outcome P)) : Prop
  | /-- No reservation. -/
    fresh (hrec : Recorded S w transients [] [])
      (hrows : ∀ row ∈ w.rows, row.scope ≠ S)
      (hown : ∀ i p, Own S w i p →
        (w.requests i).isDone = true ∨ (w.requests i).isWaiting = true)
  | /-- A handler at work. -/
    running (g : Grant) (row : Row) (hrec : Recorded S w transients [] [])
      (hhold : Holding S w g row) (hphase : w.requests g.request = .executing g)
  | /-- A transient outcome on its way. -/
    failing (g : Grant) (row : Row) (outcome : Outcome P)
      (hrec : Recorded S w transients [outcome] []) (hhold : Holding S w g row)
      (htransient : transientIdempotencyError outcome.err = true)
      (hphase : w.requests g.request = .releasing g outcome)
  | /-- A lasting outcome on its way. -/
    storing (g : Grant) (row : Row) (outcome : Outcome P) (result : Encoded)
      (hrec : Recorded S w transients [outcome] []) (hhold : Holding S w g row)
      (hstable : Stable outcome result)
      (hphase : w.requests g.request = .completing g outcome result)
  | /-- A stored result. -/
    settled (row : Row) (outcome : Outcome P) (later : List (Answer P))
      (hrec : Recorded S w transients [outcome] (.executed outcome :: later))
      (hlater : ∀ answer ∈ later, ∃ record, answer = .refused record .replay ∧
        answer.outcome = outcome.visible)
      (hstored : Stored S H w row outcome)
      (hown : ∀ i p, Own S w i p → (w.requests i).isDone = true ∨
        (w.requests i).isWaiting = true ∨ (w.requests i).isFinding = true)

/-- The invariant of a sequence. -/
structure Retrying (S : Scope) (H : Bytes) (w : World P) : Prop where
  hash : ∀ i p, Own S w i p → p.requestHash = H
  single : ∀ i j p q, Own S w i p → Own S w j q → (w.requests i).isDone = false →
    (w.requests j).isDone = false → i = j
  /-- No cleanup under way has selected the row of the scope. -/
  unselected : ∀ i p ids, w.requests i = .sweeping p ids →
    ∀ row ∈ w.rows, row.scope = S → row.id ∉ ids
  stage : ∃ transients, Stage S H w transients

/-! ## Foreign steps -/

/-- What a step leaves alone when it does not concern the scope. -/
structure Foreign (S : Scope) (w w' : World P) : Prop where
  runs_eq : runs S w'.log = runs S w.log
  answers_eq : answers S w'.log = answers S w.log
  rows : ∀ row, row.scope = S → (row ∈ w'.rows ↔ row ∈ w.rows)
  requests : ∀ i p, Own S w i p → w'.requests i = w.requests i
  own : ∀ i p, Own S w' i p → Own S w i p

namespace Foreign

variable {S : Scope} {H : Bytes} {w w' : World P}

theorem recorded (hf : Foreign S w w') {transients ran : List (Outcome P)}
    {answered : List (Answer P)} (h : Recorded S w transients ran answered) :
    Recorded S w' transients ran answered :=
  ⟨h.transient, hf.runs_eq.trans h.runs_eq, hf.answers_eq.trans h.answers_eq⟩

theorem requests_eq (hf : Foreign S w w') {i : Nat} {p : AcquireParams} (hi : Own S w' i p) :
    w'.requests i = w.requests i :=
  hf.requests i p (hf.own i p hi)

theorem holding (hf : Foreign S w w') {g : Grant} {row : Row} (h : Holding S w g row) :
    Holding S w' g row where
  mem := (hf.rows row (h.reserves.scope.trans h.scope)).mpr h.mem
  reserves := h.reserves
  inProgress := h.inProgress
  scope := h.scope
  others i p hi hne := by
    rw [hf.requests_eq hi]
    exact h.others i p (hf.own i p hi) hne

/-- The request that holds the row stays where it is. -/
theorem holder (hf : Foreign S w w') {g : Grant} {row : Row} (h : Holding S w g row)
    {phase : Phase P} (hphase : w.requests g.request = phase)
    (hparams : phase.params = some g.params) : w'.requests g.request = phase := by
  rw [hf.requests g.request g.params ⟨by rw [hphase, hparams], h.scope⟩, hphase]

theorem stage (hf : Foreign S w w') {transients : List (Outcome P)}
    (h : Stage S H w transients) : Stage S H w' transients := by
  cases h with
  | fresh hrec hrows hown =>
      apply Stage.fresh (hf.recorded hrec)
      · intro row hrow hscope
        exact hrows row ((hf.rows row hscope).mp hrow) hscope
      · intro i p hi
        rw [hf.requests_eq hi]
        exact hown i p (hf.own i p hi)
  | running g row hrec hhold hphase =>
      exact .running g row (hf.recorded hrec) (hf.holding hhold) (hf.holder hhold hphase rfl)
  | failing g row outcome hrec hhold htransient hphase =>
      exact .failing g row outcome (hf.recorded hrec) (hf.holding hhold) htransient
        (hf.holder hhold hphase rfl)
  | storing g row outcome result hrec hhold hstable hphase =>
      exact .storing g row outcome result (hf.recorded hrec) (hf.holding hhold) hstable
        (hf.holder hhold hphase rfl)
  | settled row outcome later hrec hlater hstored hown =>
      have hstored' : Stored S H w' row outcome :=
        { hstored with mem := (hf.rows row hstored.scope).mpr hstored.mem }
      apply Stage.settled row outcome later (hf.recorded hrec) hlater hstored'
      intro i p hi
      rw [hf.requests_eq hi]
      exact hown i p (hf.own i p hi)

end Foreign

section Moves

variable {S : Scope} {options : Options} {mode : Sweep} {w : World P} {i : Nat}
  {label : Label P} {before after : Phase P} {rows : List Row} {events : List (Event P)}

/-- The events of a move are about the request that moves. -/
theorem Moves.events_params (hmove : Moves mode w i label before after rows events) :
    (∀ g outcome, .executed g outcome ∈ events → before.params = some g.params) ∧
      ∀ j p answer, .answered j p answer ∈ events → before.params = some p := by
  cases hmove <;> simp_all [Phase.params]

/-- A row that a move removes or rewrites has the scope of the request that moves,
or was selected by its cleanup. -/
theorem Moves.mem_rows_of_mem (hmove : Moves mode w i label (w.requests i) after rows events)
    (hwf : Wf options w) {row : Row} (hrow : row ∈ w.rows) :
    row ∈ rows ∨ (∃ p, (w.requests i).params = some p ∧ row.scope = p.scope) ∨
      (∃ (p : AcquireParams) (ids : List UUID), SelectsExpired w.rows (toTimestamptz p.now) ids ∧
        p.now ≤ w.clock ∧ row.id ∈ ids) ∨
      ∃ p ids, w.requests i = .sweeping p ids ∧ row.id ∈ ids := by
  generalize hphase : w.requests i = before at hmove
  cases hmove with
  | @cleanup p ids hmode hsel =>
      by_cases hid : row.id ∈ ids
      · obtain ⟨-, -, hnow, -⟩ := hwf.params i p (by rw [hphase]; rfl)
        exact .inr (.inr (.inl ⟨p, ids, hsel, hnow, hid⟩))
      · exact .inl (mem_deleteByID.mpr ⟨hrow, hid⟩)
  | @sweep p ids =>
      by_cases hid : row.id ∈ ids
      · exact .inr (.inr (.inr ⟨p, ids, rfl, hid⟩))
      · exact .inl (mem_deleteByID.mpr ⟨hrow, hid⟩)
  | inserted hscope hid => exact .inl (List.mem_append_left _ hrow)
  | @tookOver p id old hold hcond =>
      by_cases hcond' : takeOverCond p id row = true
      · exact .inr (.inl ⟨p, rfl,
          hwf.takeOver_scope hphase hrow (takeOverCond_iff.mp hcond').1⟩)
      · exact .inl (Table.mem_updateWhere.mpr (.inr ⟨hrow, by simpa using hcond'⟩))
  | @released g outcome old hold howned =>
      by_cases howned' : ownedInProgress g.id g.token row = true
      · exact .inr (.inl ⟨g.params, rfl,
          (hwf.owner_eq (by rw [hphase]; rfl) hrow howned').scope⟩)
      · exact .inl (Table.mem_deleteWhere.mpr ⟨hrow, by simpa using howned'⟩)
  | @completed g outcome result hone | @completeLost g outcome result hone =>
      by_cases howned' : ownedInProgress g.id g.token row = true
      · exact .inr (.inl ⟨g.params, rfl,
          (hwf.owner_eq (by rw [hphase]; rfl) hrow howned').scope⟩)
      · exact .inl (Table.mem_updateWhere.mpr (.inr ⟨hrow, by simpa using howned'⟩))
  | _ => exact .inl hrow

/-- A row that a move adds or rewrites has the scope of the request that moves. -/
theorem Moves.mem_of_mem_rows (hmove : Moves mode w i label (w.requests i) after rows events)
    (hwf : Wf options w) {row : Row} (hrow : row ∈ rows) :
    row ∈ w.rows ∨ ∃ p, (w.requests i).params = some p ∧ row.scope = p.scope := by
  rcases hmove.mem_rows hrow with hold | ⟨p, hbefore, -, rfl⟩ |
    ⟨p, id, old, hbefore, -, hold, hcond, rfl⟩ |
    ⟨g, outcome, result, old, hbefore, hold, howned, rfl⟩
  · exact .inl hold
  · exact .inr ⟨p, by rw [hbefore]; rfl, rfl⟩
  · exact .inr ⟨p, by rw [hbefore]; rfl,
      (takeOverSet_scope p old).trans
        (hwf.takeOver_scope hbefore hold (takeOverCond_iff.mp hcond).1)⟩
  · exact .inr ⟨g.params, by rw [hbefore]; rfl,
      (hwf.owner_eq (by rw [hbefore]; rfl) hold howned).scope⟩

end Moves

/-- A row that has not expired is not selected by a cleanup. -/
theorem Unexpired.not_selected {S : Scope} {options : Options} {w : World P}
    (hlive : Unexpired S w) (hwf : Wf options w) {row : Row} (hrow : row ∈ w.rows)
    (hscope : row.scope = S) {now : Int} (hnow : now ≤ w.clock) {ids : List UUID}
    (hsel : SelectsExpired w.rows (toTimestamptz now) ids) : row.id ∉ ids := by
  intro hid
  obtain ⟨row', hrow', hid', hexp⟩ := hsel.2.1 row.id hid
  have hsame : row' = row := Table.eq_of_key_eq hwf.ids hrow' hrow hid'
  have hlt := hlive row hrow hscope
  have hcut := toTimestamptz_le now
  rw [hsame] at hexp
  omega

namespace Retrying

variable {S : Scope} {H : Bytes} {options : Options} {mode : Sweep} {w : World P} {i : Nat}
  {label : Label P} {after : Phase P} {rows : List Row} {events : List (Event P)}

/-- A row of the scope survives the moves of other requests, and the cleanups of
its own. -/
theorem mem_rows (h : Retrying S H w) (hwf : Wf options w) (hlive : Unexpired S w)
    (hmove : Moves mode w i label (w.requests i) after rows events) {row : Row}
    (hrow : row ∈ w.rows) (hscope : row.scope = S) :
    row ∈ rows ∨ ∃ p, Own S w i p := by
  rcases hmove.mem_rows_of_mem hwf hrow with hmem | ⟨p, hp, heq⟩ |
    ⟨p, ids, hsel, hnow, hid⟩ | ⟨p, ids, hphase, hid⟩
  · exact .inl hmem
  · exact .inr ⟨p, hp, heq.symm.trans hscope⟩
  · exact absurd hid (hlive.not_selected hwf hrow hscope hnow hsel)
  · exact absurd hid (h.unselected i p ids hphase row hrow hscope)

/-- A move of a request on another scope leaves the sequence alone. -/
theorem foreign (h : Retrying S H w) (hwf : Wf options w) (hlive : Unexpired S w)
    (hmove : Moves mode w i label (w.requests i) after rows events)
    (hforeign : ∀ p, ¬ Own S w i p) : Foreign S w (w.move i rows after events) where
  runs_eq := by
    rw [World.move_log, runs_append, List.append_right_eq_self, runs, List.reverse_eq_nil_iff,
      List.filterMap_eq_nil_iff]
    intro event hmem
    cases event with
    | executed g outcome =>
        exact if_neg fun hscope => hforeign g.params ⟨hmove.events_params.1 g outcome hmem, hscope⟩
    | _ => rfl
  answers_eq := by
    rw [World.move_log, answers_append, List.append_right_eq_self, answers, List.reverse_eq_nil_iff,
      List.filterMap_eq_nil_iff]
    intro event hmem
    cases event with
    | answered j p answer =>
        exact if_neg fun hscope => hforeign p ⟨hmove.events_params.2 j p answer hmem, hscope⟩
    | _ => rfl
  rows row hscope := by
    constructor
    · intro hrow
      rcases hmove.mem_of_mem_rows hwf hrow with hmem | ⟨p, hp, heq⟩
      · exact hmem
      · exact absurd ⟨hp, heq.symm.trans hscope⟩ (hforeign p)
    · intro hrow
      exact (h.mem_rows hwf hlive hmove hrow hscope).resolve_right fun ⟨p, hp⟩ => hforeign p hp
  requests j p hj := by
    have hne : j ≠ i := fun heq => hforeign p (heq ▸ hj)
    exact World.move_requests_of_ne hne
  own j p hj := ⟨(hmove.params_move j).symm.trans hj.1, hj.2⟩

/-- Whoever moves, no cleanup comes to hold the id of a row of the scope. -/
theorem unselected_move (h : Retrying S H w) (hwf : Wf options w) (hcreated : SelectsCreated w)
    (hlive : Unexpired S w)
    (hmove : Moves mode w i label (w.requests i) after rows events) (j : Nat)
    (p : AcquireParams) (ids : List UUID)
    (hphase : (w.move i rows after events).requests j = .sweeping p ids) (row : Row)
    (hrow : row ∈ rows) (hscope : row.scope = S) : row.id ∉ ids := by
  by_cases hj : j = i
  · subst hj
    rw [World.move_requests_self] at hphase
    subst hphase
    obtain ⟨hsel, hrows⟩ := hmove.sweeping_after
    obtain ⟨-, -, hnow, -⟩ := hwf.params j p (hmove.params_eq.symm.trans rfl)
    exact hlive.not_selected hwf (hrows ▸ hrow) hscope hnow hsel
  · rw [World.move_requests_of_ne hj] at hphase
    rcases hmove.mem_rows hrow with hold | ⟨q, hbefore, -, rfl⟩ |
      ⟨q, id, old, -, -, hold, -, rfl⟩ | ⟨g, outcome, result, old, -, hold, -, rfl⟩
    · exact h.unselected j p ids hphase row hold hscope
    · exact hcreated.insert_not_mem hwf hphase hbefore
    · exact h.unselected j p ids hphase old hold hscope
    · exact h.unselected j p ids hphase old hold hscope

end Retrying

/-! ## Steps of the sequence -/

section OwnMoves

variable {S : Scope} {H : Bytes} {options : Options} {mode : Sweep} {w : World P} {i : Nat}
  {label : Label P} {before after : Phase P} {rows : List Row} {events : List (Event P)}

theorem Moves.before_not_done (hmove : Moves mode w i label before after rows events) :
    before.isDone = false := by
  cases hmove <;> rfl

theorem Recorded.move {transients ran : List (Outcome P)} {answered : List (Answer P)}
    (h : Recorded S w transients ran answered) (i : Nat) (rows : List Row) (after : Phase P)
    (events : List (Event P)) :
    Recorded S (w.move i rows after events) transients (ran ++ runs S events)
      (answered ++ answers S events) where
  transient := h.transient
  runs_eq := by rw [World.move_log, runs_append, h.runs_eq, List.append_assoc]
  answers_eq := by rw [World.move_log, answers_append, h.answers_eq, List.append_assoc]

theorem own_move_iff (hmove : Moves mode w i label (w.requests i) after rows events) {j : Nat}
    {p : AcquireParams} : Own S (w.move i rows after events) j p ↔ Own S w j p := by
  unfold Own
  rw [hmove.params_move]

/-- While one request of the sequence moves, the others have been answered. -/
theorem Retrying.others_done (h : Retrying S H w) {p : AcquireParams} (hi : Own S w i p)
    (hmove : Moves mode w i label (w.requests i) after rows events) {j : Nat}
    {q : AcquireParams} (hj : Own S (w.move i rows after events) j q) (hne : j ≠ i) :
    ((w.move i rows after events).requests j).isDone = true := by
  have hold := (own_move_iff hmove).mp hj
  rw [World.move_requests_of_ne hne]
  by_contra hdone
  rw [Bool.not_eq_true] at hdone
  exact hne (h.single j i q p hold hi hdone hmove.before_not_done)

/-- With no reservation, a request of the sequence goes on to insert one. -/
theorem Retrying.own_fresh (h : Retrying S H w) (hwf : Wf options w) {p : AcquireParams}
    (hi : Own S w i p) (horderly : Orderly S H w label)
    (hmove : Moves mode w i label (w.requests i) after rows events)
    {transients : List (Outcome P)} (hrec : Recorded S w transients [] [])
    (hrows : ∀ row ∈ w.rows, row.scope ≠ S) (hwaiting : (w.requests i).isWaiting = true) :
    Stage S H (w.move i rows after events) transients := by
  have hothers := fun j q => h.others_done hi hmove (j := j) (q := q)
  have hrec' := hrec.move i rows after events
  have hreliable := fun hlabel => horderly.reliable i p hlabel hi
  obtain ⟨hparams, hscope⟩ := hi
  generalize hphase : w.requests i = before at hmove hwaiting hparams
  have hkeep : after.isWaiting = true → (∀ row ∈ rows, row ∈ w.rows) →
      events = [] → Stage S H (w.move i rows after events) transients := by
    intro hafter hsub hevents
    subst hevents
    refine .fresh hrec' (fun row hrow => hrows row (hsub row hrow)) ?_
    intro j q hj
    by_cases hne : j = i
    · subst hne
      exact .inr (by rw [World.move_requests_self, hafter])
    · exact .inl (hothers j q hj hne)
  cases hmove with
  | cleanup hmode hsel | sweep => exact hkeep rfl (fun row hrow => (mem_deleteByID.mp hrow).1) rfl
  | snapshot hmode hsel => exact hkeep rfl (fun row hrow => hrow) rfl
  | @inserted q hfree hid =>
      obtain rfl : q = p := Option.some.inj hparams
      refine .running ⟨i, q, q.id⟩ (reservation q) hrec' ?_ World.move_requests_self
      exact ⟨by simp, ⟨rfl, rfl, rfl, rfl, rfl, fun _ => rfl⟩, rfl, hscope, hothers⟩
  | @conflicted q row hrow hq =>
      obtain rfl : q = p := Option.some.inj hparams
      exact absurd (hq.trans hscope) (hrows row hrow)
  | violated hrow hid =>
      exact absurd (hid ▸ hwf.created _ hrow) (hwf.not_created hphase _)
  | cleanupFailed | sweepFailed | acquireFailed => exact absurd rfl hreliable
  | refused hrow hq hpc => rcases hpc with rfl | ⟨rfl, -⟩ <;> cases hwaiting
  | vanished hpc hnone => rcases hpc with rfl | rfl <;> cases hwaiting
  | _ => cases hwaiting

/-- A handler at work returns an outcome, transient or to be stored. -/
theorem Retrying.own_running (h : Retrying S H w) {p : AcquireParams} (hi : Own S w i p)
    (horderly : Orderly S H w label)
    (hmove : Moves mode w i label (w.requests i) after rows events)
    {transients : List (Outcome P)} {g : Grant} {row : Row}
    (hrec : Recorded S w transients [] []) (hhold : Holding S w g row)
    (hphase : w.requests i = .executing g) (hrequest : g.request = i) :
    Stage S H (w.move i rows after events) transients := by
  have hothers := fun j q => h.others_done hi hmove (j := j) (q := q)
  have hrec' := hrec.move i rows after events
  have hran : ∀ outcome : Outcome P, runs S [Event.executed g outcome] = [outcome] := by
    intro outcome
    simp [runs, Event.ran, hhold.scope]
  rw [hphase] at hmove
  cases hmove with
  | @handledTransient _ outcome htransient =>
      rw [hran outcome] at hrec'
      refine .failing g row outcome hrec' ?_ htransient (hrequest ▸ World.move_requests_self)
      exact ⟨hhold.mem, hhold.reserves, hhold.inProgress, hhold.scope, hrequest ▸ hothers⟩
  | @handledUnencodable _ outcome htransient hencode =>
      exact absurd hencode ((horderly.encodable i outcome p rfl hi).2 htransient)
  | @handled _ outcome result htransient hencode =>
      rw [hran outcome] at hrec'
      refine .storing g row outcome result hrec' ?_
        ⟨hencode, htransient, (horderly.encodable i outcome p rfl hi).1⟩
        (hrequest ▸ World.move_requests_self)
      exact ⟨hhold.mem, hhold.reserves, hhold.inProgress, hhold.scope, hrequest ▸ hothers⟩

theorem Holding.owned {g : Grant} {row : Row} (h : Holding S w g row) :
    ownedInProgress g.id g.token row = true :=
  ownedInProgress_iff.mpr ⟨h.reserves.id, h.reserves.token, h.inProgress⟩

theorem Holding.row_scope {g : Grant} {row : Row} (h : Holding S w g row) : row.scope = S :=
  h.reserves.scope.trans h.scope

/-- The answer that a request with grant `g` gives is one for the scope. -/
theorem answers_of_grant {g : Grant} (hscope : g.scope = S) (i : Nat) (answer : Answer P)
    {rest : List (Event P)} (hrest : answers S rest = []) :
    answers S (.answered i g.params answer :: rest) = [answer] := by
  have hone : answers S [Event.answered i g.params answer] = [answer] := by
    simp [answers, Event.answerOn, show g.params.scope = S from hscope]
  rw [← List.singleton_append, answers_append, hrest, hone, List.nil_append]

/-- A transient outcome that has been answered joins the earlier ones. -/
theorem Recorded.absorb {transients : List (Outcome P)} {outcome : Outcome P}
    (h : Recorded S w transients [outcome] [.executed outcome])
    (htransient : transientIdempotencyError outcome.err = true) :
    Recorded S w (transients ++ [outcome]) [] [] where
  transient := by
    intro other hmem
    rcases List.mem_append.mp hmem with hold | hnew
    · exact h.transient other hold
    · exact List.mem_singleton.mp hnew ▸ htransient
  runs_eq := by rw [h.runs_eq, List.append_nil]
  answers_eq := by rw [h.answers_eq, List.map_append, List.append_nil, List.map_singleton]

/-- A transient outcome releases the reservation before it is returned. -/
theorem Retrying.own_failing (h : Retrying S H w) (hwf : Wf options w) {p : AcquireParams}
    (hi : Own S w i p) (horderly : Orderly S H w label)
    (hmove : Moves mode w i label (w.requests i) after rows events)
    {transients : List (Outcome P)} {g : Grant} {row : Row} {outcome : Outcome P}
    (hrec : Recorded S w transients [outcome] []) (hhold : Holding S w g row)
    (htransient : transientIdempotencyError outcome.err = true)
    (hphase : w.requests i = .releasing g outcome) :
    Stage S H (w.move i rows after events) (transients ++ [outcome]) := by
  have hothers := fun j q => h.others_done hi hmove (j := j) (q := q)
  have hrec' := hrec.move i rows after events
  have hreliable := fun hlabel => horderly.reliable i p hlabel hi
  rw [hphase] at hmove
  cases hmove with
  | released hrow howned =>
      rw [answers_of_grant hhold.scope i _ rfl] at hrec'
      apply Stage.fresh (hrec'.absorb htransient)
      · intro other hother hscope
        obtain ⟨hmem, hkept⟩ := Table.mem_deleteWhere.mp hother
        have hsame : other = row :=
          Table.eq_of_key_eq hwf.scopes hmem hhold.mem (hscope.trans hhold.row_scope.symm)
        rw [hsame, hhold.owned] at hkept
        cases hkept
      · intro j q hj
        by_cases hne : j = i
        · subst hne
          exact .inl (by rw [World.move_requests_self]; rfl)
        · exact .inl (hothers j q hj hne)
  | releaseMissed hnone =>
      have hmiss := hnone row hhold.mem
      rw [hhold.owned] at hmiss
      cases hmiss
  | releaseFailed => exact absurd rfl hreliable

/-- A lasting outcome is stored before it is returned. -/
theorem Retrying.own_storing (h : Retrying S H w) (hwf : Wf options w) {p : AcquireParams}
    (hi : Own S w i p) (horderly : Orderly S H w label)
    (hmove : Moves mode w i label (w.requests i) after rows events)
    {transients : List (Outcome P)} {g : Grant} {row : Row} {outcome : Outcome P}
    {result : Encoded} (hrec : Recorded S w transients [outcome] [])
    (hhold : Holding S w g row) (hstable : Stable outcome result)
    (hphase : w.requests i = .completing g outcome result) :
    Stage S H (w.move i rows after events) transients := by
  have hothers := fun j q => h.others_done hi hmove (j := j) (q := q)
  have hrec' := hrec.move i rows after events
  have hreliable := fun hlabel => horderly.reliable i p hlabel hi
  have hhash : g.params.requestHash = H :=
    h.hash i g.params ⟨by rw [hphase]; rfl, hhold.scope⟩
  rw [hphase] at hmove
  cases hmove with
  | completed hone =>
      rw [answers_of_grant hhold.scope i _ rfl] at hrec'
      apply Stage.settled (completeSet result w.clock row) outcome [] hrec' (by simp)
      · refine ⟨?_, hhold.row_scope, hhold.reserves.requestHash.trans hhash, rfl, result,
          hstable, toRecord_completeSet_holds result w.clock row⟩
        exact Table.mem_updateWhere.mpr (.inl ⟨row, hhold.mem, hhold.owned, rfl⟩)
      · intro j q hj
        by_cases hne : j = i
        · subst hne
          exact .inl (by rw [World.move_requests_self]; rfl)
        · exact .inl (hothers j q hj hne)
  | completeLost hone =>
      have hnone := Table.forall_false_of_countP_ne_one hwf.ids
        (fun _ _ hfirst hsecond => (ownedInProgress_iff.mp hfirst).1.trans
          (ownedInProgress_iff.mp hsecond).1.symm) hone row hhold.mem
      rw [hhold.owned] at hnone
      cases hnone
  | completeFailed => exact absurd rfl hreliable

/-- A request that reads an unexpired completed row of its own payload is
answered with a replay of it. -/
theorem Stored.replay (hP : P.Lawful) {row : Row} {outcome : Outcome P} {p : AcquireParams}
    (h : Stored S H w row outcome) (hhash : p.requestHash = H) :
    classify p row.toRecord = .replay ∧
      (Answer.refused row.toRecord .replay : Answer P).outcome = outcome.visible := by
  obtain ⟨result, hstable, hholds⟩ := h.result
  refine ⟨?_, replay_of_encode hP hstable.encode hstable.code_ne_ok hholds⟩
  simp [classify, h.hash, hhash, h.completed]

section Settled

variable {transients : List (Outcome P)} {row : Row} {outcome : Outcome P}
  {later : List (Answer P)}

/-- With a stored result, a request of the sequence moves on towards it. -/
theorem Stage.settled_goes
    (hrec : Recorded S w transients [outcome] (.executed outcome :: later))
    (hlater : ∀ answer ∈ later, ∃ record, answer = .refused record .replay ∧
      answer.outcome = outcome.visible)
    (hstored : Stored S H w row outcome) (hmem : row ∈ rows)
    (hafter : after.isWaiting = true ∨ after.isFinding = true)
    (hothers : ∀ j q, Own S (w.move i rows after []) j q → j ≠ i →
      ((w.move i rows after []).requests j).isDone = true) :
    Stage S H (w.move i rows after []) transients := by
  have hrec' := hrec.move i rows after []
  rw [show runs S ([] : List (Event P)) = [] from rfl,
    show answers S ([] : List (Event P)) = [] from rfl, List.append_nil, List.append_nil] at hrec'
  refine .settled row outcome later hrec' hlater { hstored with mem := hmem } ?_
  intro j q hj
  by_cases hne : j = i
  · subst hne
    rw [World.move_requests_self]
    exact .inr hafter
  · exact .inl (hothers j q hj hne)

/-- With a stored result, a request of the sequence is answered with a replay. -/
theorem Stage.settled_replays {p : AcquireParams} (hscope : p.scope = S)
    (hrec : Recorded S w transients [outcome] (.executed outcome :: later))
    (hlater : ∀ answer ∈ later, ∃ record, answer = .refused record .replay ∧
      answer.outcome = outcome.visible)
    (hstored : Stored S H w row outcome)
    (hreplay : replayIdempotencyRecord P row.toRecord = outcome.visible)
    (hothers : ∀ j q, Own S (w.move i w.rows (.done p none (.refused row.toRecord .replay))
        [.answered i p (.refused row.toRecord .replay)]) j q → j ≠ i →
      ((w.move i w.rows (.done p none (.refused row.toRecord .replay))
        [.answered i p (.refused row.toRecord .replay)]).requests j).isDone = true) :
    Stage S H (w.move i w.rows (.done p none (.refused row.toRecord .replay))
      [.answered i p (.refused row.toRecord .replay)]) transients := by
  have hrec' := hrec.move i w.rows (.done p none (.refused row.toRecord .replay))
    [.answered i p (.refused row.toRecord .replay)]
  have hanswers : answers S [Event.answered i p (.refused row.toRecord .replay)] =
      [(.refused row.toRecord .replay : Answer P)] := by
    simp [answers, Event.answerOn, hscope]
  have hruns : runs S [Event.answered i p (.refused row.toRecord .replay : Answer P)] = [] := rfl
  rw [hanswers, hruns, List.append_nil, List.cons_append] at hrec'
  refine .settled row outcome (later ++ [Answer.refused row.toRecord .replay]) hrec' ?_
    { hstored with mem := hstored.mem } ?_
  · intro answer hmem
    rcases List.mem_append.mp hmem with hold | hnew
    · exact hlater answer hold
    · obtain rfl := List.mem_singleton.mp hnew
      exact ⟨_, rfl, hreplay⟩
  · intro j q hj
    by_cases hne : j = i
    · subst hne
      exact .inl (by rw [World.move_requests_self]; rfl)
    · exact .inl (hothers j q hj hne)

/-- With a stored result, a request of the sequence goes on to replay it. -/
theorem Retrying.own_settled (hP : P.Lawful) (h : Retrying S H w) (hwf : Wf options w)
    (hlive : Unexpired S w) {p : AcquireParams} (hi : Own S w i p)
    (horderly : Orderly S H w label)
    (hmove : Moves mode w i label (w.requests i) after rows events)
    (hrec : Recorded S w transients [outcome] (.executed outcome :: later))
    (hlater : ∀ answer ∈ later, ∃ record, answer = .refused record .replay ∧
      answer.outcome = outcome.visible)
    (hstored : Stored S H w row outcome)
    (hphase : (w.requests i).isWaiting = true ∨ (w.requests i).isFinding = true) :
    Stage S H (w.move i rows after events) transients := by
  have hothers := fun j q => h.others_done hi hmove (j := j) (q := q)
  have hreliable := fun hlabel => horderly.reliable i p hlabel hi
  have hhash := h.hash i p hi
  have hunselected := h.unselected i
  have hnow : p.now ≤ w.clock := (hwf.params i p hi.1).2.2.1
  have hexpires := hlive row hstored.mem hstored.scope
  have hsame : ∀ other ∈ w.rows, other.scope = p.scope → other = row := fun other hother heq =>
    Table.eq_of_key_eq hwf.scopes hother hstored.mem
      (heq.trans (hi.2.trans hstored.scope.symm))
  have hdue : takeOverDue row.toRecord p.now = false := by
    simp [takeOverDue, hstored.completed, hnow.trans_lt hexpires]
  obtain ⟨hparams, hscope⟩ := hi
  generalize hbefore : w.requests i = before at hmove hphase hparams hunselected
  cases hmove with
  | @cleanup q ids hmode hsel =>
      obtain rfl : q = p := Option.some.inj hparams
      have hid := hlive.not_selected hwf hstored.mem hstored.scope hnow hsel
      exact Stage.settled_goes hrec hlater hstored (mem_deleteByID.mpr ⟨hstored.mem, hid⟩)
        (.inl rfl) hothers
  | snapshot hmode hsel =>
      exact Stage.settled_goes hrec hlater hstored hstored.mem (.inl rfl) hothers
  | @sweep q ids =>
      have hid := hunselected q ids rfl row hstored.mem hstored.scope
      exact Stage.settled_goes hrec hlater hstored (mem_deleteByID.mpr ⟨hstored.mem, hid⟩)
        (.inl rfl) hothers
  | @inserted q hfree hid =>
      obtain rfl : q = p := Option.some.inj hparams
      exact absurd (hstored.scope.trans hscope.symm) (hfree row hstored.mem)
  | conflicted hrow hq =>
      exact Stage.settled_goes hrec hlater hstored hstored.mem (.inr rfl) hothers
  | violated hrow hid =>
      exact absurd (hid ▸ hwf.created _ hrow) (hwf.not_created hbefore _)
  | @found q other hrow hq hdue' =>
      obtain rfl : q = p := Option.some.inj hparams
      rw [hsame other hrow hq, hdue] at hdue'
      cases hdue'
  | @refused q pc other hrow hq hpc =>
      obtain rfl : q = p := Option.some.inj hparams
      obtain rfl := hsame other hrow hq
      obtain ⟨hclass, hreplay⟩ := hstored.replay hP hhash
      rw [hclass] at hothers ⊢
      exact Stage.settled_replays hscope hrec hlater hstored hreplay hothers
  | @vanished q pc hpc hnone =>
      obtain rfl : q = p := Option.some.inj hparams
      exact absurd (hstored.scope.trans hscope.symm) (hnone row hstored.mem)
  | cleanupFailed | sweepFailed | acquireFailed => exact absurd rfl hreliable
  | _ => rcases hphase with hphase | hphase <;> cases hphase

end Settled

end OwnMoves

/-! ## A request that begins -/

section Begun

variable {S : Scope} {H : Bytes} {w : World P} {i j : Nat} {p q : AcquireParams}
  {issued : List UUID}

/-- A request of the sequence is an old one, or the one that begins. -/
theorem own_begun (hj : Own S (w.begun i p issued) j q) :
    (j ≠ i ∧ Own S w j q) ∨ (j = i ∧ q = p ∧ p.scope = S) := by
  rcases World.begun_params hj.1 with ⟨hne, hold⟩ | ⟨heq, rfl⟩
  · exact .inl ⟨hne, hold, hj.2⟩
  · exact .inr ⟨heq, rfl, hj.2⟩

/-- A request of another scope begins. -/
theorem Foreign.begun (hidle : w.requests i = .idle) (hscope : p.scope ≠ S) :
    Foreign S w (w.begun i p issued) where
  runs_eq := rfl
  answers_eq := rfl
  rows _ _ := Iff.rfl
  requests j q hj := World.begun_requests_of_ne (ne_of_idle hidle hj.1)
  own j q hj := by
    rcases own_begun hj with ⟨-, hold⟩ | ⟨-, -, heq⟩
    · exact hold
    · exact absurd heq hscope

/-- A request of the sequence begins once all before it are answered. -/
theorem Stage.begun {transients : List (Outcome P)} (h : Stage S H w transients)
    (hdone : ∀ j q, Own S w j q → (w.requests j).isDone = true) :
    Stage S H (w.begun i p issued) transients := by
  have hwaits : ∀ j q, Own S (w.begun i p issued) j q →
      ((w.begun i p issued).requests j).isDone = true ∨
        ((w.begun i p issued).requests j).isWaiting = true := by
    intro j q hj
    rcases own_begun hj with ⟨hji, hold⟩ | ⟨rfl, -, -⟩
    · rw [World.begun_requests_of_ne hji]
      exact .inl (hdone j q hold)
    · rw [World.begun_requests_self]
      exact .inr rfl
  -- No grant is at work: its request would be one of the sequence that is not done.
  have hnone : ∀ g : Grant, g.scope = S → ∀ phase : Phase P, w.requests g.request = phase →
      phase.params = some g.params → phase.isDone = true := by
    intro g hg phase hphase hparams
    rw [← hphase]
    exact hdone g.request g.params ⟨by rw [hphase, hparams], hg⟩
  cases h with
  | fresh hrec hrows hown => exact .fresh ⟨hrec.1, hrec.2, hrec.3⟩ hrows hwaits
  | running g row hrec hhold hphase => cases hnone g hhold.scope _ hphase rfl
  | failing g row outcome hrec hhold htransient hphase => cases hnone g hhold.scope _ hphase rfl
  | storing g row outcome result hrec hhold hstable hphase =>
      cases hnone g hhold.scope _ hphase rfl
  | settled row outcome later hrec hlater hstored hown =>
      refine .settled row outcome later ⟨hrec.1, hrec.2, hrec.3⟩ hlater
        ⟨hstored.1, hstored.2, hstored.3, hstored.4, hstored.5⟩ ?_
      intro j q hj
      exact (hwaits j q hj).imp_right .inl

end Begun

/-! ## Every run of a sequence -/

namespace Retrying

variable {S : Scope} {H : Bytes} {options : Options} {mode : Sweep} {w : World P}

theorem init (hinit : (system P options mode).init w) : Retrying S H w := by
  obtain ⟨hrows, hidle, hlog⟩ := hinit
  have hnone : ∀ i p, ¬ Own S w i p := by
    intro i p hi
    simp [Own, hidle, Phase.params] at hi
  constructor
  case hash => exact fun i p hi => absurd hi (hnone i p)
  case single => exact fun i _ p _ hi => absurd hi (hnone i p)
  case unselected => simp [hidle]
  case stage =>
    refine ⟨[], .fresh ⟨by simp, ?_, ?_⟩ (by simp [hrows]) fun i p hi => absurd hi (hnone i p)⟩
    · simp [hlog, runs]
    · simp [hlog, answers]

theorem begin (h : Retrying S H w) {i : Nat} {call : Call} {id ownerToken : UUID}
    {issued : List UUID} (horderly : Orderly S H w (.begin i call id ownerToken))
    (hidle : w.requests i = .idle) :
    Retrying S H (w.begun i (acquireParams options call id ownerToken w.clock) issued) := by
  have hdone : ∀ j q, call.scope = S → Own S w j q → (w.requests j).isDone = true :=
    fun j q hscope => (horderly.sequential i call id ownerToken rfl hscope).2 j q
  constructor
  case hash =>
    intro j q hj
    rcases own_begun hj with ⟨-, hold⟩ | ⟨-, rfl, hscope⟩
    · exact h.hash j q hold
    · exact (horderly.sequential i call id ownerToken rfl hscope).1
  case single =>
    intro j k p q hj hk hjdone hkdone
    rcases own_begun hj with ⟨hji, hold⟩ | ⟨rfl, rfl, hscope⟩ <;>
      rcases own_begun hk with ⟨hki, hold'⟩ | ⟨rfl, rfl, hscope'⟩
    · rw [World.begun_requests_of_ne hji] at hjdone
      rw [World.begun_requests_of_ne hki] at hkdone
      exact h.single j k p q hold hold' hjdone hkdone
    · rw [World.begun_requests_of_ne hji, hdone j p hscope' hold] at hjdone
      cases hjdone
    · rw [World.begun_requests_of_ne hki, hdone k q hscope hold'] at hkdone
      cases hkdone
    · rfl
  case unselected =>
    intro j p ids hphase
    exact h.unselected j p ids (sweeping_of_begun hphase)
  case stage =>
    obtain ⟨transients, hstage⟩ := h.stage
    refine ⟨transients, ?_⟩
    by_cases hscope : call.scope = S
    · exact hstage.begun fun j q => hdone j q hscope
    · have hforeign : (acquireParams options call id ownerToken w.clock).scope ≠ S := hscope
      exact (Foreign.begun hidle hforeign).stage hstage

theorem move (hP : P.Lawful) (h : Retrying S H w) (hwf : Wf options w)
    (hcreated : SelectsCreated w) (hlive : Unexpired S w) {i : Nat} {label : Label P}
    {after : Phase P} {rows : List Row} {events : List (Event P)}
    (horderly : Orderly S H w label)
    (hmove : Moves mode w i label (w.requests i) after rows events) :
    Retrying S H (w.move i rows after events) := by
  constructor
  case hash => exact fun j p hj => h.hash j p ((own_move_iff hmove).mp hj)
  case single =>
    intro j k p q hj hk hjdone hkdone
    have hold := (own_move_iff hmove).mp hj
    have hold' := (own_move_iff hmove).mp hk
    have hactive : ∀ l, ((w.move i rows after events).requests l).isDone = false →
        (w.requests l).isDone = false := by
      intro l hl
      by_cases hli : l = i
      · exact hli ▸ hmove.before_not_done
      · rwa [World.move_requests_of_ne hli] at hl
    exact h.single j k p q hold hold' (hactive j hjdone) (hactive k hkdone)
  case unselected => exact h.unselected_move hwf hcreated hlive hmove
  case stage =>
    obtain ⟨transients, hstage⟩ := h.stage
    by_cases hi : ∃ p, Own S w i p
    · obtain ⟨p, hi⟩ := hi
      have hactive := hmove.before_not_done
      cases hstage with
      | fresh hrec hrows hown =>
          have hwaiting := (hown i p hi).resolve_left (by simp [hactive])
          exact ⟨_, h.own_fresh hwf hi horderly hmove hrec hrows hwaiting⟩
      | running g row hrec hhold hphase =>
          have hrequest : g.request = i := by
            by_contra hne
            simp [hhold.others i p hi (Ne.symm hne)] at hactive
          exact ⟨_, h.own_running hi horderly hmove hrec hhold (hrequest ▸ hphase) hrequest⟩
      | failing g row outcome hrec hhold htransient hphase =>
          have hrequest : g.request = i := by
            by_contra hne
            simp [hhold.others i p hi (Ne.symm hne)] at hactive
          exact ⟨_, h.own_failing hwf hi horderly hmove hrec hhold htransient
            (hrequest ▸ hphase)⟩
      | storing g row outcome result hrec hhold hstable hphase =>
          have hrequest : g.request = i := by
            by_contra hne
            simp [hhold.others i p hi (Ne.symm hne)] at hactive
          exact ⟨_, h.own_storing hwf hi horderly hmove hrec hhold hstable
            (hrequest ▸ hphase)⟩
      | settled row outcome later hrec hlater hstored hown =>
          have hphase := (hown i p hi).resolve_left (by simp [hactive])
          exact ⟨_, h.own_settled hP hwf hlive hi horderly hmove hrec hlater hstored hphase⟩
    · exact ⟨transients, (h.foreign hwf hlive hmove fun p hp => hi ⟨p, hp⟩).stage hstage⟩

/-- The invariant holds throughout a sequence whose record does not expire. -/
theorem of_reachable (hP : P.Lawful)
    (hreach : (system P options mode).ReachableBy
      (fun w label => Orderly S H w label ∧ Unexpired S w) w) : Retrying S H w := by
  apply hreach.invariant (fun _ hinit => init hinit)
  intro w label w' hprior h hok hnext
  have hwf := Wf.of_reachable hprior.reachable
  have hcreated := SelectsCreated.of_reachable hprior.reachable
  cases step_of_next hnext with
  | tick hle =>
      obtain ⟨transients, hstage⟩ := h.stage
      refine ⟨h.hash, h.single, h.unselected, transients, Foreign.stage (w := w) ?_ hstage⟩
      exact ⟨rfl, rfl, fun _ _ => Iff.rfl, fun _ _ _ => rfl, fun _ _ hi => hi⟩
  | begin hidle hid htoken hne => exact h.begin hok.1 hidle
  | move hmove => exact h.move hP hwf hcreated hok.2 hok.1 hmove

end Retrying

/-- What the stage says about the history. -/
theorem Stage.exactlyOnce {S : Scope} {H : Bytes} {w : World P}
    {transients : List (Outcome P)} (h : Stage S H w transients) : ExactlyOnce S w := by
  cases h with
  | fresh hrec _ _ | running _ _ hrec _ _ =>
      refine ⟨transients, none, none, [], hrec.transient, by simp, hrec.runs_eq, by simp, ?_,
        by simp⟩
      simp [hrec.runs_eq, hrec.answers_eq]
  | failing g row outcome hrec hhold htransient hphase =>
      refine ⟨transients ++ [outcome], none, some outcome, [], ?_, by simp, ?_, ?_, ?_, by simp⟩
      · intro other hmem
        rcases List.mem_append.mp hmem with hold | hnew
        · exact hrec.transient other hold
        · exact List.mem_singleton.mp hnew ▸ htransient
      · simp [hrec.runs_eq]
      · rintro other ⟨⟩
        exact ⟨g.request, g.params, ⟨by rw [hphase]; rfl, hhold.scope⟩, by rw [hphase]; rfl⟩
      · simp [hrec.runs_eq, hrec.answers_eq]
  | storing g row outcome result hrec hhold hstable hphase =>
      refine ⟨transients, some outcome, some outcome, [], hrec.transient, ?_, hrec.runs_eq, ?_, ?_,
        by simp⟩
      · rintro other ⟨⟩
        exact hstable.lasting
      · rintro other ⟨⟩
        exact ⟨g.request, g.params, ⟨by rw [hphase]; rfl, hhold.scope⟩, by rw [hphase]; rfl⟩
      · simp [hrec.runs_eq, hrec.answers_eq]
  | settled row outcome later hrec hlater hstored hown =>
      obtain ⟨result, hstable, -⟩ := hstored.result
      refine ⟨transients, some outcome, none, later, hrec.transient, ?_, hrec.runs_eq, by simp, ?_,
        ?_⟩
      · rintro other ⟨⟩
        exact hstable.lasting
      · simp [hrec.runs_eq, hrec.answers_eq]
      · exact fun answer hmem => ⟨outcome, rfl, hlater answer hmem⟩

/-! ## Every request comes to an answer -/

theorem Moves.rank_lt {mode : Sweep} {w : World P} {i : Nat} {label : Label P}
    {before after : Phase P} {rows : List Row} {events : List (Event P)}
    (hmove : Moves mode w i label before after rows events) : after.rank < before.rank := by
  cases hmove with
  | refused hrow hscope hpc => rcases hpc with rfl | ⟨rfl, -⟩ <;> simp [Phase.rank]
  | vanished hpc hnone => rcases hpc with rfl | rfl <;> simp [Phase.rank]
  | @acquireFailed p pc => cases pc <;> simp [Phase.rank]
  | _ => simp [Phase.rank]

/-- A request of the sequence that has not been answered can take its next step
within the discipline, and has fewer steps to go then. -/
theorem Own.can_move {S : Scope} (H : Bytes) {options : Options} {mode : Sweep} {w : World P}
    (hwf : Wf options w) {i : Nat} {p : AcquireParams} (hi : Own S w i p)
    (hactive : (w.requests i).isDone = false) :
    ∃ label w', Orderly S H w label ∧ (system P options mode).next w label = some w' ∧
      (w'.requests i).rank < (w.requests i).rank := by
  suffices hsteps : ∃ label after rows events, Orderly S H w label ∧
      (system P options mode).next w label = some (w.move i rows after events) ∧
      Moves mode w i label (w.requests i) after rows events by
    obtain ⟨label, after, rows, events, horderly, hnext, hmove⟩ := hsteps
    refine ⟨label, _, horderly, hnext, ?_⟩
    rw [World.move_requests_self]
    exact hmove.rank_lt
  obtain ⟨hparams, -⟩ := hi
  cases hphase : w.requests i with
  | idle => simp [hphase, Phase.params] at hparams
  | done q g answer => simp [hphase, Phase.isDone] at hactive
  | cleaning q =>
      have hsel := selectsExpired_selectExpired (toTimestamptz q.now) hwf.ids
      cases mode with
      | atomic =>
          exact ⟨.cleanup i _, _, _, _, ⟨by simp, by simp, by simp⟩,
            by simp [system, next, hphase, hsel], .cleanup rfl hsel⟩
      | readCommitted =>
          exact ⟨.snapshot i _, _, _, _, ⟨by simp, by simp, by simp⟩,
            by simp [system, next, hphase, hsel], .snapshot rfl hsel⟩
  | sweeping q ids =>
      exact ⟨.sweep i, _, _, _, ⟨by simp, by simp, by simp⟩, by simp [system, next, hphase],
        .sweep⟩
  | acquiring q pc =>
      obtain ⟨after, rows, events, heq, hmove⟩ := moves_resume mode w i q pc
      exact ⟨.acquire i, after, rows, events, ⟨by simp, by simp, by simp⟩,
        by simp [system, next, hphase, heq], hmove⟩
  | executing g =>
      -- Whatever else the handler may return, it may fail with a plain error.
      let failure : Outcome P := ⟨.other, some (.plain "")⟩
      obtain ⟨after, rows, events, heq, hmove⟩ := moves_handled mode w i g failure
      refine ⟨.handler i failure, after, rows, events, ⟨by simp, by simp, ?_⟩,
        by simp [system, next, hphase, heq], hmove⟩
      rintro j outcome q ⟨⟩ -
      refine ⟨?_, ?_⟩
      · rintro err ⟨⟩
        decide
      · intro hlasting
        have htransient : transientIdempotencyError (some (.plain "")) = true := by decide
        exact absurd (htransient.symm.trans hlasting) (by decide)
  | releasing g outcome =>
      obtain ⟨after, rows, events, heq, hmove⟩ := moves_release mode w i g outcome
      exact ⟨.finish i, after, rows, events, ⟨by simp, by simp, by simp⟩,
        by simp only [system, next, hphase, heq], hmove⟩
  | completing g outcome result =>
      obtain ⟨after, rows, events, heq, hmove⟩ := moves_complete mode w i g outcome result
      exact ⟨.finish i, after, rows, events, ⟨by simp, by simp, by simp⟩,
        by simp only [system, next, hphase, heq], hmove⟩

/-- As long as the record does not expire while the sequence is at work, the
handler runs exactly once up to transient failures, and every request of the
sequence can go on to its answer. -/
theorem retry_exactly_once (hP : P.Lawful) {S : Scope} {H : Bytes} {options : Options}
    {mode : Sweep} {w : World P}
    (hreach : (system P options mode).ReachableBy
      (fun w label => Orderly S H w label ∧ Unexpired S w) w) :
    ExactlyOnce S w ∧ ∀ i p, Own S w i p → (w.requests i).isDone = false →
      ∃ label w', Orderly S H w label ∧ (system P options mode).next w label = some w' ∧
        (w'.requests i).rank < (w.requests i).rank := by
  obtain ⟨transients, hstage⟩ := (Retrying.of_reachable hP hreach).stage
  exact ⟨hstage.exactlyOnce, fun i p hi hactive =>
    hi.can_move H (Wf.of_reachable hreach.reachable) hactive⟩

/-! ## Evaluated sequences -/

/-- The discipline as a test, for runs that number their requests in order. -/
def orderlyTest (S : Scope) (H : Bytes) (w : World P) : Label P → Bool
  | .begin i call _ _ => i ≤ w.issued.length && (call.scope ≠ S || (call.requestHash = H &&
      (List.range w.issued.length).all fun j =>
        (w.requests j).params.all (fun p => p.scope ≠ S) || (w.requests j).isDone))
  | .fail _ => false
  | .handler _ outcome => outcome.err.all (fun err => (convert err).code ≠ .ok) &&
      (transientIdempotencyError outcome.err || (encodeIdempotencyResult P outcome).isSome)
  | _ => true

/-- A test that the record of the scope has not expired. -/
def unexpiredTest (S : Scope) (w : World P) : Bool :=
  w.rows.all fun row => row.scope ≠ S || w.clock < row.expiresAt

theorem unexpired_of_test {S : Scope} {w : World P} (htest : unexpiredTest S w = true) :
    Unexpired S w := by
  intro row hrow hscope
  have hall := List.all_eq_true.mp htest row hrow
  simpa [hscope] using hall

section Restricted

variable {S : Scope} {H : Bytes} {options : Options} {mode : Sweep}
  {guard : World P → Label P → Bool} {w : World P}

/-- Where requests are numbered in order, those past the count are idle. -/
theorem idle_of_restrict
    (hguard : ∀ w i call id ownerToken, guard w (.begin i call id ownerToken) = true →
      i ≤ w.issued.length)
    (hreach : ((system P options mode).restrict guard).Reachable w) (j : Nat)
    (hj : w.issued.length ≤ j) : w.requests j = .idle := by
  revert j
  refine hreach.invariant (I := fun w => ∀ j, w.issued.length ≤ j → w.requests j = .idle) ?_ ?_
  · exact fun w hinit j _ => hinit.2.1 j
  · intro w label w' _ hidle hnext j hj
    obtain ⟨htest, hstep⟩ := Option.ite_none_right_eq_some.mp hnext
    cases step_of_next hstep with
    | tick hle => exact hidle j hj
    | @begin i call id ownerToken hi hid htoken hne =>
        have hle := hguard w i call id ownerToken htest
        simp only [List.length_cons] at hj
        simp only [Function.update_of_ne (show j ≠ i by omega)]
        exact hidle j (by omega)
    | @move i _ after rows events hmove =>
        by_cases hji : j = i
        · subst hji
          have hold := hidle j hj
          rw [hold] at hmove
          cases hmove
        · rw [World.move_requests_of_ne hji]
          exact hidle j hj

theorem orderly_of_test
    (hguard : ∀ w label, guard w label = true → orderlyTest S H w label = true)
    {label : Label P} (hreach : ((system P options mode).restrict guard).Reachable w)
    (htest : orderlyTest S H w label = true) : Orderly S H w label := by
  constructor
  case sequential =>
    rintro i call id ownerToken rfl hscope
    simp only [orderlyTest, Bool.and_eq_true, Bool.or_eq_true, decide_eq_true_eq] at htest
    obtain ⟨hhash, hall⟩ := htest.2.resolve_left (by simp [hscope])
    refine ⟨hhash, fun j p hj => ?_⟩
    have hbegun : j < w.issued.length := by
      by_contra hge
      have hidle := idle_of_restrict (fun w i call id ownerToken h => by
        have horderly := hguard w _ h
        simp only [orderlyTest, Bool.and_eq_true, decide_eq_true_eq] at horderly
        exact horderly.1) hreach j (by omega)
      simp [Own, hidle, Phase.params] at hj
    have hone := List.all_eq_true.mp hall j (List.mem_range.mpr hbegun)
    simpa [hj.1, hj.2] using hone
  case reliable =>
    rintro i p rfl
    cases htest
  case encodable =>
    rintro i outcome p rfl -
    simp only [orderlyTest, Bool.and_eq_true, Bool.or_eq_true] at htest
    refine ⟨fun err herr => ?_, fun hlasting hnone => ?_⟩
    · simpa [herr] using htest.1
    · simp [hlasting, hnone] at htest

end Restricted

/-- Three requests of a client: the first attempt fails transiently, the second
succeeds, and the third replays it, with other traffic in between. -/
def retryRun : List (Label Protobuf.sample) :=
  let call : Call := ⟨.ofNat 1, "/rbac.v1.RBACService/AssignRole", [7], [9]⟩
  let other : Call := ⟨.ofNat 2, "/rbac.v1.RBACService/AssignRole", [7], [9]⟩
  [.begin 0 call (.ofNat 10) (.ofNat 11), .cleanup 0 [], .acquire 0,
    .begin 1 other (.ofNat 20) (.ofNat 21), .handler 0 ⟨.other, some .deadlineExceeded⟩,
    .cleanup 1 [], .finish 0, .begin 2 call (.ofNat 30) (.ofNat 31), .cleanup 2 [], .acquire 1,
    .acquire 2, .handler 2 ⟨.message (), none⟩, .finish 2, .tick 60000000000,
    .begin 3 call (.ofNat 40) (.ofNat 41), .cleanup 3 [], .acquire 3, .acquire 3]

/-- The scope of the client's requests. -/
def retryScope : Scope := ⟨.ofNat 1, "/rbac.v1.RBACService/AssignRole", [7]⟩

theorem retry_exactly_once_retryRun :
    ∃ w, ((system Protobuf.sample defaultOptions .atomic).restrict fun w label =>
        orderlyTest retryScope [9] w label && unexpiredTest retryScope w).run
          (World.start 0) retryRun = some w ∧
      (answers retryScope w.log).length = 3 ∧ (runs retryScope w.log).length = 2 ∧
      ExactlyOnce retryScope w := by
  have heval : (((system Protobuf.sample defaultOptions .atomic).restrict fun w label =>
      orderlyTest retryScope [9] w label && unexpiredTest retryScope w).run
        (World.start 0) retryRun).map (fun w =>
          ((answers retryScope w.log).length, (runs retryScope w.log).length)) =
        some (3, 2) := by
    decide +kernel
  obtain ⟨w, hrun, hlengths⟩ := Option.map_eq_some_iff.mp heval
  have hinit := init_start (P := Protobuf.sample) defaultOptions .atomic 0
  have hreach : (system Protobuf.sample defaultOptions .atomic).ReachableBy
      (fun w label => Orderly retryScope [9] w label ∧ Unexpired retryScope w) w := by
    refine System.ReachableBy.run_restrict (fun w label hprior htest => ?_) hinit hrun
    obtain ⟨horderly, hunexpired⟩ := Bool.and_eq_true_iff.mp htest
    exact ⟨orderly_of_test (fun w label h => (Bool.and_eq_true_iff.mp h).1) hprior horderly,
      unexpired_of_test hunexpired⟩
  exact ⟨w, hrun, congrArg Prod.fst hlengths, congrArg Prod.snd hlengths,
    (retry_exactly_once Protobuf.lawful_sample hreach).1⟩

/-- The second request is sent a nanosecond before the record expires.  Before it
reaches its `INSERT` the cleanup of another client removes the record. -/
def straddlingRun : List (Label Protobuf.sample) :=
  let call : Call := ⟨.ofNat 1, "/rbac.v1.RBACService/AssignRole", [7], [9]⟩
  let other : Call := ⟨.ofNat 2, "/rbac.v1.RBACService/AssignRole", [7], [9]⟩
  [.begin 0 call (.ofNat 10) (.ofNat 11), .cleanup 0 [], .acquire 0,
    .handler 0 ⟨.message (), none⟩, .finish 0, .tick 86399999999999,
    .begin 1 call (.ofNat 20) (.ofNat 21), .tick 86400000000000,
    .begin 2 other (.ofNat 30) (.ofNat 31), .cleanup 2 [.ofNat 10], .cleanup 1 [], .acquire 1,
    .handler 1 ⟨.message (), none⟩]

/-- A test that a request of the sequence is sent before the record expires. -/
def sentTest (S : Scope) (w : World P) : Label P → Bool
  | .begin _ call _ _ => call.scope ≠ S || unexpiredTest S w
  | _ => true

theorem sentUnexpired_of_test {S : Scope} {w : World P} {label : Label P}
    (htest : sentTest S w label = true) : SentUnexpired S w label := by
  cases label with
  | begin i call id ownerToken =>
      intro hscope
      simp only [sentTest, Bool.or_eq_true] at htest
      exact unexpired_of_test (htest.resolve_left (by simp [hscope]))
  | _ => trivial

/-- Sending every retry before the record expires is not enough. -/
theorem retry_after_cleanup_runs_again :
    ¬ ∀ w, (system Protobuf.sample defaultOptions .atomic).ReachableBy
        (fun w label => Orderly retryScope [9] w label ∧ SentUnexpired retryScope w label) w →
      ExactlyOnce retryScope w := by
  intro hall
  have heval : (((system Protobuf.sample defaultOptions .atomic).restrict fun w label =>
      orderlyTest retryScope [9] w label && sentTest retryScope w label).run
        (World.start 0) straddlingRun).map (fun w =>
          (runs retryScope w.log).map fun outcome => transientIdempotencyError outcome.err) =
        some [false, false] := by
    decide +kernel
  obtain ⟨w, hrun, hruns⟩ := Option.map_eq_some_iff.mp heval
  have hinit := init_start (P := Protobuf.sample) defaultOptions .atomic 0
  have hreach : (system Protobuf.sample defaultOptions .atomic).ReachableBy
      (fun w label => Orderly retryScope [9] w label ∧ SentUnexpired retryScope w label) w := by
    refine System.ReachableBy.run_restrict (fun w label hprior htest => ?_) hinit hrun
    obtain ⟨horderly, hsent⟩ := Bool.and_eq_true_iff.mp htest
    exact ⟨orderly_of_test (fun w label h => (Bool.and_eq_true_iff.mp h).1) hprior horderly,
      sentUnexpired_of_test hsent⟩
  obtain ⟨transients, lasting, pending, later, htransients, -, hran, -⟩ := hall w hreach
  -- Two lasting outcomes cannot be transient ones followed by at most one other.
  rw [hran, List.map_append] at hruns
  cases transients with
  | nil => cases lasting <;> simp at hruns
  | cons outcome rest =>
      have htransient := htransients outcome List.mem_cons_self
      simp [htransient] at hruns

end GoFoundation.Idempotency
