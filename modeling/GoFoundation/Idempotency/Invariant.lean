/-
# Rows and the requests that own them

The structural invariant of every run, at either granularity of the cleanup.  It
ties each row of the table to two requests: the one that inserted it, which fixes
its id and its scope for good, and the one that holds it, whose token, payload
hash and expiry it carries.  Later results never look at how a statement is
written; they use what `Moves.mem_rows` says a move can leave in the table.
-/

import Mathlib.Tactic.Common
import GoFoundation.Idempotency.Protocol

namespace GoFoundation.Idempotency

open Library Postgres Grpc

variable {P : Protobuf}

namespace Phase

/-- The parameters a request acquires under, once it has begun. -/
def params : Phase P → Option AcquireParams
  | idle => none
  | cleaning p | sweeping p _ | acquiring p _ | done p _ _ => some p
  | executing g | releasing g _ | completing g _ _ => some g.params

/-- The reservation a request was granted. -/
def grant : Phase P → Option Grant
  | executing g | releasing g _ | completing g _ _ => some g
  | done _ g _ => g
  | idle | cleaning _ | sweeping _ _ | acquiring _ _ => none

/-- The request is past its `INSERT`. -/
def inserted : Phase P → Bool
  | idle | cleaning _ | sweeping _ _ => false
  | acquiring _ pc => pc ≠ .insert
  | executing _ | releasing _ _ | completing _ _ _ | done _ _ _ => true

end Phase

/-! ## What a move keeps -/

section Moves

variable {mode : Sweep} {w : World P} {i : Nat} {label : Label P} {before after : Phase P}
  {rows : List Row} {events : List (Event P)}

/-- A request keeps its parameters. -/
theorem Moves.params_eq (hmove : Moves mode w i label before after rows events) :
    after.params = before.params := by
  cases hmove <;> rfl

/-- A request that is past its `INSERT` stays past it. -/
theorem Moves.inserted_of (hmove : Moves mode w i label before after rows events)
    (hins : before.inserted = true) : after.inserted = true := by
  cases hmove <;> simp_all [Phase.inserted]

/-- A request keeps its grant. -/
theorem Moves.grant_of (hmove : Moves mode w i label before after rows events) {g : Grant}
    (hgrant : before.grant = some g) : after.grant = some g := by
  cases hmove <;> simp_all [Phase.grant]

/-- A grant is old, or it is being made to the request that moves. -/
theorem Moves.grant_cases (hmove : Moves mode w i label before after rows events) {g : Grant}
    (hgrant : after.grant = some g) :
    before.grant = some g ∨
      (before.grant = none ∧ g.request = i ∧ before.params = some g.params ∧
        events = [.granted g w.clock]) := by
  cases hmove <;> simp_all [Phase.grant, Phase.params] <;> subst hgrant <;> simp

/-- A grant is recorded only by the move that makes it. -/
theorem Moves.granted_mem (hmove : Moves mode w i label before after rows events) {g : Grant}
    {time : Int} (hmem : .granted g time ∈ events) :
    before.grant = none ∧ after.grant = some g ∧ g.request = i ∧ time = w.clock ∧
      events = [.granted g w.clock] := by
  cases hmove <;> simp_all [Phase.grant]

/-- Every row after a move was there before, or is a fresh reservation, a row
taken over, or a row its owner completed. -/
theorem Moves.mem_rows (hmove : Moves mode w i label before after rows events) {row : Row}
    (hrow : row ∈ rows) :
    row ∈ w.rows ∨
    (∃ p, before = .acquiring p .insert ∧ after = .executing ⟨i, p, p.id⟩ ∧
      row = reservation p) ∨
    (∃ p id old, before = .acquiring p (.takeOver id) ∧ after = .executing ⟨i, p, id⟩ ∧
      old ∈ w.rows ∧ takeOverCond p id old = true ∧ row = takeOverSet p old) ∨
    (∃ g outcome result old, before = .completing g outcome result ∧ old ∈ w.rows ∧
      ownedInProgress g.id g.token old = true ∧ row = completeSet result w.clock old) := by
  cases hmove with
  | cleanup hmode hsel | sweep => exact .inl (mem_deleteByID.mp hrow).1
  | inserted hscope hid =>
      rcases List.mem_append.mp hrow with hold | hnew
      · exact .inl hold
      · exact .inr (.inl ⟨_, rfl, rfl, List.mem_singleton.mp hnew⟩)
  | tookOver hold hcond =>
      rcases Table.mem_updateWhere.mp hrow with ⟨old, hmem, hcond', rfl⟩ | ⟨hmem, -⟩
      · exact .inr (.inr (.inl ⟨_, _, old, rfl, rfl, hmem, hcond', rfl⟩))
      · exact .inl hmem
  | released hold howned => exact .inl (Table.mem_deleteWhere.mp hrow).1
  | completed hone | completeLost hone =>
      rcases Table.mem_updateWhere.mp hrow with ⟨old, hmem, howned, rfl⟩ | ⟨hmem, -⟩
      · exact .inr (.inr (.inr ⟨_, _, _, old, rfl, hmem, howned, rfl⟩))
      · exact .inl hmem
  | _ => exact .inl hrow

/-- Ids and scopes stay unique. -/
theorem Moves.nodup (hmove : Moves mode w i label before after rows events)
    (hids : (w.rows.map Row.id).Nodup) (hscopes : (w.rows.map Row.scope).Nodup) :
    (rows.map Row.id).Nodup ∧ (rows.map Row.scope).Nodup := by
  cases hmove with
  | cleanup hmode hsel | sweep | released hold howned =>
      exact ⟨Table.nodup_map_deleteWhere hids, Table.nodup_map_deleteWhere hscopes⟩
  | inserted hscope hid =>
      exact ⟨Table.nodup_map_append hids hid, Table.nodup_map_append hscopes hscope⟩
  | tookOver hold hcond =>
      rw [Table.map_updateWhere _ (takeOverSet_id _), Table.map_updateWhere _ (takeOverSet_scope _)]
      exact ⟨hids, hscopes⟩
  | completed hone | completeLost hone =>
      rw [complete, Table.map_updateWhere _ (completeSet_id _ _),
        Table.map_updateWhere _ (completeSet_scope _ _)]
      exact ⟨hids, hscopes⟩
  | _ => exact ⟨hids, hscopes⟩

end Moves

/-! ## The invariant -/

/-- Some request that is past its `INSERT` was begun with this id and scope. -/
def Created (w : World P) (id : UUID) (scope : Scope) : Prop :=
  ∃ i p, (w.requests i).params = some p ∧ p.id = id ∧ p.scope = scope ∧
    (w.requests i).inserted = true

/-- The row carries what the grant wrote. -/
structure Reserves (g : Grant) (row : Row) : Prop where
  id : row.id = g.id
  token : row.ownerToken = g.token
  scope : row.scope = g.scope
  requestHash : row.requestHash = g.params.requestHash
  expiresAt : row.expiresAt = g.expiresAt
  lockedUntil : row.state = .inProgress → row.lockedUntil = some g.lockedUntil

/-- The structural invariant. -/
structure Wf (options : Options) (w : World P) : Prop where
  ids : (w.rows.map Row.id).Nodup
  scopes : (w.rows.map Row.scope).Nodup
  /-- The UUIDs of a request are drawn and its instants are those of the options. -/
  params : ∀ i p, (w.requests i).params = some p →
    p.id ∈ w.issued ∧ p.ownerToken ∈ w.issued ∧ p.now ≤ w.clock ∧
      p.lockedUntil = p.now + options.lockTimeout ∧ p.expiresAt = p.now + options.ttl
  /-- No two requests share a record id or an owner token. -/
  distinct : ∀ i j p q, (w.requests i).params = some p → (w.requests j).params = some q →
    p.id = q.id ∨ p.ownerToken = q.ownerToken → i = j
  grants : ∀ i g, (w.requests i).grant = some g →
    g.request = i ∧ (w.requests i).params = some g.params
  /-- The history knows exactly the grants that requests hold. -/
  logged : ∀ g time, .granted g time ∈ w.log → (w.requests g.request).grant = some g
  created : ∀ row ∈ w.rows, Created w row.id row.scope
  targeted : ∀ i p id, w.requests i = .acquiring p (.takeOver id) → Created w id p.scope
  owned : ∀ row ∈ w.rows, ∃ g, (w.requests g.request).grant = some g ∧ Reserves g row

/-! ## Requests across a move -/

section MoveRequests

variable {mode : Sweep} {w : World P} {i : Nat} {label : Label P} {after : Phase P}
  {rows : List Row} {events : List (Event P)}

@[simp]
theorem World.move_rows : (w.move i rows after events).rows = rows := rfl

@[simp]
theorem World.move_clock : (w.move i rows after events).clock = w.clock := rfl

@[simp]
theorem World.move_log : (w.move i rows after events).log = events ++ w.log := rfl

@[simp]
theorem World.move_requests_self : (w.move i rows after events).requests i = after :=
  Function.update_self ..

theorem World.move_requests_of_ne {j : Nat} (hne : j ≠ i) :
    (w.move i rows after events).requests j = w.requests j :=
  Function.update_of_ne hne ..

theorem Moves.params_move (hmove : Moves mode w i label (w.requests i) after rows events)
    (j : Nat) : ((w.move i rows after events).requests j).params = (w.requests j).params := by
  by_cases hj : j = i
  · subst hj
    rw [World.move_requests_self, hmove.params_eq]
  · rw [World.move_requests_of_ne hj]

theorem Moves.grant_move (hmove : Moves mode w i label (w.requests i) after rows events)
    {j : Nat} {g : Grant} (hgrant : (w.requests j).grant = some g) :
    ((w.move i rows after events).requests j).grant = some g := by
  by_cases hj : j = i
  · subst hj
    rw [World.move_requests_self, hmove.grant_of hgrant]
  · rw [World.move_requests_of_ne hj, hgrant]

theorem Created.move (hmove : Moves mode w i label (w.requests i) after rows events)
    {id : UUID} {scope : Scope} (hcreated : Created w id scope) :
    Created (w.move i rows after events) id scope := by
  obtain ⟨j, p, hp, hid, hscope, hins⟩ := hcreated
  refine ⟨j, p, (hmove.params_move j).trans hp, hid, hscope, ?_⟩
  by_cases hj : j = i
  · subst hj
    rw [World.move_requests_self, hmove.inserted_of hins]
  · rw [World.move_requests_of_ne hj, hins]

/-- A take-over targets the id of a row of the scope that `find` met. -/
theorem Moves.target_row {before : Phase P} {p : AcquireParams} {id : UUID}
    (hmove : Moves mode w i label before (.acquiring p (.takeOver id)) rows events) :
    ∃ row ∈ w.rows, row.id = id ∧ row.scope = p.scope := by
  cases hmove with
  | found hrow hscope hdue => exact ⟨_, hrow, rfl, hscope⟩

end MoveRequests

/-! ## Requests across a beginning -/

/-- A request begins: it has its parameters and is before the cleanup. -/
def World.begun (w : World P) (i : Nat) (p : AcquireParams) (issued : List UUID) : World P :=
  { w with
    issued := issued
    requests := Function.update w.requests i (.cleaning p) }

section BegunRequests

variable {w : World P} {i j : Nat} {p : AcquireParams} {issued : List UUID}

@[simp]
theorem World.begun_requests_self : (w.begun i p issued).requests i = .cleaning p :=
  Function.update_self ..

theorem World.begun_requests_of_ne (hne : j ≠ i) :
    (w.begun i p issued).requests j = w.requests j :=
  Function.update_of_ne hne ..

/-- A request of the new world is an old one, or the one that begins. -/
theorem World.begun_params {q : AcquireParams}
    (hq : ((w.begun i p issued).requests j).params = some q) :
    (j ≠ i ∧ (w.requests j).params = some q) ∨ (j = i ∧ q = p) := by
  by_cases hj : j = i
  · subst hj
    rw [World.begun_requests_self] at hq
    exact .inr ⟨rfl, (Option.some.inj hq).symm⟩
  · rw [World.begun_requests_of_ne hj] at hq
    exact .inl ⟨hj, hq⟩

/-- A request that is under way is another one than the one that begins. -/
theorem ne_of_idle (hidle : w.requests i = .idle) {q : AcquireParams}
    (hq : (w.requests j).params = some q) : j ≠ i := by
  rintro rfl
  simp [hidle, Phase.params] at hq

theorem grant_begun (hidle : w.requests i = .idle) {g : Grant}
    (hg : (w.requests j).grant = some g) : ((w.begun i p issued).requests j).grant = some g := by
  have hj : j ≠ i := by
    rintro rfl
    simp [hidle, Phase.grant] at hg
  rw [World.begun_requests_of_ne hj, hg]

theorem Created.begun (hidle : w.requests i = .idle) {id : UUID} {scope : Scope}
    (hcreated : Created w id scope) : Created (w.begun i p issued) id scope := by
  obtain ⟨j, q, hq, hid, hscope, hins⟩ := hcreated
  refine ⟨j, q, ?_, hid, hscope, ?_⟩
  · rw [World.begun_requests_of_ne (ne_of_idle hidle hq), hq]
  · rw [World.begun_requests_of_ne (ne_of_idle hidle hq), hins]

end BegunRequests

/-! ## Preservation -/

namespace Wf

variable {options : Options} {mode : Sweep} {w : World P}

theorem init {w : World P} (hinit : (system P options mode).init w) : Wf options w := by
  obtain ⟨hrows, hidle, hlog⟩ := hinit
  constructor <;> simp [hrows, hidle, hlog, Phase.params, Phase.grant]

/-- An id belongs to one scope for good. -/
theorem scope_unique (h : Wf options w) {id : UUID} {scope scope' : Scope}
    (hfirst : Created w id scope) (hsecond : Created w id scope') : scope = scope' := by
  obtain ⟨i, p, hp, hid, rfl, -⟩ := hfirst
  obtain ⟨j, q, hq, hid', rfl, -⟩ := hsecond
  have hij := h.distinct i j p q hp hq (.inl (hid.trans hid'.symm))
  subst hij
  rw [hp, Option.some.injEq] at hq
  rw [hq]

/-- A token belongs to one grant. -/
theorem grant_unique (h : Wf options w) {i j : Nat} {g g' : Grant}
    (hg : (w.requests i).grant = some g) (hg' : (w.requests j).grant = some g')
    (htoken : g.token = g'.token) : g = g' := by
  have hij := h.distinct i j _ _ (h.grants i g hg).2 (h.grants j g' hg').2 (.inr htoken)
  subst hij
  exact Option.some.inj (hg.symm.trans hg')

/-- The row a take-over rewrites has the scope of the request. -/
theorem takeOver_scope (h : Wf options w) {i : Nat} {p : AcquireParams} {id : UUID}
    (hphase : w.requests i = .acquiring p (.takeOver id)) {row : Row} (hrow : row ∈ w.rows)
    (hid : row.id = id) : row.scope = p.scope :=
  h.scope_unique (hid ▸ h.created row hrow) (h.targeted i p id hphase)

/-- Before its `INSERT` the id of a request is nowhere in the table's past. -/
theorem not_created (h : Wf options w) {i : Nat} {p : AcquireParams}
    (hphase : w.requests i = .acquiring p .insert) (scope : Scope) :
    ¬ Created w p.id scope := by
  rintro ⟨j, q, hq, hid, -, hins⟩
  have hj : j = i := h.distinct j i q p hq (by rw [hphase]; rfl) (.inl hid)
  subst hj
  simp [hphase, Phase.inserted] at hins

/-- The row a request completes or releases is the row of its own grant. -/
theorem owner_eq (h : Wf options w) {i : Nat} {g : Grant}
    (hgrant : (w.requests i).grant = some g) {row : Row} (hrow : row ∈ w.rows)
    (howned : ownedInProgress g.id g.token row = true) : Reserves g row := by
  obtain ⟨g', hg', hres⟩ := h.owned row hrow
  have htoken : g'.token = g.token := hres.token.symm.trans (ownedInProgress_iff.mp howned).2.1
  exact h.grant_unique hg' hgrant htoken ▸ hres

theorem tick (h : Wf options w) {time : Int} (hle : w.clock ≤ time) :
    Wf options { w with clock := time } :=
  { h with
    params := fun i p hp => by
      obtain ⟨hid, htoken, hnow, hrest⟩ := h.params i p hp
      exact ⟨hid, htoken, hnow.trans hle, hrest⟩ }

theorem begin (h : Wf options w) {i : Nat} {call : Call} {id ownerToken : UUID}
    (hidle : w.requests i = .idle) (hid : id ∉ w.issued) (htoken : ownerToken ∉ w.issued) :
    Wf options (w.begun i (acquireParams options call id ownerToken w.clock)
      (id :: ownerToken :: w.issued)) := by
  -- A fresh UUID is not among those of an older request.
  have hfresh : ∀ j p, (w.requests j).params = some p →
      p.id ≠ id ∧ p.ownerToken ≠ ownerToken := by
    intro j p hp
    obtain ⟨hmem, hmem', -⟩ := h.params j p hp
    exact ⟨fun heq => hid (heq ▸ hmem), fun heq => htoken (heq ▸ hmem')⟩
  constructor
  case ids => exact h.ids
  case scopes => exact h.scopes
  case params =>
    intro j p hp
    rcases World.begun_params hp with ⟨-, hold⟩ | ⟨-, rfl⟩
    · obtain ⟨hmem, hmem', hrest⟩ := h.params j p hold
      exact ⟨List.mem_cons_of_mem _ (List.mem_cons_of_mem _ hmem),
        List.mem_cons_of_mem _ (List.mem_cons_of_mem _ hmem'), hrest⟩
    · exact ⟨List.mem_cons_self, List.mem_cons_of_mem _ List.mem_cons_self, le_rfl, rfl, rfl⟩
  case distinct =>
    intro j k p q hp hq hsame
    rcases World.begun_params hp with ⟨hj, hold⟩ | ⟨hj, rfl⟩ <;>
      rcases World.begun_params hq with ⟨hk, hold'⟩ | ⟨hk, rfl⟩
    · exact h.distinct j k p q hold hold' hsame
    · obtain ⟨hneID, hneToken⟩ := hfresh j p hold
      exact absurd hsame (not_or.mpr ⟨hneID, hneToken⟩)
    · obtain ⟨hneID, hneToken⟩ := hfresh k q hold'
      exact absurd hsame (not_or.mpr ⟨hneID.symm, hneToken.symm⟩)
    · exact hj.trans hk.symm
  case grants =>
    intro j g hg
    have hj : j ≠ i := by
      rintro rfl
      rw [World.begun_requests_self] at hg
      cases hg
    rw [World.begun_requests_of_ne hj] at hg ⊢
    exact h.grants j g hg
  case logged => exact fun g time hmem => grant_begun hidle (h.logged g time hmem)
  case created => exact fun row hrow => (h.created row hrow).begun hidle
  case targeted =>
    intro j p id' hphase
    have hj : j ≠ i := by
      rintro rfl
      rw [World.begun_requests_self] at hphase
      cases hphase
    rw [World.begun_requests_of_ne hj] at hphase
    exact (h.targeted j p id' hphase).begun hidle
  case owned =>
    intro row hrow
    obtain ⟨g, hg, hres⟩ := h.owned row hrow
    exact ⟨g, grant_begun hidle hg, hres⟩

theorem move (h : Wf options w) {i : Nat} {label : Label P} {after : Phase P}
    {rows : List Row} {events : List (Event P)}
    (hmove : Moves mode w i label (w.requests i) after rows events) :
    Wf options (w.move i rows after events) := by
  obtain ⟨hids, hscopes⟩ := hmove.nodup h.ids h.scopes
  have hcreatedOld : ∀ row ∈ w.rows, Created (w.move i rows after events) row.id row.scope :=
    fun row hrow => (h.created row hrow).move hmove
  constructor
  case ids => exact hids
  case scopes => exact hscopes
  case params =>
    intro j p hp
    exact h.params j p ((hmove.params_move j).symm.trans hp)
  case distinct =>
    intro j k p q hp hq
    exact h.distinct j k p q ((hmove.params_move j).symm.trans hp)
      ((hmove.params_move k).symm.trans hq)
  case grants =>
    intro j g hg
    rw [hmove.params_move j]
    by_cases hj : j = i
    · subst hj
      rw [World.move_requests_self] at hg
      rcases hmove.grant_cases hg with hold | ⟨-, hreq, hparams, -⟩
      · exact h.grants j g hold
      · exact ⟨hreq, hparams⟩
    · rw [World.move_requests_of_ne hj] at hg
      exact h.grants j g hg
  case logged =>
    intro g time hmem
    rcases List.mem_append.mp hmem with hnew | hold
    · obtain ⟨-, hafter, hreq, -⟩ := hmove.granted_mem hnew
      rw [hreq, World.move_requests_self, hafter]
    · exact hmove.grant_move (h.logged g time hold)
  case created =>
    intro row hrow
    rcases hmove.mem_rows hrow with hold | ⟨p, hbefore, hafter, rfl⟩ |
      ⟨p, id, old, -, -, hold, -, rfl⟩ | ⟨g, outcome, result, old, -, hold, -, rfl⟩
    · exact hcreatedOld row hold
    · refine ⟨i, p, ?_, rfl, rfl, ?_⟩
      · rw [hmove.params_move, hbefore]
        rfl
      · rw [World.move_requests_self, hafter]
        rfl
    · exact hcreatedOld old hold
    · exact hcreatedOld old hold
  case targeted =>
    intro j p id hphase
    by_cases hj : j = i
    · subst hj
      rw [World.move_requests_self] at hphase
      subst hphase
      obtain ⟨row, hrow, rfl, hscope⟩ := hmove.target_row
      exact hscope ▸ hcreatedOld row hrow
    · rw [World.move_requests_of_ne hj] at hphase
      exact (h.targeted j p id hphase).move hmove
  case owned =>
    intro row hrow
    rcases hmove.mem_rows hrow with hold | ⟨p, -, hafter, rfl⟩ |
      ⟨p, id, old, hbefore, hafter, hold, hcond, rfl⟩ |
      ⟨g, outcome, result, old, -, hold, -, rfl⟩
    · obtain ⟨g, hg, hres⟩ := h.owned row hold
      exact ⟨g, hmove.grant_move hg, hres⟩
    · refine ⟨⟨i, p, p.id⟩, ?_, ⟨rfl, rfl, rfl, rfl, rfl, fun _ => rfl⟩⟩
      rw [World.move_requests_self, hafter]
      rfl
    · have hid : old.id = id := (takeOverCond_iff.mp hcond).1
      refine ⟨⟨i, p, id⟩, ?_, ⟨hid, rfl, ?_, rfl, rfl, fun _ => rfl⟩⟩
      · rw [World.move_requests_self, hafter]
        rfl
      · exact (takeOverSet_scope p old).trans (h.takeOver_scope hbefore hold hid)
    · obtain ⟨g', hg', hres⟩ := h.owned old hold
      refine ⟨g', hmove.grant_move hg', ⟨hres.id, hres.token, hres.scope, hres.requestHash,
        hres.expiresAt, fun hstate => ?_⟩⟩
      simp [completeSet] at hstate

theorem step (h : Wf options w) {label : Label P} {w' : World P}
    (hstep : Step options mode w label w') : Wf options w' := by
  cases hstep with
  | tick hle => exact h.tick hle
  | begin hidle hid htoken hne => exact h.begin hidle hid htoken
  | move hmove => exact h.move hmove

/-- The structural invariant holds in every run. -/
theorem of_reachable (hreach : (system P options mode).Reachable w) : Wf options w :=
  hreach.invariant (fun _ hinit => init hinit) fun _ _ _ _ h hnext => h.step (step_of_next hnext)

end Wf

end GoFoundation.Idempotency
