/-
# What becomes of a reservation when its request returns

After the handler `IdempotencyUnary` has three exits.  A transient failure releases
the reservation and a result that can be encoded completes it.  A result that
cannot be encoded is only logged: the request returns and its record stays in
progress, so that after the lock timeout the same key executes the handler again.

The main result is the exact condition on the handler's result under which the
record is settled when the request returns.
-/

import GoFoundation.Idempotency.Exclusivity
import GoFoundation.Idempotency.Retry

namespace GoFoundation.Idempotency

open Library Postgres Grpc

variable {P : Protobuf}

/-! ## The condition -/

/-- A handler's result that one of the first two exits takes: a transient error,
another error whose status marshals, or a message that marshals. -/
def Disposable (P : Protobuf) (outcome : Outcome P) : Prop :=
  transientIdempotencyError outcome.err = true ∨
    (∃ err, outcome.err = some err ∧ (P.marshalStatus (convert err)).isSome = true) ∨
    (outcome.err = none ∧ ∃ value, outcome.response = .message value ∧
      (P.marshal value).isSome = true)

/-- The record of the grant is completed with the encoded outcome, or deleted. -/
def Settled (w : World P) (g : Grant) (outcome : Outcome P) : Prop :=
  ∀ row ∈ w.rows, row.id = g.id → row.state = .completed ∧
    ∃ result, encodeIdempotencyResult P outcome = some result ∧ row.toRecord.Holds result

/-- The third exit is for results that neither are transient nor can be encoded. -/
theorem disposable_iff {outcome : Outcome P} :
    Disposable P outcome ↔ transientIdempotencyError outcome.err = true ∨
      (encodeIdempotencyResult P outcome).isSome = true := by
  unfold Disposable
  rcases outcome with ⟨response, err⟩
  cases err with
  | some err => simp [encodeIdempotencyResult]
  | none =>
      cases response with
      | other => simp [encodeIdempotencyResult]
      | message value => simp [encodeIdempotencyResult]

/-! ## Two invariants -/

/-- What the requests before their last statement carry, and that a record is
completed only by an owner that returns with it. -/
structure Exiting (w : World P) : Prop where
  releasing : ∀ i g outcome, w.requests i = .releasing g outcome →
    transientIdempotencyError outcome.err = true
  completing : ∀ i g outcome result, w.requests i = .completing g outcome result →
    encodeIdempotencyResult P outcome = some result
  completed : ∀ row ∈ w.rows, row.state = .completed → ∀ i g, (w.requests i).grant = some g →
    row.ownerToken = g.token → (w.requests i).isDone = true

namespace Exiting

variable {options : Options} {mode : Sweep} {w : World P}

theorem init (hinit : (system P options mode).init w) : Exiting w := by
  obtain ⟨hrows, hidle, -⟩ := hinit
  constructor <;> simp [hrows, hidle]

theorem begin (h : Exiting w) {i : Nat} {p : AcquireParams} {issued : List UUID} :
    Exiting (w.begun i p issued) := by
  constructor
  case releasing =>
    intro j g outcome hphase
    by_cases hj : j = i
    · subst hj
      simp at hphase
    · rw [World.begun_requests_of_ne hj] at hphase
      exact h.releasing j g outcome hphase
  case completing =>
    intro j g outcome result hphase
    by_cases hj : j = i
    · subst hj
      simp at hphase
    · rw [World.begun_requests_of_ne hj] at hphase
      exact h.completing j g outcome result hphase
  case completed =>
    intro row hrow hstate j g hgrant htoken
    by_cases hj : j = i
    · subst hj
      simp [Phase.grant] at hgrant
    · rw [World.begun_requests_of_ne hj] at hgrant ⊢
      exact h.completed row hrow hstate j g hgrant htoken

/-- A completed row belongs to another request than the one that moves. -/
theorem completed_move (h : Exiting w) (hwf : Wf options w) {i : Nat} {label : Label P}
    {after : Phase P} {rows : List Row} {events : List (Event P)}
    (hmove : Moves mode w i label (w.requests i) after rows events) {row : Row}
    (hrow : row ∈ w.rows) (hstate : row.state = .completed) {j : Nat} {g : Grant}
    (hgrant : ((w.move i rows after events).requests j).grant = some g)
    (htoken : row.ownerToken = g.token) :
    ((w.move i rows after events).requests j).isDone = true := by
  obtain ⟨owner, howner, hres⟩ := hwf.owned row hrow
  by_cases hj : j = i
  · subst hj
    rw [World.move_requests_self] at hgrant
    have hbefore := hmove.before_not_done
    rcases hmove.grant_cases hgrant with hold | ⟨hnone, hreq, hparams, -⟩
    · rw [h.completed row hrow hstate j g hold htoken] at hbefore
      cases hbefore
    · -- The token of the new grant is not that of an older one.
      have hsame : owner.request = j :=
        hwf.distinct owner.request j _ _ (hwf.grants _ _ howner).2 hparams
          (.inr (hres.token.symm.trans htoken))
      rw [hsame, hnone] at howner
      cases howner
  · rw [World.move_requests_of_ne hj] at hgrant ⊢
    exact h.completed row hrow hstate j g hgrant htoken

theorem move (h : Exiting w) (hwf : Wf options w) {i : Nat} {label : Label P}
    {after : Phase P} {rows : List Row} {events : List (Event P)}
    (hmove : Moves mode w i label (w.requests i) after rows events) :
    Exiting (w.move i rows after events) := by
  constructor
  case releasing =>
    intro j g outcome hphase
    by_cases hj : j = i
    · subst hj
      rw [World.move_requests_self] at hphase
      subst hphase
      generalize w.requests j = before at hmove
      cases hmove with
      | handledTransient htrans => exact htrans
    · rw [World.move_requests_of_ne hj] at hphase
      exact h.releasing j g outcome hphase
  case completing =>
    intro j g outcome result hphase
    by_cases hj : j = i
    · subst hj
      rw [World.move_requests_self] at hphase
      subst hphase
      exact hmove.completing_after.2.2.1
    · rw [World.move_requests_of_ne hj] at hphase
      exact h.completing j g outcome result hphase
  case completed =>
    intro row hrow hstate j g hgrant htoken
    rcases hmove.mem_rows hrow with hold | ⟨p, -, -, rfl⟩ | ⟨p, id, old, -, -, -, -, rfl⟩ |
      ⟨g', outcome, result, old, hbefore, hold, howned, rfl⟩
    · exact h.completed_move hwf hmove hold hstate hgrant htoken
    · simp [reservation] at hstate
    · simp [takeOverSet] at hstate
    · -- The owner completes the row and returns.
      have hgrant' : ((w.move i rows after events).requests i).grant = some g' :=
        hmove.grant_move (by rw [hbefore]; rfl)
      have htoken' : old.ownerToken = g'.token := (ownedInProgress_iff.mp howned).2.1
      obtain rfl : g' = g := (hwf.move hmove).grant_unique hgrant' hgrant
        (htoken'.symm.trans htoken)
      obtain rfl : i = j := ((hwf.move hmove).grants i g' hgrant').1.symm.trans
        ((hwf.move hmove).grants j g' hgrant).1
      rw [World.move_requests_self]
      rw [hbefore] at hmove
      cases hmove <;> rfl

theorem of_reachable (hreach : (system P options mode).Reachable w) : Exiting w := by
  apply hreach.invariant (fun _ hinit => init hinit)
  intro w label w' hprior h hnext
  cases step_of_next hnext with
  | tick hle => exact ⟨h.releasing, h.completing, h.completed⟩
  | begin hidle hid htoken hne => exact h.begin
  | move hmove => exact h.move (Wf.of_reachable hprior) hmove

end Exiting

/-! ## The step with which a request returns -/

/-- By this step request `i`, which holds the grant, returns its handler's outcome.
Its statement does not fail, and nobody took the reservation over. -/
structure Returns (options : Options) (mode : Sweep) (w : World P) (i : Nat) (g : Grant)
    (outcome : Outcome P) (w' : World P) : Prop where
  grant : (w.requests i).grant = some g
  active : (w.requests i).isDone = false
  held : ∀ row ∈ w.rows, row.id = g.id → row.ownerToken = g.token
  step : ∃ label, label ≠ .fail i ∧ (system P options mode).next w label = some w'
  returned : w'.requests i = .done g.params (some g) (.executed outcome)

section Return

variable {options : Options} {mode : Sweep} {w w' : World P} {i : Nat} {g : Grant}
  {outcome : Outcome P}

/-- The three exits. -/
theorem Moves.returned {label : Label P} {before after : Phase P} {rows : List Row}
    {events : List (Event P)} (hmove : Moves mode w i label before after rows events)
    (hlabel : label ≠ .fail i) (hafter : after = .done g.params (some g) (.executed outcome)) :
    (before = .executing g ∧ transientIdempotencyError outcome.err = false ∧
      encodeIdempotencyResult P outcome = none ∧ rows = w.rows) ∨
    (before = .releasing g outcome ∧ rows = release w.rows g.id g.token) ∨
    ∃ result, before = .completing g outcome result ∧
      rows = (complete w.rows g.id g.token result w.clock).1 ∧
      (w.rows.countP (ownedInProgress g.id g.token) = 1 → .completed g ∈ events) := by
  cases hmove with
  | handledUnencodable htrans hencode =>
      simp only [Phase.done.injEq, Option.some.injEq, Answer.executed.injEq] at hafter
      obtain ⟨-, rfl, rfl⟩ := hafter
      exact .inl ⟨rfl, htrans, hencode, rfl⟩
  | released hrow howned =>
      simp only [Phase.done.injEq, Option.some.injEq, Answer.executed.injEq] at hafter
      obtain ⟨-, rfl, rfl⟩ := hafter
      exact .inr (.inl ⟨rfl, rfl⟩)
  | releaseMissed hnone =>
      simp only [Phase.done.injEq, Option.some.injEq, Answer.executed.injEq] at hafter
      obtain ⟨-, rfl, rfl⟩ := hafter
      exact .inr (.inl ⟨rfl, (Table.deleteWhere_eq_self hnone).symm⟩)
  | @completed g' outcome' result hone =>
      simp only [Phase.done.injEq, Option.some.injEq, Answer.executed.injEq] at hafter
      obtain ⟨-, rfl, rfl⟩ := hafter
      exact .inr (.inr ⟨result, rfl, rfl, fun _ => List.mem_cons_of_mem _ List.mem_cons_self⟩)
  | @completeLost g' outcome' result hone =>
      simp only [Phase.done.injEq, Option.some.injEq, Answer.executed.injEq] at hafter
      obtain ⟨-, rfl, rfl⟩ := hafter
      exact .inr (.inr ⟨result, rfl, rfl, fun heq => absurd heq hone⟩)
  | releaseFailed | completeFailed => exact absurd rfl hlabel
  | _ => cases hafter

/-- The return takes one of the exits. -/
theorem Returns.exit (h : Returns options mode w i g outcome w') :
    (w.requests i = .executing g ∧ transientIdempotencyError outcome.err = false ∧
      encodeIdempotencyResult P outcome = none ∧ w'.rows = w.rows) ∨
    (w.requests i = .releasing g outcome ∧ w'.rows = release w.rows g.id g.token) ∨
    ∃ result, w.requests i = .completing g outcome result ∧
      w'.rows = (complete w.rows g.id g.token result w.clock).1 ∧
      (w.rows.countP (ownedInProgress g.id g.token) = 1 → .completed g ∈ w'.log) := by
  obtain ⟨label, hlabel, hnext⟩ := h.step
  have hactive := h.active
  have hreturned := h.returned
  -- A step of somebody else leaves the request where it is.
  have hstays : w'.requests i ≠ w.requests i := by
    intro hsame
    rw [← hsame, hreturned] at hactive
    cases hactive
  cases step_of_next hnext with
  | tick hle => exact absurd rfl hstays
  | @begin j call id ownerToken hidle hid htoken hne =>
      change (w.begun j _ _).requests i = _ at hreturned
      by_cases hj : i = j
      · subst hj
        rw [World.begun_requests_self] at hreturned
        cases hreturned
      · exact absurd (World.begun_requests_of_ne hj) hstays
  | @move j _ after rows events hmove =>
      by_cases hj : i = j
      · subst hj
        rw [World.move_requests_self] at hreturned
        rcases hmove.returned hlabel hreturned with hout | hrelease | ⟨result, hphase, hrows, hlog⟩
        · exact .inl hout
        · exact .inr (.inl hrelease)
        · exact .inr (.inr ⟨result, hphase, hrows, fun hone =>
            List.mem_append_left _ (hlog hone)⟩)
      · exact absurd (World.move_requests_of_ne hj) hstays

/-- Until the owner returns, its record is in progress. -/
theorem Returns.owned (h : Returns options mode w i g outcome w') (hexit : Exiting w) {row : Row}
    (hrow : row ∈ w.rows) (hid : row.id = g.id) : ownedInProgress g.id g.token row = true := by
  have htoken := h.held row hrow hid
  refine ownedInProgress_iff.mpr ⟨hid, htoken, ?_⟩
  cases hstate : row.state with
  | inProgress => rfl
  | completed =>
      have hactive := h.active
      rw [hexit.completed row hrow hstate i g h.grant htoken] at hactive
      cases hactive

/-- The record is settled by the return exactly if the result is one that the first
two exits take, or if there is no record any more. -/
theorem Returns.settled_iff (h : Returns options mode w i g outcome w') (hexit : Exiting w) :
    Settled w' g outcome ↔ Disposable P outcome ∨ ∀ row ∈ w.rows, row.id ≠ g.id := by
  rw [disposable_iff]
  rcases h.exit with ⟨-, htrans, hencode, hrows⟩ | ⟨hphase, hrows⟩ | ⟨result, hphase, hrows, -⟩
  · rw [htrans, hencode, Settled, hrows]
    constructor
    · intro hsettled
      refine .inr fun row hrow hid => ?_
      obtain ⟨-, result, hresult, -⟩ := hsettled row hrow hid
      rw [hencode] at hresult
      cases hresult
    · rintro ((hbad | hbad) | hnone)
      · cases hbad
      · cases hbad
      · exact fun row hrow hid => absurd hid (hnone row hrow)
  · refine iff_of_true (fun row hrow hid => ?_) (.inl (.inl (hexit.releasing i g outcome hphase)))
    rw [hrows] at hrow
    obtain ⟨hmem, hfalse⟩ := Table.mem_deleteWhere.mp hrow
    rw [h.owned hexit hmem hid] at hfalse
    cases hfalse
  · have hencode := hexit.completing i g outcome result hphase
    refine iff_of_true (fun row hrow hid => ?_) (.inl (.inr (by rw [hencode]; rfl)))
    rw [hrows] at hrow
    rcases Table.mem_updateWhere.mp hrow with ⟨old, -, -, rfl⟩ | ⟨hmem, hfalse⟩
    · exact ⟨rfl, result, hencode, toRecord_completeSet_holds result w.clock old⟩
    · rw [h.owned hexit hmem hid] at hfalse
      cases hfalse

/-- A lasting result that can be encoded completes the record, if it is there. -/
theorem Returns.completed (h : Returns options mode w i g outcome w') (hwf : Wf options w)
    (hexit : Exiting w) (hlasting : transientIdempotencyError outcome.err = false)
    (hdisposable : Disposable P outcome) {row : Row} (hrow : row ∈ w.rows)
    (hid : row.id = g.id) : .completed g ∈ w'.log := by
  rcases h.exit with ⟨-, -, hnone, -⟩ | ⟨hphase, -⟩ | ⟨result, -, -, hlog⟩
  · have hencode := disposable_iff.mp hdisposable
    simp [hlasting, hnone] at hencode
  · rw [hexit.releasing i g outcome hphase] at hlasting
    cases hlasting
  · have hunique := Table.cond_iff_eq hwf.ids hrow (h.owned hexit hrow hid) fun other hother =>
      (ownedInProgress_iff.mp hother).1.trans hid.symm
    exact hlog (Table.countP_eq_one hwf.ids hrow hunique)

end Return

/-! ## What follows for the key -/

/-- The history only grows. -/
theorem log_suffix_of_run {options : Options} {mode : Sweep} {w w' : World P}
    {labels : List (Label P)} (hrun : (system P options mode).run w labels = some w') :
    w.log <:+ w'.log := by
  refine System.run_preserves (P := fun s => w.log <:+ s.log) ?_ hrun List.suffix_rfl
  intro s label t hsuffix hnext
  cases step_of_next hnext with
  | tick hle => exact hsuffix
  | begin hidle hid htoken hne => exact hsuffix
  | move hmove => exact hsuffix.trans (List.suffix_append _ _)

/-- Once a record is completed, its key is granted again only after its expiry. -/
theorem expired_of_regranted {options : Options} {w w' : World P} {labels : List (Label P)}
    (hreach : (system P options .atomic).Reachable w) {g : Grant}
    (hcompleted : .completed g ∈ w.log)
    (hrun : (system P options .atomic).run w labels = some w') {other : Grant} {time : Int}
    (hgranted : .granted other time ∈ w'.log) (hnew : .granted other time ∉ w.log)
    (hscope : other.scope = g.scope) : g.expiresAt ≤ time := by
  obtain ⟨s, hs, hrefines⟩ := exists_refines (hreach.run hrun)
  obtain ⟨recent, hlog⟩ := log_suffix_of_run hrun
  rw [← hlog] at hgranted
  have hrecent := (List.mem_append.mp hgranted).resolve_right hnew
  obtain ⟨later, earlier, rfl⟩ := List.append_of_mem hrecent
  have hsplit : s.log = later.filterMap Event.lease ++
      .granted other time :: (earlier ++ w.log).filterMap Event.lease := by
    rw [hrefines.log, ← hlog]
    simp [Event.lease]
  exact Leasing.expired_of_granted_after_settled hs hsplit
    (settled_mem_lease.mpr (List.mem_append_right _ hcompleted)) hscope.symm

/-- Whatever a handler returns, the request that holds the grant can return it. -/
theorem can_return {options : Options} {mode : Sweep} {w : World P} {i : Nat} {g : Grant}
    (hphase : w.requests i = .executing g) (outcome : Outcome P) :
    ∃ w₁, (system P options mode).next w (.handler i outcome) = some w₁ ∧
      (w₁.requests i = .done g.params (some g) (.executed outcome) ∨
        ∃ w₂, (system P options mode).next w₁ (.finish i) = some w₂ ∧
          w₂.requests i = .done g.params (some g) (.executed outcome)) := by
  refine ⟨w.handled i g outcome, by simp only [system, next, hphase], ?_⟩
  unfold World.handled
  split
  · refine .inr ⟨_, by simp only [system, next, World.move_requests_self]; rfl, ?_⟩
    exact World.move_requests_self
  · split
    · exact .inl World.move_requests_self
    · refine .inr ⟨_, by simp only [system, next, World.move_requests_self]; rfl, ?_⟩
      exact World.move_requests_self

/-- When a request that was granted its key returns, its record is completed with the
encoded outcome or deleted exactly if the error is transient, the status of another
error marshals, or the response is a message that marshals (or the record has gone
before).  A handler that did its work is then not executed again for the key before
the record expires. -/
theorem reservation_settled_iff {options : Options} {mode : Sweep} {w : World P}
    (hreach : (system P options mode).Reachable w) :
    (∀ i g, w.requests i = .executing g → ∀ outcome,
      ∃ w₁, (system P options mode).next w (.handler i outcome) = some w₁ ∧
        (w₁.requests i = .done g.params (some g) (.executed outcome) ∨
          ∃ w₂, (system P options mode).next w₁ (.finish i) = some w₂ ∧
            w₂.requests i = .done g.params (some g) (.executed outcome))) ∧
    ∀ i g outcome w', Returns options mode w i g outcome w' →
      (Settled w' g outcome ↔ Disposable P outcome ∨ ∀ row ∈ w.rows, row.id ≠ g.id) ∧
      (mode = .atomic → transientIdempotencyError outcome.err = false → Disposable P outcome →
        (∃ row ∈ w.rows, row.id = g.id) →
        ∀ labels w'', (system P options mode).run w' labels = some w'' →
          ∀ other time, .granted other time ∈ w''.log → .granted other time ∉ w'.log →
            other.scope = g.scope → g.expiresAt ≤ time) := by
  have hwf := Wf.of_reachable hreach
  have hexit := Exiting.of_reachable hreach
  refine ⟨fun i g hphase outcome => can_return hphase outcome, ?_⟩
  intro i g outcome w' hreturns
  refine ⟨hreturns.settled_iff hexit, ?_⟩
  rintro rfl hlasting hdisposable ⟨row, hrow, hid⟩ labels w'' hrun other time hgranted hnew hscope
  have hcompleted := hreturns.completed hwf hexit hlasting hdisposable hrow hid
  obtain ⟨label, -, hnext⟩ := hreturns.step
  exact expired_of_regranted (hreach.step hnext) hcompleted hrun hgranted hnew hscope

/-! ## A result that cannot be encoded -/

/-- A request reserves a key and calls its handler. -/
def reservedRun : List (Label Protobuf.sample) :=
  [.begin 0 ⟨.ofNat 1, "/rbac.v1.RBACService/AssignRole", [7], [9]⟩ (.ofNat 10) (.ofNat 11),
    .cleanup 0 [], .acquire 0]

/-- The grant it gets. -/
def reservedGrant : Grant where
  request := 0
  params := acquireParams defaultOptions
    ⟨.ofNat 1, "/rbac.v1.RBACService/AssignRole", [7], [9]⟩ (.ofNat 10) (.ofNat 11) 0
  id := .ofNat 10

/-- The grant of a request whose handler has not returned. -/
def Phase.executes : Phase P → Option Grant
  | executing g => some g
  | _ => none

theorem Phase.executes_eq_some {phase : Phase P} {g : Grant} (hexecutes : phase.executes = some g) :
    phase = .executing g := by
  cases phase <;> simp [Phase.executes] at hexecutes
  rw [hexecutes]

theorem exists_reserved :
    ∃ w, (system Protobuf.sample defaultOptions .atomic).Reachable w ∧
      w.requests 0 = .executing reservedGrant ∧ w.rows = [reservation reservedGrant.params] := by
  have heval : ((system Protobuf.sample defaultOptions .atomic).run (World.start 0)
      reservedRun).map (fun w => ((w.requests 0).executes, w.rows)) =
        some (some reservedGrant, [reservation reservedGrant.params]) := by
    decide +kernel
  obtain ⟨w, hrun, hw⟩ := Option.map_eq_some_iff.mp heval
  obtain ⟨hexecutes, hrows⟩ := Prod.mk.inj hw
  have hinit := init_start (P := Protobuf.sample) defaultOptions .atomic 0
  exact ⟨w, (System.Reachable.init hinit).run hrun, Phase.executes_eq_some hexecutes, hrows⟩

/-- A response that marshals is stored. -/
theorem reservation_settled_reservedRun :
    ∃ w w', (system Protobuf.sample defaultOptions .atomic).Reachable w ∧
      Returns defaultOptions .atomic w 0 reservedGrant ⟨.message (), none⟩ w' ∧
      Settled w' reservedGrant ⟨.message (), none⟩ := by
  obtain ⟨w, hreach, hphase, hrows⟩ := exists_reserved
  let outcome : Outcome Protobuf.sample := ⟨.message (), none⟩
  let result : Encoded := ⟨"rbac.v1.AssignRoleResponse", some [], none⟩
  let w₁ := w.move 0 w.rows (.completing reservedGrant outcome result)
    [.executed reservedGrant outcome]
  have hhandled : (system Protobuf.sample defaultOptions .atomic).next w (.handler 0 outcome) =
      some w₁ := by
    simp only [system, next, hphase]
    rfl
  have hreach₁ := hreach.step hhandled
  have hphase₁ : w₁.requests 0 = .completing reservedGrant outcome result :=
    World.move_requests_self
  have hreturns : Returns defaultOptions .atomic w₁ 0 reservedGrant outcome
      (w₁.finished 0 reservedGrant outcome
        (complete w₁.rows reservedGrant.id reservedGrant.token result w₁.clock).1
        (if (complete w₁.rows reservedGrant.id reservedGrant.token result w₁.clock).2 = 1 then
          [.completed reservedGrant] else [])) := by
    constructor
    case grant => rw [hphase₁]; rfl
    case active => rw [hphase₁]; rfl
    case held =>
      intro row hrow hid
      obtain rfl : row = reservation reservedGrant.params := by
        simpa [w₁, hrows] using hrow
      rfl
    case step => exact ⟨.finish 0, by simp, by simp only [system, next, hphase₁]⟩
    case returned => exact World.move_requests_self
  have hdisposable : Disposable Protobuf.sample outcome := .inr (.inr ⟨rfl, (), rfl, rfl⟩)
  exact ⟨w₁, _, hreach₁, hreturns,
    ((reservation_settled_iff hreach₁).2 0 _ outcome _ hreturns).1.mpr (.inl hdisposable)⟩

/-- A handler that returns neither a message nor an error leaves its record in
progress. -/
theorem reservation_stays_in_progress :
    ¬ ∀ w, (system Protobuf.sample defaultOptions .atomic).Reachable w →
      ∀ i g outcome w', Returns defaultOptions .atomic w i g outcome w' →
        Settled w' g outcome := by
  intro hall
  obtain ⟨w, hreach, hphase, hrows⟩ := exists_reserved
  let outcome : Outcome Protobuf.sample := ⟨.other, none⟩
  have hreturns : Returns defaultOptions .atomic w 0 reservedGrant outcome
      (w.move 0 w.rows (.done reservedGrant.params (some reservedGrant) (.executed outcome))
        [.answered 0 reservedGrant.params (.executed outcome),
          .executed reservedGrant outcome]) := by
    constructor
    case grant => rw [hphase]; rfl
    case active => rw [hphase]; rfl
    case held =>
      intro row hrow hid
      obtain rfl : row = reservation reservedGrant.params := by
        simpa [hrows] using hrow
      rfl
    case step => exact ⟨.handler 0 outcome, by simp, by simp only [system, next, hphase]; rfl⟩
    case returned => exact World.move_requests_self
  have hsettled := hall w hreach 0 reservedGrant outcome _ hreturns
    (reservation reservedGrant.params) (by simp [hrows]) rfl
  exact absurd hsettled.1 (by decide)

end GoFoundation.Idempotency
