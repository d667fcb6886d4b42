/-
# What the audit trail has of the executions

Every handler execution of a mutation leads to one call of `Record`, and no other
request does.  Whether the row is then in the table depends on what the columns
accept, and two of the values are the client's: with a request id that is too long,
or bytes that are no text, a client keeps its own call out of the trail.
-/

import GoFoundation.Audit.Columns

namespace GoFoundation.Audit

open Library Postgres Grpc Server Idempotency

variable {P : Protobuf} {config : Config P}

/-! ## What the store does meanwhile -/

/-- The store has not turned the request away. -/
def notRefused : Idempotency.Phase P → Bool
  | .idle | .executing _ | .releasing _ _ | .completing _ _ _ | .done _ _ (.executed _) => true
  | .cleaning _ | .sweeping _ _ | .acquiring _ _ | .done _ _ _ => false

/-- A step of the store leaves a request at rest, or one whose handler was
invoked, where it was or takes it further. -/
structure Undisturbed (store store' : Idempotency.World P) (i : Nat) : Prop where
  idle : store.requests i = .idle → store'.requests i = .idle
  notRefused : notRefused (store.requests i) = true → notRefused (store'.requests i) = true

theorem Undisturbed.of_eq {store store' : Idempotency.World P} {i : Nat}
    (heq : store'.requests i = store.requests i) : Undisturbed store store' i where
  idle h := heq.trans h
  notRefused h := heq ▸ h

/-- The moves that are the store's own take no request away from its handler. -/
theorem undisturbed_of_moves {mode : Sweep} {w : Idempotency.World P} {i : Nat}
    {label : Idempotency.Label P} {before after : Idempotency.Phase P}
    {rows : List Idempotency.Row} {events : List (Idempotency.Event P)}
    (hmove : Idempotency.Moves mode w i label before after rows events)
    (hown : ownLabel label = true) :
    before ≠ .idle ∧ (notRefused before = true → notRefused after = true) := by
  cases hmove with
  | handledTransient | handledUnencodable | handled => cases hown
  | released | releaseMissed | completed | completeLost | releaseFailed | completeFailed =>
      exact ⟨by simp, fun _ => rfl⟩
  | _ => exact ⟨by simp, fun h => absurd h (by simp [notRefused])⟩

theorem undisturbed_of_own {options : Options} {mode : Sweep} {w w' : Idempotency.World P}
    {label : Idempotency.Label P} (hstep : Idempotency.Step options mode w label w')
    (hown : ownLabel label = true) (j : Nat) : Undisturbed w w' j := by
  cases hstep with
  | tick hle => exact .of_eq rfl
  | begin => cases hown
  | @move i _ after rows events hmove =>
      by_cases hj : j = i
      · subst hj
        obtain ⟨hidle, hkept⟩ := undisturbed_of_moves hmove hown
        have hafter : (w.move j rows after events).requests j = after := Function.update_self ..
        exact ⟨fun h => absurd h hidle, fun h => by rw [hafter]; exact hkept h⟩
      · exact .of_eq (Function.update_of_ne hj ..)

/-- Beginning a request disturbs no other. -/
theorem undisturbed_of_begin {options : Options} {mode : Sweep} {w w' : Idempotency.World P}
    {i j : Nat} {call : Idempotency.Call} {id ownerToken : UUID}
    (hstep : Idempotency.Step options mode w (.begin i call id ownerToken) w') (hj : j ≠ i) :
    Undisturbed w w' j := by
  cases hstep with
  | begin => exact .of_eq (Function.update_of_ne hj ..)
  | move hmove => cases hmove

/-- The return of a handler disturbs no other request, and its own goes on. -/
theorem step_handler {options : Options} {mode : Sweep} {w w' : Idempotency.World P} {i : Nat}
    {outcome : Outcome P} (hstep : Idempotency.Step options mode w (.handler i outcome) w') :
    notRefused (w'.requests i) = true ∧ ∀ j, j ≠ i → Undisturbed w w' j := by
  cases hstep with
  | @move i' _ after rows events hmove =>
      have hafter : notRefused after = true ∧ i' = i := by
        generalize w.requests i' = before at hmove
        cases hmove <;> exact ⟨rfl, rfl⟩
      obtain ⟨hran, rfl⟩ := hafter
      have hself : (w.move i' rows after events).requests i' = after := Function.update_self ..
      exact ⟨by rw [hself]; exact hran, fun j hj => .of_eq (Function.update_of_ne hj ..)⟩

/-! ## The account of the trail -/

/-- The executions, the calls of `Record` and the rows belong together. -/
structure Accounted (w : World config) : Prop where
  trail : w.trail = w.before ++ w.recorded.filterMap fun e => e.event.toRow
  before_issued : ∀ row ∈ w.before, row.id ∈ w.issued
  executed_issued : ∀ e ∈ w.executed, e.event.id ∈ w.issued
  executed_nodup : (w.executed.map fun e => e.event.id).Nodup
  recorded_nodup : (w.recorded.map fun e => e.event.id).Nodup
  recorded_executed : ∀ e ∈ w.recorded, e ∈ w.executed
  new : ∀ e ∈ w.executed, ∀ row ∈ w.before, row.id ≠ e.event.id
  built : ∀ e ∈ w.executed, e.Built
  handled : w.handled.filter Authorized.isMutation = w.executed.map Execution.call
  /-- `Record` has executed, or is the next statement of the request. -/
  stage : ∀ e ∈ w.executed, (e ∈ w.recorded ∧ w.calls e.request = .done) ∨
    ∃ keyed, w.calls e.request = .recording e keyed
  pending : ∀ i e keyed, w.calls i = .recording e keyed → e ∈ w.executed ∧ e.request = i ∧
    ∀ other ∈ w.recorded, other.event.id ≠ e.event.id
  notRefused : ∀ e ∈ w.executed, notRefused (w.store.requests e.request) = true
  outside : ∀ i, (w.calls i = .idle ∨ ∃ call, w.calls i = .running call) →
    w.store.requests i = .idle

namespace Accounted

variable {w : World config} {i : Nat} {store : Idempotency.World P}

theorem init {mode : Sweep} (hinit : (system config mode).init w) : Accounted w := by
  obtain ⟨⟨-, hstore, -⟩, htrail, hidle, hissued, hhandled, hexecuted, hrecorded⟩ := hinit
  constructor <;> simp_all

/-- No execution belongs to a request that is not recording or done. -/
theorem request_ne (h : Accounted w) (hdone : w.calls i ≠ .done)
    (hrecording : ∀ e keyed, w.calls i ≠ .recording e keyed) :
    ∀ e ∈ w.executed, e.request ≠ i := by
  rintro e he rfl
  rcases h.stage e he with ⟨-, hcalls⟩ | ⟨keyed, hcalls⟩
  · exact hdone hcalls
  · exact hrecording e keyed hcalls

/-- The store moves on its own. -/
theorem own (h : Accounted w) (hstore : ∀ j, Undisturbed w.store store j) :
    Accounted { w with store := store } :=
  { h with
    notRefused := fun e he => (hstore e.request).notRefused (h.notRefused e he)
    outside := fun j hj => (hstore j).idle (h.outside j hj) }

/-- The handler of a method that is not recorded returns. -/
theorem handle (h : Accounted w) {call : Authorized config} {outcome : Outcome P}
    {eventID : UUID} {occurredAt : Int}
    (hevent : call.event outcome eventID occurredAt = none) : Accounted (w.handle call) := by
  have hskip : ¬call.isMutation = true := by
    rw [← call.isSome_event outcome eventID occurredAt, hevent]
    simp
  exact { h with handled := (List.filter_cons_of_neg hskip).trans h.handled }

/-- A request without an execution enters a phase in which it has none. -/
theorem enter (h : Accounted w) {phase : Phase config} (hother : ∀ e ∈ w.executed, e.request ≠ i)
    (hphase : ∀ e keyed, phase ≠ .recording e keyed)
    (hstore : ∀ j, j ≠ i → Undisturbed w.store store j)
    (hself : (phase = .idle ∨ ∃ call, phase = .running call) → store.requests i = .idle) :
    Accounted (World.enter { w with store := store } i phase) := by
  -- Only what is said of the phases and of the store is new.
  refine { h with stage := ?stage, pending := ?pending, notRefused := ?notRefused,
                  outside := ?outside }
  case stage =>
    intro e he
    rw [World.enter_of_ne _ (hother e he)]
    exact h.stage e he
  case pending =>
    intro j e keyed hcalls
    by_cases hj : j = i
    · subst hj
      rw [World.enter_self] at hcalls
      exact absurd hcalls (hphase e keyed)
    · rw [World.enter_of_ne _ hj] at hcalls
      exact h.pending j e keyed hcalls
  case notRefused =>
    intro e he
    exact (hstore e.request (hother e he)).notRefused (h.notRefused e he)
  case outside =>
    intro j hcalls
    by_cases hj : j = i
    · subst hj
      rw [World.enter_self] at hcalls
      exact hself hcalls
    · rw [World.enter_of_ne _ hj] at hcalls
      exact (hstore j hj).idle (h.outside j hcalls)

/-- The handler of a recorded method returns. -/
theorem executed (h : Accounted w) {e : Execution config} {eventID : UUID} (keyed : Bool)
    (hother : ∀ other ∈ w.executed, other.request ≠ e.request)
    (hran : Audit.notRefused (w.store.requests e.request) = true) (hbuilt : e.Built)
    (hid : e.event.id = eventID) (hfresh : eventID ∉ w.issued) :
    Accounted (w.execute e keyed eventID) := by
  subst hid
  -- The new id is that of no earlier event.
  have hnew : ∀ other ∈ w.executed, other.event.id ≠ e.event.id := by
    intro other hmem heq
    exact hfresh (heq ▸ h.executed_issued other hmem)
  refine { h with before_issued := ?before_issued, executed_issued := ?executed_issued,
                  executed_nodup := ?executed_nodup, recorded_executed := ?recorded_executed,
                  new := ?new, built := ?built, handled := ?handled, stage := ?stage,
                  pending := ?pending, notRefused := ?notRefused, outside := ?outside }
  case before_issued =>
    exact fun row hrow => List.mem_cons_of_mem _ (h.before_issued row hrow)
  case executed_issued =>
    intro other hmem
    rcases List.mem_cons.mp hmem with rfl | hold
    · exact List.mem_cons_self
    · exact List.mem_cons_of_mem _ (h.executed_issued other hold)
  case executed_nodup =>
    refine List.nodup_cons.mpr ⟨fun hmem => ?_, h.executed_nodup⟩
    obtain ⟨other, hother, heq⟩ := List.mem_map.mp hmem
    exact hnew other hother heq
  case recorded_executed =>
    exact fun other hmem => List.mem_cons_of_mem _ (h.recorded_executed other hmem)
  case new =>
    intro other hmem row hrow
    rcases List.mem_cons.mp hmem with rfl | hold
    · intro heq
      exact hfresh (heq ▸ h.before_issued row hrow)
    · exact h.new other hold row hrow
  case built =>
    intro other hmem
    rcases List.mem_cons.mp hmem with rfl | hold
    · exact hbuilt
    · exact h.built other hold
  case handled =>
    obtain ⟨occurredAt, hevent⟩ := hbuilt
    have hkeep : e.call.isMutation = true :=
      (e.call.isSome_event ..).symm.trans (Option.isSome_of_eq_some hevent)
    exact (List.filter_cons_of_pos hkeep).trans (congrArg (e.call :: ·) h.handled)
  case stage =>
    intro other hmem
    rcases List.mem_cons.mp hmem with rfl | hold
    · exact .inr ⟨keyed, World.execute_self ..⟩
    · rw [World.execute_of_ne _ _ _ _ (hother other hold)]
      exact h.stage other hold
  case pending =>
    intro j other keyed' hcalls
    by_cases hj : j = e.request
    · rw [hj, World.execute_self] at hcalls
      cases hcalls
      exact ⟨List.mem_cons_self, hj.symm, fun third hmem => hnew third (h.recorded_executed _ hmem)⟩
    · rw [World.execute_of_ne _ _ _ _ hj] at hcalls
      obtain ⟨hmem, hrequest, hdistinct⟩ := h.pending j other keyed' hcalls
      exact ⟨List.mem_cons_of_mem _ hmem, hrequest, hdistinct⟩
  case notRefused =>
    intro other hmem
    rcases List.mem_cons.mp hmem with rfl | hold
    · exact hran
    · exact h.notRefused other hold
  case outside =>
    intro j hcalls
    by_cases hj : j = e.request
    · rw [hj, World.execute_self] at hcalls
      simp at hcalls
    · rw [World.execute_of_ne _ _ _ _ hj] at hcalls
      exact h.outside j hcalls

/-- `Record` appends the row of the event, if the columns take it: no row has the
id of the event. -/
theorem write_trail (h : Accounted w) {e : Execution config} {keyed : Bool}
    (hcalls : w.calls i = .recording e keyed) :
    (w.write e).trail = w.trail ++ e.event.toRow.toList := by
  obtain ⟨hmem, -, hdistinct⟩ := h.pending i e keyed hcalls
  have hfree : ∀ row ∈ w.trail, row.id ≠ e.event.id := by
    intro row hrow
    rw [h.trail] at hrow
    rcases List.mem_append.mp hrow with hbefore | hadded
    · exact h.new e hmem row hbefore
    · obtain ⟨other, hother, htoRow⟩ := List.mem_filterMap.mp hadded
      rw [(Event.storedAs_of_toRow htoRow).id]
      exact hdistinct other hother
  have hany : (w.trail.any fun row => row.id = e.event.id) = false := by
    simpa using hfree
  have hrecord : record w.trail e.event = e.event.toRow.map fun row => w.trail ++ [row] := by
    rw [record, hany]
    rfl
  rw [World.write, hrecord]
  cases e.event.toRow with
  | none => simp
  | some row => rfl

/-- `Record` executes, and the request is done. -/
theorem written (h : Accounted w) {e : Execution config} {keyed : Bool}
    (hcalls : w.calls i = .recording e keyed)
    (hstore : ∀ j, j ≠ i → Undisturbed w.store store j)
    (hran : Audit.notRefused (store.requests i) = true) :
    Accounted (World.enter { w.write e with store := store } i .done) := by
  obtain ⟨hmem, hrequest, hdistinct⟩ := h.pending i e keyed hcalls
  -- Every other execution belongs to another request.
  have hsame : ∀ other ∈ w.executed, other.request = i → other = e ∨ other ∈ w.recorded := by
    rintro other hother rfl
    rcases h.stage other hother with ⟨hrecorded, -⟩ | ⟨keyed', hcalls'⟩
    · exact .inr hrecorded
    · rw [hcalls] at hcalls'
      cases hcalls'
      exact .inl rfl
  refine { h with trail := ?trail, recorded_nodup := ?recorded_nodup,
                  recorded_executed := ?recorded_executed, stage := ?stage,
                  pending := ?pending, notRefused := ?notRefused, outside := ?outside }
  case trail =>
    have htrail := h.write_trail hcalls
    rw [h.trail] at htrail
    have hlast : [e].filterMap (fun e => e.event.toRow) = e.event.toRow.toList := by
      cases hrow : e.event.toRow <;> simp [hrow]
    have hrecorded : (w.write e).recorded = w.recorded ++ [e] := rfl
    rw [← hlast, List.append_assoc, ← List.filterMap_append, ← hrecorded] at htrail
    exact htrail
  case recorded_nodup => exact Table.nodup_map_append h.recorded_nodup hdistinct
  case recorded_executed =>
    intro other hother
    rcases List.mem_append.mp hother with hold | hself
    · exact h.recorded_executed other hold
    · rw [List.mem_singleton.mp hself]
      exact hmem
  case stage =>
    intro other hother
    by_cases hi : other.request = i
    · refine .inl ⟨?_, by rw [hi, World.enter_self]⟩
      rcases hsame other hother hi with rfl | hold
      · exact List.mem_append_right _ (List.mem_singleton_self _)
      · exact List.mem_append_left _ hold
    · rw [World.enter_of_ne _ hi]
      exact (h.stage other hother).imp_left fun hrecorded =>
        ⟨List.mem_append_left _ hrecorded.1, hrecorded.2⟩
  case pending =>
    intro j other keyed' hcalls'
    have hj : j ≠ i := by
      rintro rfl
      rw [World.enter_self] at hcalls'
      cases hcalls'
    rw [World.enter_of_ne _ hj] at hcalls'
    obtain ⟨hmem', hrequest', hdistinct'⟩ := h.pending j other keyed' hcalls'
    refine ⟨hmem', hrequest', fun third hthird => ?_⟩
    rcases List.mem_append.mp hthird with hold | hself
    · exact hdistinct' third hold
    · -- The request that has just recorded is another one, so its event is another.
      rw [List.mem_singleton.mp hself]
      intro heq
      have hsameEvent := List.inj_on_of_nodup_map h.executed_nodup hmem hmem' heq
      exact hj (hrequest'.symm.trans (hsameEvent ▸ hrequest))
  case notRefused =>
    intro other hother
    by_cases hi : other.request = i
    · rw [hi]
      exact hran
    · exact (hstore other.request hi).notRefused (h.notRefused other hother)
  case outside =>
    intro j hcalls'
    have hj : j ≠ i := by
      rintro rfl
      rw [World.enter_self] at hcalls'
      simp at hcalls'
    rw [World.enter_of_ne _ hj] at hcalls'
    exact (hstore j hj).idle (h.outside j hcalls')

/-- What is left of the store when an outcome goes back. -/
theorem resumed {mode : Sweep} {w' : World config} {outcome : Outcome P}
    (hresumed : Resumed mode w i outcome w') : ∃ store,
      w' = World.enter { w with store := store } i .done ∧
      (∀ j, j ≠ i → Undisturbed w.store store j) ∧
      (Audit.notRefused (w.store.requests i) = true →
        Audit.notRefused (store.requests i) = true) := by
  cases hresumed with
  | plain => exact ⟨w.store, rfl, fun _ _ => .of_eq rfl, fun hran => hran⟩
  | keyed hstep =>
      obtain ⟨hran, hothers⟩ := step_handler hstep
      exact ⟨_, rfl, hothers, fun _ => hran⟩

theorem step {mode : Sweep} {label : Label config} {w' : World config} (h : Accounted w)
    (hstep : Step mode w label w') : Accounted w' := by
  cases hstep with
  | turnedAway hidle =>
      have hother := h.request_ne (by rw [hidle]; simp) (by rw [hidle]; simp)
      exact h.enter hother (by simp) (fun _ _ => .of_eq rfl) (by simp)
  | unkeyed hidle =>
      have hother := h.request_ne (by rw [hidle]; simp) (by rw [hidle]; simp)
      exact h.enter hother (by simp) (fun _ _ => .of_eq rfl) fun _ => h.outside _ (.inl hidle)
  | keyed hidle hstep =>
      have hother := h.request_ne (by rw [hidle]; simp) (by rw [hidle]; simp)
      exact h.enter hother (by simp) (fun _ hj => undisturbed_of_begin hstep hj) (by simp)
  | store hown hstep => exact h.own fun j => undisturbed_of_own hstep hown j
  | @unaudited i call outcome eventID _ hevent hbefore hresumed =>
      obtain ⟨store, rfl, hothers, -⟩ := resumed hresumed
      have hother := h.request_ne (i := i)
        (by rcases hbefore with hcalls | hcalls <;> simp [hcalls])
        (by rcases hbefore with hcalls | hcalls <;> simp [hcalls])
      exact (h.handle hevent).enter hother (by simp) hothers (by simp)
  | @executed i call outcome eventID event keyed hbefore hevent hfresh =>
      have hother := h.request_ne (i := i)
        (by rcases hbefore with hcalls | ⟨hcalls, -⟩ <;> simp [hcalls])
        (by rcases hbefore with hcalls | ⟨hcalls, -⟩ <;> simp [hcalls])
      have hid : event.id = eventID := by
        obtain ⟨mutation, -, hfields⟩ := Option.map_eq_some_iff.mp hevent
        exact hfields ▸ rfl
      refine h.executed keyed hother ?_ ⟨w.store.clock, by rw [hid]; exact hevent⟩ hid hfresh
      rcases hbefore with hcalls | ⟨-, g, hstore⟩
      · rw [h.outside i (.inr ⟨call, hcalls⟩)]
        rfl
      · rw [hstore]
        rfl
  | @recorded i e keyed _ hbefore hresumed =>
      obtain ⟨store, rfl, hothers, hran⟩ := resumed hresumed
      obtain ⟨hmem, rfl, -⟩ := h.pending i e keyed hbefore
      exact h.written hbefore hothers (hran (h.notRefused e hmem))

/-- The account is right in every run. -/
theorem of_reachable {mode : Sweep} (hreach : (system config mode).Reachable w) :
    Accounted w := by
  apply hreach.invariant (I := Accounted) (fun w hinit => init hinit)
  intro w label w' _ ih hnext
  exact ih.step (audit_step_of_next hnext)

end Accounted

/-! ## The result -/

/-- The rows that were added. -/
def World.added (w : World config) : List Row := w.trail.drop w.before.length

/-- No request is between its handler and `Record`. -/
def World.Quiet (w : World config) : Prop := ∀ i e keyed, w.calls i ≠ .recording e keyed

theorem Accounted.added_eq {w : World config} (h : Accounted w) :
    w.added = w.recorded.filterMap fun e => e.event.toRow := by
  rw [World.added, h.trail, List.drop_left]

/-- A row that was added is the row of one execution. -/
theorem Accounted.mem_added {w : World config} (h : Accounted w) {row : Row}
    (hrow : row ∈ w.added) :
    ∃ e ∈ w.recorded, e.event.toRow = some row ∧ row.id = e.event.id := by
  rw [h.added_eq] at hrow
  obtain ⟨e, he, htoRow⟩ := List.mem_filterMap.mp hrow
  exact ⟨e, he, htoRow, (Event.storedAs_of_toRow htoRow).id⟩

/-- Once nothing is pending, `Record` has executed for every execution. -/
theorem Accounted.perm_of_quiet {w : World config} (h : Accounted w) (hquiet : w.Quiet) :
    w.recorded.Perm w.executed := by
  refine (List.perm_ext_iff_of_nodup (List.Nodup.of_map _ h.recorded_nodup)
    (List.Nodup.of_map _ h.executed_nodup)).mpr fun e => ⟨h.recorded_executed e, fun he => ?_⟩
  rcases h.stage e he with ⟨hrecorded, -⟩ | ⟨keyed, hcalls⟩
  · exact hrecorded
  · exact absurd hcalls (hquiet e.request e keyed)

/-- Nothing is pending if `Record` has executed as often as the handlers have. -/
theorem Accounted.quiet_of_length {w : World config} (h : Accounted w)
    (hlength : w.recorded.length = w.executed.length) : w.Quiet := by
  intro i e keyed hcalls
  obtain ⟨hmem, -, hdistinct⟩ := h.pending i e keyed hcalls
  have hsubperm : w.recorded.Subperm w.executed :=
    List.subperm_of_subset (List.Nodup.of_map _ h.recorded_nodup) h.recorded_executed
  have hperm := hsubperm.perm_of_length_le hlength.ge
  exact hdistinct e (hperm.mem_iff.mpr hmem) rfl

theorem map_filterMap_of_forall {executions : List (Execution config)}
    (hall : ∀ e ∈ executions, ∃ row, e.event.toRow = some row ∧ row.attribution = e.attribution) :
    (executions.filterMap fun e => e.event.toRow).map Row.attribution =
      executions.map Execution.attribution := by
  induction executions with
  | nil => rfl
  | cons e rest ih =>
      obtain ⟨row, hrow, hattribution⟩ := hall e List.mem_cons_self
      have hrest := ih fun other hmem => hall other (List.mem_cons_of_mem _ hmem)
      simp only [List.filterMap_cons, hrow, List.map_cons, hattribution, hrest]

/-- The rows tell of the executions as they should exactly if each of them has its
row. -/
theorem Accounted.perm_iff {w : World config} (h : Accounted w) :
    (w.added.map Row.attribution).Perm (w.recorded.map Execution.attribution) ↔
      ∀ e ∈ w.recorded, ∃ row, e.event.toRow = some row ∧ row.attribution = e.attribution := by
  constructor
  · intro hperm e he
    obtain ⟨row, hrow, hattribution⟩ :=
      List.mem_map.mp (hperm.mem_iff.mpr (List.mem_map_of_mem he))
    -- The row is that of an execution with the same event id, which is this one.
    obtain ⟨other, hother, htoRow, hid⟩ := h.mem_added hrow
    have hsame : other.event.id = e.event.id := hid.symm.trans (congrArg Prod.fst hattribution)
    obtain rfl := List.inj_on_of_nodup_map h.recorded_nodup hother he hsame
    exact ⟨row, htoRow, hattribution⟩
  · intro hall
    rw [h.added_eq, map_filterMap_of_forall hall]

/-- In every run: the rows that were added are one for each execution that
`Record` was called for, with its actor, its method and its request id, exactly if
all these executions fit.  They are the executions of the six mutations, once
nothing is pending.  No other row is added, and a request that the store refuses
has no execution. -/
theorem trail_complete_iff_fits {mode : Sweep} {w : World config}
    (hreach : (system config mode).Reachable w) :
    ((w.added.map Row.attribution).Perm (w.recorded.map Execution.attribution) ↔
      ∀ e ∈ w.recorded, e.Fits) ∧
    w.trail = w.before ++ w.added ∧
    (w.Quiet → (w.recorded.map Execution.call).Perm (w.handled.filter Authorized.isMutation)) ∧
    (∀ row ∈ w.added, ∃ e ∈ w.executed, row.id = e.event.id) ∧
    (∀ i p g record disposition, w.store.requests i = .done p g (.refused record disposition) →
      ∀ e ∈ w.executed, e.request ≠ i) := by
  have h := Accounted.of_reachable hreach
  refine ⟨h.perm_iff.trans ?_, ?_, ?_, ?_, ?_⟩
  · exact forall₂_congr fun e he => Execution.row_iff_fits (h.built e (h.recorded_executed e he))
  · rw [h.added_eq]
    exact h.trail
  · intro hquiet
    rw [h.handled]
    exact (h.perm_of_quiet hquiet).map Execution.call
  · intro row hrow
    obtain ⟨e, he, -, hid⟩ := h.mem_added hrow
    exact ⟨e, h.recorded_executed e he, hid⟩
  · rintro _ p g record disposition hrefused e he rfl
    have hran := h.notRefused e he
    rw [hrefused] at hran
    cases hran

/-! ## A request id that is too long -/

/-- A request to assign a role, with a request id and perhaps a key. -/
def assignRole (requestID : GoString) (more : Metadata) : Request Protobuf.sample where
  method := "/rbac.v1.RBACService/AssignRole"
  metadata := some (("authorization", Go.encodeUtf8 "Bearer eyJ") ::
    ("x-request-id", requestID) :: more)
  peer := some "10.0.0.7:40312"
  body := .message ()

/-- Its context behind the gates. -/
def assignRoleContext (requestID : GoString) (more : Metadata) : Context where
  metadata := (assignRole requestID more).metadata
  peer := (assignRole requestID more).peer
  requestID := requestID
  identity := some ⟨(UUID.ofNat 1).text, "Ada", "ada@example.org", "local", ""⟩

/-- The gates let the request of the sample user pass. -/
def Passes (requestID : GoString) (more : Metadata) : Prop :=
  (passGates sampleConfig (sampleEnv 100 0) (assignRole requestID more).method
    ((assignRole requestID more).identified (sampleEnv 100 0)) (assignRole requestID more).body
    sampleState).toOption = some (assignRoleContext requestID more)

instance (requestID : GoString) (more : Metadata) : Decidable (Passes requestID more) :=
  inferInstanceAs (Decidable (_ = _))

theorem eq_ok_of_toOption {ε α : Type} {result : Except ε α} {value : α}
    (hsome : result.toOption = some value) : result = .ok value := by
  cases result with
  | error err => cases hsome
  | ok value' => exact congrArg Except.ok (Option.some.inj hsome)

def assigning (requestID : GoString) (more : Metadata) (hpasses : Passes requestID more) :
    Authorized sampleConfig where
  request := assignRole requestID more
  ctx := assignRoleContext requestID more
  admitted := ⟨sampleEnv 100 0, sampleState, eq_ok_of_toOption hpasses⟩

/-- The request is made twice with one key.  The second one is answered from the
store. -/
def duplicateRun : List (Label sampleConfig) :=
  let call := assigning (Go.encodeUtf8 "trace-7")
    [("idempotency-key", Go.encodeUtf8 "assign-1")] (by decide +kernel)
  [.begin 0 call (.ofNat 10) (.ofNat 11), .store (.cleanup 0 []), .store (.acquire 0),
    .handler 0 ⟨.message (), none⟩ (.ofNat 12), .record 0, .store (.finish 0),
    .begin 1 call (.ofNat 20) (.ofNat 21), .store (.cleanup 1 []), .store (.acquire 1),
    .store (.acquire 1)]

/-- The store refuses the request, with a replay. -/
def isReplay : Idempotency.Phase Protobuf.sample → Bool
  | .done _ _ (.refused _ .replay) => true
  | _ => false

theorem isReplay_iff {phase : Idempotency.Phase Protobuf.sample} (hreplay : isReplay phase = true) :
    ∃ p g record, phase = .done p g (.refused record .replay) := by
  unfold isReplay at hreplay
  split at hreplay
  · exact ⟨_, _, _, rfl⟩
  · cases hreplay

theorem trail_complete_duplicateRun :
    ∃ w, (system sampleConfig .atomic).run (World.start 0) duplicateRun = some w ∧
      w.added.length = 1 ∧ w.recorded.length = 1 ∧ (∀ e ∈ w.recorded, e.Fits) ∧
      ∀ e ∈ w.executed, e.request ≠ 1 := by
  have heval : ((system sampleConfig .atomic).run (World.start 0) duplicateRun).map (fun w =>
      decide (w.added.length = 1 ∧ w.recorded.length = 1) && isReplay (w.store.requests 1) &&
        decide (w.added.map Row.attribution = w.recorded.map Execution.attribution)) =
          some true := by
    decide +kernel
  obtain ⟨w, hrun, hends⟩ := Option.map_eq_some_iff.mp heval
  simp only [Bool.and_eq_true, decide_eq_true_eq] at hends
  obtain ⟨⟨⟨hadded, hrecorded⟩, hreplay⟩, hattribution⟩ := hends
  obtain ⟨p, g, record, hrefused⟩ := isReplay_iff hreplay
  have hinit : (system sampleConfig .atomic).init (World.start 0) := init_start .atomic 0
  obtain ⟨hfits, -, -, -, hnone⟩ :=
    trail_complete_iff_fits ((System.Reachable.init hinit).run hrun)
  exact ⟨w, hrun, hadded, hrecorded, hfits.mp (.of_eq hattribution),
    hnone 1 p g record .replay hrefused⟩

/-- The client sends a request id of 256 characters. -/
def suppressedRun : List (Label sampleConfig) :=
  let call := assigning (List.replicate 256 97) [] (by decide +kernel)
  [.begin 0 call (.ofNat 10) (.ofNat 11), .handler 0 ⟨.message (), none⟩ (.ofNat 12), .record 0]

/-- The role is assigned, and the trail has no row for it. -/
theorem trail_misses_suppressedRun :
    ¬ ∀ w, (system sampleConfig .atomic).Reachable w → w.Quiet →
      w.added.length = (w.handled.filter Authorized.isMutation).length := by
  intro hall
  have heval : ((system sampleConfig .atomic).run (World.start 0) suppressedRun).map (fun w =>
      decide (w.added.length = 0 ∧ (w.handled.filter Authorized.isMutation).length = 1 ∧
        w.recorded.length = w.executed.length)) = some true := by
    decide +kernel
  obtain ⟨w, hrun, hends⟩ := Option.map_eq_some_iff.mp heval
  obtain ⟨hadded, hhandled, hlength⟩ := of_decide_eq_true hends
  have hinit : (system sampleConfig .atomic).init (World.start 0) := init_start .atomic 0
  have hreach := (System.Reachable.init hinit).run hrun
  have hrows := hall w hreach ((Accounted.of_reachable hreach).quiet_of_length hlength)
  omega

end GoFoundation.Audit
