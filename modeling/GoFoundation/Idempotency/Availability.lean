/-
# When `Acquire` can lose its record

An `INSERT` that conflicts tells `Acquire` that the record is there, and it goes on
to read it.  In between, the owner may release the record, or the cleanup of
another request may delete it.  `find` then meets no row and `Acquire` reports an
error, although no statement has failed.

This module shows such a run, and that nothing else makes `Acquire` fail: as long
as no step deletes a record that some `Acquire` has met and is still to read, every
`Acquire` returns a disposition.  The condition is exact, step by step.
-/

import GoFoundation.Idempotency.Retry

namespace GoFoundation.Idempotency

open Library Postgres Grpc

variable {P : Protobuf}

/-! ## The condition -/

namespace Phase

/-- What `Acquire` returned to a request, once it has. -/
def acquireResult : Phase P → Option (Except AcquireError Disposition)
  | executing _ | releasing _ _ | completing _ _ _ | done _ _ (.executed _) => some (.ok .acquired)
  | done _ _ (.refused _ disposition) => some (.ok disposition)
  | done _ _ (.unavailable err) => some (.error err)
  | idle | cleaning _ | sweeping _ _ | acquiring _ _ => none

/-- The scope whose record a request met at its `INSERT` and is still to read. -/
def awaits : Phase P → Option Scope
  | acquiring p .find | acquiring p (.takeOver _) | acquiring p .findAgain => some p.scope
  | _ => none

end Phase

/-- The rows that the statement of a step deletes. -/
def Deletes (w : World P) : Label P → Row → Prop
  | .cleanup _ ids, row => row.id ∈ ids
  | .sweep i, row => ∃ p ids, w.requests i = .sweeping p ids ∧ row.id ∈ ids
  | .finish i, row => ∃ g outcome, w.requests i = .releasing g outcome ∧
      ownedInProgress g.id g.token row = true
  | _, _ => False

/-- No statement fails, and none deletes a record that an `Acquire` is still to
read. -/
structure KeepsAwaited (w : World P) (label : Label P) : Prop where
  reliable : ∀ i, label ≠ .fail i
  kept : ∀ row ∈ w.rows, Deletes w label row → ∀ j, (w.requests j).awaits ≠ some row.scope

/-- Every record that an `Acquire` is still to read is in the table. -/
def AwaitedPresent (w : World P) : Prop :=
  ∀ j scope, (w.requests j).awaits = some scope → ∃ row ∈ w.rows, row.scope = scope

/-! ## Steps that keep it -/

section Moves

variable {options : Options} {mode : Sweep} {w : World P} {i : Nat} {label : Label P}
  {before after : Phase P} {rows : List Row} {events : List (Event P)}

/-- Scopes leave the table only with the rows that the statement deletes. -/
theorem Moves.scope_mem (hmove : Moves mode w i label (w.requests i) after rows events)
    {row : Row} (hrow : row ∈ w.rows) :
    Deletes w label row ∨ ∃ row' ∈ rows, row'.scope = row.scope := by
  have hkept : ∀ rows : List Row, rows.map Row.scope = w.rows.map Row.scope →
      ∃ row' ∈ rows, row'.scope = row.scope := by
    intro rows hscopes
    have hmem : row.scope ∈ rows.map Row.scope := hscopes ▸ List.mem_map_of_mem hrow
    exact List.mem_map.mp hmem
  generalize hphase : w.requests i = before at hmove
  cases hmove with
  | @cleanup p ids hmode hsel =>
      by_cases hid : row.id ∈ ids
      · exact .inl hid
      · exact .inr ⟨row, mem_deleteByID.mpr ⟨hrow, hid⟩, rfl⟩
  | @sweep p ids =>
      by_cases hid : row.id ∈ ids
      · exact .inl ⟨p, ids, hphase, hid⟩
      · exact .inr ⟨row, mem_deleteByID.mpr ⟨hrow, hid⟩, rfl⟩
  | @released g outcome old hold howned =>
      by_cases howned' : ownedInProgress g.id g.token row = true
      · exact .inl ⟨g, outcome, hphase, howned'⟩
      · exact .inr ⟨row, Table.mem_deleteWhere.mpr ⟨hrow, by simpa using howned'⟩, rfl⟩
  | inserted hscope hid => exact .inr ⟨row, List.mem_append_left _ hrow, rfl⟩
  | tookOver hold hcond => exact .inr (hkept _ (Table.map_updateWhere _ (takeOverSet_scope _) _))
  | completed hone | completeLost hone =>
      exact .inr (hkept _ (Table.map_updateWhere _ (completeSet_scope _ _) _))
  | _ => exact .inr ⟨row, hrow, rfl⟩

/-- A request that awaits a record has just met it, or awaited it before. -/
theorem Moves.awaits_after (hmove : Moves mode w i label before after rows events)
    {scope : Scope} (hawaits : after.awaits = some scope) :
    rows = w.rows ∧ ((∃ row ∈ w.rows, row.scope = scope) ∨ before.awaits = some scope) := by
  cases hmove with
  | conflicted hrow hscope =>
      cases hawaits
      exact ⟨rfl, .inl ⟨_, hrow, hscope⟩⟩
  | found hrow hscope hdue =>
      cases hawaits
      exact ⟨rfl, .inl ⟨_, hrow, hscope⟩⟩
  | missed hnone => exact ⟨rfl, .inr hawaits⟩
  | _ => cases hawaits

theorem AwaitedPresent.move (h : AwaitedPresent w) (hlabel : KeepsAwaited w label)
    (hmove : Moves mode w i label (w.requests i) after rows events) :
    AwaitedPresent (w.move i rows after events) := by
  intro j scope hawaits
  rw [World.move_rows]
  by_cases hj : j = i
  · subst hj
    rw [World.move_requests_self] at hawaits
    obtain ⟨hrows, hmet | hbefore⟩ := hmove.awaits_after hawaits
    · exact hrows ▸ hmet
    · exact hrows ▸ h j scope hbefore
  · rw [World.move_requests_of_ne hj] at hawaits
    obtain ⟨row, hrow, hscope⟩ := h j scope hawaits
    rcases hmove.scope_mem hrow with hdeleted | ⟨row', hrow', hsame⟩
    · exact absurd (hscope ▸ hawaits) (hlabel.kept row hrow hdeleted j)
    · exact ⟨row', hrow', hsame.trans hscope⟩

theorem AwaitedPresent.step (h : AwaitedPresent w) {w' : World P} (hlabel : KeepsAwaited w label)
    (hstep : Step options mode w label w') : AwaitedPresent w' := by
  cases hstep with
  | tick hle => exact h
  | @begin i call id ownerToken hidle hid htoken hne =>
      intro j scope hawaits
      apply h j scope
      change ((w.begun i _ _).requests j).awaits = some scope at hawaits
      by_cases hj : j = i
      · subst hj
        rw [World.begun_requests_self] at hawaits
        cases hawaits
      · rwa [World.begun_requests_of_ne hj] at hawaits
  | move hmove => exact h.move hlabel hmove

theorem AwaitedPresent.of_reachable
    (hreach : (system P options mode).ReachableBy KeepsAwaited w) : AwaitedPresent w := by
  apply hreach.invariant
  · intro w hinit j scope hawaits
    simp [hinit.2.1 j, Phase.awaits] at hawaits
  · intro w label w' _ h hlabel hnext
    exact h.step hlabel (step_of_next hnext)

end Moves

/-! ## What `Acquire` returns -/

section Result

variable {options : Options} {mode : Sweep} {w : World P} {i : Nat}

/-- A move makes `Acquire` fail only where a statement fails or a record that is
still to be read is gone.  Fresh record ids rule out the other error. -/
theorem Moves.acquireResult_after {label : Label P} {after : Phase P} {rows : List Row}
    {events : List (Event P)}
    (hmove : Moves mode w i label (w.requests i) after rows events) (hwf : Wf options w)
    {err : AcquireError} (herr : after.acquireResult = some (.error err)) :
    label = .fail i ∨
      ∃ scope, (w.requests i).awaits = some scope ∧ ∀ row ∈ w.rows, row.scope ≠ scope := by
  generalize hphase : w.requests i = before at hmove
  cases hmove with
  | @violated p row hrow hid =>
      exact absurd (hid ▸ hwf.created row hrow) (hwf.not_created hphase row.scope)
  | @vanished p pc hpc hnone =>
      refine .inr ⟨p.scope, ?_, hnone⟩
      rcases hpc with rfl | rfl <;> rfl
  | acquireFailed => exact .inl rfl
  | _ => cases herr

/-- No `Acquire` has failed. -/
def NoneFailed (w : World P) : Prop :=
  ∀ i err, (w.requests i).acquireResult ≠ some (.error err)

theorem NoneFailed.step {label : Label P} {w' : World P} (h : NoneFailed w) (hwf : Wf options w)
    (hpresent : AwaitedPresent w) (hlabel : ∀ i, label ≠ .fail i)
    (hstep : Step options mode w label w') : NoneFailed w' := by
  cases hstep with
  | tick hle => exact h
  | @begin i call id ownerToken hidle hid htoken hne =>
      intro j err
      change ((w.begun i _ _).requests j).acquireResult ≠ some (.error err)
      by_cases hj : j = i
      · subst hj
        simp [Phase.acquireResult]
      · rw [World.begun_requests_of_ne hj]
        exact h j err
  | @move i _ after rows events hmove =>
      intro j err
      by_cases hj : j = i
      · subst hj
        rw [World.move_requests_self]
        intro herr
        rcases hmove.acquireResult_after hwf herr with hfail | ⟨scope, hawaits, hnone⟩
        · exact hlabel j hfail
        · obtain ⟨row, hrow, hscope⟩ := hpresent j scope hawaits
          exact hnone row hrow hscope
      · rw [World.move_requests_of_ne hj]
        exact h j err

theorem NoneFailed.of_reachable (hreach : (system P options mode).ReachableBy KeepsAwaited w) :
    NoneFailed w := by
  apply hreach.invariant
  · intro w hinit i err herr
    simp [hinit.2.1 i, Phase.acquireResult] at herr
  · intro w label w' hprior h hlabel hnext
    exact h.step (Wf.of_reachable hprior.reachable) (AwaitedPresent.of_reachable hprior)
      hlabel.reliable (step_of_next hnext)

/-- The statements of `Acquire` delete nothing. -/
theorem keepsAwaited_acquire (w : World P) (i : Nat) : KeepsAwaited w (.acquire i) :=
  ⟨fun _ => by simp, fun _ _ hdeleted => hdeleted.elim⟩

/-- An `Acquire` under way can execute its next statement, and has fewer to go then. -/
theorem next_acquire {p : AcquireParams} {pc : Pc} (hphase : w.requests i = .acquiring p pc) :
    ∃ w', (system P options mode).next w (.acquire i) = some w' ∧
      (w'.requests i).rank < (w.requests i).rank := by
  obtain ⟨after, rows, events, heq, hmove⟩ := moves_resume mode w i p pc
  refine ⟨w.move i rows after events, by simp [system, next, hphase, heq], ?_⟩
  rw [World.move_requests_self, hphase]
  exact hmove.rank_lt

/-- A lookup that meets no record makes `Acquire` fail. -/
theorem next_find_of_absent {p : AcquireParams} {pc : Pc}
    (hphase : w.requests i = .acquiring p pc) (hpc : pc = .find ∨ pc = .findAgain)
    (habsent : ∀ row ∈ w.rows, row.scope ≠ p.scope) :
    (system P options mode).next w (.acquire i) = some (w.move i w.rows
      (.done p none (.unavailable .load)) [.answered i p (.unavailable .load)]) := by
  have hfind : find w.rows p.scope = none := by
    rcases find_cases w.rows p.scope with ⟨-, hnone⟩ | ⟨row, hrow, hscope, -⟩
    · exact hnone
    · exact absurd hscope (habsent row hrow)
  rcases hpc with rfl | rfl <;> simp [system, next, hphase, exec, hfind, World.resume]

/-- A take-over misses where the record is gone: an id belongs to one scope. -/
theorem next_takeOver_of_absent (hwf : Wf options w) {p : AcquireParams} {id : UUID}
    (hphase : w.requests i = .acquiring p (.takeOver id))
    (habsent : ∀ row ∈ w.rows, row.scope ≠ p.scope) :
    (system P options mode).next w (.acquire i) =
      some (w.move i w.rows (.acquiring p .findAgain) []) := by
  rcases takeOver_cases w.rows p id with ⟨-, hmissed⟩ | ⟨row, hrow, hcond, -⟩
  · simp [system, next, hphase, exec, hmissed, World.resume]
  · have hid : row.id = id := (takeOverCond_iff.mp hcond).1
    exact absurd (hwf.takeOver_scope hphase hrow hid) (habsent row hrow)

/-- An `Acquire` whose record is gone fails when it goes on. -/
theorem fails_of_absent (hwf : Wf options w) {scope : Scope}
    (hawaits : (w.requests i).awaits = some scope)
    (habsent : ∀ row ∈ w.rows, row.scope ≠ scope) :
    ∃ n w', (system P options mode).run w (List.replicate n (.acquire i)) = some w' ∧
      ∃ err, (w'.requests i).acquireResult = some (.error err) := by
  cases hphase : w.requests i with
  | acquiring p pc =>
      rw [hphase] at hawaits
      cases pc with
      | insert => cases hawaits
      | find | findAgain =>
          cases hawaits
          have hfails : (system P options mode).next w (.acquire i) = some _ :=
            next_find_of_absent hphase (by simp) habsent
          refine ⟨1, _, by rw [List.replicate_one, System.run_cons, hfails]; rfl, .load, ?_⟩
          rw [World.move_requests_self]
          rfl
      | takeOver id =>
          cases hawaits
          have hmisses : (system P options mode).next w (.acquire i) = some _ :=
            next_takeOver_of_absent hwf hphase habsent
          have hfails : (system P options mode).next
              (w.move i w.rows (.acquiring p .findAgain) []) (.acquire i) = some _ :=
            next_find_of_absent World.move_requests_self (.inr rfl) habsent
          refine ⟨2, _, by rw [List.replicate_succ, List.replicate_one, System.run_cons, hmisses,
            Option.bind_some, System.run_cons, hfails]; rfl, .load, ?_⟩
          rw [World.move_requests_self]
          rfl
  | _ =>
      rw [hphase] at hawaits
      cases hawaits

/-- While only one request executes the statements of its `Acquire`, nothing is
deleted. -/
theorem NoneFailed.run (h : NoneFailed w) (hreach : (system P options mode).Reachable w)
    (hpresent : AwaitedPresent w) {n : Nat} {w' : World P}
    (hrun : (system P options mode).run w (List.replicate n (.acquire i)) = some w') :
    NoneFailed w' := by
  induction n generalizing w with
  | zero =>
      rw [List.replicate_zero, System.run_nil, Option.some.injEq] at hrun
      exact hrun ▸ h
  | succ n ih =>
      rw [List.replicate_succ, System.run_cons, Option.bind_eq_some_iff] at hrun
      obtain ⟨mid, hmid, hrest⟩ := hrun
      have hstep := step_of_next hmid
      have hlabel := keepsAwaited_acquire w i
      exact ih (h.step (Wf.of_reachable hreach) hpresent hlabel.reliable hstep)
        (hreach.step hmid) (hpresent.step hlabel hstep) hrest

end Result

/-! ## Exactness -/

/-- A statement that deletes the record of a scope leaves no row of it. -/
theorem absent_of_deletes {options : Options} {mode : Sweep} {w w' : World P} {label : Label P}
    (hwf : Wf options w) (hnext : (system P options mode).next w label = some w') {row : Row}
    (hrow : row ∈ w.rows) (hdeleted : Deletes w label row) :
    ∀ other ∈ w'.rows, other.scope ≠ row.scope := by
  have hgone : ∀ cond : Row → Bool, cond row = true →
      ∀ other ∈ Table.deleteWhere cond w.rows, other.scope ≠ row.scope := by
    intro cond hcond other hother hscope
    obtain ⟨hmem, hfalse⟩ := Table.mem_deleteWhere.mp hother
    obtain rfl := Table.eq_of_key_eq hwf.scopes hmem hrow hscope
    rw [hcond] at hfalse
    cases hfalse
  cases step_of_next hnext with
  | tick hle => exact hdeleted.elim
  | begin hidle hid htoken hne => exact hdeleted.elim
  | @move i _ after rows events hmove =>
      rw [World.move_rows]
      generalize hphase : w.requests i = before at hmove
      cases hmove with
      | cleanup hmode hsel => exact hgone _ (decide_eq_true hdeleted)
      | sweep =>
          obtain ⟨p, ids, hsweeping, hid⟩ := hdeleted
          cases hphase.symm.trans hsweeping
          exact hgone _ (decide_eq_true hid)
      | released hold howned =>
          obtain ⟨g, outcome, hreleasing, howned'⟩ := hdeleted
          cases hphase.symm.trans hreleasing
          exact hgone _ howned'
      | releaseMissed hnone =>
          obtain ⟨g, outcome, hreleasing, howned'⟩ := hdeleted
          cases hphase.symm.trans hreleasing
          rw [hnone row hrow] at howned'
          cases howned'
      | completed hone | completeLost hone =>
          obtain ⟨g, outcome, hreleasing, -⟩ := hdeleted
          cases hphase.symm.trans hreleasing
      | _ => exact hdeleted.elim

/-- A deletion is not the step of a request that awaits a record. -/
theorem awaits_of_deletes {options : Options} {mode : Sweep} {w w' : World P} {label : Label P}
    (hnext : (system P options mode).next w label = some w') {row : Row}
    (hdeleted : Deletes w label row) {j : Nat} {scope : Scope}
    (hawaits : (w.requests j).awaits = some scope) : (w'.requests j).awaits = some scope := by
  cases step_of_next hnext with
  | tick hle => exact hdeleted.elim
  | begin hidle hid htoken hne => exact hdeleted.elim
  | @move i _ after rows events hmove =>
      have hj : j ≠ i := by
        rintro rfl
        generalize w.requests j = before at hmove hawaits
        cases hmove with
        | conflicted | violated | found | tookOver | missed | refused | vanished =>
            exact hdeleted.elim
        | acquireFailed => exact hdeleted.elim
        | _ => cases hawaits
      rw [World.move_requests_of_ne hj, hawaits]

/-- In every run in which no statement fails or deletes a record that an `Acquire`
is still to read, no `Acquire` fails and every one of them comes to its return.
The first step that deletes such a record leaves an `Acquire` that fails if it
goes on, and no other step does. -/
theorem acquire_answers_iff_kept {options : Options} {mode : Sweep} {w : World P}
    (hreach : (system P options mode).ReachableBy KeepsAwaited w) :
    NoneFailed w ∧
    (∀ i p pc, w.requests i = .acquiring p pc → KeepsAwaited w (.acquire i) ∧
      ∃ w', (system P options mode).next w (.acquire i) = some w' ∧
        (w'.requests i).rank < (w.requests i).rank) ∧
    ∀ label w', (∀ i, label ≠ .fail i) → (system P options mode).next w label = some w' →
      ((∀ i n w'', (system P options mode).run w' (List.replicate n (.acquire i)) = some w'' →
        NoneFailed w'') ↔ KeepsAwaited w label) := by
  have hwf := Wf.of_reachable hreach.reachable
  have hnone := NoneFailed.of_reachable hreach
  have hpresent := AwaitedPresent.of_reachable hreach
  refine ⟨hnone, fun i p pc hphase => ⟨keepsAwaited_acquire w i, next_acquire hphase⟩, ?_⟩
  intro label w' hreliable hnext
  have hstep := step_of_next hnext
  constructor
  · intro hruns
    refine ⟨hreliable, fun row hrow hdeleted j hawaits => ?_⟩
    obtain ⟨n, w'', hrun, err, herr⟩ := fails_of_absent (hwf.step hstep)
      (awaits_of_deletes hnext hdeleted hawaits) (absent_of_deletes hwf hnext hrow hdeleted)
    exact hruns j n w'' hrun j err herr
  · intro hlabel i n w'' hrun
    exact (hnone.step hwf hpresent hreliable hstep).run (hreach.reachable.step hnext)
      (hpresent.step hlabel hstep) hrun

/-! ## A record that is released too early -/

/-- A test that only steps without a failure or a deletion pass. -/
def deletesNothing (w : World P) : Label P → Bool
  | .cleanup _ ids => ids = []
  | .finish i =>
      match w.requests i with
      | .releasing _ _ => false
      | _ => true
  | .sweep _ | .fail _ => false
  | _ => true

theorem keepsAwaited_of_deletesNothing (w : World P) (label : Label P)
    (hlabel : deletesNothing w label = true) : KeepsAwaited w label := by
  cases label with
  | cleanup i ids =>
      obtain rfl : ids = [] := of_decide_eq_true hlabel
      exact ⟨by simp, fun row _ hdeleted => absurd hdeleted List.not_mem_nil⟩
  | finish i =>
      refine ⟨by simp, fun row _ hdeleted => ?_⟩
      obtain ⟨g, outcome, hphase, -⟩ := hdeleted
      simp [deletesNothing, hphase] at hlabel
  | sweep i | fail i => cases hlabel
  | _ => exact ⟨by simp, fun _ _ hdeleted => hdeleted.elim⟩

/-- A request reserves a key and another one with the same key meets its record. -/
def meetingRun : List (Label Protobuf.sample) :=
  let call : Call := ⟨.ofNat 1, "/rbac.v1.RBACService/AssignRole", [7], [9]⟩
  [.begin 0 call (.ofNat 10) (.ofNat 11), .cleanup 0 [], .acquire 0,
    .begin 1 call (.ofNat 20) (.ofNat 21), .cleanup 1 [], .acquire 1, .acquire 1]

theorem acquire_answers_meetingRun :
    ∃ w, ((system Protobuf.sample defaultOptions .atomic).restrict deletesNothing).run
        (World.start 0) meetingRun = some w ∧
      (w.requests 0).acquireResult.isSome = true ∧ (w.requests 1).acquireResult.isSome = true ∧
      NoneFailed w := by
  have heval : (((system Protobuf.sample defaultOptions .atomic).restrict deletesNothing).run
      (World.start 0) meetingRun).map (fun w => ((w.requests 0).acquireResult.isSome,
        (w.requests 1).acquireResult.isSome)) = some (true, true) := by
    decide +kernel
  obtain ⟨w, hrun, hreturned⟩ := Option.map_eq_some_iff.mp heval
  rw [Prod.mk.injEq] at hreturned
  have hreach := System.ReachableBy.run_restrict
    (fun w label _ => keepsAwaited_of_deletesNothing w label) (init_start defaultOptions .atomic 0)
    hrun
  exact ⟨w, hrun, hreturned.1, hreturned.2, (acquire_answers_iff_kept hreach).1⟩

/-- A request reserves a key and its handler fails transiently.  Another request
meets the record, which is released before the other one reads it. -/
def releasedRun : List (Label Protobuf.sample) :=
  let call : Call := ⟨.ofNat 1, "/rbac.v1.RBACService/AssignRole", [7], [9]⟩
  [.begin 0 call (.ofNat 10) (.ofNat 11), .cleanup 0 [], .acquire 0,
    .handler 0 ⟨.other, some (.plain "connection reset")⟩,
    .begin 1 call (.ofNat 20) (.ofNat 21), .cleanup 1 [], .acquire 1, .finish 0, .acquire 1]

theorem acquire_fails_releasedRun :
    ¬ ∀ w, (system Protobuf.sample defaultOptions .atomic).ReachableBy
        (fun _ label => ∀ i, label ≠ .fail i) w → NoneFailed w := by
  intro hall
  have heval : (((system Protobuf.sample defaultOptions .atomic).run
      (World.start 0) releasedRun).map fun w => ((w.requests 1).acquireResult.any fun result =>
        result.toOption.isNone)) = some true := by
    decide +kernel
  obtain ⟨w, hrun, hfailed⟩ := Option.map_eq_some_iff.mp heval
  have hreach : (system Protobuf.sample defaultOptions .atomic).ReachableBy
      (fun _ label => ∀ i, label ≠ .fail i) w := by
    refine System.ReachableBy.run (.init (init_start defaultOptions .atomic 0)) ?_ hrun
    simp [releasedRun]
  cases hresult : (w.requests 1).acquireResult with
  | none => simp [hresult] at hfailed
  | some result =>
      cases result with
      | ok disposition => simp [hresult, Except.toOption] at hfailed
      | error err => exact hall w hreach 1 err hresult

end GoFoundation.Idempotency
