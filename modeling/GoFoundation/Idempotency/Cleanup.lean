/-
# What a cleanup may delete

`cleanupExpired` tests the expiry in its sub-select only; the `DELETE` around it
goes by id.  At READ COMMITTED another request may take one of the selected rows
over in between, and the `DELETE` then removes a live reservation.

This module shows such a run, and that nothing else can go wrong: as long as no
take-over revives a row that a pending cleanup has selected, every row a cleanup
deletes has expired.  The condition is exact, step by step.
-/

import GoFoundation.Idempotency.Invariant

namespace GoFoundation.Idempotency

open Library Postgres Grpc

variable {P : Protobuf}

/-- Whatever a cleanup under way would delete now has expired by the cleanup's
`now`, and is not inside a lock window. -/
structure DeletesExpired (w : World P) : Prop where
  expired : ∀ i p ids, w.requests i = .sweeping p ids →
    ∀ row ∈ w.rows, row ∉ deleteByID ids w.rows → row.expiresAt ≤ p.now
  unlocked : ∀ i p ids, w.requests i = .sweeping p ids →
    ∀ row ∈ w.rows, row ∉ deleteByID ids w.rows → row.state = .inProgress →
      ∀ locked, row.lockedUntil = some locked → locked ≤ w.clock

/-- A step that takes no row over which a cleanup under way has selected, except
under terms that have expired for that cleanup too. -/
def NoRevival (w : World P) : Label P → Prop
  | .acquire j => ∀ q id, w.requests j = .acquiring q (.takeOver id) →
      (∃ row ∈ w.rows, takeOverCond q id row = true) →
        ∀ i p ids, w.requests i = .sweeping p ids → id ∈ ids →
          toTimestamptz q.expiresAt ≤ p.now
  | _ => True

section Moves

variable {mode : Sweep} {w : World P} {i : Nat} {label : Label P} {before : Phase P}
  {rows : List Row} {events : List (Event P)}

/-- A cleanup gets under way by taking its snapshot. -/
theorem Moves.sweeping_after {p : AcquireParams} {ids : List UUID}
    (hmove : Moves mode w i label before (.sweeping p ids) rows events) :
    SelectsExpired w.rows (toTimestamptz p.now) ids ∧ rows = w.rows := by
  cases hmove with
  | snapshot hmode hsel => exact ⟨hsel, rfl⟩

/-- A take-over is the statement of its own request. -/
theorem Moves.label_takeOver {p : AcquireParams} {id : UUID} {g : Grant}
    (hmove : Moves mode w i label (.acquiring p (.takeOver id)) (.executing g) rows events) :
    label = .acquire i := by
  cases hmove
  rfl

end Moves

/-- The ids a cleanup has selected belong to requests that are past their `INSERT`. -/
def SelectsCreated (w : World P) : Prop :=
  ∀ i p ids, w.requests i = .sweeping p ids → ∀ id ∈ ids, ∃ scope, Created w id scope

/-- The rows a cleanup has selected, as far as they are still there, have expired. -/
def SelectionExpired (w : World P) : Prop :=
  ∀ i p ids, w.requests i = .sweeping p ids →
    ∀ row ∈ w.rows, row.id ∈ ids → row.expiresAt ≤ p.now

/-- A request that begins is not in the middle of a cleanup. -/
theorem sweeping_of_begun {w : World P} {i j : Nat} {p q : AcquireParams} {ids issued : List UUID}
    (hphase : (w.begun i p issued).requests j = .sweeping q ids) :
    w.requests j = .sweeping q ids := by
  by_cases hj : j = i
  · subst hj
    simp at hphase
  · rwa [World.begun_requests_of_ne hj] at hphase

section Invariants

variable {options : Options} {mode : Sweep} {w : World P}

theorem SelectsCreated.begin (h : SelectsCreated w) {i : Nat} {p : AcquireParams}
    {issued : List UUID} (hidle : w.requests i = .idle) :
    SelectsCreated (w.begun i p issued) := by
  intro j q ids hphase id hid
  obtain ⟨scope, hcreated⟩ := h j q ids (sweeping_of_begun hphase) id hid
  exact ⟨scope, hcreated.begun hidle⟩

theorem SelectsCreated.move (h : SelectsCreated w) (hwf : Wf options w) {i : Nat}
    {label : Label P} {after : Phase P} {rows : List Row} {events : List (Event P)}
    (hmove : Moves mode w i label (w.requests i) after rows events) :
    SelectsCreated (w.move i rows after events) := by
  intro j p ids hphase id hid
  by_cases hj : j = i
  · subst hj
    rw [World.move_requests_self] at hphase
    subst hphase
    obtain ⟨row, hrow, rfl, -⟩ := hmove.sweeping_after.1.2.1 id hid
    exact ⟨row.scope, (hwf.created row hrow).move hmove⟩
  · rw [World.move_requests_of_ne hj] at hphase
    obtain ⟨scope, hcreated⟩ := h j p ids hphase id hid
    exact ⟨scope, hcreated.move hmove⟩

theorem SelectsCreated.of_reachable (hreach : (system P options mode).Reachable w) :
    SelectsCreated w := by
  apply hreach.invariant
  · intro w hinit i p ids hphase
    simp [hinit.2.1 i] at hphase
  · intro w label w' hprior h hnext
    cases step_of_next hnext with
    | tick hle => exact h
    | begin hidle hid htoken hne => exact h.begin hidle
    | move hmove => exact h.move (Wf.of_reachable hprior) hmove

/-- A row cannot be inserted under an id that a cleanup has selected before. -/
theorem SelectsCreated.insert_not_mem (h : SelectsCreated w) (hwf : Wf options w) {i j : Nat}
    {p q : AcquireParams} {ids : List UUID} (hsweeping : w.requests j = .sweeping p ids)
    (hinsert : w.requests i = .acquiring q .insert) : q.id ∉ ids := by
  intro hid
  obtain ⟨scope, hcreated⟩ := h j p ids hsweeping _ hid
  exact hwf.not_created hinsert scope hcreated

theorem SelectionExpired.move (h : SelectionExpired w) (hwf : Wf options w)
    (hcreated : SelectsCreated w) {i : Nat} {label : Label P} {after : Phase P}
    {rows : List Row} {events : List (Event P)} (hlabel : NoRevival w label)
    (hmove : Moves mode w i label (w.requests i) after rows events) :
    SelectionExpired (w.move i rows after events) := by
  intro j p ids hphase row hrow hid
  by_cases hj : j = i
  · -- The snapshot has just been taken: its rows are those of the table.
    subst hj
    rw [World.move_requests_self] at hphase
    subst hphase
    obtain ⟨hsel, hrows⟩ := hmove.sweeping_after
    have hmem : row ∈ w.rows := hrows ▸ hrow
    obtain ⟨row', hrow', hid', hexp⟩ := hsel.2.1 row.id hid
    have hsame : row' = row := Table.eq_of_key_eq hwf.ids hrow' hmem hid'
    exact hsame ▸ hexp.trans (toTimestamptz_le _)
  · rw [World.move_requests_of_ne hj] at hphase
    rcases hmove.mem_rows hrow with hold | ⟨q, hbefore, -, rfl⟩ |
      ⟨q, id, old, hbefore, hafter, hold, hcond, rfl⟩ |
      ⟨g, outcome, result, old, -, hold, -, rfl⟩
    · exact h j p ids hphase row hold hid
    · exact absurd hid (hcreated.insert_not_mem hwf hphase hbefore)
    · rw [hbefore, hafter] at hmove
      obtain rfl := hmove.label_takeOver
      obtain ⟨rfl, -⟩ := takeOverCond_iff.mp hcond
      exact hlabel q old.id hbefore ⟨old, hold, hcond⟩ j p ids hphase hid
    · exact h j p ids hphase old hold hid

theorem SelectionExpired.step (h : SelectionExpired w) (hwf : Wf options w)
    (hcreated : SelectsCreated w) {label : Label P} {w' : World P}
    (hlabel : NoRevival w label) (hstep : Step options mode w label w') :
    SelectionExpired w' := by
  cases hstep with
  | tick hle => exact h
  | begin hidle hid htoken hne =>
      exact fun j p ids hphase => h j p ids (sweeping_of_begun hphase)
  | move hmove => exact h.move hwf hcreated hlabel hmove

theorem SelectionExpired.of_reachable
    (hreach : (system P options mode).ReachableBy NoRevival w) : SelectionExpired w := by
  apply hreach.invariant
  · intro w hinit i p ids hphase
    simp [hinit.2.1 i] at hphase
  · intro w label w' hprior h hlabel hnext
    exact h.step (Wf.of_reachable hprior.reachable)
      (SelectsCreated.of_reachable hprior.reachable) hlabel (step_of_next hnext)

/-- Selected rows that have expired are out of their lock windows. -/
theorem SelectionExpired.deletesExpired (h : SelectionExpired w) (hwf : Wf options w) :
    DeletesExpired w := by
  have hexpired : ∀ i p ids, w.requests i = .sweeping p ids →
      ∀ row ∈ w.rows, row ∉ deleteByID ids w.rows → row.expiresAt ≤ p.now := by
    intro i p ids hphase row hrow hdeleted
    have hid : row.id ∈ ids := by
      by_contra hid
      exact hdeleted (mem_deleteByID.mpr ⟨hrow, hid⟩)
    exact h i p ids hphase row hrow hid
  refine ⟨hexpired, ?_⟩
  intro i p ids hphase row hrow hdeleted hstate locked hlocked
  obtain ⟨g, hg, hres⟩ := hwf.owned row hrow
  have hlock : locked = g.lockedUntil :=
    Option.some.inj (hlocked.symm.trans (hres.lockedUntil hstate))
  obtain ⟨-, -, hnow, -⟩ := hwf.params i p (by rw [hphase]; rfl)
  obtain ⟨-, -, -, hlockedUntil, hexpiresAt⟩ :=
    hwf.params g.request g.params (hwf.grants g.request g hg).2
  have hlt := options.lockTimeout_lt
  have hterms : g.lockedUntil ≤ g.expiresAt :=
    toTimestamptz_mono (show g.params.lockedUntil ≤ g.params.expiresAt by omega)
  calc locked = g.lockedUntil := hlock
    _ ≤ g.expiresAt := hterms
    _ = row.expiresAt := hres.expiresAt.symm
    _ ≤ p.now := hexpired i p ids hphase row hrow hdeleted
    _ ≤ w.clock := hnow

end Invariants

/-- A take-over that revives a selected row leaves it to be deleted alive. -/
theorem revival_deletes_live {options : Options} {mode : Sweep} {w w' : World P}
    {label : Label P} (hnext : (system P options mode).next w label = some w')
    (hrevival : ¬ NoRevival w label) : ¬ DeletesExpired w' := by
  cases label with
  | acquire j =>
      simp only [NoRevival] at hrevival
      push Not at hrevival
      obtain ⟨q, id, hphase, ⟨row, hrow, hcond⟩, i, p, ids, hsweeping, hid, hlt⟩ := hrevival
      obtain ⟨hrowid, -⟩ := takeOverCond_iff.mp hcond
      have hne : i ≠ j := by
        rintro rfl
        simp [hphase] at hsweeping
      rcases takeOver_cases w.rows q id with ⟨hnone, -⟩ | ⟨row', -, -, htakeOver⟩
      · simp [hnone row hrow] at hcond
      · simp only [system, next, hphase, exec, htakeOver, World.resume, Option.some.injEq] at hnext
        subst hnext
        intro hexpired
        have hmem : takeOverSet q row ∈
            Table.updateWhere (takeOverCond q id) (takeOverSet q) w.rows :=
          Table.mem_updateWhere.mpr (.inl ⟨row, hrow, hcond, rfl⟩)
        have hle := hexpired.expired i p ids
          ((World.move_requests_of_ne hne).trans hsweeping) _ hmem
          (fun hkept => (mem_deleteByID.mp hkept).2 (by simpa [hrowid] using hid))
        exact absurd hlt (not_lt.mpr hle)
  | _ => exact absurd trivial hrevival

/-- In every run without such a revival, every row a cleanup deletes has expired,
and the first revival breaks this. -/
theorem deletes_expired_iff_no_revival {options : Options} {w : World P}
    (hreach : (system P options .readCommitted).ReachableBy NoRevival w) :
    DeletesExpired w ∧ ∀ label w', (system P options .readCommitted).next w label = some w' →
      (DeletesExpired w' ↔ NoRevival w label) := by
  have hwf := Wf.of_reachable hreach.reachable
  have hselected := SelectionExpired.of_reachable hreach
  refine ⟨hselected.deletesExpired hwf, ?_⟩
  intro label w' hnext
  constructor
  · intro hexpired
    by_contra hrevival
    exact revival_deletes_live hnext hrevival hexpired
  · intro hlabel
    have hstep := step_of_next hnext
    have hcreated := SelectsCreated.of_reachable hreach.reachable
    exact (hselected.step hwf hcreated hlabel hstep).deletesExpired (hwf.step hstep)

/-- The cleanup a request is in the middle of. -/
def Phase.selection : Phase P → Option (AcquireParams × List UUID)
  | sweeping p ids => some (p, ids)
  | _ => none

theorem Phase.selection_eq_some {phase : Phase P} {p : AcquireParams} {ids : List UUID}
    (hselection : phase.selection = some (p, ids)) : phase = .sweeping p ids := by
  cases phase <;> simp [Phase.selection] at hselection
  obtain ⟨rfl, rfl⟩ := hselection
  rfl

/-- A test that every step without a take-over passes. -/
def noTakeOver (w : World P) : Label P → Bool
  | .acquire j =>
      match w.requests j with
      | .acquiring _ (.takeOver _) => false
      | _ => true
  | _ => true

theorem noRevival_of_noTakeOver (w : World P) (label : Label P)
    (hlabel : noTakeOver w label = true) : NoRevival w label := by
  cases label with
  | acquire j =>
      intro q id hphase
      simp [noTakeOver, hphase] at hlabel
  | _ => trivial

/-- A reservation is left behind and the cleanup of another request selects it. -/
def backlogRun : List (Label Protobuf.sample) :=
  let call : Call := ⟨.ofNat 1, "/rbac.v1.RBACService/AssignRole", [7], [9]⟩
  let other : Call := ⟨.ofNat 2, "/user.v1.UserService/CreateUser", [7], [8]⟩
  [.begin 0 call (.ofNat 10) (.ofNat 11), .snapshot 0 [], .sweep 0, .acquire 0,
    .tick 86400000000000, .begin 2 other (.ofNat 30) (.ofNat 31), .snapshot 2 [.ofNat 10]]

theorem deletes_expired_backlogRun :
    ∃ w p, ((system Protobuf.sample defaultOptions .readCommitted).restrict noTakeOver).run
        (World.start 0) backlogRun = some w ∧ w.requests 2 = .sweeping p [.ofNat 10] ∧
      DeletesExpired w := by
  have heval : (((system Protobuf.sample defaultOptions .readCommitted).restrict noTakeOver).run
      (World.start 0) backlogRun).map (fun w => (w.requests 2).selection.any fun selection =>
        selection.2 = [.ofNat 10]) = some true := by
    decide +kernel
  obtain ⟨w, hrun, hpending⟩ := Option.map_eq_some_iff.mp heval
  obtain ⟨⟨p, ids⟩, hselection, hids⟩ := (Option.any_eq_true _ _).mp hpending
  have hinit := init_start (P := Protobuf.sample) defaultOptions .readCommitted 0
  have hreach := System.ReachableBy.run_restrict
    (fun w label _ => noRevival_of_noTakeOver w label) hinit hrun
  obtain rfl : ids = [.ofNat 10] := of_decide_eq_true hids
  exact ⟨w, p, hrun, Phase.selection_eq_some hselection, (deletes_expired_iff_no_revival hreach).1⟩

/-- A request of the past left its reservation behind.  Request `1` finds it a
microsecond before it expires, the cleanup of request `2` selects it when it has
expired, and request `1` takes it over. -/
def revivalRun : List (Label Protobuf.sample) :=
  let call : Call := ⟨.ofNat 1, "/rbac.v1.RBACService/AssignRole", [7], [9]⟩
  let other : Call := ⟨.ofNat 2, "/user.v1.UserService/CreateUser", [7], [8]⟩
  [.begin 0 call (.ofNat 10) (.ofNat 11), .snapshot 0 [], .sweep 0, .acquire 0,
    .tick 86399999999000,
    .begin 1 call (.ofNat 20) (.ofNat 21), .snapshot 1 [], .sweep 1, .acquire 1, .acquire 1,
    .tick 86400000000000,
    .begin 2 other (.ofNat 30) (.ofNat 31), .snapshot 2 [.ofNat 10], .acquire 1]

theorem cleanup_deletes_live_reservation :
    ¬ ∀ w, (system Protobuf.sample defaultOptions .readCommitted).Reachable w →
      DeletesExpired w := by
  intro hall
  have heval : ((system Protobuf.sample defaultOptions .readCommitted).run (World.start 0)
      revivalRun).map (fun w => (w.requests 2).selection.any fun selection =>
        w.rows.any fun row => row.id ∈ selection.2 && selection.1.now < row.expiresAt) =
          some true := by
    decide +kernel
  obtain ⟨w, hrun, hlive⟩ := Option.map_eq_some_iff.mp heval
  obtain ⟨⟨p, ids⟩, hselection, hany⟩ := (Option.any_eq_true _ _).mp hlive
  obtain ⟨row, hrow, hcond⟩ := List.any_eq_true.mp hany
  simp only [Bool.and_eq_true, decide_eq_true_eq] at hcond
  have hinit := init_start (P := Protobuf.sample) defaultOptions .readCommitted 0
  have hexpired := hall w ((System.Reachable.init hinit).run hrun)
  have hle := hexpired.expired 2 p ids (Phase.selection_eq_some hselection) row hrow
    fun hkept => (mem_deleteByID.mp hkept).2 hcond.1
  omega

end GoFoundation.Idempotency
