/-
# The two guards of the take-over

`Acquire` asks twice whether a record may be taken over: in Go, of the record that `find`
scanned, with the clock as it was read; and in the `WHERE` condition of the `UPDATE`, of
the row, with the clock cut down to whole microseconds and a lock that may be `NULL`.

The two agree on every row.  So a request that goes on to the take-over is granted the
reservation if the row still stands as it was read.  It misses, and looks the record up
again, only if another request was there in between.
-/

import GoFoundation.Idempotency.Sweeping

namespace GoFoundation.Idempotency

open Library Postgres Grpc

variable {P : Protobuf}

/-! ## Into the take-over -/

section Branch

variable {p : AcquireParams} {rows : List Row} {id : UUID}

/-- `Acquire` enters the take-over with the id of a row of the scope whose reservation is
over. -/
theorem over_of_exec_find (hexec : exec p .find rows = (rows, .goto (.takeOver id))) :
    ∃ row ∈ rows, row.scope = p.scope ∧ row.id = id ∧ row.Over p.now := by
  rcases find_cases rows p.scope with ⟨-, hfind⟩ | ⟨row, hrow, hscope, hfind⟩
  · simp [exec, hfind] at hexec
  · cases hdue : takeOverDue row.toRecord p.now with
    | false => simp [exec, hfind, hdue] at hexec
    | true =>
        have hid : row.id = id := by simpa [exec, hfind, hdue] using hexec
        exact ⟨row, hrow, hscope, hid, takeOverDue_iff_over.mp hdue⟩

/-- The take-over of a row whose reservation is over is granted. -/
theorem Records.exec_takeOver_of_over (table : Records) {row : Row} (hrow : row ∈ table.rows)
    (hover : row.Over p.now) :
    exec p (.takeOver row.id) table.rows =
      (Table.updateWhere (takeOverCond p row.id) (takeOverSet p) table.rows,
        .returns (takeOverSet p row).toRecord .acquired) :=
  exec_takeOver_of_row table.ids hrow ((takeOverCond_iff_over (table.timed hrow)).mpr hover)

/-- What a call of `Acquire` turns away with has not expired. -/
theorem Records.live_of_refused (table : Records) {ids : List UUID} {record : Record}
    {disposition : Disposition}
    (hacquire : (acquire p ids table.rows).2 = .ok (record, disposition))
    (hrefused : disposition ≠ .acquired) : p.now < record.expiresAt := by
  by_cases hstands : ∃ row ∈ deleteByID ids table.rows, row.scope = p.scope
  · obtain ⟨row, hrow, hscope⟩ := hstands
    cases hdue : takeOverDue row.toRecord p.now with
    | true =>
        rw [table.acquire_takes_over hrow hscope hdue, Except.ok.injEq, Prod.mk.injEq] at hacquire
        exact absurd hacquire.2.symm hrefused
    | false =>
        rw [acquire_of_not_due table.scopes hrow hscope hdue, Except.ok.injEq,
          Prod.mk.injEq] at hacquire
        rw [← hacquire.1]
        have hnot : ¬ row.Over p.now := by
          rw [← takeOverDue_iff_over, hdue]
          exact Bool.false_ne_true
        exact Int.not_le.mp fun hle => hnot (.inl hle)
  · -- Without a row of the scope the `INSERT` grants the reservation or fails.
    cases hins : insertReservation (deleteByID ids table.rows) p with
    | inserted row =>
        have hexec : exec p .insert (deleteByID ids table.rows) =
            (deleteByID ids table.rows ++ [row], .returns row.toRecord .acquired) := by
          simp [exec, hins]
        rw [acquire, acquireFrom_returns hexec, Except.ok.injEq, Prod.mk.injEq] at hacquire
        exact absurd hacquire.2.symm hrefused
    | conflict => exact absurd (insertReservation_eq_conflict hins) hstands
    | uniqueViolation => simp [acquire, acquireFrom, exec, hins] at hacquire

end Branch

/-- The test in Go, of the record that `find` scans, and the `WHERE` condition agree on
every row, whatever the clock reads.  A request that enters the take-over with a row of
`before` is granted the reservation if the row stands in `after` as it was, whatever became
of the other rows.  A call of `Acquire` that nobody interrupts is turned away only with a
record that has not expired. -/
theorem take_over_guards_agree :
    (∀ row : Row, row.Timed → ∀ p : AcquireParams,
      takeOverDue row.toRecord p.now = takeOverCond p row.id row) ∧
    (∀ (before after : Records) (p : AcquireParams) (id : UUID),
      exec p .find before.rows = (before.rows, .goto (.takeOver id)) →
      ∃ row ∈ before.rows, row.scope = p.scope ∧ row.id = id ∧
        (row ∈ after.rows → exec p (.takeOver id) after.rows =
          (Table.updateWhere (takeOverCond p id) (takeOverSet p) after.rows,
            .returns (takeOverSet p row).toRecord .acquired))) ∧
    ∀ (table : Records) (p : AcquireParams) (ids : List UUID) (record : Record)
      (disposition : Disposition),
      (acquire p ids table.rows).2 = .ok (record, disposition) → disposition ≠ .acquired →
      p.now < record.expiresAt := by
  refine ⟨?_, ?_, ?_⟩
  · intro row htimed p
    rw [Bool.eq_iff_iff]
    exact takeOverDue_iff_over.trans (takeOverCond_iff_over htimed).symm
  · intro before after p id hexec
    obtain ⟨row, hrow, hscope, rfl, hover⟩ := over_of_exec_find hexec
    exact ⟨row, hrow, hscope, rfl, fun hkept => after.exec_takeOver_of_over hkept hover⟩
  · intro table p ids record disposition hacquire hrefused
    exact table.live_of_refused hacquire hrefused

/-- The table once a cleanup has removed the rows. -/
def Records.without (table : Records) (ids : List UUID) : Records where
  rows := deleteByID ids table.rows
  ids := Table.nodup_map_deleteWhere table.ids
  scopes := Table.nodup_map_deleteWhere table.scopes
  expiresAt row hrow := table.expiresAt row (mem_deleteByID.mp hrow).1
  lockedUntil row hrow := table.lockedUntil row (mem_deleteByID.mp hrow).1

/-- Half a microsecond past the expiry, with a cleanup of another row in between. -/
theorem take_over_guards_agree_backlog :
    ∃ row ∈ backlog.rows, row.expiresAt = 90000 ∧ backlogParams.now = 90500 ∧
      exec backlogParams (.takeOver row.id) (backlog.without [.ofNat 2]).rows =
        (Table.updateWhere (takeOverCond backlogParams row.id) (takeOverSet backlogParams)
            (backlog.without [.ofNat 2]).rows,
          .returns (takeOverSet backlogParams row).toRecord .acquired) := by
  obtain ⟨row, hrow, hscope, hid, hgranted⟩ := take_over_guards_agree.2.1 backlog
    (backlog.without [.ofNat 2]) backlogParams (.ofNat 1) (by decide +kernel)
  have hexpiry : ∀ row ∈ backlog.rows, row.id = .ofNat 1 →
      row.expiresAt = 90000 ∧ row.id ∉ [UUID.ofNat 2] := by
    decide +kernel
  obtain ⟨hexpires, hstays⟩ := hexpiry row hrow hid
  refine ⟨row, hrow, hexpires, rfl, ?_⟩
  rw [hid]
  exact hgranted (mem_deleteByID.mpr ⟨hrow, hstays⟩)

/-! ## In a run -/

section Run

variable {options : Options} {mode : Sweep}

/-- The table of a world that requests can reach. -/
def recordsOf {w : World P} (hreach : (system P options mode).Reachable w) : Records where
  rows := w.rows
  ids := (Wf.of_reachable hreach).ids
  scopes := (Wf.of_reachable hreach).scopes
  expiresAt row hrow := (timed_of_reachable hreach row hrow).expiresAt
  lockedUntil row hrow := (timed_of_reachable hreach row hrow).lockedUntil

/-- Whatever other requests do after the lookup in `w`: while the row that it read stands
as it was, the request that has entered the take-over needs one more statement to go on to
its handler. -/
theorem executing_of_unchanged {w : World P} {p : AcquireParams} {id : UUID}
    (hbranch : exec p .find w.rows = (w.rows, .goto (.takeOver id))) :
    ∃ row ∈ w.rows, row.scope = p.scope ∧ row.id = id ∧
      ∀ (u : World P) (i : Nat), (system P options mode).Reachable u →
        u.requests i = .acquiring p (.takeOver id) → row ∈ u.rows →
        ∃ u', (system P options mode).next u (.acquire i) = some u' ∧
          u'.requests i = .executing ⟨i, p, id⟩ := by
  obtain ⟨row, hrow, hscope, rfl, hover⟩ := over_of_exec_find hbranch
  refine ⟨row, hrow, hscope, rfl, ?_⟩
  intro u i hreach hphase hkept
  have hgranted := (recordsOf hreach).exec_takeOver_of_over (p := p) hkept hover
  have hexec : exec p (.takeOver row.id) u.rows =
      (Table.updateWhere (takeOverCond p row.id) (takeOverSet p) u.rows,
        .returns (takeOverSet p row).toRecord .acquired) := hgranted
  refine ⟨u.resume i p (exec p (.takeOver row.id) u.rows), ?_, ?_⟩
  · simp only [system, next, hphase]
  · rw [hexec]
    exact World.move_requests_self

end Run

end GoFoundation.Idempotency
