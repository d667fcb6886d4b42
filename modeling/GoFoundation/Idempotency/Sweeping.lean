/-
# What the cleanup leaves out does not matter

`Acquire` first removes expired rows, at most a hundred, and ignores a failure of
that statement.  An expired row of the requested scope may therefore still stand
when the `INSERT` runs; then the take-over has to do what the `INSERT` would have
done.  The two write different statements: one writes a row, the other resets the
columns of an old one.

`afterSweep` says what `Acquire` is for on a table without expired rows, and
`acquire_refines` shows that `Acquire` does this whichever expired rows the
cleanup removed.  That it does not depend on the choice follows.
-/

import GoFoundation.Idempotency.KeyBinding

namespace GoFoundation.Idempotency

open Library Postgres

/-- The rows `idempotency_records` can hold: the primary key, the unique scope and
the resolution of the two columns that are compared with a clock. -/
structure Records where
  rows : List Row
  ids : (rows.map Row.id).Nodup
  scopes : (rows.map Row.scope).Nodup
  expiresAt : ∀ row ∈ rows, IsTimestamptz row.expiresAt
  lockedUntil : ∀ row ∈ rows, ∀ locked, row.lockedUntil = some locked → IsTimestamptz locked

/-- The condition of `cleanupExpired` on a row. -/
def Row.expired (row : Row) (now : Int) : Bool := row.expiresAt ≤ toTimestamptz now

/-- A cleanup removes expired rows: none, some or all of them. -/
def OnlyExpired (rows : List Row) (now : Int) (ids : List UUID) : Prop :=
  ∀ id ∈ ids, ∃ row ∈ rows, row.id = id ∧ row.expired now

instance (rows : List Row) (now : Int) (ids : List UUID) :
    Decidable (OnlyExpired rows now ids) :=
  inferInstanceAs (Decidable (∀ id ∈ ids, _))

/-- What the statement of `cleanupExpired` selects is such a choice. -/
theorem SelectsExpired.onlyExpired {rows : List Row} {now : Int} {ids : List UUID}
    (hsel : SelectsExpired rows (toTimestamptz now) ids) : OnlyExpired rows now ids := by
  intro id hid
  obtain ⟨row, hrow, hrowID, hexp⟩ := hsel.2.1 id hid
  exact ⟨row, hrow, hrowID, by simpa [Row.expired] using hexp⟩

/-! ## The abstract `Acquire` -/

/-- The row of a scope that has not expired. -/
def liveRow (rows : List Row) (scope : Scope) (now : Int) : Option Row :=
  Table.selectKey Row.scope scope (rows.filter fun row => !row.expired now)

/-- What `Acquire` leaves for the scope and answers when no expired row stands. -/
def afterSweep (rows : List Row) (p : AcquireParams) : Row × Disposition :=
  match liveRow rows p.scope p.now with
  | none => (reservation p, .acquired)
  | some row =>
      if takeOverDue row.toRecord p.now then (takeOverSet p row, .acquired)
      else (row, classify p row.toRecord)

/-- Two rows that differ in `id` and `created_at` at most. -/
def SameApart (first second : Row) : Prop :=
  { first with id := second.id, createdAt := second.createdAt } = second

instance (first second : Row) : Decidable (SameApart first second) :=
  inferInstanceAs (Decidable (_ = _))

@[refl]
theorem SameApart.refl (row : Row) : SameApart row row := rfl

theorem SameApart.symm {first second : Row} (hsame : SameApart first second) :
    SameApart second first := by
  unfold SameApart at *
  rw [← hsame]

theorem SameApart.trans {first second third : Row} (hfirst : SameApart first second)
    (hsecond : SameApart second third) : SameApart first third := by
  unfold SameApart at *
  rw [← hsecond, ← hfirst]

/-- The take-over resets every column that the `INSERT` writes. -/
theorem takeOverSet_sameApart {p : AcquireParams} {row : Row} (hscope : row.scope = p.scope) :
    SameApart (takeOverSet p row) (reservation p) := by
  have hcolumns : row.actorID = p.actorID ∧ row.rpcMethod = p.rpcMethod ∧
      row.keyHash = p.keyHash := by
    simpa [Row.scope, AcquireParams.scope] using hscope
  simp [SameApart, takeOverSet, reservation, hcolumns]

/-! ## The two tests of a take-over -/

section Columns

variable (table : Records) {row : Row} {now : Int}

theorem Records.expired_iff (hrow : row ∈ table.rows) :
    row.expired now = true ↔ row.expiresAt ≤ now := by
  simpa [Row.expired] using le_toTimestamptz_iff (table.expiresAt row hrow)

theorem Records.timed (hrow : row ∈ table.rows) : row.Timed :=
  ⟨table.expiresAt row hrow, table.lockedUntil row hrow⟩

/-- Go's test on the scanned record and the `WHERE` condition agree, on both sides
of `expires_at <= now` and for a lock that is `NULL`. -/
theorem Records.takeOverCond_iff_due {p : AcquireParams} (hrow : row ∈ table.rows) :
    takeOverCond p row.id row = true ↔ takeOverDue row.toRecord p.now = true :=
  (takeOverCond_iff_over (table.timed hrow)).trans takeOverDue_iff_over.symm

theorem Records.due_of_expired {p : AcquireParams} (hrow : row ∈ table.rows)
    (hexp : row.expired p.now = true) : takeOverDue row.toRecord p.now = true :=
  takeOverDue_iff_over.mpr (.inl ((table.expired_iff hrow).mp hexp))

end Columns

/-! ## `Acquire` after any cleanup -/

section Acquire

variable (table : Records) {p : AcquireParams} {ids : List UUID}

/-- A row that has not expired survives the cleanup. -/
theorem Records.mem_deleteByID_iff_of_live (hsweep : OnlyExpired table.rows p.now ids) {row : Row}
    (hlive : row.expired p.now = false) : row ∈ deleteByID ids table.rows ↔ row ∈ table.rows := by
  refine ⟨fun hrow => (mem_deleteByID.mp hrow).1, fun hrow => mem_deleteByID.mpr ⟨hrow, ?_⟩⟩
  intro hid
  obtain ⟨other, hother, hsame, hexp⟩ := hsweep row.id hid
  rw [Table.eq_of_key_eq table.ids hother hrow hsame, hlive] at hexp
  cases hexp

theorem Records.liveRow_eq_some {scope : Scope} {now : Int} {row : Row} :
    liveRow table.rows scope now = some row ↔
      row ∈ table.rows ∧ row.scope = scope ∧ row.expired now = false := by
  have hscopes : ((table.rows.filter fun row => !row.expired now).map Row.scope).Nodup :=
    table.scopes.sublist (List.filter_sublist.map _)
  rw [liveRow, Table.selectKey_eq_some_iff hscopes, List.mem_filter]
  simp only [Bool.not_eq_eq_eq_not, Bool.not_true]
  tauto

/-- A call of `Acquire` on `rows` answered with the disposition of `spec` and left
its row for the scope, up to `id` and `created_at`; the live rows of other scopes
are as they were. -/
structure Acquires (rows : List Row) (p : AcquireParams) (spec : Row × Disposition)
    (result : List Row × Except AcquireError (Record × Disposition)) : Prop where
  answer : ∃ row, result.2 = .ok (row.toRecord, spec.2) ∧ SameApart row spec.1 ∧
    row ∈ result.1 ∧ row.scope = p.scope
  scopes : (result.1.map Row.scope).Nodup
  others : ∀ row, row.scope ≠ p.scope → row.expired p.now = false →
    (row ∈ result.1 ↔ row ∈ rows)

/-- No row of the scope stands: the `INSERT` goes through. -/
theorem Records.acquire_inserts (hfresh : ∀ row ∈ table.rows, row.id = p.id → row.scope = p.scope)
    (hnone : ∀ row ∈ deleteByID ids table.rows, row.scope ≠ p.scope) :
    acquire p ids table.rows =
      (deleteByID ids table.rows ++ [reservation p],
        .ok ((reservation p).toRecord, .acquired)) := by
  have hscope : (deleteByID ids table.rows).any (fun row => row.scope = p.scope) = false := by
    simpa using hnone
  have hid : (deleteByID ids table.rows).any (fun row => row.id = p.id) = false := by
    simp only [List.any_eq_false, decide_eq_true_eq]
    intro row hrow hrowID
    exact hnone row hrow (hfresh row (mem_deleteByID.mp hrow).1 hrowID)
  have hexec : exec p .insert (deleteByID ids table.rows) =
      (deleteByID ids table.rows ++ [reservation p],
        .returns (reservation p).toRecord .acquired) := by
    simp [exec, insertReservation, hscope, hid]
  rw [acquire, acquireFrom_returns hexec]

/-- A row of the scope stands and is due: it alone is rewritten. -/
theorem Records.acquire_takes_over {row : Row} (hrow : row ∈ deleteByID ids table.rows)
    (hscope : row.scope = p.scope) (hdue : takeOverDue row.toRecord p.now = true) :
    acquire p ids table.rows =
      (Table.updateWhere (takeOverCond p row.id) (takeOverSet p) (deleteByID ids table.rows),
        .ok ((takeOverSet p row).toRecord, .acquired)) :=
  acquire_of_due table.ids table.scopes hrow hscope hdue
    ((table.takeOverCond_iff_due (mem_deleteByID.mp hrow).1).mpr hdue)

theorem Records.inserts_refines (hsweep : OnlyExpired table.rows p.now ids)
    (hfresh : ∀ row ∈ table.rows, row.id = p.id → row.scope = p.scope)
    (hnone : ∀ row ∈ deleteByID ids table.rows, row.scope ≠ p.scope) :
    Acquires table.rows p (reservation p, .acquired) (acquire p ids table.rows) := by
  rw [table.acquire_inserts hfresh hnone]
  refine ⟨⟨reservation p, rfl, .refl _, by simp, rfl⟩, ?_, ?_⟩
  · exact Table.nodup_map_append (Table.nodup_map_deleteWhere table.scopes) hnone
  · intro row hscope hlive
    have hnew : row ≠ reservation p := by
      intro heq
      exact hscope (heq ▸ rfl)
    simp [hnew, table.mem_deleteByID_iff_of_live hsweep hlive]

theorem Records.takes_over_refines (hsweep : OnlyExpired table.rows p.now ids) {row : Row}
    (hrow : row ∈ deleteByID ids table.rows) (hscope : row.scope = p.scope)
    (hdue : takeOverDue row.toRecord p.now = true) :
    Acquires table.rows p (takeOverSet p row, .acquired) (acquire p ids table.rows) := by
  have hcond := (table.takeOverCond_iff_due (mem_deleteByID.mp hrow).1).mpr hdue
  have hids : ((deleteByID ids table.rows).map Row.id).Nodup :=
    Table.nodup_map_deleteWhere table.ids
  -- The condition names the primary key, so it meets this row alone.
  have honly := Table.cond_iff_eq hids hrow hcond fun other hother =>
    (takeOverCond_iff.mp hother).1
  rw [table.acquire_takes_over hrow hscope hdue]
  refine ⟨⟨takeOverSet p row, rfl, .refl _, ?_, hscope⟩, ?_, ?_⟩
  · exact Table.mem_updateWhere.mpr (.inl ⟨row, hrow, hcond, rfl⟩)
  · rw [Table.map_updateWhere Row.scope (takeOverSet_scope p)]
    exact Table.nodup_map_deleteWhere table.scopes
  · intro other hother hlive
    rw [← table.mem_deleteByID_iff_of_live hsweep hlive, Table.mem_updateWhere]
    apply Iff.intro
    · rintro (⟨old, hold, holdCond, rfl⟩ | ⟨hmem, -⟩)
      · rw [(honly old hold).mp holdCond] at hother
        exact absurd hscope hother
      · exact hmem
    · intro hmem
      refine .inr ⟨hmem, Bool.eq_false_iff.mpr fun hotherCond => hother ?_⟩
      rw [(honly other hmem).mp hotherCond]
      exact hscope

theorem Records.classifies_refines (hsweep : OnlyExpired table.rows p.now ids) {row : Row}
    (hrow : row ∈ deleteByID ids table.rows) (hscope : row.scope = p.scope)
    (hdue : takeOverDue row.toRecord p.now = false) :
    Acquires table.rows p (row, classify p row.toRecord) (acquire p ids table.rows) := by
  rw [acquire_of_not_due table.scopes hrow hscope hdue]
  exact ⟨⟨row, rfl, .refl _, hrow, hscope⟩, Table.nodup_map_deleteWhere table.scopes,
    fun other _ hlive => table.mem_deleteByID_iff_of_live hsweep hlive⟩

theorem Acquires.congr {rows : List Row} {first second : Row} {disposition : Disposition}
    {result : List Row × Except AcquireError (Record × Disposition)}
    (hacquires : Acquires rows p (first, disposition) result) (hsame : SameApart first second) :
    Acquires rows p (second, disposition) result := by
  obtain ⟨row, hresult, hrow, hmem⟩ := hacquires.answer
  exact ⟨⟨row, hresult, hrow.trans hsame, hmem⟩, hacquires.scopes, hacquires.others⟩

/-- An expired row of the scope is the only one, so nothing live stands there. -/
theorem Records.afterSweep_of_expired {old : Row} (hold : old ∈ table.rows)
    (hscope : old.scope = p.scope) (hexp : old.expired p.now = true) :
    afterSweep table.rows p = (reservation p, .acquired) := by
  have hnone : liveRow table.rows p.scope p.now = none := by
    rw [Option.eq_none_iff_forall_ne_some]
    intro other hother
    obtain ⟨hmem, hotherScope, hlive⟩ := table.liveRow_eq_some.mp hother
    rw [Table.eq_of_key_eq table.scopes hmem hold (hotherScope.trans hscope.symm), hexp] at hlive
    cases hlive
  simp only [afterSweep, hnone]

/-- Whichever expired rows the cleanup removed, `Acquire` does what it does on the
table without expired rows. -/
theorem Records.acquire_refines (hsweep : OnlyExpired table.rows p.now ids)
    (hfresh : ∀ row ∈ table.rows, row.id = p.id → row.scope = p.scope) :
    Acquires table.rows p (afterSweep table.rows p) (acquire p ids table.rows) := by
  by_cases hstands : ∃ row ∈ deleteByID ids table.rows, row.scope = p.scope
  · obtain ⟨row, hrow, hscope⟩ := hstands
    have hrows := (mem_deleteByID.mp hrow).1
    cases hexp : row.expired p.now with
    | false =>
        have hlive := table.liveRow_eq_some.mpr ⟨hrows, hscope, hexp⟩
        cases hdue : takeOverDue row.toRecord p.now with
        | true =>
            simp only [afterSweep, hlive, hdue, if_true]
            exact table.takes_over_refines hsweep hrow hscope hdue
        | false =>
            simp only [afterSweep, hlive, hdue, Bool.false_eq_true, if_false]
            exact table.classifies_refines hsweep hrow hscope hdue
    | true =>
        -- The row the cleanup left behind is the only one of its scope.
        rw [table.afterSweep_of_expired hrows hscope hexp]
        exact (table.takes_over_refines hsweep hrow hscope
          (table.due_of_expired hrows hexp)).congr (takeOverSet_sameApart hscope)
  · have hgone : ∀ row ∈ deleteByID ids table.rows, row.scope ≠ p.scope := by
      simpa using hstands
    have hnone : liveRow table.rows p.scope p.now = none := by
      rw [Option.eq_none_iff_forall_ne_some]
      intro other hother
      obtain ⟨hmem, hotherScope, hlive⟩ := table.liveRow_eq_some.mp hother
      exact hgone other ((table.mem_deleteByID_iff_of_live hsweep hlive).mpr hmem) hotherScope
    simp only [afterSweep, hnone]
    exact table.inserts_refines hsweep hfresh hgone

end Acquire

/-! ## Independence of the cleanup -/

/-- What two calls of `Acquire` on the same table have in common: the disposition,
the row left for the scope apart from `id` and `created_at`, and the live rows of
other scopes, which are those of the table. -/
structure SameAcquire (rows : List Row) (p : AcquireParams)
    (first second : List Row × Except AcquireError (Record × Disposition)) : Prop where
  answer : ∃ row other disposition,
    first.2 = .ok (Row.toRecord row, disposition) ∧
    second.2 = .ok (Row.toRecord other, disposition) ∧
    Table.selectKey Row.scope p.scope first.1 = some row ∧
    Table.selectKey Row.scope p.scope second.1 = some other ∧ SameApart row other ∧
    ((∃ old ∈ rows, old.scope = p.scope ∧ old.expired p.now) → disposition = .acquired)
  others : ∀ row, row.scope ≠ p.scope → row.expired p.now = false →
    (row ∈ first.1 ↔ row ∈ rows) ∧ (row ∈ second.1 ↔ row ∈ rows)

/-- `Acquire` does the same after any two cleanups.  The id of the request is a new
one, as `uuid.NewString` draws it: no row of another scope has it. -/
theorem acquire_independent_of_sweep (table : Records) (p : AcquireParams)
    (hfresh : ∀ row ∈ table.rows, row.id = p.id → row.scope = p.scope) {ids ids' : List UUID}
    (hsweep : OnlyExpired table.rows p.now ids) (hsweep' : OnlyExpired table.rows p.now ids') :
    SameAcquire table.rows p (acquire p ids table.rows) (acquire p ids' table.rows) := by
  have hfirst := table.acquire_refines hsweep hfresh
  have hsecond := table.acquire_refines hsweep' hfresh
  obtain ⟨row, hanswer, hrow, hmem, hscope⟩ := hfirst.answer
  obtain ⟨other, hanswer', hother, hmem', hscope'⟩ := hsecond.answer
  refine ⟨⟨row, other, _, hanswer, hanswer',
    (Table.selectKey_eq_some_iff hfirst.scopes).mpr ⟨hmem, hscope⟩,
    (Table.selectKey_eq_some_iff hsecond.scopes).mpr ⟨hmem', hscope'⟩,
    hrow.trans hother.symm, ?_⟩, ?_⟩
  · rintro ⟨old, hold, holdScope, hexp⟩
    rw [table.afterSweep_of_expired hold holdScope hexp]
  · intro live hliveScope hlive
    exact ⟨hfirst.others live hliveScope hlive, hsecond.others live hliveScope hlive⟩

/-- A backlog: the record of the scope has expired in this very microsecond, a
completed one of another scope long ago, and a third one is live. -/
def backlog : Records where
  rows :=
    [reservation ⟨.ofNat 1, .ofNat 9, "/rbac.v1.RBACService/AssignRole", [1], [2], .ofNat 4,
        0, 30000, 90000⟩,
      completeSet ⟨"", none, some [8]⟩ 5000
        (reservation ⟨.ofNat 2, .ofNat 9, "/rbac.v1.RBACService/AssignRole", [5], [2], .ofNat 4,
          0, 30000, 80000⟩),
      reservation ⟨.ofNat 3, .ofNat 9, "/rbac.v1.RBACService/AssignRole", [6], [2], .ofNat 4,
        0, 30000, 95000⟩]
  ids := by decide +kernel
  scopes := by decide +kernel
  expiresAt := by simp [reservation, completeSet]
  lockedUntil := by
    intro row hrow locked hlocked
    simp only [List.mem_cons, List.not_mem_nil, or_false] at hrow
    rcases hrow with rfl | rfl | rfl <;> cases hlocked <;> simp

/-- A request for the first scope, half a microsecond past its expiry. -/
def backlogParams : AcquireParams where
  id := .ofNat 7
  actorID := .ofNat 9
  rpcMethod := "/rbac.v1.RBACService/AssignRole"
  keyHash := [1]
  requestHash := [3]
  ownerToken := .ofNat 8
  now := 90500
  lockedUntil := 120500
  expiresAt := 180500

theorem acquire_independent_of_sweep_backlog :
    SameAcquire backlog.rows backlogParams
      (acquire backlogParams [.ofNat 1, .ofNat 2] backlog.rows)
      (acquire backlogParams [] backlog.rows) :=
  acquire_independent_of_sweep backlog _ (by decide +kernel) (by decide +kernel)
    (by decide +kernel)

end GoFoundation.Idempotency
