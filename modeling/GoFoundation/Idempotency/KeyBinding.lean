/-
# When a key stays bound to its payload

`Acquire` decides whether a record may be taken over before it compares payload
hashes.  A live record therefore rejects another payload under the same key
except when it is in progress and its lock is over: then the take-over rewrites
the payload hash, although the first payload may already have been executed.

Whether it may be taken over is tested in Go and once more in SQL.  `Row.Over` says
what both tests ask for.

The main result is the exact condition, for an uninterrupted `Acquire` on any
table that requests can produce.
-/

import GoFoundation.Idempotency.Invariant

namespace GoFoundation.Idempotency

open Library Postgres Grpc

variable {P : Protobuf}

/-- What `IdempotencyUnary` answers to a result of `Acquire` that grants nothing. -/
def answerOf (P : Protobuf) : Except AcquireError (Record × Disposition) → Outcome P
  | .error _ => storeUnavailable P
  | .ok (record, disposition) => refusal P record disposition

/-- `Acquire` reports a conflict with the row, the client learns that the key was
reused, and the row stays as it is. -/
structure KeyRejected (P : Protobuf) (p : AcquireParams) (ids : List UUID) (rows : List Row)
    (row : Row) : Prop where
  conflict : (acquire p ids rows).2 = .ok (row.toRecord, .conflict)
  answer : answerOf P (acquire p ids rows).2 =
    ⟨.other, Apierror.new P .alreadyExists "IDEMPOTENCY_KEY_REUSED"
      "idempotency key was already used with a different request" []⟩
  unchanged : row ∈ (acquire p ids rows).1

/-- An in-progress row whose lock is over. -/
def LockOver (row : Row) (now : Int) : Prop :=
  row.state = .inProgress ∧ ∃ locked, row.lockedUntil = some locked ∧ locked ≤ now

/-! ## The two tests of a take-over -/

/-- The reservation is over: the row has expired, or its lock is over. -/
def Row.Over (row : Row) (now : Int) : Prop := row.expiresAt ≤ now ∨ LockOver row now

/-- The columns that are compared with a clock hold whole microseconds. -/
structure Row.Timed (row : Row) : Prop where
  expiresAt : IsTimestamptz row.expiresAt
  lockedUntil : ∀ locked, row.lockedUntil = some locked → IsTimestamptz locked

/-- Go's test on the scanned record asks for this, on any row: a lock that is `NULL` is
scanned as the expiry, which is tested anyway. -/
theorem takeOverDue_iff_over {row : Row} {now : Int} :
    takeOverDue row.toRecord now = true ↔ row.Over now := by
  cases hlock : row.lockedUntil with
  | none => simp [takeOverDue, Row.toRecord, Row.Over, LockOver, hlock]
  | some locked => simp [takeOverDue, Row.toRecord, Row.Over, LockOver, hlock]

/-- The `WHERE` condition asks for it too, with the clock cut down to microseconds. -/
theorem takeOverCond_iff_over {row : Row} (htimed : row.Timed) {p : AcquireParams} :
    takeOverCond p row.id row = true ↔ row.Over p.now := by
  have hlock : (∃ locked, row.lockedUntil = some locked ∧ locked ≤ toTimestamptz p.now) ↔
      ∃ locked, row.lockedUntil = some locked ∧ locked ≤ p.now := by
    apply exists_congr
    intro locked
    apply and_congr_right
    intro hlocked
    exact le_toTimestamptz_iff (htimed.lockedUntil locked hlocked)
  rw [takeOverCond_iff, hlock, le_toTimestamptz_iff htimed.expiresAt]
  exact and_iff_right rfl

/-- Every statement writes whole microseconds. -/
theorem Moves.timed {mode : Sweep} {w : World P} {i : Nat} {label : Label P}
    {before after : Phase P} {rows : List Row} {events : List (Event P)}
    (hmove : Moves mode w i label before after rows events) (htimed : ∀ row ∈ w.rows, row.Timed) :
    ∀ row ∈ rows, row.Timed := by
  intro row hrow
  rcases hmove.mem_rows hrow with hold | ⟨p, -, -, rfl⟩ | ⟨p, id, old, -, -, -, -, rfl⟩ |
    ⟨g, outcome, result, old, -, hold, -, rfl⟩
  · exact htimed row hold
  · refine ⟨isTimestamptz_toTimestamptz _, ?_⟩
    intro locked hlocked
    obtain rfl := Option.some.inj hlocked
    exact isTimestamptz_toTimestamptz _
  · refine ⟨isTimestamptz_toTimestamptz _, ?_⟩
    intro locked hlocked
    obtain rfl := Option.some.inj hlocked
    exact isTimestamptz_toTimestamptz _
  · refine ⟨(htimed old hold).expiresAt, ?_⟩
    intro locked hlocked
    cases hlocked

/-- So does every run. -/
theorem timed_of_reachable {options : Options} {mode : Sweep} {w : World P}
    (hreach : (system P options mode).Reachable w) : ∀ row ∈ w.rows, row.Timed := by
  induction hreach with
  | init hinit =>
      rw [hinit.1]
      exact List.forall_mem_nil _
  | step _ _ hnext ih =>
      cases step_of_next hnext with
      | tick hle => exact ih
      | begin hidle hid htoken hne => exact ih
      | move hmove => exact hmove.timed ih

/-! ## `Acquire` on a scope with a row -/

/-- A row of the scope turns the `INSERT` away. -/
theorem exec_insert_of_row {p : AcquireParams} {rows : List Row} {row : Row}
    (hrow : row ∈ rows) (hscope : row.scope = p.scope) :
    exec p .insert rows = (rows, .goto .find) := by
  have hany : rows.any (fun row => row.scope = p.scope) = true :=
    List.any_eq_true.mpr ⟨row, hrow, by simpa using hscope⟩
  simp [exec, insertReservation, hany]

/-- On a table with unique scopes `find` scans the row of the scope. -/
theorem find_of_row {rows : List Row} (hscopes : (rows.map Row.scope).Nodup) {row : Row}
    (hrow : row ∈ rows) : find rows row.scope = some row.toRecord := by
  rw [find, (Table.selectKey_eq_some_iff hscopes).mpr ⟨hrow, rfl⟩]
  rfl

/-- `Acquire` goes on to the take-over with the row of the scope, if that is due. -/
theorem exec_find_of_due {p : AcquireParams} {rows : List Row} {row : Row}
    (hscopes : (rows.map Row.scope).Nodup) (hrow : row ∈ rows) (hscope : row.scope = p.scope)
    (hdue : takeOverDue row.toRecord p.now = true) :
    exec p .find rows = (rows, .goto (.takeOver row.id)) := by
  have hfind : find rows p.scope = some row.toRecord := hscope ▸ find_of_row hscopes hrow
  simp [exec, hfind, hdue]

/-- The take-over finds its row by the primary key. -/
theorem exec_takeOver_of_row {p : AcquireParams} {rows : List Row} {row : Row}
    (hids : (rows.map Row.id).Nodup) (hrow : row ∈ rows)
    (hcond : takeOverCond p row.id row = true) :
    exec p (.takeOver row.id) rows =
      (Table.updateWhere (takeOverCond p row.id) (takeOverSet p) rows,
        .returns (takeOverSet p row).toRecord .acquired) := by
  rcases takeOver_cases rows p row.id with ⟨hnone, -⟩ | ⟨row', hrow', hcond', htakeOver⟩
  · rw [hnone row hrow] at hcond
    cases hcond
  · have hsame : row' = row :=
      Table.eq_of_key_eq hids hrow' hrow (takeOverCond_iff.mp hcond').1
    simp only [exec, htakeOver, hsame]

section AcquireFrom

variable {p : AcquireParams} {fuel : Nat} {pc pc' : Pc} {rows rows' : List Row}

theorem acquireFrom_goto (hexec : exec p pc rows = (rows', .goto pc')) :
    acquireFrom p (fuel + 1) pc rows = acquireFrom p fuel pc' rows' := by
  simp [acquireFrom, hexec]

theorem acquireFrom_returns {record : Record} {disposition : Disposition}
    (hexec : exec p pc rows = (rows', .returns record disposition)) :
    acquireFrom p (fuel + 1) pc rows = (rows', .ok (record, disposition)) := by
  simp [acquireFrom, hexec]

end AcquireFrom

/-- `Acquire` on a scope with a row that is not due for a take-over classifies it. -/
theorem acquire_of_not_due {p : AcquireParams} {ids : List UUID} {rows : List Row} {row : Row}
    (hscopes : (rows.map Row.scope).Nodup) (hrow : row ∈ deleteByID ids rows)
    (hscope : row.scope = p.scope) (hdue : takeOverDue row.toRecord p.now = false) :
    acquire p ids rows =
      (deleteByID ids rows, .ok (row.toRecord, classify p row.toRecord)) := by
  have hfind : find (deleteByID ids rows) p.scope = some row.toRecord :=
    hscope ▸ find_of_row (Table.nodup_map_deleteWhere hscopes) hrow
  have hexec : exec p .find (deleteByID ids rows) =
      (deleteByID ids rows, .returns row.toRecord (classify p row.toRecord)) := by
    simp [exec, hfind, hdue]
  rw [acquire, acquireFrom_goto (exec_insert_of_row hrow hscope), acquireFrom_returns hexec]

/-- `Acquire` on a scope with a row that is due and still matches takes it over. -/
theorem acquire_of_due {p : AcquireParams} {ids : List UUID} {rows : List Row} {row : Row}
    (hids : (rows.map Row.id).Nodup) (hscopes : (rows.map Row.scope).Nodup)
    (hrow : row ∈ deleteByID ids rows) (hscope : row.scope = p.scope)
    (hdue : takeOverDue row.toRecord p.now = true) (hcond : takeOverCond p row.id row = true) :
    acquire p ids rows =
      (Table.updateWhere (takeOverCond p row.id) (takeOverSet p) (deleteByID ids rows),
        .ok ((takeOverSet p row).toRecord, .acquired)) := by
  have hids' : ((deleteByID ids rows).map Row.id).Nodup := Table.nodup_map_deleteWhere hids
  have hscopes' : ((deleteByID ids rows).map Row.scope).Nodup :=
    Table.nodup_map_deleteWhere hscopes
  rw [acquire, acquireFrom_goto (exec_insert_of_row hrow hscope),
    acquireFrom_goto (exec_find_of_due hscopes' hrow hscope hdue),
    acquireFrom_returns (exec_takeOver_of_row hids' hrow hcond)]

section Reachable

variable {options : Options} {mode : Sweep} {w : World P}

/-- On a live row only the lock can be over. -/
theorem over_iff_of_live {row : Row} {now : Int} (hlive : now < row.expiresAt) :
    row.Over now ↔ LockOver row now :=
  or_iff_right (Int.not_le.mpr hlive)

/-- A cleanup does not select a live row. -/
theorem mem_deleteByID_of_live (hwf : Wf options w) {row : Row} (hrow : row ∈ w.rows)
    {now : Int} (hlive : now < row.expiresAt) {ids : List UUID}
    (hsel : SelectsExpired w.rows (toTimestamptz now) ids) : row ∈ deleteByID ids w.rows := by
  refine mem_deleteByID.mpr ⟨hrow, fun hid => ?_⟩
  obtain ⟨row', hrow', hid', hexp⟩ := hsel.2.1 row.id hid
  have hsame : row' = row := Table.eq_of_key_eq hwf.ids hrow' hrow hid'
  have hcut := toTimestamptz_le now
  rw [hsame] at hexp
  omega

/-- On a live record with another payload hash, `Acquire` rejects the key exactly
when the record is not an in-progress one whose lock is over. -/
theorem key_rejected_iff (hreach : (system P options mode).Reachable w) {row : Row}
    (hrow : row ∈ w.rows) {p : AcquireParams} (hscope : row.scope = p.scope)
    (hlive : p.now < row.expiresAt) (hhash : row.requestHash ≠ p.requestHash)
    {ids : List UUID} (hsel : SelectsExpired w.rows (toTimestamptz p.now) ids) :
    KeyRejected P p ids w.rows row ↔ ¬ LockOver row p.now := by
  have hwf := Wf.of_reachable hreach
  have hkept := mem_deleteByID_of_live hwf hrow hlive hsel
  constructor
  · intro hrejected hover
    have hacquire := acquire_of_due hwf.ids hwf.scopes hkept hscope
      (takeOverDue_iff_over.mpr (.inr hover))
      ((takeOverCond_iff_over (timed_of_reachable hreach row hrow)).mpr (.inr hover))
    have hconflict := hrejected.conflict
    simp [hacquire] at hconflict
  · intro hover
    have hdue : takeOverDue row.toRecord p.now = false := by
      rw [← Bool.not_eq_true, takeOverDue_iff_over, over_iff_of_live hlive]
      exact hover
    have hacquire := acquire_of_not_due hwf.scopes hkept hscope hdue
    have hclass : classify p row.toRecord = .conflict := by
      simp [classify, hhash]
    rw [hclass] at hacquire
    exact ⟨by rw [hacquire], by rw [hacquire]; rfl, by rw [hacquire]; exact hkept⟩

end Reachable

/-! ## A lock that is over -/

/-- A request reserves a key and does not come back. -/
def abandonedRun : List (Label Protobuf.sample) :=
  [.begin 0 ⟨.ofNat 1, "/rbac.v1.RBACService/AssignRole", [7], [9]⟩ (.ofNat 10) (.ofNat 11),
    .cleanup 0 [], .acquire 0]

/-- The row it leaves. -/
def abandonedRow : Row :=
  reservation (acquireParams defaultOptions
    ⟨.ofNat 1, "/rbac.v1.RBACService/AssignRole", [7], [9]⟩ (.ofNat 10) (.ofNat 11) 0)

/-- A later request with the same key and another payload. -/
def reusingParams (now : Int) : AcquireParams :=
  acquireParams defaultOptions ⟨.ofNat 1, "/rbac.v1.RBACService/AssignRole", [7], [5]⟩
    (.ofNat 20) (.ofNat 21) now

theorem abandonedRun_rows :
    ∃ w, (system Protobuf.sample defaultOptions .atomic).Reachable w ∧
      w.rows = [abandonedRow] := by
  have heval : ((system Protobuf.sample defaultOptions .atomic).run (World.start 0)
      abandonedRun).map World.rows = some [abandonedRow] := by
    decide +kernel
  obtain ⟨w, hrun, hrows⟩ := Option.map_eq_some_iff.mp heval
  have hinit := init_start (P := Protobuf.sample) defaultOptions .atomic 0
  exact ⟨w, (System.Reachable.init hinit).run hrun, hrows⟩

/-- A second in, the lock holds and the key is rejected. -/
theorem key_rejected_within_lock :
    ∃ w, (system Protobuf.sample defaultOptions .atomic).Reachable w ∧
      w.rows = [abandonedRow] ∧
      KeyRejected Protobuf.sample (reusingParams 1000000000) [] w.rows abandonedRow := by
  obtain ⟨w, hreach, hrows⟩ := abandonedRun_rows
  refine ⟨w, hreach, hrows, ?_⟩
  refine (key_rejected_iff hreach (by simp [hrows]) rfl (by decide) (by decide) ?_).mpr ?_
  · rw [hrows]
    decide +kernel
  · rintro ⟨-, locked, hlocked, hle⟩
    cases hlocked
    revert hle
    decide

/-- After thirty seconds another payload takes the key over. -/
theorem key_taken_over_by_other_payload :
    ¬ ∀ w, (system Protobuf.sample defaultOptions .atomic).Reachable w →
      ∀ row ∈ w.rows, ∀ p : AcquireParams, row.scope = p.scope → p.now < row.expiresAt →
        row.requestHash ≠ p.requestHash →
        ∀ ids, SelectsExpired w.rows (toTimestamptz p.now) ids →
          KeyRejected Protobuf.sample p ids w.rows row := by
  intro hall
  obtain ⟨w, hreach, hrows⟩ := abandonedRun_rows
  have hrejected := hall w hreach abandonedRow (by simp [hrows]) (reusingParams 30000000000)
    rfl (by decide) (by decide) [] (by rw [hrows]; decide +kernel)
  have hconflict := hrejected.conflict
  rw [hrows] at hconflict
  have heval : (acquire (reusingParams 30000000000) [] [abandonedRow]).2 ≠
      .ok (abandonedRow.toRecord, .conflict) := by
    decide +kernel
  exact heval hconflict

end GoFoundation.Idempotency
