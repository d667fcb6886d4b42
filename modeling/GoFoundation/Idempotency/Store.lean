/-
# The idempotency store

The table `idempotency_records` and the statements of `IdempotencyStore`, one
definition for each SQL statement.  `Acquire` is not one statement: it cleans up,
inserts, looks the record up, tries to take it over and looks it up again, and
other requests may run between any two of these.  `exec` is therefore one
statement of `Acquire` together with the Go code up to the next one, and both
the interleaved runs and the uninterrupted call `acquire` are built from it.
-/

import Mathlib.Data.List.Sort
import GoFoundation.Library.Table
import GoFoundation.Postgres.Types

namespace GoFoundation.Idempotency

open Library Postgres

/-- `idempotency.State`. -/
inductive State
  | inProgress
  | completed
  deriving DecidableEq, Repr

/-- `idempotency.Disposition`. -/
inductive Disposition
  | acquired
  | replay
  | conflict
  | inProgress
  deriving DecidableEq, Repr

/-- The columns of `idempotency_records_scope_unique`. -/
structure Scope where
  actorID : UUID
  rpcMethod : String
  keyHash : Bytes
  deriving DecidableEq, Repr

/-- `idempotency.Record`. -/
structure Record where
  id : UUID
  actorID : UUID
  rpcMethod : String
  keyHash : Bytes
  requestHash : Bytes
  state : State
  ownerToken : UUID
  responseType : String
  responsePayload : Bytes
  statusPayload : Bytes
  lockedUntil : Int
  expiresAt : Int
  deriving DecidableEq, Repr

/-- `idempotency.AcquireParams`.  The ids are canonical UUID texts, so they are
kept as UUIDs. -/
structure AcquireParams where
  id : UUID
  actorID : UUID
  rpcMethod : String
  keyHash : Bytes
  requestHash : Bytes
  ownerToken : UUID
  now : Int
  lockedUntil : Int
  expiresAt : Int
  deriving DecidableEq, Repr

/-- The scope a request addresses. -/
def AcquireParams.scope (p : AcquireParams) : Scope := ⟨p.actorID, p.rpcMethod, p.keyHash⟩

/-- A row of `idempotency_records`. -/
structure Row where
  id : UUID
  actorID : UUID
  rpcMethod : String
  keyHash : Bytes
  requestHash : Bytes
  state : State
  ownerToken : UUID
  responseType : Option String
  responsePayload : Option Bytes
  statusPayload : Option Bytes
  lockedUntil : Option Int
  expiresAt : Int
  createdAt : Int
  updatedAt : Int
  deriving DecidableEq, Repr

/-- The scope a row reserves. -/
def Row.scope (row : Row) : Scope := ⟨row.actorID, row.rpcMethod, row.keyHash⟩

/-- The record that `find` scans from a row: absent payloads are empty and an
absent lock is replaced by the expiry. -/
def Row.toRecord (row : Row) : Record where
  id := row.id
  actorID := row.actorID
  rpcMethod := row.rpcMethod
  keyHash := row.keyHash
  requestHash := row.requestHash
  state := row.state
  ownerToken := row.ownerToken
  responseType := row.responseType.getD ""
  responsePayload := row.responsePayload.getD []
  statusPayload := row.statusPayload.getD []
  lockedUntil := row.lockedUntil.getD row.expiresAt
  expiresAt := row.expiresAt

/-! ## Statements -/

/-- The sub-select of `cleanupExpired` as a condition on its result: a hundred
of the expired rows or all of them, earliest expiry first.  Ties may be broken
either way. -/
def SelectsExpired (rows : List Row) (now : Int) (ids : List UUID) : Prop :=
  ids.Nodup ∧
  (∀ id ∈ ids, ∃ row ∈ rows, row.id = id ∧ row.expiresAt ≤ now) ∧
  ids.length = min 100 (rows.countP fun row => row.expiresAt ≤ now) ∧
  ∀ row ∈ rows, row.id ∈ ids → ∀ other ∈ rows, other.expiresAt ≤ now → other.id ∉ ids →
    row.expiresAt ≤ other.expiresAt

instance (rows : List Row) (now : Int) (ids : List UUID) :
    Decidable (SelectsExpired rows now ids) :=
  inferInstanceAs (Decidable (_ ∧ _ ∧ _ ∧ _))

/-- The sub-select with ties broken by position in the table. -/
def selectExpired (rows : List Row) (now : Int) : List UUID :=
  (((rows.filter fun row => row.expiresAt ≤ now).mergeSort
    fun first second => first.expiresAt ≤ second.expiresAt).take 100).map Row.id

/-- The outer `DELETE` of `cleanupExpired`: it tests membership of the id and
nothing else. -/
def deleteByID (ids : List UUID) (rows : List Row) : List Row :=
  Table.deleteWhere (fun row => row.id ∈ ids) rows

/-- The row that `Acquire` inserts. -/
def reservation (p : AcquireParams) : Row where
  id := p.id
  actorID := p.actorID
  rpcMethod := p.rpcMethod
  keyHash := p.keyHash
  requestHash := p.requestHash
  state := .inProgress
  ownerToken := p.ownerToken
  responseType := none
  responsePayload := none
  statusPayload := none
  lockedUntil := some (toTimestamptz p.lockedUntil)
  expiresAt := toTimestamptz p.expiresAt
  createdAt := toTimestamptz p.now
  updatedAt := toTimestamptz p.now

/-- The result of the `INSERT … ON CONFLICT DO NOTHING`. -/
inductive Insertion
  | inserted (row : Row)
  | conflict
  | uniqueViolation
  deriving DecidableEq, Repr

/-- The `INSERT` of `Acquire`.  Only the scope constraint is an arbiter: a
duplicate primary key is an error. -/
def insertReservation (rows : List Row) (p : AcquireParams) : Insertion :=
  if rows.any fun row => row.scope = p.scope then .conflict
  else if rows.any fun row => row.id = p.id then .uniqueViolation
  else .inserted (reservation p)

/-- `IdempotencyStore.find`. -/
def find (rows : List Row) (scope : Scope) : Option Record :=
  (Table.selectKey Row.scope scope rows).map Row.toRecord

/-- The `WHERE` condition of the take-over `UPDATE`, in three-valued logic. -/
def takeOverCond (p : AcquireParams) (id : UUID) (row : Row) : Bool :=
  row.id = id && Truth.holds
    (Truth.or (some (row.expiresAt ≤ toTimestamptz p.now))
      (Truth.and (some (row.state = .inProgress))
        (Truth.compare row.lockedUntil fun locked => locked ≤ toTimestamptz p.now)))

/-- The `SET` clause of the take-over `UPDATE`. -/
def takeOverSet (p : AcquireParams) (row : Row) : Row :=
  { row with
    requestHash := p.requestHash
    state := .inProgress
    ownerToken := p.ownerToken
    responseType := none
    responsePayload := none
    statusPayload := none
    lockedUntil := some (toTimestamptz p.lockedUntil)
    expiresAt := toTimestamptz p.expiresAt
    updatedAt := toTimestamptz p.now }

/-- The take-over `UPDATE`: the row it returned, if it matched one. -/
def takeOver (rows : List Row) (p : AcquireParams) (id : UUID) : List Row × Option Row :=
  (Table.updateWhere (takeOverCond p id) (takeOverSet p) rows,
    (rows.find? (takeOverCond p id)).map (takeOverSet p))

/-- The condition under which `Complete` and `Release` touch a row. -/
def ownedInProgress (id ownerToken : UUID) (row : Row) : Bool :=
  row.id = id && row.ownerToken = ownerToken && row.state = .inProgress

/-- What `Complete` stores: `NULLIF(type, '')` and the two payloads, where a nil
slice is stored as `NULL`. -/
structure Encoded where
  responseType : String
  responsePayload : Option Bytes
  statusPayload : Option Bytes
  deriving DecidableEq, Repr

/-- The `SET` clause of `Complete`. -/
def completeSet (result : Encoded) (now : Int) (row : Row) : Row :=
  { row with
    state := .completed
    responseType := if result.responseType = "" then none else some result.responseType
    responsePayload := result.responsePayload
    statusPayload := result.statusPayload
    lockedUntil := none
    updatedAt := toTimestamptz now }

/-- `IdempotencyStore.Complete`, with the number of rows it affected; any number
but one is reported as `ErrReservationLost`. -/
def complete (rows : List Row) (id ownerToken : UUID) (result : Encoded) (now : Int) :
    List Row × Nat :=
  (Table.updateWhere (ownedInProgress id ownerToken) (completeSet result now) rows,
    rows.countP (ownedInProgress id ownerToken))

/-- `IdempotencyStore.Release`. -/
def release (rows : List Row) (id ownerToken : UUID) : List Row :=
  Table.deleteWhere (ownedInProgress id ownerToken) rows

/-! ## `Acquire` -/

/-- The statement of `Acquire` that runs next, after the cleanup. -/
inductive Pc
  | insert
  | find
  | takeOver (id : UUID)
  | findAgain
  deriving DecidableEq, Repr

/-- The errors `Acquire` returns, by the statement that failed. -/
inductive AcquireError
  | reserve
  | load
  | takeOver
  deriving DecidableEq, Repr

/-- The text an error is wrapped in. -/
def AcquireError.message : AcquireError → String
  | reserve => "reserve idempotency key"
  | load => "load idempotency record"
  | takeOver => "take over idempotency reservation"

/-- What `Acquire` does after a statement: go on, or return. -/
inductive Next
  | goto (pc : Pc)
  | returns (record : Record) (disposition : Disposition)
  | fails (err : AcquireError)
  deriving DecidableEq, Repr

/-- The Go condition for trying a take-over on the record `find` returned. -/
def takeOverDue (record : Record) (now : Int) : Bool :=
  !(now < record.expiresAt : Bool) ||
    (record.state = .inProgress && !(now < record.lockedUntil : Bool))

/-- The last lines of `Acquire`: compare the payload hash, then the state. -/
def classify (p : AcquireParams) (record : Record) : Disposition :=
  if record.requestHash ≠ p.requestHash then .conflict
  else if record.state = .completed then .replay
  else .inProgress

/-- One statement of `Acquire`, and the Go code that follows it. -/
def exec (p : AcquireParams) : Pc → List Row → List Row × Next
  | .insert, rows =>
      match insertReservation rows p with
      | .inserted row => (rows ++ [row], .returns row.toRecord .acquired)
      | .conflict => (rows, .goto .find)
      | .uniqueViolation => (rows, .fails .reserve)
  | .find, rows =>
      match find rows p.scope with
      | none => (rows, .fails .load)
      | some record =>
          if takeOverDue record p.now then (rows, .goto (.takeOver record.id))
          else (rows, .returns record (classify p record))
  | .takeOver id, rows =>
      match takeOver rows p id with
      | (rows', some row) => (rows', .returns row.toRecord .acquired)
      | (rows', none) => (rows', .goto .findAgain)
  | .findAgain, rows =>
      match find rows p.scope with
      | none => (rows, .fails .load)
      | some record => (rows, .returns record (classify p record))

/-- `Acquire` from a statement on, uninterrupted.  Four statements are the
longest way through; the fuel is never used up before a return. -/
def acquireFrom (p : AcquireParams) : Nat → Pc → List Row →
    List Row × Except AcquireError (Record × Disposition)
  | 0, _, rows => (rows, .error .load)
  | fuel + 1, pc, rows =>
      match exec p pc rows with
      | (rows', .goto pc') => acquireFrom p fuel pc' rows'
      | (rows', .returns record disposition) => (rows', .ok (record, disposition))
      | (rows', .fails err) => (rows', .error err)

/-- `IdempotencyStore.Acquire`, run alone, when the cleanup removed `ids`. -/
def acquire (p : AcquireParams) (ids : List UUID) (rows : List Row) :
    List Row × Except AcquireError (Record × Disposition) :=
  acquireFrom p 4 .insert (deleteByID ids rows)

/-! ## What the statements do -/

@[simp]
theorem Row.toRecord_id (row : Row) : row.toRecord.id = row.id := rfl

@[simp]
theorem Row.toRecord_state (row : Row) : row.toRecord.state = row.state := rfl

@[simp]
theorem Row.toRecord_requestHash (row : Row) : row.toRecord.requestHash = row.requestHash := rfl

@[simp]
theorem Row.toRecord_expiresAt (row : Row) : row.toRecord.expiresAt = row.expiresAt := rfl

@[simp]
theorem reservation_scope (p : AcquireParams) : (reservation p).scope = p.scope := rfl

@[simp]
theorem takeOverSet_id (p : AcquireParams) (row : Row) : (takeOverSet p row).id = row.id := rfl

@[simp]
theorem takeOverSet_scope (p : AcquireParams) (row : Row) :
    (takeOverSet p row).scope = row.scope := rfl

@[simp]
theorem completeSet_id (result : Encoded) (now : Int) (row : Row) :
    (completeSet result now row).id = row.id := rfl

@[simp]
theorem completeSet_scope (result : Encoded) (now : Int) (row : Row) :
    (completeSet result now row).scope = row.scope := rfl

theorem mem_deleteByID {ids : List UUID} {rows : List Row} {row : Row} :
    row ∈ deleteByID ids rows ↔ row ∈ rows ∧ row.id ∉ ids := by
  simp [deleteByID]

/-- The take-over condition, with the three-valued logic evaluated away. -/
theorem takeOverCond_iff {p : AcquireParams} {id : UUID} {row : Row} :
    takeOverCond p id row = true ↔ row.id = id ∧
      (row.expiresAt ≤ toTimestamptz p.now ∨
        (row.state = .inProgress ∧ ∃ locked, row.lockedUntil = some locked ∧
          locked ≤ toTimestamptz p.now)) := by
  cases hlock : row.lockedUntil <;> simp [takeOverCond, hlock]

theorem ownedInProgress_iff {id ownerToken : UUID} {row : Row} :
    ownedInProgress id ownerToken row = true ↔
      row.id = id ∧ row.ownerToken = ownerToken ∧ row.state = .inProgress := by
  simp [ownedInProgress, and_assoc]

/-- An insertion happens exactly when neither the scope nor the id is taken. -/
theorem insertReservation_eq_inserted {rows : List Row} {p : AcquireParams} {row : Row}
    (hins : insertReservation rows p = .inserted row) :
    row = reservation p ∧ (∀ old ∈ rows, old.scope ≠ p.scope) ∧
      ∀ old ∈ rows, old.id ≠ p.id := by
  unfold insertReservation at hins
  split at hins
  · cases hins
  · next hscope =>
      split at hins
      · cases hins
      · next hid =>
          injection hins with hrow
          exact ⟨hrow.symm, by simpa using hscope, by simpa using hid⟩

theorem insertReservation_eq_conflict {rows : List Row} {p : AcquireParams}
    (hins : insertReservation rows p = .conflict) : ∃ row ∈ rows, row.scope = p.scope := by
  unfold insertReservation at hins
  split at hins
  · next hscope => simpa using hscope
  · split at hins <;> cases hins

theorem insertReservation_eq_uniqueViolation {rows : List Row} {p : AcquireParams}
    (hins : insertReservation rows p = .uniqueViolation) : ∃ row ∈ rows, row.id = p.id := by
  unfold insertReservation at hins
  split at hins
  · cases hins
  · split at hins
    · next hid => simpa using hid
    · cases hins

/-- `find` either meets no row of the scope or scans one of them. -/
theorem find_cases (rows : List Row) (scope : Scope) :
    ((∀ row ∈ rows, row.scope ≠ scope) ∧ find rows scope = none) ∨
      ∃ row ∈ rows, row.scope = scope ∧ find rows scope = some row.toRecord := by
  unfold find
  cases hselect : Table.selectKey Row.scope scope rows with
  | none => exact .inl ⟨Table.selectKey_eq_none_iff.mp hselect, rfl⟩
  | some row =>
      obtain ⟨hrow, hscope⟩ := Table.selectKey_some hselect
      exact .inr ⟨row, hrow, hscope, rfl⟩

/-- The take-over either matches no row and changes nothing, or rewrites a row
that satisfied its condition. -/
theorem takeOver_cases (rows : List Row) (p : AcquireParams) (id : UUID) :
    ((∀ row ∈ rows, takeOverCond p id row = false) ∧ takeOver rows p id = (rows, none)) ∨
      ∃ row ∈ rows, takeOverCond p id row = true ∧ takeOver rows p id =
        (Table.updateWhere (takeOverCond p id) (takeOverSet p) rows,
          some (takeOverSet p row)) := by
  unfold takeOver
  cases hfind : rows.find? (takeOverCond p id) with
  | none =>
      have hnone : ∀ row ∈ rows, takeOverCond p id row = false := by
        simpa using List.find?_eq_none.mp hfind
      exact .inl ⟨hnone, by simp [Table.updateWhere_eq_self hnone]⟩
  | some row =>
      exact .inr ⟨row, List.mem_of_find?_eq_some hfind, List.find?_some hfind, rfl⟩

theorem classify_ne_acquired (p : AcquireParams) (record : Record) :
    classify p record ≠ .acquired := by
  unfold classify
  split
  · simp
  · split <;> simp

/-- The sub-select always has a result, so a cleanup is never stuck. -/
theorem selectsExpired_selectExpired {rows : List Row} (now : Int)
    (hids : (rows.map Row.id).Nodup) : SelectsExpired rows now (selectExpired rows now) := by
  let expired := rows.filter fun row => row.expiresAt ≤ now
  let sorted := expired.mergeSort fun first second => first.expiresAt ≤ second.expiresAt
  have hselect : selectExpired rows now = (sorted.take 100).map Row.id := rfl
  have hperm : sorted.Perm expired := List.mergeSort_perm _ _
  have hmem : ∀ row, row ∈ sorted ↔ row ∈ rows ∧ row.expiresAt ≤ now := by
    intro row
    rw [hperm.mem_iff]
    simp [expired]
  have hsortedNodup : (sorted.map Row.id).Nodup :=
    (hperm.map Row.id).nodup_iff.mpr (hids.sublist (List.filter_sublist.map _))
  have htake : (sorted.take 100).Sublist sorted := List.take_sublist _ _
  have hordered : sorted.Pairwise fun first second => first.expiresAt ≤ second.expiresAt := by
    let earlier : Row → Row → Bool := fun first second => first.expiresAt ≤ second.expiresAt
    have htrans : ∀ a b c, earlier a b = true → earlier b c = true → earlier a c = true := by
      intro a b c hab hbc
      simp only [earlier, decide_eq_true_eq] at *
      omega
    have htotal : ∀ a b, (earlier a b || earlier b a) = true := by
      intro a b
      simp only [earlier, Bool.or_eq_true, decide_eq_true_eq]
      omega
    exact (List.pairwise_mergeSort htrans htotal expired).imp (by simp [earlier])
  rw [hselect]
  refine ⟨hsortedNodup.sublist (htake.map _), ?_, ?_, ?_⟩
  · intro id hid
    obtain ⟨row, hrow, rfl⟩ := List.mem_map.mp hid
    obtain ⟨hrows, hexp⟩ := (hmem row).mp (htake.subset hrow)
    exact ⟨row, hrows, rfl, hexp⟩
  · simp [sorted, expired, List.countP_eq_length_filter]
  · intro row hrow hid other hother hexp hout
    obtain ⟨row', hrow', hsame⟩ := List.mem_map.mp hid
    have heq : row' = row :=
      Table.eq_of_key_eq hids ((hmem row').mp (htake.subset hrow')).1 hrow hsame
    have hdrop : other ∈ sorted.drop 100 := by
      have hsplit : other ∈ sorted.take 100 ++ sorted.drop 100 := by
        rw [List.take_append_drop]
        exact (hmem other).mpr ⟨hother, hexp⟩
      rcases List.mem_append.mp hsplit with hin | hin
      · exact absurd (List.mem_map_of_mem hin) hout
      · exact hin
    rw [← List.take_append_drop 100 sorted, List.pairwise_append] at hordered
    exact hordered.2.2 row (heq ▸ hrow') other hdrop

end GoFoundation.Idempotency
