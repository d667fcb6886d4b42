/-
# The session repository

The table `auth_sessions` and the statements of `SessionRepository`, one
definition for each.  Every `UPDATE` has its own condition and it is these
conditions that the results on sessions rest on.
-/

import Mathlib.Data.List.Sort
import GoFoundation.Library.Table
import GoFoundation.Grpc.Status

namespace GoFoundation.Sessions

open Library Postgres Grpc

/-- `auth.Session`. -/
structure Session where
  id : UUID
  userID : UUID
  refreshTokenHash : Bytes
  userAgent : GoString
  clientIP : GoString
  createdAt : Int
  lastUsedAt : Option Int
  expiresAt : Int
  revokedAt : Option Int
  deriving DecidableEq, Repr

/-- A row of `auth_sessions`. -/
structure Row where
  id : UUID
  userID : UUID
  refreshTokenHash : Bytes
  userAgent : Option GoString
  clientIP : Option GoString
  createdAt : Int
  lastUsedAt : Option Int
  expiresAt : Int
  revokedAt : Option Int
  deriving DecidableEq, Repr

/-- `NULLIF(text, '')`. -/
def nullIf (text : GoString) : Option GoString := if text = [] then none else some text

/-- The session that a row is scanned into. -/
def Row.toSession (row : Row) : Session where
  id := row.id
  userID := row.userID
  refreshTokenHash := row.refreshTokenHash
  userAgent := row.userAgent.getD []
  clientIP := row.clientIP.getD []
  createdAt := row.createdAt
  lastUsedAt := row.lastUsedAt
  expiresAt := row.expiresAt
  revokedAt := row.revokedAt

/-- The row that `Create` inserts. -/
def Session.toRow (session : Session) : Row where
  id := session.id
  userID := session.userID
  refreshTokenHash := session.refreshTokenHash
  userAgent := nullIf session.userAgent
  clientIP := nullIf session.clientIP
  createdAt := toTimestamptz session.createdAt
  lastUsedAt := none
  expiresAt := toTimestamptz session.expiresAt
  revokedAt := none

/-! ## Statements -/

/-- `Create`; `none` is a violation of the primary key or of the unique hash. -/
def create (rows : List Row) (session : Session) : Option (List Row) :=
  if rows.any fun row => row.id = session.id || row.refreshTokenHash = session.refreshTokenHash
  then none
  else some (rows ++ [session.toRow])

/-- The row is neither revoked nor expired at `now`. -/
def Row.active (row : Row) (now : Int) : Bool :=
  row.revokedAt.isNone && toTimestamptz now < row.expiresAt

/-- `FindActiveByTokenHash`. -/
def findActiveByTokenHash (rows : List Row) (hash : Bytes) (now : Int) : Option Session :=
  (rows.find? fun row => row.refreshTokenHash = hash && row.active now).map Row.toSession

/-- The `WHERE` condition of `RotateToken`. -/
def rotateCond (id : UUID) (oldHash : Bytes) (now : Int) (row : Row) : Bool :=
  row.id = id && row.refreshTokenHash = oldHash && row.active now

/-- The `SET` clause of `RotateToken`. -/
def rotateSet (newHash : Bytes) (now : Int) (row : Row) : Row :=
  { row with
    refreshTokenHash := newHash
    lastUsedAt := some (toTimestamptz now) }

/-- `RotateToken` with the number of rows it affected; `none` is a violation of
the unique hash. -/
def rotateToken (rows : List Row) (id : UUID) (oldHash newHash : Bytes) (now : Int) :
    Option (List Row × Nat) :=
  if ((Table.updateWhere (rotateCond id oldHash now) (rotateSet newHash now) rows).map
      Row.refreshTokenHash).Nodup
  then some (Table.updateWhere (rotateCond id oldHash now) (rotateSet newHash now) rows,
    rows.countP (rotateCond id oldHash now))
  else none

/-- Setting `revoked_at`. -/
def revokeSet (now : Int) (row : Row) : Row := { row with revokedAt := some (toTimestamptz now) }

/-- The `WHERE` condition of `RevokeByTokenHash`. -/
def revokeByTokenCond (hash : Bytes) (row : Row) : Bool :=
  row.refreshTokenHash = hash && row.revokedAt.isNone

/-- `RevokeByTokenHash`. -/
def revokeByTokenHash (rows : List Row) (hash : Bytes) (now : Int) : List Row :=
  Table.updateWhere (revokeByTokenCond hash) (revokeSet now) rows

/-- The `WHERE` condition of `Revoke`. -/
def revokeCond (id userID : UUID) (row : Row) : Bool :=
  row.id = id && row.userID = userID && row.revokedAt.isNone

/-- `Revoke`, with the number of rows it affected. -/
def revoke (rows : List Row) (id userID : UUID) (now : Int) : List Row × Nat :=
  (Table.updateWhere (revokeCond id userID) (revokeSet now) rows,
    rows.countP (revokeCond id userID))

/-- `ListActiveByUser`, newest first; its `SELECT` leaves the hash out. -/
def listActiveByUser (rows : List Row) (userID : UUID) (now : Int) : List Session :=
  ((rows.filter fun row => row.userID = userID && row.active now).mergeSort
    fun first second => second.createdAt ≤ first.createdAt).map
      fun row => { row.toSession with refreshTokenHash := [] }

/-! ## What the statements do -/

/-- The columns that no statement changes. -/
structure Row.SameLogin (row other : Row) : Prop where
  id : row.id = other.id
  userID : row.userID = other.userID
  createdAt : row.createdAt = other.createdAt
  expiresAt : row.expiresAt = other.expiresAt

theorem Row.SameLogin.refl (row : Row) : row.SameLogin row := ⟨rfl, rfl, rfl, rfl⟩

theorem Row.SameLogin.trans {first second third : Row} (h : first.SameLogin second)
    (h' : second.SameLogin third) : first.SameLogin third :=
  ⟨h.id.trans h'.id, h.userID.trans h'.userID, h.createdAt.trans h'.createdAt,
    h.expiresAt.trans h'.expiresAt⟩

theorem rotateSet_sameLogin (newHash : Bytes) (now : Int) (row : Row) :
    (rotateSet newHash now row).SameLogin row := ⟨rfl, rfl, rfl, rfl⟩

theorem revokeSet_sameLogin (now : Int) (row : Row) : (revokeSet now row).SameLogin row :=
  ⟨rfl, rfl, rfl, rfl⟩

@[simp]
theorem revokeSet_id (now : Int) (row : Row) : (revokeSet now row).id = row.id := rfl

@[simp]
theorem revokeSet_refreshTokenHash (now : Int) (row : Row) :
    (revokeSet now row).refreshTokenHash = row.refreshTokenHash := rfl

@[simp]
theorem rotateSet_id (newHash : Bytes) (now : Int) (row : Row) :
    (rotateSet newHash now row).id = row.id := rfl

theorem create_eq_some {rows rows' : List Row} {session : Session}
    (hcreate : create rows session = some rows') :
    rows' = rows ++ [session.toRow] ∧ (∀ row ∈ rows, row.id ≠ session.id) ∧
      ∀ row ∈ rows, row.refreshTokenHash ≠ session.refreshTokenHash := by
  unfold create at hcreate
  split at hcreate
  · cases hcreate
  · next hnone =>
      have hall : ∀ row ∈ rows,
          row.id ≠ session.id ∧ row.refreshTokenHash ≠ session.refreshTokenHash := by
        simpa using hnone
      exact ⟨(Option.some.inj hcreate).symm, fun row hrow => (hall row hrow).1,
        fun row hrow => (hall row hrow).2⟩

theorem Row.active_iff {row : Row} {now : Int} :
    row.active now = true ↔ row.revokedAt = none ∧ toTimestamptz now < row.expiresAt := by
  simp [Row.active]

theorem rotateCond_iff {id : UUID} {oldHash : Bytes} {now : Int} {row : Row} :
    rotateCond id oldHash now row = true ↔ row.id = id ∧ row.refreshTokenHash = oldHash ∧
      row.revokedAt = none ∧ toTimestamptz now < row.expiresAt := by
  simp [rotateCond, Row.active, and_assoc]

theorem revokeByTokenCond_iff {hash : Bytes} {row : Row} :
    revokeByTokenCond hash row = true ↔ row.refreshTokenHash = hash ∧ row.revokedAt = none := by
  simp [revokeByTokenCond]

theorem revokeCond_iff {id userID : UUID} {row : Row} :
    revokeCond id userID row = true ↔
      row.id = id ∧ row.userID = userID ∧ row.revokedAt = none := by
  simp [revokeCond, and_assoc]

theorem rotateToken_eq_some {rows rows' : List Row} {id : UUID} {oldHash newHash : Bytes}
    {now : Int} {count : Nat}
    (hrotate : rotateToken rows id oldHash newHash now = some (rows', count)) :
    rows' = Table.updateWhere (rotateCond id oldHash now) (rotateSet newHash now) rows ∧
      count = rows.countP (rotateCond id oldHash now) ∧
      (rows'.map Row.refreshTokenHash).Nodup := by
  unfold rotateToken at hrotate
  split at hrotate
  · next hnodup =>
      simp only [Option.some.injEq, Prod.mk.injEq] at hrotate
      obtain ⟨rfl, rfl⟩ := hrotate
      exact ⟨rfl, rfl, hnodup⟩
  · cases hrotate

/-- After a rotation every row is the rewritten one, or an old one with another id
and another hash. -/
theorem mem_rotated {rows : List Row} {id : UUID} {oldHash newHash : Bytes} {now : Int}
    {old row : Row} (hids : (rows.map Row.id).Nodup)
    (hhashes : (rows.map Row.refreshTokenHash).Nodup) (hold : old ∈ rows)
    (hcond : rotateCond id oldHash now old = true)
    (hrow : row ∈ Table.updateWhere (rotateCond id oldHash now) (rotateSet newHash now) rows) :
    row = rotateSet newHash now old ∨
      (row ∈ rows ∧ row.id ≠ id ∧ row.refreshTokenHash ≠ oldHash) := by
  obtain ⟨hid, hhash, -, -⟩ := rotateCond_iff.mp hcond
  rcases Table.mem_updateWhere.mp hrow with ⟨row', hrow', hcond', rfl⟩ | ⟨hrow', hcond'⟩
  · have hsame : row' = old :=
      Table.eq_of_key_eq hids hrow' hold ((rotateCond_iff.mp hcond').1.trans hid.symm)
    exact .inl (by rw [hsame])
  · have hne : row ≠ old := by
      rintro rfl
      rw [hcond] at hcond'
      cases hcond'
    refine .inr ⟨hrow', fun heq => hne ?_, fun heq => hne ?_⟩
    · exact Table.eq_of_key_eq hids hrow' hold (heq.trans hid.symm)
    · exact Table.eq_of_key_eq hhashes hrow' hold (heq.trans hhash.symm)

theorem findActiveByTokenHash_eq_some {rows : List Row} {hash : Bytes} {now : Int}
    {session : Session} (hfind : findActiveByTokenHash rows hash now = some session) :
    ∃ row ∈ rows, row.refreshTokenHash = hash ∧ row.revokedAt = none ∧
      toTimestamptz now < row.expiresAt ∧ session = row.toSession := by
  obtain ⟨row, hrow, rfl⟩ := Option.map_eq_some_iff.mp hfind
  have hcond := List.find?_some hrow
  simp only [Bool.and_eq_true, decide_eq_true_eq, Row.active_iff] at hcond
  exact ⟨row, List.mem_of_find?_eq_some hrow, hcond.1, hcond.2.1, hcond.2.2, rfl⟩

/-- A listed session is an active row of the user. -/
theorem mem_listActiveByUser {rows : List Row} {userID : UUID} {now : Int} {session : Session}
    (hmem : session ∈ listActiveByUser rows userID now) :
    ∃ row ∈ rows, row.id = session.id ∧ row.userID = userID ∧ row.revokedAt = none ∧
      toTimestamptz now < row.expiresAt := by
  obtain ⟨row, hrow, rfl⟩ := List.mem_map.mp hmem
  rw [(List.mergeSort_perm _ _).mem_iff, List.mem_filter] at hrow
  obtain ⟨hmem', hcond⟩ := hrow
  simp only [Bool.and_eq_true, decide_eq_true_eq, Row.active_iff] at hcond
  exact ⟨row, hmem', rfl, hcond.1, hcond.2.1, hcond.2.2⟩

end GoFoundation.Sessions
