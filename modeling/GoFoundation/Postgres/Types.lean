/-
# Values the server exchanges with PostgreSQL

Instants and durations are integers of nanoseconds, the resolution of Go's
`time.Time`, instants counted from the Unix epoch.  A `timestamptz`
column holds whole microseconds, and the driver cuts a parameter down to them
when it sends it.  Both resolutions matter, because expiry is tested once in Go
and once in SQL.

A UUID is its thirty-two hexadecimal digits.  PostgreSQL compares UUIDs byte by
byte, which is the lexicographic order on digits.
-/

import Mathlib.Data.List.Lex
import Mathlib.Order.Fin.Basic
import Mathlib.Tactic.Common

namespace GoFoundation

/-- A Go `[]byte`, and a `bytea` column. -/
abbrev Bytes := List UInt8

namespace Postgres

/-! ## Timestamps -/

/-- The value of a `timestamptz` parameter: the instant cut down to whole
microseconds, rounding towards the past. -/
def toTimestamptz (t : Int) : Int := t / 1000 * 1000

/-- A value that a `timestamptz` column can hold. -/
def IsTimestamptz (t : Int) : Prop := toTimestamptz t = t

instance (t : Int) : Decidable (IsTimestamptz t) := inferInstanceAs (Decidable (_ = _))

theorem toTimestamptz_le (t : Int) : toTimestamptz t ≤ t := by
  unfold toTimestamptz
  omega

theorem toTimestamptz_mono {s t : Int} (hle : s ≤ t) : toTimestamptz s ≤ toTimestamptz t := by
  unfold toTimestamptz
  omega

@[simp]
theorem isTimestamptz_toTimestamptz (t : Int) : IsTimestamptz (toTimestamptz t) := by
  unfold IsTimestamptz toTimestamptz
  omega

/-- Cutting an instant down does not change how it compares with a stored one:
this is why a test made in Go and the same test made in SQL agree. -/
theorem le_toTimestamptz_iff {stored t : Int} (hstored : IsTimestamptz stored) :
    stored ≤ toTimestamptz t ↔ stored ≤ t := by
  unfold IsTimestamptz toTimestamptz at *
  omega

/-- Adding whole microseconds commutes with storing. -/
theorem toTimestamptz_add {t d : Int} (hd : d % 1000 = 0) :
    toTimestamptz (t + d) = toTimestamptz t + d := by
  unfold toTimestamptz
  omega

/-! ## UUIDs -/

/-- A UUID, as its hexadecimal digits. -/
structure UUID where
  digits : List (Fin 16)
  length_digits : digits.length = 32
  deriving DecidableEq, Repr

namespace UUID

theorem digits_injective : Function.Injective digits := by
  rintro ⟨first, hfirst⟩ ⟨second, hsecond⟩ heq
  simpa using heq

/-- The order of the `uuid` type. -/
instance : LinearOrder UUID := LinearOrder.lift' digits digits_injective

/-- The UUID whose digits spell a number. -/
def ofNat (n : Nat) : UUID where
  digits := List.ofFn fun i : Fin 32 => ⟨n >>> (4 * (31 - i.val)) % 16, Nat.mod_lt _ (by decide)⟩
  length_digits := by simp

end UUID

end Postgres

end GoFoundation
