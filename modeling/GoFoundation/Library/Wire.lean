/-
# Length-delimited fields

The part of a tag-length-value wire format that messages of strings need.  A field
is a tag of one byte, the length of its payload in base 128, lowest digits first,
and the payload.  A message is its fields, one after the other.
-/

import Mathlib.Tactic.Common

namespace GoFoundation.Library.Wire

/-! ## Lengths -/

/-- A number in base 128; every byte but the last has its high bit set. -/
def writeVarint (n : Nat) : List UInt8 :=
  if n < 128 then [UInt8.ofNat n] else UInt8.ofNat (n % 128 + 128) :: writeVarint (n / 128)
termination_by n
decreasing_by omega

/-- The number at the beginning of the bytes, and the bytes behind it. -/
def readVarint : List UInt8 → Option (Nat × List UInt8)
  | [] => none
  | b :: rest =>
      if b.toNat < 128 then some (b.toNat, rest)
      else (readVarint rest).map fun read => (b.toNat - 128 + 128 * read.1, read.2)

theorem readVarint_writeVarint (n : Nat) (rest : List UInt8) :
    readVarint (writeVarint n ++ rest) = some (n, rest) := by
  induction n using Nat.strongRecOn with
  | ind n ih =>
      rw [writeVarint]
      by_cases hlast : n < 128
      · have hbyte : (UInt8.ofNat n).toNat = n :=
          UInt8.toNat_ofNat_of_lt' (Nat.lt_trans hlast (by decide))
        simp [hlast, readVarint, hbyte]
      · have hbyte : (UInt8.ofNat (n % 128 + 128)).toNat = n % 128 + 128 := by
          apply UInt8.toNat_ofNat_of_lt'
          show n % 128 + 128 < 256
          omega
        have htail := ih (n / 128) (by omega)
        simp only [if_neg hlast, List.cons_append, readVarint, hbyte, htail, Option.map_some]
        rw [if_neg (by omega)]
        have hdigits : n % 128 + 128 - 128 + 128 * (n / 128) = n := by omega
        rw [hdigits]

/-! ## Fields -/

/-- A tag with its payload. -/
abbrev Field := UInt8 × List UInt8

/-- The bytes of a field. -/
def writeField (field : Field) : List UInt8 :=
  field.1 :: (writeVarint field.2.length ++ field.2)

/-- The bytes of a message. -/
def writeFields (fields : List Field) : List UInt8 := fields.flatMap writeField

/-- The fields of the bytes, at most `fuel` of them. -/
def readFieldsUpTo : Nat → List UInt8 → Option (List Field)
  | _, [] => some []
  | 0, _ :: _ => none
  | fuel + 1, tag :: rest =>
      (readVarint rest).bind fun read =>
        if read.2.length < read.1 then none
        else (readFieldsUpTo fuel (read.2.drop read.1)).map ((tag, read.2.take read.1) :: ·)

/-- The fields of a message.  Every field has at least one byte. -/
def readFields (bytes : List UInt8) : Option (List Field) := readFieldsUpTo bytes.length bytes

theorem readFieldsUpTo_writeFields (fields : List Field) :
    ∀ fuel, fields.length ≤ fuel → readFieldsUpTo fuel (writeFields fields) = some fields := by
  induction fields with
  | nil =>
      intro fuel _
      cases fuel <;> rfl
  | cons field fields ih =>
      intro fuel hfuel
      cases fuel with
      | zero => cases hfuel
      | succ fuel =>
          have htail := ih fuel (Nat.le_of_succ_le_succ hfuel)
          have hread : readVarint (writeVarint field.2.length ++ field.2 ++ writeFields fields) =
              some (field.2.length, field.2 ++ writeFields fields) := by
            rw [List.append_assoc, readVarint_writeVarint]
          have hlength : ¬ (field.2 ++ writeFields fields).length < field.2.length := by simp
          show (readVarint (writeVarint field.2.length ++ field.2 ++ writeFields fields)).bind _ = _
          rw [hread, Option.bind_some, if_neg hlength, List.drop_left, List.take_left, htail]
          rfl

theorem length_le_length_writeFields (fields : List Field) :
    fields.length ≤ (writeFields fields).length := by
  induction fields with
  | nil => exact Nat.le_refl 0
  | cons field fields ih =>
      rw [writeFields, List.flatMap_cons, List.length_append, writeField, List.length_cons,
        List.length_cons, ← writeFields]
      omega

/-- A message is read back. -/
@[simp]
theorem readFields_writeFields (fields : List Field) :
    readFields (writeFields fields) = some fields :=
  readFieldsUpTo_writeFields fields _ (length_le_length_writeFields fields)

end GoFoundation.Library.Wire
