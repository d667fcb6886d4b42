/-
# Base64 without padding

The raw encodings of the package `encoding/base64`: six bits to a character, and no
padding at the end.  Decoding is lenient in two ways.  It skips carriage returns and
newlines wherever they stand, and it does not ask that the bits it drops at the end
are zero.
-/

import GoFoundation.Postgres.Types

namespace GoFoundation.Go.Base64

/-- An encoding: the characters of the sixty-four values, none of which is a line
break. -/
structure Encoding where
  symbol : Fin 64 → Char
  value : Char → Option (Fin 64)
  value_symbol : ∀ sextet, value (symbol sextet) = some sextet
  symbol_ne_break : ∀ sextet, symbol sextet ≠ '\r' ∧ symbol sextet ≠ '\n'

/-- The value of a character by its place in the alphabet. -/
def valueIn (symbol : Fin 64 → Char) (c : Char) : Option (Fin 64) :=
  (List.finRange 64).find? fun sextet => symbol sextet = c

/-- The letters and the digits, which both alphabets begin with, and their last two
characters. -/
def alphabet (last : Char × Char) (sextet : Fin 64) : Char :=
  if sextet.val < 26 then Char.ofNat (sextet.val + 65)
  else if sextet.val < 52 then Char.ofNat (sextet.val + 71)
  else if sextet.val < 62 then Char.ofNat (sextet.val - 4)
  else if sextet.val = 62 then last.1 else last.2

/-- `base64.RawStdEncoding`. -/
def rawStd : Encoding where
  symbol := alphabet ('+', '/')
  value := valueIn (alphabet ('+', '/'))
  value_symbol := by decide +kernel
  symbol_ne_break := by decide +kernel

/-- `base64.RawURLEncoding`. -/
def rawURL : Encoding where
  symbol := alphabet ('-', '_')
  value := valueIn (alphabet ('-', '_'))
  value_symbol := by decide +kernel
  symbol_ne_break := by decide +kernel

/-! ## Bits -/

/-- Cut a number to six bits. -/
def sextet (n : Nat) : Fin 64 := ⟨n % 64, Nat.mod_lt n (by decide)⟩

/-- Three bytes are four groups of six bits; the last group is filled up with zeros. -/
def toSextets : Bytes → List (Fin 64)
  | [] => []
  | [x] => [sextet (x.toNat / 4), sextet (x.toNat * 16)]
  | [x, y] => [sextet (x.toNat / 4), sextet (x.toNat * 16 + y.toNat / 16), sextet (y.toNat * 4)]
  | x :: y :: z :: rest =>
      sextet (x.toNat / 4) :: sextet (x.toNat * 16 + y.toNat / 16) ::
        sextet (y.toNat * 4 + z.toNat / 64) :: sextet z.toNat :: toSextets rest

/-- The bytes of the groups.  A single group is too short for a byte. -/
def ofSextets : List (Fin 64) → Option Bytes
  | [] => some []
  | [_] => none
  | [a, b] => some [UInt8.ofNat (a.val * 4 + b.val / 16)]
  | [a, b, c] =>
      some [UInt8.ofNat (a.val * 4 + b.val / 16), UInt8.ofNat (b.val * 16 + c.val / 4)]
  | a :: b :: c :: d :: rest =>
      (ofSextets rest).map fun bytes =>
        UInt8.ofNat (a.val * 4 + b.val / 16) :: UInt8.ofNat (b.val * 16 + c.val / 4) ::
          UInt8.ofNat (c.val * 64 + d.val) :: bytes

/-- A byte is known by its eight low bits. -/
theorem ofNat_eq {n : Nat} {x : UInt8} (h : n % 256 = x.toNat) : UInt8.ofNat n = x := by
  apply UInt8.toNat_inj.mp
  rw [UInt8.toNat_ofNat']
  exact h

theorem ofSextets_toSextets (bytes : Bytes) : ofSextets (toSextets bytes) = some bytes := by
  fun_induction toSextets bytes with
  | case1 => rfl
  | case2 x =>
      have hx := x.toNat_lt
      rw [ofSextets, ofNat_eq]
      simp only [sextet]
      omega
  | case3 x y =>
      have hx := x.toNat_lt
      have hy := y.toNat_lt
      rw [ofSextets, ofNat_eq, ofNat_eq]
      · simp only [sextet]
        omega
      · simp only [sextet]
        omega
  | case4 x y z rest ih =>
      have hx := x.toNat_lt
      have hy := y.toNat_lt
      have hz := z.toNat_lt
      rw [ofSextets, ih, Option.map_some, ofNat_eq, ofNat_eq, ofNat_eq]
      all_goals
        simp only [sextet]
        omega

/-! ## Texts -/

variable (enc : Encoding)

/-- `EncodeToString`. -/
def encodeToString (bytes : Bytes) : List Char := (toSextets bytes).map enc.symbol

/-- `DecodeString`. -/
def decodeString (text : List Char) : Option Bytes :=
  ((text.filter fun c => c ≠ '\r' && c ≠ '\n').mapM enc.value).bind ofSextets

theorem mapM_value_symbol (sextets : List (Fin 64)) :
    (sextets.map enc.symbol).mapM enc.value = some sextets := by
  induction sextets with
  | nil => rfl
  | cons sextet rest ih =>
      rw [List.map_cons, List.mapM_cons, enc.value_symbol, ih]
      rfl

/-- Every text of bytes is read back. -/
theorem decodeString_encodeToString (bytes : Bytes) :
    decodeString enc (encodeToString enc bytes) = some bytes := by
  have hfilter : (encodeToString enc bytes).filter (fun c => c ≠ '\r' && c ≠ '\n') =
      encodeToString enc bytes := by
    rw [List.filter_eq_self]
    intro c hc
    obtain ⟨sextet, -, rfl⟩ := List.mem_map.mp hc
    simp [enc.symbol_ne_break sextet]
  rw [decodeString, hfilter, encodeToString, mapM_value_symbol, Option.bind_some,
    ofSextets_toSextets]

end GoFoundation.Go.Base64
