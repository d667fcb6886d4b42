/-
# Go strings

A string that a client controls is a list of bytes.  UTF-8 decoding, as both Go
and PostgreSQL define it, tells which bytes spell characters; a byte that belongs
to no well-formed sequence stands for itself.  On top of it, the functions of
`strings` that the server calls.
-/

import GoFoundation.Grpc.Status

namespace GoFoundation.Go

open Grpc

/-! ## UTF-8 -/

/-- A continuation byte. -/
def isContinuation (b : UInt8) : Bool := 0x80 ≤ b && b ≤ 0xBF

/-- The second byte of a longer sequence, which some first bytes restrict so that
no character has two encodings and no surrogate has one. -/
def isSecond (a b : UInt8) : Bool :=
  if a = 0xE0 then 0xA0 ≤ b && b ≤ 0xBF
  else if a = 0xED then 0x80 ≤ b && b ≤ 0x9F
  else if a = 0xF0 then 0x90 ≤ b && b ≤ 0xBF
  else if a = 0xF4 then 0x80 ≤ b && b ≤ 0x8F
  else isContinuation b

/-- The character that a well-formed sequence at the beginning spells, and the
number of its bytes. -/
def decodeRune : Bytes → Option (Char × Nat)
  | [] => none
  | a :: rest =>
      if a < 0x80 then some (Char.ofNat a.toNat, 1)
      else if 0xC2 ≤ a && a ≤ 0xDF then
        match rest with
        | b :: _ =>
            if isContinuation b then
              some (Char.ofNat ((a.toNat - 0xC0) * 64 + (b.toNat - 0x80)), 2)
            else none
        | [] => none
      else if 0xE0 ≤ a && a ≤ 0xEF then
        match rest with
        | b :: c :: _ =>
            if isSecond a b && isContinuation c then
              some (Char.ofNat (((a.toNat - 0xE0) * 64 + (b.toNat - 0x80)) * 64 +
                (c.toNat - 0x80)), 3)
            else none
        | _ => none
      else if 0xF0 ≤ a && a ≤ 0xF4 then
        match rest with
        | b :: c :: d :: _ =>
            if isSecond a b && isContinuation c && isContinuation d then
              some (Char.ofNat ((((a.toNat - 0xF0) * 64 + (b.toNat - 0x80)) * 64 +
                (c.toNat - 0x80)) * 64 + (d.toNat - 0x80)), 4)
            else none
        | _ => none
      else none

/-- A piece of a string: a character with its bytes, or a stray byte. -/
structure Rune where
  char : Option Char
  bytes : Bytes
  deriving DecidableEq, Repr

/-- The pieces of the first bytes, at most `fuel` of them. -/
def runesUpTo : Nat → Bytes → List Rune
  | 0, _ => []
  | _, [] => []
  | fuel + 1, a :: rest =>
      match decodeRune (a :: rest) with
      | some (char, width) =>
          ⟨some char, (a :: rest).take width⟩ :: runesUpTo fuel ((a :: rest).drop width)
      | none => ⟨none, [a]⟩ :: runesUpTo fuel rest

/-- The pieces of a string, in the order in which `range` visits them.  Every
piece has at least one byte. -/
def runes (s : GoString) : List Rune := runesUpTo s.length s

/-- The text of a string whose bytes are valid UTF-8. -/
def decodeUtf8 (s : GoString) : Option String :=
  ((runes s).mapM Rune.char).map String.ofList

/-- `utf8.ValidString`. -/
def validUtf8 (s : GoString) : Bool := (decodeUtf8 s).isSome

/-- The bytes of a text. -/
def encodeUtf8 (text : String) : GoString := text.toList.flatMap String.utf8EncodeChar

/-! ## ASCII texts -/

theorem utf8EncodeChar_ascii {c : Char} (hascii : c.toNat < 128) :
    String.utf8EncodeChar c = [UInt8.ofNat c.toNat] :=
  if_pos (Nat.le_of_lt_succ hascii)

theorem decodeRune_ascii {c : Char} (hascii : c.toNat < 128) (rest : Bytes) :
    decodeRune (UInt8.ofNat c.toNat :: rest) = some (c, 1) := by
  have hbyte : (UInt8.ofNat c.toNat).toNat = c.toNat :=
    UInt8.toNat_ofNat_of_lt' (hascii.trans (by decide))
  have hlt : UInt8.ofNat c.toNat < 0x80 := by
    rw [UInt8.lt_iff_toNat_lt, hbyte]
    exact hascii
  simp [decodeRune, hlt, hbyte]

theorem runesUpTo_ascii {chars : List Char} (hascii : ∀ c ∈ chars, c.toNat < 128) :
    runesUpTo chars.length (chars.map fun c => UInt8.ofNat c.toNat) =
      chars.map fun c => ⟨some c, [UInt8.ofNat c.toNat]⟩ := by
  induction chars with
  | nil => rfl
  | cons c rest ih =>
      have htail := ih fun d hd => hascii d (List.mem_cons_of_mem _ hd)
      simp [runesUpTo, decodeRune_ascii (hascii c List.mem_cons_self), htail]

/-- An ASCII text is read back from its bytes. -/
theorem decodeUtf8_encodeUtf8 {text : String} (hascii : ∀ c ∈ text.toList, c.toNat < 128) :
    decodeUtf8 (encodeUtf8 text) = some text := by
  have hbytes : encodeUtf8 text = text.toList.map fun c => UInt8.ofNat c.toNat := by
    rw [encodeUtf8, List.map_eq_flatMap]
    exact List.flatMap_congr fun c hc => utf8EncodeChar_ascii (hascii c hc)
  have hrunes : runes (encodeUtf8 text) =
      text.toList.map fun c => ⟨some c, [UInt8.ofNat c.toNat]⟩ := by
    rw [runes, hbytes, List.length_map, runesUpTo_ascii hascii]
  have hchars : ∀ chars : List Char,
      (chars.map fun c => (⟨some c, [UInt8.ofNat c.toNat]⟩ : Rune)).mapM Rune.char =
        some chars := by
    intro chars
    induction chars with
    | nil => rfl
    | cons c rest ih => simp [ih]
  rw [decodeUtf8, hrunes, hchars, Option.map_some, String.ofList_toList]

/-! ## The package `strings` -/

/-- `unicode.IsSpace`. -/
def isSpace (c : Char) : Bool :=
  (9 ≤ c.toNat && c.toNat ≤ 13) || c.toNat = 0x20 || c.toNat = 0x85 || c.toNat = 0xA0 ||
    c.toNat = 0x1680 || (0x2000 ≤ c.toNat && c.toNat ≤ 0x200A) || c.toNat = 0x2028 ||
    c.toNat = 0x2029 || c.toNat = 0x202F || c.toNat = 0x205F || c.toNat = 0x3000

/-- Drop what satisfies the test from both ends. -/
def trim {α : Type} (test : α → Bool) (list : List α) : List α :=
  ((list.dropWhile test).reverse.dropWhile test).reverse

/-- `strings.TrimSpace` on a text. -/
def trimSpaceText (text : String) : String := String.ofList (trim isSpace text.toList)

/-- `strings.TrimSpace`. -/
def trimSpace (s : GoString) : GoString :=
  (trim (fun rune : Rune => rune.char.any isSpace) (runes s)).flatMap Rune.bytes

/-- `strings.SplitN(s, " ", 2)` when the separator is there. -/
def splitAtSpace (s : GoString) : Option (GoString × GoString) :=
  if s.any (· = 0x20) then
    some (s.takeWhile (· ≠ 0x20), (s.dropWhile (· ≠ 0x20)).drop 1)
  else none

/-- The lower case of an ASCII letter. -/
def toLowerByte (b : UInt8) : UInt8 := if 0x41 ≤ b && b ≤ 0x5A then b + 0x20 else b

/-- `strings.EqualFold` with a text of ASCII letters to which no other character
folds. -/
def equalFold (s : GoString) (text : String) : Bool :=
  s.map toLowerByte = (encodeUtf8 text).map toLowerByte

end GoFoundation.Go
