/-
# Texts of PostgreSQL

How the server's strings become values of the database: a parameter of a text
type must be valid UTF-8 without a zero byte, a `VARCHAR` column bounds the
number of characters, and a parameter cast to `uuid` is parsed.
-/

import Mathlib.Data.List.TakeWhile
import GoFoundation.Go.Strings

namespace GoFoundation.Postgres

open Go Grpc

/-! ## Character types -/

/-- A text as a parameter; the database refuses a zero character. -/
def checkText (text : String) : Option String :=
  if text.toList.all fun c => c.toNat ≠ 0 then some text else none

/-- A string as a text parameter; the database refuses invalid UTF-8, too. -/
def toText (s : GoString) : Option String := (decodeUtf8 s).bind checkText

/-- What a column `VARCHAR(size)` stores of a text.  One that is too long is
refused, unless all it has in excess is spaces. -/
def varchar (size : Nat) (text : String) : Option String :=
  if text.toList.length ≤ size then some text
  else if (text.toList.drop size).all (· = ' ') then
    some (String.ofList (text.toList.take size))
  else none

/-- A text is taken as it is, unless it has a zero character. -/
theorem checkText_cases (text : String) :
    (checkText text = some text ∧ ∀ c ∈ text.toList, c.toNat ≠ 0) ∨
      (checkText text = none ∧ ¬ ∀ c ∈ text.toList, c.toNat ≠ 0) := by
  unfold checkText
  split
  · next hall => exact .inl ⟨rfl, by simpa using hall⟩
  · next hall => exact .inr ⟨rfl, by simpa using hall⟩

/-! ## UUIDs as text -/

namespace UUID

/-- The digit as PostgreSQL prints it. -/
def hexDigit (digit : Fin 16) : Char := Nat.digitChar digit.val

/-- The value of a digit, in either case. -/
def hexValue (c : Char) : Option (Fin 16) :=
  (List.finRange 16).find? fun digit => c = hexDigit digit || c = (hexDigit digit).toUpper

/-- The last `bytes` bytes, with the hyphens after the fourth, sixth, eighth and
tenth byte of a whole UUID. -/
def render : Nat → List (Fin 16) → List Char
  | bytes + 1, high :: low :: rest =>
      hexDigit high :: hexDigit low ::
        (if bytes = 12 ∨ bytes = 10 ∨ bytes = 8 ∨ bytes = 6 then '-' :: render bytes rest
          else render bytes rest)
  | _, _ => []

/-- `id::text`. -/
def text (id : UUID) : String := String.ofList (render 16 id.digits)

/-- Drop a hyphen, if there is one. -/
def skipHyphen : List Char → List Char
  | '-' :: rest => rest
  | chars => chars

/-- Read the last `bytes` bytes.  A hyphen may follow every second byte but the
last one. -/
def parseBytes : Nat → List Char → Option (List (Fin 16) × List Char)
  | 0, chars => some ([], chars)
  | bytes + 1, first :: second :: rest => do
      let high ← hexValue first
      let low ← hexValue second
      let (digits, rest) ← parseBytes bytes
        (if bytes % 2 = 0 ∧ bytes ≠ 0 then skipHyphen rest else rest)
      some (high :: low :: digits, rest)
  | _ + 1, _ => none

/-- The UUID with these digits. -/
def ofDigits (digits : List (Fin 16)) : Option UUID :=
  if hlength : digits.length = 32 then some ⟨digits, hlength⟩ else none

/-- `text::uuid`, which also accepts braces around the digits. -/
def parse (text : String) : Option UUID :=
  match text.toList with
  | '{' :: rest =>
      match parseBytes 16 rest with
      | some (digits, ['}']) => ofDigits digits
      | _ => none
  | chars =>
      match parseBytes 16 chars with
      | some (digits, []) => ofDigits digits
      | _ => none

theorem hexValue_hexDigit (digit : Fin 16) : hexValue (hexDigit digit) = some digit := by
  revert digit
  decide

theorem hexDigit_ne_hyphen (digit : Fin 16) : hexDigit digit ≠ '-' := by
  revert digit
  decide

theorem hexDigit_ne_brace (digit : Fin 16) : hexDigit digit ≠ '{' := by
  revert digit
  decide

theorem skipHyphen_of_ne {c : Char} (hne : c ≠ '-') (rest : List Char) :
    skipHyphen (c :: rest) = c :: rest := by
  rw [skipHyphen]
  simpa using hne

/-- What is rendered does not begin with a hyphen. -/
theorem skipHyphen_render (bytes : Nat) (digits : List (Fin 16)) :
    skipHyphen (render bytes digits) = render bytes digits := by
  cases bytes with
  | zero => simp [render, skipHyphen]
  | succ bytes =>
      rcases digits with _ | ⟨high, _ | ⟨low, rest⟩⟩
      · rfl
      · rfl
      · rw [render]
        exact skipHyphen_of_ne (hexDigit_ne_hyphen high) _

theorem exists_cons_cons {digits : List (Fin 16)} (hlength : 2 ≤ digits.length) :
    ∃ high low rest, digits = high :: low :: rest := by
  rcases digits with _ | ⟨high, _ | ⟨low, rest⟩⟩
  · simp at hlength
  · simp at hlength
  · exact ⟨high, low, rest, rfl⟩

theorem parseBytes_render (bytes : Nat) (digits : List (Fin 16))
    (hlength : digits.length = 2 * bytes) :
    parseBytes bytes (render bytes digits) = some (digits, []) := by
  induction bytes generalizing digits with
  | zero =>
      obtain rfl := List.length_eq_zero_iff.mp hlength
      rfl
  | succ bytes ih =>
      obtain ⟨high, low, rest, rfl⟩ := exists_cons_cons (by omega : 2 ≤ digits.length)
      have hrest : rest.length = 2 * bytes := by
        simp only [List.length_cons] at hlength
        omega
      -- The hyphens that are rendered stand where one is skipped.
      have hskip : (if bytes % 2 = 0 ∧ bytes ≠ 0 then
            skipHyphen (if bytes = 12 ∨ bytes = 10 ∨ bytes = 8 ∨ bytes = 6 then
              '-' :: render bytes rest else render bytes rest)
          else if bytes = 12 ∨ bytes = 10 ∨ bytes = 8 ∨ bytes = 6 then
            '-' :: render bytes rest else render bytes rest) = render bytes rest := by
        by_cases hhyphen : bytes = 12 ∨ bytes = 10 ∨ bytes = 8 ∨ bytes = 6
        · rw [if_pos hhyphen, if_pos (by omega)]
          rfl
        · rw [if_neg hhyphen, skipHyphen_render, ite_self]
      simp only [render, parseBytes, hexValue_hexDigit, Option.bind_eq_bind, Option.bind_some,
        hskip, ih rest hrest]

/-- A UUID that the database printed is read back. -/
theorem parse_text (id : UUID) : parse id.text = some id := by
  have hbytes := parseBytes_render 16 id.digits id.length_digits
  have hdigits : ofDigits id.digits = some id := by simp [ofDigits, id.length_digits]
  rw [parse, text, String.toList_ofList]
  split
  · next rest heq =>
      obtain ⟨high, low, rest, hcons⟩ := exists_cons_cons (by rw [id.length_digits]; omega)
      rw [hcons, render] at heq
      exact absurd (List.cons.inj heq).1 (hexDigit_ne_brace high)
  · rw [hbytes]
    exact hdigits

theorem text_injective : Function.Injective text := by
  intro first second heq
  have hparse := parse_text first
  rw [heq, parse_text, Option.some.injEq] at hparse
  exact hparse.symm

/-- Only digits and hyphens are rendered. -/
theorem forall_mem_render {property : Char → Prop} (hdigit : ∀ digit, property (hexDigit digit))
    (hhyphen : property '-') (bytes : Nat) (digits : List (Fin 16)) :
    ∀ c ∈ render bytes digits, property c := by
  induction bytes generalizing digits with
  | zero => simp [render]
  | succ bytes ih =>
      rcases digits with _ | ⟨high, _ | ⟨low, rest⟩⟩
      · simp [render]
      · simp [render]
      · intro c hc
        rw [render, List.mem_cons, List.mem_cons] at hc
        rcases hc with rfl | rfl | hc
        · exact hdigit high
        · exact hdigit low
        · split at hc
          · rcases List.mem_cons.mp hc with rfl | hc
            · exact hhyphen
            · exact ih rest c hc
          · exact ih rest c hc

theorem forall_mem_text {property : Char → Prop} (hdigit : ∀ digit, property (hexDigit digit))
    (hhyphen : property '-') (id : UUID) : ∀ c ∈ id.text.toList, property c := by
  rw [text, String.toList_ofList]
  exact forall_mem_render hdigit hhyphen 16 id.digits

theorem text_ascii (id : UUID) : ∀ c ∈ id.text.toList, c.toNat < 128 :=
  forall_mem_text (by decide) (by decide) id

/-- There is nothing to trim. -/
theorem trimSpaceText_text (id : UUID) : trimSpaceText id.text = id.text := by
  have hsolid : ∀ c ∈ id.text.toList, ¬ isSpace c = true :=
    forall_mem_text (by decide) (by decide) id
  have hfirst : id.text.toList.dropWhile isSpace = id.text.toList :=
    List.dropWhile_eq_self_iff.mpr fun hpos => hsolid _ (List.getElem_mem hpos)
  have hlast : id.text.toList.reverse.dropWhile isSpace = id.text.toList.reverse :=
    List.dropWhile_eq_self_iff.mpr fun hpos =>
      hsolid _ (List.mem_reverse.mp (List.getElem_mem hpos))
  rw [trimSpaceText, trim, hfirst, hlast, List.reverse_reverse, String.ofList_toList]

theorem text_ne_empty (id : UUID) : id.text ≠ "" := by
  intro heq
  have hparse := parse_text id
  rw [heq] at hparse
  cases hparse

end UUID

end GoFoundation.Postgres
