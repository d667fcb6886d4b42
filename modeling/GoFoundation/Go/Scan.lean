/-
# Scanning numbers

`fmt.Sscanf` for formats of literal characters and of `%d` into unsigned integers.  A
number may have white space in front of it, but no newline and no sign; it ends at the
first character that is not a digit.  What is left of the input at the end of the format
is not looked at.

`Scans` is the language of a format, and `scanf_eq_some_iff` says that scanning accepts
exactly this language.
-/

import Mathlib.Algebra.Group.Nat.Defs
import Mathlib.Data.List.TakeWhile
import GoFoundation.Go.Strings

namespace GoFoundation.Go

/-- A piece of a format: a character that has to be there, or `%d` into a `uint` of so
many bits. -/
inductive Directive
  | literal (c : Char)
  | uint (bits : Nat)
  deriving DecidableEq, Repr

/-- White space that `Sscanf` skips. -/
def isBlank (c : Char) : Bool := isSpace c && c ≠ '\n'

/-- `SkipSpace`; a newline is an error. -/
def skipSpace (input : List Char) : Option (List Char) :=
  match input.dropWhile isBlank with
  | '\n' :: _ => none
  | rest => some rest

/-- The number that decimal digits spell. -/
def decimal (digits : List Char) : Nat :=
  digits.foldl (fun n c => n * 10 + (c.toNat - '0'.toNat)) 0

/-- `scanUint`: the digits up to the first other character, as a number that
`strconv.ParseUint` accepts and that fits. -/
def scanUint (bits : Nat) (input : List Char) : Option (Nat × List Char) :=
  (skipSpace input).bind fun rest =>
    if rest.takeWhile Char.isDigit = [] then none
    else if decimal (rest.takeWhile Char.isDigit) < 2 ^ 64 ∧
        decimal (rest.takeWhile Char.isDigit) < 2 ^ bits then
      some (decimal (rest.takeWhile Char.isDigit), rest.dropWhile Char.isDigit)
    else none

/-- `Sscanf`: the numbers, and the input that is left. -/
def scanf : List Directive → List Char → Option (List Nat × List Char)
  | [], input => some ([], input)
  | .literal _ :: _, [] => none
  | .literal c :: format, d :: input => if c = d then scanf format input else none
  | .uint bits :: format, input =>
      match scanUint bits input with
      | none => none
      | some (n, rest) => (scanf format rest).map fun (ns, rest) => (n :: ns, rest)

/-! ## Numbers -/

/-- A number in the input: white space, digits, and what follows them. -/
structure Number where
  blanks : List Char
  digits : List Char
  rest : List Char

namespace Number

/-- The input that is read as the number. -/
def input (number : Number) : List Char := number.blanks ++ (number.digits ++ number.rest)

/-- The pieces are what they are called, and the digits do not stop early. -/
structure Wf (number : Number) : Prop where
  blanks : ∀ c ∈ number.blanks, isBlank c = true
  digits : ∀ c ∈ number.digits, c.isDigit = true
  digits_ne : number.digits ≠ []
  rest : ∀ c, number.rest.head? = some c → c.isDigit = false

variable {number other : Number}

/-- A digit is neither white space nor a newline. -/
theorem not_isBlank_of_isDigit {c : Char} (hdigit : c.isDigit = true) :
    isBlank c = false ∧ c ≠ '\n' := by
  have hbounds : 48 ≤ c.toNat ∧ c.toNat ≤ 57 := Char.isDigit_iff_toNat.mp hdigit
  apply And.intro
  · have hspace : isSpace c = false := by
      simp only [isSpace, Bool.or_eq_false_iff, Bool.and_eq_false_iff, decide_eq_false_iff_not]
      omega
    simp [isBlank, hspace]
  · rintro rfl
    revert hdigit
    decide

theorem Wf.dropWhile_isBlank (hwf : number.Wf) :
    number.input.dropWhile isBlank = number.digits ++ number.rest := by
  obtain ⟨first, digits, hdigits⟩ := List.exists_cons_of_ne_nil hwf.digits_ne
  have hfirst := (not_isBlank_of_isDigit (hwf.digits first (by simp [hdigits]))).1
  rw [input, List.dropWhile_append_of_pos hwf.blanks, hdigits, List.cons_append,
    List.dropWhile_cons_of_neg (by simp [hfirst])]

theorem Wf.skipSpace_input (hwf : number.Wf) :
    skipSpace number.input = some (number.digits ++ number.rest) := by
  obtain ⟨first, digits, hdigits⟩ := List.exists_cons_of_ne_nil hwf.digits_ne
  have hfirst := (not_isBlank_of_isDigit (hwf.digits first (by simp [hdigits]))).2
  rw [skipSpace, hwf.dropWhile_isBlank, hdigits, List.cons_append]
  split
  · next heq =>
      rw [List.cons.injEq] at heq
      exact absurd heq.1 hfirst
  · rfl

theorem Wf.takeWhile_isDigit (hwf : number.Wf) :
    (number.digits ++ number.rest).takeWhile Char.isDigit = number.digits := by
  rw [List.takeWhile_append_of_pos hwf.digits]
  cases hrest : number.rest with
  | nil => simp
  | cons c rest =>
      have hc := hwf.rest c (by rw [hrest]; rfl)
      rw [List.takeWhile_cons_of_neg (by simp [hc]), List.append_nil]

theorem Wf.dropWhile_isDigit (hwf : number.Wf) :
    (number.digits ++ number.rest).dropWhile Char.isDigit = number.rest := by
  have hsplit := List.takeWhile_append_dropWhile (p := Char.isDigit)
    (l := number.digits ++ number.rest)
  rw [hwf.takeWhile_isDigit] at hsplit
  exact List.append_cancel_left hsplit

/-- An input is read as a number in one way only. -/
theorem Wf.eq_of_input_eq (hwf : number.Wf) (hother : other.Wf)
    (heq : number.input = other.input) : number = other := by
  have htail : number.digits ++ number.rest = other.digits ++ other.rest := by
    rw [← hwf.dropWhile_isBlank, heq, hother.dropWhile_isBlank]
  have hdigits : number.digits = other.digits := by
    rw [← hwf.takeWhile_isDigit, htail, hother.takeWhile_isDigit]
  have hrest : number.rest = other.rest := by
    rw [← hwf.dropWhile_isDigit, htail, hother.dropWhile_isDigit]
  have hblanks : number.blanks = other.blanks := by
    rw [input, input, htail] at heq
    exact List.append_cancel_right heq
  cases number
  cases other
  simp_all

end Number

/-- `scanUint` reads a number that fits, and nothing else. -/
theorem scanUint_eq_some_iff {bits n : Nat} {input rest : List Char} :
    scanUint bits input = some (n, rest) ↔
      ∃ number : Number, number.Wf ∧ number.input = input ∧ number.rest = rest ∧
        decimal number.digits = n ∧ n < 2 ^ 64 ∧ n < 2 ^ bits := by
  apply Iff.intro
  · intro hscan
    obtain ⟨tail, hskip, hscan⟩ := Option.bind_eq_some_iff.mp hscan
    have hdrop : input.dropWhile isBlank = tail := by
      unfold skipSpace at hskip
      split at hskip
      · cases hskip
      · exact Option.some.inj hskip
    split at hscan
    · cases hscan
    · next hdigits =>
        split at hscan
        · next hbounds =>
            rw [Option.some.injEq, Prod.mk.injEq] at hscan
            obtain ⟨rfl, rfl⟩ := hscan
            refine ⟨⟨input.takeWhile isBlank, tail.takeWhile Char.isDigit,
              tail.dropWhile Char.isDigit⟩, ⟨?_, ?_, hdigits, ?_⟩, ?_, rfl, rfl, hbounds⟩
            · exact fun c hc => List.mem_takeWhile_imp hc
            · exact fun c hc => List.mem_takeWhile_imp hc
            · intro c hc
              have hhead := List.head?_dropWhile_not Char.isDigit tail
              rw [hc] at hhead
              exact hhead
            · rw [Number.input, List.takeWhile_append_dropWhile, ← hdrop,
                List.takeWhile_append_dropWhile]
        · cases hscan
  · rintro ⟨number, hwf, rfl, rfl, rfl, hbounds⟩
    rw [scanUint, hwf.skipSpace_input, Option.bind_some, hwf.takeWhile_isDigit,
      if_neg hwf.digits_ne, if_pos hbounds, hwf.dropWhile_isDigit]

/-! ## Formats -/

/-- The inputs that a format accepts, with the numbers they hold and what is left. -/
inductive Scans : List Directive → List Char → List Nat → List Char → Prop
  | done (rest : List Char) : Scans [] rest [] rest
  | literal (c : Char) {format : List Directive} {input rest : List Char} {ns : List Nat} :
      Scans format input ns rest → Scans (.literal c :: format) (c :: input) ns rest
  | uint {bits : Nat} {format : List Directive} {rest : List Char} {ns : List Nat}
      {number : Number} (hwf : number.Wf) (hparse : decimal number.digits < 2 ^ 64)
      (hfits : decimal number.digits < 2 ^ bits) :
      Scans format number.rest ns rest →
        Scans (.uint bits :: format) number.input (decimal number.digits :: ns) rest

theorem scanf_eq_some_iff {format : List Directive} {input rest : List Char} {ns : List Nat} :
    scanf format input = some (ns, rest) ↔ Scans format input ns rest := by
  apply Iff.intro
  · intro hscan
    induction format generalizing input ns with
    | nil =>
        rw [scanf, Option.some.injEq, Prod.mk.injEq] at hscan
        obtain ⟨rfl, rfl⟩ := hscan
        exact .done input
    | cons directive format ih =>
        cases directive with
        | literal c =>
            cases input with
            | nil => cases hscan
            | cons d input =>
                rw [scanf] at hscan
                split at hscan
                · next hsame =>
                    subst hsame
                    exact .literal c (ih hscan)
                · cases hscan
        | uint bits =>
            rw [scanf] at hscan
            split at hscan
            · cases hscan
            · next n tail huint =>
                obtain ⟨number, hwf, rfl, rfl, rfl, hparse, hfits⟩ := scanUint_eq_some_iff.mp huint
                obtain ⟨⟨ns', rest'⟩, htail, heq⟩ := Option.map_eq_some_iff.mp hscan
                rw [Prod.mk.injEq] at heq
                obtain ⟨rfl, rfl⟩ := heq
                exact .uint hwf hparse hfits (ih htail)
  · intro hscans
    induction hscans with
    | done rest => rfl
    | literal c _ ih => rw [scanf, if_pos rfl, ih]
    | uint hwf hparse hfits _ ih =>
        have huint := scanUint_eq_some_iff.mpr ⟨_, hwf, rfl, rfl, rfl, hparse, hfits⟩
        simp only [scanf, huint, ih, Option.map_some]

section Inversion

variable {format : List Directive} {input rest : List Char} {ns : List Nat}

theorem scans_nil_iff : Scans [] input ns rest ↔ ns = [] ∧ rest = input := by
  apply Iff.intro
  · rintro ⟨⟩
    exact ⟨rfl, rfl⟩
  · rintro ⟨rfl, rfl⟩
    exact .done _

theorem scans_literal_iff {c : Char} :
    Scans (.literal c :: format) input ns rest ↔
      ∃ tail, input = c :: tail ∧ Scans format tail ns rest := by
  apply Iff.intro
  · rintro ⟨⟩
    exact ⟨_, rfl, ‹_›⟩
  · rintro ⟨tail, rfl, htail⟩
    exact .literal c htail

theorem scans_uint_iff {bits : Nat} :
    Scans (.uint bits :: format) input ns rest ↔
      ∃ number : Number, number.Wf ∧ input = number.input ∧ decimal number.digits < 2 ^ 64 ∧
        decimal number.digits < 2 ^ bits ∧
        ∃ ns', ns = decimal number.digits :: ns' ∧ Scans format number.rest ns' rest := by
  apply Iff.intro
  · intro hscans
    cases hscans with
    | uint hwf hparse hfits htail => exact ⟨_, hwf, rfl, hparse, hfits, _, rfl, htail⟩
  · rintro ⟨number, hwf, rfl, hparse, hfits, ns', rfl, htail⟩
    exact .uint hwf hparse hfits htail

end Inversion

end GoFoundation.Go
