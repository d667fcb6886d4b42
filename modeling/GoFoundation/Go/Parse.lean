/-
# Reading numbers, switches and durations

`strconv.Atoi`, `strconv.ParseBool` and `time.ParseDuration`.  All three read bytes, and the
first two agree with a loop that multiplies by ten and adds a digit until the number no
longer fits.  A duration is a sum of such numbers with units; what a fraction contributes is
computed with floating-point numbers there, and is a function `fraction` of its digits, of
how many of them count, and of the unit here.
-/

import Mathlib.Data.Nat.Basic
import GoFoundation.Go.Strings

namespace GoFoundation.Go

open Grpc

/-! ## Numbers -/

/-- `strconv.ErrSyntax` and `strconv.ErrRange`. -/
inductive NumError
  | badSyntax
  | outOfRange
  deriving DecidableEq, Repr

/-- The byte is between `'0'` and `'9'`. -/
def isDigit (b : UInt8) : Bool := 48 ≤ b && b ≤ 57

/-- The digit that a byte stands for. -/
def digitOf (b : UInt8) : Nat := b.toNat - 48

/-- The loop of `ParseUint` in base ten. -/
def parseUintFrom : Nat → Bytes → Except NumError Nat
  | n, [] => .ok n
  | n, b :: rest =>
      if isDigit b then
        if 1844674407370955162 ≤ n then .error .outOfRange
        else if 18446744073709551615 < n * 10 + digitOf b then .error .outOfRange
        else parseUintFrom (n * 10 + digitOf b) rest
      else .error .badSyntax

/-- `ParseUint` in base ten. -/
def parseUint (s : GoString) : Except NumError Nat :=
  if s = [] then .error .badSyntax else parseUintFrom 0 s

/-- A sign in front, as `ParseInt` and `ParseDuration` take it off. -/
def cutSign : GoString → Bool × GoString
  | [] => (false, [])
  | b :: rest => if b = 43 then (false, rest) else if b = 45 then (true, rest) else (false, b :: rest)

/-- `Atoi`, for `int` of 64 bits. -/
def atoi (s : GoString) : Except NumError Int :=
  if s = [] then .error .badSyntax
  else
    match parseUint (cutSign s).2 with
    | .error err => .error err
    | .ok n =>
        if ¬ (cutSign s).1 ∧ 9223372036854775808 ≤ n then .error .outOfRange
        else if (cutSign s).1 ∧ 9223372036854775808 < n then .error .outOfRange
        else .ok (if (cutSign s).1 then -n else n)

/-- `ParseBool`. -/
def parseBool (s : GoString) : Except NumError Bool :=
  if ["1", "t", "T", "true", "TRUE", "True"].any fun text => s = encodeUtf8 text then .ok true
  else if ["0", "f", "F", "false", "FALSE", "False"].any fun text => s = encodeUtf8 text then
    .ok false
  else .error .badSyntax

/-! ## Durations -/

/-- Why `ParseDuration` fails. -/
inductive DurationError
  | invalid
  | missingUnit
  | unknownUnit
  deriving DecidableEq, Repr

/-- `leadingInt`: the digits in front as a number, unless it exceeds `1 << 63`. -/
def leadingInt : Nat → Bytes → Option (Nat × Bytes)
  | n, [] => some (n, [])
  | n, b :: rest =>
      if isDigit b then
        if 9223372036854775808 / 10 < n then none
        else if 9223372036854775808 < n * 10 + digitOf b then none
        else leadingInt (n * 10 + digitOf b) rest
      else some (n, b :: rest)

/-- `leadingFraction`, without its scale: the digits in front as a number, how many of them
count, and the rest.  Digits for which there is no room are passed over. -/
def leadingFraction : Nat → Nat → Bool → Bytes → Nat × Nat × Bytes
  | n, places, _, [] => (n, places, [])
  | n, places, overflow, b :: rest =>
      if isDigit b then
        if overflow then leadingFraction n places true rest
        else if 9223372036854775807 / 10 < n then leadingFraction n places true rest
        else if 9223372036854775808 < n * 10 + digitOf b then leadingFraction n places true rest
        else leadingFraction (n * 10 + digitOf b) (places + 1) false rest
      else (n, places, b :: rest)

/-- The number in front of a unit: what is before the period, what is after it, and what
follows.  There have to be digits on one side. -/
def parseNumber (s : GoString) : Except DurationError ((Nat × Nat × Nat) × GoString) :=
  match leadingInt 0 s with
  | none => .error .invalid
  | some (v, rest) =>
      if rest.head? = some 46 then
        if rest.length = s.length ∧
            (leadingFraction 0 0 false rest.tail).2.2.length = rest.tail.length then
          .error .invalid
        else
          .ok ((v, (leadingFraction 0 0 false rest.tail).1,
              (leadingFraction 0 0 false rest.tail).2.1),
            (leadingFraction 0 0 false rest.tail).2.2)
      else if rest.length = s.length then .error .invalid
      else .ok ((v, 0, 0), rest)

/-- `unitMap`, in nanoseconds. -/
def unitMap (unit : GoString) : Option Nat :=
  if unit = encodeUtf8 "ns" then some 1
  else if ["us", "µs", "μs"].any fun text => unit = encodeUtf8 text then some 1000
  else if unit = encodeUtf8 "ms" then some 1000000
  else if unit = encodeUtf8 "s" then some 1000000000
  else if unit = encodeUtf8 "m" then some 60000000000
  else if unit = encodeUtf8 "h" then some 3600000000000
  else none

/-- The number times the unit, unless it exceeds `1 << 63`. -/
def inUnit (fraction : Nat → Nat → Nat → Nat) (number : Nat × Nat × Nat) (unit : Nat) :
    Option Nat :=
  if 9223372036854775808 / unit < number.1 then none
  else if number.2.1 = 0 then some (number.1 * unit)
  else if 9223372036854775808 < number.1 * unit + fraction number.2.1 number.2.2 unit then none
  else some (number.1 * unit + fraction number.2.1 number.2.2 unit)

/-- The byte belongs to a unit. -/
def inUnitName (b : UInt8) : Bool := b ≠ 46 && !isDigit b

/-- One number with its unit, in nanoseconds, and what follows it. -/
def parseTerm (fraction : Nat → Nat → Nat → Nat) (s : GoString) :
    Except DurationError (Nat × GoString) :=
  match parseNumber s with
  | .error err => .error err
  | .ok (number, rest) =>
      if rest.takeWhile inUnitName = [] then .error .missingUnit
      else
        match unitMap (rest.takeWhile inUnitName) with
        | none => .error .unknownUnit
        | some unit =>
            match inUnit fraction number unit with
            | none => .error .invalid
            | some v => .ok (v, rest.dropWhile inUnitName)

variable {fraction : Nat → Nat → Nat → Nat}

theorem length_leadingInt {n v : Nat} {s rest : Bytes} (hlead : leadingInt n s = some (v, rest)) :
    rest.length ≤ s.length := by
  induction s generalizing n with
  | nil =>
      cases hlead
      exact le_rfl
  | cons b tail ih =>
      rw [leadingInt] at hlead
      split_ifs at hlead with hdigit hlarge hroom
      · exact (ih hlead).trans (Nat.le_succ _)
      · cases hlead
        exact le_rfl

theorem length_leadingFraction (n places : Nat) (overflow : Bool) (s : Bytes) :
    (leadingFraction n places overflow s).2.2.length ≤ s.length := by
  induction s generalizing n places overflow with
  | nil => exact Nat.le_refl _
  | cons b tail ih =>
      rw [leadingFraction]
      split_ifs
      · exact (ih _ _ _).trans (Nat.le_succ _)
      · exact (ih _ _ _).trans (Nat.le_succ _)
      · exact (ih _ _ _).trans (Nat.le_succ _)
      · exact (ih _ _ _).trans (Nat.le_succ _)
      · exact Nat.le_refl _

theorem length_parseNumber {s rest : GoString} {number : Nat × Nat × Nat}
    (hnumber : parseNumber s = .ok (number, rest)) : rest.length ≤ s.length := by
  unfold parseNumber at hnumber
  split at hnumber
  · cases hnumber
  · next v after hlead =>
      have hle := length_leadingInt hlead
      split_ifs at hnumber <;> cases hnumber
      · refine (length_leadingFraction ..).trans (le_trans ?_ hle)
        rw [List.length_tail]
        exact Nat.sub_le _ _
      · exact hle

theorem inUnit_le {number : Nat × Nat × Nat} {unit v : Nat}
    (hvalue : inUnit fraction number unit = some v) : v ≤ 9223372036854775808 := by
  unfold inUnit at hvalue
  split_ifs at hvalue with hlarge hzero hsum
  · cases hvalue
    exact (Nat.mul_le_mul_right unit (not_lt.mp hlarge)).trans (Nat.div_mul_le_self _ _)
  · cases hvalue
    exact not_lt.mp hsum

/-- A term takes something off the text. -/
theorem length_parseTerm {s rest : GoString} {v : Nat}
    (hterm : parseTerm fraction s = .ok (v, rest)) : rest.length < s.length := by
  unfold parseTerm at hterm
  split at hterm
  · cases hterm
  · next number after hnumber =>
      split_ifs at hterm with hname
      split at hterm
      · cases hterm
      split at hterm
      · cases hterm
      · cases hterm
        have hsplit : (after.takeWhile inUnitName ++ after.dropWhile inUnitName).length =
            after.length := congrArg List.length List.takeWhile_append_dropWhile
        have hpos := List.length_pos_iff.mpr hname
        have hle := length_parseNumber hnumber
        rw [List.length_append] at hsplit
        omega

/-- The terms up to the end of the text, on top of those before. -/
def parseTerms (fraction : Nat → Nat → Nat → Nat) (d : Nat) (s : GoString) :
    Except DurationError Nat :=
  if s = [] then .ok d
  else
    match hterm : parseTerm fraction s with
    | .error err => .error err
    | .ok (v, rest) =>
        if 9223372036854775808 < (d + v) % 18446744073709551616 then .error .invalid
        else parseTerms fraction ((d + v) % 18446744073709551616) rest
termination_by s.length
decreasing_by exact length_parseTerm hterm

/-- `ParseDuration`. -/
def parseDuration (fraction : Nat → Nat → Nat → Nat) (s : GoString) : Except DurationError Int :=
  if (cutSign s).2 = [48] then .ok 0
  else if (cutSign s).2 = [] then .error .invalid
  else
    match parseTerms fraction 0 (cutSign s).2 with
    | .error err => .error err
    | .ok d =>
        if (cutSign s).1 then .ok (-d)
        else if 9223372036854775807 < d then .error .invalid
        else .ok d

/-! ## What is read is in range -/

theorem range_of_atoi {s : GoString} {n : Int} (hatoi : atoi s = .ok n) :
    -9223372036854775808 ≤ n ∧ n ≤ 9223372036854775807 := by
  unfold atoi at hatoi
  split at hatoi
  · cases hatoi
  split at hatoi
  · cases hatoi
  · next m hparse =>
      cases hsign : (cutSign s).1 with
      | false =>
          simp only [hsign, Bool.false_eq_true, not_false_eq_true, true_and, false_and,
            if_false] at hatoi
          split_ifs at hatoi with hlarge
          cases hatoi
          omega
      | true =>
          simp only [hsign, not_true_eq_false, false_and, true_and, if_false, if_true] at hatoi
          split_ifs at hatoi with hlarge
          cases hatoi
          omega

theorem parseTerms_of_ne {d : Nat} {s : GoString} (hne : s ≠ []) :
    parseTerms fraction d s =
      match parseTerm fraction s with
      | .error err => .error err
      | .ok (v, rest) =>
          if 9223372036854775808 < (d + v) % 18446744073709551616 then .error .invalid
          else parseTerms fraction ((d + v) % 18446744073709551616) rest := by
  rw [parseTerms, if_neg hne]
  split
  · next err herr => rw [herr]
  · next v rest hterm => rw [hterm]

theorem parseTerms_le {d total : Nat} {s : GoString} (hd : d ≤ 9223372036854775808)
    (hterms : parseTerms fraction d s = .ok total) : total ≤ 9223372036854775808 := by
  induction d, s using parseTerms.induct fraction with
  | case1 d =>
      rw [parseTerms, if_pos rfl] at hterms
      cases hterms
      exact hd
  | case2 d s hne err herr =>
      rw [parseTerms_of_ne hne, herr] at hterms
      cases hterms
  | case3 d s hne v rest hterm hlarge =>
      simp only [parseTerms_of_ne hne, hterm, if_pos hlarge] at hterms
      cases hterms
  | case4 d s hne v rest hterm hfits ih =>
      simp only [parseTerms_of_ne hne, hterm, if_neg hfits] at hterms
      exact ih (not_lt.mp hfits) hterms

theorem range_of_parseDuration {s : GoString} {d : Int}
    (hparse : parseDuration fraction s = .ok d) :
    -9223372036854775808 ≤ d ∧ d ≤ 9223372036854775807 := by
  unfold parseDuration at hparse
  split at hparse
  · cases hparse
    decide
  split at hparse
  · cases hparse
  split at hparse
  · cases hparse
  · next total hterms =>
      have hle := parseTerms_le (Nat.zero_le _) hterms
      split at hparse
      · cases hparse
        omega
      · split_ifs at hparse with hlarge
        cases hparse
        omega

/-! ## Writing -/

/-- A number in base ten. -/
def formatNat (n : Nat) : Bytes :=
  if n < 10 then [UInt8.ofNat (48 + n)] else formatNat (n / 10) ++ [UInt8.ofNat (48 + n % 10)]

/-- An integer in base ten. -/
def formatInt (n : Int) : GoString :=
  if n < 0 then 45 :: formatNat n.natAbs else formatNat n.natAbs

/-- A switch, as `FormatBool` writes it. -/
def formatBool (b : Bool) : GoString := encodeUtf8 (if b then "true" else "false")

/-- A duration in nanoseconds. -/
def formatDuration (d : Int) : GoString := formatInt d ++ encodeUtf8 "ns"

/-! ## What is written is read back -/

theorem digitOf_ofNat {n : Nat} (hlt : n < 10) :
    isDigit (UInt8.ofNat (48 + n)) = true ∧ digitOf (UInt8.ofNat (48 + n)) = n := by
  have hbyte : (UInt8.ofNat (48 + n)).toNat = 48 + n :=
    UInt8.toNat_ofNat_of_lt' (by simp [UInt8.size]; omega)
  constructor
  · simp only [isDigit, Bool.and_eq_true, decide_eq_true_eq, UInt8.le_iff_toNat_le, hbyte]
    exact ⟨Nat.le_add_right 48 n, by simp; omega⟩
  · rw [digitOf, hbyte]
    omega

theorem formatNat_ne_nil (n : Nat) : formatNat n ≠ [] := by
  rw [formatNat]
  split <;> simp

theorem isDigit_of_mem_formatNat {n : Nat} {b : UInt8} (hb : b ∈ formatNat n) :
    isDigit b = true := by
  induction n using formatNat.induct with
  | case1 n hlt =>
      rw [formatNat, if_pos hlt, List.mem_singleton] at hb
      exact hb ▸ (digitOf_ofNat hlt).1
  | case2 n hge ih =>
      rw [formatNat, if_neg hge, List.mem_append, List.mem_singleton] at hb
      obtain hb | rfl := hb
      · exact ih hb
      · exact (digitOf_ofNat (Nat.mod_lt n (by decide))).1

theorem parseUintFrom_append (n : Nat) (first second : Bytes) :
    parseUintFrom n (first ++ second) =
      (parseUintFrom n first).bind fun m => parseUintFrom m second := by
  induction first generalizing n with
  | nil => rfl
  | cons b rest ih =>
      rw [List.cons_append, parseUintFrom, parseUintFrom]
      split_ifs
      · rfl
      · rfl
      · exact ih _
      · rfl

theorem parseUintFrom_formatNat {n : Nat} (hfits : n ≤ 18446744073709551615) :
    parseUintFrom 0 (formatNat n) = .ok n := by
  induction n using formatNat.induct with
  | case1 n hlt =>
      obtain ⟨hdigit, hvalue⟩ := digitOf_ofNat hlt
      rw [formatNat, if_pos hlt, parseUintFrom, if_pos hdigit, hvalue, if_neg (by decide),
        if_neg (by omega), parseUintFrom, Nat.zero_mul, Nat.zero_add]
  | case2 n hge ih =>
      obtain ⟨hdigit, hvalue⟩ := digitOf_ofNat (Nat.mod_lt n (show 10 > 0 by decide))
      have hsum : n / 10 * 10 + n % 10 = n := Nat.div_add_mod' n 10
      rw [formatNat, if_neg hge, parseUintFrom_append, ih (by omega)]
      show parseUintFrom (n / 10) [UInt8.ofNat (48 + n % 10)] = .ok n
      rw [parseUintFrom, if_pos hdigit, hvalue, if_neg (by omega), hsum, if_neg (by omega),
        parseUintFrom]

theorem leadingInt_append (n : Nat) (first second : Bytes) :
    leadingInt n (first ++ second) =
      (leadingInt n first).bind fun (m, rest) => leadingInt m (rest ++ second) := by
  induction first generalizing n with
  | nil => rfl
  | cons b rest ih =>
      rw [List.cons_append, leadingInt, leadingInt]
      split_ifs with hdigit
      · rfl
      · rfl
      · exact ih _
      · show some (n, b :: (rest ++ second)) = leadingInt n (b :: (rest ++ second))
        rw [leadingInt, if_neg hdigit]

theorem leadingInt_formatNat {n : Nat} (hfits : n ≤ 9223372036854775808) {rest : Bytes}
    (hrest : rest.head?.all (fun b => !isDigit b) = true) :
    leadingInt 0 (formatNat n ++ rest) = some (n, rest) := by
  have hwhole : leadingInt 0 (formatNat n) = some (n, []) := by
    induction n using formatNat.induct with
    | case1 n hlt =>
        obtain ⟨hdigit, hvalue⟩ := digitOf_ofNat hlt
        rw [formatNat, if_pos hlt, leadingInt, if_pos hdigit, hvalue, if_neg (by decide),
          if_neg (by omega), leadingInt, Nat.zero_mul, Nat.zero_add]
    | case2 n hge ih =>
        obtain ⟨hdigit, hvalue⟩ := digitOf_ofNat (Nat.mod_lt n (show 10 > 0 by decide))
        have hsum : n / 10 * 10 + n % 10 = n := Nat.div_add_mod' n 10
        rw [formatNat, if_neg hge, leadingInt_append, ih (by omega)]
        show leadingInt (n / 10) [UInt8.ofNat (48 + n % 10)] = some (n, [])
        rw [leadingInt, if_pos hdigit, hvalue, if_neg (by omega), hsum, if_neg (by omega),
          leadingInt]
  rw [leadingInt_append, hwhole]
  cases rest with
  | nil => rfl
  | cons b tail =>
      simp only [List.head?_cons, Option.all_some, Bool.not_eq_true'] at hrest
      show leadingInt n (b :: tail) = some (n, b :: tail)
      rw [leadingInt, if_neg (by simp [hrest])]

theorem cutSign_formatNat (n : Nat) (rest : Bytes) :
    cutSign (formatNat n ++ rest) = (false, formatNat n ++ rest) := by
  obtain ⟨b, tail, heq⟩ := List.exists_cons_of_ne_nil (formatNat_ne_nil n)
  have hdigit : isDigit b = true := isDigit_of_mem_formatNat (heq ▸ List.mem_cons_self)
  have hplus : b ≠ 43 := by
    rintro rfl
    revert hdigit
    decide
  have hminus : b ≠ 45 := by
    rintro rfl
    revert hdigit
    decide
  rw [heq, List.cons_append, cutSign, if_neg hplus, if_neg hminus]

/-- The sign of a written integer, and its digits. -/
theorem cutSign_formatInt (n : Int) (rest : Bytes) :
    cutSign (formatInt n ++ rest) = (decide (n < 0), formatNat n.natAbs ++ rest) := by
  unfold formatInt
  split
  · next hneg => simp [cutSign, hneg]
  · next hpos => rw [cutSign_formatNat, decide_eq_false hpos]

theorem formatInt_ne_nil (n : Int) : formatInt n ≠ [] := by
  unfold formatInt
  split
  · exact List.cons_ne_nil _ _
  · exact formatNat_ne_nil _

/-- `Atoi` reads every `int`. -/
theorem atoi_formatInt {n : Int} (hlow : -9223372036854775808 ≤ n)
    (hhigh : n ≤ 9223372036854775807) : atoi (formatInt n) = .ok n := by
  have hsign := cutSign_formatInt n []
  rw [List.append_nil, List.append_nil] at hsign
  have hparse : parseUint (formatNat n.natAbs) = .ok n.natAbs := by
    rw [parseUint, if_neg (formatNat_ne_nil _), parseUintFrom_formatNat (by omega)]
  rw [atoi, if_neg (formatInt_ne_nil n), hsign, hparse]
  by_cases hneg : n < 0
  · simp only [hneg, decide_true, not_true_eq_false, false_and, true_and, if_false, if_true]
    rw [if_neg (by omega)]
    congr 1
    omega
  · simp only [hneg, decide_false, Bool.false_eq_true, not_false_eq_true, true_and, false_and,
      if_false]
    rw [if_neg (by omega)]
    congr 1
    omega

theorem parseBool_formatBool (b : Bool) : parseBool (formatBool b) = .ok b := by
  cases b <;> decide +kernel

/-- `ParseDuration` reads every duration. -/
theorem parseDuration_formatDuration {d : Int} (hlow : -9223372036854775808 ≤ d)
    (hhigh : d ≤ 9223372036854775807) :
    parseDuration fraction (formatDuration d) = .ok d := by
  have hname : encodeUtf8 "ns" = [110, 115] := by decide +kernel
  have hlead : leadingInt 0 (formatNat d.natAbs ++ [110, 115]) = some (d.natAbs, [110, 115]) :=
    leadingInt_formatNat (by omega) (by decide)
  have hlength : ([110, 115] : Bytes).length ≠ (formatNat d.natAbs ++ [110, 115]).length := by
    have hpos := List.length_pos_iff.mpr (formatNat_ne_nil d.natAbs)
    simp only [List.length_append, ne_eq]
    omega
  have hterm : parseTerm fraction (formatNat d.natAbs ++ [110, 115]) = .ok (d.natAbs, []) := by
    have hnumber : parseNumber (formatNat d.natAbs ++ [110, 115]) =
        .ok ((d.natAbs, 0, 0), [110, 115]) := by
      simp only [parseNumber, hlead]
      rw [if_neg (by decide), if_neg hlength]
    have hunit : unitMap [110, 115] = some 1 := by rw [unitMap, hname, if_pos rfl]
    have hvalue : inUnit fraction (d.natAbs, 0, 0) 1 = some d.natAbs := by
      rw [inUnit, if_neg (by omega), if_pos rfl, Nat.mul_one]
    have htake : ([110, 115] : Bytes).takeWhile inUnitName = [110, 115] := by decide
    have hdrop : ([110, 115] : Bytes).dropWhile inUnitName = [] := by decide
    simp only [parseTerm, hnumber, htake, hdrop, hunit, hvalue]
    rfl
  have hne : formatNat d.natAbs ++ [110, 115] ≠ [] := by simp
  have hterms : parseTerms fraction 0 (formatNat d.natAbs ++ [110, 115]) = .ok d.natAbs := by
    rw [parseTerms_of_ne hne]
    simp only [hterm]
    rw [if_neg (by omega), parseTerms, if_pos rfl]
    congr 1
    omega
  have hzero : formatNat d.natAbs ++ [110, 115] ≠ [48] := by
    intro heq
    have hlast := congrArg List.getLast? heq
    simp at hlast
  rw [parseDuration, formatDuration, hname, cutSign_formatInt, if_neg hzero, if_neg hne, hterms]
  by_cases hneg : d < 0
  · simp only [hneg, decide_true, if_true]
    congr 1
    omega
  · simp only [hneg, decide_false, Bool.false_eq_true, if_false]
    rw [if_neg (by omega)]
    congr 1
    omega

example : parseDuration (fun _ _ _ => 0) (encodeUtf8 "1h30m") = .ok 5400000000000 := by
  decide +kernel

end GoFoundation.Go
