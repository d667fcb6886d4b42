/-
# Stored password hashes

`PasswordHasher`: the text that `Hash` stores, and how `Verify` reads it.  The key
derivation is not part of the repository; it enters as `Argon2`.

`Verify` reads what `Hash` wrote, for every salt and key.  It also reads much else: it
does not look at the first three of the six fields, scans a prefix of the fourth one, and
hands the numbers on as they are.
-/

import GoFoundation.Go.Base64
import GoFoundation.Go.Scan

namespace GoFoundation.Users.PasswordHasher

open Go Go.Base64

/-- `argon2.IDKey` of a password and a salt, with the rounds, the memory, the degree of
parallelism and the length of the key; `none` is a panic. -/
structure Argon2 where
  idKey : Bytes → Bytes → Nat → Nat → Nat → Nat → Option Bytes
  length_idKey : ∀ {password salt time memory threads keyLen key},
    idKey password salt time memory threads keyLen = some key → key.length = keyLen
  defined : ∀ password salt memory {time threads keyLen}, 1 ≤ time → 1 ≤ threads → 1 ≤ keyLen →
    (idKey password salt time memory threads keyLen).isSome
  panics : ∀ password salt memory {time threads keyLen}, time = 0 ∨ threads = 0 ∨ keyLen = 0 →
    idKey password salt time memory threads keyLen = none

/-- The constants of `Hash`. -/
def memory : Nat := 19 * 1024

/-- The rounds. -/
def iterations : Nat := 2

/-- The degree of parallelism. -/
def parallelism : Nat := 1

/-- The length of a key. -/
def keyLen : Nat := 32

/-- The text that `Hash` formats for a salt and a key. -/
def formatHash (salt key : Bytes) : String :=
  String.ofList ("$argon2id$v=19$m=".toList ++ Nat.toDigits 10 memory ++ ",t=".toList ++
    Nat.toDigits 10 iterations ++ ",p=".toList ++ Nat.toDigits 10 parallelism ++ ['$'] ++
    encodeToString rawStd salt ++ ['$'] ++ encodeToString rawStd key)

/-- `Hash` asks for a key that `argon2.IDKey` derives. -/
theorem Argon2.idKey_isSome (argon : Argon2) (password salt : Bytes) :
    (argon.idKey password salt iterations memory parallelism keyLen).isSome = true :=
  argon.defined password salt memory (by decide) (by decide) (by decide)

/-- `PasswordHasher.Hash` with the salt that it draws; `none` is a panic. -/
def hash (argon : Argon2) (password : Bytes) (salt : { salt : Bytes // salt.length = 16 }) :
    Option String :=
  (argon.idKey password salt iterations memory parallelism keyLen).map (formatHash salt.val)

/-- What `Verify` reads from a stored text. -/
structure Parameters where
  memory : Nat
  iterations : Nat
  parallelism : Nat
  salt : Bytes
  expected : Bytes
  deriving DecidableEq, Repr

/-- The field that `Verify` fails on, or the number of fields. -/
inductive VerifyError
  | fields
  | parameters
  | salt
  | key
  deriving DecidableEq, Repr

/-- The format `m=%d,t=%d,p=%d`, into a `uint32`, a `uint32` and a `uint8`. -/
def parameterFormat : List Directive :=
  [.literal 'm', .literal '=', .uint 32, .literal ',', .literal 't', .literal '=', .uint 32,
    .literal ',', .literal 'p', .literal '=', .uint 8]

/-- `Verify` up to the call of `argon2.IDKey`. -/
def parse (encoded : String) : Except VerifyError Parameters :=
  match encoded.toList.splitOn '$' with
  | [_, _, _, parameters, salt, key] =>
      match scanf parameterFormat parameters with
      | some ([memory, iterations, parallelism], _) =>
          match decodeString rawStd salt with
          | none => .error .salt
          | some salt =>
              match decodeString rawStd key with
              | none => .error .key
              | some expected => .ok ⟨memory, iterations, parallelism, salt, expected⟩
      | _ => .error .parameters
  | _ => .error .fields

/-- How a call of `Verify` ends. -/
inductive Verification
  | failed (err : VerifyError)
  | panicked
  | answered (ok : Bool)
  deriving DecidableEq, Repr

/-- `PasswordHasher.Verify`. -/
def verify (argon : Argon2) (password : Bytes) (encoded : String) : Verification :=
  match parse encoded with
  | .error err => .failed err
  | .ok stored =>
      match argon.idKey password stored.salt stored.iterations stored.memory stored.parallelism
        stored.expected.length with
      | none => .panicked
      | some actual => .answered (actual = stored.expected)

/-! ## The round trip -/

theorem dollar_not_mem_encodeToString (bytes : Bytes) : '$' ∉ encodeToString rawStd bytes := by
  have hsymbol : ∀ sextet, rawStd.symbol sextet ≠ '$' := by decide +kernel
  intro hmem
  obtain ⟨sextet, -, heq⟩ := List.mem_map.mp hmem
  exact hsymbol sextet heq

/-- The text of a hash, with its constants evaluated. -/
theorem toList_formatHash (salt key : Bytes) :
    (formatHash salt key).toList = "$argon2id$v=19$m=19456,t=2,p=1$".toList ++
      encodeToString rawStd salt ++ ['$'] ++ encodeToString rawStd key := by
  have hmemory : Nat.toDigits 10 memory = "19456".toList := by decide +kernel
  have hiterations : Nat.toDigits 10 iterations = "2".toList := by decide +kernel
  have hparallelism : Nat.toDigits 10 parallelism = "1".toList := by decide +kernel
  have hformat : "$argon2id$v=19$m=".toList ++ "19456".toList ++ ",t=".toList ++ "2".toList ++
      ",p=".toList ++ "1".toList ++ ['$'] = "$argon2id$v=19$m=19456,t=2,p=1$".toList := by
    decide +kernel
  unfold formatHash
  rw [String.toList_ofList, hmemory, hiterations, hparallelism, hformat]

theorem splitOn_formatHash (salt key : Bytes) :
    (formatHash salt key).toList.splitOn '$' =
      ["".toList, "argon2id".toList, "v=19".toList, "m=19456,t=2,p=1".toList,
        encodeToString rawStd salt, encodeToString rawStd key] := by
  have htext : (formatHash salt key).toList =
      ['$'].intercalate ["".toList, "argon2id".toList, "v=19".toList, "m=19456,t=2,p=1".toList,
        encodeToString rawStd salt, encodeToString rawStd key] := by
    rw [toList_formatHash]
    simp [List.intercalate]
  rw [htext, List.splitOn_intercalate]
  · simp [dollar_not_mem_encodeToString]
  · simp

/-- `Verify` reads back the constants, the salt and the key that `Hash` wrote. -/
theorem parse_formatHash (salt key : Bytes) :
    parse (formatHash salt key) = .ok ⟨memory, iterations, parallelism, salt, key⟩ := by
  have hscan : scanf parameterFormat "m=19456,t=2,p=1".toList = some ([19456, 2, 1], []) := by
    decide
  simp only [parse, splitOn_formatHash, hscan, decodeString_encodeToString]
  rfl

/-- On a hash, `Verify` compares the key of the password with the one that is stored. -/
theorem verify_formatHash (argon : Argon2) (password salt : Bytes) {key : Bytes}
    (hlength : key.length = keyLen) :
    ∃ actual, argon.idKey password salt iterations memory parallelism keyLen = some actual ∧
      verify argon password (formatHash salt key) = .answered (actual = key) := by
  obtain ⟨actual, hactual⟩ := Option.isSome_iff_exists.mp (argon.idKey_isSome password salt)
  refine ⟨actual, hactual, ?_⟩
  simp only [verify, parse_formatHash, hlength, hactual]

/-- How the stored hash of the password `p` under a salt reads, and what verifying `q`
against it answers. -/
structure Verifies (argon : Argon2) (p q : Bytes) (salt : { salt : Bytes // salt.length = 16 }) :
    Prop where
  hashes : ∃ s key, hash argon p salt = some s ∧ key.length = 32 ∧
    argon.idKey p salt iterations memory parallelism keyLen = some key ∧
    parse s = .ok ⟨memory, iterations, parallelism, salt, key⟩ ∧
    (∃ ok, verify argon q s = .answered ok ∧ (ok = true ↔
      argon.idKey q salt iterations memory parallelism keyLen =
        argon.idKey p salt iterations memory parallelism keyLen)) ∧
    verify argon p s = .answered true

/-- `Verify` returns no error on what `Hash` stored, reads back what `Hash` wrote, and
accepts exactly the passwords with the same key. -/
theorem stored_hash_verifies (argon : Argon2) (p q : Bytes)
    (salt : { salt : Bytes // salt.length = 16 }) : Verifies argon p q salt := by
  obtain ⟨key, hkey⟩ := Option.isSome_iff_exists.mp (argon.idKey_isSome p salt)
  have hlength : key.length = keyLen := argon.length_idKey hkey
  obtain ⟨actual, hactual, hverify⟩ := verify_formatHash argon q salt hlength
  obtain ⟨own, hown, hverifyOwn⟩ := verify_formatHash argon p salt hlength
  rw [hkey, Option.some.injEq] at hown
  refine ⟨formatHash salt key, key, ?_, hlength, hkey, parse_formatHash salt key,
    ⟨decide (actual = key), hverify, ?_⟩, ?_⟩
  · rw [hash, hkey, Option.map_some]
  · rw [decide_eq_true_eq, hactual, hkey, Option.some.injEq]
  · rw [hverifyOwn, hown, decide_eq_true rfl]

/-! ## What `Verify` accepts -/

/-- The parameter field with its three numbers: each one ends where the next name begins,
and what follows the last one is anything. -/
structure ParameterField (memory iterations parallelism : Number) (field : List Char) :
    Prop where
  field_eq : field = 'm' :: '=' :: memory.input
  memory_rest : memory.rest = ',' :: 't' :: '=' :: iterations.input
  iterations_rest : iterations.rest = ',' :: 'p' :: '=' :: parallelism.input
  memory_wf : memory.Wf
  iterations_wf : iterations.Wf
  parallelism_wf : parallelism.Wf

/-- The numbers fit their types. -/
def Fits (memory iterations parallelism : Number) : Prop :=
  decimal memory.digits < 2 ^ 32 ∧ decimal iterations.digits < 2 ^ 32 ∧
    decimal parallelism.digits < 2 ^ 8

/-- A stored text as `Verify` takes it apart: the three fields it does not look at, the
numbers of the parameters with the white space in front of them, the text behind them,
and the last two fields. -/
structure Reading where
  first : List Char
  algorithm : List Char
  version : List Char
  memory : Number
  iterations : Number
  parallelism : Number
  salt : List Char
  key : List Char

namespace Reading

/-- The text is taken apart in this way. -/
structure Reads (reading : Reading) (encoded : String) : Prop where
  fields : ∃ field,
    ParameterField reading.memory reading.iterations reading.parallelism field ∧
    encoded.toList.splitOn '$' =
      [reading.first, reading.algorithm, reading.version, field, reading.salt, reading.key]
  fits : Fits reading.memory reading.iterations reading.parallelism
  salt : (decodeString rawStd reading.salt).isSome
  key : (decodeString rawStd reading.key).isSome

/-- The fields that `Verify` ignores are those of its own hashes, the fourth one has the
numbers and nothing else, and the numbers and the key are in order for `argon2.IDKey`. -/
structure Proper (reading : Reading) : Prop where
  first : reading.first = []
  algorithm : reading.algorithm = "argon2id".toList
  version : reading.version = "v=19".toList
  blanks : reading.memory.blanks = [] ∧ reading.iterations.blanks = [] ∧
    reading.parallelism.blanks = []
  rest : reading.parallelism.rest = []
  iterations : decimal reading.iterations.digits ≠ 0
  parallelism : decimal reading.parallelism.digits ≠ 0
  key : decodeString rawStd reading.key ≠ some []

end Reading

/-- Decimal digits, one at least. -/
def IsDecimal (digits : List Char) : Prop := digits ≠ [] ∧ ∀ c ∈ digits, c.isDigit = true

/-- The text has the form `$argon2id$v=19$m=M,t=T,p=P$salt$key` of the hashes, with
decimal numbers and nothing else in the parameter field, at least one round, a positive
degree of parallelism and a key. -/
def OwnForm (encoded : String) : Prop :=
  ∃ memory iterations parallelism salt key : List Char,
    encoded.toList = "$argon2id$v=19$m=".toList ++ memory ++ ",t=".toList ++ iterations ++
      ",p=".toList ++ parallelism ++ ['$'] ++ salt ++ ['$'] ++ key ∧
    IsDecimal memory ∧ IsDecimal iterations ∧ IsDecimal parallelism ∧
    1 ≤ decimal iterations ∧ 1 ≤ decimal parallelism ∧ '$' ∉ salt ∧ '$' ∉ key ∧
    (decodeString rawStd salt).isSome ∧ ∃ b bytes, decodeString rawStd key = some (b :: bytes)

/-- `Verify` returns an error, or the text has the form of its own hashes. -/
def RejectsOrOwn (argon : Argon2) (password : Bytes) (encoded : String) : Prop :=
  (∃ err, verify argon password encoded = .failed err) ∨ OwnForm encoded

/-- The format accepts exactly the parameter fields. -/
theorem scanf_parameterFormat_iff {field rest : List Char} {ns : List Nat} :
    scanf parameterFormat field = some (ns, rest) ↔
      ∃ memory iterations parallelism, ParameterField memory iterations parallelism field ∧
        Fits memory iterations parallelism ∧
        ns = [decimal memory.digits, decimal iterations.digits, decimal parallelism.digits] ∧
        rest = parallelism.rest := by
  rw [scanf_eq_some_iff]
  simp only [parameterFormat, scans_literal_iff, scans_uint_iff, scans_nil_iff]
  apply Iff.intro
  · rintro ⟨-, rfl, -, rfl, memory, hmemory, rfl, -, hmemoryFits, -, rfl, -, hrest, -, rfl, -, rfl,
      iterations, hiterations, rfl, -, hiterationsFits, -, rfl, -, hrest', -, rfl, -, rfl,
      parallelism, hparallelism, rfl, -, hparallelismFits, -, rfl, rfl, rfl⟩
    exact ⟨memory, iterations, parallelism, ⟨rfl, hrest, hrest', hmemory, hiterations,
      hparallelism⟩, ⟨hmemoryFits, hiterationsFits, hparallelismFits⟩, rfl, rfl⟩
  · rintro ⟨memory, iterations, parallelism, hfield, ⟨hmemory, hiterations, hparallelism⟩, rfl,
      rfl⟩
    exact ⟨_, hfield.field_eq, _, rfl, memory, hfield.memory_wf, rfl, by omega, hmemory, _, rfl,
      _, hfield.memory_rest, _, rfl, _, rfl, iterations, hfield.iterations_wf, rfl, by omega,
      hiterations, _, rfl, _, hfield.iterations_rest, _, rfl, _, rfl, parallelism,
      hfield.parallelism_wf, rfl, by omega, hparallelism, _, rfl, rfl, rfl⟩

/-- A field has its three numbers in one way only. -/
theorem ParameterField.unique {memory iterations parallelism memory' iterations' parallelism' :
    Number} {field : List Char} (hfield : ParameterField memory iterations parallelism field)
    (hfield' : ParameterField memory' iterations' parallelism' field) :
    memory = memory' ∧ iterations = iterations' ∧ parallelism = parallelism' := by
  have hmemory : memory = memory' := by
    apply hfield.memory_wf.eq_of_input_eq hfield'.memory_wf
    simpa using hfield.field_eq.symm.trans hfield'.field_eq
  subst hmemory
  have hiterations : iterations = iterations' := by
    apply hfield.iterations_wf.eq_of_input_eq hfield'.iterations_wf
    simpa using hfield.memory_rest.symm.trans hfield'.memory_rest
  subst hiterations
  refine ⟨rfl, rfl, ?_⟩
  apply hfield.parallelism_wf.eq_of_input_eq hfield'.parallelism_wf
  simpa using hfield.iterations_rest.symm.trans hfield'.iterations_rest

namespace Reading

variable {reading other : Reading} {encoded : String}

/-- A text is taken apart in one way only. -/
theorem Reads.unique (hreads : reading.Reads encoded) (hother : other.Reads encoded) :
    reading = other := by
  obtain ⟨field, hfield, hsplit⟩ := hreads.fields
  obtain ⟨field', hfield', hsplit'⟩ := hother.fields
  rw [hsplit] at hsplit'
  simp only [List.cons.injEq, and_true] at hsplit'
  obtain ⟨hfirst, halgorithm, hversion, rfl, hsalt, hkey⟩ := hsplit'
  obtain ⟨hmemory, hiterations, hparallelism⟩ := hfield.unique hfield'
  cases reading
  cases other
  simp_all

/-- `Verify` gets to `argon2.IDKey` exactly with the texts that have a reading. -/
theorem exists_reads_iff :
    (∃ reading : Reading, reading.Reads encoded) ↔ ∃ stored, parse encoded = .ok stored := by
  apply Iff.intro
  · rintro ⟨reading, hreads⟩
    obtain ⟨field, hfield, hsplit⟩ := hreads.fields
    obtain ⟨salt, hsalt⟩ := Option.isSome_iff_exists.mp hreads.salt
    obtain ⟨key, hkey⟩ := Option.isSome_iff_exists.mp hreads.key
    have hscan := scanf_parameterFormat_iff.mpr ⟨_, _, _, hfield, hreads.fits, rfl, rfl⟩
    have hparse : parse encoded = .ok ⟨decimal reading.memory.digits,
        decimal reading.iterations.digits, decimal reading.parallelism.digits, salt, key⟩ := by
      simp only [parse, hsplit, hscan, hsalt, hkey]
    exact ⟨_, hparse⟩
  · rintro ⟨stored, hparse⟩
    unfold parse at hparse
    split at hparse
    · next first algorithm version field salt key hsplit =>
        split at hparse
        · next hscan =>
            split at hparse
            · cases hparse
            · next hsalt =>
                split at hparse
                · cases hparse
                · next hkey =>
                    obtain ⟨memory, iterations, parallelism, hfield, hfits, -, -⟩ :=
                      scanf_parameterFormat_iff.mp hscan
                    exact ⟨⟨first, algorithm, version, memory, iterations, parallelism, salt, key⟩,
                      ⟨field, hfield, hsplit⟩, hfits, by simp [hsalt], by simp [hkey]⟩
        · cases hparse
    · cases hparse

end Reading

/-! ## The form of its own hashes -/

section OwnForm

variable {memory iterations parallelism salt key : List Char} {encoded : String}

/-- The parameter field with decimal numbers and nothing else. -/
theorem parameterField_of_isDecimal (hmemory : IsDecimal memory) (hiterations : IsDecimal iterations)
    (hparallelism : IsDecimal parallelism) :
    ParameterField ⟨[], memory, ",t=".toList ++ iterations ++ ",p=".toList ++ parallelism⟩
      ⟨[], iterations, ",p=".toList ++ parallelism⟩ ⟨[], parallelism, []⟩
      ("m=".toList ++ memory ++ ",t=".toList ++ iterations ++ ",p=".toList ++ parallelism) where
  field_eq := by simp [Number.input]
  memory_rest := by simp [Number.input]
  iterations_rest := by simp [Number.input]
  memory_wf := ⟨by simp, hmemory.2, hmemory.1, by simp⟩
  iterations_wf := ⟨by simp, hiterations.2, hiterations.1, by simp⟩
  parallelism_wf := ⟨by simp, hparallelism.2, hparallelism.1, by simp⟩

/-- No part of a text has the separator in it. -/
theorem not_mem_of_mem_splitOn (separator : Char) (text part : List Char)
    (hpart : part ∈ text.splitOn separator) : separator ∉ part := by
  induction text generalizing part with
  | nil =>
      rw [List.splitOn_nil, List.mem_singleton] at hpart
      simp [hpart]
  | cons c rest ih =>
      rw [List.splitOn_cons_eq_if_modifyHead] at hpart
      split at hpart
      · rcases List.mem_cons.mp hpart with rfl | hpart
        · simp
        · exact ih part hpart
      · next hne =>
          cases hrest : rest.splitOn separator with
          | nil => exact absurd hrest (List.splitOn_ne_nil separator rest)
          | cons first others =>
              rw [hrest, List.modifyHead_cons] at hpart
              rcases List.mem_cons.mp hpart with rfl | hpart
              · have hfirst := ih first (by simp [hrest])
                have hc : separator ≠ c := by
                  rintro rfl
                  simp at hne
                simp [hc, hfirst]
              · exact ih part (by simp [hrest, hpart])

theorem dollar_not_mem_digits (hdigits : IsDecimal memory) : '$' ∉ memory := by
  intro hmem
  have hdollar := hdigits.2 '$' hmem
  revert hdollar
  decide

/-- The fields of a text of this form. -/
theorem splitOn_ownForm (hmemory : IsDecimal memory) (hiterations : IsDecimal iterations)
    (hparallelism : IsDecimal parallelism) (hsalt : '$' ∉ salt) (hkey : '$' ∉ key) :
    ("$argon2id$v=19$m=".toList ++ memory ++ ",t=".toList ++ iterations ++ ",p=".toList ++
        parallelism ++ ['$'] ++ salt ++ ['$'] ++ key).splitOn '$' =
      [[], "argon2id".toList, "v=19".toList,
        "m=".toList ++ memory ++ ",t=".toList ++ iterations ++ ",p=".toList ++ parallelism,
        salt, key] := by
  have htext : "$argon2id$v=19$m=".toList ++ memory ++ ",t=".toList ++ iterations ++
      ",p=".toList ++ parallelism ++ ['$'] ++ salt ++ ['$'] ++ key =
        ['$'].intercalate [[], "argon2id".toList, "v=19".toList,
          "m=".toList ++ memory ++ ",t=".toList ++ iterations ++ ",p=".toList ++ parallelism,
          salt, key] := by
    simp [List.intercalate]
  rw [htext, List.splitOn_intercalate]
  · simp [hsalt, hkey, dollar_not_mem_digits hmemory, dollar_not_mem_digits hiterations,
      dollar_not_mem_digits hparallelism]
  · simp

theorem proper_of_ownForm (hown : OwnForm encoded) {reading : Reading}
    (hreads : reading.Reads encoded) : reading.Proper := by
  obtain ⟨memory, iterations, parallelism, salt, key, htext, hmemory, hiterations, hparallelism,
    hrounds, hthreads, hsalt, hkey, -, b, bytes, hdecode⟩ := hown
  obtain ⟨field, hfield, hsplit⟩ := hreads.fields
  rw [htext, splitOn_ownForm hmemory hiterations hparallelism hsalt hkey] at hsplit
  simp only [List.cons.injEq, and_true] at hsplit
  obtain ⟨hfirst, halgorithm, hversion, rfl, hsaltField, hkeyField⟩ := hsplit
  obtain ⟨hm, hi, hp⟩ :=
    hfield.unique (parameterField_of_isDecimal hmemory hiterations hparallelism)
  refine ⟨hfirst.symm, halgorithm.symm, hversion.symm, ⟨?_, ?_, ?_⟩, ?_, ?_, ?_, ?_⟩
  · rw [hm]
  · rw [hi]
  · rw [hp]
  · rw [hp]
  · rw [hi]
    exact Nat.one_le_iff_ne_zero.mp hrounds
  · rw [hp]
    exact Nat.one_le_iff_ne_zero.mp hthreads
  · rw [← hkeyField, hdecode]
    simp

theorem ownForm_of_proper {reading : Reading} (hreads : reading.Reads encoded)
    (hproper : reading.Proper) : OwnForm encoded := by
  obtain ⟨field, hfield, hsplit⟩ := hreads.fields
  obtain ⟨hmemoryBlanks, hiterationsBlanks, hparallelismBlanks⟩ := hproper.blanks
  obtain ⟨bytes, hbytes⟩ := Option.isSome_iff_exists.mp hreads.key
  have hnonempty : ∃ b rest, bytes = b :: rest := by
    apply List.exists_cons_of_ne_nil
    rintro rfl
    exact hproper.key hbytes
  obtain ⟨b, rest, rfl⟩ := hnonempty
  have hno := fun part => not_mem_of_mem_splitOn '$' encoded.toList part
  rw [hsplit] at hno
  refine ⟨reading.memory.digits, reading.iterations.digits, reading.parallelism.digits,
    reading.salt, reading.key, ?_, ⟨hfield.memory_wf.digits_ne, hfield.memory_wf.digits⟩,
    ⟨hfield.iterations_wf.digits_ne, hfield.iterations_wf.digits⟩,
    ⟨hfield.parallelism_wf.digits_ne, hfield.parallelism_wf.digits⟩,
    Nat.one_le_iff_ne_zero.mpr hproper.iterations, Nat.one_le_iff_ne_zero.mpr hproper.parallelism,
    hno reading.salt (by simp), hno reading.key (by simp), hreads.salt, b, rest, hbytes⟩
  have htext : ['$'].intercalate (encoded.toList.splitOn '$') = encoded.toList :=
    List.intercalate_splitOn '$'
  rw [hsplit, hproper.first, hproper.algorithm, hproper.version, hfield.field_eq, Number.input,
    hfield.memory_rest, Number.input, hfield.iterations_rest, Number.input, hproper.rest,
    hmemoryBlanks, hiterationsBlanks, hparallelismBlanks] at htext
  rw [← htext]
  simp [List.intercalate]

end OwnForm

/-- `Verify` rejects a text or the text has the form of its own hashes, exactly when it is
not a text that is taken apart with something in it that is not in order. -/
theorem verify_rejects_or_own_iff (argon : Argon2) (password : Bytes) (encoded : String) :
    RejectsOrOwn argon password encoded ↔
      ∀ reading : Reading, reading.Reads encoded → reading.Proper := by
  apply Iff.intro
  · rintro (⟨err, hfailed⟩ | hown) reading hreads
    · obtain ⟨stored, hparse⟩ := Reading.exists_reads_iff.mp ⟨reading, hreads⟩
      simp only [verify, hparse] at hfailed
      split at hfailed <;> cases hfailed
    · exact proper_of_ownForm hown hreads
  · intro hproper
    cases hparse : parse encoded with
    | error err => exact .inl ⟨err, by simp only [verify, hparse]⟩
    | ok stored =>
        obtain ⟨reading, hreads⟩ := Reading.exists_reads_iff.mpr ⟨stored, hparse⟩
        exact .inr (ownForm_of_proper hreads (hproper reading hreads))

/-- A key derivation that gives the key one byte after the other from the salt. -/
def Argon2.sample : Argon2 where
  idKey password salt time _ threads keyLen :=
    if time = 0 ∨ threads = 0 ∨ keyLen = 0 then none
    else some ((List.range keyLen).map fun i => (password ++ salt).getD i 0)
  length_idKey := by
    intro password salt time memory threads keyLen key hkey
    rw [Option.ite_none_left_eq_some, Option.some.injEq] at hkey
    rw [← hkey.2]
    simp
  defined := by
    intro password salt memory time threads keyLen htime hthreads hkeyLen
    rw [if_neg (by omega)]
    rfl
  panics := by
    intro password salt memory time threads keyLen hzero
    exact if_pos hzero

/-- A hash of another algorithm is evaluated as one of argon2id. -/
theorem other_algorithm_evaluated :
    ¬ ∀ password encoded, RejectsOrOwn Argon2.sample password encoded := by
  intro hall
  have hrejects := hall [] "$argon2i$v=16$m=65536,t=2,p=1$c29tZXNhbHQ$aGFzaA"
  have hverify : verify Argon2.sample [] "$argon2i$v=16$m=65536,t=2,p=1$c29tZXNhbHQ$aGFzaA" =
      .answered false := by
    decide +kernel
  rcases hrejects with ⟨err, hfailed⟩ | ⟨_, _, _, _, _, htext, -⟩
  · rw [hverify] at hfailed
    cases hfailed
  · have halgorithm := congrArg (fun text => text.take 9) htext
    simp at halgorithm

end GoFoundation.Users.PasswordHasher
