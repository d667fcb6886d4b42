/-
# Searching users

The text of a search is spliced into a pattern, `'%' || $1 || '%'`, and nothing
escapes it.  A search without wildcards is a search for the text itself; one with a
percent sign, an underscore or a backslash is not, and for each such search there is
a row that tells the two apart.
-/

import Mathlib.Data.List.Infix
import GoFoundation.Pagination.Complete
import GoFoundation.Users.Repositories

namespace GoFoundation.Users

open Postgres Pagination Library

/-- The characters that `LIKE` does not take literally. -/
def isWildcard (c : Char) : Bool := c = '%' || c = '_' || c = '\\'

/-- How the database lowers letters: character by character, with the wildcards left
alone and never a result. -/
structure Locale where
  toLower : Char → Char
  toLower_eq : ∀ c wildcard, isWildcard wildcard = true → (toLower c = wildcard ↔ c = wildcard)

/-- `lower(text)`. -/
def Locale.lower (locale : Locale) (text : String) : String :=
  String.ofList (text.toList.map locale.toLower)

/-- A database that lowers the letters of ASCII. -/
def Locale.ascii : Locale where
  toLower := CaseTables.sample.toLower
  toLower_eq c wildcard hwildcard := by
    show (if 'A' ≤ c && c ≤ 'Z' then Char.ofNat (c.toNat + 32) else c) = wildcard ↔ c = wildcard
    have hcases : wildcard = '%' ∨ wildcard = '_' ∨ wildcard = '\\' := by
      simpa [isWildcard, or_assoc] using hwildcard
    have hletters : ∀ n : Fin 91, 65 ≤ n.val → isWildcard (Char.ofNat (n.val + 32)) = false ∧
        isWildcard (Char.ofNat n.val) = false := by
      decide +kernel
    split
    · next hletter =>
        rw [Bool.and_eq_true, decide_eq_true_eq, decide_eq_true_eq, Char.le_def, Char.le_def,
          UInt32.le_iff_toNat_le, UInt32.le_iff_toNat_le] at hletter
        have hboth := hletters ⟨c.toNat, Nat.lt_succ_of_le hletter.2⟩ hletter.1
        rw [Char.ofNat_toNat] at hboth
        apply Iff.intro
        · rintro rfl
          rw [hboth.1] at hwildcard
          cases hwildcard
        · rintro rfl
          rw [hboth.2] at hwildcard
          cases hwildcard
    · rfl

/-! ## Patterns without wildcards -/

section Patterns

theorem like_percent (pattern text : List Char) :
    like ('%' :: pattern) text = text.tails.any fun rest => like pattern rest := by
  rw [like]

theorem like_of_suffix {pattern text rest : List Char} (hsuffix : rest <:+ text)
    (hlike : like pattern rest = true) : like ('%' :: pattern) text = true := by
  rw [like_percent]
  exact List.any_eq_true.mpr ⟨rest, (List.mem_tails _ _).mpr hsuffix, hlike⟩

/-- A percent sign at the end takes whatever is left. -/
theorem like_percent_end (text : List Char) : like ['%'] text = true :=
  like_of_suffix (List.nil_suffix (l := text)) rfl

theorem like_literal {c : Char} (hc : isWildcard c = false) (pattern : List Char)
    (d : Char) (text : List Char) :
    like (c :: pattern) (d :: text) = (c = d && like pattern text) := by
  have hne : c ≠ '%' ∧ c ≠ '_' ∧ c ≠ '\\' := by simpa [isWildcard, and_assoc] using hc
  rw [like]
  · exact hne.1
  · exact hne.2.1
  · intro other rest heq
    exact absurd heq hne.2.2

theorem like_literal_nil {c : Char} (hc : c ≠ '%') (pattern : List Char) :
    like (c :: pattern) [] = false := by
  rw [like]
  exact hc

/-- Literal characters have to stand at the beginning of the text. -/
theorem like_append {search : List Char} (hplain : ∀ c ∈ search, isWildcard c = false)
    (pattern text : List Char) : like (search ++ pattern) text = true ↔
      ∃ rest, text = search ++ rest ∧ like pattern rest = true := by
  induction search generalizing text with
  | nil => simp
  | cons c search ih =>
      have hc := hplain c List.mem_cons_self
      have hne : c ≠ '%' := by
        rintro rfl
        cases hc
      cases text with
      | nil => simp [like_literal_nil hne]
      | cons d text =>
          rw [List.cons_append, like_literal hc, Bool.and_eq_true, decide_eq_true_eq,
            ih fun other hother => hplain other (List.mem_cons_of_mem _ hother)]
          apply Iff.intro
          · rintro ⟨rfl, rest, rfl, hlike⟩
            exact ⟨rest, rfl, hlike⟩
          · rintro ⟨rest, heq, hlike⟩
            rw [List.cons_append, List.cons.injEq] at heq
            exact ⟨heq.1.symm, rest, heq.2, hlike⟩

/-- A search without wildcards finds the texts that contain it. -/
theorem like_search_iff {search : List Char} (hplain : ∀ c ∈ search, isWildcard c = false)
    (text : List Char) : like ('%' :: (search ++ ['%'])) text = true ↔ search <:+: text := by
  rw [like_percent, List.any_eq_true]
  apply Iff.intro
  · rintro ⟨tail, htail, hlike⟩
    obtain ⟨rest, rfl, -⟩ := (like_append hplain _ _).mp hlike
    obtain ⟨front, rfl⟩ := (List.mem_tails _ _).mp htail
    exact ⟨front, rest, by simp⟩
  · rintro ⟨front, rest, rfl⟩
    refine ⟨search ++ rest, (List.mem_tails _ _).mpr ⟨front, by simp⟩, ?_⟩
    exact (like_append hplain _ _).mpr ⟨rest, rfl, like_percent_end rest⟩

end Patterns

/-! ## Patterns with wildcards -/

/-- A text that the pattern of a search matches and that is not longer than the
search: percent signs are left out, an underscore is a letter, and an escaped character
stands for itself.  A backslash at the end escapes the percent sign that is appended. -/
def sampleText : List Char → List Char
  | [] => []
  | '%' :: search => sampleText search
  | '_' :: search => 'x' :: sampleText search
  | ['\\'] => ['%']
  | '\\' :: c :: search => c :: sampleText search
  | c :: search => c :: sampleText search

section Wildcards

variable (locale : Locale)

theorem Locale.toLower_wildcard {c : Char} (hc : isWildcard c = true) : locale.toLower c = c :=
  (locale.toLower_eq c c hc).mpr rfl

theorem Locale.isWildcard_toLower (c : Char) : isWildcard (locale.toLower c) = isWildcard c := by
  simp only [isWildcard, locale.toLower_eq c '%' rfl, locale.toLower_eq c '_' rfl,
    locale.toLower_eq c '\\' rfl]

/-- What is left when a search begins with none of the wildcards. -/
theorem isWildcard_eq_false {c : Char} {search : List Char} (hpercent : c ≠ '%')
    (hunderscore : c ≠ '_') (hlast : c = '\\' → search ≠ [])
    (hescape : ∀ d rest, c = '\\' → search ≠ d :: rest) : isWildcard c = false := by
  have hbackslash : c ≠ '\\' := by
    intro heq
    cases search with
    | nil => exact hlast heq rfl
    | cons d rest => exact hescape d rest heq rfl
  simp [isWildcard, hpercent, hunderscore, hbackslash]

theorem length_sampleText_le (search : List Char) :
    (sampleText search).length ≤ search.length := by
  fun_induction sampleText search <;> grind

theorem like_sampleText (search : List Char) :
    like (search.map locale.toLower ++ ['%']) ((sampleText search).map locale.toLower) = true := by
  have hpercent := locale.toLower_wildcard (c := '%') rfl
  have hunderscore := locale.toLower_wildcard (c := '_') rfl
  have hbackslash := locale.toLower_wildcard (c := '\\') rfl
  fun_induction sampleText search with
  | case1 => exact like_percent_end []
  | case2 search ih =>
      rw [List.map_cons, hpercent]
      exact like_of_suffix List.suffix_rfl ih
  | case3 search ih =>
      rw [List.map_cons, hunderscore, List.map_cons, List.cons_append, like]
      exact ih
  | case4 =>
      rw [List.map_cons, hbackslash, List.map_cons, hpercent]
      rfl
  | case5 c search ih =>
      rw [List.map_cons, hbackslash, List.map_cons, List.map_cons, List.cons_append,
        List.cons_append, like]
      simpa using ih
  | case6 c search hnotPercent hnotUnderscore hlast hescape ih =>
      have hc := isWildcard_eq_false hnotPercent hnotUnderscore hlast hescape
      rw [List.map_cons, List.map_cons, List.cons_append,
        like_literal (by rw [locale.isWildcard_toLower, hc])]
      simpa using ih

/-- A search that spells its sample text, case aside, has no wildcards. -/
theorem plain_of_eq_sampleText {search : List Char}
    (heq : search.map locale.toLower = (sampleText search).map locale.toLower) :
    ∀ c ∈ search, isWildcard c = false := by
  fun_induction sampleText search with
  | case1 => simp
  | case2 search ih =>
      have hlength := congrArg List.length heq
      have hle := length_sampleText_le search
      simp only [List.length_map, List.length_cons] at hlength
      omega
  | case3 search ih =>
      rw [List.map_cons, List.map_cons, List.cons.injEq,
        locale.toLower_wildcard (c := '_') rfl] at heq
      have hx := (locale.toLower_eq 'x' '_' rfl).mp heq.1.symm
      cases hx
  | case4 =>
      rw [List.map_cons, List.map_cons, List.cons.injEq,
        locale.toLower_wildcard (c := '\\') rfl] at heq
      have hpercent := (locale.toLower_eq '%' '\\' rfl).mp heq.1.symm
      cases hpercent
  | case5 c search ih =>
      have hlength := congrArg List.length heq
      have hle := length_sampleText_le search
      simp only [List.length_map, List.length_cons] at hlength
      omega
  | case6 c search hnotPercent hnotUnderscore hlast hescape ih =>
      rw [List.map_cons, List.map_cons, List.cons.injEq] at heq
      intro d hd
      rcases List.mem_cons.mp hd with rfl | hd
      · exact isWildcard_eq_false hnotPercent hnotUnderscore hlast hescape
      · exact ih heq.2 d hd

/-- Where a search has wildcards, its sample text does not contain it. -/
theorem plain_of_infix_sampleText {search : List Char}
    (hwithin : search.map locale.toLower <:+: (sampleText search).map locale.toLower) :
    ∀ c ∈ search, isWildcard c = false := by
  apply plain_of_eq_sampleText locale
  apply hwithin.eq_of_length_le
  rw [List.length_map, List.length_map]
  exact length_sampleText_le search

end Wildcards

/-! ## The service -/

/-- `Service.List` over the repository on PostgreSQL. -/
def listSearch (codec : CursorCodec) (lower : String → String) (input : ListInput)
    (users : List User) (pageSize : Int) (pageToken : String) : Except ListError (Page User) :=
  Pagination.list codec 20 (cursorOf User.createdAt User.id)
    (fun after limit => listFiltered lower users
      { limit := limit
        search := Go.trimSpaceText input.search
        afterCreatedAt := after.map Cursor.time
        afterID := after.elim "" Cursor.id })
    pageSize pageToken

/-- The text contains the search, case aside. -/
def containsSearch (lower : String → String) (search text : String) : Bool :=
  (lower search).toList <:+: (lower text).toList

/-- What a search is for: the users with the text in their name or email, and all of
them when it is empty. -/
def literalMatch (lower : String → String) (search : String) (user : User) : Bool :=
  search = "" || containsSearch lower search user.name || containsSearch lower search user.email

/-- The search is sent to the database as it is and has no wildcards. -/
def Plain (search : String) : Prop :=
  ∀ c ∈ search.toList, isWildcard c = false ∧ c.toNat ≠ 0

instance (search : String) : Decidable (Plain search) :=
  inferInstanceAs (Decidable (∀ c ∈ search.toList, _))

section Service

variable (locale : Locale)

theorem Locale.toList_lower_pattern (search : String) :
    (locale.lower ("%" ++ search ++ "%")).toList =
      '%' :: (search.toList.map locale.toLower ++ ['%']) := by
  simp [Locale.lower, String.toList_append, locale.toLower_wildcard (c := '%') rfl]

theorem iLikeSearch_eq_containsSearch {search : String}
    (hplain : ∀ c ∈ search.toList, isWildcard c = false) (text : String) :
    iLikeSearch locale.lower search text = containsSearch locale.lower search text := by
  have hlowered : ∀ c ∈ search.toList.map locale.toLower, isWildcard c = false := by
    intro c hc
    obtain ⟨d, hd, rfl⟩ := List.mem_map.mp hc
    rw [locale.isWildcard_toLower, hplain d hd]
  rw [Bool.eq_iff_iff, iLikeSearch, locale.toList_lower_pattern, like_search_iff hlowered]
  simp [containsSearch, Locale.lower]

/-- Without a zero character `List` pages over the rows that the pattern matches. -/
theorem listSearch_eq_listing {search : String}
    (hzero : ∀ c ∈ (Go.trimSpaceText search).toList, c.toNat ≠ 0) (codec : CursorCodec)
    (lower : String → String) (users : List User) (pageSize : Int) (pageToken : String) :
    listSearch codec lower ⟨search⟩ users pageSize pageToken =
      listing User.createdAt User.id (matchesSearch lower (Go.trimSpaceText search)) codec
        20 users pageSize pageToken := by
  have hcheck : checkText (Go.trimSpaceText search) = some (Go.trimSpaceText search) := by
    rcases checkText_cases (Go.trimSpaceText search) with ⟨hcheck, -⟩ | ⟨-, hnot⟩
    · exact hcheck
    · exact absurd hzero hnot
  simp only [listSearch, listing, listFiltered, hcheck, listUsers, Option.bind_some,
    Int.toNat_natCast, if_neg (not_lt.mpr (Int.natCast_nonneg _))]

theorem matchesSearch_eq_literalMatch {search : String}
    (hplain : ∀ c ∈ search.toList, isWildcard c = false) :
    matchesSearch locale.lower search = literalMatch locale.lower search := by
  funext user
  simp only [matchesSearch, literalMatch, iLikeSearch_eq_containsSearch locale hplain]

/-- The database refuses a zero character. -/
theorem listSearch_of_zero {search : String}
    (hzero : ¬ ∀ c ∈ (Go.trimSpaceText search).toList, c.toNat ≠ 0) (codec : CursorCodec)
    (lower : String → String) (users : List User) :
    listSearch codec lower ⟨search⟩ users 20 "" = .error .failed := by
  have hcheck : checkText (Go.trimSpaceText search) = none := by
    rcases checkText_cases (Go.trimSpaceText search) with ⟨-, hall⟩ | ⟨hcheck, -⟩
    · exact absurd hall hzero
    · exact hcheck
  simp [listSearch, Pagination.list, listFiltered, hcheck]

/-- A user whom the pattern of a search finds. -/
def sampleUser (search : String) : User where
  id := .ofNat 1
  name := String.ofList (sampleText search.toList)
  email := ""
  passwordHash := ""
  enabled := true
  authProvider := "local"
  externalSubject := ""
  createdAt := 0
  updatedAt := 0

theorem matchesSearch_sampleUser (search : String) :
    matchesSearch locale.lower search (sampleUser search) = true := by
  have hname : iLikeSearch locale.lower search (sampleUser search).name = true := by
    rw [iLikeSearch, locale.toList_lower_pattern]
    apply like_of_suffix List.suffix_rfl
    simpa [Locale.lower, sampleUser] using like_sampleText locale search.toList
  simp [matchesSearch, hname]

theorem plain_of_literalMatch_sampleUser {search : String}
    (hmatch : literalMatch locale.lower search (sampleUser search) = true) :
    ∀ c ∈ search.toList, isWildcard c = false := by
  simp only [literalMatch, containsSearch, Locale.lower, sampleUser, Bool.or_eq_true,
    decide_eq_true_eq, String.toList_ofList] at hmatch
  rcases hmatch with (rfl | hname) | hemail
  · simp
  · exact plain_of_infix_sampleText locale hname
  · have hnil : search.toList = [] := by simpa using hemail
    simp [hnil]

/-- On a table with one row, the first page shows whether the row is selected. -/
theorem listing_singleton (cond : User → Bool) (codec : CursorCodec) (user : User) :
    listing User.createdAt User.id cond codec 20 [user] 20 "" =
      .ok ⟨if cond user then [user] else [], ""⟩ := by
  rw [listing, Pagination.list, if_pos rfl]
  simp only [Option.map_none, Option.elim_none, selectPage_first, Keyset.remaining]
  cases hcond : cond user <;> simp [hcond, cutPage, pageLimit]

/-- On every table `List` returns the pages over the users that contain the search,
exactly when the search, trimmed, has neither wildcards nor a zero character. -/
theorem search_literal_iff (codec : CursorCodec) (search : String) :
    (∀ users pageSize pageToken,
      listSearch codec locale.lower ⟨search⟩ users pageSize pageToken =
        listing User.createdAt User.id (literalMatch locale.lower (Go.trimSpaceText search)) codec
          20 users pageSize pageToken) ↔
      Plain (Go.trimSpaceText search) := by
  apply Iff.intro
  · intro hall
    by_cases hzero : ∀ c ∈ (Go.trimSpaceText search).toList, c.toNat ≠ 0
    · -- The pattern matches the sample user, so the text has to be in its name.
      have hone := hall [sampleUser (Go.trimSpaceText search)] 20 ""
      rw [listSearch_eq_listing hzero, listing_singleton, listing_singleton,
        matchesSearch_sampleUser, if_pos rfl] at hone
      have hmatch : literalMatch locale.lower (Go.trimSpaceText search)
          (sampleUser (Go.trimSpaceText search)) = true := by
        by_contra hmiss
        simp [hmiss] at hone
      intro c hc
      exact ⟨plain_of_literalMatch_sampleUser locale hmatch c hc, hzero c hc⟩
    · have hone := hall [] 20 ""
      rw [listSearch_of_zero hzero] at hone
      simp [listing, Pagination.list, selectPage, nullID] at hone
  · intro hplain users pageSize pageToken
    rw [listSearch_eq_listing fun c hc => (hplain c hc).2,
      matchesSearch_eq_literalMatch locale fun c hc => (hplain c hc).1]

end Service

/-- A search for an underscore finds a user without one. -/
theorem underscore_finds_everybody :
    ¬ ∀ users pageSize pageToken,
      listSearch CursorCodec.sample Locale.ascii.lower ⟨"_"⟩ users pageSize pageToken =
        listing User.createdAt User.id
          (literalMatch Locale.ascii.lower (Go.trimSpaceText "_")) CursorCodec.sample 20 users
          pageSize pageToken := by
  intro hall
  have hada := hall
    [⟨.ofNat 1, "Ada", "ada@example.com", "", true, "local", "", 1000, 1000⟩] 20 ""
  revert hada
  decide +kernel

end GoFoundation.Users
