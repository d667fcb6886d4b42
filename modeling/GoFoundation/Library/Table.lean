/-
# Relational tables as lists of rows

A table is a list of rows and a uniqueness constraint is duplicate-freedom of
the mapped column.  The two statements that rewrite rows in place are a guarded
map and a filter; this module says once what they do to membership and to a
unique column, so that proofs about a statement never unfold the list.

The last section is the three-valued logic in which a row condition is
evaluated when a column may be absent.
-/

import Mathlib.Data.List.Find
import Mathlib.Data.List.Nodup

namespace GoFoundation.Library

universe u v

namespace Table

variable {ρ : Type u} {κ : Type v}

/-- `UPDATE … SET … WHERE …`: rewrite the rows that satisfy the condition. -/
def updateWhere (cond : ρ → Bool) (set : ρ → ρ) (rows : List ρ) : List ρ :=
  rows.map fun row => if cond row then set row else row

/-- `DELETE … WHERE …`: drop the rows that satisfy the condition. -/
def deleteWhere (cond : ρ → Bool) (rows : List ρ) : List ρ :=
  rows.filter fun row => !cond row

@[simp]
theorem mem_deleteWhere {cond : ρ → Bool} {rows : List ρ} {row : ρ} :
    row ∈ deleteWhere cond rows ↔ row ∈ rows ∧ cond row = false := by
  simp [deleteWhere]

theorem deleteWhere_sublist (cond : ρ → Bool) (rows : List ρ) :
    (deleteWhere cond rows).Sublist rows :=
  List.filter_sublist

/-- A delete whose condition no row meets changes nothing. -/
theorem deleteWhere_eq_self {cond : ρ → Bool} {rows : List ρ}
    (hnone : ∀ row ∈ rows, cond row = false) : deleteWhere cond rows = rows := by
  rw [deleteWhere, List.filter_eq_self]
  intro row hrow
  simp [hnone row hrow]

/-- Every row after an update is a rewritten match or an untouched miss. -/
theorem mem_updateWhere {cond : ρ → Bool} {set : ρ → ρ} {rows : List ρ} {row : ρ} :
    row ∈ updateWhere cond set rows ↔
      (∃ old ∈ rows, cond old = true ∧ row = set old) ∨
        (row ∈ rows ∧ cond row = false) := by
  constructor
  · intro hmem
    obtain ⟨old, hold, rfl⟩ := List.mem_map.mp hmem
    cases hcond : cond old with
    | true => exact .inl ⟨old, hold, hcond, by simp⟩
    | false => exact .inr (by simpa [hcond] using hold)
  · rintro (⟨old, hold, hcond, rfl⟩ | ⟨hmem, hcond⟩)
    · exact List.mem_map.mpr ⟨old, hold, by simp [hcond]⟩
    · exact List.mem_map.mpr ⟨row, hmem, by simp [hcond]⟩

/-- An update whose condition no row meets changes nothing. -/
theorem updateWhere_eq_self {cond : ρ → Bool} {set : ρ → ρ} {rows : List ρ}
    (hnone : ∀ row ∈ rows, cond row = false) : updateWhere cond set rows = rows := by
  rw [updateWhere, List.map_congr_left (g := id)]
  · simp
  · intro row hrow
    simp [hnone row hrow]

/-- An update that leaves a column alone leaves the whole column alone. -/
theorem map_updateWhere {cond : ρ → Bool} {set : ρ → ρ} (key : ρ → κ)
    (hkey : ∀ row, key (set row) = key row) (rows : List ρ) :
    (updateWhere cond set rows).map key = rows.map key := by
  rw [updateWhere, List.map_map]
  apply List.map_congr_left
  intro row _
  by_cases hcond : cond row <;> simp [hcond, hkey]

/-- Deleting keeps a unique column unique. -/
theorem nodup_map_deleteWhere {cond : ρ → Bool} {key : ρ → κ} {rows : List ρ}
    (hnodup : (rows.map key).Nodup) : ((deleteWhere cond rows).map key).Nodup :=
  hnodup.sublist ((deleteWhere_sublist cond rows).map key)

/-- Appending a row with a new key keeps a unique column unique. -/
theorem nodup_map_append {key : ρ → κ} {rows : List ρ} {row : ρ}
    (hnodup : (rows.map key).Nodup) (hnew : ∀ old ∈ rows, key old ≠ key row) :
    ((rows ++ [row]).map key).Nodup := by
  rw [List.map_append, List.nodup_append]
  refine ⟨hnodup, List.nodup_singleton _, ?_⟩
  intro a ha b hb
  obtain ⟨old, hold, rfl⟩ := List.mem_map.mp ha
  rw [List.map_singleton, List.mem_singleton] at hb
  exact hb ▸ hnew old hold

/-- Two rows that agree on a unique column are the same row. -/
theorem eq_of_key_eq {key : ρ → κ} {rows : List ρ} (hnodup : (rows.map key).Nodup)
    {first second : ρ} (hfirst : first ∈ rows) (hsecond : second ∈ rows)
    (hkey : key first = key second) : first = second :=
  List.inj_on_of_nodup_map hnodup hfirst hsecond hkey

/-- A condition that fixes a unique column matches one row only. -/
theorem cond_iff_eq {key : ρ → κ} {rows : List ρ} (hnodup : (rows.map key).Nodup)
    {cond : ρ → Bool} {old : ρ} (hold : old ∈ rows) (hcond : cond old = true)
    (hkey : ∀ row, cond row = true → key row = key old) :
    ∀ row ∈ rows, cond row = true ↔ row = old := by
  intro row hrow
  constructor
  · exact fun h => eq_of_key_eq hnodup hrow hold (hkey row h)
  · rintro rfl
    exact hcond

/-- Counting the rows that match such a condition gives one. -/
theorem countP_eq_one {key : ρ → κ} {rows : List ρ} (hnodup : (rows.map key).Nodup)
    {cond : ρ → Bool} {old : ρ} (hold : old ∈ rows)
    (hunique : ∀ row ∈ rows, cond row = true ↔ row = old) : rows.countP cond = 1 := by
  induction rows with
  | nil => cases hold
  | cons row rows ih =>
      rw [List.map_cons, List.nodup_cons] at hnodup
      have htail : ∀ row' ∈ rows, cond row' = true ↔ row' = old := fun row' hrow' =>
        hunique row' (List.mem_cons_of_mem _ hrow')
      by_cases hcond : cond row = true
      · obtain rfl := (hunique row List.mem_cons_self).mp hcond
        have hzero : rows.countP cond = 0 := by
          refine List.countP_eq_zero.mpr fun row' hrow' hcond' => hnodup.1 ?_
          exact (htail row' hrow').mp hcond' ▸ List.mem_map_of_mem hrow'
        rw [List.countP_cons_of_pos hcond, hzero]
      · have hne : row ≠ old := mt (hunique row List.mem_cons_self).mpr hcond
        rw [List.countP_cons_of_neg hcond]
        exact ih hnodup.2 ((List.mem_cons.mp hold).resolve_left (Ne.symm hne)) htail

/-- Where a condition can match one row only, not matching one is matching none. -/
theorem forall_false_of_countP_ne_one {key : ρ → κ} {rows : List ρ}
    (hnodup : (rows.map key).Nodup) {cond : ρ → Bool}
    (hkey : ∀ first second, cond first = true → cond second = true → key first = key second)
    (hcount : rows.countP cond ≠ 1) : ∀ row ∈ rows, cond row = false := by
  intro row hrow
  by_contra hcond
  rw [Bool.not_eq_false] at hcond
  have hunique := cond_iff_eq hnodup hrow hcond fun other hother => hkey other row hother hcond
  exact hcount (countP_eq_one hnodup hrow hunique)

/-! A statement on a part of the table, that is on the rows that pass a test which no
update changes. -/

section Part

variable {cond part : ρ → Bool} {set : ρ → ρ} {rows : List ρ}

/-- An update of the table is an update of the part. -/
theorem filter_updateWhere (hset : ∀ row, part (set row) = part row) :
    (updateWhere cond set rows).filter part = updateWhere cond set (rows.filter part) := by
  rw [updateWhere, updateWhere, List.filter_map]
  congr 1
  apply List.filter_congr
  intro row _
  rw [Function.comp_apply]
  split
  · exact hset row
  · rfl

/-- An update of rows outside the part leaves the part alone. -/
theorem filter_updateWhere_of_outside (hset : ∀ row, part (set row) = part row)
    (houtside : ∀ row ∈ rows, cond row = true → part row = false) :
    (updateWhere cond set rows).filter part = rows.filter part := by
  rw [filter_updateWhere hset]
  apply updateWhere_eq_self
  intro row hrow
  obtain ⟨hmem, hpart⟩ := List.mem_filter.mp hrow
  cases hcond : cond row with
  | false => rfl
  | true =>
      rw [houtside row hmem hcond] at hpart
      cases hpart

/-- A condition that holds only inside the part counts the same there. -/
theorem countP_filter_of_inside (hinside : ∀ row ∈ rows, cond row = true → part row = true) :
    (rows.filter part).countP cond = rows.countP cond := by
  rw [List.countP_filter]
  apply List.countP_congr
  intro row hrow
  rw [Bool.and_eq_true, and_iff_left_iff_imp]
  exact hinside row hrow

/-- A condition that holds only inside the part finds the same row there. -/
theorem find?_filter_of_inside (hinside : ∀ row ∈ rows, cond row = true → part row = true) :
    (rows.filter part).find? cond = rows.find? cond := by
  rw [List.find?_filter]
  apply List.find?_congr
  intro row hrow
  rw [Bool.eq_iff_iff, decide_eq_true_eq, and_iff_right_iff_imp]
  exact hinside row hrow

end Part

/-! A selection with one row on it, and one that is the same in every order. -/

/-- A condition selects one row exactly if that one alone meets it. -/
theorem filter_eq_singleton_iff {cond : ρ → Bool} {rows : List ρ} (hnodup : rows.Nodup)
    {row : ρ} :
    rows.filter cond = [row] ↔
      row ∈ rows ∧ ∀ other ∈ rows, cond other = true ↔ other = row := by
  rw [← List.perm_singleton, List.perm_ext_iff_of_nodup (hnodup.filter cond)
    (List.nodup_singleton row)]
  simp only [List.mem_filter, List.mem_singleton]
  apply Iff.intro
  · intro h
    refine ⟨((h row).mpr rfl).1, ?_⟩
    intro other hother
    rw [← h other]
    exact (and_iff_right hother).symm
  · rintro ⟨hrow, h⟩ other
    apply Iff.intro
    · exact fun hother => (h other hother.1).mp hother.2
    · rintro rfl
      exact ⟨hrow, (h other hrow).mpr rfl⟩

/-- If the first rows are the same from either end, there is at most one row. -/
theorem eq_nil_or_singleton_of_take_reverse {rows page : List ρ} {count : Nat}
    (hnodup : rows.Nodup) (hcount : 0 < count) (hforward : rows.take count = page)
    (hbackward : rows.reverse.take count = page) :
    (rows = [] ∧ page = []) ∨ ∃ row, rows = [row] ∧ page = [row] := by
  obtain ⟨count, rfl⟩ : ∃ n, count = n + 1 := ⟨count - 1, by omega⟩
  cases rows with
  | nil => exact .inl ⟨rfl, hforward.symm⟩
  | cons row rest =>
      rcases List.eq_nil_or_concat rest with rfl | ⟨init, last, rfl⟩
      · exact .inr ⟨row, rfl, by simpa using hforward.symm⟩
      · -- The first row and the last one are the same.
        rw [← hforward] at hbackward
        simp only [List.reverse_cons, List.reverse_append, List.reverse_nil, List.nil_append,
          List.concat_eq_append, List.cons_append, List.take_succ_cons, List.cons.injEq]
          at hbackward
        rw [hbackward.1] at hnodup
        simp at hnodup

/-! `INSERT` of rows into a table whose constraints say which two rows clash. -/

section Insert

variable {clash : ρ → ρ → Bool} {rows new : List ρ}

/-- `INSERT` of one row; `none` is a violated constraint. -/
def insertUnique (clash : ρ → ρ → Bool) (rows : List ρ) (row : ρ) : Option (List ρ) :=
  if rows.any (clash row) then none else some (rows ++ [row])

/-- `INSERT` of several rows, all or none. -/
def insertAll (clash : ρ → ρ → Bool) (rows new : List ρ) : Option (List ρ) :=
  new.foldlM (insertUnique clash) rows

/-- Rows that clash with nothing are appended. -/
theorem insertAll_eq_append
    (hclash : (rows ++ new).Pairwise fun first second => clash second first = false) :
    insertAll clash rows new = some (rows ++ new) := by
  induction new generalizing rows with
  | nil => rw [List.append_nil]; rfl
  | cons row new ih =>
      have hnone : rows.any (clash row) = false := by
        rw [List.any_eq_false]
        intro old hold
        rw [(List.pairwise_append.mp hclash).2.2 old hold row List.mem_cons_self]
        exact Bool.false_ne_true
      have hsplit : rows ++ row :: new = rows ++ [row] ++ new := by
        rw [List.append_assoc, List.singleton_append]
      rw [hsplit] at hclash ⊢
      rw [insertAll, List.foldlM_cons, insertUnique, hnone]
      exact ih hclash

end Insert

variable [DecidableEq κ]

/-- `SELECT … WHERE key = k` on a unique column: the first matching row. -/
def selectKey (key : ρ → κ) (k : κ) (rows : List ρ) : Option ρ :=
  rows.find? fun row => key row = k

/-- On a unique column a lookup finds exactly the row that has the key. -/
theorem selectKey_eq_some_iff {key : ρ → κ} {rows : List ρ}
    (hnodup : (rows.map key).Nodup) {k : κ} {row : ρ} :
    selectKey key k rows = some row ↔ row ∈ rows ∧ key row = k := by
  constructor
  · intro hfind
    exact ⟨List.mem_of_find?_eq_some hfind, by simpa using List.find?_some hfind⟩
  · rintro ⟨hmem, hkey⟩
    cases hfind : selectKey key k rows with
    | none => exact absurd hkey (by simpa using List.find?_eq_none.mp hfind row hmem)
    | some other =>
        have hother : key other = k := by simpa using List.find?_some hfind
        have hsame := eq_of_key_eq hnodup (List.mem_of_find?_eq_some hfind) hmem
          (hother.trans hkey.symm)
        rw [hsame]

/-- A lookup that finds a row finds one of the table with the key asked for. -/
theorem selectKey_some {key : ρ → κ} {rows : List ρ} {k : κ} {row : ρ}
    (hfind : selectKey key k rows = some row) : row ∈ rows ∧ key row = k :=
  ⟨List.mem_of_find?_eq_some hfind, by simpa using List.find?_some hfind⟩

/-- A lookup that finds nothing: no row of the table has the key. -/
theorem selectKey_eq_none_iff {key : ρ → κ} {rows : List ρ} {k : κ} :
    selectKey key k rows = none ↔ ∀ row ∈ rows, key row ≠ k := by
  simp [selectKey]

end Table

/-! ## Three-valued conditions -/

/-- The truth value of a row condition; `none` is the unknown that a comparison
with an absent column yields. -/
abbrev Truth := Option Bool

namespace Truth

/-- Conjunction: a false side decides, otherwise an unknown side spreads. -/
def and : Truth → Truth → Truth
  | some false, _ => some false
  | _, some false => some false
  | some true, some true => some true
  | _, _ => none

/-- Disjunction: a true side decides, otherwise an unknown side spreads. -/
def or : Truth → Truth → Truth
  | some true, _ => some true
  | _, some true => some true
  | some false, some false => some false
  | _, _ => none

/-- A row is selected only when its condition is known to hold. -/
def holds (truth : Truth) : Bool := truth == some true

/-- Compare a nullable column with a value. -/
def compare {τ : Type u} (column : Option τ) (test : τ → Bool) : Truth := column.map test

@[simp]
theorem holds_some (b : Bool) : holds (some b) = b := by cases b <;> rfl

@[simp]
theorem holds_none : holds none = false := rfl

@[simp]
theorem holds_and (a b : Truth) : holds (and a b) = (holds a && holds b) := by
  rcases a with _ | _ | _ <;> rcases b with _ | _ | _ <;> rfl

@[simp]
theorem holds_or (a b : Truth) : holds (or a b) = (holds a || holds b) := by
  rcases a with _ | _ | _ <;> rcases b with _ | _ | _ <;> rfl

@[simp]
theorem holds_compare {τ : Type u} (column : Option τ) (test : τ → Bool) :
    holds (compare column test) = column.any test := by
  cases column <;> simp [compare]

end Truth

end GoFoundation.Library
