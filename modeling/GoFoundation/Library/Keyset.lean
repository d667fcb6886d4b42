/-
# Keyset pagination

Rows are listed from the greatest key down, one page at a time.  A page is the
first rows beyond the key of the last row returned, and the walk goes on as long
as a row is left behind.  Rows may be added between pages, anywhere in the order.

The invariant says where every row that was there at the start is: returned
already, or beyond the bound.  Nothing here depends on what rows and keys are.
-/

import Mathlib.Data.List.Sort
import Mathlib.Data.List.Nodup

namespace GoFoundation.Library.Keyset

universe u v

variable {ρ : Type u} {κ : Type v} [LinearOrder κ] (key : ρ → κ) (cond : ρ → Bool)

/-- The row comes after the bound; without one every row does. -/
def beyond (bound : Option κ) (row : ρ) : Bool := bound.all fun last => key row < last

/-- The rows that a walk still has to return, in order. -/
def remaining (bound : Option κ) (rows : List ρ) : List ρ :=
  (rows.filter fun row => cond row && beyond key bound row).insertionSort
    fun first second => key second ≤ key first

variable {key cond} {bound : Option κ} {rows : List ρ}

@[simp]
theorem beyond_none (row : ρ) : beyond key none row = true := rfl

theorem beyond_some {last : κ} {row : ρ} : beyond key (some last) row = true ↔ key row < last := by
  simp [beyond]

theorem mem_remaining {row : ρ} :
    row ∈ remaining key cond bound rows ↔
      row ∈ rows ∧ cond row = true ∧ beyond key bound row = true := by
  rw [remaining, List.mem_insertionSort, List.mem_filter, Bool.and_eq_true]

theorem length_remaining :
    (remaining key cond bound rows).length =
      rows.countP fun row => cond row && beyond key bound row := by
  rw [remaining, List.length_insertionSort, List.countP_eq_length_filter]

/-- With distinct keys the order is strict. -/
theorem remaining_pairwise (hkeys : (rows.map key).Nodup) :
    (remaining key cond bound rows).Pairwise fun first second => key second < key first := by
  have htotal : Std.Total fun first second : ρ => key second ≤ key first :=
    ⟨fun first second => le_total (key second) (key first)⟩
  have htrans : IsTrans ρ fun first second => key second ≤ key first :=
    ⟨fun _ _ _ hfirst hsecond => le_trans hsecond hfirst⟩
  have hsorted : (remaining key cond bound rows).Pairwise
      fun first second => key second ≤ key first := List.pairwise_insertionSort _ _
  have hdistinct : ((remaining key cond bound rows).map key).Nodup := by
    have hperm := (List.perm_insertionSort (fun first second : ρ => key second ≤ key first)
      (rows.filter fun row => cond row && beyond key bound row)).map key
    exact hperm.nodup_iff.mpr (hkeys.sublist (List.filter_sublist.map key))
  have hne : (remaining key cond bound rows).Pairwise
      fun first second => key first ≠ key second := List.pairwise_map.mp hdistinct
  exact (hsorted.and hne).imp fun hboth => lt_of_le_of_ne hboth.1 (Ne.symm hboth.2)

/-! ## Cutting a page off -/

section Cut

variable {count : Nat} {last : ρ}

/-- The rows of the page are not beyond its last row. -/
theorem le_of_mem_take (hkeys : (rows.map key).Nodup)
    (hlast : (remaining key cond bound rows)[count]? = some last) {row : ρ}
    (hrow : row ∈ (remaining key cond bound rows).take (count + 1)) : key last ≤ key row := by
  have hpairwise : ((remaining key cond bound rows).take (count + 1)).Pairwise
      fun first second => key second < key first :=
    (remaining_pairwise hkeys).sublist (List.take_sublist (count + 1) _)
  rw [List.take_add_one, hlast, Option.toList_some] at hrow hpairwise
  rcases List.mem_append.mp hrow with hbefore | hself
  · exact le_of_lt ((List.pairwise_append.mp hpairwise).2.2 row hbefore last
      (List.mem_singleton_self last))
  · rw [List.mem_singleton.mp hself]

/-- The rows that the page leaves behind are beyond its last row. -/
theorem lt_of_mem_drop (hkeys : (rows.map key).Nodup)
    (hlast : (remaining key cond bound rows)[count]? = some last) {row : ρ}
    (hrow : row ∈ (remaining key cond bound rows).drop (count + 1)) : key row < key last := by
  have hpairwise : (remaining key cond bound rows).Pairwise
      fun first second => key second < key first := remaining_pairwise hkeys
  rw [← List.take_append_drop (count + 1) (remaining key cond bound rows),
    List.pairwise_append] at hpairwise
  refine hpairwise.2.2 last ?_ row hrow
  rw [List.take_add_one, hlast]
  simp

/-- A page that leaves rows behind makes the walk shorter and does not end it. -/
theorem length_remaining_lt (hkeys : (rows.map key).Nodup)
    (hmore : count + 1 < (remaining key cond bound rows).length)
    (hlast : (remaining key cond bound rows)[count]? = some last) :
    0 < (remaining key cond (some (key last)) rows).length ∧
      (remaining key cond (some (key last)) rows).length <
        (remaining key cond bound rows).length := by
  obtain ⟨hmem, hcond, hbeyond⟩ := mem_remaining.mp (List.mem_of_getElem? hlast)
  constructor
  · -- The first row left behind.
    obtain ⟨next, hnext⟩ : ∃ next, next ∈ (remaining key cond bound rows).drop (count + 1) :=
      List.exists_mem_of_length_pos (by rw [List.length_drop]; omega)
    obtain ⟨hrow, hrowCond, -⟩ := mem_remaining.mp (List.mem_of_mem_drop hnext)
    refine List.length_pos_of_mem (a := next) (mem_remaining.mpr ⟨hrow, hrowCond, ?_⟩)
    exact beyond_some.mpr (lt_of_mem_drop hkeys hlast hnext)
  · rw [length_remaining, length_remaining]
    have himp : ∀ row, (cond row && beyond key (some (key last)) row) = true →
        (cond row && beyond key bound row) = true := by
      intro row hrow
      rw [Bool.and_eq_true, beyond_some] at hrow
      rw [Bool.and_eq_true]
      refine ⟨hrow.1, ?_⟩
      cases bound with
      | none => rfl
      | some previous => exact beyond_some.mpr (hrow.2.trans (beyond_some.mp hbeyond))
    apply lt_of_le_of_ne (List.countP_mono_left fun row _ => himp row)
    intro heq
    -- The last row of the page is no longer counted.
    rw [List.countP_eq_length_filter, List.countP_eq_length_filter] at heq
    have hsub : rows.filter (fun row => cond row && beyond key (some (key last)) row) =
        rows.filter fun row => cond row && beyond key bound row :=
      (List.monotone_filter_right rows fun row => himp row).eq_of_length heq
    have hself : last ∈ rows.filter fun row => cond row && beyond key (some (key last)) row := by
      rw [hsub, List.mem_filter, Bool.and_eq_true]
      exact ⟨hmem, hcond, hbeyond⟩
    have hlt := (Bool.and_eq_true _ _ ▸ (List.mem_filter.mp hself).2 :
      cond last = true ∧ beyond key (some (key last)) last = true)
    exact lt_irrefl _ (beyond_some.mp hlt.2)

/-- When a page has exactly one row. -/
theorem take_remaining_eq_singleton_iff (hkeys : (rows.map key).Nodup) {row : ρ} :
    (remaining key cond bound rows).take count = [row] ↔
      1 ≤ count ∧ row ∈ remaining key cond bound rows ∧
        ∀ other ∈ remaining key cond bound rows, other ≠ row → count = 1 ∧ key other < key row := by
  have hpairwise : (remaining key cond bound rows).Pairwise
      fun first second => key second < key first := remaining_pairwise hkeys
  cases hlist : remaining key cond bound rows with
  | nil => simp
  | cons first rest =>
      rw [hlist, List.pairwise_cons] at hpairwise
      cases count with
      | zero => simp
      | succ count =>
          rw [List.take_succ_cons, List.cons.injEq, List.take_eq_nil_iff]
          apply Iff.intro
          · rintro ⟨rfl, hcount | rfl⟩
            · refine ⟨by omega, List.mem_cons_self, ?_⟩
              intro other hother hne
              refine ⟨by omega, hpairwise.1 other ?_⟩
              exact (List.mem_cons.mp hother).resolve_left hne
            · refine ⟨by omega, List.mem_cons_self, ?_⟩
              intro other hother hne
              exact absurd (List.mem_singleton.mp hother) hne
          · rintro ⟨-, hrow, hothers⟩
            have hfirst : first = row := by
              by_contra hne
              have hlt := (hothers first List.mem_cons_self hne).2
              have hrest := (List.mem_cons.mp hrow).resolve_left (Ne.symm hne)
              exact lt_asymm hlt (hpairwise.1 row hrest)
            subst hfirst
            refine ⟨rfl, ?_⟩
            cases rest with
            | nil => exact .inr rfl
            | cons second rest =>
                have hlt := hpairwise.1 second List.mem_cons_self
                have hne : second ≠ first := fun heq => absurd (heq ▸ hlt) (lt_irrefl _)
                have hone := hothers second (List.mem_cons_of_mem _ List.mem_cons_self) hne
                exact .inl (by omega)

end Cut

/-! ## The invariant of a walk -/

variable (key cond) in
/-- How far a walk over a table that started with the rows `start` has come. -/
structure Visited (start rows returned : List ρ) (bound : Option κ) (finished : Bool) : Prop where
  keys : (rows.map key).Nodup
  kept : ∀ row ∈ start, row ∈ rows
  ordered : returned.Pairwise fun first second => key second < key first
  sound : ∀ row ∈ returned, row ∈ rows ∧ cond row = true
  /-- The bound separates what has been returned from what has not. -/
  above : finished = false → ∀ row ∈ returned, ∃ last, bound = some last ∧ last ≤ key row
  complete : ∀ row ∈ start, cond row = true →
    row ∈ returned ∨ (finished = false ∧ beyond key bound row = true)

namespace Visited

variable {start returned : List ρ} {finished : Bool}

theorem initial (hkeys : (rows.map key).Nodup) : Visited key cond rows rows [] none false where
  keys := hkeys
  kept := fun _ hrow => hrow
  ordered := .nil
  sound := by simp
  above := by simp
  complete := fun _ _ _ => .inr ⟨rfl, rfl⟩

/-- A row with a key of its own is added. -/
theorem insert (h : Visited key cond start rows returned bound finished) {row : ρ}
    (hnew : ∀ old ∈ rows, key old ≠ key row) :
    Visited key cond start (rows ++ [row]) returned bound finished where
  keys := by
    rw [List.map_append, List.map_singleton, List.nodup_append]
    refine ⟨h.keys, List.nodup_singleton _, ?_⟩
    intro first hfirst second hsecond
    obtain ⟨old, hold, rfl⟩ := List.mem_map.mp hfirst
    rw [List.mem_singleton.mp hsecond]
    exact hnew old hold
  kept := fun old hold => List.mem_append_left _ (h.kept old hold)
  ordered := h.ordered
  sound := fun old hold => ⟨List.mem_append_left _ (h.sound old hold).1, (h.sound old hold).2⟩
  above := h.above
  complete := h.complete

/-- Whatever is remaining comes after what has been returned. -/
theorem ordered_append (h : Visited key cond start rows returned bound false) {page : List ρ}
    (hpage : page.Sublist (remaining key cond bound rows)) :
    (returned ++ page).Pairwise fun first second => key second < key first := by
  refine List.pairwise_append.mpr ⟨h.ordered, (remaining_pairwise h.keys).sublist hpage, ?_⟩
  intro first hfirst second hsecond
  obtain ⟨last, rfl, hle⟩ := h.above rfl first hfirst
  obtain ⟨-, -, hbeyond⟩ := mem_remaining.mp (hpage.subset hsecond)
  exact lt_of_lt_of_le (beyond_some.mp hbeyond) hle

theorem sound_append (h : Visited key cond start rows returned bound false) {page : List ρ}
    (hpage : page.Sublist (remaining key cond bound rows)) :
    ∀ row ∈ returned ++ page, row ∈ rows ∧ cond row = true := by
  intro row hrow
  rcases List.mem_append.mp hrow with hold | hnew
  · exact h.sound row hold
  · obtain ⟨hmem, hcond, -⟩ := mem_remaining.mp (hpage.subset hnew)
    exact ⟨hmem, hcond⟩

/-- A page that leaves rows behind. -/
theorem fetch_more (h : Visited key cond start rows returned bound false) {count : Nat} {last : ρ}
    (hlast : (remaining key cond bound rows)[count]? = some last) :
    Visited key cond start rows
      (returned ++ (remaining key cond bound rows).take (count + 1)) (some (key last)) false where
  keys := h.keys
  kept := h.kept
  ordered := h.ordered_append (List.take_sublist _ _)
  sound := h.sound_append (List.take_sublist _ _)
  above := by
    intro _ row hrow
    refine ⟨key last, rfl, ?_⟩
    rcases List.mem_append.mp hrow with hold | hnew
    · obtain ⟨previous, rfl, hle⟩ := h.above rfl row hold
      obtain ⟨-, -, hbeyond⟩ := mem_remaining.mp (List.mem_of_getElem? hlast)
      exact (le_of_lt (beyond_some.mp hbeyond)).trans hle
    · exact le_of_mem_take h.keys hlast hnew
  complete := by
    intro row hrow hcond
    rcases h.complete row hrow hcond with hreturned | ⟨-, hbeyond⟩
    · exact .inl (List.mem_append_left _ hreturned)
    · have hmem := mem_remaining.mpr ⟨h.kept row hrow, hcond, hbeyond⟩
      rw [← List.take_append_drop (count + 1) (remaining key cond bound rows)] at hmem
      rcases List.mem_append.mp hmem with htaken | hleft
      · exact .inl (List.mem_append_right _ htaken)
      · exact .inr ⟨rfl, beyond_some.mpr (lt_of_mem_drop h.keys hlast hleft)⟩

/-- The last page. -/
theorem fetch_last (h : Visited key cond start rows returned bound false) (bound' : Option κ) :
    Visited key cond start rows (returned ++ remaining key cond bound rows) bound' true where
  keys := h.keys
  kept := h.kept
  ordered := h.ordered_append (List.Sublist.refl _)
  sound := h.sound_append (List.Sublist.refl _)
  above := by simp
  complete := by
    intro row hrow hcond
    rcases h.complete row hrow hcond with hreturned | ⟨-, hbeyond⟩
    · exact .inl (List.mem_append_left _ hreturned)
    · exact .inl (List.mem_append_right _
        (mem_remaining.mpr ⟨h.kept row hrow, hcond, hbeyond⟩))

/-- No row is returned twice. -/
theorem nodup (h : Visited key cond start rows returned bound finished) : returned.Nodup :=
  h.ordered.imp fun hlt heq => absurd (heq ▸ hlt) (lt_irrefl _)

end Visited

end GoFoundation.Library.Keyset
