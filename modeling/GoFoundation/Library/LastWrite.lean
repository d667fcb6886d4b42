/-
# The last write decides

Actions run one after the other, and each writes one cell or none.  Afterwards a cell
holds what the last action on it wrote, or what it held before if none did.  Which
cell an action writes may depend on the state it meets, as it does for an action that
can fail.
-/

import Mathlib.Tactic.Common

namespace GoFoundation.Library.LastWrite

universe u v w x

variable {σ : Type u} {α : Type v} {κ : Type w} {ν : Type x} [DecidableEq κ]

/-- The writes of a run, in order. -/
def writes (step : σ → α → σ) (write : σ → α → Option (κ × ν)) : σ → List α → List (κ × ν)
  | _, [] => []
  | s, action :: rest => (write s action).toList ++ writes step write (step s action) rest

/-- What is written last under a key. -/
def last (key : κ) (entries : List (κ × ν)) : Option ν := entries.reverse.lookup key

theorem last_append (key : κ) (first second : List (κ × ν)) :
    last key (first ++ second) = (last key second).or (last key first) := by
  rw [last, List.reverse_append, List.lookup_append]
  rfl

@[simp]
theorem last_nil (key : κ) : last key ([] : List (κ × ν)) = none := rfl

@[simp]
theorem last_singleton (key : κ) (entry : κ × ν) :
    last key [entry] = if key = entry.1 then some entry.2 else none := by
  rw [last, List.reverse_singleton, List.lookup_cons]
  by_cases hkey : key = entry.1
  · rw [if_pos hkey, beq_iff_eq.mpr hkey]
  · rw [if_neg hkey, beq_false_of_ne hkey]
    rfl

/-- A cell holds what was written last, if one step changes only what it writes. -/
theorem read_foldl {step : σ → α → σ} {write : σ → α → Option (κ × ν)} {read : σ → κ → ν}
    (hstep : ∀ s action key, read (step s action) key =
      (last key (write s action).toList).getD (read s key)) (actions : List α) (s : σ) (key : κ) :
    read (actions.foldl step s) key =
      (last key (writes step write s actions)).getD (read s key) := by
  induction actions generalizing s with
  | nil => rfl
  | cons action rest ih =>
      rw [List.foldl_cons, ih, hstep, writes, last_append]
      cases last key (writes step write (step s action) rest) with
      | none => rfl
      | some value => rfl

end GoFoundation.Library.LastWrite
