/-
# Checklists

Settings are checked one after the other, and the first check that fails is reported with
the key of the setting that it is about.  Whoever repairs the settings sets that key to
something else and tries again.

Where a check reads its own key and keys of checks before it only, repairs make progress: a
repaired key does not come back, so the keys that are reported follow the order of the list,
and where each check can be met by its own key alone, there is a way to the end of the list.
-/

import Mathlib.Data.List.Chain
import Mathlib.Logic.Function.Basic
import GoFoundation.Library.Transition

namespace GoFoundation.Library

variable {κ ν ε : Type}

/-- A check of a setting, which may look at others. -/
structure Check (κ ν ε : Type) where
  key : κ
  reads : List κ
  fault : (κ → ν) → Option ε
  reads_only : ∀ env env', (∀ k ∈ key :: reads, env k = env' k) → fault env = fault env'

namespace Check

/-- The first check that fails. -/
def firstFault (checks : List (Check κ ν ε)) (env : κ → ν) : Option (κ × ε) :=
  checks.findSome? fun check => (check.fault env).map fun err => (check.key, err)

/-- The checks look at keys of earlier checks only, and each has a key of its own. -/
def Ordered (checks : List (Check κ ν ε)) : Prop :=
  checks.Pairwise fun earlier later => later.key ∉ earlier.key :: earlier.reads

/-- The checks pass. -/
def Pass (checks : List (Check κ ν ε)) (env : κ → ν) : Prop :=
  ∀ check ∈ checks, check.fault env = none

variable {checks before after : List (Check κ ν ε)} {check : Check κ ν ε} {env : κ → ν}

theorem firstFault_eq_none : firstFault checks env = none ↔ Pass checks env := by
  simp [firstFault, Pass, List.findSome?_eq_none_iff]

theorem firstFault_append (hpass : Pass before env) :
    firstFault (before ++ after) env = firstFault after env := by
  rw [firstFault, List.findSome?_append, ← firstFault, firstFault_eq_none.mpr hpass]
  rfl

theorem firstFault_cons_of_fault {err : ε} (hfault : check.fault env = some err) :
    firstFault (check :: after) env = some (check.key, err) := by
  rw [firstFault, List.findSome?_cons, hfault]
  rfl

theorem firstFault_cons_of_pass (hpass : check.fault env = none) :
    firstFault (check :: after) env = firstFault after env := by
  rw [firstFault, List.findSome?_cons, hpass]
  rfl

/-- Where a check fails, those before it pass. -/
theorem exists_split_of_fault {key : κ} {err : ε} (hfault : firstFault checks env = some (key, err)) :
    ∃ before check after, checks = before ++ check :: after ∧ Pass before env ∧
      check.fault env = some err ∧ check.key = key := by
  induction checks with
  | nil => cases hfault
  | cons first rest ih =>
      cases hfirst : first.fault env with
      | some found =>
          rw [firstFault_cons_of_fault hfirst] at hfault
          cases hfault
          exact ⟨[], first, rest, rfl, fun _ h => absurd h List.not_mem_nil, hfirst, rfl⟩
      | none =>
          rw [firstFault_cons_of_pass hfirst] at hfault
          obtain ⟨before, check, after, rfl, hpass, hcheck, hkey⟩ := ih hfault
          exact ⟨first :: before, check, after, rfl, List.forall_mem_cons.mpr ⟨hfirst, hpass⟩, hcheck,
            hkey⟩

variable [DecidableEq κ]

/-- A key of a later check does not matter to the earlier ones. -/
theorem Pass.update (hordered : Ordered (before ++ check :: after)) (hpass : Pass before env)
    (v : ν) : Pass before (Function.update env check.key v) := by
  intro earlier hmem
  have hkey : check.key ∉ earlier.key :: earlier.reads :=
    (List.pairwise_append.mp hordered).2.2 earlier hmem check List.mem_cons_self
  rw [← hpass earlier hmem]
  refine earlier.reads_only _ _ fun k hk => Function.update_of_ne ?_ ..
  rintro rfl
  exact hkey hk

/-! ## Repairs -/

/-- Repairs: a step sets the key that is reported. -/
def repairs (checks : List (Check κ ν ε)) : System (κ → ν) ν where
  init _ := True
  next env v := (firstFault checks env).map fun (key, _) => Function.update env key v

/-- The keys that are reported, and set, in the course of repairs. -/
def reported (checks : List (Check κ ν ε)) : (κ → ν) → List ν → List κ
  | _, [] => []
  | env, v :: rest =>
      match firstFault checks env with
      | none => []
      | some (key, _) => key :: reported checks (Function.update env key v) rest

theorem reported_head {values : List ν} {key : κ}
    (hhead : (reported checks env values).head? = some key) :
    ∃ err, firstFault checks env = some (key, err) := by
  cases values with
  | nil => cases hhead
  | cons v rest =>
      rw [reported] at hhead
      split at hhead
      · cases hhead
      · next found err hfault =>
          cases hhead
          exact ⟨err, hfault⟩

theorem reported_sublist_of_pass (before after : List (Check κ ν ε))
    (hordered : Ordered (before ++ after)) (hpass : Pass before env) {values : List ν}
    (hprogress : (reported (before ++ after) env values).IsChain (· ≠ ·)) :
    (reported (before ++ after) env values).Sublist (after.map Check.key) := by
  induction values generalizing env before after with
  | nil => exact List.nil_sublist _
  | cons v rest ih =>
      cases hfault : firstFault (before ++ after) env with
      | none =>
          rw [reported, hfault]
          exact List.nil_sublist _
      | some found =>
          obtain ⟨key, err⟩ := found
          simp only [reported, hfault] at hprogress ⊢
          rw [firstFault_append hpass] at hfault
          obtain ⟨middle, check, later, rfl, hmiddle, hcheck, rfl⟩ := exists_split_of_fault hfault
          rw [List.map_append, List.map_cons]
          refine (List.Sublist.cons_cons _ ?_).trans (List.sublist_append_right _ _)
          have hsplit : before ++ (middle ++ check :: later) =
              (before ++ middle ++ [check]) ++ later := by simp
          have hfirst : Pass (before ++ middle) (Function.update env check.key v) := by
            have hsame : Ordered ((before ++ middle) ++ check :: later) := by
              rwa [List.append_assoc]
            exact Pass.update hsame (List.forall_mem_append.mpr ⟨hpass, hmiddle⟩) v
          -- If anything is still to be reported, it is not the key that has just been set.
          cases hrest : reported (before ++ (middle ++ check :: later))
            (Function.update env check.key v) rest with
          | nil => exact List.nil_sublist _
          | cons next others =>
              rw [hrest, List.isChain_cons_cons] at hprogress
              obtain ⟨err', hnext⟩ := reported_head (by rw [hrest]; rfl)
              have hmet : check.fault (Function.update env check.key v) = none := by
                by_contra hne
                obtain ⟨again, hagain⟩ := Option.ne_none_iff_exists'.mp hne
                rw [← List.append_assoc, firstFault_append hfirst,
                  firstFault_cons_of_fault hagain] at hnext
                exact hprogress.1 (congrArg Prod.fst (Option.some.inj hnext))
              rw [← hrest, hsplit]
              refine ih _ _ (by rwa [← hsplit]) ?_ ?_
              · exact List.forall_mem_append.mpr ⟨hfirst, List.forall_mem_singleton.mpr hmet⟩
              · rw [← hsplit, hrest]
                exact hprogress.2

/-- Where no repair leaves its complaint standing, the keys are reported in the order of the
checks, and each at most once. -/
theorem reported_sublist (hordered : Ordered checks) (env : κ → ν) (values : List ν)
    (hprogress : (reported checks env values).IsChain (· ≠ ·)) :
    (reported checks env values).Sublist (checks.map Check.key) :=
  reported_sublist_of_pass [] checks hordered (fun _ h => absurd h List.not_mem_nil) hprogress

theorem exists_repairs_of_pass (before after : List (Check κ ν ε)) {good : (κ → ν) → Prop}
    (hordered : Ordered (before ++ after))
    (hmeet : ∀ check ∈ before ++ after, ∀ env, good env →
      ∃ v, check.fault (Function.update env check.key v) = none ∧
        good (Function.update env check.key v))
    (hgood : good env) (hpass : Pass before env) :
    ∃ values env', values.length ≤ after.length ∧
      (repairs (before ++ after)).run env values = some env' ∧ Pass (before ++ after) env' := by
  induction after generalizing env before with
  | nil => exact ⟨[], env, le_rfl, rfl, by rwa [List.append_nil]⟩
  | cons check later ih =>
      have hsplit : before ++ check :: later = (before ++ [check]) ++ later := by simp
      cases hcheck : check.fault env with
      | none =>
          obtain ⟨values, env', hlength, hrun, hend⟩ := ih (before ++ [check])
            (by rwa [← hsplit]) (by rwa [← hsplit]) hgood
            (List.forall_mem_append.mpr ⟨hpass, List.forall_mem_singleton.mpr hcheck⟩)
          rw [← hsplit] at hrun hend
          exact ⟨values, env', Nat.le_succ_of_le hlength, hrun, hend⟩
      | some err =>
          obtain ⟨v, hmet, hgood'⟩ := hmeet check (by simp) env hgood
          obtain ⟨values, env', hlength, hrun, hend⟩ := ih (before ++ [check])
            (by rwa [← hsplit]) (by rwa [← hsplit]) hgood'
            (List.forall_mem_append.mpr
              ⟨hpass.update hordered v, List.forall_mem_singleton.mpr hmet⟩)
          rw [← hsplit] at hrun hend
          refine ⟨v :: values, env', Nat.succ_le_succ hlength, ?_, hend⟩
          have hfault : firstFault (before ++ check :: later) env = some (check.key, err) := by
            rw [firstFault_append hpass, firstFault_cons_of_fault hcheck]
          rw [System.run_cons]
          show ((firstFault (before ++ check :: later) env).map _).bind _ = _
          rw [hfault]
          exact hrun

/-- Where each check can be met by its own key, as many repairs as there are checks are
enough. -/
theorem exists_repairs {good : (κ → ν) → Prop} (hordered : Ordered checks)
    (hmeet : ∀ check ∈ checks, ∀ env, good env →
      ∃ v, check.fault (Function.update env check.key v) = none ∧
        good (Function.update env check.key v))
    (hgood : good env) :
    ∃ values env', values.length ≤ checks.length ∧
      (repairs checks).run env values = some env' ∧ Pass checks env' :=
  exists_repairs_of_pass [] checks hordered hmeet hgood
    fun _ h => absurd h List.not_mem_nil

end Check

end GoFoundation.Library
