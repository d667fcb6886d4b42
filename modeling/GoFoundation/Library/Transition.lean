/-
# Labelled transition systems

A system is a set of initial states and a partial step function: a label carries
every choice the environment makes, so a step is a computation and a whole run
can be evaluated.  Reachability is stated relative to a discipline on steps.  A
result about every run takes the trivial discipline; a result about the runs
that avoid some step takes the discipline that excludes it.

Nothing here depends on what the states are.
-/

import Mathlib.Data.List.Basic

namespace GoFoundation.Library

universe u v w x

/-- Initial states together with a step that either happens or is refused. -/
structure System (σ : Type u) (α : Type v) where
  /-- The states a run may start from. -/
  init : σ → Prop
  /-- The state after a step, or `none` where the step is not enabled. -/
  next : σ → α → Option σ

namespace System

variable {σ : Type u} {α : Type v} (S : System σ α)

/-- Perform a list of steps in order; `none` as soon as one of them is refused. -/
def run : σ → List α → Option σ
  | s, [] => some s
  | s, a :: rest => (S.next s a).bind fun t => run t rest

@[simp]
theorem run_nil (s : σ) : S.run s [] = some s := rfl

@[simp]
theorem run_cons (s : σ) (a : α) (rest : List α) :
    S.run s (a :: rest) = (S.next s a).bind fun t => S.run t rest := rfl

theorem run_append (s : σ) (first second : List α) :
    S.run s (first ++ second) = (S.run s first).bind fun t => S.run t second := by
  induction first generalizing s with
  | nil => rfl
  | cons a rest ih =>
      rw [List.cons_append, run_cons, run_cons, Option.bind_assoc]
      congr 1
      funext t
      exact ih t

/-- The states reached by runs whose every step satisfies `ok`, read at the
state before the step. -/
inductive ReachableBy (ok : σ → α → Prop) : σ → Prop
  | /-- A run starts at an initial state. -/
    init {s : σ} (hinit : S.init s) : ReachableBy ok s
  | /-- One more permitted step. -/
    step {s t : σ} {a : α} (hreach : ReachableBy ok s) (hok : ok s a)
      (hnext : S.next s a = some t) : ReachableBy ok t

/-- The states reached by any run at all. -/
def Reachable : σ → Prop := S.ReachableBy fun _ _ => True

variable {S} {ok : σ → α → Prop}

/-- A weaker discipline reaches at least as much. -/
theorem ReachableBy.mono {ok' : σ → α → Prop} (hle : ∀ s a, ok s a → ok' s a)
    {s : σ} (hreach : S.ReachableBy ok s) : S.ReachableBy ok' s := by
  induction hreach with
  | init hinit => exact .init hinit
  | step _ hok hnext ih => exact .step ih (hle _ _ hok) hnext

/-- Whatever a disciplined run reaches is reachable. -/
theorem ReachableBy.reachable {s : σ} (hreach : S.ReachableBy ok s) : S.Reachable s :=
  hreach.mono fun _ _ _ => trivial

theorem Reachable.init {s : σ} (hinit : S.init s) : S.Reachable s :=
  ReachableBy.init hinit

theorem Reachable.step {s t : σ} {a : α} (hreach : S.Reachable s)
    (hnext : S.next s a = some t) : S.Reachable t :=
  ReachableBy.step hreach trivial hnext

/-- The invariant rule.  The step obligation may use that the state before the
step was itself reached under the discipline, so invariants can be proved one
after the other. -/
theorem ReachableBy.invariant {I : σ → Prop} (hinit : ∀ s, S.init s → I s)
    (hstep : ∀ s a t, S.ReachableBy ok s → I s → ok s a → S.next s a = some t → I t)
    {s : σ} (hreach : S.ReachableBy ok s) : I s := by
  induction hreach with
  | init h => exact hinit _ h
  | step hprior hok hnext ih => exact hstep _ _ _ hprior ih hok hnext

/-- The invariant rule for unrestricted runs. -/
theorem Reachable.invariant {I : σ → Prop} (hinit : ∀ s, S.init s → I s)
    (hstep : ∀ s a t, S.Reachable s → I s → S.next s a = some t → I t)
    {s : σ} (hreach : S.Reachable s) : I s :=
  ReachableBy.invariant hinit (fun s a t hr hi _ hn => hstep s a t hr hi hn) hreach

/-- A run of enabled and permitted steps stays inside the states reached. -/
theorem ReachableBy.run {s t : σ} {labels : List α} (hreach : S.ReachableBy ok s)
    (hok : ∀ a ∈ labels, ∀ s, ok s a) (hrun : S.run s labels = some t) :
    S.ReachableBy ok t := by
  induction labels generalizing s with
  | nil =>
      rw [run_nil, Option.some.injEq] at hrun
      exact hrun ▸ hreach
  | cons a rest ih =>
      rw [run_cons, Option.bind_eq_some_iff] at hrun
      obtain ⟨mid, hmid, hrest⟩ := hrun
      exact ih (hreach.step (hok a List.mem_cons_self s) hmid)
        (fun b hb => hok b (List.mem_cons_of_mem _ hb)) hrest

theorem Reachable.run {s t : σ} {labels : List α} (hreach : S.Reachable s)
    (hrun : S.run s labels = some t) : S.Reachable t :=
  ReachableBy.run hreach (fun _ _ _ => trivial) hrun

/-- A run that can be evaluated reaches a state with what a test reads off its end. -/
theorem Reachable.of_run_any {test : σ → Bool} {s : σ} (labels : List α) (hinit : S.init s)
    (htest : (S.run s labels).any test = true) : ∃ t, S.Reachable t ∧ test t = true := by
  cases hrun : S.run s labels with
  | none =>
      rw [hrun] at htest
      cases htest
  | some t =>
      rw [hrun] at htest
      exact ⟨t, (Reachable.init hinit).run hrun, htest⟩

/-- The system with the steps that a test refuses left out. -/
def restrict (S : System σ α) (guard : σ → α → Bool) : System σ α where
  init := S.init
  next s a := if guard s a then S.next s a else none

/-- A run of the restricted system is disciplined, if passing the test means
being permitted in the states that the restricted system reaches. -/
theorem ReachableBy.run_restrict {guard : σ → α → Bool}
    (hguard : ∀ s a, (S.restrict guard).Reachable s → guard s a = true → ok s a)
    {s t : σ} {labels : List α} (hinit : S.init s)
    (hrun : (S.restrict guard).run s labels = some t) : S.ReachableBy ok t := by
  have hboth : ∀ s, (S.restrict guard).Reachable s → S.ReachableBy ok s →
      (S.restrict guard).run s labels = some t → S.ReachableBy ok t := by
    clear hrun
    induction labels with
    | nil =>
        intro s _ hreach hrun
        rw [run_nil, Option.some.injEq] at hrun
        exact hrun ▸ hreach
    | cons a rest ih =>
        intro s hprior hreach hrun
        rw [run_cons, Option.bind_eq_some_iff] at hrun
        obtain ⟨mid, hmid, hrest⟩ := hrun
        obtain ⟨htest, hnext⟩ := Option.ite_none_right_eq_some.mp hmid
        exact ih mid (hprior.step hmid) (hreach.step (hguard s a hprior htest) hnext) hrest
  exact hboth s (.init hinit) (.init hinit) hrun

variable (S) in
/-- Some run leads from the one state to the other. -/
def Leads (s t : σ) : Prop := ∃ labels, S.run s labels = some t

theorem Leads.refl (s : σ) : S.Leads s s := ⟨[], rfl⟩

theorem Leads.head {s t u : σ} {a : α} (hnext : S.next s a = some t) (hleads : S.Leads t u) :
    S.Leads s u := by
  obtain ⟨labels, hrun⟩ := hleads
  exact ⟨a :: labels, by rw [run_cons, hnext, Option.bind_some, hrun]⟩

theorem Leads.trans {s t u : σ} (hfirst : S.Leads s t) (hsecond : S.Leads t u) :
    S.Leads s u := by
  obtain ⟨first, hrun⟩ := hfirst
  obtain ⟨second, hrun'⟩ := hsecond
  exact ⟨first ++ second, by rw [run_append, hrun, Option.bind_some, hrun']⟩

/-- What holds in the end, and not in the beginning, came about in some step. -/
theorem Reachable.exists_step {Q : σ → Prop} (hinit : ∀ s, S.init s → ¬ Q s) {u : σ}
    (hreach : S.Reachable u) (hholds : Q u) :
    ∃ s a t, S.Reachable s ∧ ¬ Q s ∧ S.next s a = some t ∧ Q t ∧ S.Leads t u := by
  induction hreach with
  | init h => exact absurd hholds (hinit _ h)
  | @step s u a hprior _ hnext ih =>
      by_cases hbefore : Q s
      · obtain ⟨s', a', t, hs', hnot, hstep, ht, hleads⟩ := ih hbefore
        exact ⟨s', a', t, hs', hnot, hstep, ht, hleads.trans (.head hnext (.refl u))⟩
      · exact ⟨s, a, u, hprior, hbefore, hnext, hholds, .refl u⟩

/-- A property that every step keeps is kept by every run. -/
theorem run_preserves {P : σ → Prop}
    (hstep : ∀ s a t, P s → S.next s a = some t → P t)
    {s t : σ} {labels : List α} (hrun : S.run s labels = some t) (hs : P s) : P t := by
  induction labels generalizing s with
  | nil =>
      rw [run_nil, Option.some.injEq] at hrun
      exact hrun ▸ hs
  | cons a rest ih =>
      rw [run_cons, Option.bind_eq_some_iff] at hrun
      obtain ⟨mid, hmid, hrest⟩ := hrun
      exact ih hrest (hstep _ _ _ hs hmid)

/-- Forward simulation.  If every disciplined step of `S` is matched by a run of
the abstract system that restores the relation, every state `S` reaches is
related to a reachable abstract state. -/
theorem ReachableBy.simulation {τ : Type w} {β : Type x} {A : System τ β}
    (R : σ → τ → Prop) (hinit : ∀ s, S.init s → ∃ t, A.init t ∧ R s t)
    (hstep : ∀ s t a s', S.ReachableBy ok s → A.Reachable t → R s t → ok s a →
      S.next s a = some s' → ∃ labels t', A.run t labels = some t' ∧ R s' t')
    {s : σ} (hreach : S.ReachableBy ok s) : ∃ t, A.Reachable t ∧ R s t := by
  induction hreach with
  | init h =>
      obtain ⟨t, hA, hR⟩ := hinit _ h
      exact ⟨t, .init hA, hR⟩
  | step hprior hok hnext ih =>
      obtain ⟨t, hA, hR⟩ := ih
      obtain ⟨labels, t', hrun, hR'⟩ := hstep _ _ _ _ hprior hA hR hok hnext
      exact ⟨t', hA.run hrun, hR'⟩

end System

end GoFoundation.Library
