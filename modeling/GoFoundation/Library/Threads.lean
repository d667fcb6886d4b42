/-
# Threads that share a state

A program executes statements one after the other.  A statement is atomic: it rewrites
the shared state, and what the program does next depends on the state that it met.  Any
number of programs run at the same time, and between two statements of one the others
may execute any number of theirs.

What a program achieves in such company is stated with two relations.  It may rely on
the others to change the state only as `rely` says, and it guarantees to change it only
as `guarantee` says.  Programs of which each guarantees what the others rely on can run
together, however they interleave.

Nothing here depends on what the states are.
-/

import Mathlib.Logic.Function.Basic
import GoFoundation.Library.Transition

namespace GoFoundation.Library

universe u v w x

/-- A program is done, or it executes one statement and goes on. -/
inductive Program (σ : Type u) (α : Type v)
  | done (result : α)
  | stmt (write : σ → σ) (next : σ → Program σ α)

namespace Program

variable {σ : Type u} {α : Type v} {β : Type w}

/-- One statement with its result. -/
def atomically (act : σ → σ × α) : Program σ α :=
  .stmt (fun s => (act s).1) fun s => .done (act s).2

/-- A statement that only reads. -/
def select (read : σ → α) : Program σ α := atomically fun s => (s, read s)

/-- Go on with the result of a program. -/
def bind : Program σ α → (α → Program σ β) → Program σ β
  | done result, next => next result
  | stmt write rest, next => .stmt write fun s => (rest s).bind next

/-- The state and the result when nobody interferes. -/
def run : Program σ α → σ → σ × α
  | done result, s => (s, result)
  | stmt write next, s => (next s).run (write s)

@[simp]
theorem run_select (read : σ → α) (s : σ) : (select read).run s = (s, read s) := rfl

@[simp]
theorem run_bind (program : Program σ α) (next : α → Program σ β) (s : σ) :
    (program.bind next).run s = (next (program.run s).2).run (program.run s).1 := by
  induction program generalizing s with
  | done result => rfl
  | stmt write rest ih => exact ih s (write s)

/-! ## Rely and guarantee -/

/-- From the state on, while the others change it as `rely` says, every statement
changes it as `guarantee` says, and the result satisfies `post` from then on. -/
def Meets (rely guarantee : σ → σ → Prop) (post : α → σ → Prop) : Program σ α → σ → Prop
  | done result, s => ∀ t, rely s t → post result t
  | stmt write next, s => ∀ t, rely s t →
      guarantee t (write t) ∧ Meets rely guarantee post (next t) (write t)

section Rules

variable {rely guarantee : σ → σ → Prop} {post : α → σ → Prop} {program : Program σ α} {s t : σ}

/-- Others may move before the program does. -/
theorem Meets.interfere (htrans : ∀ {a b c}, rely a b → rely b c → rely a c)
    (h : program.Meets rely guarantee post s) (hrely : rely s t) :
    program.Meets rely guarantee post t := by
  cases program with
  | done result => exact fun later hlater => h later (htrans hrely hlater)
  | stmt write next => exact fun later hlater => h later (htrans hrely hlater)

theorem Meets.imp {post' : α → σ → Prop} (hpost : ∀ result s, post result s → post' result s)
    (h : program.Meets rely guarantee post s) : program.Meets rely guarantee post' s := by
  induction program generalizing s with
  | done result => exact fun t hrely => hpost result t (h t hrely)
  | stmt write next ih => exact fun t hrely => ⟨(h t hrely).1, ih t (h t hrely).2⟩

/-- A program that is done has its postcondition. -/
theorem Meets.of_done (hrefl : ∀ a, rely a a) {result : α}
    (h : (done result : Program σ α).Meets rely guarantee post s) : post result s :=
  h s (hrefl s)

/-- One statement: what it does in any state that the others may have made of this one. -/
theorem meets_atomically {act : σ → σ × α}
    (h : ∀ t, rely s t → guarantee t (act t).1 ∧ ∀ u, rely (act t).1 u → post (act t).2 u) :
    (atomically act).Meets rely guarantee post s :=
  fun t hrely => h t hrely

/-- Sequencing: the first part establishes what the second one needs. -/
theorem meets_bind {next : α → Program σ β} {post' : β → σ → Prop}
    (hrefl : ∀ a, rely a a)
    (h : program.Meets rely guarantee
      (fun result s => (next result).Meets rely guarantee post' s) s) :
    (program.bind next).Meets rely guarantee post' s := by
  induction program generalizing s with
  | done result => exact h.of_done hrefl
  | stmt write rest ih => exact fun t hrely => ⟨(h t hrely).1, ih t (h t hrely).2⟩

/-- Read, and go on: by the time the next statement comes the others may have moved. -/
theorem meets_select_bind {read : σ → α} {next : α → Program σ β} {post' : β → σ → Prop}
    (hguarantee : ∀ a, guarantee a a)
    (h : ∀ t, rely s t → (next (read t)).Meets rely guarantee post' t) :
    ((select read).bind next).Meets rely guarantee post' s := by
  intro t hrely
  refine ⟨hguarantee t, ?_⟩
  show (next (read t)).Meets rely guarantee post' t
  exact h t hrely

end Rules

end Program

/-! ## Any number of threads -/

/-- The shared state, and what each thread that was started still has to do. -/
structure Pool (σ : Type u) (κ : Type v) (α : Type w) where
  shared : σ
  threads : Nat → Option (κ × Program σ α)

/-- A thread is started with a task, or executes its next statement, or the environment
acts. -/
inductive Action (κ : Type v) (ε : Type x)
  | start (i : Nat) (task : κ)
  | exec (i : Nat)
  | other (event : ε)

variable {σ : Type u} {κ : Type v} {α : Type w} {ε : Type x}

/-- Replace what a thread has to do. -/
def Pool.set (pool : Pool σ κ α) (i : Nat) (shared : σ) (task : κ) (rest : Program σ α) :
    Pool σ κ α where
  shared := shared
  threads := Function.update pool.threads i (some (task, rest))

/-- The task of a thread that was started. -/
def Pool.task (pool : Pool σ κ α) (i : Nat) : Option κ := (pool.threads i).map Prod.fst

@[simp]
theorem Pool.task_set (pool : Pool σ κ α) (i : Nat) (shared : σ) (task : κ) (rest : Program σ α) :
    (pool.set i shared task rest).task i = some task := by
  simp [Pool.task, Pool.set]

theorem Pool.task_set_of_ne {pool : Pool σ κ α} {i j : Nat} {shared : σ} {task : κ}
    {rest : Program σ α} (hj : j ≠ i) : (pool.set i shared task rest).task j = pool.task j := by
  simp [Pool.task, Pool.set, hj]

/-- The system of all threads.  A thread may depend on its own number. -/
def threads (init : σ → Prop) (program : Nat → κ → Program σ α) (env : σ → ε → Option σ) :
    System (Pool σ κ α) (Action κ ε) where
  init pool := init pool.shared ∧ ∀ i, pool.threads i = none
  next pool
    | .start i task =>
        match pool.threads i with
        | none => some (pool.set i pool.shared task (program i task))
        | some _ => none
    | .exec i =>
        match pool.threads i with
        | some (task, .stmt write next) =>
            some (pool.set i (write pool.shared) task (next pool.shared))
        | _ => none
    | .other event => (env pool.shared event).map fun shared => { pool with shared := shared }

/-- What makes threads fit together. -/
structure Compatible (init : σ → Prop) (program : Nat → κ → Program σ α)
    (env : σ → ε → Option σ) (rely : Nat → σ → σ → Prop) (guarantee : Nat → κ → σ → σ → Prop)
    (fresh : Nat → σ → Prop) (post : Nat → κ → α → σ → Prop) : Prop where
  refl : ∀ i s, rely i s s
  trans : ∀ {i s t u}, rely i s t → rely i t u → rely i s u
  others : ∀ {i j task s t}, i ≠ j → guarantee i task s t → rely j s t
  env : ∀ {j s event t}, env s event = some t → rely j s t
  /-- What the state says of a thread that was not started. -/
  init_fresh : ∀ i s, init s → fresh i s
  rely_fresh : ∀ {i s t}, rely i s t → fresh i s → fresh i t
  meets : ∀ i task s, fresh i s →
    (program i task).Meets (rely i) (guarantee i task) (post i task) s

namespace Compatible

variable {init : σ → Prop} {program : Nat → κ → Program σ α} {env : σ → ε → Option σ}
  {rely : Nat → σ → σ → Prop} {guarantee : Nat → κ → σ → σ → Prop} {fresh : Nat → σ → Prop}
  {post : Nat → κ → α → σ → Prop}

/-- What is known of a thread at any time. -/
def Holds (rely : Nat → σ → σ → Prop) (guarantee : Nat → κ → σ → σ → Prop)
    (fresh : Nat → σ → Prop) (post : Nat → κ → α → σ → Prop) (i : Nat) (s : σ) :
    Option (κ × Program σ α) → Prop
  | none => fresh i s
  | some (task, rest) => rest.Meets (rely i) (guarantee i task) (post i task) s

/-- A step is a step of one thread, which stays with its task, or one on which every thread
relies. -/
inductive Step (rely : Nat → σ → σ → Prop) (guarantee : Nat → κ → σ → σ → Prop)
    (pool pool' : Pool σ κ α) : Prop
  | moved (i : Nat) (task : κ) (htask : pool.task i = some task)
      (hmove : guarantee i task pool.shared pool'.shared)
  | relied (hrely : ∀ i, rely i pool.shared pool'.shared)

/-- Each step is one that the other threads rely on, and no thread changes its task. -/
theorem step_rely (h : Compatible init program env rely guarantee fresh post)
    {pool pool' : Pool σ κ α} {action : Action κ ε}
    (hholds : ∀ i, Holds rely guarantee fresh post i pool.shared (pool.threads i))
    (hnext : (threads init program env).next pool action = some pool') :
    (∀ i, Holds rely guarantee fresh post i pool'.shared (pool'.threads i)) ∧
      Step rely guarantee pool pool' ∧
        ∀ i task, pool.task i = some task → pool'.task i = some task := by
  -- A thread that does not move keeps what is known of it.
  have hkeep : ∀ i s', rely i pool.shared s' →
      Holds rely guarantee fresh post i s' (pool.threads i) := by
    intro i s' hrely
    have hi := hholds i
    cases hthread : pool.threads i with
    | none =>
        rw [hthread] at hi
        exact h.rely_fresh hrely hi
    | some thread =>
        rw [hthread] at hi
        exact Program.Meets.interfere h.trans hi hrely
  cases action with
  | start i task =>
      simp only [threads] at hnext
      split at hnext
      · next hidle =>
          cases hnext
          refine ⟨?_, .relied fun j => h.refl j _, ?_⟩
          · intro j
            by_cases hj : j = i
            · subst hj
              have hfresh := hholds j
              rw [hidle] at hfresh
              simp only [Pool.set, Function.update_self]
              exact h.meets j task pool.shared hfresh
            · simp only [Pool.set, Function.update_of_ne hj]
              exact hholds j
          · intro j other hother
            have hj : j ≠ i := by
              rintro rfl
              rw [Pool.task, hidle] at hother
              cases hother
            rw [Pool.task_set_of_ne hj]
            exact hother
      · cases hnext
  | exec i =>
      simp only [threads] at hnext
      split at hnext
      · next task write next hthread =>
          cases hnext
          have hi := hholds i
          rw [hthread] at hi
          obtain ⟨hguarantee, hrest⟩ := hi pool.shared (h.refl i _)
          have htask : pool.task i = some task := by
            rw [Pool.task, hthread]
            rfl
          refine ⟨?_, .moved i task htask hguarantee, ?_⟩
          · intro j
            by_cases hj : j = i
            · subst hj
              simp only [Pool.set, Function.update_self]
              exact hrest
            · simp only [Pool.set, Function.update_of_ne hj]
              exact hkeep j _ (h.others (Ne.symm hj) hguarantee)
          · intro j other hother
            by_cases hj : j = i
            · subst hj
              rw [htask] at hother
              rw [Pool.task_set]
              exact hother
            · rw [Pool.task_set_of_ne hj]
              exact hother
      · cases hnext
  | other event =>
      obtain ⟨s', henv, rfl⟩ := Option.map_eq_some_iff.mp hnext
      exact ⟨fun i => hkeep i s' (h.env henv), .relied fun i => h.env henv,
        fun i task htask => htask⟩

/-- Every thread meets its specification, however the threads interleave. -/
theorem holds_of_reachable (h : Compatible init program env rely guarantee fresh post)
    {pool : Pool σ κ α} (hreach : (threads init program env).Reachable pool) :
    ∀ i, Holds rely guarantee fresh post i pool.shared (pool.threads i) := by
  refine hreach.invariant ?_ fun s a t _ ih hnext => (h.step_rely ih hnext).1
  intro pool hinit i
  rw [hinit.2 i]
  exact h.init_fresh i _ hinit.1

/-- What a thread returned satisfies its postcondition, then and at any later time. -/
theorem post_of_done (h : Compatible init program env rely guarantee fresh post)
    {pool : Pool σ κ α} (hreach : (threads init program env).Reachable pool) {i : Nat} {task : κ}
    {result : α} (hdone : pool.threads i = some (task, .done result)) :
    post i task result pool.shared := by
  have hi := h.holds_of_reachable hreach i
  rw [hdone] at hi
  exact hi pool.shared (h.refl i _)

/-- A property of the shared state and of who runs which task, which every step of a
thread and of the environment keeps. -/
theorem invariant (h : Compatible init program env rely guarantee fresh post)
    {I : (Nat → Option κ) → σ → Prop}
    (hinit : ∀ s, init s → I (fun _ => none) s)
    (htasks : ∀ {tasks tasks' s}, (∀ i task, tasks i = some task → tasks' i = some task) →
      I tasks s → I tasks' s)
    (hguarantee : ∀ {tasks i task s t}, tasks i = some task → guarantee i task s t → I tasks s →
      I tasks t)
    (hrely : ∀ {tasks s t}, (∀ i, rely i s t) → I tasks s → I tasks t) {pool : Pool σ κ α}
    (hreach : (threads init program env).Reachable pool) : I pool.task pool.shared := by
  refine hreach.invariant (I := fun pool => I pool.task pool.shared) ?_ ?_
  · intro pool hpool
    have hnone : pool.task = fun _ => none := by
      funext i
      rw [Pool.task, hpool.2 i]
      rfl
    rw [hnone]
    exact hinit _ hpool.1
  intro pool action pool' hprior hI hnext
  obtain ⟨-, hstep, htask⟩ := h.step_rely (h.holds_of_reachable hprior) hnext
  apply htasks htask
  cases hstep with
  | moved i task htask hmove => exact hguarantee htask hmove hI
  | relied hmove => exact hrely hmove hI

end Compatible

end GoFoundation.Library
