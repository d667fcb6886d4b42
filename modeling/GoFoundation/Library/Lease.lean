/-
# Expiring leases

An abstract account of what a reservation table is for.  A scope is free or is
held under one lease; a lease has a lock window and an expiry, can be settled
once by its holder, and can be released by its holder until then.  A scope may
be granted again when it is free, when its lease has expired, or when its lease
was never settled and the lock window is over.

The state keeps its history, newest event first.  The main results say when a
later grant may follow an earlier one, that at most one holder is unsettled
inside its lock window, and that a settled lease is final until it expires.  The
grants, scopes and instants are arbitrary.
-/

import Mathlib.Order.Lattice
import GoFoundation.Library.Transition

namespace GoFoundation.Library.Leasing

universe u v w

/-- What the lease system reads off a grant: the scope it reserves, the end of
its lock window and its expiry. -/
structure Terms (γ : Type u) (κ : Type v) (τ : Type w) where
  /-- The scope a grant reserves. -/
  scope : γ → κ
  /-- The end of the lock window. -/
  lockedUntil : γ → τ
  /-- The instant from which the lease may be discarded. -/
  expiresAt : γ → τ

/-- What happened to a lease, a grant with its instant. -/
inductive Event (γ : Type u) (τ : Type w)
  | granted (grant : γ) (time : τ)
  | settled (grant : γ)
  | released (grant : γ)

/-- A lease in force. -/
structure Lease (γ : Type u) where
  /-- The grant that opened it. -/
  grant : γ
  /-- Whether its holder has settled it. -/
  settled : Bool

/-- The clock, the leases in force and the history. -/
structure State (γ : Type u) (κ : Type v) (τ : Type w) where
  clock : τ
  held : κ → Option (Lease γ)
  log : List (Event γ τ)

/-- The steps of the abstract system. -/
inductive Label (γ : Type u) (κ : Type v) (τ : Type w)
  | tick (time : τ)
  | grant (grant : γ)
  | settle (scope : κ)
  | release (scope : κ)
  | expire (scope : κ)

section System

variable {γ : Type u} {κ : Type v} {τ : Type w} [DecidableEq κ]
variable (T : Terms γ κ τ)

/-! ## Histories -/

/-- The most recent grant of a scope. -/
def lastGrant (scope : κ) : List (Event γ τ) → Option γ
  | [] => none
  | .granted grant _ :: rest =>
      if T.scope grant = scope then some grant else lastGrant scope rest
  | .settled _ :: rest => lastGrant scope rest
  | .released _ :: rest => lastGrant scope rest

@[simp]
theorem lastGrant_granted_self (grant : γ) (time : τ) (rest : List (Event γ τ)) :
    lastGrant T (T.scope grant) (.granted grant time :: rest) = some grant := by
  simp [lastGrant]

theorem lastGrant_granted_of_ne {scope : κ} {grant : γ} (hne : T.scope grant ≠ scope)
    (time : τ) (rest : List (Event γ τ)) :
    lastGrant T scope (.granted grant time :: rest) = lastGrant T scope rest := by
  simp [lastGrant, hne]

@[simp]
theorem lastGrant_settled (scope : κ) (grant : γ) (rest : List (Event γ τ)) :
    lastGrant T scope (.settled grant :: rest) = lastGrant T scope rest := rfl

@[simp]
theorem lastGrant_released (scope : κ) (grant : γ) (rest : List (Event γ τ)) :
    lastGrant T scope (.released grant :: rest) = lastGrant T scope rest := rfl

/-- The last grant of a scope is a grant of that scope, recorded in the log. -/
theorem lastGrant_some {scope : κ} {grant : γ} {log : List (Event γ τ)}
    (hlast : lastGrant T scope log = some grant) :
    T.scope grant = scope ∧ ∃ time, .granted grant time ∈ log := by
  induction log with
  | nil => cases hlast
  | cons event rest ih =>
      cases event with
      | granted other time =>
          by_cases hscope : T.scope other = scope
          · simp only [lastGrant, hscope, if_true, Option.some.injEq] at hlast
            exact hlast ▸ ⟨hscope, time, List.mem_cons_self⟩
          · rw [lastGrant_granted_of_ne T hscope] at hlast
            obtain ⟨hs, at', hmem⟩ := ih hlast
            exact ⟨hs, at', List.mem_cons_of_mem _ hmem⟩
      | settled other | released other =>
          obtain ⟨hs, at', hmem⟩ := ih hlast
          exact ⟨hs, at', List.mem_cons_of_mem _ hmem⟩

/-- Two scopes have different last grants. -/
theorem lastGrant_ne {scope other : κ} {grant grant' : γ} {log : List (Event γ τ)}
    (hlast : lastGrant T scope log = some grant) (hlast' : lastGrant T other log = some grant')
    (hne : scope ≠ other) : grant ≠ grant' := by
  rintro rfl
  exact hne ((lastGrant_some T hlast).1.symm.trans (lastGrant_some T hlast').1)

/-- Skipping over events that grant nothing on the scope finds the same grant. -/
theorem lastGrant_append_of_forall_ne {scope : κ} {mid rest : List (Event γ τ)}
    (hmid : ∀ grant time, .granted grant time ∈ mid → T.scope grant ≠ scope) :
    lastGrant T scope (mid ++ rest) = lastGrant T scope rest := by
  induction mid with
  | nil => rfl
  | cons event mid ih =>
      have htail := ih fun grant time hmem => hmid grant time (List.mem_cons_of_mem _ hmem)
      cases event with
      | granted grant time =>
          have hne := hmid grant time List.mem_cons_self
          rw [List.cons_append, lastGrant_granted_of_ne T hne, htail]
      | settled grant | released grant => simpa [lastGrant] using htail

/-! ## The system -/

variable [LinearOrder τ]

/-- A lease may be replaced once it has expired, or while it is unsettled and
its lock window is over. -/
def Replaceable (lease : Lease γ) (now : τ) : Prop :=
  T.expiresAt lease.grant ≤ now ∨
    (lease.settled = false ∧ T.lockedUntil lease.grant ≤ now)

/-- The condition on a grant: it is new, its lock window does not outlast it,
and its scope is free or replaceable. -/
structure Available (s : State γ κ τ) (grant : γ) : Prop where
  new : ∀ time, .granted grant time ∉ s.log
  locked_le : T.lockedUntil grant ≤ T.expiresAt grant
  replaceable : ∀ lease, s.held (T.scope grant) = some lease → Replaceable T lease s.clock

open Classical in
/-- The abstract steps. -/
noncomputable def next (s : State γ κ τ) : Label γ κ τ → Option (State γ κ τ)
  | .tick time => if s.clock ≤ time then some { s with clock := time } else none
  | .grant grant =>
      if Available T s grant then
        some { s with
          held := Function.update s.held (T.scope grant) (some ⟨grant, false⟩)
          log := .granted grant s.clock :: s.log }
      else none
  | .settle scope =>
      match s.held scope with
      | some ⟨grant, false⟩ =>
          some { s with
            held := Function.update s.held scope (some ⟨grant, true⟩)
            log := .settled grant :: s.log }
      | _ => none
  | .release scope =>
      match s.held scope with
      | some ⟨grant, false⟩ =>
          some { s with
            held := Function.update s.held scope none
            log := .released grant :: s.log }
      | _ => none
  | .expire scope =>
      match s.held scope with
      | some ⟨grant, _⟩ =>
          if T.expiresAt grant ≤ s.clock then
            some { s with held := Function.update s.held scope none }
          else none
      | none => none

/-- The abstract lease system: it starts with every scope free. -/
noncomputable def system : System (State γ κ τ) (Label γ κ τ) where
  init s := (∀ scope, s.held scope = none) ∧ s.log = []
  next := next T

/-! ## What one step can do -/

/-- Every effect a step can have, with the guard under which it has it. -/
theorem next_cases {s t : State γ κ τ} {label : Label γ κ τ}
    (hnext : (system T).next s label = some t) :
    (∃ time, s.clock ≤ time ∧ t = { s with clock := time }) ∨
    (∃ grant, Available T s grant ∧ t = { s with
      held := Function.update s.held (T.scope grant) (some ⟨grant, false⟩)
      log := .granted grant s.clock :: s.log }) ∨
    (∃ scope grant, s.held scope = some ⟨grant, false⟩ ∧ t = { s with
      held := Function.update s.held scope (some ⟨grant, true⟩)
      log := .settled grant :: s.log }) ∨
    (∃ scope grant, s.held scope = some ⟨grant, false⟩ ∧ t = { s with
      held := Function.update s.held scope none
      log := .released grant :: s.log }) ∨
    (∃ scope lease, s.held scope = some lease ∧ T.expiresAt lease.grant ≤ s.clock ∧
      t = { s with held := Function.update s.held scope none }) := by
  cases label with
  | tick time =>
      simp only [system, next] at hnext
      split at hnext
      · next hle => exact .inl ⟨time, hle, by simpa using hnext.symm⟩
      · cases hnext
  | grant grant =>
      simp only [system, next] at hnext
      split at hnext
      · next hav => exact .inr (.inl ⟨grant, hav, by simpa using hnext.symm⟩)
      · cases hnext
  | settle scope =>
      simp only [system, next] at hnext
      split at hnext
      · next grant hheld =>
          exact .inr (.inr (.inl ⟨scope, grant, hheld, by simpa using hnext.symm⟩))
      · cases hnext
  | release scope =>
      simp only [system, next] at hnext
      split at hnext
      · next grant hheld =>
          exact .inr (.inr (.inr (.inl ⟨scope, grant, hheld, by simpa using hnext.symm⟩)))
      · cases hnext
  | expire scope =>
      simp only [system, next] at hnext
      split at hnext
      · next grant settled hheld =>
          split at hnext
          · next hexp =>
              exact .inr (.inr (.inr (.inr
                ⟨scope, ⟨grant, settled⟩, hheld, hexp, by simpa using hnext.symm⟩)))
          · cases hnext
      · cases hnext

/-! ## Enabled steps -/

theorem next_tick {s : State γ κ τ} {time : τ} (hle : s.clock ≤ time) :
    (system T).next s (.tick time) = some { s with clock := time } := if_pos hle

theorem next_grant {s : State γ κ τ} {grant : γ} (hav : Available T s grant) :
    (system T).next s (.grant grant) = some { s with
      held := Function.update s.held (T.scope grant) (some ⟨grant, false⟩)
      log := .granted grant s.clock :: s.log } := if_pos hav

theorem next_settle {s : State γ κ τ} {scope : κ} {grant : γ}
    (hheld : s.held scope = some ⟨grant, false⟩) :
    (system T).next s (.settle scope) = some { s with
      held := Function.update s.held scope (some ⟨grant, true⟩)
      log := .settled grant :: s.log } := by
  simp [system, next, hheld]

theorem next_release {s : State γ κ τ} {scope : κ} {grant : γ}
    (hheld : s.held scope = some ⟨grant, false⟩) :
    (system T).next s (.release scope) = some { s with
      held := Function.update s.held scope none
      log := .released grant :: s.log } := by
  simp [system, next, hheld]

theorem next_expire {s : State γ κ τ} {scope : κ} {lease : Lease γ}
    (hheld : s.held scope = some lease) (hexp : T.expiresAt lease.grant ≤ s.clock) :
    (system T).next s (.expire scope) =
      some { s with held := Function.update s.held scope none } := by
  simp [system, next, hheld, hexp]

/-! ## History and leases agree -/

/-- How a grant may follow an earlier one of the same scope: the earlier holder
released, or it never settled and its lock window is over, or its lease expired. -/
def Handover (log : List (Event γ τ)) (earlier : γ) (now : τ) : Prop :=
  .released earlier ∈ log ∨
    (.settled earlier ∉ log ∧ T.lockedUntil earlier ≤ now) ∨
      T.expiresAt earlier ≤ now

/-- What the history before a grant says about it: it is a lawful handover from
the last grant of the scope, and every settled lease of the scope has expired. -/
structure Lawful (earlier : List (Event γ τ)) (grant : γ) (now : τ) : Prop where
  handover : ∀ previous, lastGrant T (T.scope grant) earlier = some previous →
    Handover T earlier previous now
  settled_expired : ∀ settled, .settled settled ∈ earlier → T.scope settled = T.scope grant →
    T.expiresAt settled ≤ now

/-- The history of a run and the leases in force agree. -/
structure Consistent (s : State γ κ τ) : Prop where
  /-- A lease in force is the last grant of its scope and its flag is the history's. -/
  held : ∀ scope lease, s.held scope = some lease →
    lastGrant T scope s.log = some lease.grant ∧
      (lease.settled = true ↔ .settled lease.grant ∈ s.log) ∧
        .released lease.grant ∉ s.log
  /-- A free scope was released by its last holder, or its last lease expired. -/
  free : ∀ scope grant, s.held scope = none → lastGrant T scope s.log = some grant →
    .released grant ∈ s.log ∨ T.expiresAt grant ≤ s.clock
  /-- No lock window outlasts its lease. -/
  locked_le : ∀ grant time, .granted grant time ∈ s.log →
    T.lockedUntil grant ≤ T.expiresAt grant
  /-- Only a granted lease is settled or released. -/
  settled_granted : ∀ grant, .settled grant ∈ s.log → ∃ time, .granted grant time ∈ s.log
  released_granted : ∀ grant, .released grant ∈ s.log → ∃ time, .granted grant time ∈ s.log
  /-- A settled lease can no longer be released. -/
  exclusive : ∀ grant, .settled grant ∈ s.log → .released grant ∉ s.log
  /-- A settled lease is the last one of its scope until it expires. -/
  settled_last : ∀ grant, .settled grant ∈ s.log →
    lastGrant T (T.scope grant) s.log = some grant ∨ T.expiresAt grant ≤ s.clock
  /-- A grant that is no longer the last one of its scope was released or is
  past its lock window. -/
  retired : ∀ grant time, .granted grant time ∈ s.log →
    lastGrant T (T.scope grant) s.log = some grant ∨ .released grant ∈ s.log ∨
      T.lockedUntil grant ≤ s.clock
  /-- Every grant of the history was lawful when it was made. -/
  lawful : ∀ later grant time earlier, s.log = later ++ .granted grant time :: earlier →
    Lawful T earlier grant time

namespace Consistent

theorem init {s : State γ κ τ} (hinit : (system T).init s) : Consistent T s where
  held scope lease hheld := by simp [hinit.1 scope] at hheld
  free scope grant _ hlast := by simp [hinit.2, lastGrant] at hlast
  locked_le grant time hmem := by simp [hinit.2] at hmem
  settled_granted grant hmem := by simp [hinit.2] at hmem
  released_granted grant hmem := by simp [hinit.2] at hmem
  exclusive grant hmem := by simp [hinit.2] at hmem
  settled_last grant hmem := by simp [hinit.2] at hmem
  retired grant time hmem := by simp [hinit.2] at hmem
  lawful later grant time earlier hlog := by simp [hinit.2] at hlog

variable {T} {s : State γ κ τ}

/-- The clock may advance. -/
theorem tick (h : Consistent T s) {time : τ} (hle : s.clock ≤ time) :
    Consistent T { s with clock := time } where
  held := h.held
  free scope grant hfree hlast := (h.free scope grant hfree hlast).imp_right (le_trans · hle)
  locked_le := h.locked_le
  settled_granted := h.settled_granted
  released_granted := h.released_granted
  exclusive := h.exclusive
  settled_last grant hmem := (h.settled_last grant hmem).imp_right (le_trans · hle)
  retired grant time' hmem :=
    (h.retired grant time' hmem).imp_right (Or.imp_right (le_trans · hle))
  lawful := h.lawful

/-- An available scope may be granted only as a lawful handover. -/
theorem handover_of_available (h : Consistent T s) {grant previous : γ}
    (hav : Available T s grant) (hlast : lastGrant T (T.scope grant) s.log = some previous) :
    Handover T s.log previous s.clock := by
  cases hheld : s.held (T.scope grant) with
  | none =>
      rcases h.free _ _ hheld hlast with hrel | hexp
      · exact .inl hrel
      · exact .inr (.inr hexp)
  | some lease =>
      obtain ⟨hlease, hflag, -⟩ := h.held _ _ hheld
      have hsame : lease.grant = previous := Option.some.inj (hlease.symm.trans hlast)
      subst hsame
      rcases hav.replaceable lease hheld with hexp | ⟨hunsettled, hlock⟩
      · exact .inr (.inr hexp)
      · refine .inr (.inl ⟨fun hmem => ?_, hlock⟩)
        rw [hflag.mpr hmem] at hunsettled
        cases hunsettled

/-- A settled lease of an available scope has expired. -/
theorem settled_expired_of_available (h : Consistent T s) {grant settled : γ}
    (hav : Available T s grant) (hsettled : .settled settled ∈ s.log)
    (hscope : T.scope settled = T.scope grant) : T.expiresAt settled ≤ s.clock := by
  rcases h.settled_last settled hsettled with hlast | hexp
  · rw [hscope] at hlast
    rcases h.handover_of_available hav hlast with hrel | ⟨hun, -⟩ | hexp
    · exact absurd hrel (h.exclusive settled hsettled)
    · exact absurd hsettled hun
    · exact hexp
  · exact hexp

/-- A grant of an available scope keeps history and leases in agreement. -/
theorem grant (h : Consistent T s) {grant : γ} (hav : Available T s grant) :
    Consistent T { s with
      held := Function.update s.held (T.scope grant) (some ⟨grant, false⟩)
      log := .granted grant s.clock :: s.log } := by
  have hnotSettled : Event.settled grant ∉ s.log := fun hmem =>
    (h.settled_granted grant hmem).elim hav.new
  have hnotReleased : Event.released grant ∉ s.log := fun hmem =>
    (h.released_granted grant hmem).elim hav.new
  constructor
  case held =>
    intro scope lease hheld
    by_cases hscope : scope = T.scope grant
    · subst hscope
      simp only [Function.update_self, Option.some.injEq] at hheld
      subst hheld
      simp [hnotSettled, hnotReleased]
    · simp only [Function.update_of_ne hscope] at hheld
      rw [lastGrant_granted_of_ne T (Ne.symm hscope)]
      simpa using h.held scope lease hheld
  case free =>
    intro scope other hfree hlast
    have hscope : scope ≠ T.scope grant := by
      rintro rfl
      simp at hfree
    simp only [Function.update_of_ne hscope] at hfree
    rw [lastGrant_granted_of_ne T (Ne.symm hscope)] at hlast
    simpa using h.free scope other hfree hlast
  case locked_le =>
    intro other time hmem
    rcases List.mem_cons.mp hmem with hnew | hold
    · injection hnew with hgrant
      exact hgrant ▸ hav.locked_le
    · exact h.locked_le other time hold
  case settled_granted =>
    intro other hmem
    exact (h.settled_granted other (by simpa using hmem)).imp fun _ => List.mem_cons_of_mem _
  case released_granted =>
    intro other hmem
    exact (h.released_granted other (by simpa using hmem)).imp fun _ => List.mem_cons_of_mem _
  case exclusive =>
    intro other hmem
    simpa using h.exclusive other (by simpa using hmem)
  case settled_last =>
    intro other hmem
    have hold : Event.settled other ∈ s.log := by simpa using hmem
    by_cases hscope : T.scope grant = T.scope other
    · -- The new grant took the scope over, so the settled lease had expired.
      exact .inr (h.settled_expired_of_available hav hold hscope.symm)
    · rw [lastGrant_granted_of_ne T hscope]
      exact h.settled_last other hold
  case retired =>
    intro other time hmem
    rcases List.mem_cons.mp hmem with hnew | hold
    · injection hnew with hgrant
      subst hgrant
      exact .inl (lastGrant_granted_self T _ _ _)
    · by_cases hscope : T.scope grant = T.scope other
      · -- Losing the scope means a lawful handover, whose last case implies the middle one.
        right
        rcases h.retired other time hold with hlast | hrel | hlock
        · rw [← hscope] at hlast
          rcases h.handover_of_available hav hlast with hrel | ⟨-, hlock⟩ | hexp
          · exact .inl (List.mem_cons_of_mem _ hrel)
          · exact .inr hlock
          · exact .inr (le_trans (h.locked_le other time hold) hexp)
        · exact .inl (List.mem_cons_of_mem _ hrel)
        · exact .inr hlock
      · rw [lastGrant_granted_of_ne T hscope]
        simpa using h.retired other time hold
  case lawful =>
    intro later other time earlier hlog
    cases later with
    | nil =>
        rw [List.nil_append, List.cons.injEq, Event.granted.injEq] at hlog
        obtain ⟨⟨rfl, rfl⟩, rfl⟩ := hlog
        exact ⟨fun _ => h.handover_of_available hav,
          fun _ => h.settled_expired_of_available hav⟩
    | cons event later =>
        rw [List.cons_append, List.cons.injEq] at hlog
        exact h.lawful later other time earlier hlog.2

/-- An event that is not a grant leaves every grant of the history as lawful as it was. -/
theorem lawful_cons (h : Consistent T s) {event : Event γ τ}
    (hevent : ∀ grant time, event ≠ .granted grant time) {later earlier : List (Event γ τ)}
    {grant : γ} {time : τ} (hlog : event :: s.log = later ++ .granted grant time :: earlier) :
    Lawful T earlier grant time := by
  cases later with
  | nil =>
      rw [List.nil_append, List.cons.injEq] at hlog
      exact absurd hlog.1 (hevent grant time)
  | cons newest later =>
      rw [List.cons_append, List.cons.injEq] at hlog
      exact h.lawful later grant time earlier hlog.2

/-- Recording that the holder of a lease settled it. -/
theorem settle (h : Consistent T s) {scope : κ} {grant : γ}
    (hheld : s.held scope = some ⟨grant, false⟩) :
    Consistent T { s with
      held := Function.update s.held scope (some ⟨grant, true⟩)
      log := .settled grant :: s.log } := by
  obtain ⟨hlast, hflag, hrel⟩ := h.held scope _ hheld
  obtain ⟨hscope, hgranted⟩ := lastGrant_some T hlast
  simp only at hlast hrel hgranted hscope
  constructor
  case held =>
    intro other lease hother
    by_cases hsame : other = scope
    · subst hsame
      simp only [Function.update_self, Option.some.injEq] at hother
      subst hother
      simpa using ⟨hlast, hrel⟩
    · simp only [Function.update_of_ne hsame] at hother
      obtain ⟨hlast', hflag', hrel'⟩ := h.held other lease hother
      have hne : lease.grant ≠ grant := lastGrant_ne T hlast' hlast hsame
      simpa [hne] using ⟨hlast', hflag', hrel'⟩
  case free =>
    intro other grant' hfree hlast'
    have hsame : other ≠ scope := by
      rintro rfl
      simp at hfree
    simp only [Function.update_of_ne hsame] at hfree
    simpa using h.free other grant' hfree hlast'
  case locked_le =>
    intro other time hmem
    exact h.locked_le other time (by simpa using hmem)
  case settled_granted =>
    intro other hmem
    rcases List.mem_cons.mp hmem with hnew | hold
    · injection hnew with heq
      subst heq
      exact hgranted.imp fun _ => List.mem_cons_of_mem _
    · exact (h.settled_granted other hold).imp fun _ => List.mem_cons_of_mem _
  case released_granted =>
    intro other hmem
    exact (h.released_granted other (by simpa using hmem)).imp fun _ => List.mem_cons_of_mem _
  case exclusive =>
    intro other hmem
    rcases List.mem_cons.mp hmem with hnew | hold
    · injection hnew with heq
      subst heq
      simpa using hrel
    · simpa using h.exclusive other hold
  case settled_last =>
    intro other hmem
    rcases List.mem_cons.mp hmem with hnew | hold
    · injection hnew with heq
      subst heq
      exact .inl (by simpa [hscope] using hlast)
    · simpa using h.settled_last other hold
  case retired =>
    intro other time hmem
    simpa using h.retired other time (by simpa using hmem)
  case lawful => exact fun _ _ _ _ hlog => h.lawful_cons (by simp) hlog

/-- Recording that the holder of an unsettled lease gave it up. -/
theorem release (h : Consistent T s) {scope : κ} {grant : γ}
    (hheld : s.held scope = some ⟨grant, false⟩) :
    Consistent T { s with
      held := Function.update s.held scope none
      log := .released grant :: s.log } := by
  obtain ⟨hlast, hflag, hrel⟩ := h.held scope _ hheld
  obtain ⟨-, hgranted⟩ := lastGrant_some T hlast
  simp only at hlast hrel hgranted
  have hunsettled : Event.settled grant ∉ s.log := fun hmem => by simpa using hflag.mpr hmem
  constructor
  case held =>
    intro other lease hother
    have hsame : other ≠ scope := by
      rintro rfl
      simp at hother
    simp only [Function.update_of_ne hsame] at hother
    obtain ⟨hlast', hflag', hrel'⟩ := h.held other lease hother
    have hne : lease.grant ≠ grant := lastGrant_ne T hlast' hlast hsame
    simpa [hne] using ⟨hlast', hflag', hrel'⟩
  case free =>
    intro other grant' hfree hlast'
    rw [lastGrant_released] at hlast'
    by_cases hsame : other = scope
    · subst hsame
      have heq : grant' = grant := Option.some.inj (hlast'.symm.trans hlast)
      exact .inl (heq ▸ List.mem_cons_self)
    · simp only [Function.update_of_ne hsame] at hfree
      exact (h.free other grant' hfree hlast').imp_left (List.mem_cons_of_mem _)
  case locked_le =>
    intro other time hmem
    exact h.locked_le other time (by simpa using hmem)
  case settled_granted =>
    intro other hmem
    exact (h.settled_granted other (by simpa using hmem)).imp fun _ => List.mem_cons_of_mem _
  case released_granted =>
    intro other hmem
    rcases List.mem_cons.mp hmem with hnew | hold
    · injection hnew with heq
      subst heq
      exact hgranted.imp fun _ => List.mem_cons_of_mem _
    · exact (h.released_granted other hold).imp fun _ => List.mem_cons_of_mem _
  case exclusive =>
    intro other hmem
    have hold : Event.settled other ∈ s.log := by simpa using hmem
    have hne : other ≠ grant := fun heq => hunsettled (heq ▸ hold)
    simpa [hne] using h.exclusive other hold
  case settled_last =>
    intro other hmem
    simpa using h.settled_last other (by simpa using hmem)
  case retired =>
    intro other time hmem
    rcases h.retired other time (by simpa using hmem) with hlast' | hrel' | hlock
    · exact .inl (by simpa using hlast')
    · exact .inr (.inl (List.mem_cons_of_mem _ hrel'))
    · exact .inr (.inr hlock)
  case lawful => exact fun _ _ _ _ hlog => h.lawful_cons (by simp) hlog

/-- Discarding an expired lease. -/
theorem expire (h : Consistent T s) {scope : κ} {lease : Lease γ}
    (hheld : s.held scope = some lease) (hexp : T.expiresAt lease.grant ≤ s.clock) :
    Consistent T { s with held := Function.update s.held scope none } := by
  refine { h with held := ?_, free := ?_ }
  · intro other lease' hother
    have hsame : other ≠ scope := by
      rintro rfl
      simp at hother
    simp only [Function.update_of_ne hsame] at hother
    exact h.held other lease' hother
  · intro other grant hfree hlast
    by_cases hsame : other = scope
    · subst hsame
      have heq : grant = lease.grant :=
        Option.some.inj (hlast.symm.trans (h.held other lease hheld).1)
      exact .inr (heq ▸ hexp)
    · simp only [Function.update_of_ne hsame] at hfree
      exact h.free other grant hfree hlast

/-- Every state the lease system reaches is consistent with its history. -/
theorem of_reachable {s : State γ κ τ} (hreach : (system T).Reachable s) :
    Consistent T s := by
  apply hreach.invariant (fun _ hinit => init T hinit)
  intro s label t _ h hnext
  obtain ⟨time, hle, rfl⟩ | ⟨grant, hav, rfl⟩ | ⟨scope, grant, hheld, rfl⟩ |
    ⟨scope, grant, hheld, rfl⟩ | ⟨scope, lease, hheld, hexp, rfl⟩ := next_cases T hnext
  · exact h.tick hle
  · exact h.grant hav
  · exact h.settle hheld
  · exact h.release hheld
  · exact h.expire hheld hexp

end Consistent

/-! ## What holds of every run -/

variable {T} {s : State γ κ τ}

/-- Two consecutive grants of a scope are a lawful handover, read at the
history before the second. -/
theorem handover_of_consecutive (hreach : (system T).Reachable s)
    {later mid earlier : List (Event γ τ)} {first second : γ} {time time' : τ}
    (hlog : s.log = later ++ .granted second time' :: (mid ++ .granted first time :: earlier))
    (hscope : T.scope first = T.scope second)
    (hmid : ∀ grant time, .granted grant time ∈ mid → T.scope grant ≠ T.scope second) :
    Handover T (mid ++ .granted first time :: earlier) first time' := by
  apply ((Consistent.of_reachable hreach).lawful later second time' _ hlog).handover first
  rw [lastGrant_append_of_forall_ne T hmid, ← hscope, lastGrant_granted_self]

/-- A holder that has not finished and is inside its lock window. -/
def Live (T : Terms γ κ τ) (s : State γ κ τ) (grant : γ) : Prop :=
  (∃ time, .granted grant time ∈ s.log) ∧ .settled grant ∉ s.log ∧
    .released grant ∉ s.log ∧ s.clock < T.lockedUntil grant

/-- A live holder is the last one granted its scope. -/
theorem Live.lastGrant_eq (hreach : (system T).Reachable s) {grant : γ}
    (hlive : Live T s grant) : lastGrant T (T.scope grant) s.log = some grant := by
  obtain ⟨⟨time, hgranted⟩, -, hrel, hclock⟩ := hlive
  rcases (Consistent.of_reachable hreach).retired grant time hgranted with hlast | hrel' | hlock
  · exact hlast
  · exact absurd hrel' hrel
  · exact absurd hclock (not_lt.mpr hlock)

/-- At most one holder of a scope is live. -/
theorem Live.unique (hreach : (system T).Reachable s) {first second : γ}
    (hfirst : Live T s first) (hsecond : Live T s second)
    (hscope : T.scope first = T.scope second) : first = second := by
  have h₁ := hfirst.lastGrant_eq hreach
  have h₂ := hsecond.lastGrant_eq hreach
  rw [hscope] at h₁
  exact Option.some.inj (h₁.symm.trans h₂)

/-- A grant of a scope that follows a settled one waits for its expiry. -/
theorem expired_of_granted_after_settled (hreach : (system T).Reachable s)
    {later earlier : List (Event γ τ)} {grant settled : γ} {time : τ}
    (hlog : s.log = later ++ .granted grant time :: earlier)
    (hsettled : .settled settled ∈ earlier) (hscope : T.scope settled = T.scope grant) :
    T.expiresAt settled ≤ time :=
  ((Consistent.of_reachable hreach).lawful later grant time earlier hlog).settled_expired
    settled hsettled hscope

/-- Until a settled lease expires no holder of its scope is live. -/
theorem not_live_of_settled (hreach : (system T).Reachable s) {grant other : γ}
    (hsettled : .settled grant ∈ s.log) (hclock : s.clock < T.expiresAt grant)
    (hscope : T.scope other = T.scope grant) : ¬ Live T s other := by
  intro hlive
  rcases (Consistent.of_reachable hreach).settled_last grant hsettled with hlast | hexp
  · have hother := hlive.lastGrant_eq hreach
    rw [hscope, hlast, Option.some.injEq] at hother
    exact hlive.2.1 (hother ▸ hsettled)
  · exact absurd hclock (not_lt.mpr hexp)

end System

end GoFoundation.Library.Leasing
