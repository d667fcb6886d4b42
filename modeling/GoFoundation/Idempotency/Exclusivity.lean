/-
# At most one owner works under a key

The table refines the abstract lease system of `Library.Lease`: the row of a
scope is the lease in force there, an insertion or a take-over is a grant, and a
`Complete` or `Release` that takes effect settles or releases it.  A cleanup that
is one atomic statement expires its rows one by one.  Exclusivity is then read
off the lease system.
-/

import GoFoundation.Library.Lease
import GoFoundation.Idempotency.Invariant

namespace GoFoundation.Idempotency

open Library Postgres Grpc

variable {P : Protobuf}

/-! ## The lease a row stands for -/

/-- A grant as the lease system sees it. -/
def terms : Leasing.Terms Grant Scope Int where
  scope := Grant.scope
  lockedUntil := Grant.lockedUntil
  expiresAt := Grant.expiresAt

/-- The lease event behind an event of the history. -/
def Event.lease : Event P → Option (Leasing.Event Grant Int)
  | granted g time => some (.granted g time)
  | completed g => some (.settled g)
  | released g => some (.released g)
  | executed _ _ | answered _ _ _ => none

/-- Every row stands for the lease of its scope, and a scope without a row is free. -/
structure Backs (granted : Grant → Prop) (rows : List Row)
    (held : Scope → Option (Leasing.Lease Grant)) : Prop where
  taken : ∀ row ∈ rows, ∃ g, granted g ∧ Reserves g row ∧
    held row.scope = some ⟨g, row.state = .completed⟩
  free : ∀ scope, (∀ row ∈ rows, row.scope ≠ scope) → held scope = none

namespace Backs

variable {granted granted' : Grant → Prop} {rows : List Row}
  {held : Scope → Option (Leasing.Lease Grant)}

theorem mono (h : Backs granted rows held) (hle : ∀ g, granted g → granted' g) :
    Backs granted' rows held where
  taken row hrow := by
    obtain ⟨g, hg, hrest⟩ := h.taken row hrow
    exact ⟨g, hle g hg, hrest⟩
  free := h.free

/-- A reservation inserted into a free scope. -/
theorem insert (h : Backs granted rows held) {i : Nat} {p : AcquireParams}
    (hfree : ∀ row ∈ rows, row.scope ≠ p.scope) (hg : granted ⟨i, p, p.id⟩) :
    Backs granted (rows ++ [reservation p])
      (Function.update held p.scope (some ⟨⟨i, p, p.id⟩, false⟩)) where
  taken row hrow := by
    rcases List.mem_append.mp hrow with hold | hnew
    · obtain ⟨g, hg, hres, hheld⟩ := h.taken row hold
      exact ⟨g, hg, hres, by rw [Function.update_of_ne (hfree row hold), hheld]⟩
    · obtain rfl := List.mem_singleton.mp hnew
      refine ⟨⟨i, p, p.id⟩, hg, ⟨rfl, rfl, rfl, rfl, rfl, fun _ => rfl⟩, ?_⟩
      rw [reservation_scope, Function.update_self]
      simp [reservation]
  free scope hscope := by
    have hne : scope ≠ p.scope := fun heq =>
      hscope (reservation p) (by simp) heq.symm
    rw [Function.update_of_ne hne]
    exact h.free scope fun row hrow => hscope row (List.mem_append_left _ hrow)

/-- Rewriting the one row of a scope, keeping the scope. -/
theorem update (h : Backs granted rows held) (hscopes : (rows.map Row.scope).Nodup)
    {cond : Row → Bool} {f : Row → Row} {old : Row} {g : Grant} (hold : old ∈ rows)
    (hcond : ∀ row ∈ rows, cond row = true ↔ row = old) (hf : ∀ row, (f row).scope = row.scope)
    (hg : granted g) (hres : Reserves g (f old)) :
    Backs granted (Table.updateWhere cond f rows)
      (Function.update held old.scope (some ⟨g, (f old).state = .completed⟩)) where
  taken row hrow := by
    rcases Table.mem_updateWhere.mp hrow with ⟨row', hrow', hcond', rfl⟩ | ⟨hrow', hcond'⟩
    · obtain rfl := (hcond row' hrow').mp hcond'
      exact ⟨g, hg, hres, by rw [hf, Function.update_self]⟩
    · obtain ⟨g', hg', hres', hheld⟩ := h.taken row hrow'
      have hne : row.scope ≠ old.scope := fun heq => by
        have hsame := (hcond row hrow').mpr (Table.eq_of_key_eq hscopes hrow' hold heq)
        simp [hsame] at hcond'
      exact ⟨g', hg', hres', by rw [Function.update_of_ne hne, hheld]⟩
  free scope hscope := by
    have hkept : ∀ row ∈ rows, row.scope ≠ scope := by
      intro row hrow heq
      have hmem : row.scope ∈ (Table.updateWhere cond f rows).map Row.scope := by
        rw [Table.map_updateWhere _ hf]
        exact List.mem_map_of_mem hrow
      obtain ⟨row', hrow', heq'⟩ := List.mem_map.mp hmem
      exact hscope row' hrow' (heq'.trans heq)
    rw [Function.update_of_ne (Ne.symm (hkept old hold))]
    exact h.free scope hkept

/-- Deleting the one row of a scope. -/
theorem delete (h : Backs granted rows held) (hscopes : (rows.map Row.scope).Nodup)
    {cond : Row → Bool} {old : Row} (hold : old ∈ rows)
    (hcond : ∀ row ∈ rows, cond row = true ↔ row = old) :
    Backs granted (Table.deleteWhere cond rows) (Function.update held old.scope none) where
  taken row hrow := by
    obtain ⟨hrow', hcond'⟩ := Table.mem_deleteWhere.mp hrow
    obtain ⟨g, hg, hres, hheld⟩ := h.taken row hrow'
    have hne : row.scope ≠ old.scope := fun heq => by
      have hsame := (hcond row hrow').mpr (Table.eq_of_key_eq hscopes hrow' hold heq)
      simp [hsame] at hcond'
    exact ⟨g, hg, hres, by rw [Function.update_of_ne hne, hheld]⟩
  free scope hscope := by
    by_cases heq : scope = old.scope
    · rw [heq, Function.update_self]
    · rw [Function.update_of_ne heq]
      refine h.free scope fun row hrow hsame => hscope row ?_ hsame
      refine Table.mem_deleteWhere.mpr ⟨hrow, ?_⟩
      have hother : row ≠ old := fun h' => heq (h' ▸ hsame.symm)
      simpa using mt (hcond row hrow).mp hother

end Backs

/-! ## The simulation -/

/-- A world and a state of the lease system that agree. -/
structure Refines (w : World P) (s : Leasing.State Grant Scope Int) : Prop where
  clock : s.clock = w.clock
  log : s.log = w.log.filterMap Event.lease
  backs : Backs (fun g => (w.requests g.request).grant = some g) w.rows s.held

/-- Deleting expired rows is a run of expiries. -/
theorem Backs.expire_run {granted : Grant → Prop} {rows : List Row}
    {s : Leasing.State Grant Scope Int} (h : Backs granted rows s.held)
    (hids : (rows.map Row.id).Nodup) (hscopes : (rows.map Row.scope).Nodup) {ids : List UUID}
    (hexp : ∀ row ∈ rows, row.id ∈ ids → row.expiresAt ≤ s.clock) :
    ∃ labels held, (Leasing.system terms).run s labels = some { s with held := held } ∧
      Backs granted (deleteByID ids rows) held := by
  induction ids generalizing rows s with
  | nil => exact ⟨[], s.held, rfl, by simpa [deleteByID, Table.deleteWhere] using h⟩
  | cons id ids ih =>
      have hsplit : deleteByID (id :: ids) rows =
          deleteByID ids (Table.deleteWhere (fun row => row.id = id) rows) := by
        simp [deleteByID, Table.deleteWhere, List.filter_filter, Bool.and_comm]
      have hrest : ∀ row ∈ Table.deleteWhere (fun row => row.id = id) rows, row.id ∈ ids →
          row.expiresAt ≤ s.clock := fun row hrow hid =>
        hexp row (Table.mem_deleteWhere.mp hrow).1 (List.mem_cons_of_mem _ hid)
      have hids' : ((Table.deleteWhere (fun row => row.id = id) rows).map Row.id).Nodup :=
        Table.nodup_map_deleteWhere hids
      have hscopes' : ((Table.deleteWhere (fun row => row.id = id) rows).map Row.scope).Nodup :=
        Table.nodup_map_deleteWhere hscopes
      rw [hsplit]
      by_cases hmem : ∃ row ∈ rows, row.id = id
      · obtain ⟨old, hold, rfl⟩ := hmem
        obtain ⟨g, hg, hres, hheld⟩ := h.taken old hold
        have hlease : g.expiresAt ≤ s.clock := hres.expiresAt ▸ hexp old hold List.mem_cons_self
        have hcond : ∀ row ∈ rows, decide (row.id = old.id) = true ↔ row = old :=
          Table.cond_iff_eq hids hold (by simp) fun row hrow => by simpa using hrow
        obtain ⟨labels, held, hrun, hbacks⟩ :=
          ih (s := { s with held := Function.update s.held old.scope none })
            (h.delete hscopes hold hcond) hids' hscopes' hrest
        refine ⟨.expire old.scope :: labels, held, ?_, hbacks⟩
        rw [System.run_cons, Leasing.next_expire terms hheld hlease]
        exact hrun
      · -- No row has the id: nothing to expire.
        have hself : Table.deleteWhere (fun row => row.id = id) rows = rows :=
          Table.deleteWhere_eq_self fun row hrow => by
            simpa using fun heq => hmem ⟨row, hrow, heq⟩
        rw [hself]
        exact ih h hids hscopes (hself ▸ hrest)

/-- In the atomic mode no cleanup is ever under way. -/
theorem not_sweeping {options : Options} {w : World P}
    (hreach : (system P options .atomic).Reachable w) (i : Nat) (p : AcquireParams)
    (ids : List UUID) : w.requests i ≠ .sweeping p ids := by
  revert i p ids
  refine hreach.invariant
    (I := fun w => ∀ i p ids, w.requests i ≠ .sweeping p ids) ?_ ?_
  · intro w hinit i p ids
    simp [hinit.2.1 i]
  · intro w label w' _ hnone hnext j p ids
    cases step_of_next hnext with
    | tick hle => exact hnone j p ids
    | @begin i call id ownerToken hidle hid htoken hne =>
        by_cases hj : j = i
        · simp [hj]
        · simpa [Function.update_of_ne hj] using hnone j p ids
    | @move i _ after rows events hmove =>
        by_cases hj : j = i
        · subst hj
          rw [World.move_requests_self]
          generalize w.requests j = before at hmove
          cases hmove with
          | snapshot hmode hsel => cases hmode
          | _ => simp
        · rw [World.move_requests_of_ne hj]
          exact hnone j p ids

namespace Refines

variable {options : Options} {w : World P} {s : Leasing.State Grant Scope Int}

/-- A move that leaves the table alone and makes no lease event. -/
theorem stutter (h : Refines w s) {mode : Sweep} {i : Nat} {label : Label P} {after : Phase P}
    {rows : List Row} {events : List (Event P)}
    (hmove : Moves mode w i label (w.requests i) after rows events) (hrows : rows = w.rows)
    (hevents : events.filterMap Event.lease = []) :
    ∃ labels t, (Leasing.system terms).run s labels = some t ∧
      Refines (w.move i rows after events) t := by
  refine ⟨[], s, rfl, h.clock, ?_, ?_⟩
  · rw [World.move_log, List.filterMap_append, hevents, h.log, List.nil_append]
  · rw [World.move_rows, hrows]
    exact h.backs.mono fun g hg => hmove.grant_move hg

/-- A move matched by one lease step. -/
theorem single (h : Refines w s) {i : Nat} {after : Phase P}
    {rows : List Row} {events : List (Event P)} {lease : Leasing.Label Grant Scope Int}
    {held : Scope → Option (Leasing.Lease Grant)} {event : Leasing.Event Grant Int}
    (hnext : (Leasing.system terms).next s lease =
      some { s with held := held, log := event :: s.log })
    (hevents : events.filterMap Event.lease = [event])
    (hbacks : Backs (fun g => ((w.move i rows after events).requests g.request).grant = some g)
      rows held) :
    ∃ labels t, (Leasing.system terms).run s labels = some t ∧
      Refines (w.move i rows after events) t := by
  refine ⟨[lease], { s with held := held, log := event :: s.log }, ?_, h.clock, ?_, hbacks⟩
  · rw [System.run_cons, hnext]
    rfl
  · rw [World.move_log, List.filterMap_append, hevents, h.log, List.singleton_append]

/-- A request that has no grant has none in the history. -/
theorem granted_new (h : Refines w s) (hwf : Wf options w) {g : Grant}
    (hnone : (w.requests g.request).grant = none) (time : Int) :
    Leasing.Event.granted g time ∉ s.log := by
  intro hmem
  rw [h.log, List.mem_filterMap] at hmem
  obtain ⟨event, hevent, hlease⟩ := hmem
  cases event with
  | granted g' time' =>
      simp only [Event.lease, Option.some.injEq, Leasing.Event.granted.injEq] at hlease
      obtain ⟨rfl, rfl⟩ := hlease
      rw [hwf.logged g' time' hevent] at hnone
      cases hnone
  | executed | completed | released | answered => simp [Event.lease] at hlease

/-- An insertion or a take-over is a grant the lease system allows. -/
theorem available (h : Refines w s) (hwf : Wf options w) {i : Nat} {p : AcquireParams}
    {pc : Pc} {id : UUID} (hphase : w.requests i = .acquiring p pc)
    (hrow : ∀ row ∈ w.rows, row.scope = p.scope → row.expiresAt ≤ toTimestamptz p.now ∨
      (row.state = .inProgress ∧ ∃ locked, row.lockedUntil = some locked ∧
        locked ≤ toTimestamptz p.now)) :
    Leasing.Available terms s ⟨i, p, id⟩ where
  new := h.granted_new hwf (by simp [hphase, Phase.grant])
  locked_le := by
    obtain ⟨-, -, -, hlocked, hexpires⟩ := hwf.params i p (by rw [hphase]; rfl)
    have hlt := options.lockTimeout_lt
    exact toTimestamptz_mono (show p.lockedUntil ≤ p.expiresAt by omega)
  replaceable := by
    intro lease hheld
    have hnow : toTimestamptz p.now ≤ s.clock := by
      obtain ⟨-, -, hnow, -⟩ := hwf.params i p (by rw [hphase]; rfl)
      rw [h.clock]
      exact (toTimestamptz_le _).trans hnow
    by_cases hscope : ∃ row ∈ w.rows, row.scope = p.scope
    · obtain ⟨row, hmem, heq⟩ := hscope
      obtain ⟨g, -, hres, hheld'⟩ := h.backs.taken row hmem
      have hlease : lease = ⟨g, row.state = .completed⟩ := by
        rw [heq] at hheld'
        exact Option.some.inj (hheld.symm.trans hheld')
      subst hlease
      rcases hrow row hmem heq with hexp | ⟨hstate, locked, hlocked, hle⟩
      · exact .inl (hres.expiresAt.ge.trans (hexp.trans hnow))
      · refine .inr ⟨by simp [hstate], ?_⟩
        have hsame : locked = g.lockedUntil :=
          Option.some.inj (hlocked.symm.trans (hres.lockedUntil hstate))
        exact hsame.ge.trans (hle.trans hnow)
    · have hfree := h.backs.free p.scope fun row hmem heq => hscope ⟨row, hmem, heq⟩
      rw [show terms.scope ⟨i, p, id⟩ = p.scope from rfl, hfree] at hheld
      cases hheld

/-- The lease of the row that a request completes or releases. -/
theorem held_owner (h : Refines w s) (hwf : Wf options w) {i : Nat} {g : Grant}
    (hgrant : (w.requests i).grant = some g) {row : Row} (hrow : row ∈ w.rows)
    (howned : ownedInProgress g.id g.token row = true) :
    Reserves g row ∧ row.scope = g.scope ∧ s.held g.scope = some ⟨g, false⟩ := by
  have hres := hwf.owner_eq hgrant hrow howned
  obtain ⟨g', hg', hres', hheld⟩ := h.backs.taken row hrow
  have hsame : g' = g := hwf.grant_unique hg' hgrant (hres'.token.symm.trans hres.token)
  subst hsame
  refine ⟨hres, hres.scope, ?_⟩
  rw [← hres.scope, hheld]
  simp [(ownedInProgress_iff.mp howned).2.2]

/-- Every move of a request is matched by a run of the lease system. -/
theorem move (h : Refines w s) (hwf : Wf options w)
    (hatomic : ∀ i p ids, w.requests i ≠ .sweeping p ids) {i : Nat} {label : Label P}
    {after : Phase P} {rows : List Row} {events : List (Event P)}
    (hmove : Moves .atomic w i label (w.requests i) after rows events) :
    ∃ labels t, (Leasing.system terms).run s labels = some t ∧
      Refines (w.move i rows after events) t := by
  have hbacks : Backs (fun g => ((w.move i rows after events).requests g.request).grant =
      some g) w.rows s.held := h.backs.mono fun g hg => hmove.grant_move hg
  have hkeeps : ∀ g, (w.requests i).grant = some g →
      ((w.move i rows after events).requests g.request).grant = some g := fun g hg =>
    hmove.grant_move ((hwf.grants i g hg).1.symm ▸ hg)
  have hstutter := h.stutter hmove
  generalize hphase : w.requests i = before at hmove
  cases hmove with
  | @cleanup p ids hmode hsel =>
      have hnow : toTimestamptz p.now ≤ s.clock := by
        obtain ⟨-, -, hnow, -⟩ := hwf.params i p (by rw [hphase]; rfl)
        rw [h.clock]
        exact (toTimestamptz_le _).trans hnow
      have hexp : ∀ row ∈ w.rows, row.id ∈ ids → row.expiresAt ≤ s.clock := by
        intro row hrow hid
        obtain ⟨row', hrow', hid', hle⟩ := hsel.2.1 row.id hid
        exact Table.eq_of_key_eq hwf.ids hrow' hrow hid' ▸ hle.trans hnow
      obtain ⟨labels, held, hrun, hheld⟩ := hbacks.expire_run hwf.ids hwf.scopes hexp
      exact ⟨labels, _, hrun, h.clock, h.log, hheld⟩
  | sweep => exact absurd hphase (hatomic i _ _)
  | @inserted p hscope hid =>
      have hav : Leasing.Available terms s ⟨i, p, p.id⟩ :=
        h.available hwf hphase fun row hrow heq => absurd heq (hscope row hrow)
      apply h.single (Leasing.next_grant terms hav)
      · simp [Event.lease, h.clock]
      · exact hbacks.insert hscope (by rw [World.move_requests_self]; rfl)
  | @tookOver p id row hrow hcond =>
      obtain ⟨hid, hdue⟩ := takeOverCond_iff.mp hcond
      have hunique := Table.cond_iff_eq hwf.ids hrow hcond fun other hother =>
        (takeOverCond_iff.mp hother).1.trans hid.symm
      have hscope : row.scope = p.scope := hwf.takeOver_scope hphase hrow hid
      have hav : Leasing.Available terms s ⟨i, p, id⟩ :=
        h.available hwf hphase fun other hother heq => by
          have hsame := Table.eq_of_key_eq hwf.scopes hother hrow (heq.trans hscope.symm)
          exact hsame ▸ hdue
      apply h.single (Leasing.next_grant terms hav)
      · simp [Event.lease, h.clock]
      · have hkept := hbacks.update hwf.scopes hrow hunique (takeOverSet_scope p)
          (g := ⟨i, p, id⟩) (by rw [World.move_requests_self]; rfl)
          ⟨hid, rfl, hscope, rfl, rfl, fun _ => rfl⟩
        rw [hscope] at hkept
        exact hkept
  | @released g outcome row hrow howned =>
      obtain ⟨hres, hscope, hheld⟩ := h.held_owner hwf (by rw [hphase]; rfl) hrow howned
      have hunique := Table.cond_iff_eq hwf.ids hrow howned fun other hother =>
        (ownedInProgress_iff.mp hother).1.trans hres.id.symm
      apply h.single (Leasing.next_release terms hheld) rfl
      rw [← hscope]
      exact hbacks.delete hwf.scopes hrow hunique
  | @completed g outcome result hone =>
      obtain ⟨row, hrow, howned⟩ := List.countP_pos_iff.mp (hone ▸ Nat.one_pos)
      obtain ⟨hres, hscope, hheld⟩ := h.held_owner hwf (by rw [hphase]; rfl) hrow howned
      have hunique := Table.cond_iff_eq hwf.ids hrow howned fun other hother =>
        (ownedInProgress_iff.mp hother).1.trans hres.id.symm
      apply h.single (Leasing.next_settle terms hheld) rfl
      have hkept := hbacks.update hwf.scopes hrow hunique (completeSet_scope result w.clock)
        (g := g) (hkeeps g (by rw [hphase]; rfl))
        ⟨hres.id, hres.token, hres.scope, hres.requestHash, hres.expiresAt,
          fun hstate => by simp [completeSet] at hstate⟩
      rw [hscope] at hkept
      exact hkept
  | @completeLost g outcome result hone =>
      -- At most one row has the id, so a lost reservation matched none.
      have hnone := Table.forall_false_of_countP_ne_one hwf.ids
        (fun _ _ hfirst hsecond => (ownedInProgress_iff.mp hfirst).1.trans
          (ownedInProgress_iff.mp hsecond).1.symm) hone
      exact hstutter (Table.updateWhere_eq_self hnone) rfl
  | _ => exact hstutter rfl rfl

end Refines

/-- Every state the requests reach is a state of the lease system. -/
theorem exists_refines {options : Options} {w : World P}
    (hreach : (system P options .atomic).Reachable w) :
    ∃ s, (Leasing.system terms).Reachable s ∧ Refines w s := by
  refine System.ReachableBy.simulation (A := Leasing.system terms) Refines ?_ ?_ hreach
  · intro w hinit
    obtain ⟨hrows, -, hlog⟩ := hinit
    refine ⟨⟨w.clock, fun _ => none, []⟩, ⟨fun _ => rfl, rfl⟩, rfl, by simp [hlog], ?_, ?_⟩
    · simp [hrows]
    · exact fun _ _ => rfl
  · intro w s label w' hprior _ h _ hnext
    cases step_of_next hnext with
    | @tick time hle =>
        refine ⟨[.tick time], { s with clock := time }, ?_, rfl, h.log, h.backs⟩
        rw [System.run_cons, Leasing.next_tick terms (h.clock.le.trans hle)]
        rfl
    | @begin i call id ownerToken hidle hid htoken hne =>
        exact ⟨[], s, rfl, h.clock, h.log, h.backs.mono fun g hg => grant_begun hidle hg⟩
    | move hmove => exact h.move (Wf.of_reachable hprior) (not_sweeping hprior) hmove

/-! ## Exclusivity -/

/-- An owner that was granted its reservation and has neither completed nor
released it. -/
def World.Unfinished (w : World P) (g : Grant) : Prop :=
  (∃ time, .granted g time ∈ w.log) ∧ .completed g ∉ w.log ∧ .released g ∉ w.log

/-- Exclusivity of a world, read off its history. -/
structure Exclusive (w : World P) : Prop where
  /-- Of two consecutive grants of a scope, at the second the first owner had
  released, or had not completed and was past its lock, or its record had expired. -/
  handover : ∀ later mid earlier first second time time',
    w.log = later ++ .granted second time' :: (mid ++ .granted first time :: earlier) →
    first.scope = second.scope →
    (∀ g t, .granted g t ∈ mid → g.scope ≠ second.scope) →
    .released first ∈ mid ++ .granted first time :: earlier ∨
      (.completed first ∉ mid ++ .granted first time :: earlier ∧ first.lockedUntil ≤ time') ∨
        first.expiresAt ≤ time'
  /-- At most one unfinished owner of a scope is inside its lock window. -/
  unique : ∀ first second, w.Unfinished first → w.Unfinished second →
    w.clock < first.lockedUntil → w.clock < second.lockedUntil →
    first.scope = second.scope → first = second
  /-- Once an owner has completed, its scope is granted again only after the
  record's expiry. -/
  final : ∀ later earlier g completed time,
    w.log = later ++ .granted g time :: earlier → .completed completed ∈ earlier →
    completed.scope = g.scope → completed.expiresAt ≤ time
  /-- Until then nobody works on the scope inside a lock window. -/
  settled : ∀ completed g, .completed completed ∈ w.log → w.clock < completed.expiresAt →
    g.scope = completed.scope → w.Unfinished g → g.lockedUntil ≤ w.clock

section LeaseEvents

variable {log : List (Event P)} {g : Grant} {time : Int}

theorem granted_mem_lease :
    .granted g time ∈ log.filterMap Event.lease ↔ .granted g time ∈ log := by
  rw [List.mem_filterMap]
  constructor
  · rintro ⟨event, hmem, hlease⟩
    cases event <;> simp [Event.lease] at hlease
    obtain ⟨rfl, rfl⟩ := hlease
    exact hmem
  · exact fun hmem => ⟨_, hmem, rfl⟩

theorem settled_mem_lease :
    .settled g ∈ log.filterMap Event.lease ↔ .completed g ∈ log := by
  rw [List.mem_filterMap]
  constructor
  · rintro ⟨event, hmem, hlease⟩
    cases event <;> simp [Event.lease] at hlease
    exact hlease ▸ hmem
  · exact fun hmem => ⟨_, hmem, rfl⟩

theorem released_mem_lease :
    .released g ∈ log.filterMap Event.lease ↔ .released g ∈ log := by
  rw [List.mem_filterMap]
  constructor
  · rintro ⟨event, hmem, hlease⟩
    cases event <;> simp [Event.lease] at hlease
    exact hlease ▸ hmem
  · exact fun hmem => ⟨_, hmem, rfl⟩

end LeaseEvents

/-- An unfinished owner inside its lock window holds a live lease. -/
theorem Refines.live {w : World P} {s : Leasing.State Grant Scope Int} (h : Refines w s)
    {g : Grant} (hunfinished : w.Unfinished g) (hlock : w.clock < g.lockedUntil) :
    Leasing.Live terms s g := by
  obtain ⟨⟨time, hgranted⟩, hcompleted, hreleased⟩ := hunfinished
  refine ⟨⟨time, ?_⟩, ?_, ?_, ?_⟩
  · rw [h.log]
    exact granted_mem_lease.mpr hgranted
  · rw [h.log]
    exact mt settled_mem_lease.mp hcompleted
  · rw [h.log]
    exact mt released_mem_lease.mp hreleased
  · rw [h.clock]
    exact hlock

/-- Exclusivity holds in every reachable state, whatever the interleaving. -/
theorem exclusive_of_reachable {options : Options} {w : World P}
    (hreach : (system P options .atomic).Reachable w) : Exclusive w := by
  obtain ⟨s, hs, h⟩ := exists_refines hreach
  constructor
  case handover =>
    intro later mid earlier first second time time' hlog hscope hmid
    have hsplit : s.log = later.filterMap Event.lease ++ .granted second time' ::
        (mid.filterMap Event.lease ++ .granted first time ::
          earlier.filterMap Event.lease) := by
      rw [h.log, hlog]
      simp [Event.lease]
    have hmid' : ∀ g t, .granted g t ∈ mid.filterMap Event.lease →
        terms.scope g ≠ terms.scope second := fun g t hmem =>
      hmid g t (granted_mem_lease.mp hmem)
    have hbefore : mid.filterMap Event.lease ++ .granted first time ::
        earlier.filterMap Event.lease =
          (mid ++ .granted first time :: earlier).filterMap Event.lease := by
      simp [Event.lease]
    have hover := Leasing.handover_of_consecutive hs hsplit hscope hmid'
    rw [hbefore] at hover
    rcases hover with hrel | ⟨hun, hlock⟩ | hexp
    · exact .inl (released_mem_lease.mp hrel)
    · exact .inr (.inl ⟨mt settled_mem_lease.mpr hun, hlock⟩)
    · exact .inr (.inr hexp)
  case unique =>
    intro first second hfirst hsecond hlock hlock' hscope
    exact Leasing.Live.unique hs (h.live hfirst hlock) (h.live hsecond hlock') hscope
  case final =>
    intro later earlier g completed time hlog hmem hscope
    have hsplit : s.log = later.filterMap Event.lease ++
        .granted g time :: earlier.filterMap Event.lease := by
      rw [h.log, hlog]
      simp [Event.lease]
    exact Leasing.expired_of_granted_after_settled hs hsplit (settled_mem_lease.mpr hmem) hscope
  case settled =>
    intro completed g hmem hclock hscope hunfinished
    by_contra hlock
    rw [not_le] at hlock
    have hsettled : .settled completed ∈ s.log := by
      rw [h.log]
      exact settled_mem_lease.mpr hmem
    have hexpires : s.clock < terms.expiresAt completed := by
      rw [h.clock]
      exact hclock
    exact Leasing.not_live_of_settled hs hsettled hexpires hscope (h.live hunfinished hlock)

/-- Two requests with one key: the second takes over when the lock of the first
is over, completes, and the first finds its reservation lost. -/
def takeOverRun : List (Label Protobuf.sample) :=
  let call : Call := ⟨.ofNat 1, "/rbac.v1.RBACService/AssignRole", [7], [9]⟩
  [.begin 0 call (.ofNat 10) (.ofNat 11), .cleanup 0 [], .acquire 0, .tick 30000000000,
    .begin 1 call (.ofNat 20) (.ofNat 21), .cleanup 1 [], .acquire 1, .acquire 1, .acquire 1,
    .handler 1 ⟨.message (), none⟩, .finish 1, .handler 0 ⟨.message (), none⟩, .finish 0]

theorem exclusive_takeOverRun :
    ∃ w, (system Protobuf.sample defaultOptions .atomic).run (World.start 0) takeOverRun =
      some w ∧ (w.log.filterMap Event.lease).length = 3 ∧ Exclusive w := by
  have heval : ((system Protobuf.sample defaultOptions .atomic).run (World.start 0)
      takeOverRun).map (fun w => (w.log.filterMap Event.lease).length) = some 3 := by
    decide +kernel
  obtain ⟨w, hrun, hlength⟩ := Option.map_eq_some_iff.mp heval
  have hinit := init_start (P := Protobuf.sample) defaultOptions .atomic 0
  exact ⟨w, hrun, hlength,
    exclusive_of_reachable ((System.Reachable.init hinit).run hrun)⟩

end GoFoundation.Idempotency
