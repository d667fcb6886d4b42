/-
# Refresh tokens form one chain per session

Several refreshes of one token may pass `FindActiveByTokenHash` before any of them
rotates it.  Only one rotation can take effect, because `RotateToken` compares the
stored hash with that of the token presented, and because the hash it stores
belongs to a token that no session has ever had.

The invariant keeps the generated tokens apart: those some call still carries,
those some session has, and those a refresh has spent.
-/

import GoFoundation.Sessions.Protocol

namespace GoFoundation.Sessions

open Library Postgres Grpc Users

/-! ## Tokens in the history -/

/-- The token that a call has generated and not stored yet. -/
def Phase.pending : Phase → Option GoString
  | creating token _ => some token
  | rotating _ _ _ next => some next
  | _ => none

namespace Event

/-- The session an event is about. -/
def session : Event → UUID
  | created _ session _ => session.id
  | rotated _ id _ _ _ => id

/-- The token an event stored. -/
def stored : Event → GoString
  | created _ _ token => token
  | rotated _ _ _ next _ => next

end Event

/-- What happened to one session, newest first. -/
def history (id : UUID) (log : List Event) : List Event :=
  log.filter fun event => event.session = id

/-- A history in which a login stored the first token and each refresh presented
one that matches the token stored before it.  The index is the token stored last. -/
inductive Chained (Matches : GoString → GoString → Prop) : List Event → GoString → Prop
  | login (call : Nat) (session : Session) (token : GoString) :
      Chained Matches [.created call session token] token
  | refresh {earlier : List Event} {token : GoString} (call : Nat) (id : UUID)
      (presented next : GoString) (now : Int) (hchain : Chained Matches earlier token)
      (hmatches : Matches presented token) :
      Chained Matches (.rotated call id presented next now :: earlier) next

/-- The tokens have the same hash. -/
def Service.SameHash (service : Service) (presented token : GoString) : Prop :=
  service.sha256 presented = service.sha256 token

/-! ## What a move keeps -/

section Moves

variable {service : Service} {w : World} {i : Nat} {label : Label} {before after : Phase}
  {rows : List Row} {fresh : List GoString} {events : List Event}

/-- A call carries only a token it has just generated into its next phase. -/
theorem Moves.pending_after (hmove : Moves service w i label before after rows fresh events)
    {token : GoString} (hpending : after.pending = some token) :
    fresh = [token] ∧ events = [] := by
  cases hmove with
  | begun hbegins =>
      cases label <;> simp [Label.begins] at hbegins <;> obtain ⟨-, rfl⟩ := hbegins <;>
        cases hpending
  | ready | rotates =>
      cases hpending
      exact ⟨rfl, rfl⟩
  | _ => cases hpending

/-- The missed rotation of a table with unique ids changes nothing. -/
theorem updateWhere_of_missed (hids : (rows.map Row.id).Nodup) {id : UUID} {hash : Bytes}
    {now : Int} (hcount : rows.countP (rotateCond id hash now) ≠ 1) (set : Row → Row) :
    Table.updateWhere (rotateCond id hash now) set rows = rows :=
  Table.updateWhere_eq_self (Table.forall_false_of_countP_ne_one hids
    (fun _ _ hfirst hsecond => (rotateCond_iff.mp hfirst).1.trans
      (rotateCond_iff.mp hsecond).1.symm) hcount)

/-- Either the table and the history stay, up to revocations, or a login adds a
row, or a refresh rewrites one. -/
theorem Moves.effect (hmove : Moves service w i label before after rows fresh events)
    (hids : (w.rows.map Row.id).Nodup) :
    (events = [] ∧ ∃ cond now, rows = Table.updateWhere cond (revokeSet now) w.rows ∧
      ∀ row, cond row = true → row.revokedAt = none) ∨
    (∃ token session, before = .creating token session ∧ after.pending = none ∧ fresh = [] ∧
      events = [.created i session token] ∧ rows = w.rows ++ [session.toRow] ∧
      (∀ row ∈ w.rows, row.id ≠ session.id) ∧
      ∀ row ∈ w.rows, row.refreshTokenHash ≠ session.refreshTokenHash) ∨
    (∃ token now session next old, before = .rotating token now session next ∧
      after.pending = none ∧ fresh = [] ∧ events = [.rotated i session.id token next now] ∧
      rows = Table.updateWhere (rotateCond session.id (service.sha256 token) now)
        (rotateSet (service.sha256 next) now) w.rows ∧ old ∈ w.rows ∧
      rotateCond session.id (service.sha256 token) now old = true ∧
      (rows.map Row.refreshTokenHash).Nodup) := by
  have hnothing : w.rows = Table.updateWhere (fun _ => false) (revokeSet 0) w.rows :=
    (Table.updateWhere_eq_self fun _ _ => rfl).symm
  cases hmove with
  | created hid hhash =>
      exact .inr (.inl ⟨_, _, rfl, rfl, rfl, rfl, rfl, hid, hhash⟩)
  | rotated hrow hcond hnodup =>
      exact .inr (.inr ⟨_, _, _, _, _, rfl, rfl, rfl, rfl, rfl, hrow, hcond, hnodup⟩)
  | missed hcount =>
      rw [updateWhere_of_missed hids hcount]
      exact .inl ⟨rfl, _, _, hnothing, by simp⟩
  | @revokedByToken _ token now _ =>
      exact .inl ⟨rfl, _, now, rfl, fun row hcond => (revokeByTokenCond_iff.mp hcond).2⟩
  | @revoked id userID now _ =>
      exact .inl ⟨rfl, _, now, rfl, fun row hcond => (revokeCond_iff.mp hcond).2.2⟩
  | _ => exact .inl ⟨rfl, _, _, hnothing, by simp⟩

end Moves

/-! ## The invariant -/

/-- Where the generated tokens are. -/
structure Custody (service : Service) (w : World) : Prop where
  ids : (w.rows.map Row.id).Nodup
  hashes : (w.rows.map Row.refreshTokenHash).Nodup
  /-- A call carries a generated token that no session has had, and no other call carries. -/
  pending_generated : ∀ i token, (w.calls i).pending = some token → token ∈ w.generated
  pending_new : ∀ i token, (w.calls i).pending = some token →
    ∀ event ∈ w.log, event.stored ≠ token
  pending_unique : ∀ i j token, (w.calls i).pending = some token →
    (w.calls j).pending = some token → i = j
  creating : ∀ i token session, w.calls i = .creating token session →
    session.refreshTokenHash = service.sha256 token
  stored_generated : ∀ event ∈ w.log, event.stored ∈ w.generated
  present : ∀ event ∈ w.log, ∃ row ∈ w.rows, row.id = event.session
  /-- The history of a session is a chain, and the row has the hash of its last token. -/
  chained : ∀ row ∈ w.rows, ∃ token, Chained service.SameHash (history row.id w.log) token ∧
    row.refreshTokenHash = service.sha256 token
  /-- No session has the hash of a token that a refresh has spent. -/
  spent : ∀ call id presented next now, .rotated call id presented next now ∈ w.log →
    (∃ event ∈ w.log, service.sha256 event.stored = service.sha256 presented) ∧
      ∀ row ∈ w.rows, row.refreshTokenHash ≠ service.sha256 presented
  single : ∀ call call' id id' presented next next' now now',
    .rotated call id presented next now ∈ w.log →
    .rotated call' id' presented next' now' ∈ w.log → call = call'

section Chained

variable {Matches : GoString → GoString → Prop} {events : List Event} {token : GoString}

theorem Chained.stored_mem (h : Chained Matches events token) :
    ∃ event ∈ events, event.stored = token := by
  cases h with
  | login call session token => exact ⟨_, List.mem_cons_self, rfl⟩
  | refresh call id presented next now hchain hmatches => exact ⟨_, List.mem_cons_self, rfl⟩

/-- Only the tokens of the chain itself are ever matched. -/
theorem Chained.imp {Matches' : GoString → GoString → Prop} (h : Chained Matches events token)
    (himp : ∀ event ∈ events, ∀ presented, Matches presented event.stored →
      Matches' presented event.stored) : Chained Matches' events token := by
  induction h with
  | login call session token => exact .login call session token
  | refresh call id presented next now hchain hmatches ih =>
      obtain ⟨event, hevent, rfl⟩ := hchain.stored_mem
      refine .refresh call id presented next now
        (ih fun event hevent => himp event (List.mem_cons_of_mem _ hevent)) ?_
      exact himp event (List.mem_cons_of_mem _ hevent) presented hmatches

end Chained

theorem mem_of_mem_history {id : UUID} {log : List Event} {event : Event}
    (hmem : event ∈ history id log) : event ∈ log :=
  (List.mem_filter.mp hmem).1

theorem history_cons_self (event : Event) (log : List Event) :
    history event.session (event :: log) = event :: history event.session log := by
  simp [history]

theorem history_cons_of_ne {id : UUID} {event : Event} (hne : event.session ≠ id)
    {log : List Event} : history id (event :: log) = history id log := by
  simp [history, hne]

namespace Custody

variable {service : Service} {w : World} {i : Nat} {label : Label} {after : Phase}
  {rows : List Row} {fresh : List GoString} {events : List Event}

theorem init (hinit : (system service).init w) : Custody service w := by
  obtain ⟨hrows, hidle, hgenerated, hlog⟩ := hinit
  constructor <;> simp [hrows, hidle, hlog, Phase.pending]

/-- The hash of a carried token is not that of any stored token. -/
theorem pending_hash_ne (h : Custody service w)
    (hdistinct : (w.generated.map service.sha256).Nodup) {token : GoString}
    (hpending : (w.calls i).pending = some token) {event : Event} (hevent : event ∈ w.log) :
    service.sha256 event.stored ≠ service.sha256 token := by
  intro heq
  have hsame := List.inj_on_of_nodup_map hdistinct (h.stored_generated event hevent)
    (h.pending_generated i token hpending) heq
  exact h.pending_new i token hpending event hevent hsame

/-- Carried tokens after a move. -/
theorem pending_move (h : Custody service w)
    (hdistinct : ((fresh ++ w.generated).map service.sha256).Nodup)
    (hmove : Moves service w i label (w.calls i) after rows fresh events) {j : Nat}
    {token : GoString}
    (hpending : ((w.move i rows after fresh events).calls j).pending = some token) :
    token ∈ fresh ++ w.generated ∧ (∀ event ∈ w.log, event.stored ≠ token) ∧
      (j = i → fresh = [token] ∧ events = []) ∧
      (j ≠ i → (w.calls j).pending = some token) := by
  by_cases hj : j = i
  · subst hj
    rw [World.move_calls_self] at hpending
    obtain ⟨rfl, rfl⟩ := hmove.pending_after hpending
    refine ⟨by simp, ?_, fun _ => ⟨rfl, rfl⟩, fun hne => absurd rfl hne⟩
    intro event hevent heq
    have hmem := h.stored_generated event hevent
    rw [List.singleton_append, List.map_cons, List.nodup_cons] at hdistinct
    exact hdistinct.1 (List.mem_map_of_mem (heq ▸ hmem))
  · rw [World.move_calls_of_ne hj] at hpending
    exact ⟨List.mem_append_right _ (h.pending_generated j token hpending),
      h.pending_new j token hpending, fun heq => absurd heq hj, fun _ => hpending⟩

/-- The sessions of the history stay in a table with the same ids. -/
theorem present_of_ids (h : Custody service w) (hids : rows.map Row.id = w.rows.map Row.id)
    {event : Event} (hevent : event ∈ w.log) : ∃ row ∈ rows, row.id = event.session := by
  obtain ⟨row, hrow, hid⟩ := h.present event hevent
  have hmem : row.id ∈ rows.map Row.id := hids ▸ List.mem_map_of_mem hrow
  obtain ⟨row', hrow', hid'⟩ := List.mem_map.mp hmem
  exact ⟨row', hrow', hid'.trans hid⟩

/-- A move that stores no token. -/
theorem keep (h : Custody service w)
    (hdistinct : ((fresh ++ w.generated).map service.sha256).Nodup)
    (hmove : Moves service w i label (w.calls i) after rows fresh []) {cond : Row → Bool}
    {now : Int} (hrows : rows = Table.updateWhere cond (revokeSet now) w.rows) :
    Custody service (w.move i rows after fresh []) := by
  have hmem : ∀ row ∈ rows, ∃ old ∈ w.rows, row.id = old.id ∧
      row.refreshTokenHash = old.refreshTokenHash := by
    intro row hrow
    rw [hrows] at hrow
    rcases Table.mem_updateWhere.mp hrow with ⟨old, hold, -, rfl⟩ | ⟨hold, -⟩
    · exact ⟨old, hold, rfl, rfl⟩
    · exact ⟨row, hold, rfl, rfl⟩
  have hids : rows.map Row.id = w.rows.map Row.id := by
    rw [hrows, Table.map_updateWhere _ (revokeSet_id now)]
  have hhashes : rows.map Row.refreshTokenHash = w.rows.map Row.refreshTokenHash := by
    rw [hrows, Table.map_updateWhere _ (revokeSet_refreshTokenHash now)]
  constructor
  case ids => exact hids ▸ h.ids
  case hashes => exact hhashes ▸ h.hashes
  case pending_generated => exact fun j token hj => (h.pending_move hdistinct hmove hj).1
  case pending_new => exact fun j token hj => (h.pending_move hdistinct hmove hj).2.1
  case pending_unique =>
    intro j k token hj hk
    obtain ⟨-, -, hji, hjo⟩ := h.pending_move hdistinct hmove hj
    obtain ⟨-, -, hki, hko⟩ := h.pending_move hdistinct hmove hk
    -- A fresh token is not the one another call has been carrying.
    have hfresh : fresh = [token] → ∀ l, (w.calls l).pending ≠ some token := by
      rintro rfl l hl
      rw [List.singleton_append, List.map_cons, List.nodup_cons] at hdistinct
      exact hdistinct.1 (List.mem_map_of_mem (h.pending_generated l token hl))
    by_cases hj' : j = i <;> by_cases hk' : k = i
    · exact hj'.trans hk'.symm
    · exact absurd (hko hk') (hfresh (hji hj').1 k)
    · exact absurd (hjo hj') (hfresh (hki hk').1 j)
    · exact h.pending_unique j k token (hjo hj') (hko hk')
  case creating =>
    intro j token session hphase
    rcases hmove.of_creating hphase with hold | ⟨_, _, _, _, _, _, -, rfl⟩
    · exact h.creating j token session hold
    · rfl
  case stored_generated =>
    exact fun event hevent => List.mem_append_right _ (h.stored_generated event hevent)
  case present => exact fun event hevent => h.present_of_ids hids hevent
  case chained =>
    intro row hrow
    obtain ⟨old, hold, hid, hhash⟩ := hmem row hrow
    obtain ⟨token, hchain, htoken⟩ := h.chained old hold
    exact ⟨token, by rw [hid]; exact hchain, hhash.trans htoken⟩
  case spent =>
    intro call id presented next now hevent
    obtain ⟨hstored, hnone⟩ := h.spent call id presented next now hevent
    refine ⟨hstored, fun row hrow => ?_⟩
    obtain ⟨old, hold, -, hhash⟩ := hmem row hrow
    rw [hhash]
    exact hnone old hold
  case single => exact h.single

/-- A move that stores a token leaves the call with none to carry. -/
theorem pending_of_store (hafter : after.pending = none) {j : Nat} {token : GoString}
    (hpending : ((w.move i rows after [] events).calls j).pending = some token) :
    j ≠ i ∧ (w.calls j).pending = some token := by
  have hj : j ≠ i := by
    rintro rfl
    rw [World.move_calls_self, hafter] at hpending
    cases hpending
  exact ⟨hj, by rwa [World.move_calls_of_ne hj] at hpending⟩

/-- The tokens that calls carry and those stored, when a call stores its own. -/
theorem pending_store (h : Custody service w) (rows : List Row) (event : Event)
    (hafter : after.pending = none) (hstored : (w.calls i).pending = some event.stored) :
    (∀ j token, ((w.move i rows after [] [event]).calls j).pending = some token →
      token ∈ w.generated) ∧
    (∀ j token, ((w.move i rows after [] [event]).calls j).pending = some token →
      ∀ other ∈ event :: w.log, other.stored ≠ token) ∧
    (∀ j k token, ((w.move i rows after [] [event]).calls j).pending = some token →
      ((w.move i rows after [] [event]).calls k).pending = some token → j = k) ∧
    ∀ other ∈ event :: w.log, other.stored ∈ w.generated := by
  refine ⟨?_, ?_, ?_, ?_⟩
  · intro j token hj
    exact h.pending_generated j token (pending_of_store hafter hj).2
  · intro j token hj other hother heq
    obtain ⟨hne, hold⟩ := pending_of_store hafter hj
    rcases List.mem_cons.mp hother with rfl | hlogged
    · exact hne (h.pending_unique j i token hold (heq ▸ hstored))
    · exact h.pending_new j token hold other hlogged heq
  · intro j k token hj hk
    exact h.pending_unique j k token (pending_of_store hafter hj).2 (pending_of_store hafter hk).2
  · intro other hother
    rcases List.mem_cons.mp hother with rfl | hlogged
    · exact h.pending_generated i other.stored hstored
    · exact h.stored_generated other hlogged

/-- No other call is about to create a session with a hash of its own making. -/
theorem creating_of_store (h : Custody service w) (hafter : after.pending = none) {j : Nat}
    {token : GoString} {session : Session}
    (hphase : (w.move i rows after [] events).calls j = .creating token session) :
    session.refreshTokenHash = service.sha256 token := by
  have hj : j ≠ i := (pending_of_store hafter (by rw [hphase]; rfl)).1
  rw [World.move_calls_of_ne hj] at hphase
  exact h.creating j token session hphase

/-- A login stores the first token of a new session. -/
theorem created (h : Custody service w) (hdistinct : (w.generated.map service.sha256).Nodup)
    {token : GoString} {session : Session} (hphase : w.calls i = .creating token session)
    (hafter : after.pending = none) (hid : ∀ row ∈ w.rows, row.id ≠ session.id)
    (hhash : ∀ row ∈ w.rows, row.refreshTokenHash ≠ session.refreshTokenHash) :
    Custody service (w.move i (w.rows ++ [session.toRow]) after [] [.created i session token]) := by
  have hpending : (w.calls i).pending = some token := by rw [hphase]; rfl
  have htoken := h.creating i token session hphase
  obtain ⟨hgenerated, hnew, hunique, hstored⟩ := h.pending_store (w.rows ++ [session.toRow])
    (.created i session token) hafter hpending
  -- The session is new, so nothing has happened to it.
  have hempty : history session.id w.log = [] := by
    apply List.filter_eq_nil_iff.mpr
    intro event hevent hsame
    obtain ⟨row, hrow, hrowid⟩ := h.present event hevent
    exact hid row hrow (hrowid.trans (of_decide_eq_true hsame))
  constructor
  case ids => exact Table.nodup_map_append h.ids hid
  case hashes => exact Table.nodup_map_append h.hashes hhash
  case pending_generated => exact hgenerated
  case pending_new => exact hnew
  case pending_unique => exact hunique
  case creating => exact fun j token session => h.creating_of_store hafter
  case stored_generated => exact hstored
  case present =>
    intro event hevent
    rcases List.mem_cons.mp hevent with rfl | hold
    · exact ⟨session.toRow, by simp, rfl⟩
    · obtain ⟨row, hrow, hrowid⟩ := h.present event hold
      exact ⟨row, List.mem_append_left _ hrow, hrowid⟩
  case chained =>
    intro row hrow
    rcases List.mem_append.mp hrow with hold | hnew'
    · obtain ⟨last, hchain, hlast⟩ := h.chained row hold
      refine ⟨last, ?_, hlast⟩
      have hother : Event.session (.created i session token) ≠ row.id := Ne.symm (hid row hold)
      rw [World.move_log, List.singleton_append, history_cons_of_ne hother]
      exact hchain
    · obtain rfl := List.mem_singleton.mp hnew'
      refine ⟨token, ?_, htoken⟩
      have hcons := history_cons_self (.created i session token) w.log
      rw [World.move_log, List.singleton_append]
      exact hcons ▸ hempty ▸ .login i session token
  case spent =>
    intro call id presented next now hevent
    rcases List.mem_cons.mp hevent with hbad | hold
    · cases hbad
    · obtain ⟨⟨event, hlogged, hsame⟩, hnone⟩ := h.spent call id presented next now hold
      refine ⟨⟨event, List.mem_cons_of_mem _ hlogged, hsame⟩, fun row hrow => ?_⟩
      rcases List.mem_append.mp hrow with hrow' | hnew'
      · exact hnone row hrow'
      · obtain rfl := List.mem_singleton.mp hnew'
        intro heq
        have htok : service.sha256 token = service.sha256 presented := htoken.symm.trans heq
        exact h.pending_hash_ne hdistinct hpending hlogged (hsame.trans htok.symm)
  case single =>
    intro call call' id id' presented next next' now now' hfirst hsecond
    rcases List.mem_cons.mp hfirst with hbad | hfirst
    · cases hbad
    · rcases List.mem_cons.mp hsecond with hbad | hsecond
      · cases hbad
      · exact h.single call call' id id' presented next next' now now' hfirst hsecond

/-- A refresh replaces the token it presented by a new one. -/
theorem rotated (h : Custody service w) (hdistinct : (w.generated.map service.sha256).Nodup)
    {token next : GoString} {now : Int} {session : Session} {old : Row}
    (hphase : w.calls i = .rotating token now session next) (hafter : after.pending = none)
    (hold : old ∈ w.rows)
    (hcond : rotateCond session.id (service.sha256 token) now old = true)
    (hnodup : ((Table.updateWhere (rotateCond session.id (service.sha256 token) now)
      (rotateSet (service.sha256 next) now) w.rows).map Row.refreshTokenHash).Nodup) :
    Custody service (w.move i (Table.updateWhere (rotateCond session.id (service.sha256 token) now)
      (rotateSet (service.sha256 next) now) w.rows) after []
        [.rotated i session.id token next now]) := by
  have hpending : (w.calls i).pending = some next := by rw [hphase]; rfl
  obtain ⟨hgenerated, hnew, hunique, hstored⟩ := h.pending_store
    (Table.updateWhere (rotateCond session.id (service.sha256 token) now)
      (rotateSet (service.sha256 next) now) w.rows)
    (.rotated i session.id token next now) hafter hpending
  obtain ⟨hid, holdHash, -, -⟩ := rotateCond_iff.mp hcond
  have hids : (Table.updateWhere (rotateCond session.id (service.sha256 token) now)
      (rotateSet (service.sha256 next) now) w.rows).map Row.id = w.rows.map Row.id :=
    Table.map_updateWhere _ (rotateSet_id _ _) _
  have hmem : ∀ row ∈ Table.updateWhere (rotateCond session.id (service.sha256 token) now)
      (rotateSet (service.sha256 next) now) w.rows,
        row = rotateSet (service.sha256 next) now old ∨
          (row ∈ w.rows ∧ row.id ≠ session.id ∧ row.refreshTokenHash ≠ service.sha256 token) :=
    fun row hrow => mem_rotated h.ids h.hashes hold hcond hrow
  have hnextHash : ∀ event ∈ w.log, service.sha256 event.stored ≠ service.sha256 next :=
    fun event => h.pending_hash_ne hdistinct hpending
  obtain ⟨last, hchain, hlast⟩ := h.chained old hold
  obtain ⟨lastEvent, hlastMem, rfl⟩ := hchain.stored_mem
  have hlogged := mem_of_mem_history hlastMem
  have hpresented : service.sha256 token = service.sha256 lastEvent.stored :=
    holdHash.symm.trans hlast
  constructor
  case ids => exact hids.symm ▸ h.ids
  case hashes => exact hnodup
  case pending_generated => exact hgenerated
  case pending_new => exact hnew
  case pending_unique => exact hunique
  case creating => exact fun j token session => h.creating_of_store hafter
  case stored_generated => exact hstored
  case present =>
    intro event hevent
    rcases List.mem_cons.mp hevent with rfl | hevent
    · exact ⟨_, Table.mem_updateWhere.mpr (.inl ⟨old, hold, hcond, rfl⟩), hid⟩
    · exact h.present_of_ids hids hevent
  case chained =>
    intro row hrow
    rw [World.move_log, List.singleton_append]
    rcases hmem row hrow with rfl | ⟨hrow', hne, -⟩
    · refine ⟨next, ?_, rfl⟩
      have hcons := history_cons_self (.rotated i session.id token next now) w.log
      have hsession : (rotateSet (service.sha256 next) now old).id = session.id := hid
      rw [hsession]
      exact hcons ▸ .refresh i session.id token next now (hid ▸ hchain) hpresented
    · obtain ⟨other, hchain', hother⟩ := h.chained row hrow'
      have hout : Event.session (.rotated i session.id token next now) ≠ row.id := Ne.symm hne
      exact ⟨other, by rw [history_cons_of_ne hout]; exact hchain', hother⟩
  case spent =>
    intro call id presented next' now' hevent
    rcases List.mem_cons.mp hevent with heq | hevent
    · -- The token presented here has just been replaced.
      cases heq
      refine ⟨⟨lastEvent, List.mem_cons_of_mem _ hlogged, hpresented.symm⟩, fun row hrow => ?_⟩
      rcases hmem row hrow with rfl | ⟨-, -, hhash⟩
      · intro hsame
        have hbad : service.sha256 next = service.sha256 token := hsame
        exact hnextHash lastEvent hlogged (hpresented.symm.trans hbad.symm)
      · exact hhash
    · obtain ⟨⟨event, hevent', hsame⟩, hnone⟩ := h.spent call id presented next' now' hevent
      refine ⟨⟨event, List.mem_cons_of_mem _ hevent', hsame⟩, fun row hrow => ?_⟩
      rcases hmem row hrow with rfl | ⟨hrow', -, -⟩
      · intro hbad
        have hbad' : service.sha256 next = service.sha256 presented := hbad
        exact hnextHash event hevent' (hsame.trans hbad'.symm)
      · exact hnone row hrow'
  case single =>
    -- A token that has been spent is in no row, so nobody else can rotate it.
    have hspent : ∀ call id presented next' now',
        .rotated call id presented next' now' ∈ w.log → presented ≠ token := by
      rintro call id presented next' now' hevent rfl
      exact (h.spent call id presented next' now' hevent).2 old hold holdHash
    intro call call' id id' presented next₁ next₂ now₁ now₂ hfirst hsecond
    rcases List.mem_cons.mp hfirst with heq | hfirst <;>
      rcases List.mem_cons.mp hsecond with heq' | hsecond
    · cases heq
      cases heq'
      rfl
    · cases heq
      exact absurd rfl (hspent call' id' token next₂ now₂ hsecond)
    · cases heq'
      exact absurd rfl (hspent call id token next₁ now₁ hfirst)
    · exact h.single call call' id id' presented next₁ next₂ now₁ now₂ hfirst hsecond

theorem move (h : Custody service w)
    (hdistinct : ((fresh ++ w.generated).map service.sha256).Nodup)
    (hmove : Moves service w i label (w.calls i) after rows fresh events) :
    Custody service (w.move i rows after fresh events) := by
  obtain ⟨rfl, cond, now, hrows, -⟩ | ⟨token, session, hphase, hafter, rfl, rfl, rfl, hid, hhash⟩ |
    ⟨token, now, session, next, old, hphase, hafter, rfl, rfl, rfl, hold, hcond, hnodup⟩ :=
    hmove.effect h.ids
  · exact h.keep hdistinct hmove hrows
  · exact h.created hdistinct hphase hafter hid hhash
  · exact h.rotated hdistinct hphase hafter hold hcond hnodup

/-- The tokens are kept apart in every run whose generated tokens have distinct hashes. -/
theorem of_reachable (hreach : (system service).Reachable w)
    (hdistinct : (w.generated.map service.sha256).Nodup) : Custody service w := by
  revert hdistinct
  refine hreach.invariant
    (I := fun w => (w.generated.map service.sha256).Nodup → Custody service w) ?_ ?_
  · exact fun w hinit _ => init hinit
  · intro w label w' _ ih hnext hdistinct
    cases step_of_next hnext with
    | tick hle =>
        have h := ih hdistinct
        exact ⟨h.1, h.2, h.3, h.4, h.5, h.6, h.7, h.8, h.9, h.10, h.11⟩
    | @move i _ after rows fresh events hmove =>
        rw [World.move_generated] at hdistinct
        have hprefix : (w.generated.map service.sha256).Nodup :=
          hdistinct.sublist ((List.sublist_append_right fresh w.generated).map _)
        exact (ih hprefix).move hdistinct hmove

end Custody

/-! ## Single use -/

/-- A refresh that returned tokens is in the history. -/
theorem refreshed_mem_log {service : Service} {w : World} (hreach : (system service).Reachable w) :
    ∀ i next session, w.calls i = .done (.refreshed next session) →
      ∃ presented now, .rotated i session.id presented next now ∈ w.log := by
  refine hreach.invariant (I := fun w => ∀ i next session,
    w.calls i = .done (.refreshed next session) →
      ∃ presented now, .rotated i session.id presented next now ∈ w.log) ?_ ?_
  · intro w hinit i next session hphase
    rw [hinit.2.1 i] at hphase
    cases hphase
  · intro w label w' _ ih hnext
    cases step_of_next hnext with
    | tick hle => exact ih
    | @move i _ after rows fresh events hmove =>
        intro j next session hphase
        by_cases hj : j = i
        · subst hj
          rw [World.move_calls_self] at hphase
          subst hphase
          generalize w.calls j = before at hmove
          cases hmove with
          | begun hbegins => cases label <;> simp [Label.begins] at hbegins
          | rotated => exact ⟨_, _, List.mem_cons_self⟩
          | revokedByToken hanswer | revoked hanswer => exact absurd rfl (hanswer next session)
        · rw [World.move_calls_of_ne hj] at hphase
          obtain ⟨presented, now, hlogged⟩ := ih j next session hphase
          exact ⟨presented, now, List.mem_append_right _ hlogged⟩

/-- Each raw token is the input of at most one refresh that succeeds; every row
has the hash of the token stored last; and what happened to a session is one
chain: each successful refresh presented a token with the hash of the one stored
before it, and that very token if it was a generated one. -/
theorem refresh_tokens_single_use {service : Service} {w : World}
    (hreach : (system service).Reachable w) (hdistinct : w.generated.Nodup)
    (hinjective : Set.InjOn service.sha256 {token | token ∈ w.generated}) :
    (∀ i next session, w.calls i = .done (.refreshed next session) →
      ∃ presented now, .rotated i session.id presented next now ∈ w.log) ∧
    (∀ call call' id id' presented next next' now now',
      .rotated call id presented next now ∈ w.log →
      .rotated call' id' presented next' now' ∈ w.log → call = call') ∧
    (∀ row ∈ w.rows, ∃ token,
      Chained (fun presented stored => service.SameHash presented stored ∧
        (presented ∈ w.generated → presented = stored)) (history row.id w.log) token ∧
      row.refreshTokenHash = service.sha256 token ∧ token ∈ w.generated) := by
  have h := Custody.of_reachable hreach (hdistinct.map_on fun first hfirst second hsecond heq =>
    hinjective hfirst hsecond heq)
  refine ⟨refreshed_mem_log hreach, h.single, fun row hrow => ?_⟩
  obtain ⟨token, hchain, htoken⟩ := h.chained row hrow
  have hgenerated : ∀ event ∈ history row.id w.log, event.stored ∈ w.generated :=
    fun event hevent => h.stored_generated event (mem_of_mem_history hevent)
  obtain ⟨event, hevent, rfl⟩ := hchain.stored_mem
  refine ⟨_, hchain.imp fun event hevent presented hsame => ⟨hsame, fun hmem => ?_⟩, htoken,
    hgenerated event hevent⟩
  exact hinjective hmem (hgenerated event hevent) hsame

/-- A login, then two refreshes of its token that both find the session before
either of them rotates it. -/
def racingRun : List Label :=
  let user : User := ⟨.ofNat 1, "Ada", "ada@example.org", "$argon2id$", true, "local", "", 0, 0⟩
  [.login 0 (.found user) (some true) ⟨[], []⟩ (.ofNat 2) (some [1]) true, .exec 0, .tick 1000000,
    .refresh 1 [1], .exec 1, .refresh 2 [1], .exec 2, .check 1 (.found user) (some [2]) true,
    .check 2 (.found user) (some [3]) true, .exec 2, .exec 1]

theorem refresh_tokens_single_use_racingRun :
    ∃ w, (system .sample).run (World.start 0) racingRun = some w ∧
      w.calls 1 = .done (.failed .invalidRefreshToken) ∧
      .rotated 2 (.ofNat 2) [1] [3] 1000000 ∈ w.log ∧
      ∀ call next now, .rotated call (.ofNat 2) [1] next now ∈ w.log → call = 2 := by
  have heval : ((system .sample).run (World.start 0) racingRun).map (fun w =>
      (w.generated, w.calls 1, decide (.rotated 2 (.ofNat 2) [1] [3] 1000000 ∈ w.log))) =
        some ([[3], [2], [1]], .done (.failed .invalidRefreshToken), true) := by
    decide +kernel
  obtain ⟨w, hrun, hw⟩ := Option.map_eq_some_iff.mp heval
  simp only [Prod.mk.injEq, decide_eq_true_eq] at hw
  obtain ⟨hgenerated, hloser, hwinner⟩ := hw
  have hdistinct : w.generated.Nodup := by
    rw [hgenerated]
    decide
  have hinjective : Set.InjOn Service.sample.sha256 {token | token ∈ w.generated} := by
    have hall : ∀ first ∈ [[3], [2], [1]], ∀ second ∈ [[3], [2], [1]],
        Service.sample.sha256 first = Service.sample.sha256 second → first = second := by
      decide +kernel
    intro first hfirst second hsecond
    exact hall first (hgenerated ▸ hfirst) second (hgenerated ▸ hsecond)
  have hsingle := (refresh_tokens_single_use
    ((System.Reachable.init (init_start .sample 0)).run hrun) hdistinct hinjective).2.1
  exact ⟨w, hrun, hloser, hwinner, fun call next now hevent =>
    hsingle call 2 _ _ _ next _ now _ hevent hwinner⟩

end GoFoundation.Sessions
