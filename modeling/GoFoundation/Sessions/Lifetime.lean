/-
# Revocation is final and a session's lifetime is absolute

Every statement that rewrites a row asks for `revoked_at IS NULL`, so a revoked
row is never rewritten again, and the rotation of a refresh that found it before
misses it.  No statement writes the columns of the login.

That a session is not used before it was created is about time captured earlier:
a refresh reads the clock before it looks its token up.  It holds as long as
nobody presents a token before it is generated.
-/

import GoFoundation.Sessions.Chain

namespace GoFoundation.Sessions

open Library Postgres Grpc Users

/-! ## Rows before and after a move -/

section Moves

variable {service : Service} {w : World} {i : Nat} {label : Label} {before after : Phase}
  {rows : List Row} {fresh : List GoString} {events : List Event}

/-- A revoked row stays as it is. -/
theorem Moves.mem_of_revoked (hmove : Moves service w i label before after rows fresh events)
    (hids : (w.rows.map Row.id).Nodup) {row : Row} (hrow : row ∈ w.rows)
    (hrevoked : row.revokedAt ≠ none) : row ∈ rows := by
  obtain ⟨-, cond, now, rfl, hcond⟩ | ⟨token, session, -, -, -, -, rfl, -⟩ |
    ⟨token, now, session, next, old, -, -, -, -, rfl, -⟩ := hmove.effect hids
  · refine Table.mem_updateWhere.mpr (.inr ⟨hrow, ?_⟩)
    exact Bool.eq_false_iff.mpr fun htrue => hrevoked (hcond row htrue)
  · exact List.mem_append_left _ hrow
  · refine Table.mem_updateWhere.mpr (.inr ⟨hrow, ?_⟩)
    exact Bool.eq_false_iff.mpr fun htrue => hrevoked (rotateCond_iff.mp htrue).2.2.1

/-- Every row stays, with the columns of its login. -/
theorem Moves.exists_sameLogin (hmove : Moves service w i label before after rows fresh events)
    (hids : (w.rows.map Row.id).Nodup) {row : Row} (hrow : row ∈ w.rows) :
    ∃ row' ∈ rows, row'.SameLogin row := by
  have hupdate : ∀ (cond : Row → Bool) (set : Row → Row), (∀ row, (set row).SameLogin row) →
      ∃ row' ∈ Table.updateWhere cond set w.rows, row'.SameLogin row := by
    intro cond set hset
    cases hcond : cond row with
    | true => exact ⟨set row, Table.mem_updateWhere.mpr (.inl ⟨row, hrow, hcond, rfl⟩), hset row⟩
    | false => exact ⟨row, Table.mem_updateWhere.mpr (.inr ⟨hrow, hcond⟩), .refl row⟩
  obtain ⟨-, cond, now, rfl, -⟩ | ⟨token, session, -, -, -, -, rfl, -⟩ |
    ⟨token, now, session, next, old, -, -, -, -, rfl, -⟩ := hmove.effect hids
  · exact hupdate cond _ (revokeSet_sameLogin now)
  · exact ⟨row, List.mem_append_left _ hrow, .refl row⟩
  · exact hupdate _ _ (rotateSet_sameLogin _ _)

/-- Where a row after the move comes from: it is an old one up to a revocation,
the one that a login adds, or the one that a refresh rewrites. -/
theorem Moves.origin (hmove : Moves service w i label before after rows fresh events)
    (hids : (w.rows.map Row.id).Nodup) {row : Row} (hrow : row ∈ rows) :
    (∃ old ∈ w.rows, row.SameLogin old ∧ row.refreshTokenHash = old.refreshTokenHash ∧
      row.lastUsedAt = old.lastUsedAt) ∨
    (∃ token session, before = .creating token session ∧ row = session.toRow ∧
      .created i session token ∈ events) ∨
    (∃ token now session next, ∃ old ∈ w.rows, before = .rotating token now session next ∧
      rotateCond session.id (service.sha256 token) now old = true ∧
      row = rotateSet (service.sha256 next) now old) := by
  obtain ⟨-, cond, now, rfl, -⟩ | ⟨token, session, hbefore, -, -, rfl, rfl, -⟩ |
    ⟨token, now, session, next, old, hbefore, -, -, -, rfl, -⟩ := hmove.effect hids
  · rcases Table.mem_updateWhere.mp hrow with ⟨old, hold, -, rfl⟩ | ⟨hold, -⟩
    · exact .inl ⟨old, hold, revokeSet_sameLogin now old, rfl, rfl⟩
    · exact .inl ⟨row, hold, .refl row, rfl, rfl⟩
  · rcases List.mem_append.mp hrow with hold | hnew
    · exact .inl ⟨row, hold, .refl row, rfl, rfl⟩
    · exact .inr (.inl ⟨token, session, hbefore, List.mem_singleton.mp hnew, by simp⟩)
  · rcases Table.mem_updateWhere.mp hrow with ⟨old', hold', hcond', rfl⟩ | ⟨hold', -⟩
    · exact .inr (.inr ⟨token, now, session, next, old', hold', hbefore, hcond', rfl⟩)
    · exact .inl ⟨row, hold', .refl row, rfl, rfl⟩

end Moves

/-! ## The invariant -/

/-- The copy of a session that a refresh holds. -/
def Phase.holds : Phase → Option Session
  | checking _ _ session => some session
  | rotating _ _ session _ => some session
  | _ => none

/-- The table keeps its keys and what each login wrote. -/
structure Kept (service : Service) (w : World) : Prop where
  ids : (w.rows.map Row.id).Nodup
  hashes : (w.rows.map Row.refreshTokenHash).Nodup
  creating : ∀ i token session, w.calls i = .creating token session →
    session.expiresAt = session.createdAt + service.refreshTTL
  login : ∀ row ∈ w.rows, ∃ call session token, .created call session token ∈ w.log ∧
    row.SameLogin session.toRow ∧ session.expiresAt = session.createdAt + service.refreshTTL
  /-- A copy is of a row that is still there. -/
  held : ∀ i session, (w.calls i).holds = some session →
    ∃ row ∈ w.rows, row.id = session.id ∧ row.createdAt = session.createdAt
  used : ∀ row ∈ w.rows, ∀ used, row.lastUsedAt = some used → used < row.expiresAt
  rotated : ∀ call id presented next now, .rotated call id presented next now ∈ w.log →
    ∃ row ∈ w.rows, row.id = id ∧ toTimestamptz now < row.expiresAt

namespace Kept

variable {service : Service} {w : World} {i : Nat} {label : Label} {after : Phase}
  {rows : List Row} {fresh : List GoString} {events : List Event}

theorem init (hinit : (system service).init w) : Kept service w := by
  obtain ⟨hrows, hidle, hgenerated, hlog⟩ := hinit
  constructor <;> simp [hrows, hidle, hlog, Phase.holds]

/-- The keys stay unique: the database refuses an insert or a rotation that
would break them. -/
theorem keys_move (h : Kept service w)
    (hmove : Moves service w i label (w.calls i) after rows fresh events) :
    (rows.map Row.id).Nodup ∧ (rows.map Row.refreshTokenHash).Nodup := by
  obtain ⟨-, cond, now, rfl, -⟩ | ⟨token, session, -, -, -, -, rfl, hid, hhash⟩ |
    ⟨token, now, session, next, old, -, -, -, -, rfl, -, -, hnodup⟩ := hmove.effect h.ids
  · rw [Table.map_updateWhere _ (revokeSet_id now),
      Table.map_updateWhere _ (revokeSet_refreshTokenHash now)]
    exact ⟨h.ids, h.hashes⟩
  · exact ⟨Table.nodup_map_append h.ids hid, Table.nodup_map_append h.hashes hhash⟩
  · rw [Table.map_updateWhere _ (rotateSet_id _ now)]
    exact ⟨h.ids, hnodup⟩

/-- What holds of a row's id and login columns holds after the move. -/
theorem exists_move (h : Kept service w)
    (hmove : Moves service w i label (w.calls i) after rows fresh events) {row : Row}
    (hrow : row ∈ w.rows) : ∃ row' ∈ rows, row'.id = row.id ∧ row'.createdAt = row.createdAt ∧
      row'.expiresAt = row.expiresAt := by
  obtain ⟨row', hrow', hsame⟩ := hmove.exists_sameLogin h.ids hrow
  exact ⟨row', hrow', hsame.id, hsame.createdAt, hsame.expiresAt⟩

/-- A call comes to hold a copy by finding its row. -/
theorem held_after (h : Kept service w)
    (hmove : Moves service w i label (w.calls i) after rows fresh events) {session : Session}
    (hholds : after.holds = some session) :
    ∃ row ∈ w.rows, row.id = session.id ∧ row.createdAt = session.createdAt := by
  generalize hbefore : w.calls i = before at hmove
  cases hmove with
  | begun hbegins =>
      cases label <;> simp [Label.begins] at hbegins <;> obtain ⟨-, rfl⟩ := hbegins <;>
        cases hholds
  | found hrow hhash hrevoked hexpires =>
      cases hholds
      exact ⟨_, hrow, rfl, rfl⟩
  | rotates =>
      cases hholds
      exact h.held i session (by rw [hbefore]; rfl)
  | _ => cases hholds

theorem move (h : Kept service w)
    (hmove : Moves service w i label (w.calls i) after rows fresh events) :
    Kept service (w.move i rows after fresh events) := by
  constructor
  case ids => exact (h.keys_move hmove).1
  case hashes => exact (h.keys_move hmove).2
  case creating =>
    intro j token session hphase
    rcases hmove.of_creating hphase with hold | ⟨_, _, _, _, _, _, -, rfl⟩
    · exact h.creating j token session hold
    · rfl
  case login =>
    intro row hrow
    -- A row that was there keeps its login; a new one has the session just created.
    have hkept : ∀ old ∈ w.rows, row.SameLogin old → ∃ call session token,
        .created call session token ∈ events ++ w.log ∧ row.SameLogin session.toRow ∧
          session.expiresAt = session.createdAt + service.refreshTTL := by
      intro old hold hsame
      obtain ⟨call, session, token, hlogged, hlogin, httl⟩ := h.login old hold
      exact ⟨call, session, token, List.mem_append_right _ hlogged, hsame.trans hlogin, httl⟩
    obtain ⟨old, hold, hsame, -, -⟩ | ⟨token, session, hbefore, rfl, hevent⟩ |
      ⟨token, now, session, next, old, hold, -, -, rfl⟩ := hmove.origin h.ids hrow
    · exact hkept old hold hsame
    · exact ⟨i, session, token, List.mem_append_left _ hevent, .refl _,
        h.creating i token session hbefore⟩
    · exact hkept old hold (rotateSet_sameLogin _ _ _)
  case held =>
    intro j session hholds
    have hold : ∃ row ∈ w.rows, row.id = session.id ∧ row.createdAt = session.createdAt := by
      by_cases hj : j = i
      · subst hj
        rw [World.move_calls_self] at hholds
        exact h.held_after hmove hholds
      · rw [World.move_calls_of_ne hj] at hholds
        exact h.held j session hholds
    obtain ⟨row, hrow, hid, hcreated⟩ := hold
    obtain ⟨row', hrow', hid', hcreated', -⟩ := h.exists_move hmove hrow
    exact ⟨row', hrow', hid'.trans hid, hcreated'.trans hcreated⟩
  case used =>
    intro row hrow used hused
    obtain ⟨old, hold, hsame, -, hlast⟩ | ⟨token, session, -, rfl, -⟩ |
      ⟨token, now, session, next, old, hold, -, hcond, rfl⟩ := hmove.origin h.ids hrow
    · rw [hsame.expiresAt]
      exact h.used old hold used (hlast ▸ hused)
    · cases hused
    · cases hused
      exact (rotateCond_iff.mp hcond).2.2.2
  case rotated =>
    intro call id presented next now hevent
    have hold : ∃ row ∈ w.rows, row.id = id ∧ toTimestamptz now < row.expiresAt := by
      rcases List.mem_append.mp hevent with hnew | hlogged
      · obtain ⟨rfl, -⟩ | ⟨token, session, -, -, -, rfl, -⟩ |
          ⟨token, now', session, next', old, -, -, -, rfl, -, hold, hcond, -⟩ :=
          hmove.effect h.ids
        · cases hnew
        · cases List.mem_singleton.mp hnew
        · cases List.mem_singleton.mp hnew
          obtain ⟨hid, -, -, hexpires⟩ := rotateCond_iff.mp hcond
          exact ⟨old, hold, hid, hexpires⟩
      · exact h.rotated call id presented next now hlogged
    obtain ⟨row, hrow, hid, hexpires⟩ := hold
    obtain ⟨row', hrow', hid', -, hexpires'⟩ := h.exists_move hmove hrow
    exact ⟨row', hrow', hid'.trans hid, hexpires'.symm ▸ hexpires⟩

/-- The invariant holds in every run. -/
theorem of_reachable (hreach : (system service).Reachable w) : Kept service w := by
  apply hreach.invariant (I := Kept service) (fun w hinit => init hinit)
  intro w label w' _ ih hnext
  cases step_of_next hnext with
  | tick hle => exact ⟨ih.1, ih.2, ih.3, ih.4, ih.5, ih.6, ih.7⟩
  | move hmove => exact ih.move hmove

end Kept

/-! ## Revocation -/

section Revocation

variable {service : Service} {w w' : World}

/-- The rotation of a session that has no active row changes nothing and fails. -/
theorem next_exec_rotating (h : Kept service w) {i : Nat} {token next : GoString} {now : Int}
    {session : Session} (hphase : w.calls i = .rotating token now session next)
    (hdead : ∀ row ∈ w.rows, row.id = session.id → row.active now = false) :
    (system service).next w (.exec i) = some (w.answer i (.failed .invalidRefreshToken)) := by
  have hmiss : ∀ row ∈ w.rows,
      rotateCond session.id (service.sha256 token) now row = false := by
    intro row hrow
    by_contra hcond
    rw [Bool.not_eq_false, rotateCond_iff] at hcond
    have hactive := Row.active_iff.mpr hcond.2.2
    rw [hdead row hrow hcond.1] at hactive
    cases hactive
  have hcount : w.rows.countP (rotateCond session.id (service.sha256 token) now) = 0 :=
    List.countP_eq_zero.mpr fun row hrow => by simp [hmiss row hrow]
  have hrotate : rotateToken w.rows session.id (service.sha256 token) (service.sha256 next) now =
      some (w.rows, 0) := by
    rw [rotateToken, Table.updateWhere_eq_self hmiss, if_pos h.hashes, hcount]
  have hexec : (system service).next w (.exec i) = w.exec service i (w.calls i) := rfl
  rw [hexec, hphase]
  simp only [World.exec, hrotate]
  rfl

theorem next_exec_listing {i : Nat} {userID : UUID} {now : Int}
    (hphase : w.calls i = .listing userID now) :
    (system service).next w (.exec i) =
      some (w.answer i (.listed (listActiveByUser w.rows userID now))) := by
  have hexec : (system service).next w (.exec i) = w.exec service i (w.calls i) := rfl
  rw [hexec, hphase]
  rfl

/-- Rows survive a run with the columns of their login, revoked rows as they are. -/
theorem row_after_run (hreach : (system service).Reachable w) {row : Row} (hrow : row ∈ w.rows)
    {labels : List Label} (hrun : (system service).run w labels = some w') :
    (∃ row' ∈ w'.rows, row'.SameLogin row) ∧ (row.revokedAt ≠ none → row ∈ w'.rows) := by
  have hstep : ∀ w label w', ((system service).Reachable w ∧
        (∃ row' ∈ w.rows, row'.SameLogin row) ∧ (row.revokedAt ≠ none → row ∈ w.rows)) →
      (system service).next w label = some w' →
        (system service).Reachable w' ∧
          (∃ row' ∈ w'.rows, row'.SameLogin row) ∧ (row.revokedAt ≠ none → row ∈ w'.rows) := by
    rintro w label w' ⟨hprior, ⟨mid, hmid, hsame⟩, hkept⟩ hnext
    have hids := (Kept.of_reachable hprior).ids
    refine ⟨hprior.step hnext, ?_⟩
    cases step_of_next hnext with
    | tick hle => exact ⟨⟨mid, hmid, hsame⟩, hkept⟩
    | move hmove =>
        obtain ⟨last, hlast, hlogin⟩ := hmove.exists_sameLogin hids hmid
        refine ⟨⟨last, hlast, hlogin.trans hsame⟩, fun hrevoked => ?_⟩
        exact hmove.mem_of_revoked hids (hkept hrevoked) hrevoked
  exact (System.run_preserves hstep hrun ⟨hreach, ⟨row, hrow, .refl row⟩, fun _ => hrow⟩).2

/-- A row that was revoked, seen from a later state: it is the row of its session
still, no rotation of the session succeeds, and no list has it. -/
structure StaysRevoked (service : Service) (row : Row) (w : World) : Prop where
  kept : row ∈ w.rows
  only : ∀ row' ∈ w.rows, row'.id = row.id → row' = row
  refused : ∀ i token now session next, w.calls i = .rotating token now session next →
    session.id = row.id →
      (system service).next w (.exec i) = some (w.answer i (.failed .invalidRefreshToken))
  unlisted : ∀ i userID now, w.calls i = .listing userID now →
    ∃ sessions, (system service).next w (.exec i) = some (w.answer i (.listed sessions)) ∧
      ∀ session ∈ sessions, session.id ≠ row.id

/-- Once revoked, in every later state of every run. -/
theorem staysRevoked_of_run (hreach : (system service).Reachable w) {row : Row}
    (hrow : row ∈ w.rows) (hrevoked : row.revokedAt ≠ none) {labels : List Label}
    (hrun : (system service).run w labels = some w') : StaysRevoked service row w' := by
  have h := Kept.of_reachable (hreach.run hrun)
  have hkept := (row_after_run hreach hrow hrun).2 hrevoked
  have honly : ∀ row' ∈ w'.rows, row'.id = row.id → row' = row := fun row' hrow' hid =>
    Table.eq_of_key_eq h.ids hrow' hkept hid
  constructor
  case kept => exact hkept
  case only => exact honly
  case refused =>
    intro i token now session next hphase hid
    apply next_exec_rotating h hphase
    intro row' hrow' hid'
    obtain rfl := honly row' hrow' (hid'.trans hid)
    exact Bool.eq_false_iff.mpr fun hactive => hrevoked (Row.active_iff.mp hactive).1
  case unlisted =>
    intro i userID now hphase
    refine ⟨_, next_exec_listing hphase, fun session hlisted hid => ?_⟩
    obtain ⟨row', hrow', hid', -, hnone, -⟩ := mem_listActiveByUser hlisted
    obtain rfl := honly row' hrow' (hid'.trans hid)
    exact hrevoked hnone

end Revocation

/-! ## A session is not used before it is created -/

/-- The token that a call presents, with the time it has captured. -/
def Phase.presents : Phase → Option (GoString × Int)
  | finding token now => some (token, now)
  | checking token now _ => some (token, now)
  | rotating token now _ _ => some (token, now)
  | _ => none

/-- The token that the random source yields in a step. -/
def Label.generates : Label → Option GoString
  | login _ _ _ _ _ token _ => token
  | check _ _ next _ => next
  | _ => none

/-- What the server relies on `crypto/rand` for: a generated token is not one
that somebody has presented already. -/
def Unguessed (service : Service) (w : World) (label : Label) : Prop :=
  ∀ token, label.generates = some token → ∀ i presented now,
    (w.calls i).presents = some (presented, now) →
      service.sha256 presented ≠ service.sha256 token

/-- The hashes by which a session is found or will be found once a call in flight
has executed its statement, with the time the session was created. -/
inductive Offers (service : Service) (w : World) : Bytes → Int → Prop
  | row {row : Row} (hrow : row ∈ w.rows) : Offers service w row.refreshTokenHash row.createdAt
  | creating {i : Nat} {token : GoString} {session : Session}
      (hphase : w.calls i = .creating token session) :
      Offers service w session.toRow.refreshTokenHash session.toRow.createdAt
  | rotating {i : Nat} {token next : GoString} {now : Int} {session : Session}
      (hphase : w.calls i = .rotating token now session next) :
      Offers service w (service.sha256 next) session.createdAt

/-- Whoever presents a token captured the time after the session it finds was created. -/
structure Timely (service : Service) (w : World) : Prop where
  offered : ∀ hash createdAt, Offers service w hash createdAt →
    createdAt ≤ toTimestamptz w.clock
  presented : ∀ i token now, (w.calls i).presents = some (token, now) →
    ∀ createdAt, Offers service w (service.sha256 token) createdAt →
      createdAt ≤ toTimestamptz now
  used : ∀ row ∈ w.rows, ∀ used, row.lastUsedAt = some used → row.createdAt ≤ used

namespace Timely

variable {service : Service} {w : World} {i : Nat} {label : Label} {after : Phase}
  {rows : List Row} {fresh : List GoString} {events : List Event}

theorem init (hinit : (system service).init w) : Timely service w := by
  obtain ⟨hrows, hidle, -, -⟩ := hinit
  constructor
  case offered =>
    intro hash createdAt hoffer
    cases hoffer with
    | row hrow => simp [hrows] at hrow
    | creating hphase | rotating hphase => simp [hidle] at hphase
  case presented => simp [hidle, Phase.presents]
  case used => simp [hrows]

/-- A call begins to present a token at the time it captures. -/
theorem presents_after {before : Phase}
    (hmove : Moves service w i label before after rows fresh events) {token : GoString}
    {now : Int} (hpresents : after.presents = some (token, now)) :
    before.presents = some (token, now) ∨ (label = .refresh i token ∧ now = w.clock) := by
  cases hmove with
  | begun hbegins =>
      cases label <;> simp [Label.begins] at hbegins <;> obtain ⟨rfl, rfl⟩ := hbegins <;>
        cases hpresents
      exact .inr ⟨rfl, rfl⟩
  | found | rotates => exact .inl hpresents
  | _ => cases hpresents

/-- A hash is offered after a move only if it was before, or the call has just
generated its token. -/
theorem offers_of_move (h : Timely service w) (hkept : Kept service w)
    (hmove : Moves service w i label (w.calls i) after rows fresh events) {hash : Bytes}
    {createdAt : Int} (hoffer : Offers service (w.move i rows after fresh events) hash createdAt) :
    Offers service w hash createdAt ∨
      (∃ token, label.generates = some token ∧ hash = service.sha256 token) ∧
        createdAt ≤ toTimestamptz w.clock := by
  cases hoffer with
  | @row row hrow =>
      obtain ⟨old, hold, hsame, hhash, -⟩ | ⟨token, session, hbefore, rfl, -⟩ |
        ⟨token, now, session, next, old, hold, hbefore, hcond, rfl⟩ := hmove.origin hkept.ids hrow
      · rw [hhash, hsame.createdAt]
        exact .inl (.row hold)
      · exact .inl (.creating hbefore)
      · -- The refresh rewrites the row of which it holds a copy.
        obtain ⟨row', hrow', hid', hcreated⟩ := hkept.held i session (by rw [hbefore]; rfl)
        have hrowid : row'.id = old.id := hid'.trans (rotateCond_iff.mp hcond).1.symm
        obtain rfl := Table.eq_of_key_eq hkept.ids hrow' hold hrowid
        exact .inl (hcreated ▸ .rotating hbefore)
  | @creating j token session hphase =>
      rcases hmove.of_creating hphase with hold | ⟨_, _, _, _, _, _, rfl, rfl⟩
      · exact .inl (.creating hold)
      · exact .inr ⟨⟨token, rfl, rfl⟩, le_rfl⟩
  | @rotating j token next now session hphase =>
      by_cases hj : j = i
      · subst hj
        rw [World.move_calls_self] at hphase
        subst hphase
        generalize hbefore : w.calls j = before at hmove
        cases hmove with
        | begun hbegins => cases label <;> simp [Label.begins] at hbegins
        | rotates =>
            obtain ⟨row, hrow, -, hcreated⟩ := hkept.held j session (by rw [hbefore]; rfl)
            exact .inr ⟨⟨next, rfl, rfl⟩, hcreated ▸ h.offered _ _ (.row hrow)⟩
      · rw [World.move_calls_of_ne hj] at hphase
        exact .inl (.rotating hphase)

theorem move (h : Timely service w) (hkept : Kept service w)
    (hunguessed : Unguessed service w label)
    (hmove : Moves service w i label (w.calls i) after rows fresh events) :
    Timely service (w.move i rows after fresh events) := by
  have hoffered : ∀ hash createdAt, Offers service (w.move i rows after fresh events) hash
      createdAt → createdAt ≤ toTimestamptz w.clock := by
    intro hash createdAt hoffer
    rcases h.offers_of_move hkept hmove hoffer with hold | ⟨-, hle⟩
    · exact h.offered hash createdAt hold
    · exact hle
  constructor
  case offered => exact hoffered
  case presented =>
    intro j token now hpresents createdAt hoffer
    have hbefore : (w.calls j).presents = some (token, now) ∨ now = w.clock := by
      by_cases hj : j = i
      · subst hj
        rw [World.move_calls_self] at hpresents
        exact (presents_after hmove hpresents).imp_right And.right
      · rw [World.move_calls_of_ne hj] at hpresents
        exact .inl hpresents
    rcases hbefore with hold | rfl
    · -- A token presented before the move is not one that the move generates.
      rcases h.offers_of_move hkept hmove hoffer with hprior | ⟨⟨fresh', hfresh, heq⟩, -⟩
      · exact h.presented j token now hold createdAt hprior
      · exact absurd heq (hunguessed fresh' hfresh j token now hold)
    · exact hoffered _ createdAt hoffer
  case used =>
    intro row hrow used hused
    obtain ⟨old, hold, hsame, -, hlast⟩ | ⟨token, session, -, rfl, -⟩ |
      ⟨token, now, session, next, old, hold, hbefore, hcond, rfl⟩ := hmove.origin hkept.ids hrow
    · rw [hsame.createdAt]
      exact h.used old hold used (hlast ▸ hused)
    · cases hused
    · cases hused
      have hhash := (rotateCond_iff.mp hcond).2.1
      have hpresents : (w.calls i).presents = some (token, now) := by rw [hbefore]; rfl
      exact h.presented i token now hpresents old.createdAt (hhash ▸ .row hold)

/-- The invariant holds in every run in which no token is guessed. -/
theorem of_reachableBy (hreach : (system service).ReachableBy (Unguessed service) w) :
    Timely service w := by
  apply hreach.invariant (I := Timely service) (fun w hinit => init hinit)
  intro w label w' hprior ih hunguessed hnext
  cases step_of_next hnext with
  | @tick time hle =>
      have hoffers : ∀ hash createdAt, Offers service { w with clock := time } hash createdAt →
          Offers service w hash createdAt := by
        intro hash createdAt hoffer
        cases hoffer with
        | row hrow => exact .row hrow
        | creating hphase => exact .creating hphase
        | rotating hphase => exact .rotating hphase
      constructor
      case offered =>
        intro hash createdAt hoffer
        exact (ih.offered hash createdAt (hoffers hash createdAt hoffer)).trans
          (toTimestamptz_mono hle)
      case presented =>
        intro i token now hpresents createdAt hoffer
        exact ih.presented i token now hpresents createdAt (hoffers _ createdAt hoffer)
      case used => exact ih.used
  | move hmove => exact ih.move (Kept.of_reachable hprior.reachable) hunguessed hmove

end Timely

/-! ## The results together -/

/-- The row of a session against the login that created it. -/
structure Row.Absolute (service : Service) (row : Row) (w : World) : Prop where
  /-- The columns of the login are the stored values of what `Login` wrote. -/
  login : ∃ call session token, .created call session token ∈ w.log ∧
    row.SameLogin session.toRow ∧ session.expiresAt = session.createdAt + service.refreshTTL
  ttl : service.refreshTTL % 1000 = 0 → row.expiresAt = row.createdAt + service.refreshTTL
  used_lt : ∀ used, row.lastUsedAt = some used → used < row.expiresAt
  le_used : (system service).ReachableBy (Unguessed service) w →
    ∀ used, row.lastUsedAt = some used → row.createdAt ≤ used

theorem absolute_of_reachable {service : Service} {w : World}
    (hreach : (system service).Reachable w) {row : Row} (hrow : row ∈ w.rows) :
    row.Absolute service w := by
  have h := Kept.of_reachable hreach
  obtain ⟨call, session, token, hlogged, hsame, hexpires⟩ := h.login row hrow
  constructor
  case login => exact ⟨call, session, token, hlogged, hsame, hexpires⟩
  case ttl =>
    intro hwhole
    calc row.expiresAt = toTimestamptz (session.createdAt + service.refreshTTL) := by
          rw [hsame.expiresAt, ← hexpires]
          rfl
      _ = toTimestamptz session.createdAt + service.refreshTTL := toTimestamptz_add hwhole
      _ = row.createdAt + service.refreshTTL := by
          rw [hsame.createdAt]
          rfl
  case used_lt => exact h.used row hrow
  case le_used => exact fun hunguessed => (Timely.of_reachableBy hunguessed).used row hrow

/-- Revocation is final, and refreshes neither outlive nor extend a session.  In
every state of every run: a row keeps the columns of its login in all later
states, and a revoked row stays revoked; every row is that of a login, with the
login's expiry; and a refresh that succeeded had captured a time before the
expiry of its session. -/
theorem revocation_final_lifetime_absolute {service : Service} {w : World}
    (hreach : (system service).Reachable w) :
    (∀ row ∈ w.rows, ∀ labels w', (system service).run w labels = some w' →
      (∃ row' ∈ w'.rows, row'.SameLogin row) ∧
      (row.revokedAt ≠ none → StaysRevoked service row w')) ∧
    (∀ row ∈ w.rows, row.Absolute service w) ∧
    (∀ i next session, w.calls i = .done (.refreshed next session) →
      ∃ presented now, .rotated i session.id presented next now ∈ w.log ∧
        ∃ row ∈ w.rows, row.id = session.id ∧ now < row.expiresAt) := by
  have h := Kept.of_reachable hreach
  refine ⟨?_, fun row => absolute_of_reachable hreach, ?_⟩
  · intro row hrow labels w' hrun
    exact ⟨(row_after_run hreach hrow hrun).1,
      fun hrevoked => staysRevoked_of_run hreach hrow hrevoked hrun⟩
  · intro i next session hdone
    obtain ⟨presented, now, hlogged⟩ := refreshed_mem_log hreach i next session hdone
    obtain ⟨row, hrow, hid, hexpires⟩ := h.rotated i session.id presented next now hlogged
    obtain ⟨call, login, token, -, hsame, -⟩ := h.login row hrow
    -- The statement compares the stored time, the service the captured one.
    have hstored : IsTimestamptz row.expiresAt := by
      rw [hsame.expiresAt]
      exact isTimestamptz_toTimestamptz _
    refine ⟨presented, now, hlogged, row, hrow, hid, ?_⟩
    exact Int.not_le.mp fun hle =>
      absurd hexpires (Int.not_lt.mpr ((le_toTimestamptz_iff hstored).mpr hle))

/-! ## A run -/

/-- Clients present tokens they may have been handed, and the tokens generated
have distinct hashes. -/
def inOrder (service : Service) (w : World) : Label → Bool
  | .refresh _ token => w.generated.any fun old => old = token
  | label => label.generates.all fun token =>
      w.generated.all fun old => service.sha256 old ≠ service.sha256 token

/-- In such a run no token is guessed. -/
theorem unguessed_of_inOrder {service : Service} {w : World} {label : Label}
    (hreach : ((system service).restrict (inOrder service)).Reachable w)
    (horder : inOrder service w label = true) : Unguessed service w label := by
  have hpresented : ∀ i token now, (w.calls i).presents = some (token, now) →
      token ∈ w.generated := by
    refine hreach.invariant (I := fun w => ∀ i token now,
      (w.calls i).presents = some (token, now) → token ∈ w.generated) ?_ ?_
    · intro w hinit i token now hpresents
      rw [hinit.2.1 i] at hpresents
      cases hpresents
    · intro w label w' _ ih hnext
      obtain ⟨horder, hnext⟩ := Option.ite_none_right_eq_some.mp hnext
      cases step_of_next hnext with
      | tick hle => exact ih
      | @move i _ after rows fresh events hmove =>
          intro j token now hpresents
          apply List.mem_append_right _
          by_cases hj : j = i
          · subst hj
            rw [World.move_calls_self] at hpresents
            rcases Timely.presents_after hmove hpresents with hold | ⟨rfl, -⟩
            · exact ih j token now hold
            · simpa [inOrder] using horder
          · rw [World.move_calls_of_ne hj] at hpresents
            exact ih j token now hpresents
  intro token hgenerates i presented now hpresents
  have hold := hpresented i presented now hpresents
  cases label with
  | login | check =>
      simp only [inOrder, hgenerates, Option.all_some, List.all_eq_true] at horder
      simpa using horder presented hold
  | _ => cases hgenerates

/-- A session is refreshed; a second refresh has found it when a logout revokes it. -/
def loggedOutRun : List Label :=
  let user : User := ⟨.ofNat 1, "Ada", "ada@example.org", "$argon2id$", true, "local", "", 0, 0⟩
  [.login 0 (.found user) (some true) ⟨[], []⟩ (.ofNat 2) (some [1]) true, .exec 0, .tick 1000000,
    .refresh 1 [1], .exec 1, .check 1 (.found user) (some [2]) true, .exec 1, .tick 2000000,
    .refresh 2 [2], .exec 2, .check 2 (.found user) (some [3]) true, .logout 3 [2], .exec 3]

/-- The row that the run leaves. -/
def loggedOutRow : Row where
  id := .ofNat 2
  userID := .ofNat 1
  refreshTokenHash := Service.sample.sha256 [2]
  userAgent := none
  clientIP := none
  createdAt := 0
  lastUsedAt := some 1000000
  expiresAt := 2592000000000000
  revokedAt := some 2000000

theorem revocation_final_loggedOutRun :
    ∃ w, ((system .sample).restrict (inOrder .sample)).run (World.start 0) loggedOutRun = some w ∧
      w.rows = [loggedOutRow] ∧
      (system .sample).next w (.exec 2) = some (w.answer 2 (.failed .invalidRefreshToken)) ∧
      loggedOutRow.createdAt ≤ 1000000 ∧ 1000000 < loggedOutRow.expiresAt := by
  have heval : (((system .sample).restrict (inOrder .sample)).run (World.start 0)
      loggedOutRun).map (fun w => (w.rows, w.calls 2)) = some ([loggedOutRow],
        .rotating [2] 2000000 { loggedOutRow.toSession with revokedAt := none } [3]) := by
    decide +kernel
  obtain ⟨w, hrun, hw⟩ := Option.map_eq_some_iff.mp heval
  obtain ⟨hrows, hphase⟩ := Prod.mk.inj hw
  have hunguessed : (system .sample).ReachableBy (Unguessed .sample) w :=
    System.ReachableBy.run_restrict (fun w label => unguessed_of_inOrder)
      (init_start .sample 0) hrun
  have hrow : loggedOutRow ∈ w.rows := hrows ▸ List.mem_singleton_self _
  obtain ⟨hlater, habsolute, -⟩ := revocation_final_lifetime_absolute hunguessed.reachable
  obtain ⟨-, hrevoked⟩ := hlater loggedOutRow hrow [] w rfl
  refine ⟨w, hrun, hrows, (hrevoked (by decide)).refused 2 _ _ _ _ hphase rfl, ?_⟩
  exact ⟨(habsolute loggedOutRow hrow).le_used hunguessed _ rfl,
    (habsolute loggedOutRow hrow).used_lt _ rfl⟩

end GoFoundation.Sessions
