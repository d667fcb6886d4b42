/-
# Calls that fail

`Login` and `Refresh` do all that can fail before the one statement that writes, and
that statement is the last.  So a call that returns an error has not touched the table,
and a client whose refresh failed still has a token that works.  The exception is
deliberate: a refresh for a user who may no longer log in revokes the session.

Beside other calls the same holds of the steps of the one that fails.
-/

import GoFoundation.Sessions.Service

namespace GoFoundation.Sessions

open Library Postgres Grpc Users Server

/-! ## Whole calls -/

/-- The user exists and may have sessions. -/
def Usable (users : List User) (id : UUID) : Prop :=
  ∃ user, getByID users id.text = .found user ∧ user.enabled = true ∧ user.authProvider = "local"

/-- The unique columns of `auth_sessions`. -/
structure Keys (rows : List Row) : Prop where
  ids : (rows.map Row.id).Nodup
  hashes : (rows.map Row.refreshTokenHash).Nodup

/-- The database refuses what would break them, so that they hold after any run. -/
theorem Keys.of_reachable {service : Service} {w : World}
    (hreach : (system service).Reachable w) : Keys w.rows :=
  ⟨(Kept.of_reachable hreach).ids, (Kept.of_reachable hreach).hashes⟩

/-- The token presented is that of the row, which is active. -/
structure Presented (service : Service) (rows : List Row) (token : GoString) (now : Int)
    (row : Row) : Prop where
  mem : row ∈ rows
  hash : row.refreshTokenHash = service.sha256 token
  active : row.active now = true

/-- No collaborator fails, and the new token is new to the table. -/
structure Env.Clear (env : Env) (service : Service) (rows : List Row) : Prop where
  users : env.usersFail = false
  random : ∃ next, env.random = some next ∧ ∀ row ∈ rows,
    row.refreshTokenHash ≠ service.sha256 next
  issue : ∀ identity, ∃ access, env.issue identity = some access
  fails : ∀ statement, env.fails statement = false

section Calls

variable {service : Service} {tables : CaseTables} {env : Env} {users : List User}
  {rows : List Row} {token : GoString} {now : Int} {session : Session} {row : Row}

theorem login_error {email password : String} {client : ClientInfo} {err : AuthError}
    (hlogin : (login service tables env users rows email password client now).1 = .error err) :
    (login service tables env users rows email password client now).2 = rows := by
  simp only [login] at hlogin ⊢
  split
  · rfl
  · next user hcheck =>
      simp only [hcheck] at hlogin
      split
      · rfl
      · next next hrandom =>
          simp only [hrandom] at hlogin
          split
          · rfl
          · next access hissue =>
              simp only [hissue] at hlogin
              split
              · rfl
              · next hfails =>
                  rw [if_neg hfails] at hlogin
                  split
                  · rfl
                  · next rows' hcreate =>
                      rw [hcreate] at hlogin
                      cases hlogin

/-- How `RotateToken` can go wrong. -/
theorem finishRefresh_error {access : AccessToken} {next : GoString} {err : AuthError}
    (hfinish : (finishRefresh service env rows token now session access next).1 = .error err) :
    (err = .other ∧ (finishRefresh service env rows token now session access next).2 = rows) ∨
      (err = .invalidRefreshToken ∧
        rows.countP (rotateCond session.id (service.sha256 token) now) ≠ 1) := by
  rw [finishRefresh] at hfinish ⊢
  split at hfinish
  · next hfails =>
      rw [if_pos hfails]
      exact .inl ⟨(Except.error.inj hfinish).symm, rfl⟩
  · next hfails =>
      rw [if_neg hfails]
      split at hfinish
      · exact .inl ⟨(Except.error.inj hfinish).symm, rfl⟩
      · next rows' count hrotate =>
          obtain ⟨-, rfl, -⟩ := rotateToken_eq_some hrotate
          split at hfinish
          · cases hfinish
          · next hcount => exact .inr ⟨(Except.error.inj hfinish).symm, hcount⟩

/-- A lookup that was answered gave the answer of the table. -/
theorem lookup_of_ne_failed {answer found : Lookup} (hlookup : env.lookup answer = found)
    (hfound : found ≠ .failed) : answer = found := by
  unfold Env.lookup at hlookup
  split at hlookup
  · exact absurd hlookup.symm hfound
  · exact hlookup

/-- Whom `Refresh` rejects is not usable. -/
theorem not_usable {id : UUID} {found : Lookup}
    (hlookup : env.lookup (getByID users id.text) = found)
    (hcheck : refreshCheck found = .discard) : ¬ Usable users id := by
  rintro ⟨user, huser, henabled, hlocal⟩
  have hanswer : getByID users id.text = found := by
    apply lookup_of_ne_failed hlookup
    rintro rfl
    cases hcheck
  rw [← hanswer, huser, refreshCheck, henabled, hlocal] at hcheck
  cases hcheck

/-- How a refresh can end in an error: it has left the table alone, the user is not
usable, or the row was not there for `RotateToken`. -/
theorem refreshFound_error {err : AuthError}
    (hrefresh : (refreshFound service env users rows token now session).1 = .error err) :
    (err = .other ∧ (refreshFound service env users rows token now session).2 = rows) ∨
      (err = .invalidRefreshToken ∧ ¬ Usable users session.userID ∧
        (refreshFound service env users rows token now session).2 =
          env.discard service rows token now) ∨
      (err = .invalidRefreshToken ∧
        rows.countP (rotateCond session.id (service.sha256 token) now) ≠ 1) := by
  rw [refreshFound] at hrefresh ⊢
  cases hlookup : env.lookup (getByID users session.userID.text) with
  | failed =>
      rw [hlookup] at hrefresh
      exact .inl ⟨(Except.error.inj hrefresh).symm, rfl⟩
  | notFound =>
      rw [hlookup] at hrefresh
      exact .inr (.inl ⟨(Except.error.inj hrefresh).symm, not_usable hlookup rfl, rfl⟩)
  | found user =>
      rw [hlookup] at hrefresh
      by_cases hrejected : (!user.enabled || user.authProvider ≠ "local") = true
      · simp only [if_pos hrejected] at hrefresh ⊢
        exact .inr (.inl ⟨(Except.error.inj hrefresh).symm,
          not_usable hlookup (if_pos hrejected), trivial⟩)
      · simp only [if_neg hrejected] at hrefresh ⊢
        cases hrandom : env.random with
        | none =>
            rw [hrandom] at hrefresh
            exact .inl ⟨(Except.error.inj hrefresh).symm, rfl⟩
        | some next =>
            rw [hrandom] at hrefresh
            cases hissue : env.issue (identityFor user session.id) with
            | none =>
                simp only [hissue] at hrefresh
                exact .inl ⟨(Except.error.inj hrefresh).symm, rfl⟩
            | some access =>
                simp only [hissue] at hrefresh
                exact (finishRefresh_error hrefresh).imp id .inr

/-- A refresh that fails otherwise than by rejecting the token leaves the table alone. -/
theorem refresh_error_other {err : AuthError}
    (hrefresh : (refresh service env users rows token now).1 = .error err)
    (herr : err ≠ .invalidRefreshToken) : (refresh service env users rows token now).2 = rows := by
  rw [refresh] at hrefresh ⊢
  split
  · rfl
  · next hfails =>
      rw [if_neg hfails] at hrefresh
      split
      · rfl
      · next session hfind =>
          rw [hfind] at hrefresh
          rcases refreshFound_error hrefresh with ⟨-, hrows⟩ | ⟨hinvalid, -⟩ | ⟨hinvalid, -⟩
          · exact hrows
          · exact absurd hinvalid herr
          · exact absurd hinvalid herr

theorem Presented.eq_of_keys {other : Row} (hkeys : Keys rows)
    (hrow : Presented service rows token now row)
    (hother : Presented service rows token now other) : other = row :=
  Table.eq_of_key_eq hkeys.hashes hother.mem hrow.mem (hother.hash.trans hrow.hash.symm)

/-- What `FindActiveByTokenHash` finds is what is presented. -/
theorem find_presented (hkeys : Keys rows) (hrow : Presented service rows token now row) :
    findActiveByTokenHash rows (service.sha256 token) now = some row.toSession := by
  have hcond : (row.refreshTokenHash = service.sha256 token && row.active now) = true := by
    rw [hrow.hash, hrow.active]
    simp
  cases hfind : findActiveByTokenHash rows (service.sha256 token) now with
  | none =>
      rw [findActiveByTokenHash, Option.map_eq_none_iff, List.find?_eq_none] at hfind
      exact absurd hcond (hfind row hrow.mem)
  | some session =>
      obtain ⟨other, hother, hhash, hrevoked, hexpires, rfl⟩ := findActiveByTokenHash_eq_some hfind
      rw [hrow.eq_of_keys hkeys ⟨hother, hhash, Row.active_iff.mpr ⟨hrevoked, hexpires⟩⟩]

theorem rotateCond_presented (hrow : Presented service rows token now row) :
    rotateCond row.id (service.sha256 token) now row = true :=
  rotateCond_iff.mpr ⟨rfl, hrow.hash, Row.active_iff.mp hrow.active⟩

/-- `RotateToken` meets that row and no other one. -/
theorem rotateCond_presented_iff (hkeys : Keys rows)
    (hrow : Presented service rows token now row) :
    ∀ other ∈ rows, rotateCond row.id (service.sha256 token) now other = true ↔ other = row :=
  Table.cond_iff_eq hkeys.ids hrow.mem (rotateCond_presented hrow)
    fun _ hother => (rotateCond_iff.mp hother).1

/-- `RevokeByTokenHash` revokes the session presented and no other one. -/
theorem discard_presented (hkeys : Keys rows) (hrow : Presented service rows token now row) :
    env.discard service rows token now =
      if env.fails .revokeByTokenHash then rows
      else Table.updateWhere (fun other => other.id = row.id) (revokeSet now) rows := by
  have hcond : revokeByTokenCond (service.sha256 token) row = true :=
    revokeByTokenCond_iff.mpr ⟨hrow.hash, (Row.active_iff.mp hrow.active).1⟩
  have hunique := Table.cond_iff_eq hkeys.hashes hrow.mem hcond
    fun _ hother => (revokeByTokenCond_iff.mp hother).1.trans hrow.hash.symm
  have hsame : revokeByTokenHash rows (service.sha256 token) now =
      Table.updateWhere (fun other => other.id = row.id) (revokeSet now) rows := by
    apply List.map_congr_left
    intro other hother
    have hid : decide (other.id = row.id) = true ↔ other = row := by
      rw [decide_eq_true_eq]
      exact ⟨Table.eq_of_key_eq hkeys.ids hother hrow.mem, congrArg Row.id⟩
    rw [Bool.eq_iff_iff.mpr ((hunique other hother).trans hid.symm)]
  rw [Env.discard, hsame]

/-- A refresh that runs alone and rejects the token revokes the session of a user who is
not usable, and does nothing else. -/
theorem refresh_error_invalid (hkeys : Keys rows)
    (hrefresh : (refresh service env users rows token now).1 = .error .invalidRefreshToken) :
    (∃ row, Presented service rows token now row ∧ ¬ Usable users row.userID ∧
        (refresh service env users rows token now).2 = env.discard service rows token now) ∨
      ((∀ row, ¬ Presented service rows token now row) ∧
        (refresh service env users rows token now).2 = rows) := by
  rw [refresh] at hrefresh ⊢
  split
  · next hfails =>
      rw [if_pos hfails] at hrefresh
      cases hrefresh
  · next hfails =>
      rw [if_neg hfails] at hrefresh
      split
      · next hfind =>
          refine .inr ⟨?_, rfl⟩
          intro row hrow
          rw [find_presented hkeys hrow] at hfind
          cases hfind
      · next session hfind =>
          obtain ⟨row, hmem, hhash, hrevoked, hexpires, rfl⟩ := findActiveByTokenHash_eq_some hfind
          have hrow : Presented service rows token now row :=
            ⟨hmem, hhash, Row.active_iff.mpr ⟨hrevoked, hexpires⟩⟩
          rw [hfind] at hrefresh
          rcases refreshFound_error hrefresh with ⟨herr, -⟩ | ⟨-, husable, hrows⟩ | ⟨-, hcount⟩
          · cases herr
          · exact .inl ⟨row, hrow, husable, hrows⟩
          · -- Nobody else could have taken the row away.
            exact absurd (Table.countP_eq_one hkeys.ids hmem (rotateCond_presented_iff hkeys hrow))
              hcount

/-- A rotation to a new hash succeeds. -/
theorem rotateToken_presented (hkeys : Keys rows) (hrow : Presented service rows token now row)
    {next : GoString} (hnext : ∀ other ∈ rows, other.refreshTokenHash ≠ service.sha256 next) :
    ∃ rows', rotateToken rows row.id (service.sha256 token) (service.sha256 next) now =
      some (rows', 1) := by
  have hcount := Table.countP_eq_one hkeys.ids hrow.mem (rotateCond_presented_iff hkeys hrow)
  rw [rotateToken_of_new hkeys.hashes _ _ _ hnext, hcount]
  exact ⟨_, rfl⟩

/-- Where nothing fails, an active token of a usable user refreshes. -/
theorem refresh_ok (hkeys : Keys rows) (hrow : Presented service rows token now row)
    (husable : Usable users row.userID) (hclear : env.Clear service rows) :
    ∃ result, (refresh service env users rows token now).1 = .ok result := by
  obtain ⟨user, huser, henabled, hlocal⟩ := husable
  obtain ⟨next, hrandom, hnext⟩ := hclear.random
  obtain ⟨access, hissue⟩ := hclear.issue (identityFor user row.id)
  obtain ⟨rows', hrotate⟩ := rotateToken_presented hkeys hrow hnext
  have hlookup : env.lookup (getByID users row.toSession.userID.text) = .found user := by
    rw [Env.lookup, hclear.users]
    exact huser
  have hissue' : env.issue (identityFor user row.toSession.id) = some access := hissue
  have hrotate' : rotateToken rows row.toSession.id (service.sha256 token) (service.sha256 next)
      now = some (rows', 1) := hrotate
  rw [refresh, hclear.fails, find_presented hkeys hrow]
  simp only [Bool.false_eq_true, if_false, refreshFound, hlookup, henabled, hlocal, hrandom,
    hissue', finishRefresh, hclear.fails, hrotate']
  exact ⟨_, rfl⟩

end Calls

/-! ## Beside other calls -/

namespace Phase

/-- A call that has come so far has not written: it has not ended, or in an error that
no statement returns together with an effect. -/
def untouched : Phase → Bool
  | done (.failed err) => err ≠ .invalidRefreshToken && err ≠ .sessionNotFound
  | done (.listed _) => true
  | done _ => false
  | _ => true

/-- Where a `Login` can stand once it has begun. -/
def ofLogin : Phase → Bool
  | creating _ _ => true
  | done (.loggedIn _ _) => true
  | done (.failed err) => err ≠ .invalidRefreshToken && err ≠ .sessionNotFound
  | _ => false

/-- Where a `Refresh` can stand once it has begun. -/
def ofRefresh : Phase → Bool
  | finding _ _ => true
  | checking _ _ _ => true
  | discarding _ _ => true
  | rotating _ _ _ _ => true
  | done (.refreshed _ _) => true
  | done (.failed err) => err ≠ .sessionNotFound
  | _ => false

end Phase

section Steps

variable {service : Service} {clock : Int} {rows : List Row} {i : Nat} {before : Phase}
  {label : Label} {turn : Turn} {w w' : World} {labels : List Label}

/-- The statements that write are the last of their calls. -/
theorem Phase.turn_rows (hturn : before.turn service i rows = some turn)
    (huntouched : turn.phase.untouched = true) : turn.rows = rows := by
  cases before with
  | creating token session =>
      simp only [Phase.turn] at hturn
      split at hturn
      · cases hturn
        cases huntouched
      · cases hturn
        rfl
  | finding token now =>
      simp only [Phase.turn] at hturn
      split at hturn <;> cases hturn <;> rfl
  | discarding token now | loggingOut token now =>
      cases hturn
      cases huntouched
  | rotating token now session next =>
      simp only [Phase.turn] at hturn
      split at hturn
      · cases hturn
        rfl
      · split at hturn <;> cases hturn <;> cases huntouched
  | revoking id userID now =>
      cases hturn
      simp only at huntouched
      split at huntouched <;> cases huntouched
  | listing userID now =>
      cases hturn
      rfl
  | idle | checking | done => cases hturn

theorem turn_rows_of_untouched (hturn : label.turn service clock rows i before = some turn)
    (huntouched : turn.phase.untouched = true) : turn.rows = rows := by
  by_cases hexec : ∃ j, label = .exec j
  · obtain ⟨j, rfl⟩ := hexec
    exact Phase.turn_rows hturn huntouched
  · exact turn_rows_of_ne_exec (fun j heq => hexec ⟨j, heq⟩) hturn

/-- A call that has begun executes its statement, is refused it, or meets its user. -/
theorem turn_of_begun (hbegun : before ≠ .idle)
    (hturn : label.turn service clock rows i before = some turn) :
    before.turn service i rows = some turn ∨
      (∃ err, before.failure = some err ∧ turn.phase = .done (.failed err)) ∨
      ∃ token now session lookup next issued, before = .checking token now session ∧
        checkTurn rows token now session lookup next issued = turn := by
  cases label with
  | tick time => cases hturn
  | check j lookup next issued =>
      cases before with
      | checking token now session =>
          cases hturn
          exact .inr (.inr ⟨token, now, session, lookup, next, issued, rfl, rfl⟩)
      | _ => cases hturn
  | exec j => exact .inl hturn
  | fail j =>
      obtain ⟨err, herr, rfl⟩ := Option.map_eq_some_iff.mp hturn
      exact .inr (.inl ⟨err, herr, rfl⟩)
  | login | refresh | logout | revokeSession | listSessions =>
      exact absurd (Option.ite_none_right_eq_some.mp hturn).1 hbegun

/-- What the steps of a call keep is kept by every run. -/
theorem calls_of_run (kind : Phase → Prop)
    (hclosed : ∀ {label clock rows before turn}, kind before →
      Label.turn service clock rows i before label = some turn → kind turn.phase)
    (hrun : (system service).run w labels = some w') (hkind : kind (w.calls i)) :
    kind (w'.calls i) := by
  apply System.run_preserves (P := fun w => kind (w.calls i)) _ hrun hkind
  intro u label v hu hnext
  obtain ⟨time, -, -, rfl⟩ | ⟨j, turn, -, hturn, rfl⟩ := next_cases hnext
  · exact hu
  · by_cases hj : i = j
    · subst hj
      rw [World.take_calls_self]
      exact hclosed hu hturn
    · rw [World.take_calls_of_ne hj]
      exact hu

/-- A call that has returned does nothing more. -/
theorem turn_done {answer : Answer}
    (hturn : label.turn service clock rows i (.done answer) = some turn) : False := by
  obtain hexec | ⟨err, hfail, -⟩ | ⟨token, now, session, lookup, next, issued, hphase, -⟩ :=
    turn_of_begun Phase.noConfusion hturn
  · cases hexec
  · cases hfail
  · cases hphase

theorem calls_done_of_run {answer : Answer} (hrun : (system service).run w labels = some w')
    (hdone : w.calls i = .done answer) : w'.calls i = .done answer := by
  apply calls_of_run (fun phase => phase = .done answer) _ hrun hdone
  rintro label clock rows before turn rfl hturn
  exact (turn_done hturn).elim

theorem ofLogin_closed (hkind : before.ofLogin = true)
    (hturn : label.turn service clock rows i before = some turn) :
    turn.phase.ofLogin = true := by
  cases before with
  | creating token session =>
      obtain hexec | ⟨err, hfail, hphase⟩ | ⟨_, _, _, _, _, _, hphase, -⟩ :=
        turn_of_begun Phase.noConfusion hturn
      · rw [Phase.turn] at hexec
        split at hexec <;> cases hexec <;> rfl
      · cases hfail
        rw [hphase]
        rfl
      · cases hphase
  | done answer => exact (turn_done hturn).elim
  | _ => cases hkind

theorem ofRefresh_closed (hkind : before.ofRefresh = true)
    (hturn : label.turn service clock rows i before = some turn) :
    turn.phase.ofRefresh = true := by
  have hbegun : before ≠ .idle := by
    rintro rfl
    cases hkind
  obtain hexec | ⟨err, hfail, hphase⟩ | ⟨token, now, session, lookup, next, issued, -, rfl⟩ :=
    turn_of_begun hbegun hturn
  · cases before with
    | finding token now =>
        rw [Phase.turn] at hexec
        split at hexec <;> cases hexec <;> rfl
    | discarding token now =>
        cases hexec
        rfl
    | rotating token now session next =>
        simp only [Phase.turn] at hexec
        split at hexec
        · cases hexec
          rfl
        · split at hexec <;> cases hexec <;> rfl
    | checking | done => cases hexec
    | idle | creating | loggingOut | revoking | listing => cases hkind
  · have herr : err ≠ .sessionNotFound := by
      rintro rfl
      cases before <;> cases hfail
    rw [hphase]
    exact decide_eq_true herr
  · unfold checkTurn
    split
    · rfl
    · rfl
    · rfl
    · split <;> rfl

/-- The states around a step of a run. -/
theorem run_split {before after : List Label}
    (hrun : (system service).run w (before ++ label :: after) = some w') :
    ∃ u v, (system service).run w before = some u ∧ (system service).next u label = some v ∧
      (system service).run v after = some w' := by
  rw [System.run_append, Option.bind_eq_some_iff] at hrun
  obtain ⟨u, hbefore, hrest⟩ := hrun
  rw [System.run_cons, Option.bind_eq_some_iff] at hrest
  obtain ⟨v, hnext, hafter⟩ := hrest
  exact ⟨u, v, hbefore, hnext, hafter⟩

theorem loginCheck_eq_error {lookup : Lookup} {verified : Option Bool} {err : AuthError}
    (herror : loginCheck lookup verified = .error err) :
    err = .invalidCredentials ∨ err = .userDisabled := by
  unfold loginCheck at herror
  split at herror
  · split at herror
    · exact .inr (Except.error.inj herror).symm
    · split at herror
      · exact .inl (Except.error.inj herror).symm
      · split at herror
        · cases herror
        · exact .inl (Except.error.inj herror).symm
  · exact .inl (Except.error.inj herror).symm
  · exact .inl (Except.error.inj herror).symm

theorem ofLogin_of_run {lookup : Lookup} {verified : Option Bool} {client : ClientInfo} {id : UUID}
    {token : Option GoString} {issued : Bool}
    (hmem : Label.login i lookup verified client id token issued ∈ labels)
    (hrun : (system service).run w labels = some w') : (w'.calls i).ofLogin = true := by
  obtain ⟨before, after, rfl⟩ := List.append_of_mem hmem
  obtain ⟨u, v, -, hnext, hafter⟩ := run_split hrun
  apply calls_of_run (fun phase => phase.ofLogin = true) ofLogin_closed hafter
  obtain ⟨-, hlogin⟩ := Option.ite_none_right_eq_some.mp hnext
  cases hlogin
  rw [login_eq_take, World.take_calls_self]
  unfold loginTurn
  cases hcheck : loginCheck lookup verified with
  | error err =>
      rcases loginCheck_eq_error hcheck with rfl | rfl
      · rfl
      · rfl
  | ok user =>
      cases token with
      | none => rfl
      | some token => cases issued <;> rfl

theorem ofRefresh_of_run {token : GoString} (hmem : Label.refresh i token ∈ labels)
    (hrun : (system service).run w labels = some w') : (w'.calls i).ofRefresh = true := by
  obtain ⟨before, after, rfl⟩ := List.append_of_mem hmem
  obtain ⟨u, v, -, hnext, hafter⟩ := run_split hrun
  apply calls_of_run (fun phase => phase.ofRefresh = true) ofRefresh_closed hafter
  rw [next_eq_take rfl] at hnext
  obtain ⟨turn, hturn, rfl⟩ := Option.map_eq_some_iff.mp hnext
  obtain ⟨-, hturn⟩ := Option.ite_none_right_eq_some.mp hturn
  cases hturn
  rw [World.take_calls_self]
  rfl

/-- Every step of a call that ends in such an error leaves the table alone. -/
theorem rows_of_step {err : AuthError} {before after : List Label} {u v : World}
    (hrun : (system service).run w (before ++ label :: after) = some w')
    (hended : w'.calls i = .done (.failed err))
    (huntouched : (Phase.done (.failed err)).untouched = true)
    (hbefore : (system service).run w before = some u)
    (hnext : (system service).next u label = some v) (hcall : label.call = some i) :
    v.rows = u.rows := by
  obtain ⟨u', v', hbefore', hnext', hafter⟩ := run_split hrun
  obtain rfl : u' = u := Option.some.inj (hbefore'.symm.trans hbefore)
  obtain rfl : v' = v := Option.some.inj (hnext'.symm.trans hnext)
  rw [next_eq_take hcall] at hnext
  obtain ⟨turn, hturn, rfl⟩ := Option.map_eq_some_iff.mp hnext
  apply turn_rows_of_untouched hturn
  -- If this was its last step, the call has ended as it stands in the end.
  cases hphase : turn.phase with
  | done answer =>
      have hdone := calls_done_of_run hafter (World.take_calls_self.trans hphase)
      rw [hended, Phase.done.injEq] at hdone
      rw [← hdone]
      exact huntouched
  | _ => rfl

end Steps

/-! ## What a failure leaves behind -/

/-- Calls that fail leave the sessions as they were. -/
structure Intact (service : Service) : Prop where
  login : ∀ tables env users rows email password client now err,
    (Sessions.login service tables env users rows email password client now).1 = .error err →
      (Sessions.login service tables env users rows email password client now).2 = rows
  refresh : ∀ env users rows token now err,
    (Sessions.refresh service env users rows token now).1 = .error err →
      err ≠ .invalidRefreshToken →
      (Sessions.refresh service env users rows token now).2 = rows
  /-- Once the faults are over the token refreshes, whenever the retry comes before the
  session expires. -/
  retry : ∀ env users rows token now err,
    (Sessions.refresh service env users rows token now).1 = .error err →
      err ≠ .invalidRefreshToken → Keys rows → ∀ env' users' now' row,
        Presented service rows token now' row → Usable users' row.userID →
          env'.Clear service rows →
            ∃ result, (Sessions.refresh service env' users'
              (Sessions.refresh service env users rows token now).2 token now').1 = .ok result
  /-- A refresh that runs alone and rejects the token revokes the one session of a user
  who is not usable, if that statement succeeds. -/
  rejected : ∀ env users rows token now, Keys rows →
    (Sessions.refresh service env users rows token now).1 = .error .invalidRefreshToken →
      (∀ row, Presented service rows token now row → ¬ Usable users row.userID →
        (Sessions.refresh service env users rows token now).2 =
          if env.fails .revokeByTokenHash then rows
          else Table.updateWhere (fun other => other.id = row.id) (revokeSet now) rows) ∧
      ((∀ row, Presented service rows token now row → Usable users row.userID) →
        (Sessions.refresh service env users rows token now).2 = rows)
  /-- Beside other calls, no step of a `Login` that ends in an error changes the table, and
  none of a `Refresh` that ends in another error than the rejection. -/
  steps : ∀ w w' labels i err, (system service).run w labels = some w' →
    w'.calls i = .done (.failed err) →
      ((∃ lookup verified client id token issued,
          Label.login i lookup verified client id token issued ∈ labels) ∨
        (∃ token, Label.refresh i token ∈ labels) ∧ err ≠ .invalidRefreshToken) →
      ∀ before label after u v, labels = before ++ label :: after →
        (system service).run w before = some u → (system service).next u label = some v →
          label.call = some i → v.rows = u.rows

theorem untouched_of_login_or_refresh {service : Service} {w w' : World} {labels : List Label}
    {i : Nat} {err : AuthError} (hrun : (system service).run w labels = some w')
    (hended : w'.calls i = .done (.failed err))
    (hcall : (∃ lookup verified client id token issued,
        Label.login i lookup verified client id token issued ∈ labels) ∨
      (∃ token, Label.refresh i token ∈ labels) ∧ err ≠ .invalidRefreshToken) :
    (Phase.done (.failed err)).untouched = true := by
  rcases hcall with ⟨lookup, verified, client, id, token, issued, hmem⟩ | ⟨⟨token, hmem⟩, herr⟩
  · have hlogin := ofLogin_of_run hmem hrun
    rw [hended] at hlogin
    exact hlogin
  · have hrefresh := ofRefresh_of_run hmem hrun
    rw [hended] at hrefresh
    exact Bool.and_eq_true_iff.mpr ⟨decide_eq_true herr, hrefresh⟩

theorem failures_leave_sessions_intact (service : Service) : Intact service where
  login := by
    intro tables env users rows email password client now err herror
    exact login_error herror
  refresh := by
    intro env users rows token now err herror herr
    exact refresh_error_other herror herr
  retry := by
    intro env users rows token now err herror herr hkeys env' users' now' row hrow husable hclear
    rw [refresh_error_other herror herr]
    exact refresh_ok hkeys hrow husable hclear
  rejected := by
    intro env users rows token now hkeys herror
    apply And.intro
    · intro row hrow husable
      rw [← discard_presented hkeys hrow]
      rcases refresh_error_invalid hkeys herror with ⟨_, _, _, hrows⟩ | ⟨hnone, _⟩
      · exact hrows
      · exact absurd hrow (hnone row)
    · intro husable
      rcases refresh_error_invalid hkeys herror with ⟨row, hrow, hunusable, _⟩ | ⟨_, hrows⟩
      · exact absurd (husable row hrow) hunusable
      · exact hrows
  steps := by
    rintro w w' labels i err hrun hended hcall before label after u v rfl hbefore hnext hlabel
    have huntouched := untouched_of_login_or_refresh hrun hended hcall
    exact rows_of_step hrun hended huntouched hbefore hnext hlabel

/-- An enabled user with a password. -/
def heldUser : User where
  id := UUID.ofNat 1
  name := "Ada"
  email := "ada@example.com"
  passwordHash := "correct-password"
  enabled := true
  authProvider := "local"
  externalSubject := ""
  createdAt := 0
  updatedAt := 0

/-- The session of that user. -/
def heldRow : Row where
  id := UUID.ofNat 2
  userID := UUID.ofNat 1
  refreshTokenHash := Service.sample.sha256 [1]
  userAgent := none
  clientIP := none
  createdAt := 0
  lastUsedAt := none
  expiresAt := Service.sample.refreshTTL
  revokedAt := none

/-- The collaborators of a test: a hash is the password, and the next token is `[2]`. -/
def Env.sample (signs : Bool) : Env where
  usersFail := false
  verify password hash := some (password = hash)
  random := some [2]
  sessionID := UUID.ofNat 3
  issue _ := if signs then some ⟨[], 0⟩ else none
  fails _ := false

/-- The issuer fails, and on the next try it signs. -/
theorem failures_leave_heldRow :
    (refresh Service.sample (.sample false) [heldUser] [heldRow] [1] 1000).2 = [heldRow] ∧
      ∃ result, (refresh Service.sample (.sample true) [heldUser]
        (refresh Service.sample (.sample false) [heldUser] [heldRow] [1] 1000).2 [1] 2000).1 =
          .ok result := by
  have herror : (refresh Service.sample (.sample false) [heldUser] [heldRow] [1] 1000).1 =
      .error .other := by decide +kernel
  have hkeys : Keys [heldRow] := ⟨by decide +kernel, by decide +kernel⟩
  have hrow : Presented Service.sample [heldRow] [1] 2000 heldRow :=
    ⟨List.mem_singleton_self _, rfl, by decide⟩
  have husable : Usable [heldUser] heldRow.userID := ⟨heldUser, by decide +kernel, rfl, rfl⟩
  have hclear : (Env.sample true).Clear Service.sample [heldRow] :=
    ⟨rfl, ⟨[2], rfl, by decide +kernel⟩, fun _ => ⟨_, rfl⟩, fun _ => rfl⟩
  have hintact := failures_leave_sessions_intact Service.sample
  exact ⟨hintact.refresh _ _ _ _ _ _ herror (by decide),
    hintact.retry _ _ _ _ _ _ herror (by decide) hkeys _ _ _ _ hrow husable hclear⟩

end GoFoundation.Sessions
