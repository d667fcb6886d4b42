/-
# Sessions of different users do not interfere

A step of a call reads the clock, the table and what the call itself has captured.
What it does to the table is bound by an owner: `Revoke` by the user it names, and the
statements on a token by the session that the token was issued to, because no two
sessions ever have tokens with the same hash.

So the calls of other users can be deleted from a run.  The proof follows the run and
the run without them side by side; the second one has the rows of the one user, and
every call that is left stands where it stands in the first.
-/

import GoFoundation.Sessions.Lifetime

namespace GoFoundation.Sessions

open Library Postgres Grpc Users

/-! ## Steps as local turns -/

/-- What a step of a call does: the table after it, the phase of the call, the tokens
generated and the new events. -/
structure Turn where
  rows : List Row
  phase : Phase
  fresh : List GoString
  events : List Event

/-- The world after a turn of a call. -/
def World.take (w : World) (i : Nat) (turn : Turn) : World :=
  w.move i turn.rows turn.phase turn.fresh turn.events

/-- `Login` after its user lookup. -/
def loginTurn (service : Service) (clock : Int) (rows : List Row) (lookup : Lookup)
    (verified : Option Bool) (client : ClientInfo) (id : UUID) (token : Option GoString)
    (issued : Bool) : Turn :=
  match loginCheck lookup verified, token with
  | .error err, _ => ⟨rows, .done (.failed err), [], []⟩
  | .ok _, none => ⟨rows, .done (.failed .other), [], []⟩
  | .ok user, some token =>
      if issued then
        ⟨rows, .creating token (newSession service user id token client clock), [token], []⟩
      else ⟨rows, .done (.failed .other), [token], []⟩

/-- `Refresh` after its user lookup. -/
def checkTurn (rows : List Row) (token : GoString) (now : Int) (session : Session)
    (lookup : Lookup) (next : Option GoString) (issued : Bool) : Turn :=
  match refreshCheck lookup, next with
  | .discard, _ => ⟨rows, .discarding token now, [], []⟩
  | .giveUp, _ => ⟨rows, .done (.failed .other), [], []⟩
  | .proceed, none => ⟨rows, .done (.failed .other), [], []⟩
  | .proceed, some next =>
      if issued then ⟨rows, .rotating token now session next, [next], []⟩
      else ⟨rows, .done (.failed .other), [next], []⟩

/-- The next statement of a call. -/
def Phase.turn (service : Service) (i : Nat) (rows : List Row) : Phase → Option Turn
  | .creating token session =>
      match create rows session with
      | some rows' => some ⟨rows', .done (.loggedIn token session), [], [.created i session token]⟩
      | none => some ⟨rows, .done (.failed .other), [], []⟩
  | .finding token now =>
      match findActiveByTokenHash rows (service.sha256 token) now with
      | some session => some ⟨rows, .checking token now session, [], []⟩
      | none => some ⟨rows, .done (.failed .invalidRefreshToken), [], []⟩
  | .discarding token now =>
      some ⟨revokeByTokenHash rows (service.sha256 token) now,
        .done (.failed .invalidRefreshToken), [], []⟩
  | .rotating token now session next =>
      match rotateToken rows session.id (service.sha256 token) (service.sha256 next) now with
      | none => some ⟨rows, .done (.failed .other), [], []⟩
      | some (rows', count) =>
          if count = 1 then
            some ⟨rows', .done (.refreshed next { session with
                refreshTokenHash := service.sha256 next
                lastUsedAt := some now }), [], [.rotated i session.id token next now]⟩
          else some ⟨rows', .done (.failed .invalidRefreshToken), [], []⟩
  | .loggingOut token now =>
      some ⟨revokeByTokenHash rows (service.sha256 token) now, .done .loggedOut, [], []⟩
  | .revoking id userID now =>
      some ⟨(revoke rows id userID now).1,
        .done (if (revoke rows id userID now).2 = 1 then .revoked else .failed .sessionNotFound),
        [], []⟩
  | .listing userID now =>
      some ⟨rows, .done (.listed (listActiveByUser rows userID now)), [], []⟩
  | .idle | .checking _ _ _ | .done _ => none

/-- The call that a step is of. -/
def Label.call : Label → Option Nat
  | tick _ => none
  | login i _ _ _ _ _ _ => some i
  | refresh i _ => some i
  | logout i _ => some i
  | revokeSession i _ _ => some i
  | listSessions i _ => some i
  | check i _ _ _ => some i
  | exec i => some i
  | fail i => some i

/-- What a step of call `i` does, when the call stands at `before`. -/
def Label.turn (service : Service) (clock : Int) (rows : List Row) (i : Nat) (before : Phase)
    (label : Label) : Option Turn :=
  match label with
  | .tick _ => none
  | .login _ lookup verified client id token issued =>
      if before = .idle then
        some (loginTurn service clock rows lookup verified client id token issued)
      else none
  | .check _ lookup next issued =>
      match before with
      | .checking token now session => some (checkTurn rows token now session lookup next issued)
      | _ => none
  | .exec _ => before.turn service i rows
  | .fail _ => before.failure.map fun err => ⟨rows, .done (.failed err), [], []⟩
  | label =>
      match label.begins clock with
      | some (_, phase) => if before = .idle then some ⟨rows, phase, [], []⟩ else none
      | none => none

section Turn

variable {service : Service} {w : World} {i : Nat}

theorem login_eq_take (lookup : Lookup) (verified : Option Bool) (client : ClientInfo) (id : UUID)
    (token : Option GoString) (issued : Bool) :
    w.login service i lookup verified client id token issued =
      w.take i (loginTurn service w.clock w.rows lookup verified client id token issued) := by
  unfold World.login loginTurn
  cases loginCheck lookup verified with
  | error err => rfl
  | ok user =>
      cases token with
      | none => rfl
      | some token => cases issued <;> rfl

theorem check_eq_take (token : GoString) (now : Int) (session : Session) (lookup : Lookup)
    (next : Option GoString) (issued : Bool) :
    w.check i token now session lookup next issued =
      w.take i (checkTurn w.rows token now session lookup next issued) := by
  unfold World.check checkTurn
  cases refreshCheck lookup with
  | discard => rfl
  | giveUp => rfl
  | proceed =>
      cases next with
      | none => rfl
      | some next => cases issued <;> rfl

theorem exec_eq_take (phase : Phase) :
    w.exec service i phase = (phase.turn service i w.rows).map (w.take i) := by
  cases phase with
  | creating token session =>
      rw [World.exec, Phase.turn]
      cases create w.rows session <;> rfl
  | finding token now =>
      rw [World.exec, Phase.turn]
      cases findActiveByTokenHash w.rows (service.sha256 token) now <;> rfl
  | rotating token now session next =>
      rw [World.exec, Phase.turn]
      cases rotateToken w.rows session.id (service.sha256 token) (service.sha256 next) now with
      | none => rfl
      | some result =>
          by_cases hcount : result.2 = 1
          · simp only [hcount, if_true, Option.map_some]
            rfl
          · simp only [if_neg hcount, Option.map_some]
            rfl
  | discarding token now | loggingOut token now => rfl
  | revoking id userID now => rfl
  | listing userID now => rfl
  | idle | checking | done => rfl

/-- A step of a call is a turn: it depends on the clock, the table and the phase of the
call. -/
theorem next_eq_take {label : Label} (hcall : label.call = some i) :
    (system service).next w label =
      (label.turn service w.clock w.rows i (w.calls i)).map (w.take i) := by
  cases label with
  | tick time => cases hcall
  | login j lookup verified client id token issued =>
      cases hcall
      simp only [system, next, Label.turn]
      split
      · rw [login_eq_take]
        rfl
      · rfl
  | check j lookup next issued =>
      cases hcall
      simp only [system, Sessions.next, Label.turn]
      cases w.calls i with
      | checking token now session =>
          rw [Option.map_some, ← check_eq_take]
      | _ => rfl
  | exec j =>
      cases hcall
      exact exec_eq_take (w.calls i)
  | fail j =>
      cases hcall
      simp only [system, next, Label.turn, Option.map_map]
      rfl
  | refresh j token | logout j token | revokeSession j userID id | listSessions j userID =>
      cases hcall
      simp only [system, next, Label.turn, Label.begins]
      split <;> rfl

end Turn

/-! ## Whose call it is -/

/-- The row is of a session of the user. -/
def Row.ownedBy (user : UUID) (row : Row) : Bool := row.userID = user

/-- The tokens that were issued to sessions of the user. -/
def World.issuedTo (w : World) (user : UUID) : List GoString :=
  (w.log.filter fun event => w.rows.any fun row => row.id = event.session && row.ownedBy user).map
    Event.stored

/-- A call begins that belongs to other users: a `Login` that finds one, a call with the
identity of one, or a token that was never issued to a session of the user. -/
def Label.foreign (user : UUID) (issued : List GoString) : Label → Bool
  | login _ (.found found) _ _ _ _ _ => found.id ≠ user
  | refresh _ token => token ∉ issued
  | logout _ token => token ∉ issued
  | revokeSession _ userID _ => userID ≠ user
  | listSessions _ userID => userID ≠ user
  | _ => false

/-- The foreign calls after a step. -/
def Label.foreignAfter (user : UUID) (issued : List GoString) (calls : List Nat) (label : Label) :
    List Nat :=
  if label.foreign user issued then label.call.toList ++ calls else calls

/-- The run without the foreign calls, given those that have begun. -/
def purge (user : UUID) (issued : List GoString) : List Nat → List Label → List Label
  | _, [] => []
  | calls, label :: rest =>
      let calls' := label.foreignAfter user issued calls
      if label.call.any (· ∈ calls') then purge user issued calls' rest
      else label :: purge user issued calls' rest

/-- The token that a step presents. -/
def Label.presents : Label → Option GoString
  | refresh _ token => some token
  | logout _ token => some token
  | _ => none

/-- The session id that a step generates: that of a login which gets as far as its
`Create`. -/
def Label.mints : Label → Option UUID
  | login _ lookup verified _ id (some _) true =>
      if (loginCheck lookup verified).toOption.isSome then some id else none
  | _ => none

namespace Phase

/-- The token that a call has presented. -/
def presented : Phase → Option GoString
  | finding token _ => some token
  | checking token _ _ => some token
  | discarding token _ => some token
  | rotating token _ _ _ => some token
  | loggingOut token _ => some token
  | _ => none

/-- Whether a call in flight belongs to the user. -/
def ours (user : UUID) (issued : List GoString) : Phase → Option Bool
  | creating _ session => some (session.userID = user)
  | revoking _ userID _ => some (userID = user)
  | listing userID _ => some (userID = user)
  | phase => phase.presented.map fun token => token ∈ issued

end Phase

section Local

variable {service : Service} {user : UUID} {issued : List GoString} {clock : Int} {i : Nat}
  {rows : List Row} {before : Phase} {turn : Turn}

theorem ownedBy_revokeSet (now : Int) (row : Row) :
    (revokeSet now row).ownedBy user = row.ownedBy user := rfl

theorem ownedBy_rotateSet (newHash : Bytes) (now : Int) (row : Row) :
    (rotateSet newHash now row).ownedBy user = row.ownedBy user := rfl

/-- A statement of a foreign call leaves the rows of the user alone, if the token that
it presented finds none of them. -/
theorem Phase.turn_outside (hours : before.ours user issued = some false)
    (houtside : ∀ token, before.presented = some token → ∀ row ∈ rows,
      row.refreshTokenHash = service.sha256 token → row.ownedBy user = false)
    (hturn : before.turn service i rows = some turn) :
    turn.rows.filter (Row.ownedBy user) = rows.filter (Row.ownedBy user) := by
  cases before with
  | creating token session =>
      simp only [Phase.turn] at hturn
      split at hturn
      · next rows' hcreate =>
          obtain ⟨rfl, -, -⟩ := create_eq_some hcreate
          cases hturn
          have hnew : session.toRow.ownedBy user = false := Option.some.inj hours
          rw [List.filter_append, List.filter_singleton, hnew]
          exact List.append_nil _
      · cases hturn
        rfl
  | finding token now =>
      simp only [Phase.turn] at hturn
      split at hturn <;> cases hturn <;> rfl
  | discarding token now | loggingOut token now =>
      cases hturn
      apply Table.filter_updateWhere_of_outside (ownedBy_revokeSet now)
      intro row hrow hcond
      exact houtside token rfl row hrow (revokeByTokenCond_iff.mp hcond).1
  | rotating token now session next =>
      simp only [Phase.turn] at hturn
      split at hturn
      · cases hturn
        rfl
      · next rows' count hrotate =>
          obtain ⟨rfl, -, -⟩ := rotateToken_eq_some hrotate
          have hrows : turn.rows =
              Table.updateWhere (rotateCond session.id (service.sha256 token) now)
                (rotateSet (service.sha256 next) now) rows := by
            split at hturn <;> cases hturn <;> rfl
          rw [hrows]
          apply Table.filter_updateWhere_of_outside (ownedBy_rotateSet _ now)
          intro row hrow hcond
          exact houtside token rfl row hrow (rotateCond_iff.mp hcond).2.1
  | revoking id userID now =>
      cases hturn
      apply Table.filter_updateWhere_of_outside (ownedBy_revokeSet now)
      intro row hrow hcond
      have huser : userID ≠ user := of_decide_eq_false (Option.some.inj hours)
      rw [Row.ownedBy, (revokeCond_iff.mp hcond).2.1]
      exact decide_eq_false huser
  | listing userID now =>
      cases hturn
      rfl
  | idle | checking | done => cases hturn

/-- The turn with the rows of one user only. -/
def Turn.part (user : UUID) (turn : Turn) : Turn :=
  { turn with rows := turn.rows.filter (Row.ownedBy user) }

theorem create_of_new {session : Session} (hid : ∀ row ∈ rows, row.id ≠ session.id)
    (hhash : ∀ row ∈ rows, row.refreshTokenHash ≠ session.refreshTokenHash) :
    create rows session = some (rows ++ [session.toRow]) := by
  unfold create
  rw [if_neg]
  simp only [List.any_eq_true, Bool.or_eq_true, decide_eq_true_eq, not_exists, not_and, not_or]
  exact fun row hrow => ⟨hid row hrow, hhash row hrow⟩

/-- A new hash keeps the hashes apart. -/
theorem nodup_rotated (hhashes : (rows.map Row.refreshTokenHash).Nodup) {id : UUID}
    {oldHash newHash : Bytes} {now : Int} (hnew : ∀ row ∈ rows, row.refreshTokenHash ≠ newHash) :
    ((Table.updateWhere (rotateCond id oldHash now) (rotateSet newHash now) rows).map
      Row.refreshTokenHash).Nodup := by
  have hold : ∀ row, (if rotateCond id oldHash now row = true then rotateSet newHash now row
      else row).refreshTokenHash =
        if rotateCond id oldHash now row = true then newHash else row.refreshTokenHash := by
    intro row
    split <;> rfl
  rw [Table.updateWhere, List.map_map]
  apply hhashes.of_map.map_on
  intro first hfirst second hsecond heq
  rw [Function.comp_apply, Function.comp_apply, hold, hold] at heq
  apply List.inj_on_of_nodup_map hhashes hfirst hsecond
  split at heq <;> split at heq
  · next hcond hcond' =>
      exact (rotateCond_iff.mp hcond).2.1.trans (rotateCond_iff.mp hcond').2.1.symm
  · exact absurd heq.symm (hnew second hsecond)
  · exact absurd heq (hnew first hfirst)
  · exact heq

theorem rotateToken_of_new (hhashes : (rows.map Row.refreshTokenHash).Nodup) (id : UUID)
    (oldHash : Bytes) {newHash : Bytes} (now : Int)
    (hnew : ∀ row ∈ rows, row.refreshTokenHash ≠ newHash) :
    rotateToken rows id oldHash newHash now =
      some (Table.updateWhere (rotateCond id oldHash now) (rotateSet newHash now) rows,
        rows.countP (rotateCond id oldHash now)) :=
  if_pos (nodup_rotated hhashes hnew)

/-- Other users' rows are not on the list. -/
theorem listActiveByUser_part (now : Int) :
    listActiveByUser (rows.filter (Row.ownedBy user)) user now =
      listActiveByUser rows user now := by
  rw [listActiveByUser, List.filter_filter, listActiveByUser]
  congr 3
  funext row
  rw [Row.ownedBy]
  cases decide (row.userID = user) <;> simp

/-- A statement of the user's own call does on the user's rows what it does on the table,
with the same result, if what it stores is new and the token that it presented finds only
rows of the user. -/
theorem Phase.turn_part (hours : before.ours user issued ≠ some false)
    (hcreate : ∀ token session, before = .creating token session → ∀ row ∈ rows,
      row.id ≠ session.id ∧ row.refreshTokenHash ≠ session.refreshTokenHash)
    (hrotate : ∀ token now session next, before = .rotating token now session next →
      ∀ row ∈ rows, row.refreshTokenHash ≠ service.sha256 next)
    (hhashes : (rows.map Row.refreshTokenHash).Nodup)
    (hinside : ∀ token, before.presented = some token → ∀ row ∈ rows,
      row.refreshTokenHash = service.sha256 token → row.ownedBy user = true) :
    before.turn service i (rows.filter (Row.ownedBy user)) =
      (before.turn service i rows).map (Turn.part user) := by
  have hpart : ∀ row ∈ rows.filter (Row.ownedBy user), row ∈ rows :=
    fun row hrow => List.mem_of_mem_filter hrow
  cases before with
  | creating token session =>
      have hnew := hcreate token session rfl
      have hours' : session.toRow.ownedBy user = true := by
        cases howned : session.toRow.ownedBy user with
        | true => rfl
        | false => exact absurd (congrArg some howned) hours
      have hall : create rows session = some (rows ++ [session.toRow]) :=
        create_of_new (fun row hrow => (hnew row hrow).1) fun row hrow => (hnew row hrow).2
      have hsome : create (rows.filter (Row.ownedBy user)) session =
          some (rows.filter (Row.ownedBy user) ++ [session.toRow]) :=
        create_of_new (fun row hrow => (hnew row (hpart row hrow)).1) fun row hrow =>
          (hnew row (hpart row hrow)).2
      simp only [Phase.turn, hall, hsome, Option.map_some, Turn.part, List.filter_append,
        List.filter_singleton, hours', cond_true]
  | finding token now =>
      have hfind : findActiveByTokenHash (rows.filter (Row.ownedBy user)) (service.sha256 token)
          now = findActiveByTokenHash rows (service.sha256 token) now := by
        rw [findActiveByTokenHash, Table.find?_filter_of_inside, findActiveByTokenHash]
        intro row hrow hcond
        rw [Bool.and_eq_true, decide_eq_true_eq] at hcond
        exact hinside token rfl row hrow hcond.1
      simp only [Phase.turn, hfind]
      cases findActiveByTokenHash rows (service.sha256 token) now <;> rfl
  | discarding token now | loggingOut token now =>
      have hrevoke : revokeByTokenHash (rows.filter (Row.ownedBy user)) (service.sha256 token) now =
          (revokeByTokenHash rows (service.sha256 token) now).filter (Row.ownedBy user) :=
        (Table.filter_updateWhere (ownedBy_revokeSet now)).symm
      simp only [Phase.turn, hrevoke, Option.map_some, Turn.part]
  | rotating token now session next =>
      have hnew := hrotate token now session next rfl
      have hhashes' : ((rows.filter (Row.ownedBy user)).map Row.refreshTokenHash).Nodup :=
        hhashes.sublist (List.filter_sublist.map _)
      have hcount : (rows.filter (Row.ownedBy user)).countP
          (rotateCond session.id (service.sha256 token) now) =
            rows.countP (rotateCond session.id (service.sha256 token) now) := by
        apply Table.countP_filter_of_inside
        intro row hrow hcond
        exact hinside token rfl row hrow (rotateCond_iff.mp hcond).2.1
      rw [Phase.turn, Phase.turn, rotateToken_of_new hhashes _ _ _ hnew,
        rotateToken_of_new hhashes' _ _ _ fun row hrow => hnew row (hpart row hrow), hcount,
        ← Table.filter_updateWhere (ownedBy_rotateSet _ now)]
      by_cases hone : rows.countP (rotateCond session.id (service.sha256 token) now) = 1
      · simp only [if_pos hone, Option.map_some, Turn.part]
      · simp only [if_neg hone, Option.map_some, Turn.part]
  | revoking id userID now =>
      have hours' : userID = user := by
        by_contra hne
        exact hours (congrArg some (decide_eq_false hne))
      have hcount : (rows.filter (Row.ownedBy user)).countP (revokeCond id userID) =
          rows.countP (revokeCond id userID) := by
        apply Table.countP_filter_of_inside
        intro row _ hcond
        exact decide_eq_true ((revokeCond_iff.mp hcond).2.1.trans hours')
      simp only [Phase.turn, revoke, hcount, Option.map_some, Turn.part,
        Table.filter_updateWhere (ownedBy_revokeSet now)]
      rfl
  | listing userID now =>
      have hours' : userID = user := by
        by_contra hne
        exact hours (congrArg some (decide_eq_false hne))
      subst hours'
      simp only [Phase.turn, listActiveByUser_part, Option.map_some, Turn.part]
  | idle | checking | done => rfl

/-- A step that executes no statement does not look at the table. -/
theorem Label.turn_of_ne_exec (service : Service) (clock : Int) (i : Nat) (before : Phase)
    {label : Label} (hexec : ∀ j, label ≠ .exec j) :
    ∃ phase : Option (Phase × List GoString), ∀ rows,
      label.turn service clock rows i before =
        phase.map fun after => ⟨rows, after.1, after.2, []⟩ := by
  cases label with
  | tick time => exact ⟨none, fun _ => rfl⟩
  | exec j => exact absurd rfl (hexec j)
  | login j lookup verified client id token issued =>
      by_cases hidle : before = .idle
      · refine ⟨some ((loginTurn service clock [] lookup verified client id token issued).phase,
          (loginTurn service clock [] lookup verified client id token issued).fresh), ?_⟩
        intro rows
        simp only [Label.turn, if_pos hidle, Option.map_some, loginTurn]
        cases loginCheck lookup verified with
        | error err => rfl
        | ok user =>
            cases token with
            | none => rfl
            | some token => cases issued <;> rfl
      · exact ⟨none, fun _ => if_neg hidle⟩
  | check j lookup next issued =>
      cases before with
      | checking token now session =>
          refine ⟨some ((checkTurn [] token now session lookup next issued).phase,
            (checkTurn [] token now session lookup next issued).fresh), ?_⟩
          intro rows
          simp only [Label.turn, Option.map_some, checkTurn]
          cases refreshCheck lookup with
          | discard => rfl
          | giveUp => rfl
          | proceed =>
              cases next with
              | none => rfl
              | some next => cases issued <;> rfl
      | _ => exact ⟨none, fun _ => rfl⟩
  | fail j =>
      refine ⟨before.failure.map fun err => (.done (.failed err), []), ?_⟩
      intro rows
      rw [Label.turn, Option.map_map]
      rfl
  | refresh j token | logout j token | revokeSession j userID id | listSessions j userID =>
      by_cases hidle : before = .idle
      · exact ⟨some (_, []), fun _ => if_pos hidle⟩
      · exact ⟨none, fun _ => if_neg hidle⟩

/-- A step that executes no statement leaves the table alone. -/
theorem turn_rows_of_ne_exec {label : Label} (hexec : ∀ j, label ≠ .exec j)
    (hturn : label.turn service clock rows i before = some turn) : turn.rows = rows := by
  obtain ⟨phase, hlocal⟩ := Label.turn_of_ne_exec service clock i before hexec
  rw [hlocal] at hturn
  obtain ⟨after, -, rfl⟩ := Option.map_eq_some_iff.mp hturn
  rfl

theorem loginCheck_eq_ok {lookup : Lookup} {verified : Option Bool} {found : User}
    (hok : loginCheck lookup verified = .ok found) : lookup = .found found := by
  unfold loginCheck at hok
  split at hok
  · split at hok
    · cases hok
    · split at hok
      · cases hok
      · split at hok
        · cases hok
          rfl
        · cases hok
  · cases hok
  · cases hok

theorem loginTurn_cases (lookup : Lookup) (verified : Option Bool) (client : ClientInfo) (id : UUID)
    (token : Option GoString) (issued : Bool) :
    (∃ answer, (loginTurn service clock rows lookup verified client id token issued).phase =
      .done answer) ∨
    ∃ found first, loginCheck lookup verified = .ok found ∧ token = some first ∧ issued = true ∧
      (loginTurn service clock rows lookup verified client id token issued).phase =
        .creating first (newSession service found id first client clock) := by
  unfold loginTurn
  cases loginCheck lookup verified with
  | error err => exact .inl ⟨_, rfl⟩
  | ok found =>
      cases token with
      | none => exact .inl ⟨_, rfl⟩
      | some first =>
          cases issued with
          | false => exact .inl ⟨_, rfl⟩
          | true => exact .inr ⟨found, first, rfl, rfl, rfl, rfl⟩

theorem checkTurn_cases (token : GoString) (now : Int) (session : Session) (lookup : Lookup)
    (next : Option GoString) (issued : Bool) :
    (∃ answer, (checkTurn rows token now session lookup next issued).phase = .done answer) ∨
    (checkTurn rows token now session lookup next issued).phase = .discarding token now ∨
    ∃ second, (checkTurn rows token now session lookup next issued).phase =
      .rotating token now session second := by
  unfold checkTurn
  cases refreshCheck lookup with
  | discard => exact .inr (.inl rfl)
  | giveUp => exact .inl ⟨_, rfl⟩
  | proceed =>
      cases next with
      | none => exact .inl ⟨_, rfl⟩
      | some second =>
          cases issued with
          | false => exact .inl ⟨_, rfl⟩
          | true => exact .inr (.inr ⟨second, rfl⟩)

/-- How a call gets to its next phase: it returns, it begins, or it goes on with the token
that it has presented. -/
theorem Label.turn_cases {label : Label}
    (hturn : label.turn service clock rows i before = some turn) :
    (∃ answer, turn.phase = .done answer) ∨
    (before = .idle ∧ ∃ phase, label.begins clock = some (label.call.getD 0, phase) ∧
      turn.phase = phase) ∨
    (before = .idle ∧ ∃ j found verified client id token,
      label = .login j (.found found) verified client id (some token) true ∧
      label.mints = some id ∧
      turn.phase = .creating token (newSession service found id token client clock)) ∨
    ∃ token, before.presented = some token ∧ turn.phase.presented = some token ∧
      ∀ user issued, turn.phase.ours user issued = before.ours user issued := by
  cases label with
  | tick time => cases hturn
  | login j lookup verified client id token issued =>
      obtain ⟨hidle, hturn⟩ := Option.ite_none_right_eq_some.mp hturn
      obtain rfl := Option.some.inj hturn
      obtain hdone | ⟨found, first, hcheck, rfl, rfl, hphase⟩ :=
        loginTurn_cases lookup verified client id token issued
      · exact .inl hdone
      · have hmints : (Label.login j lookup verified client id (some first) true).mints =
            some id := by
          simp [Label.mints, hcheck, Except.toOption]
        obtain rfl := loginCheck_eq_ok hcheck
        exact .inr (.inr (.inl ⟨hidle, j, found, verified, client, id, first, rfl, hmints, hphase⟩))
  | check j lookup next issued =>
      cases before with
      | checking token now session =>
          obtain rfl := Option.some.inj hturn
          obtain hdone | hphase | ⟨second, hphase⟩ :=
            checkTurn_cases token now session lookup next issued
          · exact .inl hdone
          · refine .inr (.inr (.inr ⟨token, rfl, ?_, fun user issued => ?_⟩)) <;>
              rw [hphase] <;> rfl
          · refine .inr (.inr (.inr ⟨token, rfl, ?_, fun user issued => ?_⟩)) <;>
              rw [hphase] <;> rfl
      | _ => cases hturn
  | exec j =>
      cases before with
      | creating token session =>
          simp only [Label.turn, Phase.turn] at hturn
          split at hturn <;> cases hturn <;> exact .inl ⟨_, rfl⟩
      | finding token now =>
          simp only [Label.turn, Phase.turn] at hturn
          split at hturn
          · cases hturn
            exact .inr (.inr (.inr ⟨token, rfl, rfl, fun _ _ => rfl⟩))
          · cases hturn
            exact .inl ⟨_, rfl⟩
      | rotating token now session next =>
          simp only [Label.turn, Phase.turn] at hturn
          split at hturn
          · cases hturn
            exact .inl ⟨_, rfl⟩
          · split at hturn <;> cases hturn <;> exact .inl ⟨_, rfl⟩
      | discarding token now | loggingOut token now =>
          cases hturn
          exact .inl ⟨_, rfl⟩
      | revoking id userID now =>
          cases hturn
          exact .inl ⟨_, rfl⟩
      | listing userID now =>
          cases hturn
          exact .inl ⟨_, rfl⟩
      | idle | checking | done => cases hturn
  | fail j =>
      obtain ⟨err, -, rfl⟩ := Option.map_eq_some_iff.mp hturn
      exact .inl ⟨_, rfl⟩
  | refresh j token | logout j token | revokeSession j userID id | listSessions j userID =>
      obtain ⟨hidle, hturn⟩ := Option.ite_none_right_eq_some.mp hturn
      obtain rfl := Option.some.inj hturn
      exact .inr (.inl ⟨hidle, _, rfl, rfl⟩)

theorem Label.begins_presented {label : Label} {phase : Phase} {j : Nat} {token : GoString}
    (hbegins : label.begins clock = some (j, phase)) (htoken : phase.presented = some token) :
    label.presents = some token := by
  cases label <;>
    simp only [Label.begins, Option.some.injEq, Prod.mk.injEq, reduceCtorEq] at hbegins
  all_goals
    obtain ⟨-, rfl⟩ := hbegins
    exact htoken

theorem Label.begins_ours {label : Label} {phase : Phase} {j : Nat}
    (hbegins : label.begins clock = some (j, phase)) :
    phase.ours user issued = some (!label.foreign user issued) := by
  cases label <;>
    simp only [Label.begins, Option.some.injEq, Prod.mk.injEq, reduceCtorEq] at hbegins
  all_goals
    obtain ⟨-, rfl⟩ := hbegins
    simp [Phase.ours, Phase.presented, Label.foreign]

/-- A call in flight stays with its user, and one that begins belongs to the user unless
it begins as a foreign one. -/
theorem Label.turn_ours {label : Label} (hturn : label.turn service clock rows i before = some turn)
    {ours : Bool} (hours : turn.phase.ours user issued = some ours) :
    before.ours user issued = some ours ∨
      before = .idle ∧ ours = !label.foreign user issued := by
  obtain ⟨answer, hphase⟩ | ⟨hidle, phase, hbegins, rfl⟩ |
    ⟨hidle, j, found, verified, client, id, token, rfl, -, hphase⟩ |
    ⟨token, -, -, hsame⟩ := Label.turn_cases hturn
  · rw [hphase] at hours
    cases hours
  · rw [Label.begins_ours hbegins] at hours
    exact .inr ⟨hidle, (Option.some.inj hours).symm⟩
  · rw [hphase] at hours
    refine .inr ⟨hidle, ?_⟩
    rw [← Option.some.inj hours]
    simp only [Label.foreign, newSession, ne_eq, decide_not, Bool.not_not]
    rfl
  · rw [hsame] at hours
    exact .inl hours

theorem Label.turn_presented {label : Label}
    (hturn : label.turn service clock rows i before = some turn) {token : GoString}
    (htoken : turn.phase.presented = some token) :
    before.presented = some token ∨ label.presents = some token := by
  obtain ⟨answer, hphase⟩ | ⟨-, phase, hbegins, rfl⟩ |
    ⟨-, j, found, verified, client, id, token', -, -, hphase⟩ |
    ⟨token', hbefore, hafter, -⟩ := Label.turn_cases hturn
  · rw [hphase] at htoken
    cases htoken
  · exact .inr (Label.begins_presented hbegins htoken)
  · rw [hphase] at htoken
    cases htoken
  · rw [hafter] at htoken
    exact .inl (hbefore.trans htoken)

/-- A call that has begun does not begin again. -/
theorem Label.turn_ne_idle {label : Label}
    (hturn : label.turn service clock rows i before = some turn) : turn.phase ≠ .idle := by
  obtain ⟨answer, hphase⟩ | ⟨-, phase, hbegins, rfl⟩ |
    ⟨-, j, found, verified, client, id, token, -, -, hphase⟩ |
    ⟨token, -, hpresented, -⟩ := Label.turn_cases hturn
  · rw [hphase]
    exact Phase.noConfusion
  · intro hidle
    have hours : turn.phase.ours (.ofNat 0) [] = _ := Label.begins_ours hbegins
    rw [hidle] at hours
    cases hours
  · rw [hphase]
    exact Phase.noConfusion
  · intro hidle
    rw [hidle] at hpresented
    cases hpresented

/-- Only a call that begins is told to be foreign. -/
theorem Label.idle_of_foreign {label : Label} (hforeign : label.foreign user issued = true)
    (hturn : label.turn service clock rows i before = some turn) : before = .idle := by
  cases label with
  | login j lookup verified client id token issued =>
      exact (Option.ite_none_right_eq_some.mp hturn).1
  | refresh j token | logout j token | revokeSession j userID id | listSessions j userID =>
      exact (Option.ite_none_right_eq_some.mp hturn).1
  | tick | check | exec | fail => cases hforeign

/-- Where the rows come from: they keep their ids, and `Create` adds one. -/
theorem Label.turn_rows {label : Label} (hturn : label.turn service clock rows i before = some turn)
    {row : Row} (hrow : row ∈ turn.rows) :
    (∃ old ∈ rows, old.id = row.id) ∨
      ∃ token session, before = .creating token session ∧ row.id = session.id := by
  have hupdate : ∀ (cond : Row → Bool) (set : Row → Row), (∀ row, (set row).id = row.id) →
      row ∈ Table.updateWhere cond set rows → ∃ old ∈ rows, old.id = row.id := by
    intro cond set hset hmem
    rcases Table.mem_updateWhere.mp hmem with ⟨old, hold, -, rfl⟩ | ⟨hold, -⟩
    · exact ⟨old, hold, (hset old).symm⟩
    · exact ⟨row, hold, rfl⟩
  by_cases hexec : ∃ j, label = .exec j
  · obtain ⟨j, rfl⟩ := hexec
    cases before with
    | creating token session =>
        simp only [Label.turn, Phase.turn] at hturn
        split at hturn
        · next rows' hcreate =>
            obtain ⟨rfl, -, -⟩ := create_eq_some hcreate
            cases hturn
            rcases List.mem_append.mp hrow with hold | hnew
            · exact .inl ⟨row, hold, rfl⟩
            · exact .inr ⟨token, session, rfl, by rw [List.mem_singleton.mp hnew]; rfl⟩
        · cases hturn
          exact .inl ⟨row, hrow, rfl⟩
    | finding token now =>
        simp only [Label.turn, Phase.turn] at hturn
        split at hturn <;> cases hturn <;> exact .inl ⟨row, hrow, rfl⟩
    | rotating token now session next =>
        simp only [Label.turn, Phase.turn] at hturn
        split at hturn
        · cases hturn
          exact .inl ⟨row, hrow, rfl⟩
        · next rows' count hrotate =>
            obtain ⟨rfl, -, -⟩ := rotateToken_eq_some hrotate
            split at hturn <;> cases hturn <;> exact .inl (hupdate _ _ (rotateSet_id _ now) hrow)
    | discarding token now | loggingOut token now =>
        cases hturn
        exact .inl (hupdate _ _ (revokeSet_id now) hrow)
    | revoking id userID now =>
        cases hturn
        exact .inl (hupdate _ _ (revokeSet_id now) hrow)
    | listing userID now =>
        cases hturn
        exact .inl ⟨row, hrow, rfl⟩
    | idle | checking | done => cases hturn
  · rw [turn_rows_of_ne_exec (fun j heq => hexec ⟨j, heq⟩) hturn] at hrow
    exact .inl ⟨row, hrow, rfl⟩

end Local

/-! ## The invariant -/

section Take

variable {w : World} {i : Nat} {turn : Turn}

@[simp]
theorem World.take_calls_self : (w.take i turn).calls i = turn.phase := World.move_calls_self

theorem World.take_calls_of_ne {j : Nat} (hne : j ≠ i) : (w.take i turn).calls j = w.calls j :=
  World.move_calls_of_ne hne

/-- A step: time passes, or a call takes its turn. -/
theorem next_cases {service : Service} {label : Label} {v : World}
    (hnext : (system service).next w label = some v) :
    (∃ time, label = .tick time ∧ w.clock ≤ time ∧ v = { w with clock := time }) ∨
      ∃ i turn, label.call = some i ∧
        label.turn service w.clock w.rows i (w.calls i) = some turn ∧ v = w.take i turn := by
  cases hcall : label.call with
  | none =>
      cases label with
      | tick time =>
          obtain ⟨hle, htick⟩ := Option.ite_none_right_eq_some.mp hnext
          exact .inl ⟨time, rfl, hle, (Option.some.inj htick).symm⟩
      | _ => cases hcall
  | some i =>
      rw [next_eq_take hcall] at hnext
      obtain ⟨turn, hturn, rfl⟩ := Option.map_eq_some_iff.mp hnext
      exact .inr ⟨i, turn, rfl, hturn, rfl⟩

end Take

/-- What is known of the calls in flight: which of them are foreign, that they present
known tokens, and that the session ids they have generated are new and distinct. -/
structure Attributed (user : UUID) (issued : List GoString) (known : Set GoString)
    (foreign : List Nat) (ids : List UUID) (w : World) : Prop where
  owner : ∀ i ours, (w.calls i).ours user issued = some ours → (ours = true ↔ i ∉ foreign)
  begun : ∀ i ∈ foreign, w.calls i ≠ .idle
  presented : ∀ i token, (w.calls i).presented = some token → token ∈ known
  row_minted : ∀ row ∈ w.rows, row.id ∈ ids
  minted : ∀ i token session, w.calls i = .creating token session → session.id ∈ ids
  new : ∀ i token session, w.calls i = .creating token session →
    ∀ row ∈ w.rows, row.id ≠ session.id
  unique : ∀ i j token token' session session', w.calls i = .creating token session →
    w.calls j = .creating token' session' → session.id = session'.id → i = j

namespace Attributed

variable {service : Service} {user : UUID} {issued : List GoString} {known : Set GoString}
  {foreign : List Nat} {ids : List UUID} {w v : World} {label : Label}

theorem start (user : UUID) (issued : List GoString) (known : Set GoString) (clock : Int) :
    Attributed user issued known [] [] (World.start clock) := by
  constructor
  case owner =>
    intro i ours hours
    cases hours
  case presented =>
    intro i token hpresented
    cases hpresented
  all_goals simp [World.start]

/-- A call that creates a session has just generated its id. -/
theorem creating_of_turn {i : Nat} {before : Phase} {turn : Turn} {clock : Int} {rows : List Row}
    (hturn : label.turn service clock rows i before = some turn) {token : GoString}
    {session : Session} (hphase : turn.phase = .creating token session) :
    label.mints = some session.id ∧ turn.rows = rows := by
  obtain ⟨answer, hdone⟩ | ⟨-, phase, hbegins, rfl⟩ |
    ⟨-, j, found, verified, client, id, token', rfl, hmints, hcreating⟩ |
    ⟨token', -, hpresented, -⟩ := Label.turn_cases hturn
  · rw [hdone] at hphase
    cases hphase
  · cases label <;>
      simp only [Label.begins, Option.some.injEq, Prod.mk.injEq, reduceCtorEq] at hbegins
    all_goals
      rw [hphase] at hbegins
      cases hbegins.2
  · rw [hcreating] at hphase
    cases hphase
    exact ⟨hmints, turn_rows_of_ne_exec (fun j => Label.noConfusion) hturn⟩
  · rw [hphase] at hpresented
    cases hpresented

section Take

variable {i : Nat} {turn : Turn}
  (hturn : label.turn service w.clock w.rows i (w.calls i) = some turn)

include hturn

/-- Whose call it is does not change, and is settled when it begins. -/
theorem owner_take (h : Attributed user issued known foreign ids w) {foreign' : List Nat}
    (hforeign : ∀ j, j ∈ foreign' ↔ j ∈ foreign ∨ label.foreign user issued = true ∧ j = i)
    (j : Nat) (ours : Bool) (hours : ((w.take i turn).calls j).ours user issued = some ours) :
    ours = true ↔ j ∉ foreign' := by
  rw [hforeign]
  by_cases hj : j = i
  · subst hj
    rw [World.take_calls_self] at hours
    rcases Label.turn_ours hturn hours with hbefore | ⟨hidle, rfl⟩
    · have hlocal : label.foreign user issued = false := by
        by_contra hlabel
        have hidle := Label.idle_of_foreign (Bool.eq_true_of_not_eq_false hlabel) hturn
        rw [hidle] at hbefore
        cases hbefore
      rw [h.owner j ours hbefore, hlocal]
      simp
    · have hnot : j ∉ foreign := fun hmem => h.begun j hmem hidle
      simp [hnot]
  · rw [World.take_calls_of_ne hj] at hours
    rw [h.owner j ours hours]
    simp [hj]

/-- The id that a call is about to store is not in the table. -/
theorem new_take (h : Attributed user issued known foreign ids w)
    (hids : ∀ id, label.mints = some id → id ∉ ids) (j : Nat) (token : GoString)
    (session : Session) (hphase : (w.take i turn).calls j = .creating token session) :
    ∀ row ∈ turn.rows, row.id ≠ session.id := by
  intro row hrow
  by_cases hj : j = i
  · subst hj
    rw [World.take_calls_self] at hphase
    obtain ⟨hmints, hrows⟩ := creating_of_turn hturn hphase
    have hold : row ∈ w.rows := hrows ▸ hrow
    exact fun heq => hids session.id hmints (heq ▸ h.row_minted row hold)
  · rw [World.take_calls_of_ne hj] at hphase
    rcases Label.turn_rows hturn hrow with ⟨old, hold, hid⟩ | ⟨token', session', hphase', hid⟩
    · exact hid ▸ h.new j token session hphase old hold
    · intro heq
      exact hj (h.unique j i token token' session session' hphase hphase' (heq.symm.trans hid))

/-- No two calls are about to store the same id. -/
theorem unique_take (h : Attributed user issued known foreign ids w)
    (hids : ∀ id, label.mints = some id → id ∉ ids) (j k : Nat) (token token' : GoString)
    (session session' : Session) (hphase : (w.take i turn).calls j = .creating token session)
    (hphase' : (w.take i turn).calls k = .creating token' session')
    (heq : session.id = session'.id) : j = k := by
  -- An id that has just been generated is not one that a call carries.
  have hfresh : ∀ token session token' session', turn.phase = .creating token session →
      ∀ l, w.calls l = .creating token' session' → session.id ≠ session'.id := by
    intro token session token' session' hturn' l hl heq
    exact hids session.id (creating_of_turn hturn hturn').1
      (heq ▸ h.minted l token' session' hl)
  by_cases hj : j = i <;> by_cases hk : k = i
  · exact hj.trans hk.symm
  · subst hj
    rw [World.take_calls_self] at hphase
    rw [World.take_calls_of_ne hk] at hphase'
    exact absurd heq (hfresh _ _ _ _ hphase k hphase')
  · subst hk
    rw [World.take_calls_self] at hphase'
    rw [World.take_calls_of_ne hj] at hphase
    exact absurd heq.symm (hfresh _ _ _ _ hphase' j hphase)
  · rw [World.take_calls_of_ne hj] at hphase
    rw [World.take_calls_of_ne hk] at hphase'
    exact h.unique j k token token' session session' hphase hphase' heq

end Take

theorem step (h : Attributed user issued known foreign ids w)
    (hnext : (system service).next w label = some v)
    (hknown : ∀ token, label.presents = some token → token ∈ known)
    (hids : ∀ id, label.mints = some id → id ∉ ids) :
    Attributed user issued known (label.foreignAfter user issued foreign)
      (label.mints.toList ++ ids) v := by
  obtain ⟨time, rfl, -, rfl⟩ | ⟨i, turn, hcall, hturn, rfl⟩ := next_cases hnext
  · exact ⟨h.1, h.2, h.3, h.4, h.5, h.6, h.7⟩
  have hforeign : ∀ j, j ∈ label.foreignAfter user issued foreign ↔
      j ∈ foreign ∨ label.foreign user issued = true ∧ j = i := by
    intro j
    unfold Label.foreignAfter
    split
    · next hlabel => simp [hcall, hlabel, or_comm]
    · next hlabel => simp [hlabel]
  constructor
  case owner => exact owner_take hturn h hforeign
  case begun =>
    intro j hmem
    by_cases hj : j = i
    · subst hj
      rw [World.take_calls_self]
      exact Label.turn_ne_idle hturn
    · rw [World.take_calls_of_ne hj]
      exact h.begun j (((hforeign j).mp hmem).resolve_right fun hnew => hj hnew.2)
  case presented =>
    intro j token htoken
    by_cases hj : j = i
    · subst hj
      rw [World.take_calls_self] at htoken
      exact (Label.turn_presented hturn htoken).elim (h.presented j token) (hknown token)
    · rw [World.take_calls_of_ne hj] at htoken
      exact h.presented j token htoken
  case row_minted =>
    intro row hrow
    apply List.mem_append_right
    rcases Label.turn_rows hturn hrow with ⟨old, hold, hid⟩ | ⟨token, session, hphase, hid⟩
    · exact hid ▸ h.row_minted old hold
    · exact hid ▸ h.minted i token session hphase
  case minted =>
    intro j token session hphase
    by_cases hj : j = i
    · subst hj
      rw [World.take_calls_self] at hphase
      rw [(creating_of_turn hturn hphase).1]
      exact List.mem_cons_self
    · rw [World.take_calls_of_ne hj] at hphase
      exact List.mem_append_right _ (h.minted j token session hphase)
  case new => exact new_take hturn h hids
  case unique => exact unique_take hturn h hids

end Attributed

/-! ## Whose token it is -/

section Tokens

variable {service : Service} {user : UUID} {w z : World} {labels : List Label}

/-- No token is stored twice. -/
theorem stored_nodup (hreach : (system service).Reachable w)
    (hdistinct : (w.generated.map service.sha256).Nodup) : (w.log.map Event.stored).Nodup := by
  revert hdistinct
  refine hreach.invariant (I := fun w => (w.generated.map service.sha256).Nodup →
    (w.log.map Event.stored).Nodup) ?_ ?_
  · intro w hinit _
    rw [hinit.2.2.2]
    exact List.nodup_nil
  · intro w label w' hprior ih hnext hdistinct
    cases step_of_next hnext with
    | tick hle => exact ih hdistinct
    | @move i _ after rows fresh events hmove =>
        rw [World.move_generated] at hdistinct
        have hprefix : (w.generated.map service.sha256).Nodup :=
          hdistinct.sublist ((List.sublist_append_right fresh w.generated).map _)
        have hcustody := Custody.of_reachable hprior hprefix
        have hcons : ∀ event : Event, (w.calls i).pending = some event.stored →
            ((event :: w.log).map Event.stored).Nodup := by
          intro event hpending
          rw [List.map_cons, List.nodup_cons]
          refine ⟨fun hmem => ?_, ih hprefix⟩
          obtain ⟨other, hother, heq⟩ := List.mem_map.mp hmem
          exact hcustody.pending_new i event.stored hpending other hother heq
        rw [World.move_log]
        obtain ⟨rfl, -⟩ | ⟨token, session, hphase, -, -, rfl, -⟩ |
          ⟨token, now, session, next, old, hphase, -, -, rfl, -⟩ := hmove.effect hcustody.ids
        · exact ih hprefix
        · exact hcons _ (congrArg Phase.pending hphase)
        · exact hcons _ (congrArg Phase.pending hphase)

/-- Neither the history nor the generated tokens are forgotten. -/
theorem suffix_of_run (hrun : (system service).run w labels = some z) :
    w.log <:+ z.log ∧ w.generated <:+ z.generated := by
  refine System.run_preserves (P := fun v => w.log <:+ v.log ∧ w.generated <:+ v.generated) ?_
    hrun ⟨List.suffix_rfl, List.suffix_rfl⟩
  intro v label v' hv hnext
  cases step_of_next hnext with
  | tick hle => exact hv
  | move hmove =>
      exact ⟨hv.1.trans (List.suffix_append _ _), hv.2.trans (List.suffix_append _ _)⟩

theorem mem_issuedTo {token : GoString} :
    token ∈ w.issuedTo user ↔ ∃ event ∈ w.log, event.stored = token ∧
      ∃ row ∈ w.rows, row.id = event.session ∧ row.ownedBy user = true := by
  simp only [World.issuedTo, List.mem_map, List.mem_filter, List.any_eq_true, Bool.and_eq_true,
    decide_eq_true_eq]
  apply Iff.intro
  · intro h
    obtain ⟨event, ⟨hevent, hrow⟩, hstored⟩ := h
    exact ⟨event, hevent, hstored, hrow⟩
  · intro h
    obtain ⟨event, hevent, hstored, hrow⟩ := h
    exact ⟨event, ⟨hevent, hrow⟩, hstored⟩

/-- At any point of a run, a token that a session has had is issued to the user in the end
exactly if the session is one of the user's. -/
theorem stored_mem_issuedTo_iff (hreach : (system service).Reachable w)
    (hrun : (system service).run w labels = some z)
    (hdistinct : (z.generated.map service.sha256).Nodup) {event : Event} (hevent : event ∈ w.log)
    {row : Row} (hrow : row ∈ w.rows) (hid : row.id = event.session) :
    event.stored ∈ z.issuedTo user ↔ row.ownedBy user = true := by
  have hlater := (suffix_of_run hrun).1.subset hevent
  obtain ⟨row', hrow', hsame⟩ := (row_after_run hreach hrow hrun).1
  have howned : row'.ownedBy user = row.ownedBy user := by
    rw [Row.ownedBy, hsame.userID, Row.ownedBy]
  rw [mem_issuedTo]
  apply Iff.intro
  · intro h
    obtain ⟨other, hother, hstored, row'', hrow'', hid'', howned''⟩ := h
    obtain rfl := List.inj_on_of_nodup_map (stored_nodup (hreach.run hrun) hdistinct) hother
      hlater hstored
    obtain rfl : row'' = row' := Table.eq_of_key_eq (Kept.of_reachable (hreach.run hrun)).ids
      hrow'' hrow' (hid''.trans (hid.symm.trans hsame.id.symm))
    rw [← howned]
    exact howned''
  · intro h
    exact ⟨event, hlater, rfl, row', hrow', hsame.id.trans hid, howned.trans h⟩

/-- A row that a known token finds is the user's exactly if the token was issued to the
user. -/
theorem mem_issuedTo_iff_ownedBy (hreach : (system service).Reachable w)
    (hrun : (system service).run w labels = some z)
    (hdistinct : (z.generated.map service.sha256).Nodup) {known : Set GoString}
    (hgenerated : ∀ token ∈ z.generated, token ∈ known)
    (hinjective : Set.InjOn service.sha256 known) {token : GoString} (htoken : token ∈ known)
    {row : Row} (hrow : row ∈ w.rows) (hhash : row.refreshTokenHash = service.sha256 token) :
    token ∈ z.issuedTo user ↔ row.ownedBy user = true := by
  have hsuffix := (suffix_of_run hrun).2
  have hcustody := Custody.of_reachable hreach
    (hdistinct.sublist (hsuffix.sublist.map service.sha256))
  obtain ⟨last, hchain, hlast⟩ := hcustody.chained row hrow
  obtain ⟨event, hevent, rfl⟩ := hchain.stored_mem
  have hlogged := mem_of_mem_history hevent
  have hsession : row.id = event.session := (of_decide_eq_true (List.mem_filter.mp hevent).2).symm
  obtain rfl : token = event.stored := hinjective htoken
    (hgenerated _ (hsuffix.subset (hcustody.stored_generated event hlogged)))
    (hhash.symm.trans hlast)
  exact stored_mem_issuedTo_iff hreach hrun hdistinct hlogged hrow hsession

/-- No row has the hash of a token that a call has generated and not stored yet. -/
theorem Custody.row_hash_ne (h : Custody service w)
    (hdistinct : (w.generated.map service.sha256).Nodup) {i : Nat} {token : GoString}
    (hpending : (w.calls i).pending = some token) {row : Row} (hrow : row ∈ w.rows) :
    row.refreshTokenHash ≠ service.sha256 token := by
  obtain ⟨last, hchain, hlast⟩ := h.chained row hrow
  obtain ⟨event, hevent, rfl⟩ := hchain.stored_mem
  rw [hlast]
  exact h.pending_hash_ne hdistinct hpending (mem_of_mem_history hevent)

end Tokens

/-! ## Two runs side by side -/

/-- The world of the run without foreign calls beside the world of the run: it has the
rows of the user, and the other calls stand where they stand. -/
structure Beside (user : UUID) (foreign : List Nat) (w w' : World) : Prop where
  clock : w'.clock = w.clock
  rows : w'.rows = w.rows.filter (Row.ownedBy user)
  calls : ∀ i, i ∉ foreign → w'.calls i = w.calls i

section Beside

variable {service : Service} {user : UUID} {issued : List GoString} {known : Set GoString}
  {foreign : List Nat} {ids : List UUID} {w w' v z : World} {label : Label} {labels : List Label}

theorem Phase.ours_of_presented {phase : Phase} {token : GoString}
    (hpresented : phase.presented = some token) :
    phase.ours user issued = some (decide (token ∈ issued)) := by
  cases phase <;> cases hpresented <;> rfl

theorem Phase.ours_of_turn (user : UUID) (issued : List GoString) {phase : Phase} {i : Nat}
    {rows : List Row} {turn : Turn} (hturn : phase.turn service i rows = some turn) :
    ∃ ours, phase.ours user issued = some ours := by
  cases phase with
  | idle | checking | done => cases hturn
  | _ => exact ⟨_, rfl⟩

/-- A step of a foreign call is not seen in the other run. -/
theorem Beside.skip (h : Beside user foreign w w')
    (hcalls : Attributed user issued known foreign ids w)
    (houtside : ∀ token ∈ known, token ∉ issued → ∀ row ∈ w.rows,
      row.refreshTokenHash = service.sha256 token → row.ownedBy user = false)
    (hforeign : label.call.any (· ∈ label.foreignAfter user issued foreign) = true)
    (hnext : (system service).next w label = some v) :
    Beside user (label.foreignAfter user issued foreign) v w' := by
  obtain ⟨time, rfl, -, -⟩ | ⟨i, turn, hcall, hturn, rfl⟩ := next_cases hnext
  · cases hforeign
  have hmem : i ∈ label.foreignAfter user issued foreign := by
    rw [hcall] at hforeign
    exact of_decide_eq_true hforeign
  have hrows : turn.rows.filter (Row.ownedBy user) = w.rows.filter (Row.ownedBy user) := by
    by_cases hexec : ∃ j, label = .exec j
    · obtain ⟨j, rfl⟩ := hexec
      obtain ⟨ours, hours⟩ := Phase.ours_of_turn user issued hturn
      have hfalse : ours = false := by
        rw [← Bool.not_eq_true, hcalls.owner i ours hours]
        exact fun hnot => hnot hmem
      apply Phase.turn_outside (hfalse ▸ hours) _ hturn
      intro token htoken row hrow hhash
      rw [Phase.ours_of_presented htoken, hfalse] at hours
      exact houtside token (hcalls.presented i token htoken)
        (of_decide_eq_false (Option.some.inj hours)) row hrow hhash
    · rw [turn_rows_of_ne_exec (fun j heq => hexec ⟨j, heq⟩) hturn]
  refine ⟨h.clock, h.rows.trans hrows.symm, ?_⟩
  intro j hj
  have hne : j ≠ i := fun heq => hj (heq ▸ hmem)
  have hold : j ∉ foreign := by
    intro hmem'
    apply hj
    unfold Label.foreignAfter
    split
    · exact List.mem_append_right _ hmem'
    · exact hmem'
  rw [World.take_calls_of_ne hne]
  exact h.calls j hold

/-- A step of another call is a step of the other run. -/
theorem Beside.follow (h : Beside user foreign w w')
    (hcalls : Attributed user issued known foreign ids w)
    (hcustody : Custody service w) (hdistinct : (w.generated.map service.sha256).Nodup)
    (hinside : ∀ token ∈ known, token ∈ issued → ∀ row ∈ w.rows,
      row.refreshTokenHash = service.sha256 token → row.ownedBy user = true)
    (hours : label.call.any (· ∈ label.foreignAfter user issued foreign) = false)
    (hnext : (system service).next w label = some v) :
    ∃ v', (system service).next w' label = some v' ∧
      Beside user (label.foreignAfter user issued foreign) v v' := by
  obtain ⟨time, rfl, hle, rfl⟩ | ⟨i, turn, hcall, hturn, rfl⟩ := next_cases hnext
  · refine ⟨{ w' with clock := time }, if_pos (h.clock ▸ hle), rfl, h.rows, h.calls⟩
  have hnot : i ∉ label.foreignAfter user issued foreign := by
    rw [hcall] at hours
    exact of_decide_eq_false hours
  have hafter : label.foreignAfter user issued foreign = foreign := by
    unfold Label.foreignAfter at hnot ⊢
    split at hnot
    · rw [hcall] at hnot
      exact absurd List.mem_cons_self hnot
    · next hlabel => rw [if_neg hlabel]
  rw [hafter] at hnot ⊢
  have hpart : label.turn service w'.clock w'.rows i (w'.calls i) = some (turn.part user) := by
    rw [h.clock, h.rows, h.calls i hnot]
    by_cases hexec : ∃ j, label = .exec j
    · obtain ⟨j, rfl⟩ := hexec
      have hturn' : (w.calls i).turn service i w.rows = some turn := hturn
      have howner : ∀ ours, (w.calls i).ours user issued = some ours → ours = true :=
        fun ours hval => (hcalls.owner i ours hval).mpr hnot
      have hown : (w.calls i).ours user issued ≠ some false := by
        intro hval
        cases howner false hval
      have hlocal : (w.calls i).turn service i (w.rows.filter (Row.ownedBy user)) =
          ((w.calls i).turn service i w.rows).map (Turn.part user) := by
        apply Phase.turn_part hown
        · intro token session hphase row hrow
          refine ⟨hcalls.new i token session hphase row hrow, ?_⟩
          rw [hcustody.creating i token session hphase]
          exact hcustody.row_hash_ne hdistinct (congrArg Phase.pending hphase) hrow
        · intro token now session next hphase row hrow
          exact hcustody.row_hash_ne hdistinct (congrArg Phase.pending hphase) hrow
        · exact hcustody.hashes
        · intro token htoken row hrow hhash
          have hval := howner _ (Phase.ours_of_presented htoken)
          exact hinside token (hcalls.presented i token htoken) (of_decide_eq_true hval) row hrow
            hhash
      rw [hturn', Option.map_some] at hlocal
      exact hlocal
    · obtain ⟨phase, hlocal⟩ := Label.turn_of_ne_exec service w.clock i (w.calls i)
        fun j heq => hexec ⟨j, heq⟩
      rw [hlocal] at hturn ⊢
      obtain ⟨after, hsome, rfl⟩ := Option.map_eq_some_iff.mp hturn
      rw [hsome]
      rfl
  refine ⟨w'.take i (turn.part user), ?_, h.clock, rfl, ?_⟩
  · rw [next_eq_take hcall, hpart]
    rfl
  · intro j hj
    by_cases hji : j = i
    · subst hji
      rw [World.take_calls_self, World.take_calls_self]
      rfl
    · rw [World.take_calls_of_ne hji, World.take_calls_of_ne hji]
      exact h.calls j hj

/-- The foreign calls of a run: those that begin as such. -/
theorem mem_foldl_foreignAfter {i : Nat} :
    i ∈ labels.foldl (fun calls label => label.foreignAfter user issued calls) foreign ↔
      i ∈ foreign ∨ ∃ label ∈ labels, label.call = some i ∧ label.foreign user issued = true := by
  induction labels generalizing foreign with
  | nil => simp
  | cons label rest ih =>
      have hmem : i ∈ label.foreignAfter user issued foreign ↔
          i ∈ foreign ∨ label.call = some i ∧ label.foreign user issued = true := by
        unfold Label.foreignAfter
        split
        · next hlabel => simp [hlabel, or_comm]
        · next hlabel => simp [hlabel]
      rw [List.foldl_cons, ih, hmem, or_assoc, List.exists_mem_cons_iff]

/-- Every part of a run has its counterpart without the foreign calls. -/
theorem Beside.run {rest : List Label} (hreach : (system service).Reachable w)
    (hrun : (system service).run w (labels ++ rest) = some z)
    (hdistinct : (z.generated.map service.sha256).Nodup)
    (hgenerated : ∀ token ∈ z.generated, token ∈ known)
    (hinjective : Set.InjOn service.sha256 known)
    (hknown : ∀ label ∈ labels, ∀ token, label.presents = some token → token ∈ known)
    (hids : (ids ++ labels.filterMap Label.mints).Nodup)
    (hcalls : Attributed user (z.issuedTo user) known foreign ids w)
    (h : Beside user foreign w w') :
    ∃ v v', (system service).run w labels = some v ∧
      (system service).run w' (purge user (z.issuedTo user) foreign labels) = some v' ∧
      Beside user
        (labels.foldl (fun calls label => label.foreignAfter user (z.issuedTo user) calls) foreign)
        v v' := by
  induction labels generalizing w w' foreign ids with
  | nil => exact ⟨w, w', rfl, rfl, h⟩
  | cons label labels ih =>
      have howned : ∀ token ∈ known, ∀ row ∈ w.rows, row.refreshTokenHash = service.sha256 token →
          (token ∈ z.issuedTo user ↔ row.ownedBy user = true) := fun token htoken row hrow hhash =>
        mem_issuedTo_iff_ownedBy hreach hrun hdistinct hgenerated hinjective htoken hrow hhash
      have hdistinct' : (w.generated.map service.sha256).Nodup :=
        hdistinct.sublist ((suffix_of_run hrun).2.sublist.map _)
      rw [List.cons_append, System.run_cons, Option.bind_eq_some_iff] at hrun
      obtain ⟨mid, hnext, hrest⟩ := hrun
      have hfresh : ∀ id, label.mints = some id → id ∉ ids := by
        intro id hmints hmem
        rw [List.filterMap_cons_some hmints, List.nodup_append] at hids
        exact hids.2.2 id hmem id List.mem_cons_self rfl
      have hids' : (label.mints.toList ++ ids ++ labels.filterMap Label.mints).Nodup := by
        cases hmints : label.mints with
        | none => rwa [List.filterMap_cons_none hmints] at hids
        | some id =>
            rw [List.filterMap_cons_some hmints] at hids
            exact (List.perm_middle.nodup_iff.mp hids)
      have hcalls' := hcalls.step hnext (hknown label List.mem_cons_self) hfresh
      have hknown' : ∀ label ∈ labels, ∀ token, label.presents = some token → token ∈ known :=
        fun label' hlabel' => hknown label' (List.mem_cons_of_mem _ hlabel')
      cases hforeign : label.call.any (· ∈ label.foreignAfter user (z.issuedTo user) foreign) with
      | true =>
          have houtside : ∀ token ∈ known, token ∉ z.issuedTo user → ∀ row ∈ w.rows,
              row.refreshTokenHash = service.sha256 token → row.ownedBy user = false := by
            intro token htoken hissued row hrow hhash
            rw [howned token htoken row hrow hhash, Bool.not_eq_true] at hissued
            exact hissued
          have hskip := h.skip hcalls houtside hforeign hnext
          obtain ⟨v, v', hv, hv', hbeside⟩ :=
            ih (hreach.step hnext) hrest hknown' hids' hcalls' hskip
          refine ⟨v, v', by rw [System.run_cons, hnext]; exact hv, ?_, hbeside⟩
          simp only [purge, hforeign, if_true]
          exact hv'
      | false =>
          have hinside : ∀ token ∈ known, token ∈ z.issuedTo user → ∀ row ∈ w.rows,
              row.refreshTokenHash = service.sha256 token → row.ownedBy user = true :=
            fun token htoken hissued row hrow hhash =>
              (howned token htoken row hrow hhash).mp hissued
          obtain ⟨mid', hnext', hfollow⟩ := h.follow hcalls
            (Custody.of_reachable hreach hdistinct') hdistinct' hinside hforeign hnext
          obtain ⟨v, v', hv, hv', hbeside⟩ :=
            ih (hreach.step hnext) hrest hknown' hids' hcalls' hfollow
          refine ⟨v, v', by rw [System.run_cons, hnext]; exact hv, ?_, hbeside⟩
          simp only [purge, hforeign, Bool.false_eq_true, if_false]
          rw [System.run_cons, hnext']
          exact hv'

end Beside

/-! ## Isolation -/

/-- Whether a session id does not exist or belongs to another user, `Revoke` finds no row. -/
theorem next_exec_revoking {service : Service} {w : World} {i : Nat} {id userID : UUID} {now : Int}
    (hphase : w.calls i = .revoking id userID now)
    (hnone : ∀ row ∈ w.rows, row.id = id → row.userID ≠ userID) :
    (system service).next w (.exec i) = some (w.answer i (.failed .sessionNotFound)) := by
  have hmiss : ∀ row ∈ w.rows, revokeCond id userID row = false := by
    intro row hrow
    by_contra hcond
    rw [Bool.not_eq_false, revokeCond_iff] at hcond
    exact hnone row hrow hcond.1 hcond.2.1
  have hcount : w.rows.countP (revokeCond id userID) = 0 :=
    List.countP_eq_zero.mpr fun row hrow => by simp [hmiss row hrow]
  have hrevoke : revoke w.rows id userID now = (w.rows, 0) := by
    rw [revoke, Table.updateWhere_eq_self hmiss, hcount]
  have hexec : (system service).next w (.exec i) = w.exec service i (w.calls i) := rfl
  rw [hexec, hphase]
  simp only [World.exec, hrevoke]
  rfl

/-- Deleting the calls of other users from a run changes, at no point, the rows of the user
or where any of the remaining calls stands, its result included; and `RevokeSession` answers
the same for a session of another user as for one that does not exist. -/
theorem sessions_isolated {service : Service} {clock : Int} {labels : List Label} {w : World}
    (user : UUID) (hrun : (system service).run (World.start clock) labels = some w)
    (htokens : w.generated.Nodup) (hids : (labels.filterMap Label.mints).Nodup)
    (hinjective : Set.InjOn service.sha256 {token | token ∈ w.generated ∨
      ∃ label ∈ labels, label.presents = some token}) :
    (∀ before after, labels = before ++ after → ∃ v v',
      (system service).run (World.start clock) before = some v ∧
      (system service).run (World.start clock) (purge user (w.issuedTo user) [] before) =
        some v' ∧
      v'.rows.filter (Row.ownedBy user) = v.rows.filter (Row.ownedBy user) ∧
      ∀ i, (∀ label ∈ before, label.call = some i →
        label.foreign user (w.issuedTo user) = false) → v'.calls i = v.calls i) ∧
    ∀ (v : World) i id userID now, v.calls i = .revoking id userID now →
      (∀ row ∈ v.rows, row.id = id → row.userID ≠ userID) →
      (system service).next v (.exec i) = some (v.answer i (.failed .sessionNotFound)) := by
  refine ⟨?_, fun v i id userID now hphase hnone => next_exec_revoking hphase hnone⟩
  intro before after heq
  subst heq
  have hdistinct : (w.generated.map service.sha256).Nodup :=
    htokens.map_on fun first hfirst second hsecond hsame =>
      hinjective (Or.inl hfirst) (Or.inl hsecond) hsame
  have hminted : ([] ++ before.filterMap Label.mints).Nodup := by
    rw [List.filterMap_append] at hids
    exact hids.sublist (List.sublist_append_left _ _)
  obtain ⟨v, v', hv, hv', hbeside⟩ := Beside.run (.init (init_start service clock)) hrun hdistinct
    (fun token htoken => Or.inl htoken) hinjective
    (fun label hlabel token htoken => Or.inr ⟨label, List.mem_append_left _ hlabel, htoken⟩)
    hminted (Attributed.start user _ _ clock) ⟨rfl, rfl, fun _ _ => rfl⟩
  refine ⟨v, v', hv, hv', ?_, ?_⟩
  · rw [hbeside.rows, List.filter_filter]
    simp
  · intro i hours
    apply hbeside.calls
    rw [mem_foldl_foreignAfter]
    intro hmem
    rcases hmem with hmem | ⟨label, hlabel, hcall, hforeign⟩
    · cases hmem
    · rw [hours label hlabel hcall] at hforeign
      cases hforeign

/-- Two users log in.  The second one tries to revoke the session of the first and logs out;
the first one refreshes and asks for the list. -/
def mixedRun : List Label :=
  let ada : User := ⟨.ofNat 1, "Ada", "ada@example.org", "$argon2id$", true, "local", "", 0, 0⟩
  let ben : User := ⟨.ofNat 9, "Ben", "ben@example.org", "$argon2id$", true, "local", "", 0, 0⟩
  [.login 0 (.found ada) (some true) ⟨[], []⟩ (.ofNat 2) (some [1]) true, .exec 0,
    .login 1 (.found ben) (some true) ⟨[], []⟩ (.ofNat 3) (some [2]) true, .exec 1,
    .revokeSession 2 (.ofNat 9) (.ofNat 2), .refresh 3 [1], .exec 3, .exec 2, .logout 4 [2],
    .check 3 (.found ada) (some [3]) true, .exec 4, .exec 3, .listSessions 5 (.ofNat 1), .exec 5]

/-- Without the calls of the second user, the first one gets the same list. -/
theorem sessions_isolated_mixedRun :
    ∃ w v', (system .sample).run (World.start 0) mixedRun = some w ∧
      (system .sample).run (World.start 0) (purge (.ofNat 1) [[3], [1]] [] mixedRun) = some v' ∧
      (purge (.ofNat 1) [[3], [1]] [] mixedRun).length = 8 ∧
      w.calls 2 = .done (.failed .sessionNotFound) ∧ v'.calls 5 = w.calls 5 := by
  have heval : ((system .sample).run (World.start 0) mixedRun).map (fun w =>
      (w.generated, w.issuedTo (.ofNat 1), w.calls 2)) =
        some ([[3], [2], [1]], [[3], [1]], .done (.failed .sessionNotFound)) := by
    decide +kernel
  obtain ⟨w, hrun, hw⟩ := Option.map_eq_some_iff.mp heval
  simp only [Prod.mk.injEq] at hw
  obtain ⟨hgenerated, hissued, hanswer⟩ := hw
  have hinjective : Set.InjOn Service.sample.sha256 {token | token ∈ w.generated ∨
      ∃ label ∈ mixedRun, label.presents = some token} := by
    have hpresents : ∀ label ∈ mixedRun, ∀ token, label.presents = some token →
        token ∈ [[3], [2], [1]] := by
      simp [mixedRun, Label.presents]
    have hknown : ∀ token, (token ∈ w.generated ∨
        ∃ label ∈ mixedRun, label.presents = some token) → token ∈ [[3], [2], [1]] := by
      intro token htoken
      rcases htoken with hmem | ⟨label, hlabel, hpresented⟩
      · exact hgenerated ▸ hmem
      · exact hpresents label hlabel token hpresented
    have hall : ∀ first ∈ [[3], [2], [1]], ∀ second ∈ [[3], [2], [1]],
        Service.sample.sha256 first = Service.sample.sha256 second → first = second := by
      decide +kernel
    intro first hfirst second hsecond
    exact hall first (hknown first hfirst) second (hknown second hsecond)
  have hisolated := (sessions_isolated (.ofNat 1) hrun (by rw [hgenerated]; decide)
    (by decide +kernel) hinjective).1 mixedRun [] (List.append_nil _).symm
  rw [hissued] at hisolated
  obtain ⟨v, v', hv, hv', -, hsame⟩ := hisolated
  obtain rfl : w = v := Option.some.inj (hrun.symm.trans hv)
  refine ⟨w, v', hrun, hv', by decide +kernel, hanswer, hsame 5 ?_⟩
  simp [mixedRun, Label.call, Label.foreign]

end GoFoundation.Sessions
