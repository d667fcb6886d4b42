/-
# Concurrent calls over the session repository

`auth.Service` as a step system.  Each call is where it stands between two
statements; a step is one statement with the Go code up to the next one, and a
label carries what the environment decides: what a user lookup returns, whether
the password verifies, which token the random source yields, whether the issuer
signs.  A refresh keeps the copy of the session that it found, however old.

The history records which calls stored which token; no step reads it.
-/

import GoFoundation.Library.Transition
import GoFoundation.Users.Model
import GoFoundation.Sessions.Repository

namespace GoFoundation.Sessions

open Library Postgres Grpc Users

/-- `auth.Service`, apart from the collaborators whose answers labels carry.  The
hash is SHA-256; results name what they need of it. -/
structure Service where
  sha256 : GoString → Bytes
  refreshTTL : Int
  refreshTTL_pos : 0 < refreshTTL

/-- `auth.ClientInfo`. -/
structure ClientInfo where
  userAgent : GoString
  clientIP : GoString
  deriving DecidableEq, Repr

/-- The errors a call returns: the named ones, and whatever else. -/
inductive AuthError
  | invalidCredentials
  | userDisabled
  | invalidRefreshToken
  | sessionNotFound
  | other
  deriving DecidableEq, Repr

/-- What a call returns. -/
inductive Answer
  | loggedIn (token : GoString) (session : Session)
  | refreshed (token : GoString) (session : Session)
  | loggedOut
  | revoked
  | listed (sessions : List Session)
  | failed (err : AuthError)
  deriving DecidableEq, Repr

/-! ## The Go code between statements -/

/-- The checks of `Login` on the user it found and on the password. -/
def loginCheck (lookup : Lookup) (verified : Option Bool) : Except AuthError User :=
  match lookup with
  | .found user =>
      if !user.enabled then .error .userDisabled
      else if user.authProvider ≠ "local" ∨ user.passwordHash = "" then
        .error .invalidCredentials
      else if verified = some true then .ok user
      else .error .invalidCredentials
  | .notFound | .failed => .error .invalidCredentials

/-- The session that `Login` creates. -/
def newSession (service : Service) (user : User) (id : UUID) (token : GoString)
    (client : ClientInfo) (now : Int) : Session where
  id := id
  userID := user.id
  refreshTokenHash := service.sha256 token
  userAgent := client.userAgent
  clientIP := client.clientIP
  createdAt := now
  lastUsedAt := none
  expiresAt := now + service.refreshTTL
  revokedAt := none

/-- What `Refresh` does with the user of the session. -/
inductive Decision
  | proceed
  | discard
  | giveUp
  deriving DecidableEq, Repr

/-- The checks of `Refresh` on the user of the session. -/
def refreshCheck : Lookup → Decision
  | .found user => if !user.enabled || user.authProvider ≠ "local" then .discard else .proceed
  | .notFound => .discard
  | .failed => .giveUp

/-! ## The system -/

/-- Where a call stands: before which statement, with what it has captured. -/
inductive Phase
  | idle
  | /-- `Login`, before `Create`. -/
    creating (token : GoString) (session : Session)
  | /-- `Refresh`, before `FindActiveByTokenHash`. -/
    finding (token : GoString) (now : Int)
  | /-- `Refresh`, before the user lookup. -/
    checking (token : GoString) (now : Int) (session : Session)
  | /-- `Refresh`, before the `RevokeByTokenHash` of a rejected user. -/
    discarding (token : GoString) (now : Int)
  | /-- `Refresh`, before `RotateToken`. -/
    rotating (token : GoString) (now : Int) (session : Session) (next : GoString)
  | /-- `Logout`, before `RevokeByTokenHash`. -/
    loggingOut (token : GoString) (now : Int)
  | /-- `RevokeSession`, before `Revoke`. -/
    revoking (id userID : UUID) (now : Int)
  | /-- `ListSessions`, before `ListActiveByUser`. -/
    listing (userID : UUID) (now : Int)
  | done (answer : Answer)
  deriving DecidableEq, Repr

/-- A token took effect: a login stored its first one, or a refresh replaced the
one presented. -/
inductive Event
  | created (call : Nat) (session : Session) (token : GoString)
  | rotated (call : Nat) (id : UUID) (presented next : GoString) (now : Int)
  deriving DecidableEq, Repr

/-- The clock, the table, the calls, the tokens generated so far and the history,
newest first. -/
structure World where
  clock : Int
  rows : List Row
  calls : Nat → Phase
  generated : List GoString
  log : List Event

/-- The steps: a call begins, meets its user, or executes its next statement. -/
inductive Label
  | tick (time : Int)
  | login (i : Nat) (lookup : Lookup) (verified : Option Bool) (client : ClientInfo)
      (id : UUID) (token : Option GoString) (issued : Bool)
  | refresh (i : Nat) (token : GoString)
  | logout (i : Nat) (token : GoString)
  | revokeSession (i : Nat) (userID id : UUID)
  | listSessions (i : Nat) (userID : UUID)
  | check (i : Nat) (lookup : Lookup) (next : Option GoString) (issued : Bool)
  | exec (i : Nat)
  | fail (i : Nat)

/-- A call moves on: the table after its statement, its new phase, the tokens it
generated and what goes into the history. -/
def World.move (w : World) (i : Nat) (rows : List Row) (phase : Phase)
    (fresh : List GoString) (events : List Event) : World :=
  { w with
    rows := rows
    calls := Function.update w.calls i phase
    generated := fresh ++ w.generated
    log := events ++ w.log }

/-- A call returns without having touched anything. -/
def World.answer (w : World) (i : Nat) (answer : Answer) : World :=
  w.move i w.rows (.done answer) [] []

/-- The Go code of `Login` after its user lookup. -/
def World.login (service : Service) (w : World) (i : Nat) (lookup : Lookup)
    (verified : Option Bool) (client : ClientInfo) (id : UUID) (token : Option GoString)
    (issued : Bool) : World :=
  match loginCheck lookup verified, token with
  | .error err, _ => w.answer i (.failed err)
  | .ok _, none => w.answer i (.failed .other)
  | .ok user, some token =>
      if issued then
        w.move i w.rows (.creating token (newSession service user id token client w.clock))
          [token] []
      else w.move i w.rows (.done (.failed .other)) [token] []

/-- The Go code of `Refresh` after its user lookup. -/
def World.check (w : World) (i : Nat) (token : GoString) (now : Int) (session : Session)
    (lookup : Lookup) (next : Option GoString) (issued : Bool) : World :=
  match refreshCheck lookup, next with
  | .discard, _ => w.move i w.rows (.discarding token now) [] []
  | .giveUp, _ => w.answer i (.failed .other)
  | .proceed, none => w.answer i (.failed .other)
  | .proceed, some next =>
      if issued then w.move i w.rows (.rotating token now session next) [next] []
      else w.move i w.rows (.done (.failed .other)) [next] []

/-- The next statement of a call, with what the call does on its result. -/
def World.exec (service : Service) (w : World) (i : Nat) : Phase → Option World
  | .creating token session =>
      match create w.rows session with
      | some rows =>
          some (w.move i rows (.done (.loggedIn token session)) [] [.created i session token])
      | none => some (w.answer i (.failed .other))
  | .finding token now =>
      match findActiveByTokenHash w.rows (service.sha256 token) now with
      | some session => some (w.move i w.rows (.checking token now session) [] [])
      | none => some (w.answer i (.failed .invalidRefreshToken))
  | .discarding token now =>
      some (w.move i (revokeByTokenHash w.rows (service.sha256 token) now)
        (.done (.failed .invalidRefreshToken)) [] [])
  | .rotating token now session next =>
      match rotateToken w.rows session.id (service.sha256 token) (service.sha256 next) now with
      | none => some (w.answer i (.failed .other))
      | some (rows, count) =>
          if count = 1 then
            some (w.move i rows
              (.done (.refreshed next { session with
                refreshTokenHash := service.sha256 next
                lastUsedAt := some now }))
              [] [.rotated i session.id token next now])
          else some (w.move i rows (.done (.failed .invalidRefreshToken)) [] [])
  | .loggingOut token now =>
      some (w.move i (revokeByTokenHash w.rows (service.sha256 token) now)
        (.done .loggedOut) [] [])
  | .revoking id userID now =>
      some (w.move i (revoke w.rows id userID now).1
        (.done (if (revoke w.rows id userID now).2 = 1 then .revoked
          else .failed .sessionNotFound)) [] [])
  | .listing userID now =>
      some (w.answer i (.listed (listActiveByUser w.rows userID now)))
  | .idle | .checking _ _ _ | .done _ => none

/-- What a call returns when its next statement fails; a failed revocation of a
rejected user's session is ignored. -/
def Phase.failure : Phase → Option AuthError
  | .discarding _ _ => some .invalidRefreshToken
  | .creating _ _ | .finding _ _ | .rotating _ _ _ _ | .loggingOut _ _ | .revoking _ _ _
  | .listing _ _ => some .other
  | .idle | .checking _ _ _ | .done _ => none

/-- The phase in which a call begins, for those that begin with a statement of
the repository. -/
def Label.begins (clock : Int) : Label → Option (Nat × Phase)
  | .refresh i token => some (i, .finding token clock)
  | .logout i token => some (i, .loggingOut token clock)
  | .revokeSession i userID id => some (i, .revoking id userID clock)
  | .listSessions i userID => some (i, .listing userID clock)
  | _ => none

/-- The steps of the calls. -/
def next (service : Service) (w : World) (label : Label) : Option World :=
  match label with
  | .tick time => if w.clock ≤ time then some { w with clock := time } else none
  | .login i lookup verified client id token issued =>
      if w.calls i = .idle then
        some (w.login service i lookup verified client id token issued)
      else none
  | .check i lookup next issued =>
      match w.calls i with
      | .checking token now session => some (w.check i token now session lookup next issued)
      | _ => none
  | .exec i => w.exec service i (w.calls i)
  | .fail i => (w.calls i).failure.map fun err => w.answer i (.failed err)
  | label =>
      match label.begins w.clock with
      | some (i, phase) => if w.calls i = .idle then some (w.move i w.rows phase [] []) else none
      | none => none

/-- Calls over an initially empty table. -/
def system (service : Service) : System World Label where
  init w := w.rows = [] ∧ (∀ i, w.calls i = .idle) ∧ w.generated = [] ∧ w.log = []
  next := next service

/-- No call has begun and the table is empty. -/
def World.start (clock : Int) : World := ⟨clock, [], fun _ => .idle, [], []⟩

theorem init_start (service : Service) (clock : Int) :
    (system service).init (World.start clock) := ⟨rfl, fun _ => rfl, rfl, rfl⟩

/-- The big-endian bytes of a digest. -/
def digestOfNat (n : Nat) : Bytes := List.ofFn fun i : Fin 32 => (n >>> (8 * (31 - i.val))).toUInt8

/-- Sessions of thirty days, with the digests of the three tokens that the runs
below use; another token is left as it is. -/
def Service.sample : Service where
  sha256
    | [1] => digestOfNat 0x4bf5122f344554c53bde2ebb8cd2b7e3d1600ad631c385a5d7cce23c7785459a
    | [2] => digestOfNat 0xdbc1b4c900ffe48d575b5da5c638040125f65db0fe3e24494b76ea986457d986
    | [3] => digestOfNat 0x084fed08b978af4d7d196a7446a86b58009e636b611db16211b65a9aadff29c5
    | token => token
  refreshTTL := 2592000000000000
  refreshTTL_pos := by decide

/-! ## What one call can do -/

/-- A move of call `i`: its label, the phase it leaves and the phase it enters,
the table after it, the tokens it generated and the new events. -/
inductive Moves (service : Service) (w : World) (i : Nat) :
    Label → Phase → Phase → List Row → List GoString → List Event → Prop
  | begun {label phase} (hbegins : label.begins w.clock = some (i, phase)) :
      Moves service w i label .idle phase w.rows [] []
  | rejected {label before err} :
      Moves service w i label before (.done (.failed err)) w.rows [] []
  | unissued {label before token} :
      Moves service w i label before (.done (.failed .other)) w.rows [token] []
  | ready {lookup verified client id token issued user} :
      Moves service w i (.login i lookup verified client id (some token) issued) .idle
        (.creating token (newSession service user id token client w.clock)) w.rows [token] []
  | created {token session} (hid : ∀ row ∈ w.rows, row.id ≠ session.id)
      (hhash : ∀ row ∈ w.rows, row.refreshTokenHash ≠ session.refreshTokenHash) :
      Moves service w i (.exec i) (.creating token session) (.done (.loggedIn token session))
        (w.rows ++ [session.toRow]) [] [.created i session token]
  | found {token now row} (hrow : row ∈ w.rows)
      (hhash : row.refreshTokenHash = service.sha256 token) (hrevoked : row.revokedAt = none)
      (hexpires : toTimestamptz now < row.expiresAt) :
      Moves service w i (.exec i) (.finding token now) (.checking token now row.toSession)
        w.rows [] []
  | discards {lookup next issued token now session} :
      Moves service w i (.check i lookup next issued) (.checking token now session)
        (.discarding token now) w.rows [] []
  | rotates {lookup next issued token now session} :
      Moves service w i (.check i lookup (some next) issued) (.checking token now session)
        (.rotating token now session next) w.rows [next] []
  | rotated {token now session next row} (hrow : row ∈ w.rows)
      (hcond : rotateCond session.id (service.sha256 token) now row = true)
      (hnodup : ((Table.updateWhere (rotateCond session.id (service.sha256 token) now)
        (rotateSet (service.sha256 next) now) w.rows).map Row.refreshTokenHash).Nodup) :
      Moves service w i (.exec i) (.rotating token now session next)
        (.done (.refreshed next { session with
          refreshTokenHash := service.sha256 next
          lastUsedAt := some now }))
        (Table.updateWhere (rotateCond session.id (service.sha256 token) now)
          (rotateSet (service.sha256 next) now) w.rows) []
        [.rotated i session.id token next now]
  | missed {token now session next}
      (hcount : w.rows.countP (rotateCond session.id (service.sha256 token) now) ≠ 1) :
      Moves service w i (.exec i) (.rotating token now session next)
        (.done (.failed .invalidRefreshToken))
        (Table.updateWhere (rotateCond session.id (service.sha256 token) now)
          (rotateSet (service.sha256 next) now) w.rows) [] []
  | revokedByToken {before token now answer}
      (hanswer : ∀ next session, answer ≠ .refreshed next session) :
      Moves service w i (.exec i) before (.done answer)
        (revokeByTokenHash w.rows (service.sha256 token) now) [] []
  | revoked {id userID now answer}
      (hanswer : ∀ next session, answer ≠ .refreshed next session) :
      Moves service w i (.exec i) (.revoking id userID now) (.done answer)
        (revoke w.rows id userID now).1 [] []
  | listed {userID now} :
      Moves service w i (.exec i) (.listing userID now)
        (.done (.listed (listActiveByUser w.rows userID now))) w.rows [] []

/-- Every step: time passes, or a call moves. -/
inductive Step (service : Service) (w : World) : Label → World → Prop
  | tick {time} (hle : w.clock ≤ time) : Step service w (.tick time) { w with clock := time }
  | move {i label after rows fresh events}
      (hmove : Moves service w i label (w.calls i) after rows fresh events) :
      Step service w label (w.move i rows after fresh events)

theorem step_login {service : Service} {w : World} {i : Nat} (hidle : w.calls i = .idle)
    (lookup : Lookup) (verified : Option Bool) (client : ClientInfo) (id : UUID)
    (token : Option GoString) (issued : Bool) :
    Step service w (.login i lookup verified client id token issued)
      (w.login service i lookup verified client id token issued) := by
  unfold World.login
  split
  · exact .move .rejected
  · exact .move .rejected
  · split
    · exact .move (hidle ▸ .ready)
    · exact .move .unissued

theorem step_check {service : Service} {w : World} {i : Nat} {token : GoString} {now : Int}
    {session : Session} (hphase : w.calls i = .checking token now session) (lookup : Lookup)
    (next : Option GoString) (issued : Bool) :
    Step service w (.check i lookup next issued)
      (w.check i token now session lookup next issued) := by
  unfold World.check
  split
  · exact .move (hphase ▸ .discards)
  · exact .move .rejected
  · exact .move .rejected
  · split
    · exact .move (hphase ▸ .rotates)
    · exact .move .unissued

theorem step_exec {service : Service} {w w' : World} {i : Nat}
    (hexec : w.exec service i (w.calls i) = some w') : Step service w (.exec i) w' := by
  generalize hphase : w.calls i = before at hexec
  cases before with
  | creating token session =>
      simp only [World.exec] at hexec
      split at hexec
      · next rows hcreate =>
          obtain ⟨rfl, hid, hhash⟩ := create_eq_some hcreate
          cases hexec
          exact .move (hphase ▸ .created hid hhash)
      · cases hexec
        exact .move .rejected
  | finding token now =>
      simp only [World.exec] at hexec
      split at hexec
      · next session hfind =>
          obtain ⟨row, hrow, hhash, hrevoked, hexpires, rfl⟩ := findActiveByTokenHash_eq_some hfind
          cases hexec
          exact .move (hphase ▸ .found hrow hhash hrevoked hexpires)
      · cases hexec
        exact .move .rejected
  | rotating token now session next =>
      simp only [World.exec] at hexec
      split at hexec
      · cases hexec
        exact .move .rejected
      · next rows count hrotate =>
          obtain ⟨rfl, rfl, hnodup⟩ := rotateToken_eq_some hrotate
          split at hexec
          · next hone =>
              obtain ⟨row, hrow, hcond⟩ := List.countP_pos_iff.mp (hone ▸ Nat.one_pos)
              cases hexec
              exact .move (hphase ▸ .rotated hrow hcond hnodup)
          · next hcount =>
              cases hexec
              exact .move (hphase ▸ .missed hcount)
  | discarding token now | loggingOut token now =>
      cases hexec
      exact .move (.revokedByToken (by simp))
  | revoking id userID now =>
      cases hexec
      refine .move (hphase ▸ .revoked fun next session heq => ?_)
      split at heq <;> cases heq
  | listing userID now =>
      cases hexec
      exact .move (hphase ▸ .listed)
  | idle | checking | done => cases hexec

/-- The step function does nothing but the steps listed. -/
theorem step_of_next {service : Service} {w w' : World} {label : Label}
    (hnext : (system service).next w label = some w') : Step service w label w' := by
  -- The four calls that begin with a statement share the last branch of `next`.
  have hbegin : ∀ label : Label, (match label.begins w.clock with
      | some (i, phase) => if w.calls i = .idle then some (w.move i w.rows phase [] []) else none
      | none => none) = some w' → Step service w label w' := by
    intro label h
    split at h
    · next i phase hbegins =>
        simp only [Option.ite_none_right_eq_some, Option.some.injEq] at h
        obtain ⟨hidle, rfl⟩ := h
        exact .move (hidle ▸ .begun hbegins)
    · cases h
  cases label with
  | tick time =>
      simp only [system, next, Option.ite_none_right_eq_some, Option.some.injEq] at hnext
      obtain ⟨hle, rfl⟩ := hnext
      exact .tick hle
  | login i lookup verified client id token issued =>
      simp only [system, next, Option.ite_none_right_eq_some, Option.some.injEq] at hnext
      obtain ⟨hidle, rfl⟩ := hnext
      exact step_login hidle lookup verified client id token issued
  | check i lookup next issued =>
      simp only [system, Sessions.next] at hnext
      split at hnext
      · next token now session hphase =>
          cases hnext
          exact step_check hphase lookup next issued
      · cases hnext
  | exec i => exact step_exec hnext
  | fail i =>
      obtain ⟨err, -, rfl⟩ := Option.map_eq_some_iff.mp hnext
      exact .move .rejected
  | refresh i token => exact hbegin (.refresh i token) hnext
  | logout i token => exact hbegin (.logout i token) hnext
  | revokeSession i userID id => exact hbegin (.revokeSession i userID id) hnext
  | listSessions i userID => exact hbegin (.listSessions i userID) hnext

/-! ## The world after a move -/

section Move

variable {w : World} {i : Nat} {rows : List Row} {after : Phase} {fresh : List GoString}
  {events : List Event}

@[simp]
theorem World.move_rows : (w.move i rows after fresh events).rows = rows := rfl

@[simp]
theorem World.move_clock : (w.move i rows after fresh events).clock = w.clock := rfl

@[simp]
theorem World.move_generated :
    (w.move i rows after fresh events).generated = fresh ++ w.generated := rfl

@[simp]
theorem World.move_log : (w.move i rows after fresh events).log = events ++ w.log := rfl

@[simp]
theorem World.move_calls_self : (w.move i rows after fresh events).calls i = after :=
  Function.update_self ..

theorem World.move_calls_of_ne {j : Nat} (hne : j ≠ i) :
    (w.move i rows after fresh events).calls j = w.calls j :=
  Function.update_of_ne hne ..

/-- A call that is creating a session after a move was before it, or its login has
just generated the token. -/
theorem Moves.of_creating {service : Service} {label : Label}
    (hmove : Moves service w i label (w.calls i) after rows fresh events) {j : Nat}
    {token : GoString} {session : Session}
    (hphase : (w.move i rows after fresh events).calls j = .creating token session) :
    w.calls j = .creating token session ∨
      ∃ lookup verified client id issued user,
        label = .login j lookup verified client id (some token) issued ∧
          session = newSession service user id token client w.clock := by
  by_cases hj : j = i
  · subst hj
    rw [World.move_calls_self] at hphase
    subst hphase
    generalize w.calls j = before at hmove
    cases hmove with
    | begun hbegins => cases label <;> simp [Label.begins] at hbegins
    | ready => exact .inr ⟨_, _, _, _, _, _, rfl, rfl⟩
  · rw [World.move_calls_of_ne hj] at hphase
    exact .inl hphase

end Move

end GoFoundation.Sessions
