/-
# Login and refresh as whole calls

`Service.Login` and `Service.Refresh` from the request to the result, over the table
of users and that of sessions.  Whatever a collaborator may do, fail included, is in
`Env`: a statement that fails has no effect.

The step system cuts the same calls at their statements.  Each whole call is a run of
it in which no other call moves.
-/

import GoFoundation.Sessions.Isolation
import GoFoundation.Users.Authentication
import GoFoundation.Users.Entity

namespace GoFoundation.Sessions

open Library Postgres Grpc Users Server

/-- `auth.Token`. -/
structure AccessToken where
  accessToken : GoString
  expiresAt : Int
  deriving DecidableEq, Repr

/-- `LoginResult`. -/
structure LoginResult where
  user : User
  token : AccessToken
  refreshToken : GoString
  session : Session
  deriving DecidableEq, Repr

/-- `RefreshResult`. -/
structure RefreshResult where
  token : AccessToken
  refreshToken : GoString
  session : Session
  deriving DecidableEq, Repr

/-- The statements of the two calls on `auth_sessions`. -/
inductive Statement
  | create
  | findActiveByTokenHash
  | rotateToken
  | revokeByTokenHash
  deriving DecidableEq, Repr

/-- What the collaborators do during one call; `none` is an error. -/
structure Env where
  /-- The statement of the user lookup fails. -/
  usersFail : Bool
  /-- `PasswordHasher.Verify`. -/
  verify : String → String → Option Bool
  /-- The token that the random source yields. -/
  random : Option GoString
  /-- `uuid.NewString`. -/
  sessionID : UUID
  /-- `TokenIssuer.Issue`. -/
  issue : Identity → Option AccessToken
  /-- The statements that fail. -/
  fails : Statement → Bool

namespace Env

variable (env : Env)

/-- The answer to a user lookup. -/
def lookup (answer : Lookup) : Lookup := if env.usersFail then .failed else answer

/-- What `Verify` says about the user who was found. -/
def verification (password : String) : Lookup → Option Bool
  | .found user => env.verify password user.passwordHash
  | .notFound | .failed => none

/-- The sessions after a `RevokeByTokenHash` whose error is ignored. -/
def discard (service : Service) (rows : List Row) (token : GoString) (now : Int) : List Row :=
  if env.fails .revokeByTokenHash then rows
  else revokeByTokenHash rows (service.sha256 token) now

end Env

/-- `identityFor`. -/
def identityFor (user : User) (sessionID : UUID) : Identity where
  userID := user.id.text
  username := user.name
  email := user.email
  provider := "local"
  sessionID := sessionID.text

/-- `Service.Login`, with the sessions afterwards. -/
def login (service : Service) (tables : CaseTables) (env : Env) (users : List User)
    (rows : List Row) (email password : String) (client : ClientInfo) (now : Int) :
    Except AuthError LoginResult × List Row :=
  let found := env.lookup (getByEmail users (tables.normalise email))
  match loginCheck found (env.verification password found) with
  | .error err => (.error err, rows)
  | .ok user =>
      match env.random with
      | none => (.error .other, rows)
      | some token =>
          match env.issue (identityFor user env.sessionID) with
          | none => (.error .other, rows)
          | some access =>
              if env.fails .create then (.error .other, rows)
              else match create rows (newSession service user env.sessionID token client now) with
                | none => (.error .other, rows)
                | some rows' =>
                    (.ok ⟨user, access, token,
                      newSession service user env.sessionID token client now⟩, rows')

/-- The end of `Service.Refresh`: rotate the token and return the session. -/
def finishRefresh (service : Service) (env : Env) (rows : List Row) (token : GoString) (now : Int)
    (session : Session) (access : AccessToken) (next : GoString) :
    Except AuthError RefreshResult × List Row :=
  if env.fails .rotateToken then (.error .other, rows)
  else match rotateToken rows session.id (service.sha256 token) (service.sha256 next) now with
    | none => (.error .other, rows)
    | some (rows', count) =>
        if count = 1 then
          (.ok ⟨access, next, { session with
            refreshTokenHash := service.sha256 next
            lastUsedAt := some now }⟩, rows')
        else (.error .invalidRefreshToken, rows')

/-- `Service.Refresh` once it has found the session. -/
def refreshFound (service : Service) (env : Env) (users : List User) (rows : List Row)
    (token : GoString) (now : Int) (session : Session) :
    Except AuthError RefreshResult × List Row :=
  match env.lookup (getByID users session.userID.text) with
  | .failed => (.error .other, rows)
  | .notFound => (.error .invalidRefreshToken, env.discard service rows token now)
  | .found user =>
      if !user.enabled || user.authProvider ≠ "local" then
        (.error .invalidRefreshToken, env.discard service rows token now)
      else match env.random with
        | none => (.error .other, rows)
        | some next =>
            match env.issue (identityFor user session.id) with
            | none => (.error .other, rows)
            | some access => finishRefresh service env rows token now session access next

/-- `Service.Refresh`, with the sessions afterwards. -/
def refresh (service : Service) (env : Env) (users : List User) (rows : List Row)
    (token : GoString) (now : Int) : Except AuthError RefreshResult × List Row :=
  if env.fails .findActiveByTokenHash then (.error .other, rows)
  else match findActiveByTokenHash rows (service.sha256 token) now with
    | none => (.error .invalidRefreshToken, rows)
    | some session => refreshFound service env users rows token now session

/-! ## Whole calls are runs -/

/-- What the step system records of the result. -/
def LoginResult.answer : Except AuthError LoginResult → Answer
  | .ok result => .loggedIn result.refreshToken result.session
  | .error err => .failed err

/-- What the step system records of the result. -/
def RefreshResult.answer : Except AuthError RefreshResult → Answer
  | .ok result => .refreshed result.refreshToken result.session
  | .error err => .failed err

section Run

variable {service : Service} {w : World} {i : Nat}

/-- Call `i` has ended with the answer, and left the table so. -/
structure World.Ended (w : World) (i : Nat) (answer : Answer) (rows : List Row) : Prop where
  rows : w.rows = rows
  calls : w.calls i = .done answer

/-- The steps of call `i` alone lead to its end. -/
def Alone (service : Service) (w : World) (i : Nat) (answer : Answer) (rows : List Row) : Prop :=
  ∃ labels w', (∀ label ∈ labels, Label.call label = some i) ∧
    (system service).run w labels = some w' ∧ w'.Ended i answer rows

theorem Alone.done {answer : Answer} {rows : List Row} (hended : w.Ended i answer rows) :
    Alone service w i answer rows :=
  ⟨[], w, fun _ h => absurd h List.not_mem_nil, rfl, hended⟩

/-- One more step in front. -/
theorem Alone.turn {label : Label} {turn : Turn} {answer : Answer} {rows : List Row}
    (hcall : label.call = some i)
    (hturn : label.turn service w.clock w.rows i (w.calls i) = some turn)
    (hrest : Alone service (w.take i turn) i answer rows) : Alone service w i answer rows := by
  obtain ⟨labels, w', hlabels, hrun, hended⟩ := hrest
  refine ⟨label :: labels, w', List.forall_mem_cons.mpr ⟨hcall, hlabels⟩, ?_, hended⟩
  rw [System.run_cons, next_eq_take hcall, hturn, Option.map_some, Option.bind_some]
  exact hrun

/-- The last step of a call. -/
theorem Alone.last {label : Label} {answer : Answer} {rows : List Row} {fresh : List GoString}
    {events : List Event} (hcall : label.call = some i)
    (hturn : label.turn service w.clock w.rows i (w.calls i) =
      some ⟨rows, .done answer, fresh, events⟩) : Alone service w i answer rows := by
  apply Alone.turn hcall hturn
  apply Alone.done
  exact ⟨rfl, World.take_calls_self⟩

/-- The call is refused its statement. -/
theorem Alone.fail {phase : Phase} {err : AuthError} (hphase : w.calls i = phase)
    (hfailure : phase.failure = some err) : Alone service w i (.failed err) w.rows := by
  have hturn : (Label.fail i).turn service w.clock w.rows i (w.calls i) =
      some ⟨w.rows, .done (.failed err), [], []⟩ := by
    rw [Label.turn, hphase, hfailure, Option.map_some]
  exact Alone.last rfl hturn

/-- The call executes its last statement. -/
theorem Alone.exec {phase : Phase} {answer : Answer} {rows : List Row} {fresh : List GoString}
    {events : List Event} (hphase : w.calls i = phase)
    (hturn : phase.turn service i w.rows = some ⟨rows, .done answer, fresh, events⟩) :
    Alone service w i answer rows := by
  have hlabel : (Label.exec i).turn service w.clock w.rows i (w.calls i) =
      some ⟨rows, .done answer, fresh, events⟩ := by
    rw [hphase]
    exact hturn
  exact Alone.last rfl hlabel

/-- `Login` is a run of its steps. -/
theorem login_alone (hidle : w.calls i = .idle) (tables : CaseTables) (env : Env)
    (users : List User) (email password : String) (client : ClientInfo) :
    Alone service w i
      (LoginResult.answer (login service tables env users w.rows email password client w.clock).1)
      (login service tables env users w.rows email password client w.clock).2 := by
  generalize hfound : env.lookup (getByEmail users (tables.normalise email)) = found
  -- The first step, for an issuer that signs or one that does not.
  have hturn : ∀ issued, (Label.login i found (env.verification password found) client
      env.sessionID env.random issued).turn service w.clock w.rows i (w.calls i) =
        some (loginTurn service w.clock w.rows found (env.verification password found) client
          env.sessionID env.random issued) := fun issued => if_pos hidle
  simp only [login, hfound]
  simp only [loginTurn] at hturn
  cases hcheck : loginCheck found (env.verification password found) with
  | error err =>
      simp only [hcheck] at hturn
      exact Alone.last rfl (hturn true)
  | ok user =>
      simp only [hcheck] at hturn
      cases hrandom : env.random with
      | none =>
          simp only [hrandom] at hturn
          exact Alone.last rfl (hturn true)
      | some token =>
          simp only [hrandom] at hturn
          cases hissue : env.issue (identityFor user env.sessionID) with
          | none =>
              simp only [hissue]
              exact Alone.last rfl (hturn false)
          | some access =>
              simp only [hissue]
              have hready := hturn true
              generalize newSession service user env.sessionID token client w.clock = session
                at hready ⊢
              rw [if_pos rfl] at hready
              apply Alone.turn rfl hready
              by_cases hfails : env.fails .create = true
              · simp only [if_pos hfails]
                exact Alone.fail World.take_calls_self rfl
              · simp only [if_neg hfails]
                cases hcreate : create w.rows session with
                | none =>
                    have hexec : Phase.turn service i w.rows (.creating token session) =
                        some ⟨w.rows, .done (.failed .other), [], []⟩ := by
                      rw [Phase.turn, hcreate]
                    exact Alone.exec World.take_calls_self hexec
                | some rows' =>
                    have hexec : Phase.turn service i w.rows (.creating token session) =
                        some ⟨rows', .done (.loggedIn token session), [],
                          [.created i session token]⟩ := by
                      rw [Phase.turn, hcreate]
                    exact Alone.exec World.take_calls_self hexec

theorem discarding_alone {token : GoString} {now : Int}
    (hphase : w.calls i = .discarding token now) (env : Env) :
    Alone service w i (.failed .invalidRefreshToken) (env.discard service w.rows token now) := by
  rw [Env.discard]
  split
  · exact Alone.fail hphase rfl
  · exact Alone.exec hphase rfl

theorem rotating_alone {token next : GoString} {now : Int} {session : Session}
    (hphase : w.calls i = .rotating token now session next) (env : Env) (access : AccessToken) :
    Alone service w i
      (RefreshResult.answer (finishRefresh service env w.rows token now session access next).1)
      (finishRefresh service env w.rows token now session access next).2 := by
  rw [finishRefresh]
  by_cases hfails : env.fails .rotateToken = true
  · rw [if_pos hfails]
    exact Alone.fail hphase rfl
  · rw [if_neg hfails]
    have hturn : Phase.turn service i w.rows (.rotating token now session next) =
        match rotateToken w.rows session.id (service.sha256 token) (service.sha256 next) now with
        | none => some ⟨w.rows, .done (.failed .other), [], []⟩
        | some (rows', count) =>
            if count = 1 then
              some ⟨rows', .done (.refreshed next { session with
                  refreshTokenHash := service.sha256 next
                  lastUsedAt := some now }), [], [.rotated i session.id token next now]⟩
            else some ⟨rows', .done (.failed .invalidRefreshToken), [], []⟩ := rfl
    cases hrotate : rotateToken w.rows session.id (service.sha256 token) (service.sha256 next)
        now with
    | none =>
        rw [hrotate] at hturn
        exact Alone.exec hphase hturn
    | some result =>
        rw [hrotate] at hturn
        by_cases hcount : result.2 = 1
        · simp only [if_pos hcount] at hturn ⊢
          exact Alone.exec hphase hturn
        · simp only [if_neg hcount] at hturn ⊢
          exact Alone.exec hphase hturn

theorem checking_alone {token : GoString} {now : Int} {session : Session}
    (hphase : w.calls i = .checking token now session) (env : Env) (users : List User) :
    Alone service w i
      (RefreshResult.answer (refreshFound service env users w.rows token now session).1)
      (refreshFound service env users w.rows token now session).2 := by
  generalize hfound : env.lookup (getByID users session.userID.text) = found
  -- The step after the lookup, for an issuer that signs or one that does not.
  have hturn : ∀ issued, (Label.check i found env.random issued).turn service w.clock w.rows i
      (w.calls i) = some (checkTurn w.rows token now session found env.random issued) := by
    intro issued
    rw [hphase]
    rfl
  have hdiscard : refreshCheck found = .discard →
      Alone service w i (.failed .invalidRefreshToken) (env.discard service w.rows token now) := by
    intro hcheck
    simp only [checkTurn, hcheck] at hturn
    apply Alone.turn rfl (hturn true)
    exact discarding_alone World.take_calls_self env
  simp only [refreshFound, hfound]
  cases found with
  | failed => exact Alone.last rfl (hturn true)
  | notFound => exact hdiscard rfl
  | found user =>
      by_cases hrejected : (!user.enabled || user.authProvider ≠ "local") = true
      · simp only [if_pos hrejected]
        exact hdiscard (if_pos hrejected)
      · simp only [if_neg hrejected]
        have hcheck : refreshCheck (.found user) = .proceed := if_neg hrejected
        simp only [checkTurn, hcheck] at hturn
        cases hrandom : env.random with
        | none =>
            simp only [hrandom] at hturn
            exact Alone.last rfl (hturn true)
        | some next =>
            simp only [hrandom] at hturn
            cases hissue : env.issue (identityFor user session.id) with
            | none => exact Alone.last rfl (hturn false)
            | some access =>
                have hready := hturn true
                rw [if_pos rfl] at hready
                apply Alone.turn rfl hready
                exact rotating_alone World.take_calls_self env access

/-- `Refresh` is a run of its steps. -/
theorem refresh_alone (hidle : w.calls i = .idle) (env : Env) (users : List User)
    (token : GoString) :
    Alone service w i
      (RefreshResult.answer (refresh service env users w.rows token w.clock).1)
      (refresh service env users w.rows token w.clock).2 := by
  have hbegin : (Label.refresh i token).turn service w.clock w.rows i (w.calls i) =
      some ⟨w.rows, .finding token w.clock, [], []⟩ := if_pos hidle
  apply Alone.turn rfl hbegin
  rw [refresh]
  by_cases hfails : env.fails .findActiveByTokenHash = true
  · rw [if_pos hfails]
    exact Alone.fail World.take_calls_self rfl
  · rw [if_neg hfails]
    cases hfind : findActiveByTokenHash w.rows (service.sha256 token) w.clock with
    | none =>
        have hexec : Phase.turn service i w.rows (.finding token w.clock) =
            some ⟨w.rows, .done (.failed .invalidRefreshToken), [], []⟩ := by
          rw [Phase.turn, hfind]
        exact Alone.exec World.take_calls_self hexec
    | some session =>
        have hexec : (Label.exec i).turn service w.clock w.rows i (.finding token w.clock) =
            some ⟨w.rows, .checking token w.clock session, [], []⟩ := by
          rw [Label.turn, Phase.turn, hfind]
        have hphase : (w.take i ⟨w.rows, .finding token w.clock, [], []⟩).calls i =
            .finding token w.clock := World.take_calls_self
        rw [← hphase] at hexec
        apply Alone.turn rfl hexec
        exact checking_alone World.take_calls_self env users

end Run

end GoFoundation.Sessions
