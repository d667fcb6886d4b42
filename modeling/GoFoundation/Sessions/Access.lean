/-
# Access tokens of sessions

The sessions with the access tokens that logins and refreshes issue.  A call issues its
token before the statement that creates or rotates its session, and hands it out after
it: where the statement fails, or misses, the token stays with the server.

Between the moment at which a call reads the clock and the one at which it signs, time
may pass, so a step that issues carries the time of `Issue`.
-/

import GoFoundation.Sessions.JWT

namespace GoFoundation.Sessions

open Library Postgres Grpc Users Server

/-! ## The system -/

/-- A token that a call was issued: for whom, when, and what was signed. -/
structure Issued where
  identity : Identity
  time : Int
  access : AccessToken
  deriving DecidableEq, Repr

/-- The sessions, and the token that each call was issued. -/
structure TokenWorld where
  world : World
  issued : Nat → Option Issued

/-- The steps: a login or a refresh after its user lookup, with the time of `Issue`, or
another step.  The lookup of a refresh is over a table of users, or fails. -/
inductive TokenLabel
  | login (i : Nat) (lookup : Lookup) (verified : Option Bool) (client : ClientInfo)
      (id : UUID) (token : Option GoString) (time : Int)
  | check (i : Nat) (users : Option (List User)) (next : Option GoString) (time : Int)
  | other (label : Label)

/-- The step issues a token. -/
def Label.issues : Label → Bool
  | login _ _ _ _ _ _ _ | check _ _ _ _ => true
  | _ => false

/-- `GetByID` for the user of a session. -/
def sessionUser (users : Option (List User)) (session : Session) : Lookup :=
  match users with
  | some users => getByID users session.userID.text
  | none => .failed

/-- The user with whom a refresh proceeds. -/
def proceeding : Lookup → Option User
  | .found user => if refreshCheck (.found user) = .proceed then some user else none
  | .notFound | .failed => none

/-- `Issue` for a session, once there is a user and a refresh token. -/
def issueFor (provider : JWTProvider) (time : Int) (token : Option GoString) (user : Option User)
    (id : UUID) : Option Issued :=
  match user, token with
  | some user, some _ =>
      (provider.issue time (identityFor user id)).map fun access =>
        ⟨identityFor user id, time, access⟩
  | _, _ => none

/-- The step of a call, at the end of which it has its token and the clock stands at the
given time. -/
def TokenWorld.after (service : Service) (t : TokenWorld) (i : Nat) (issued : Option Issued)
    (label : Label) (time : Int) : Option TokenWorld :=
  (next service t.world label).bind fun world =>
    (next service world (.tick time)).map fun world =>
      ⟨world, Function.update t.issued i issued⟩

/-- The steps of the calls. -/
def tokenNext (service : Service) (provider : JWTProvider) (t : TokenWorld) :
    TokenLabel → Option TokenWorld
  | .login i lookup verified client id token time =>
      let issued := issueFor provider time token (loginCheck lookup verified).toOption id
      t.after service i issued (.login i lookup verified client id token issued.isSome) time
  | .check i users next time =>
      match t.world.calls i with
      | .checking _ _ session =>
          let issued := issueFor provider time next (proceeding (sessionUser users session))
            session.id
          t.after service i issued (.check i (sessionUser users session) next issued.isSome) time
      | _ => none
  | .other label =>
      if label.issues then none
      else (next service t.world label).map fun world => { t with world := world }

/-- Calls over an initially empty table, after the beginning of Unix time. -/
def tokenSystem (service : Service) (provider : JWTProvider) : System TokenWorld TokenLabel where
  init t := (system service).init t.world ∧ 0 ≤ t.world.clock ∧ ∀ i, t.issued i = none
  next := tokenNext service provider

/-! ## What a step does -/

/-- The token is one for the session. -/
structure Issued.Names (provider : JWTProvider) (issued : Issued) (session : Session) : Prop where
  sessionID : issued.identity.sessionID = session.id.text
  userID : issued.identity.userID = session.userID.text
  isLocal : issued.identity.provider = "local"
  issue : provider.issue issued.time issued.identity = some issued.access

/-- The session that a call has a token for. -/
def Phase.carries : Phase → Option Session
  | creating _ session => some session
  | rotating _ _ session _ => some session
  | done (.loggedIn _ session) => some session
  | done (.refreshed _ session) => some session
  | _ => none

/-- The session that a call has found or created. -/
def Phase.founded : Phase → Option Session
  | checking _ _ session => some session
  | rotating _ _ session _ => some session
  | done (.loggedIn _ session) => some session
  | done (.refreshed _ session) => some session
  | _ => none

/-- The session whose token a call has handed out. -/
def Phase.delivered : Phase → Option Session
  | done (.loggedIn _ session) => some session
  | done (.refreshed _ session) => some session
  | _ => none

section Turns

variable {service : Service} {clock : Int} {rows : List Row} {i : Nat} {before : Phase}
  {turn : Turn} {session : Session}

/-- What a call gets to by its next statement: the session that it was to create is
created, one is found, or the one that it was to rotate is rotated. -/
theorem session_of_exec (hturn : before.turn service i rows = some turn) :
    turn.phase.delivered = none ∧ turn.phase.carries = none ∧
        (∀ session, turn.phase.founded = some session →
          ∃ row ∈ turn.rows, session = row.toSession) ∨
      (∃ token session, before = .creating token session ∧
        turn.phase = .done (.loggedIn token session) ∧
        (∀ row ∈ rows, row.id ≠ session.id) ∧ turn.rows = rows ++ [session.toRow]) ∨
      ∃ token now session next, before = .rotating token now session next ∧
        turn.phase = .done (.refreshed next { session with
          refreshTokenHash := service.sha256 next
          lastUsedAt := some now }) ∧
        ∃ row ∈ rows, rotateCond session.id (service.sha256 token) now row = true := by
  cases before with
  | idle | checking | done => cases hturn
  | creating token session =>
      simp only [Phase.turn] at hturn
      split at hturn
      · next rows' hcreate =>
          cases hturn
          obtain ⟨rfl, hid, -⟩ := create_eq_some hcreate
          exact Or.inr (Or.inl ⟨token, session, rfl, rfl, hid, rfl⟩)
      · cases hturn
        exact Or.inl ⟨rfl, rfl, fun _ h => by cases h⟩
  | finding token now =>
      simp only [Phase.turn] at hturn
      split at hturn
      · next session hfind =>
          cases hturn
          obtain ⟨row, hrow, -, -, -, rfl⟩ := findActiveByTokenHash_eq_some hfind
          refine Or.inl ⟨rfl, rfl, fun found hfound => ?_⟩
          cases hfound
          exact ⟨row, hrow, rfl⟩
      · cases hturn
        exact Or.inl ⟨rfl, rfl, fun _ h => by cases h⟩
  | rotating token now session next =>
      simp only [Phase.turn] at hturn
      split at hturn
      · cases hturn
        exact Or.inl ⟨rfl, rfl, fun _ h => by cases h⟩
      · next rows' count hrotate =>
          obtain ⟨rfl, rfl, -⟩ := rotateToken_eq_some hrotate
          split at hturn
          · next hone =>
              cases hturn
              obtain ⟨row, hrow, hcond⟩ := List.countP_pos_iff.mp (hone ▸ Nat.one_pos)
              exact Or.inr (Or.inr ⟨token, now, session, next, rfl, rfl, row, hrow, hcond⟩)
          · cases hturn
            exact Or.inl ⟨rfl, rfl, fun _ h => by cases h⟩
  | discarding token now | loggingOut token now | listing userID now =>
      cases hturn
      exact Or.inl ⟨rfl, rfl, fun _ h => by cases h⟩
  | revoking id userID now =>
      cases hturn
      refine Or.inl ?_
      split <;> exact ⟨rfl, rfl, fun _ h => by cases h⟩

/-- A step that neither issues a token nor executes a statement leads to no session. -/
theorem quiet_of_turn {label : Label} (hturn : label.turn service clock rows i before = some turn)
    (hissues : label.issues = false) (hexec : ∀ j, label ≠ .exec j) :
    turn.phase.carries = none ∧ turn.phase.founded = none := by
  cases label with
  | tick => cases hturn
  | login | check => cases hissues
  | exec j => exact absurd rfl (hexec j)
  | fail j =>
      obtain ⟨err, -, rfl⟩ := Option.map_eq_some_iff.mp hturn
      exact ⟨rfl, rfl⟩
  | refresh | logout | revokeSession | listSessions =>
      obtain ⟨-, hturn⟩ := Option.ite_none_right_eq_some.mp hturn
      cases hturn
      exact ⟨rfl, rfl⟩

/-- A login gets to a session to create when it is issued a token. -/
theorem loginTurn_carries (service : Service) (clock : Int) (rows : List Row) (lookup : Lookup)
    (verified : Option Bool) (client : ClientInfo) (id : UUID) (token : Option GoString)
    (issued : Bool) {phase : Phase}
    (hphase : (loginTurn service clock rows lookup verified client id token issued).phase = phase) :
    phase.delivered = none ∧ phase.founded = none ∧
      ∀ session, phase.carries = some session →
        ∃ user first, loginCheck lookup verified = .ok user ∧ token = some first ∧
          issued = true ∧ session = newSession service user id first client clock := by
  subst hphase
  unfold loginTurn
  cases loginCheck lookup verified with
  | error err => exact ⟨rfl, rfl, fun _ h => by cases h⟩
  | ok user =>
      cases token with
      | none => exact ⟨rfl, rfl, fun _ h => by cases h⟩
      | some first =>
          cases issued with
          | false => exact ⟨rfl, rfl, fun _ h => by cases h⟩
          | true =>
              refine ⟨rfl, rfl, fun session hcarries => ?_⟩
              exact ⟨user, first, rfl, rfl, rfl, (Option.some.inj hcarries).symm⟩

/-- A refresh goes on with its session when it is issued a token. -/
theorem checkTurn_carries (rows : List Row) (token : GoString) (now : Int) (session : Session)
    (lookup : Lookup) (next : Option GoString) (issued : Bool) {phase : Phase}
    (hphase : (checkTurn rows token now session lookup next issued).phase = phase) :
    phase.delivered = none ∧ (∀ other, phase.founded = some other → session = other) ∧
      ∀ other, phase.carries = some other →
        session = other ∧ issued = true ∧ ∃ user second, lookup = .found user ∧
          refreshCheck lookup = .proceed ∧ next = some second := by
  subst hphase
  unfold checkTurn
  cases hcheck : refreshCheck lookup with
  | discard | giveUp => exact ⟨rfl, fun _ h => (by cases h), fun _ h => (by cases h)⟩
  | proceed =>
      cases next with
      | none => exact ⟨rfl, fun _ h => (by cases h), fun _ h => (by cases h)⟩
      | some second =>
          cases issued with
          | false => exact ⟨rfl, fun _ h => (by cases h), fun _ h => (by cases h)⟩
          | true =>
              cases lookup with
              | notFound | failed => cases hcheck
              | found user =>
                  refine ⟨rfl, fun _ h => Option.some.inj h, fun other hcarries => ?_⟩
                  exact ⟨Option.some.inj hcarries, rfl, user, second, rfl, rfl, rfl⟩

end Turns

/-! ## Steps that issue -/

/-- A step that issues a token: a call takes a turn that leads to no answer yet, and where
it goes on with a session, it has a token for it. -/
structure TokenWorld.Issues (service : Service) (provider : JWTProvider) (t t' : TokenWorld)
    (i : Nat) (label : Label) (turn : Turn) : Prop where
  step : (system service).next t.world label = some (t.world.take i turn)
  rows : turn.rows = t.world.rows
  world : t'.world = { t.world.take i turn with clock := t'.world.clock }
  clock : t.world.clock ≤ t'.world.clock
  others : ∀ j, j ≠ i → t'.issued j = t.issued j
  undelivered : turn.phase.delivered = none
  founded : ∀ session, turn.phase.founded = some session →
    (t.world.calls i).founded = some session
  issued : ∀ session, turn.phase.carries = some session →
    ∃ issued, t'.issued i = some issued ∧ issued.time = t'.world.clock ∧
      issued.Names provider session

section Steps

variable {service : Service} {provider : JWTProvider} {t t' : TokenWorld}

/-- A token that is issued names the user and the session. -/
theorem names_of_issueFor (session : Session) {time : Int} {first : GoString} {user : User}
    (hissued : (issueFor provider time (some first) (some user) session.id).isSome = true)
    (huser : user.id = session.userID) :
    ∃ token, issueFor provider time (some first) (some user) session.id = some token ∧
      token.time = time ∧ token.Names provider session := by
  obtain ⟨token, heq⟩ := Option.isSome_iff_exists.mp hissued
  obtain ⟨access, hissue, rfl⟩ := Option.map_eq_some_iff.mp heq
  exact ⟨_, heq, rfl, rfl, congrArg UUID.text huser, rfl, hissue⟩

theorem id_of_sessionUser {users : Option (List User)} {session : Session} {user : User}
    (hfound : sessionUser users session = .found user) : user.id = session.userID := by
  cases users with
  | none => cases hfound
  | some users =>
      rw [sessionUser, getByID, UUID.parse_text] at hfound
      exact of_decide_eq_true (lookup_eq_found hfound).2

/-- A step of the calls, and then time. -/
theorem after_eq_some {i : Nat} {issued : Option Issued} {label : Label} {time : Int}
    (hcall : label.call = some i) (hafter : t.after service i issued label time = some t') :
    ∃ turn, label.turn service t.world.clock t.world.rows i (t.world.calls i) = some turn ∧
      (system service).next t.world label = some (t.world.take i turn) ∧ t.world.clock ≤ time ∧
      t' = ⟨{ t.world.take i turn with clock := time }, Function.update t.issued i issued⟩ := by
  obtain ⟨world, hnext, hafter⟩ := Option.bind_eq_some_iff.mp hafter
  obtain ⟨later, htick, rfl⟩ := Option.map_eq_some_iff.mp hafter
  obtain ⟨time', hlabel, -⟩ | ⟨j, turn, hj, hturn, rfl⟩ := next_cases hnext
  · rw [hlabel] at hcall
    cases hcall
  · obtain rfl : i = j := Option.some.inj (hcall.symm.trans hj)
    obtain ⟨hle, hworld⟩ := Option.ite_none_right_eq_some.mp htick
    obtain rfl := Option.some.inj hworld
    exact ⟨turn, hturn, hnext, hle, rfl⟩

theorem issues_after {i : Nat} {issued : Option Issued} {label : Label} {time : Int} {turn : Turn}
    (hstep : (system service).next t.world label = some (t.world.take i turn))
    (hrows : turn.rows = t.world.rows) (hle : t.world.clock ≤ time)
    (hundelivered : turn.phase.delivered = none)
    (hfounded : ∀ session, turn.phase.founded = some session →
      (t.world.calls i).founded = some session)
    (hissued : ∀ session, turn.phase.carries = some session →
      ∃ token, issued = some token ∧ token.time = time ∧ token.Names provider session) :
    t.Issues service provider
      ⟨{ t.world.take i turn with clock := time }, Function.update t.issued i issued⟩ i label
      turn where
  step := hstep
  rows := hrows
  world := rfl
  clock := hle
  others j hne := Function.update_of_ne hne ..
  undelivered := hundelivered
  founded := hfounded
  issued session hcarries := by
    obtain ⟨token, rfl, htime, hnames⟩ := hissued session hcarries
    exact ⟨token, Function.update_self .., htime, hnames⟩

theorem login_issues {i : Nat} {lookup : Lookup} {verified : Option Bool} {client : ClientInfo}
    {id : UUID} {token : Option GoString} {time : Int}
    (hnext : (tokenSystem service provider).next t
      (.login i lookup verified client id token time) = some t') :
    ∃ label turn, t.Issues service provider t' i label turn := by
  obtain ⟨turn, hturn, hstep, hle, rfl⟩ := after_eq_some rfl hnext
  have hrows := turn_rows_of_ne_exec (fun j heq => by cases heq) hturn
  obtain ⟨-, hturn⟩ := Option.ite_none_right_eq_some.mp hturn
  obtain ⟨hundelivered, hfounded, hcarries⟩ := loginTurn_carries _ _ _ _ _ _ _ _ _
    (congrArg Turn.phase (Option.some.inj hturn))
  refine ⟨_, turn, issues_after hstep hrows hle hundelivered ?_ ?_⟩
  · intro session hsession
    rw [hfounded] at hsession
    cases hsession
  · intro session hsession
    obtain ⟨user, first, hcheck, rfl, hissued, rfl⟩ := hcarries session hsession
    rw [hcheck] at hissued ⊢
    exact names_of_issueFor (newSession service user id first client t.world.clock) hissued rfl

theorem check_issues {i : Nat} {users : Option (List User)} {next : Option GoString} {time : Int}
    (hnext : (tokenSystem service provider).next t (.check i users next time) = some t') :
    ∃ label turn, t.Issues service provider t' i label turn := by
  simp only [tokenSystem, tokenNext] at hnext
  split at hnext
  · next token now session hphase =>
      obtain ⟨turn, hturn, hstep, hle, rfl⟩ := after_eq_some rfl hnext
      have hrows := turn_rows_of_ne_exec (fun j heq => by cases heq) hturn
      rw [hphase] at hturn
      obtain ⟨hundelivered, hfounded, hcarries⟩ := checkTurn_carries _ _ _ _ _ _ _
        (congrArg Turn.phase (Option.some.inj hturn))
      refine ⟨_, turn, issues_after hstep hrows hle hundelivered ?_ ?_⟩
      · intro other hother
        rw [hphase, ← hfounded other hother]
        rfl
      · intro other hother
        obtain ⟨rfl, hissued, user, second, hlookup, hcheck, rfl⟩ := hcarries other hother
        have hproceeding : proceeding (sessionUser users session) = some user := by
          rw [hlookup] at hcheck ⊢
          exact if_pos hcheck
        rw [hproceeding] at hissued ⊢
        exact names_of_issueFor session hissued (id_of_sessionUser hlookup)
  · cases hnext

/-- Every step: one of the sessions alone, or one that issues a token. -/
theorem tokenNext_cases {label : TokenLabel}
    (hnext : (tokenSystem service provider).next t label = some t') :
    (∃ label, label.issues = false ∧ (system service).next t.world label = some t'.world ∧
        t'.issued = t.issued) ∨
      ∃ i label turn, t.Issues service provider t' i label turn := by
  cases label with
  | login i lookup verified client id token time => exact Or.inr ⟨i, login_issues hnext⟩
  | check i users next time => exact Or.inr ⟨i, check_issues hnext⟩
  | other label =>
      obtain ⟨hissues, hnext⟩ := Option.ite_none_left_eq_some.mp hnext
      obtain ⟨world, hstep, rfl⟩ := Option.map_eq_some_iff.mp hnext
      exact Or.inl ⟨label, Bool.eq_false_iff.mpr hissues, hstep, rfl⟩

end Steps

/-! ## Invariants -/

section Invariants

variable {service : Service} {provider : JWTProvider} {t t' : TokenWorld} {w : World}

/-- A step that issues a token is one of the sessions, and then time. -/
theorem TokenWorld.Issues.run {i : Nat} {label : Label} {turn : Turn}
    (h : t.Issues service provider t' i label turn) :
    (system service).run t.world [label, .tick t'.world.clock] = some t'.world := by
  have htick : (system service).next (t.world.take i turn) (.tick t'.world.clock) =
      some t'.world := by
    rw [h.world]
    exact if_pos h.clock
  rw [System.run_cons, h.step, Option.bind_some, System.run_cons, htick]
  rfl

/-- A step with tokens is a run of the sessions. -/
theorem exists_run_of_tokenNext {label : TokenLabel}
    (hnext : (tokenSystem service provider).next t label = some t') :
    ∃ labels, (system service).run t.world labels = some t'.world := by
  obtain ⟨label, -, hstep, -⟩ | ⟨i, label, turn, h⟩ := tokenNext_cases hnext
  · exact ⟨[label], by rw [System.run_cons, hstep]; rfl⟩
  · exact ⟨_, h.run⟩

theorem reachable_world (hreach : (tokenSystem service provider).Reachable t) :
    (system service).Reachable t.world := by
  refine hreach.invariant (I := fun t => (system service).Reachable t.world) ?_ ?_
  · rintro t ⟨hinit, -⟩
    exact .init hinit
  · intro t label t' _ ih hnext
    obtain ⟨labels, hrun⟩ := exists_run_of_tokenNext hnext
    exact ih.run hrun

theorem Issued.Names.congr {issued : Issued} {session other : Session}
    (h : issued.Names provider session) (hid : session.id = other.id)
    (huser : session.userID = other.userID) : issued.Names provider other where
  sessionID := h.sessionID.trans (congrArg UUID.text hid)
  userID := h.userID.trans (congrArg UUID.text huser)
  isLocal := h.isLocal
  issue := h.issue

/-- Without a token that is issued, a call goes on with the session that it had one for. -/
theorem carries_of_turn {label : Label} {clock : Int} {rows : List Row} {i : Nat} {before : Phase}
    {turn : Turn} (hturn : label.turn service clock rows i before = some turn)
    (hissues : label.issues = false) {session : Session}
    (hcarries : turn.phase.carries = some session) :
    ∃ old, before.carries = some old ∧ old.id = session.id ∧ old.userID = session.userID := by
  by_cases hexec : ∃ j, label = .exec j
  · obtain ⟨j, rfl⟩ := hexec
    obtain ⟨-, hnone, -⟩ | ⟨token, old, rfl, hphase, -⟩ |
      ⟨token, now, old, next, rfl, hphase, -⟩ := session_of_exec hturn
    · rw [hnone] at hcarries
      cases hcarries
    · rw [hphase] at hcarries
      cases hcarries
      exact ⟨_, rfl, rfl, rfl⟩
    · rw [hphase] at hcarries
      cases hcarries
      exact ⟨old, rfl, rfl, rfl⟩
  · obtain ⟨hnone, -⟩ := quiet_of_turn hturn hissues (fun j heq => hexec ⟨j, heq⟩)
    rw [hnone] at hcarries
    cases hcarries

/-- Whoever goes on with a session has a token for it, issued up to now. -/
structure Covered (provider : JWTProvider) (t : TokenWorld) : Prop where
  clock : 0 ≤ t.world.clock
  carried : ∀ i session, (t.world.calls i).carries = some session →
    ∃ issued, t.issued i = some issued ∧ issued.Names provider session ∧ 0 ≤ issued.time ∧
      issued.time ≤ t.world.clock

/-- What is known of a call is known after a step that leaves the call alone. -/
theorem Covered.keep (h : Covered provider t) (hclock : t.world.clock ≤ t'.world.clock) {i : Nat}
    (hcalls : t'.world.calls i = t.world.calls i) (hissued : t'.issued i = t.issued i)
    {session : Session} (hcarries : (t'.world.calls i).carries = some session) :
    ∃ issued, t'.issued i = some issued ∧ issued.Names provider session ∧ 0 ≤ issued.time ∧
      issued.time ≤ t'.world.clock := by
  rw [hcalls] at hcarries
  obtain ⟨issued, hsome, hnames, hpos, hle⟩ := h.carried i session hcarries
  exact ⟨issued, hissued.trans hsome, hnames, hpos, hle.trans hclock⟩

/-- A step without a token. -/
theorem Covered.step (h : Covered provider t) {label : Label} (hissues : label.issues = false)
    (hstep : (system service).next t.world label = some t'.world)
    (hissued : t'.issued = t.issued) : Covered provider t' := by
  obtain ⟨time, -, hle, hworld⟩ | ⟨i, turn, -, hturn, hworld⟩ := next_cases hstep
  · have hclock : t.world.clock ≤ t'.world.clock := by
      rw [hworld]
      exact hle
    refine ⟨h.clock.trans hclock, fun j session hcarries => ?_⟩
    exact h.keep hclock (by rw [hworld]) (congrFun hissued j) hcarries
  · have hclock : t'.world.clock = t.world.clock := by
      rw [hworld]
      rfl
    refine ⟨hclock ▸ h.clock, fun j session hcarries => ?_⟩
    by_cases hj : j = i
    · subst hj
      rw [hworld, World.take_calls_self] at hcarries
      obtain ⟨old, hold, hid, huser⟩ := carries_of_turn hturn hissues hcarries
      obtain ⟨issued, hsome, hnames, hpos, hle⟩ := h.carried j old hold
      rw [hissued, hclock]
      exact ⟨issued, hsome, hnames.congr hid huser, hpos, hle⟩
    · exact h.keep hclock.ge (by rw [hworld, World.take_calls_of_ne hj]) (congrFun hissued j)
        hcarries

/-- A step with a token. -/
theorem Covered.issue (h : Covered provider t) {i : Nat} {label : Label} {turn : Turn}
    (hissues : t.Issues service provider t' i label turn) : Covered provider t' := by
  refine ⟨h.clock.trans hissues.clock, fun j session hcarries => ?_⟩
  by_cases hj : j = i
  · subst hj
    rw [hissues.world, show ({ t.world.take j turn with clock := t'.world.clock } : World).calls j =
      turn.phase from World.take_calls_self] at hcarries
    obtain ⟨issued, hsome, htime, hnames⟩ := hissues.issued session hcarries
    rw [← htime]
    exact ⟨issued, hsome, hnames, htime ▸ h.clock.trans hissues.clock, le_rfl⟩
  · refine h.keep hissues.clock ?_ (hissues.others j hj) hcarries
    rw [hissues.world]
    exact World.take_calls_of_ne hj

end Invariants

end GoFoundation.Sessions
