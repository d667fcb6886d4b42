/-
# What a login discloses

`AuthHandler.Login`, and what it tells a client that does not know the password.  An
email that nobody has, one of an external user and a wrong password end in the same
error.  A disabled user does not, because `Login` asks whether the user is enabled before
it verifies the password.
-/

import GoFoundation.Grpc.ErrorInfo
import GoFoundation.Sessions.Failures

namespace GoFoundation.Sessions

open Library Postgres Grpc Users Server

/-- `authv1.UserIdentity`. -/
structure UserIdentity where
  id : String
  name : String
  email : String
  provider : String
  deriving DecidableEq, Repr

/-- `authv1.LoginResponse`. -/
structure LoginResponse where
  accessToken : GoString
  expiresAtUnix : Int
  refreshToken : GoString
  refreshExpiresAtUnix : Int
  sessionID : String
  user : UserIdentity
  deriving DecidableEq, Repr

/-- `Time.Unix`. -/
def unix (t : Int) : Int := t / 1000000000

/-- The errors of `AuthHandler.Login` for those of the service. -/
def loginStatus (P : Protobuf) : AuthError → Option GoError
  | .invalidCredentials =>
      Apierror.new P .unauthenticated "INVALID_CREDENTIALS" "invalid credentials" []
  | .userDisabled => Apierror.new P .permissionDenied "USER_DISABLED" "user disabled" []
  | .invalidRefreshToken | .sessionNotFound | .other =>
      Apierror.new P .internal "LOGIN_FAILED" "login failed" []

/-- The response of `AuthHandler.Login`. -/
def loginResponse (result : LoginResult) : LoginResponse where
  accessToken := result.token.accessToken
  expiresAtUnix := unix result.token.expiresAt
  refreshToken := result.refreshToken
  refreshExpiresAtUnix := unix result.session.expiresAt
  sessionID := result.session.id.text
  user := ⟨result.user.id.text, result.user.name, result.user.email, "local"⟩

/-- `AuthHandler.Login`; the handler has no service where local login is disabled. -/
def handleLogin (P : Protobuf) (auth : Option Service) (tables : CaseTables) (env : Env)
    (users : List User) (rows : List Row) (email password : String) (client : ClientInfo)
    (now : Int) : Except (Option GoError) LoginResponse :=
  match auth with
  | none =>
      .error (Apierror.new P .unimplemented "LOCAL_AUTH_DISABLED" "local login is disabled" [])
  | some service =>
      match (login service tables env users rows email password client now).1 with
      | .ok result => .ok (loginResponse result)
      | .error err => .error (loginStatus P err)

/-! ## Without the password -/

/-- Nobody has the email, or somebody whose hash does not verify the password. -/
def Unverified (tables : CaseTables) (env : Env) (users : List User) (email password : String) :
    Prop :=
  ∀ user ∈ users, user.email = tables.normalise email →
    env.verify password user.passwordHash ≠ some true

/-- The user lookup succeeds and returns a user who is disabled. -/
def Disabled (tables : CaseTables) (env : Env) (users : List User) (email : String) : Prop :=
  ∃ user, env.lookup (getByEmail users (tables.normalise email)) = .found user ∧
    user.enabled = false

section Login

variable {tables : CaseTables} {env : Env} {users : List User} {email password : String}

theorem getByEmail_eq_found {user : User} (hfound : getByEmail users email = .found user) :
    user ∈ users ∧ user.email = email := by
  rw [getByEmail] at hfound
  obtain ⟨hcheck, -⟩ | ⟨hcheck, -⟩ := checkText_cases email
  · rw [hcheck] at hfound
    obtain ⟨hmem, hemail⟩ := lookup_eq_found hfound
    exact ⟨hmem, of_decide_eq_true hemail⟩
  · rw [hcheck] at hfound
    cases hfound

/-- An enabled user is turned away for the password, or because there is none. -/
theorem loginCheck_enabled {user : User} {verified : Option Bool} (henabled : user.enabled = true)
    (hverified : verified ≠ some true) :
    loginCheck (.found user) verified = .error .invalidCredentials := by
  have hnot : ¬ (!user.enabled) = true := by simp [henabled]
  rw [loginCheck, if_neg hnot, if_neg hverified, ite_self]

/-- Without the password there are two errors, and which one it is depends on whether the
user is disabled. -/
theorem handleLogin_unverified (P : Protobuf) (service : Service) (rows : List Row)
    (client : ClientInfo) (now : Int) (hunverified : Unverified tables env users email password) :
    (Disabled tables env users email ∧
      handleLogin P (some service) tables env users rows email password client now =
        .error (loginStatus P .userDisabled)) ∨
    (¬ Disabled tables env users email ∧
      handleLogin P (some service) tables env users rows email password client now =
        .error (loginStatus P .invalidCredentials)) := by
  simp only [Disabled, handleLogin, login]
  cases hlookup : env.lookup (getByEmail users (tables.normalise email)) with
  | notFound | failed =>
      refine .inr ⟨?_, rfl⟩
      rintro ⟨user, hfound, -⟩
      cases hfound
  | found user =>
      cases henabled : user.enabled with
      | false =>
          have hcheck : loginCheck (.found user) (env.verification password (.found user)) =
              .error .userDisabled := by
            rw [loginCheck, henabled]
            rfl
          rw [hcheck]
          exact .inl ⟨⟨user, rfl, henabled⟩, rfl⟩
      | true =>
          have hfound : getByEmail users (tables.normalise email) = .found user :=
            lookup_of_ne_failed hlookup Lookup.noConfusion
          obtain ⟨hmem, hemail⟩ := getByEmail_eq_found hfound
          have hcheck : loginCheck (.found user) (env.verification password (.found user)) =
              .error .invalidCredentials :=
            loginCheck_enabled henabled (hunverified user hmem hemail)
          rw [hcheck]
          refine .inr ⟨?_, rfl⟩
          rintro ⟨other, hother, hdisabled⟩
          cases hother
          rw [henabled] at hdisabled
          cases hdisabled

end Login

theorem loginStatus_ne (P : Protobuf) :
    loginStatus P .userDisabled ≠ loginStatus P .invalidCredentials :=
  Apierror.new_ne_new P (by simp) (by simp) (by simp) _ _ _ _ _ _

theorem not_same_error {first second : Except (Option GoError) LoginResponse}
    {err err' : Option GoError} (hfirst : first = .error err) (hsecond : second = .error err')
    (hne : err ≠ err') : ¬ ∃ common, first = .error common ∧ second = .error common := by
  rintro ⟨common, hcommon, hcommon'⟩
  apply hne
  rw [Except.error.inj (hfirst.symm.trans hcommon), Except.error.inj (hsecond.symm.trans hcommon')]

/-- Two tables end in the same error exactly if local login is disabled, or the user of the
email is disabled in both of them or in neither. -/
theorem login_same_error_iff (P : Protobuf) (auth : Option Service) (tables : CaseTables)
    (env env' : Env) (users users' : List User) (rows rows' : List Row) (email password : String)
    (client client' : ClientInfo) (now now' : Int)
    (hunverified : Unverified tables env users email password)
    (hunverified' : Unverified tables env' users' email password) :
    (∃ err, handleLogin P auth tables env users rows email password client now = .error err ∧
        handleLogin P auth tables env' users' rows' email password client' now' = .error err) ↔
      auth = none ∨
        (Disabled tables env users email ↔ Disabled tables env' users' email) := by
  cases auth with
  | none => exact iff_of_true ⟨_, rfl, rfl⟩ (.inl rfl)
  | some service =>
      rw [or_iff_right (Option.some_ne_none service)]
      obtain ⟨hdisabled, hlogin⟩ | ⟨henabled, hlogin⟩ :=
        handleLogin_unverified P service rows client now hunverified <;>
      obtain ⟨hdisabled', hlogin'⟩ | ⟨henabled', hlogin'⟩ :=
        handleLogin_unverified P service rows' client' now' hunverified'
      · exact iff_of_true ⟨_, hlogin, hlogin'⟩ (iff_of_true hdisabled hdisabled')
      · apply iff_of_false (not_same_error hlogin hlogin' (loginStatus_ne P))
        exact fun h => henabled' (h.mp hdisabled)
      · apply iff_of_false (not_same_error hlogin hlogin' (loginStatus_ne P).symm)
        exact fun h => henabled (h.mpr hdisabled')
      · exact iff_of_true ⟨_, hlogin, hlogin'⟩ (iff_of_false henabled henabled')

/-- A wrong password looks like an email that nobody has. -/
theorem login_same_error_guess :
    ∃ err,
      handleLogin Protobuf.wire (some Service.sample) CaseTables.sample (.sample true) []
          [] "ada@example.com" "guess" ⟨[], []⟩ 0 = .error err ∧
        handleLogin Protobuf.wire (some Service.sample) CaseTables.sample (.sample true) [heldUser]
          [] "ada@example.com" "guess" ⟨[], []⟩ 0 = .error err := by
  apply (login_same_error_iff _ _ _ _ _ _ _ _ _ _ _ _ _ _ _ ?_ ?_).mpr (.inr (iff_of_false ?_ ?_))
  · exact fun _ huser => absurd huser List.not_mem_nil
  · unfold Unverified
    decide +kernel
  · have hlookup : (Env.sample true).lookup (getByEmail []
        (CaseTables.sample.normalise "ada@example.com")) = .notFound := by
      decide +kernel
    rintro ⟨user, hfound, -⟩
    rw [hlookup] at hfound
    cases hfound
  · have hlookup : (Env.sample true).lookup (getByEmail [heldUser]
        (CaseTables.sample.normalise "ada@example.com")) = .found heldUser := by
      decide +kernel
    rintro ⟨user, hfound, hdisabled⟩
    rw [hlookup] at hfound
    cases hfound
    cases hdisabled

/-- The email of a disabled user does not. -/
theorem login_discloses_disabled :
    Unverified CaseTables.sample (.sample true) [] "ada@example.com" "guess" ∧
      Unverified CaseTables.sample (.sample true) [{ heldUser with enabled := false }]
        "ada@example.com" "guess" ∧
      ¬ ∃ err,
        handleLogin Protobuf.wire (some Service.sample) CaseTables.sample (.sample true) [] []
            "ada@example.com" "guess" ⟨[], []⟩ 0 = .error err ∧
          handleLogin Protobuf.wire (some Service.sample) CaseTables.sample (.sample true)
            [{ heldUser with enabled := false }] [] "ada@example.com" "guess" ⟨[], []⟩ 0 =
              .error err := by
  refine ⟨fun _ huser => absurd huser List.not_mem_nil, ?_, ?_⟩
  · unfold Unverified
    decide +kernel
  · have hnobody : handleLogin Protobuf.wire (some Service.sample) CaseTables.sample
        (.sample true) [] [] "ada@example.com" "guess" ⟨[], []⟩ 0 =
          .error (loginStatus Protobuf.wire .invalidCredentials) := by
      rfl
    have hdisabled : handleLogin Protobuf.wire (some Service.sample) CaseTables.sample
        (.sample true) [{ heldUser with enabled := false }] [] "ada@example.com" "guess" ⟨[], []⟩
          0 = .error (loginStatus Protobuf.wire .userDisabled) := by
      rfl
    exact not_same_error hnobody hdisabled (loginStatus_ne Protobuf.wire).symm

end GoFoundation.Sessions
