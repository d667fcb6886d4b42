/-
# A created user, read back

`CreateUser` answers from the entity it built, later reads from the row.  The columns
keep the name and the email as they are, because both were trimmed, but of the times
they keep whole microseconds only, while the clock of `user.New` reads nanoseconds.
-/

import GoFoundation.Users.Search
import GoFoundation.Users.Service

namespace GoFoundation.Users

open Postgres Pagination Grpc Library
open UserHandler (createUser getUser)

/-- `uuid.Parse`, as far as `Service.Get` needs it: whether it accepts a text.  It accepts
what `uuid.NewString` returns. -/
structure UuidParser where
  accepts : String → Bool
  accepts_text : ∀ id : UUID, accepts id.text = true

/-! ## The row of a new user -/

section Row

variable {tables : CaseTables} {id : UUID} {name email passwordHash : String} {now : Int}
  {user : Entity} {row : User}

/-- The row of a new user has its texts, and its times cut down. -/
theorem entity_of_toRow (hnew : newUser tables id.text name email now = .ok user)
    (hrow : toRow { user with passwordHash := passwordHash } = some row) :
    row.entity =
      { user with
        passwordHash := passwordHash
        createdAt := toTimestamptz now
        updatedAt := toTimestamptz now } := by
  have huser := newUser_eq_ok hnew
  have hemail : EndsSolid (tables.normalise email) :=
    endsSolid_lower (endsSolid_trimSpaceText email)
  have hprovider : (checkText "local").bind (varchar 50) = some "local" := by decide
  have hsubject : (checkText "").bind (varchar 255) = some "" := by decide
  subst huser
  simp only [toRow, UUID.parse_text, checkText_bind_varchar (endsSolid_trimSpaceText name),
    checkText_bind_varchar hemail, hprovider, hsubject, Option.bind_eq_bind, Option.bind_some,
    Option.bind_eq_some_iff, Option.ite_none_right_eq_some, Option.some.injEq] at hrow
  obtain ⟨name', ⟨-, rfl⟩, email', ⟨-, rfl⟩, hash', hhash, rfl⟩ := hrow
  rcases checkText_cases passwordHash with ⟨hcheck, -⟩ | ⟨hcheck, -⟩
  · rw [hcheck, Option.some.injEq] at hhash
    rw [← hhash]
    rfl
  · rw [hcheck] at hhash
    cases hhash

end Row

/-! ## Later tables -/

section Later

variable {users users' : List User} {user : Entity}

theorem create_eq_ok (hcreate : create users user = .ok users') :
    ∃ row, toRow user = some row ∧ users' = users ++ [row] ∧
      ∀ other ∈ users, other.id ≠ row.id := by
  unfold create at hcreate
  split at hcreate
  · cases hcreate
  · next row hrow =>
      split at hcreate
      · cases hcreate
      · next hclash =>
          cases hcreate
          refine ⟨row, hrow, rfl, fun other hother hid => hclash ?_⟩
          exact List.any_eq_true.mpr ⟨other, hother, by simp [User.clashes, hid]⟩

/-- The table after further calls of `Create`.  Nothing else writes to it. -/
def afterCreates (users : List User) (later : List Entity) : List User :=
  (creates (fun _ => create) 0 users later).2

/-- Further calls keep the rows and the primary key. -/
theorem afterCreates_spec (hids : (users.map User.id).Nodup) (later : List Entity) :
    ((afterCreates users later).map User.id).Nodup ∧ ∀ row ∈ users, row ∈ afterCreates users later := by
  unfold afterCreates
  generalize 0 = count
  induction later generalizing users count with
  | nil => exact ⟨hids, fun row hrow => hrow⟩
  | cons user later ih =>
      rw [creates]
      cases hcreate : create users user with
      | error err => exact ih hids (count + 1)
      | ok users' =>
          obtain ⟨row, -, rfl, hnew⟩ := create_eq_ok hcreate
          obtain ⟨hids', hkept⟩ := ih (Table.nodup_map_append hids hnew) (count + 1)
          exact ⟨hids', fun old hold => hkept old (List.mem_append_left _ hold)⟩

end Later

/-! ## Reading back -/

theorem Timestamp.new_injective : Function.Injective Timestamp.new := by
  intro first second heq
  rw [Timestamp.new, Timestamp.new, Timestamp.mk.injEq] at heq
  omega

/-- `GetUser` with the id of a stored row answers from the row. -/
theorem getUser_of_mem (P : Protobuf) (parser : UuidParser) {users : List User}
    (hids : (users.map User.id).Nodup) {row : User} (hrow : row ∈ users) :
    getUser P parser.accepts users row.id.text = .ok (toProtoUser row.entity) := by
  have hfound : lookup users (fun user => user.id = row.id) = .found row := by
    rw [lookup_eq_found_iff]
    · exact ⟨hrow, decide_eq_true rfl⟩
    · intro first hfirst second hsecond hid hid'
      exact Table.eq_of_key_eq hids hfirst hsecond
        ((of_decide_eq_true hid).trans (of_decide_eq_true hid').symm)
  simp only [getUser, Service.get, parser.accepts_text, if_true, getByID, UUID.parse_text, hfound]

/-- A page lists rows of the table. -/
theorem mem_of_listSearch {codec : CursorCodec} {lower : String → String} {input : ListInput}
    {users : List User} {pageSize : Int} {pageToken : String} {page : Page User}
    (hlist : listSearch codec lower input users pageSize pageToken = .ok page) :
    ∀ user ∈ page.items, user ∈ users := by
  have hrows : ∀ filter rows, listFiltered lower users filter = some rows →
      ∀ user ∈ rows, user ∈ users := by
    intro filter rows hrows user huser
    rcases @listFiltered_cases lower users filter with ⟨-, hsome⟩ | ⟨-, hnone⟩
    · rw [hsome, Option.some.injEq] at hrows
      rw [← hrows] at huser
      exact (Keyset.mem_remaining.mp (List.mem_of_mem_take huser)).1
    · rw [hnone] at hrows
      cases hrows
  intro user huser
  obtain ⟨after, rows, hquery, rfl, -⟩ := list_eq_ok hlist
  exact hrows _ rows hquery user (mem_of_mem_cutPage huser)

theorem mem_of_listUsers {P : Protobuf} {codec : CursorCodec} {lower : String → String}
    {input : ListInput} {users : List User} {pageSize : Int} {pageToken : String}
    {messages : List UserMessage} {next : String}
    (hlist : UserHandler.listUsers P pageToken
      (listSearch codec lower input users pageSize pageToken) = .ok (messages, next))
    {entry : UserMessage} (hentry : entry ∈ messages) :
    ∃ user ∈ users, entry = toProtoUser user.entity := by
  cases hpage : listSearch codec lower input users pageSize pageToken with
  | error err =>
      rw [hpage] at hlist
      cases err <;> cases hlist
  | ok page =>
      rw [hpage] at hlist
      cases hlist
      obtain ⟨user, huser, rfl⟩ := List.mem_map.mp hentry
      exact ⟨user, mem_of_listSearch hpage user huser, rfl⟩

/-- Every later read of the user returns the message. -/
structure ReadsBack (P : Protobuf) (parser : UuidParser) (message : UserMessage)
    (users : List User) : Prop where
  get : ∀ later,
    getUser P parser.accepts (afterCreates users later) message.id = .ok message
  list : ∀ later codec lower input pageSize pageToken messages next,
    UserHandler.listUsers P pageToken
        (listSearch codec lower input (afterCreates users later) pageSize pageToken) =
      .ok (messages, next) →
    ∀ entry ∈ messages, entry.id = message.id → entry = message

/-- `Service.Create` returns what `user.New` built, with the hash, once it is stored. -/
theorem Service.create_eq_ok {σ : Type} {tables : CaseTables}
    {hash : String → Except String String} {repo : Entity → Except CreateError σ}
    {input : CreateUserRequest} {id : UUID} {now : Int} {user : Entity} {stored : σ}
    (hcreate : Service.create tables hash repo input id now = .ok (user, stored)) :
    ∃ built passwordHash, newUser tables id.text input.name input.email now = .ok built ∧
      user = { built with passwordHash := passwordHash } ∧ repo user = .ok stored := by
  unfold Service.create at hcreate
  split at hcreate
  · cases hcreate
  · split at hcreate
    · cases hcreate
    · split at hcreate
      · cases hcreate
      · next built hnew =>
          split at hcreate
          · cases hcreate
          · next passwordHash _ =>
              split at hcreate
              · cases hcreate
              · cases hcreate
              · next hstore =>
                  cases hcreate
                  exact ⟨built, passwordHash, hnew, rfl, hstore⟩

/-- The message that `CreateUser` returned and the row it left: they differ in the times
at most. -/
theorem createUser_eq_ok {P : Protobuf} {tables : CaseTables}
    {hash : String → Except String String} {users users' : List User}
    {request : CreateUserRequest} {id : UUID} {now : Int} {message : UserMessage}
    (hcreate : createUser P tables hash (create users) request id now = .ok (message, users')) :
    ∃ (user : Entity) (row : User), message = toProtoUser user ∧ user.createdAt = now ∧
      user.updatedAt = now ∧
      row.entity =
        { user with createdAt := toTimestamptz now, updatedAt := toTimestamptz now } ∧
      users' = users ++ [row] ∧ ∀ other ∈ users, other.id ≠ row.id := by
  unfold createUser at hcreate
  split at hcreate
  · next user stored hservice =>
      cases hcreate
      obtain ⟨built, passwordHash, hnew, rfl, hstore⟩ := Service.create_eq_ok hservice
      obtain ⟨row, hrow, rfl, hother⟩ := create_eq_ok hstore
      have hbuilt := newUser_eq_ok hnew
      have hentity := entity_of_toRow hnew hrow
      exact ⟨_, row, rfl, by rw [hbuilt], by rw [hbuilt], hentity, rfl, hother⟩
  · cases hcreate

/-- What `CreateUser` returns is what later reads return, exactly when the clock read
whole microseconds. -/
theorem create_user_reads_back_iff (P : Protobuf) (parser : UuidParser) (tables : CaseTables)
    (hash : String → Except String String) {users users' : List User}
    (hids : (users.map User.id).Nodup) {request : CreateUserRequest} {id : UUID} {now : Int}
    {message : UserMessage}
    (hcreate : createUser P tables hash (create users) request id now = .ok (message, users')) :
    ReadsBack P parser message users' ↔ IsTimestamptz now := by
  obtain ⟨user, row, rfl, hcreated, hupdated, hentity, rfl, hnew⟩ := createUser_eq_ok hcreate
  have hids' := Table.nodup_map_append hids hnew
  have hid : (toProtoUser user).id = row.id.text := by
    show user.id = row.entity.id
    rw [hentity]
  apply Iff.intro
  · intro hreads
    have hget := hreads.get []
    rw [hid, afterCreates, creates, getUser_of_mem P parser hids' (by simp), hentity,
      Except.ok.injEq] at hget
    have htime : Timestamp.new (toTimestamptz now) = Timestamp.new user.createdAt :=
      congrArg UserMessage.createdAt hget
    rw [hcreated] at htime
    exact Timestamp.new_injective htime
  · intro htime
    have hwhole : toTimestamptz now = now := htime
    have hsame : row.entity = user := by
      rw [hentity, hwhole]
      nth_rewrite 1 [← hcreated]
      rw [← hupdated]
    refine ⟨fun later => ?_, ?_⟩
    · obtain ⟨hlater, hkept⟩ := afterCreates_spec hids' later
      rw [hid, getUser_of_mem P parser hlater (hkept row (by simp)), hsame]
    · intro later codec lower input pageSize pageToken messages next hlist entry hentry hentryID
      obtain ⟨hlater, hkept⟩ := afterCreates_spec hids' later
      obtain ⟨other, hother, rfl⟩ := mem_of_listUsers hlist hentry
      have hrow : other = row := Table.eq_of_key_eq hlater hother (hkept row (by simp))
        (UUID.text_injective (hentryID.trans hid))
      rw [hrow, hsame]

/-- `uuid.Parse` on the texts of UUIDs. -/
def UuidParser.canonical : UuidParser where
  accepts text := (UUID.parse text).isSome
  accepts_text id := by rw [UUID.parse_text]; rfl

/-- The message for the request of `adaRequest` at an instant. -/
def adaMessage (now : Int) : UserMessage :=
  ⟨(UUID.ofNat 1).text, "Ada", "ada@example.com", true, .new now, .new now⟩

/-- Its row. -/
def adaRow (now : Int) : User :=
  ⟨.ofNat 1, "Ada", "ada@example.com", "$argon2id$", true, "local", "", toTimestamptz now,
    toTimestamptz now⟩

theorem create_user_reads_back_microsecond :
    createUser Protobuf.wire CaseTables.sample sampleHash (create []) adaRequest (.ofNat 1) 1000 =
        .ok (adaMessage 1000, [adaRow 1000]) ∧
      ReadsBack Protobuf.wire .canonical (adaMessage 1000) [adaRow 1000] := by
  have hcreate : createUser Protobuf.wire CaseTables.sample sampleHash (create []) adaRequest
      (.ofNat 1) 1000 = .ok (adaMessage 1000, [adaRow 1000]) := by
    decide +kernel
  exact ⟨hcreate, (create_user_reads_back_iff Protobuf.wire .canonical CaseTables.sample sampleHash
    (by simp) hcreate).mpr (by decide)⟩

/-- One nanosecond past a microsecond, `GetUser` does not return what `CreateUser` did. -/
theorem nanosecond_not_read_back :
    ¬ ∀ (request : CreateUserRequest) (id : UUID) (now : Int) (message : UserMessage)
      (users : List User), request.valid = true →
        createUser Protobuf.wire CaseTables.sample sampleHash (create []) request id now =
          .ok (message, users) →
        ReadsBack Protobuf.wire .canonical message users := by
  intro hall
  have hreads := hall adaRequest (.ofNat 1) 1001 (adaMessage 1001) [adaRow 1001]
    (by decide +kernel) (by decide +kernel)
  have hget := hreads.get []
  revert hget
  decide +kernel

end GoFoundation.Users
