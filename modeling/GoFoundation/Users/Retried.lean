/-
# Creating a user, retried

Clients call `CreateUser` and call it again when they do not know what became of it: with
the same idempotency key, with another one or without.  Their statements fail, or are
executed and nobody learns of it, locks run out while a handler is still at work, and other
methods use the same records.

For one address there is at most one user, and everyone who is told that the address has
been registered is told of this user, in the same words.
-/

import GoFoundation.Idempotency.Handlers
import GoFoundation.Users.ReadBack
import GoFoundation.Users.Secrecy

namespace GoFoundation.Users

open Postgres Grpc Library Idempotency

variable {P : Protobuf}

/-! ## The handler -/

/-- What becomes of the `INSERT`: the connection can break after the database has executed
it, and the handler then sees an error. -/
inductive Statement
  | executed
  | failed
  | unacknowledged
  deriving DecidableEq, Repr

/-- What a run of the handler draws: the id, the clock, and what becomes of the hashing, which
is salted, and of the `INSERT`. -/
structure Draw where
  userID : UUID
  now : Int
  hash : String → Except String String
  insert : Statement

/-- What is around the handler: the response with a user, the case tables, and the SHA-256 of a
request. -/
structure Registrar (P : Protobuf) where
  response : UserMessage → P.Message
  tables : CaseTables
  requestHash : CreateUserRequest → Bytes

namespace Registrar

variable (registrar : Registrar P)

/-- `UserHandler.CreateUser`, with an `INSERT` that fails or not. -/
def createUser (draw : Draw) (fails : Bool) (request : CreateUserRequest) (users : List User) :
    Except (Option GoError) (UserMessage × List User) :=
  UserHandler.createUser P registrar.tables draw.hash (insertUser fails users) request
    draw.userID draw.now

/-- What the client gets to see. -/
def answer : Except (Option GoError) (UserMessage × List User) → Outcome P
  | .ok (message, _) => ⟨.message (registrar.response message), none⟩
  | .error err => ⟨.other, err⟩

/-- A run: the handler answers from what it learns, and the table is what the database has
made of it. -/
def handle (draw : Draw) (request : CreateUserRequest) (users : List User) :
    Outcome P × List User :=
  (registrar.answer (registrar.createUser draw (draw.insert ≠ .executed) request users),
    match registrar.createUser draw (draw.insert = .failed) request users with
    | .ok (_, stored) => stored
    | .error _ => users)

end Registrar

/-- The errors of the user service have a code. -/
theorem mapUserErr_cases (P : Protobuf) (field resourceName : String) (err : ServiceError) :
    ∃ value : Status, value.code ≠ .ok ∧ mapUserErr P field resourceName err = some (.status value) := by
  have hnew : ∀ (code : Code) (reason message : String) (details : List Detail), code ≠ .ok →
      ∃ value : Status, value.code ≠ .ok ∧
        Apierror.new P code reason message details = some (.status value) := by
    intro code reason message details hcode
    obtain ⟨value, hvalue, -, hnew⟩ := Apierror.new_eq_some P hcode reason message details
    exact ⟨value, hvalue ▸ hcode, hnew⟩
  cases err with
  | notFound => exact hnew .notFound _ _ _ (by decide)
  | emailExists => exact hnew .alreadyExists _ _ _ (by decide)
  | invalidUserID => exact hnew .invalidArgument _ _ _ (by decide)
  | invalidPageToken => exact hnew .invalidArgument _ _ _ (by decide)
  | other text => exact hnew .internal _ _ _ (by decide)

theorem createUser_cases (registrar : Registrar P) (draw : Draw) (fails : Bool)
    (request : CreateUserRequest) (users : List User) :
    (∃ message stored, registrar.createUser draw fails request users = .ok (message, stored)) ∨
      ∃ value : Status, value.code ≠ .ok ∧
        registrar.createUser draw fails request users = .error (some (.status value)) := by
  unfold Registrar.createUser UserHandler.createUser
  split
  · exact .inl ⟨_, _, rfl⟩
  · next err _ =>
      obtain ⟨value, hcode, hvalue⟩ := mapUserErr_cases P "email" request.email err
      exact .inr ⟨value, hcode, by rw [hvalue]⟩

section Handle

variable {registrar : Registrar P} {draw : Draw} {request : CreateUserRequest}
  {users : List User}

/-- What registers an address: the row, and what the client is told of it. -/
structure Registers (registrar : Registrar P) (request : CreateUserRequest) (row : User)
    (message : UserMessage) : Prop where
  email : row.email = registrar.tables.normalise request.email
  name : row.name = Go.trimSpaceText request.name
  told : message.id = row.id.text ∧ message.name = row.name ∧ message.email = row.email ∧
    message.enabled = row.enabled

theorem create_fresh {user : Entity} {stored : List User}
    (hcreate : create users user = .ok stored) : ∃ row, toRow user = some row ∧
      stored = users ++ [row] ∧ ∀ other ∈ users, row.clashes other = false := by
  unfold create at hcreate
  split at hcreate
  · cases hcreate
  · next row hrow =>
      rw [ite_eq_iff] at hcreate
      obtain ⟨-, herror⟩ | ⟨hclash, hstored⟩ := hcreate
      · cases herror
      · cases hstored
        exact ⟨row, hrow, rfl, by simpa using hclash⟩

/-- A user is created under a new id and a new address. -/
theorem registers_of_ok {fails : Bool} {message : UserMessage} {stored : List User}
    (hcreate : registrar.createUser draw fails request users = .ok (message, stored)) :
    fails = false ∧ ∃ row, stored = users ++ [row] ∧ Registers registrar request row message ∧
      (∀ other ∈ users, other.id ≠ row.id) ∧ ∀ other ∈ users, other.email ≠ row.email := by
  unfold Registrar.createUser UserHandler.createUser at hcreate
  split at hcreate
  · next user _ hservice =>
      cases hcreate
      obtain ⟨built, passwordHash, hnew, rfl, hinsert⟩ := Service.create_eq_ok hservice
      cases fails with
      | true => cases hinsert
      | false =>
          obtain ⟨row, hrow, rfl, hfresh⟩ := create_fresh hinsert
          have hbuilt := newUser_eq_ok hnew
          have hentity := entity_of_toRow hnew hrow
          have hid : row.id.text = built.id := congrArg Entity.id hentity
          have hname : row.name = built.name := congrArg Entity.name hentity
          have hemail : row.email = built.email := congrArg Entity.email hentity
          have henabled : row.enabled = built.enabled := congrArg Entity.enabled hentity
          refine ⟨rfl, row, rfl, ⟨?_, ?_, hid.symm, hname.symm, hemail.symm, henabled.symm⟩,
            fun other hother heq => ?_, fun other hother heq => ?_⟩
          · rw [hemail, hbuilt]
          · rw [hname, hbuilt]
          · have hclash := hfresh other hother
            simp [User.clashes, heq] at hclash
          · have hclash := hfresh other hother
            simp [User.clashes, heq] at hclash
  · cases hcreate

/-- A run adds a row under a new id and a new address, or none. -/
theorem handle_users (registrar : Registrar P) (draw : Draw) (request : CreateUserRequest)
    (users : List User) : (registrar.handle draw request users).2 = users ∨
      ∃ row message, (registrar.handle draw request users).2 = users ++ [row] ∧
        Registers registrar request row message ∧ (∀ other ∈ users, other.id ≠ row.id) ∧
        ∀ other ∈ users, other.email ≠ row.email := by
  obtain ⟨message, stored, hcreate⟩ | ⟨value, -, hcreate⟩ :=
    createUser_cases registrar draw (draw.insert = .failed) request users
  · obtain ⟨-, row, rfl, hrow⟩ := registers_of_ok hcreate
    exact .inr ⟨row, message, by simp only [Registrar.handle, hcreate], hrow⟩
  · exact .inl (by simp only [Registrar.handle, hcreate])

/-- A client is told of a user only if the row was added in this run. -/
theorem handle_ok (hok : (registrar.handle draw request users).1.err = none) :
    ∃ row message, (registrar.handle draw request users).1 =
        ⟨.message (registrar.response message), none⟩ ∧
      (registrar.handle draw request users).2 = users ++ [row] ∧
      Registers registrar request row message ∧ ∀ other ∈ users, other.email ≠ row.email := by
  obtain ⟨message, stored, hcreate⟩ | ⟨value, -, hcreate⟩ :=
    createUser_cases registrar draw (draw.insert ≠ .executed) request users
  · obtain ⟨hfails, row, rfl, hregisters, -, hfree⟩ := registers_of_ok hcreate
    have hexecuted : draw.insert = .executed := by simpa using hfails
    have hstored : registrar.createUser draw (draw.insert = .failed) request users =
        .ok (message, users ++ [row]) := by
      rw [← hcreate, hexecuted]
      rfl
    refine ⟨row, message, ?_, ?_, hregisters, hfree⟩
    · simp only [Registrar.handle, hcreate, Registrar.answer]
    · simp only [Registrar.handle, hstored]
  · simp only [Registrar.handle, hcreate, Registrar.answer] at hok
    cases hok

end Handle

/-- The endpoint of the method. -/
def Registrar.endpoint (registrar : Registrar P) :
    Endpoint P (List User) CreateUserRequest Draw where
  method := "/user.v1.UserService/CreateUser"
  requestHash := registrar.requestHash
  handle := registrar.handle
  failsProperly draw request users err herr := by
    obtain ⟨message, stored, hcreate⟩ | ⟨value, hcode, hcreate⟩ :=
      createUser_cases registrar draw (draw.insert ≠ .executed) request users
    · simp only [Registrar.handle, hcreate, Registrar.answer] at herr
      cases herr
    · simp only [Registrar.handle, hcreate, Registrar.answer, Option.some.injEq] at herr
      exact herr ▸ hcode

theorem outcome_endpoint (registrar : Registrar P)
    (run : Run (List User) CreateUserRequest Draw) : run.outcome registrar.endpoint =
      (registrar.handle run.choice run.request run.before).1 := rfl

theorem after_endpoint (registrar : Registrar P) (run : Run (List User) CreateUserRequest Draw) :
    run.after registrar.endpoint = (registrar.handle run.choice run.request run.before).2 := rfl

/-! ## Along a run -/

/-- The keys of the table. -/
structure Unique (users : List User) : Prop where
  ids : (users.map User.id).Nodup
  emails : (users.map User.email).Nodup

/-- Rows are added, and the keys stay keys. -/
structure Grows (users later : List User) : Prop where
  kept : users <+: later
  unique : Unique users → Unique later

theorem Grows.refl (users : List User) : Grows users users := ⟨List.prefix_rfl, id⟩

theorem Grows.trans {first second third : List User} (h : Grows first second)
    (h' : Grows second third) : Grows first third :=
  ⟨h.kept.trans h'.kept, h'.unique ∘ h.unique⟩

section Runs

variable {registrar : Registrar P}

theorem grows_run (run : Run (List User) CreateUserRequest Draw) :
    Grows run.before (run.after registrar.endpoint) := by
  obtain hsame | ⟨row, -, hadded, -, hid, hemail⟩ :=
    handle_users registrar run.choice run.request run.before
  · rw [after_endpoint, hsame]
    exact .refl _
  · rw [after_endpoint, hadded]
    exact ⟨List.prefix_append _ _, fun hunique =>
      ⟨Table.nodup_map_append hunique.ids hid, Table.nodup_map_append hunique.emails hemail⟩⟩

/-- A row that was not there at the beginning is that of a run. -/
theorem run_of_mem {initial state : List User}
    {runs : List (Run (List User) CreateUserRequest Draw)}
    (hchained : Chained registrar.endpoint initial runs state) {row : User} (hrow : row ∈ state) :
    row ∈ initial ∨ ∃ run ∈ runs, row.email = registrar.tables.normalise run.request.email ∧
      row.name = Go.trimSpaceText run.request.name := by
  induction runs generalizing state with
  | nil => exact .inl (hchained ▸ hrow)
  | cons last runs ih =>
      obtain ⟨rfl, hbefore⟩ := hchained
      have hearlier (hold : row ∈ last.before) := (ih hbefore hold).imp_right
        fun ⟨run, hrun, hrest⟩ => (⟨run, List.mem_cons_of_mem _ hrun, hrest⟩ :
          ∃ run ∈ last :: runs, row.email = registrar.tables.normalise run.request.email ∧
            row.name = Go.trimSpaceText run.request.name)
      obtain hsame | ⟨added, message, hadded, hregisters, -⟩ :=
        handle_users registrar last.choice last.request last.before
      · exact hearlier (hsame ▸ hrow)
      · rw [after_endpoint, hadded] at hrow
        obtain hold | hself := List.mem_append.mp hrow
        · exact hearlier hold
        · obtain rfl := List.mem_singleton.mp hself
          exact .inr ⟨last, List.mem_cons_self, hregisters.email, hregisters.name⟩

/-- Of two runs that register one address, there is only one. -/
theorem eq_of_registered {initial state : List User}
    {runs : List (Run (List User) CreateUserRequest Draw)}
    (hchained : Chained registrar.endpoint initial runs state)
    {first second : Run (List User) CreateUserRequest Draw} (hfirst : first ∈ runs)
    (hsecond : second ∈ runs) (hok : (first.outcome registrar.endpoint).err = none)
    (hok' : (second.outcome registrar.endpoint).err = none)
    (hemail : registrar.tables.normalise first.request.email =
      registrar.tables.normalise second.request.email) : first = second := by
  obtain ⟨row, _, -, hadded, hregisters, hfree⟩ := handle_ok hok
  obtain ⟨row', _, -, hadded', hregisters', hfree'⟩ := handle_ok hok'
  have hsame : row.email = row'.email :=
    hregisters.email.trans (hemail.trans hregisters'.email.symm)
  obtain heq | hbefore | hafter :=
    hchained.ordered Grows.refl (fun _ _ _ => Grows.trans) grows_run hfirst hsecond
  · exact heq
  · have hrow : row ∈ first.after registrar.endpoint := by
      rw [after_endpoint, hadded]
      exact List.mem_append_right _ (List.mem_singleton_self row)
    exact absurd hsame (hfree' row (hbefore.kept.subset hrow))
  · have hrow' : row' ∈ second.after registrar.endpoint := by
      rw [after_endpoint, hadded']
      exact List.mem_append_right _ (List.mem_singleton_self row')
    exact absurd hsame.symm (hfree row' (hafter.kept.subset hrow'))

end Runs

/-- In every run: no user is lost, every user that was not there is one that a client asked
for, and ids and addresses are given once.  A client that is answered without an error, also
from a record, is told of a user of the table, new since the beginning, with the address and
the name that it asked for.  Two such clients with one address are told the same. -/
theorem created_once (hP : P.Lawful) {registrar : Registrar P} {options : Options} {mode : Sweep}
    {w : Serving P (List User) CreateUserRequest Draw}
    (hreach : (serving registrar.endpoint options mode).Reachable w)
    (hdistinct : w.Distinct registrar.endpoint) (hunique : Unique w.initial) :
    w.initial <+: w.state ∧ Unique w.state ∧
      (∀ row ∈ w.state, row ∈ w.initial ∨ ∃ request, w.Made request ∧
        row.email = registrar.tables.normalise request.email ∧
        row.name = Go.trimSpaceText request.name) ∧
      (∀ request outcome, w.Answered request outcome → outcome.err = none →
        ∃ row message, row ∈ w.state ∧ (∀ old ∈ w.initial, old.email ≠ row.email) ∧
          Registers registrar request row message ∧
          outcome = ⟨.message (registrar.response message), none⟩) ∧
      ∀ first second outcome outcome', w.Answered first outcome → outcome.err = none →
        w.Answered second outcome' → outcome'.err = none →
        registrar.tables.normalise first.email = registrar.tables.normalise second.email →
        outcome = outcome' := by
  have h := Serves.of_reachable hreach
  obtain ⟨hgrows, hruns⟩ := h.chained.along Grows.refl (fun _ _ _ => Grows.trans) grows_run
  refine ⟨hgrows.kept, hgrows.unique hunique, fun row hrow => ?_, ?_, ?_⟩
  · refine (run_of_mem h.chained hrow).imp_right fun ⟨run, hrun, hrest⟩ => ?_
    exact ⟨run.request, h.made run hrun, hrest⟩
  · intro request outcome hanswered hok
    obtain ⟨run, hrun, rfl, rfl⟩ := h.run_of_answered hP hdistinct hanswered hok
    obtain ⟨row, message, houtcome, hadded, hregisters, hfree⟩ := handle_ok hok
    obtain ⟨hbefore, hafter⟩ := hruns run hrun
    refine ⟨row, message, hafter.kept.subset ?_, ?_, hregisters, houtcome⟩
    · rw [after_endpoint, hadded]
      exact List.mem_append_right _ (List.mem_singleton_self row)
    · exact fun old hold => hfree old (hbefore.kept.subset hold)
  · intro first second outcome outcome' hanswered hok hanswered' hok' hemail
    obtain ⟨run, hrun, rfl, rfl⟩ := h.run_of_answered hP hdistinct hanswered hok
    obtain ⟨run', hrun', rfl, rfl⟩ := h.run_of_answered hP hdistinct hanswered' hok'
    rw [eq_of_registered h.chained hrun hrun' hok hok' hemail]

/-- The runtime on one response, which has the user of `adaMessage`. -/
def oneResponse : Protobuf where
  Message := UserMessage
  fullName _ := "user.v1.CreateUserResponse"
  marshal message := if message = adaMessage 1000 then some [10] else none
  registered name := name = "user.v1.CreateUserResponse"
  unmarshal name payload :=
    if name = "user.v1.CreateUserResponse" ∧ payload = [10] then some (adaMessage 1000) else none
  marshalStatus _ := none
  unmarshalStatus _ := none
  marshalDetail _ := none
  unmarshalErrorInfo _ := none

theorem lawful_oneResponse : oneResponse.Lawful where
  unmarshal_marshal message payload hpayload := by
    obtain ⟨rfl, hbytes⟩ := Option.ite_none_right_eq_some.mp hpayload
    cases hbytes
    rfl
  registered_fullName _ := rfl
  unmarshalStatus_marshalStatus value payload hpayload := by cases hpayload
  marshalStatus_ne_nil value payload hpayload _ := by cases hpayload

def sampleRegistrar : Registrar oneResponse where
  response := id
  tables := CaseTables.sample
  requestHash _ := [9]

/-- A user is created, and the client asks twice more: under the same key, and without one. -/
def retriedRun : List (ServingLabel oneResponse CreateUserRequest Draw) :=
  [.begin 0 adaRequest (.ofNat 1) [7] (.ofNat 10) (.ofNat 11), .store (.cleanup 0 []),
    .store (.acquire 0), .handler 0 ⟨.ofNat 1, 1000, sampleHash, .executed⟩, .store (.finish 0),
    .store (.tick 1000000000), .begin 1 adaRequest (.ofNat 1) [7] (.ofNat 20) (.ofNat 21),
    .store (.cleanup 1 []), .store (.acquire 1), .store (.acquire 1),
    .plain adaRequest ⟨.ofNat 2, 2000, sampleHash, .executed⟩]

/-- Nobody asks for another user than that of `adaRequest`. -/
def AsksForAda (_ : Serving oneResponse (List User) CreateUserRequest Draw) :
    ServingLabel oneResponse CreateUserRequest Draw → Prop
  | .begin _ request _ _ _ _ => request = adaRequest
  | _ => True

theorem distinct_of_asksForAda {w : Serving oneResponse (List User) CreateUserRequest Draw}
    (hreach : (serving sampleRegistrar.endpoint defaultOptions .atomic).ReachableBy AsksForAda w) :
    w.Distinct sampleRegistrar.endpoint := by
  have hasked : ∀ i request, w.asked i = some request → request = adaRequest := by
    apply hreach.invariant (I := fun w => ∀ i request, w.asked i = some request →
      request = adaRequest)
    · intro w hinit i request hsome
      rw [hinit.2.2.1 i] at hsome
      cases hsome
    · intro w label w' _ ih hlabel hnext i request hsome
      cases label with
      | begin j asked actorID keyHash id ownerToken =>
          obtain ⟨store, -, rfl⟩ := Option.map_eq_some_iff.mp hnext
          by_cases hi : i = j
          · subst hi
            have hself : Function.update w.asked i (some asked) i = some request := hsome
            rw [Function.update_self, Option.some.injEq] at hself
            exact hself.symm.trans hlabel
          · exact ih i request ((Function.update_of_ne hi ..).symm.trans hsome)
      | handler j choice =>
          cases hasked : w.asked j with
          | none => simp [serving, hasked] at hnext
          | some asked =>
              simp only [serving, hasked] at hnext
              obtain ⟨store, -, rfl⟩ := Option.map_eq_some_iff.mp hnext
              exact ih i request hsome
      | plain asked choice =>
          cases hnext
          exact ih i request hsome
      | store label =>
          obtain ⟨-, hmap⟩ := Option.ite_none_right_eq_some.mp hnext
          obtain ⟨store, -, rfl⟩ := Option.map_eq_some_iff.mp hmap
          exact ih i request hsome
  intro i j first second hfirst hsecond _
  rw [hasked i first hfirst, hasked j second hsecond]

/-- What is read off the end: one user, two runs, and the second call was a replay without an
error. -/
def retriedEnds (w : Serving oneResponse (List User) CreateUserRequest Draw) : Bool :=
  w.state.length = 1 && w.runs.length = 2 && w.initial.isEmpty &&
    decide (w.asked 1 = some adaRequest) && w.store.log.head?.any fun event =>
      event.replay.any fun answer =>
        decide (answer.1 = 1) && (replayIdempotencyRecord oneResponse answer.2.2).err.isNone

theorem retriedRun_reach :
    ∃ w, (serving sampleRegistrar.endpoint defaultOptions .atomic).ReachableBy AsksForAda w ∧
      retriedEnds w = true := by
  have heval : ((serving sampleRegistrar.endpoint defaultOptions .atomic).run
      ⟨.start 0, [], [], fun _ => none, [], []⟩ retriedRun).any retriedEnds = true := by
    decide +kernel
  obtain ⟨w, hrun, hends⟩ := (Option.any_eq_true _ _).mp heval
  refine ⟨w, System.ReachableBy.run (.init ?_) ?_ hrun, hends⟩
  · exact ⟨init_start defaultOptions .atomic 0, rfl, fun _ => rfl, rfl, rfl⟩
  · simp [retriedRun, AsksForAda]

/-- The replay tells of the one user. -/
theorem created_once_retriedRun :
    ∃ (w : Serving oneResponse (List User) CreateUserRequest Draw) (outcome : Outcome oneResponse)
      (row : User) (message : UserMessage),
      (serving sampleRegistrar.endpoint defaultOptions .atomic).Reachable w ∧
        w.runs.length = 2 ∧ w.state = [row] ∧ w.Answered adaRequest outcome ∧
        outcome = ⟨.message message, none⟩ ∧ message.email = row.email := by
  obtain ⟨w, hreach, hends⟩ := retriedRun_reach
  simp only [retriedEnds, Bool.and_eq_true, decide_eq_true_eq, List.isEmpty_iff] at hends
  obtain ⟨⟨⟨⟨hstate, hruns⟩, hinitial⟩, hasked⟩, hlast⟩ := hends
  obtain ⟨event, hhead, hreplay⟩ := (Option.any_eq_true _ _).mp hlast
  obtain ⟨⟨i, p, record⟩, hevent, hanswer⟩ := (Option.any_eq_true _ _).mp hreplay
  obtain ⟨hi, hnone⟩ := Bool.and_eq_true_iff.mp hanswer
  obtain rfl : i = 1 := of_decide_eq_true hi
  rw [Event.replay_eq_some hevent] at hhead
  have hanswered : w.Answered adaRequest (replayIdempotencyRecord oneResponse record) :=
    .inr ⟨1, p, .refused record .replay, hasked, List.mem_of_mem_head? hhead, rfl⟩
  have hunique : Unique w.initial := by
    rw [hinitial]
    exact ⟨List.nodup_nil, List.nodup_nil⟩
  obtain ⟨-, -, -, htold, -⟩ := created_once lawful_oneResponse hreach.reachable
    (distinct_of_asksForAda hreach) hunique
  obtain ⟨row, message, hrow, -, hregisters, houtcome⟩ :=
    htold adaRequest _ hanswered (Option.isNone_iff_eq_none.mp hnone)
  obtain ⟨only, hstate⟩ := List.length_eq_one_iff.mp hstate
  obtain rfl : row = only := List.mem_singleton.mp (hstate ▸ hrow)
  exact ⟨w, _, row, message, hreach.reachable, hruns, hstate, hanswered, houtcome,
    hregisters.told.2.2.1⟩

end GoFoundation.Users
