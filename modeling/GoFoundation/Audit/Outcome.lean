/-
# The outcome in the trail

`AuditUnary` reads the code and the reason from the error of the handler, and
`ErrorDetailsUnary` makes of this error, further out, the one that the client
receives.  `Ensure` hides what a plain error says and gives an error without an
`ErrorInfo` one of its own, so the two agree only on errors that already say what
the client will see.

Codes are compared by name, as the trail has them.
-/

import GoFoundation.Server.Tracing

namespace GoFoundation.Audit

open Grpc

variable {P : Protobuf}

/-! ## What an error says -/

/-- The reason of the first `ErrorInfo`, or none. -/
def firstReason (P : Protobuf) (details : List AnyMessage) : Option String :=
  (details.findSome? P.errorInfoOf).map ErrorInfo.reason

/-- What the receiver of an error learns from it: the name of the code, and the
reason, which is empty on success and where there is no `ErrorInfo`. -/
def received (P : Protobuf) : Option GoError → String × String
  | none => (Code.ok.name, "")
  | some err => ((convert err).code.name, (firstReason P (convert err).details).getD "")

theorem firstReason_eq_none_iff {details : List AnyMessage} :
    firstReason P details = none ↔ ∀ detail ∈ details, P.errorInfoOf detail = none := by
  rw [firstReason, Option.map_eq_none_iff, List.findSome?_eq_none_iff]

/-- An error is read through the status that its chain carries. -/
theorem received_of_findStatus {err : GoError} {value : Status}
    (hfind : err.findStatus = some value) :
    received P (some err) = (value.code.name, (firstReason P value.details).getD "") := by
  obtain ⟨message, hstatus⟩ := Apierror.fromError_of_findStatus hfind
  rw [received, convert, hstatus]

/-- Any other error is read as `Unknown`, without a reason. -/
theorem received_of_plain {err : GoError} (hplain : err.findStatus = none) :
    received P (some err) = ("Unknown", "") := by
  rw [received, convert, Apierror.fromError_of_plain hplain]
  rfl

/-- There is an event for every call of a mutation method, and it has what was received
from the handler. -/
theorem exists_auditEvent (generated : Generated P) (ctx : Server.Context) {method : String}
    (hmethod : method ∈ mutationMethods) (req : Server.Body P) (outcome : Idempotency.Outcome P)
    (id : Postgres.UUID) (occurredAt : Int) :
    ∃ event, auditEvent generated ctx method req outcome id occurredAt = some event ∧
      (event.grpcCode, event.errorReason) = received P outcome.err := by
  have hsome : (mutationEvent generated method req outcome.response).isSome = true :=
    mutationEvent_isSome_iff.mpr hmethod
  obtain ⟨mutation, hmutation⟩ := Option.isSome_iff_exists.mp hsome
  rw [auditEvent, hmutation]
  refine ⟨_, rfl, ?_⟩
  cases outcome.err <;> rfl

/-! ## What `Ensure` leaves of it -/

/-- A detail keeps its reason. -/
theorem reason_of_kept {detail kept : AnyMessage} (hkept : Apierror.Kept P detail kept) :
    (P.errorInfoOf kept).map ErrorInfo.reason = (P.errorInfoOf detail).map ErrorInfo.reason := by
  cases hinfo : P.errorInfoOf detail with
  | none => rw [hkept.1 hinfo, hinfo]
  | some info =>
      obtain ⟨info', hinfo', hreason, -, -⟩ := hkept.2 info hinfo
      rw [hinfo', Option.map_some, Option.map_some, hreason]

theorem firstReason_of_kept {details kept : List AnyMessage}
    (hkept : List.Forall₂ (Apierror.Kept P) details kept) :
    firstReason P kept = firstReason P details := by
  induction hkept with
  | nil => rfl
  | @cons detail kept details rest hhead _ ih =>
      have hreason := reason_of_kept hhead
      unfold firstReason at ih ⊢
      rw [List.findSome?_cons, List.findSome?_cons]
      cases hinfo : P.errorInfoOf detail with
      | none =>
          rw [hinfo, Option.map_none, Option.map_eq_none_iff] at hreason
          rw [hreason]
          exact ih
      | some info =>
          rw [hinfo, Option.map_some, Option.map_eq_some_iff] at hreason
          obtain ⟨info', hinfo', hsame⟩ := hreason
          rw [hinfo']
          exact congrArg some hsame

/-- `Ensure` keeps the first reason, and adds one where there was none unless the
request id cannot be written. -/
theorem firstReason_ensureDetails (hP : P.LawfulErrorInfo) (requestID : GoString) (code : Code)
    (details : List AnyMessage) :
    firstReason P (Apierror.ensureDetails P requestID code details) =
      if firstReason P details = none ∧ Go.validUtf8 requestID = true then
        some (Apierror.defaultReason code)
      else firstReason P details := by
  split
  · next h =>
      have hnone := firstReason_eq_none_iff.mp h.1
      obtain ⟨added, hadded, heq⟩ := Apierror.ensureDetails_of_none code hP h.2 hnone
      obtain ⟨info, hinfo, hsame⟩ := errorInfoOf_anyOf hP
        (Apierror.withRequestID_distinct Apierror.default_distinct) hadded
      rw [heq, firstReason, List.findSome?_append, List.findSome?_eq_none_iff.mpr hnone,
        Option.none_or, List.findSome?_singleton, hinfo, Option.map_some, hsame.reason,
        Apierror.withRequestID_reason]
  · next h =>
      cases hid : Go.validUtf8 requestID with
      | false => rw [Apierror.ensureDetails_of_invalid hP hid]
      | true =>
          obtain ⟨kept, added, heq, hkept, -, hadded⟩ :=
            Apierror.ensureDetails_spec hP requestID code details
          have hnil : added = [] := by
            by_contra hne
            exact h ⟨firstReason_eq_none_iff.mpr (hadded hne).2, hid⟩
          rw [heq, hnil, List.append_nil]
          exact firstReason_of_kept hkept

theorem defaultReason_ne_empty (code : Code) : Apierror.defaultReason code ≠ "" := by
  cases code <;> simp [Apierror.defaultReason]

/-- What the client reads: nothing where the status was `OK`, else the code and the
reason of the status that `Ensure` started from. -/
theorem received_ensure (hP : P.LawfulErrorInfo) (err : GoError) (requestID : GoString) :
    received P (Apierror.ensure P (some err) requestID) =
      let base := Apierror.ensureBase err
      if base.code = .ok then ("OK", "")
      else (base.code.name, (if firstReason P base.details = none ∧ Go.validUtf8 requestID = true
        then some (Apierror.defaultReason base.code) else firstReason P base.details).getD "") := by
  rw [Apierror.ensure_some]
  dsimp only
  split
  · next hcode =>
      rw [errorProto, if_pos hcode]
      rfl
  · next hcode =>
      rw [errorProto, if_neg hcode, received_of_findStatus rfl,
        firstReason_ensureDetails hP]

/-- The error says what the client will see.  Its chain carries a status, which has
an `ErrorInfo` unless the request id cannot be written; a status that is `OK` gives no
reason. -/
def Faithful (P : Protobuf) (requestID : GoString) (err : GoError) : Prop :=
  ∃ value, err.findStatus = some value ∧
    if value.code = .ok then ∀ reason, firstReason P value.details = some reason → reason = ""
    else (∃ detail ∈ value.details, ∃ info, P.errorInfoOf detail = some info) ∨
      Go.validUtf8 requestID = false

/-- Under the same code, only a reason of `Ensure`'s own makes a difference. -/
theorem firstReason_eq_added_iff {details : List AnyMessage} {requestID : GoString}
    {reason : String} (hreason : reason ≠ "") :
    (firstReason P details).getD "" =
        (if firstReason P details = none ∧ Go.validUtf8 requestID = true then some reason
          else firstReason P details).getD "" ↔
      (∃ detail ∈ details, ∃ info, P.errorInfoOf detail = some info) ∨
        Go.validUtf8 requestID = false := by
  have hexists : (∃ detail ∈ details, ∃ info, P.errorInfoOf detail = some info) ↔
      firstReason P details ≠ none := by
    rw [ne_eq, firstReason_eq_none_iff]
    simp [Option.ne_none_iff_exists']
  rw [hexists]
  split
  · next h =>
      rw [h.1, h.2]
      simp [hreason.symm]
  · next h =>
      apply iff_of_true rfl
      by_cases hnone : firstReason P details = none
      · exact Or.inr (Bool.eq_false_of_not_eq_true fun hid => h ⟨hnone, hid⟩)
      · exact Or.inl hnone

/-- Exactly then the client reads what was read from the error. -/
theorem received_eq_iff_faithful (hP : P.LawfulErrorInfo) (err : GoError)
    (requestID : GoString) :
    received P (some err) = received P (Apierror.ensure P (some err) requestID) ↔
      Faithful P requestID err := by
  rw [received_ensure hP]
  dsimp only
  cases hfind : err.findStatus with
  | none =>
      -- The client never sees `Unknown` for such an error.
      apply iff_of_false
      · rw [received_of_plain hfind, if_neg (Apierror.ensureBase_code_ne_ok hfind), Prod.mk.injEq,
          Apierror.ensureBase_of_plain hfind]
        cases err.isDeadlineExceeded <;> cases err.isCanceled <;> simp [Code.name]
      · intro h
        obtain ⟨value, hvalue, -⟩ := h
        rw [hfind] at hvalue
        cases hvalue
  | some value =>
      obtain ⟨message, hstatus⟩ := Apierror.fromError_of_findStatus hfind
      simp only [Faithful, hfind, Option.some.injEq, exists_eq_left', received_of_findStatus hfind,
        Apierror.ensureBase_of_status (congrArg Prod.snd hstatus), hstatus]
      by_cases hcode : value.code = .ok
      · rw [if_pos hcode, if_pos hcode, hcode, Prod.mk.injEq]
        cases firstReason P value.details <;> simp [Code.name]
      · rw [if_neg hcode, if_neg hcode, Prod.mk.injEq]
        simp only [true_and]
        exact firstReason_eq_added_iff (defaultReason_ne_empty value.code)

/-- The errors that the server builds itself are of this kind. -/
theorem faithful_new (hP : P.LawfulErrorInfo) (requestID : GoString) {code : Code}
    (hcode : code ≠ .ok) {reason message : String} {details : List Detail} {err : GoError}
    (hnew : Apierror.new P code reason message details = some err) :
    Faithful P requestID err := by
  obtain ⟨info, hinfo⟩ := (anyOf_eq_some_iff hP
    (show ErrorInfo.Distinct ⟨reason, Apierror.domain, []⟩ from List.nodup_nil)).mpr
      (fun _ hentry => absurd hentry List.not_mem_nil)
  obtain ⟨read, hread, -⟩ := errorInfoOf_anyOf hP
    (show ErrorInfo.Distinct ⟨reason, Apierror.domain, []⟩ from List.nodup_nil) hinfo
  rw [Apierror.new, errorProto, if_neg hcode] at hnew
  obtain rfl := Option.some.inj hnew
  refine ⟨_, rfl, ?_⟩
  rw [if_neg hcode]
  exact Or.inl ⟨info, List.mem_filterMap.mpr ⟨_, List.mem_cons_self, hinfo⟩, read, hread⟩

end GoFoundation.Audit

namespace GoFoundation.Server

open Postgres Grpc Idempotency

variable {P : Protobuf}

/-! ## The chain -/

/-- The state in which `IdempotencyUnary` calls the rest of the chain, if it does. -/
def admitted (config : Config P) (env : Env) (method : String) (ctx : Context) (req : Body P)
    (s : State) : Option State :=
  match idempotentCall config method ctx req with
  | .error none => some s
  | .error (some _) => none
  | .ok (identity, keyHash, requestHash) =>
      match reserve config env method s.idempotency identity keyHash requestHash with
      | (rows, .ok (_, .acquired)) => some { s with idempotency := rows }
      | _ => none

section

variable (config : Config P) (env : Env) (method : String) (next : Handler P) (ctx : Context)
  (req : Body P)

/-- A call that is let in is answered by the rest of the chain, which finds everything
but the keys as it was.  One that is turned away is not handled and leaves the trail as
it is. -/
theorem idempotencyUnary_cases (s : State) :
    (∃ s', admitted config env method ctx req s = some s' ∧
      s' = { s with idempotency := s'.idempotency } ∧
      (idempotencyUnary config env method next ctx req s).1 = (next ctx req s').1 ∧
      (idempotencyUnary config env method next ctx req s).2.audit = (next ctx req s').2.audit) ∨
    (admitted config env method ctx req s = none ∧
      (idempotencyUnary config env method next ctx req s).2.audit = s.audit ∧
      (idempotencyUnary config env method next ctx req s).2.invocations = s.invocations) := by
  cases hcall : idempotentCall config method ctx req with
  | error refused =>
      cases refused with
      | none => exact .inl ⟨s, by simp [admitted, hcall], rfl, by simp [idempotencyUnary, hcall]⟩
      | some outcome =>
          exact .inr ⟨by simp [admitted, hcall], by simp [idempotencyUnary, hcall]⟩
  | ok call =>
      obtain ⟨identity, keyHash, requestHash⟩ := call
      cases hreserve : reserve config env method s.idempotency identity keyHash requestHash with
      | mk rows result =>
          cases result with
          | error err =>
              exact .inr ⟨by simp [admitted, hcall, hreserve],
                by simp [idempotencyUnary, hcall, hreserve]⟩
          | ok found =>
              obtain ⟨record, disposition⟩ := found
              cases disposition with
              | acquired =>
                  exact .inl ⟨{ s with idempotency := rows }, by simp [admitted, hcall, hreserve],
                    rfl, by simp [idempotencyUnary, hcall, hreserve]⟩
              | replay | conflict | inProgress =>
                  exact .inr ⟨by simp [admitted, hcall, hreserve],
                    by simp [idempotencyUnary, hcall, hreserve]⟩

theorem idempotencyUnary_of_admitted {s s' : State}
    (hadmitted : admitted config env method ctx req s = some s') :
    s' = { s with idempotency := s'.idempotency } ∧
      (idempotencyUnary config env method next ctx req s).1 = (next ctx req s').1 ∧
      (idempotencyUnary config env method next ctx req s).2.audit = (next ctx req s').2.audit := by
  obtain ⟨passed, hpassed, hrest⟩ | ⟨hnone, -⟩ :=
    idempotencyUnary_cases config env method next ctx req s
  · obtain rfl : passed = s' := Option.some.inj (hpassed.symm.trans hadmitted)
    exact hrest
  · rw [hnone] at hadmitted
    cases hadmitted

theorem idempotencyUnary_of_not_admitted {s : State}
    (hadmitted : admitted config env method ctx req s = none) :
    (idempotencyUnary config env method next ctx req s).2.audit = s.audit ∧
      (idempotencyUnary config env method next ctx req s).2.invocations = s.invocations := by
  obtain ⟨passed, hpassed, -⟩ | ⟨-, hkept⟩ :=
    idempotencyUnary_cases config env method next ctx req s
  · rw [hpassed] at hadmitted
    cases hadmitted
  · exact hkept

/-- `AuditUnary` answers what it was answered, and records the event. -/
theorem auditUnary_eq (s : State) {event : Audit.Event}
    (hevent : Audit.auditEvent config.generated ctx method req (next ctx req s).1 env.eventID
      env.occurredAt = some event) :
    (auditUnary config env method next ctx req s).1 = (next ctx req s).1 ∧
      (auditUnary config env method next ctx req s).2.audit =
        if env.recordFails then (next ctx req s).2.audit
        else (Audit.record (next ctx req s).2.audit event).getD (next ctx req s).2.audit := by
  unfold auditUnary
  dsimp only
  rw [hevent]
  dsimp only
  split <;> exact ⟨rfl, rfl⟩

end

/-- A mutation that is let in is answered as `RecoveryUnary` answers, and its event is
recorded. -/
theorem execution_of_admitted (config : Config P) (env : Env) {method : String}
    (hmethod : method ∈ Audit.mutationMethods)
    (handler : Context → Body P → Directory → Result P × Directory) (ctx : Context)
    (req : Body P) {s s' : State} (hadmitted : admitted config env method ctx req s = some s') :
    s'.directory = s.directory ∧
    (execution config env method handler ctx req s).1 = (recoveryUnary handler ctx req s').1 ∧
    ∃ event, Audit.auditEvent config.generated ctx method req (recoveryUnary handler ctx req s').1
        env.eventID env.occurredAt = some event ∧
      (event.grpcCode, event.errorReason) =
        Audit.received P (recoveryUnary handler ctx req s').1.err ∧
      (execution config env method handler ctx req s).2.audit =
        if env.recordFails then s.audit else (Audit.record s.audit event).getD s.audit := by
  obtain ⟨hstate, hanswer, haudit⟩ := idempotencyUnary_of_admitted config env method
    (auditUnary config env method (recoveryUnary handler)) ctx req hadmitted
  obtain ⟨event, hevent, hreceived⟩ := Audit.exists_auditEvent config.generated ctx hmethod req
    (recoveryUnary handler ctx req s').1 env.eventID env.occurredAt
  obtain ⟨hpassed, hrecorded⟩ :=
    auditUnary_eq config env method (recoveryUnary handler) ctx req s' hevent
  have htrail : (recoveryUnary handler ctx req s').2.audit = s.audit := by
    rw [recoveryUnary_state, hstate]
  rw [htrail] at hrecorded
  exact ⟨by rw [hstate], hanswer.trans hpassed, event, hevent, hreceived, haudit.trans hrecorded⟩

/-- The handler ends in a way that tells what the client will see. -/
def Result.Faithful (requestID : GoString) : Result P → Prop
  | .returned outcome => ∀ err, outcome.err = some err → Audit.Faithful P requestID err
  | .panicked => True

/-- What `RecoveryUnary` returns for the handler reads the same before `Ensure` and after it
exactly if the handler ended so. -/
theorem received_recoveryUnary_iff (hP : P.LawfulErrorInfo)
    (handler : Context → Body P → Directory → Result P × Directory) (ctx : Context)
    (req : Body P) (s : State) (requestID : GoString) :
    Audit.received P (recoveryUnary handler ctx req s).1.err =
        Audit.received P
          (Apierror.ensure P (recoveryUnary handler ctx req s).1.err requestID) ↔
      (handler ctx req s.directory).1.Faithful requestID := by
  unfold recoveryUnary
  dsimp only
  cases (handler ctx req s.directory).1 with
  | panicked =>
      obtain ⟨value, -, -, hnew⟩ := Apierror.new_eq_some P (show Code.internal ≠ .ok by decide)
        "PANIC_RECOVERED" "internal server error" []
      dsimp only
      rw [hnew]
      apply iff_of_true _ trivial
      exact (Audit.received_eq_iff_faithful hP _ requestID).mpr
        (Audit.faithful_new hP requestID (by decide) hnew)
  | returned outcome =>
      dsimp only [Result.Faithful]
      cases outcome.err with
      | none => simp [Apierror.ensure]
      | some err => simp [Audit.received_eq_iff_faithful hP]

/-- A mutation that `IdempotencyUnary` lets in puts one event before the store.  The event
has the code and the reason that the client receives exactly if the handler panicked,
succeeded, or failed with an error that says what the client will see. -/
theorem trail_tells_client_outcome_iff (hP : P.LawfulErrorInfo) (config : Config P) (env : Env)
    {method : String} (hmethod : method ∈ Audit.mutationMethods)
    (handler : Context → Body P → Directory → Result P × Directory) (ctx : Context)
    (req : Body P) (s : State) {outcome : Outcome P} {after : State}
    (hrun : errorDetailsUnary (execution config env method handler) ctx req s =
      (outcome, after)) :
    (∀ s', admitted config env method ctx req s = some s' → ∃ event,
      Audit.auditEvent config.generated ctx method req (recoveryUnary handler ctx req s').1
        env.eventID env.occurredAt = some event ∧
      after.audit =
        (if env.recordFails then s.audit else (Audit.record s.audit event).getD s.audit) ∧
      ((event.grpcCode, event.errorReason) = Audit.received P outcome.err ↔
        (handler ctx req s.directory).1.Faithful ctx.requestID)) ∧
    (admitted config env method ctx req s = none →
      after.audit = s.audit ∧ after.invocations = s.invocations) := by
  have herr : outcome.err =
      Apierror.ensure P (execution config env method handler ctx req s).1.err ctx.requestID :=
    (congrArg (fun run => run.1.err) hrun).symm
  have hafter : after = (execution config env method handler ctx req s).2 :=
    (congrArg Prod.snd hrun).symm
  apply And.intro
  · intro s' hadmitted
    obtain ⟨hdirectory, hanswer, event, hevent, hreceived, hrecorded⟩ :=
      execution_of_admitted config env hmethod handler ctx req hadmitted
    refine ⟨event, hevent, ?_, ?_⟩
    · rw [hafter]
      exact hrecorded
    · rw [hreceived, herr, hanswer, ← hdirectory]
      exact received_recoveryUnary_iff hP handler ctx req s' ctx.requestID
  · intro hadmitted
    rw [hafter]
    exact idempotencyUnary_of_not_admitted config env method _ ctx req hadmitted

/-! ## A role that cannot be assigned -/

/-- The sample server, with a runtime that writes details. -/
def wireConfig : Config Protobuf.wire where
  verifiers := sampleConfig.verifiers
  validate _ := .valid
  generated := ⟨fun _ => none, fun _ => none,
    fun _ => some ((UUID.ofNat 1).text, (UUID.ofNat 5).text), fun _ => none, fun _ => none,
    fun _ => none⟩
  options := defaultOptions
  sha256 := id

/-- The context of a call behind the gates. -/
def assigningContext : Context :=
  { tracedContext (Go.encodeUtf8 "req-1") with
    requestID := Go.encodeUtf8 "req-1"
    identity := some ⟨(UUID.ofNat 1).text, "Ada", "ada@example.org", "local", ""⟩ }

/-- A handler that fails. -/
def failing (err : Option GoError) : Context → Body Protobuf.wire → Directory →
    Result Protobuf.wire × Directory := fun _ _ directory => (.returned ⟨.other, err⟩, directory)

/-- What the client receives when the handler of `AssignRole` fails. -/
def answerTo (err : Option GoError) : Option GoError :=
  (errorDetailsUnary (execution wireConfig (sampleEnv 100 0) "/rbac.v1.RBACService/AssignRole"
    (failing err)) assigningContext (.message ()) sampleState).1.err

/-- The event that is recorded then. -/
def eventOf (err : Option GoError) : Option Audit.Event :=
  Audit.auditEvent wireConfig.generated assigningContext "/rbac.v1.RBACService/AssignRole"
    (.message ()) (recoveryUnary (failing err) assigningContext (.message ()) sampleState).1
    (sampleEnv 100 0).eventID (sampleEnv 100 0).occurredAt

theorem admitted_assigningContext :
    admitted wireConfig (sampleEnv 100 0) "/rbac.v1.RBACService/AssignRole" assigningContext
      (.message ()) sampleState = some sampleState := by
  have hcall : idempotentCall wireConfig "/rbac.v1.RBACService/AssignRole" assigningContext
      (.message ()) = .error none := rfl
  rw [admitted, hcall]

/-- The user does not exist, and the handler says so. -/
theorem trail_tells_user_not_found :
    ∃ event, eventOf (Apierror.new .wire .notFound "USER_NOT_FOUND" "user not found" []) =
        some event ∧
      (event.grpcCode, event.errorReason) =
        Audit.received .wire
          (answerTo (Apierror.new .wire .notFound "USER_NOT_FOUND" "user not found" [])) := by
  obtain ⟨event, hevent, -, hiff⟩ := (trail_tells_client_outcome_iff Protobuf.lawfulErrorInfo_wire
    wireConfig (sampleEnv 100 0) (by decide)
    (failing (Apierror.new .wire .notFound "USER_NOT_FOUND" "user not found" []))
    assigningContext (.message ()) sampleState rfl).1 sampleState admitted_assigningContext
  refine ⟨event, hevent, hiff.mpr ?_⟩
  intro err herr
  exact Audit.faithful_new Protobuf.lawfulErrorInfo_wire assigningContext.requestID
    (show Code.notFound ≠ .ok by decide) herr

/-- The disk is full.  The trail says `Unknown`, and the client reads `Internal`. -/
theorem trail_differs_disk_full :
    ¬ ∀ (err : Option GoError) (event : Audit.Event), eventOf err = some event →
      (event.grpcCode, event.errorReason) = Audit.received .wire (answerTo err) := by
  intro h
  obtain ⟨event, hevent, hreceived⟩ := Audit.exists_auditEvent wireConfig.generated
    assigningContext (show "/rbac.v1.RBACService/AssignRole" ∈ Audit.mutationMethods by decide)
    (.message ()) ⟨.other, some (.plain "disk full")⟩ (sampleEnv 100 0).eventID
    (sampleEnv 100 0).occurredAt
  have hsame := h (some (.plain "disk full")) event hevent
  rw [hreceived] at hsame
  obtain ⟨value, hvalue, -⟩ := (Audit.received_eq_iff_faithful Protobuf.lawfulErrorInfo_wire
    (.plain "disk full") assigningContext.requestID).mp hsame
  cases hvalue

end GoFoundation.Server
