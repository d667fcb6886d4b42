/-
# Errors that can be traced

The request id goes into the context and into the details of every error.  It comes
from the client as it is, and a detail holds only UTF-8: for any other request id
`Ensure` passes over every detail, and the error leaves the server without one.
-/

import GoFoundation.Apierror.Ensure
import GoFoundation.Server.Mediation

namespace GoFoundation.Apierror

open Grpc

variable {P : Protobuf}

/-- One of the details names the request. -/
def NamedBy (P : Protobuf) (details : List AnyMessage) (requestID : GoString) : Prop :=
  ∃ detail ∈ details, ∃ info, P.errorInfoOf detail = some info ∧
    ("request_id", requestID) ∈ info.metadata

/-- The error has a detail that names the request. -/
def Carries (P : Protobuf) (err : Option GoError) (requestID : GoString) : Prop :=
  ∃ value, err = some (.status value) ∧ NamedBy P value.details requestID

theorem mem_withRequestID {requestID : GoString} (hid : requestID ≠ []) (info : ErrorInfo) :
    ("request_id", requestID) ∈ (withRequestID requestID info).metadata := by
  rw [withRequestID_metadata hid]
  exact List.mem_cons_self

/-- What was written with the request id is read with it. -/
theorem mem_metadata_of_anyOf (hP : P.LawfulErrorInfo) {requestID : GoString}
    (hid : requestID ≠ []) {info : ErrorInfo} (hdistinct : info.Distinct) {detail : AnyMessage}
    (hdetail : P.anyOf (.errorInfo (withRequestID requestID info)) = some detail) :
    ∃ read, P.errorInfoOf detail = some read ∧ ("request_id", requestID) ∈ read.metadata := by
  obtain ⟨read, hread, hsame⟩ := errorInfoOf_anyOf hP (withRequestID_distinct hdistinct) hdetail
  exact ⟨read, hread, hsame.metadata.mem_iff.mpr (mem_withRequestID hid info)⟩

/-- The details name the request after `Ensure` exactly if its id is UTF-8. -/
theorem namedBy_ensureDetails_iff (hP : P.LawfulErrorInfo) {requestID : GoString}
    (hid : requestID ≠ []) {code : Code} {details : List AnyMessage} :
    NamedBy P (ensureDetails P requestID code details) requestID ↔
      Go.validUtf8 requestID = true := by
  apply Iff.intro
  · intro h
    obtain ⟨detail, -, info, hinfo, hmem⟩ := h
    exact (errorInfoOf_spec hP hinfo).2 _ hmem
  · intro hvalid
    rcases forall_none_or_exists_some P details with hnone | ⟨detail, hdetail, info, hinfo⟩
    · obtain ⟨added, hadded, heq⟩ := ensureDetails_of_none code hP hvalid hnone
      rw [heq]
      exact ⟨added, List.mem_append_right _ (List.mem_singleton_self added),
        mem_metadata_of_anyOf hP hid default_distinct hadded⟩
    · obtain ⟨encoded, hencoded, heq⟩ := ensureDetail_of_valid hP hvalid hinfo
      rw [ensureDetails_of_some hP hvalid hdetail hinfo]
      exact ⟨encoded, List.mem_map.mpr ⟨detail, hdetail, congrArg Prod.fst heq⟩,
        mem_metadata_of_anyOf hP hid (errorInfoOf_spec hP hinfo).1 hencoded⟩

/-- `Ensure` starts from a status that is `OK` only for an error that says so itself. -/
theorem ensureBase_code_eq_ok_iff (err : GoError) :
    (ensureBase err).code = .ok ↔ codeOf (some err) = .ok := by
  cases hfind : err.findStatus with
  | some value =>
      obtain ⟨message, hstatus⟩ := fromError_of_findStatus hfind
      rw [ensureBase_of_status (congrArg Prod.snd hstatus)]
      rfl
  | none =>
      have hunknown : codeOf (some err) = .unknown :=
        congrArg (fun result => result.1.code) (fromError_of_plain hfind)
      rw [hunknown]
      exact ⟨fun h => absurd h (ensureBase_code_ne_ok hfind), fun h => by cases h⟩

theorem carries_ensure_iff (hP : P.LawfulErrorInfo) (err : GoError) {requestID : GoString}
    (hid : requestID ≠ []) :
    Carries P (ensure P (some err) requestID) requestID ↔
      codeOf (some err) ≠ .ok ∧ Go.validUtf8 requestID = true := by
  rw [ne_eq, ← ensureBase_code_eq_ok_iff, ensure_some]
  by_cases hcode : (ensureBase err).code = .ok
  · rw [errorProto, if_pos hcode]
    apply iff_of_false
    · intro h
      obtain ⟨value, hvalue, -⟩ := h
      cases hvalue
    · exact fun h => h.1 hcode
  · rw [errorProto, if_neg hcode, ← namedBy_ensureDetails_iff hP hid]
    apply Iff.intro
    · intro h
      obtain ⟨value, hvalue, hnamed⟩ := h
      cases hvalue
      exact ⟨hcode, hnamed⟩
    · intro h
      exact ⟨_, rfl, h.2⟩

end GoFoundation.Apierror

namespace GoFoundation.Server

open Postgres Grpc Idempotency

variable {P : Protobuf}

/-- A new UUID is never empty, and it is ASCII. -/
theorem encodeUtf8_text (id : UUID) :
    Go.encodeUtf8 id.text ≠ [] ∧ Go.validUtf8 (Go.encodeUtf8 id.text) = true := by
  have hdecode := Go.decodeUtf8_encodeUtf8 id.text_ascii
  apply And.intro
  · intro hnil
    rw [hnil] at hdecode
    exact id.text_ne_empty (Option.some.inj hdecode).symm
  · rw [Go.validUtf8, hdecode]
    rfl

theorem requestIDOf_ne_nil (ctx : Context) (id : UUID) :
    requestIDOf ctx (Go.encodeUtf8 id.text) ≠ [] := by
  simp only [requestIDOf]
  split
  · exact (encodeUtf8_text id).1
  · assumption

/-- The request id is UTF-8 exactly if what the client sent is. -/
theorem validUtf8_requestIDOf (ctx : Context) (id : UUID) :
    Go.validUtf8 (requestIDOf ctx (Go.encodeUtf8 id.text)) =
      Go.validUtf8 ((ctx.first "x-request-id").getD []) := by
  simp only [requestIDOf]
  split
  · next hnil =>
      rw [hnil, (encodeUtf8_text id).2]
      decide
  · rfl

/-- An error of the chain below leaves the server with the request id that this chain
saw in its context, exactly if it is no `OK` and the id that the client sent, if any,
is UTF-8. -/
theorem error_carries_request_id_iff (hP : P.LawfulErrorInfo) (env : Env) (next : Handler P)
    (ctx : Context) (req : Body P) (s : State) {requestID : GoString}
    (hid : requestID = requestIDOf ctx (Go.encodeUtf8 env.requestID.text)) {err : GoError}
    (herr : (next { ctx with requestID := requestID } req s).1.err = some err) :
    Apierror.Carries P (requestIDUnary env (errorDetailsUnary next) ctx req s).1.err requestID ↔
      codeOf (some err) ≠ .ok ∧ Go.validUtf8 ((ctx.first "x-request-id").getD []) = true := by
  have hensure : (requestIDUnary env (errorDetailsUnary next) ctx req s).1.err =
      Apierror.ensure P (some err) requestID := by
    rw [← herr, hid]
    rfl
  have hne : requestID ≠ [] := by
    rw [hid]
    exact requestIDOf_ne_nil ctx env.requestID
  rw [hensure, Apierror.carries_ensure_iff hP err hne, hid, validUtf8_requestIDOf]

/-- A handler that fails with an error of its own. -/
def failingHandler : Handler Protobuf.wire := fun _ _ s => (⟨.other, some (.plain "disk full")⟩, s)

/-- A call that came with a request id. -/
def tracedContext (id : GoString) : Context where
  metadata := some [("x-request-id", id)]
  peer := none
  requestID := []
  identity := none

/-- The request id `req-1`. -/
theorem error_carries_req_1 :
    Apierror.Carries .wire (requestIDUnary (sampleEnv 100 0) (errorDetailsUnary failingHandler)
        (tracedContext (Go.encodeUtf8 "req-1")) .other sampleState).1.err
      (Go.encodeUtf8 "req-1") := by
  have hiff := error_carries_request_id_iff Protobuf.lawfulErrorInfo_wire (sampleEnv 100 0)
    failingHandler (tracedContext (Go.encodeUtf8 "req-1")) .other sampleState
    (show Go.encodeUtf8 "req-1" = _ by decide +kernel) rfl
  exact hiff.mpr ⟨by decide, by decide +kernel⟩

/-- A request id of one byte that begins no character. -/
theorem error_loses_stray_byte :
    ¬ ∀ (next : Handler Protobuf.wire) (ctx : Context) (req : Body Protobuf.wire) (err : GoError),
      (next { ctx with
        requestID := requestIDOf ctx (Go.encodeUtf8 (sampleEnv 100 0).requestID.text) }
          req sampleState).1.err = some err →
      Apierror.Carries .wire
        (requestIDUnary (sampleEnv 100 0) (errorDetailsUnary next) ctx req sampleState).1.err
        (requestIDOf ctx (Go.encodeUtf8 (sampleEnv 100 0).requestID.text)) := by
  intro h
  have hcarries := h failingHandler (tracedContext [0xFF]) .other (.plain "disk full") rfl
  have hvalid := ((Apierror.carries_ensure_iff Protobuf.lawfulErrorInfo_wire (.plain "disk full")
    (requestIDOf_ne_nil (tracedContext [0xFF]) (sampleEnv 100 0).requestID)).mp hcarries).2
  rw [validUtf8_requestIDOf] at hvalid
  exact absurd hvalid (by decide +kernel)

end GoFoundation.Server
