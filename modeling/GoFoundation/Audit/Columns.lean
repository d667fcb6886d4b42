/-
# What the columns take of an execution

The event for an execution becomes a row if every column takes its value.  The
server's own values always fit.  The request id and the user agent are whatever
bytes the client sent, so whether there is a row, and whether it has the right
request id, is a condition on the call and its outcome.
-/

import GoFoundation.Audit.Protocol

namespace GoFoundation.Audit

open Library Postgres Grpc Server Idempotency

variable {P : Protobuf} {config : Config P}

/-! ## Which events become rows -/

/-- A column stores a text as it is exactly when it is not too long. -/
theorem varchar_eq_self_iff {size : Nat} {text : String} :
    varchar size text = some text ↔ text.toList.length ≤ size := by
  unfold varchar
  constructor
  · intro hstored
    split at hstored
    · next hfits => exact hfits
    · split at hstored
      · have hlength := congrArg (fun stored : String => stored.toList.length)
          (Option.some.inj hstored)
        simp only [String.toList_ofList, List.length_take] at hlength
        omega
      · cases hstored
  · intro hfits
    rw [if_pos hfits]

/-- An event whose columns are all accepted becomes a row. -/
theorem Event.toRow_of_columns {event : Event} {actorID : Option UUID}
    {action resourceType requestID rpcMethod : String}
    (hactor : actorColumn event.actorID = some actorID)
    (haction : varcharColumn 100 event.action = some action)
    (htype : varcharColumn 100 event.resourceType = some resourceType)
    (hrequest : (toText event.requestID).bind (varchar 255) = some requestID)
    (hmethod : varcharColumn 255 event.rpcMethod = some rpcMethod)
    (hresource : (varcharColumn 255 event.resourceID).isSome = true)
    (hcode : (varcharColumn 32 event.grpcCode).isSome = true)
    (hreason : (varcharColumn 150 event.errorReason).isSome = true)
    (hclient : (varcharColumn 255 event.clientIP).isSome = true)
    (hagent : (toText event.userAgent).isSome = true)
    (hmetadata : (metadataColumn event.metadata).isSome = true) :
    ∃ row, event.toRow = some row ∧ row.id = event.id ∧ row.actorID = actorID ∧
      row.rpcMethod = rpcMethod ∧ row.requestID = requestID := by
  obtain ⟨resourceID, hresource⟩ := Option.isSome_iff_exists.mp hresource
  obtain ⟨grpcCode, hcode⟩ := Option.isSome_iff_exists.mp hcode
  obtain ⟨reason, hreason⟩ := Option.isSome_iff_exists.mp hreason
  obtain ⟨clientIP, hclient⟩ := Option.isSome_iff_exists.mp hclient
  obtain ⟨userAgent, hagent⟩ := Option.isSome_iff_exists.mp hagent
  obtain ⟨metadata, hmetadata⟩ := Option.isSome_iff_exists.mp hmetadata
  have hrow : event.toRow = some ⟨event.id, toTimestamptz event.occurredAt, actorID, action,
      resourceType, resourceID, requestID, rpcMethod, grpcCode, reason, clientIP, userAgent,
      metadata⟩ := by
    simp only [Event.toRow, hactor, haction, htype, hresource, hrequest, hmethod, hcode, hreason,
      hclient, hagent, hmetadata, Option.bind_eq_bind, Option.bind_some]
  exact ⟨_, hrow, rfl, rfl, rfl, rfl⟩

/-- The constants of `mutationEvent` fit their columns, and none of its methods is
public. -/
theorem mutationEvent_constants {generated : Generated P} {method : String} {req : Body P}
    {response : Response P} {mutation : Mutation}
    (hmutation : mutationEvent generated method req response = some mutation) :
    varcharColumn 100 mutation.action = some mutation.action ∧
      varcharColumn 100 mutation.resourceType = some mutation.resourceType ∧
      varcharColumn 255 method = some method ∧ method ∉ publicMethods := by
  have hall : ∀ kind ∈ mutationKinds, varcharColumn 100 kind.2.1 = some kind.2.1 ∧
      varcharColumn 100 kind.2.2 = some kind.2.2 ∧ varcharColumn 255 kind.1 = some kind.1 ∧
      kind.1 ∉ publicMethods := by
    decide +kernel
  exact hall _ (mem_mutationKinds hmutation)

/-! ## Executions and rows -/

/-- The user in whose name a call runs. -/
def actorOf (ctx : Context) : Option UUID :=
  ctx.identity.bind fun identity => UUID.parse identity.userID

/-- What a row says of the execution it is for. -/
def Row.attribution (row : Row) : UUID × Option UUID × String × Option String :=
  (row.id, row.actorID, row.rpcMethod, some row.requestID)

/-- What the row of an execution should say: the actor, the method and the request
id of the context. -/
def Execution.attribution (e : Execution config) : UUID × Option UUID × String × Option String :=
  (e.event.id, actorOf e.call.ctx, e.call.request.method, toText e.call.ctx.requestID)

/-- The event was built from the call. -/
def Execution.Built (e : Execution config) : Prop :=
  ∃ occurredAt, e.call.event e.outcome e.event.id occurredAt = some e.event

/-- The columns take what the call and its outcome put into the event: a request
id of at most 255 characters, a user agent that is text, and so on. -/
structure Execution.Fits (e : Execution config) : Prop where
  requestID : ∃ text, toText e.call.ctx.requestID = some text ∧ text.toList.length ≤ 255
  userAgent : (toText ((e.call.ctx.first "user-agent").getD [])).isSome = true
  clientIP : (varcharColumn 255 (e.call.ctx.peer.getD "")).isSome = true
  grpcCode : (varcharColumn 32 (codeOf e.outcome.err).name).isSome = true
  errorReason : (varcharColumn 150 (errorReason P e.outcome.err)).isSome = true
  resource : ∀ mutation, mutationEvent config.generated e.call.request.method
      e.call.request.body e.outcome.response = some mutation →
    (varcharColumn 255 mutation.resourceID).isSome = true ∧
      (metadataColumn mutation.metadata).isSome = true

/-- A call that the gates let pass for a method that is not public has an actor. -/
theorem Authorized.actor (call : Authorized config)
    (hprivate : call.request.method ∉ publicMethods) :
    ∃ identity actorID, call.ctx.identity = some identity ∧
      UUID.parse identity.userID = some actorID := by
  obtain ⟨env, s, hpass⟩ := call.admitted
  obtain ⟨user, -, identity, hidentity, hparse⟩ := mediated_of_passGates hprivate hpass
  exact ⟨identity, user.id, hidentity, hparse⟩

/-- The actor of an event is stored as the UUID that it spells. -/
theorem actorColumn_of_parse {text : String} {actorID : UUID}
    (hparse : UUID.parse text = some actorID) : actorColumn text = some (some actorID) := by
  have hne : text ≠ "" := by
    rintro rfl
    cases hparse
  rw [actorColumn, if_neg hne, hparse]
  rfl

/-- An execution has its row, with what it should say, exactly if it fits. -/
theorem Execution.row_iff_fits {e : Execution config} (hbuilt : e.Built) :
    (∃ row, e.event.toRow = some row ∧ row.attribution = e.attribution) ↔ e.Fits := by
  obtain ⟨occurredAt, hevent⟩ := hbuilt
  obtain ⟨mutation, hmutation, hfields⟩ := Option.map_eq_some_iff.mp hevent
  obtain ⟨haction, htype, hmethod, hprivate⟩ := mutationEvent_constants hmutation
  obtain ⟨identity, actorID, hidentity, hparse⟩ := e.call.actor hprivate
  have hactorID : e.event.actorID = identity.userID := by
    rw [← hfields, hidentity]
    rfl
  have hactor : actorColumn e.event.actorID = some (some actorID) := by
    rw [hactorID]
    exact actorColumn_of_parse hparse
  have hactorOf : actorOf e.call.ctx = some actorID := by
    rw [actorOf, hidentity, Option.bind_some, hparse]
  have hrpc : varcharColumn 255 e.event.rpcMethod = some e.call.request.method := by
    rw [← hfields]
    exact hmethod
  constructor
  · rintro ⟨row, hrow, hattribution⟩
    have hstored := Event.storedAs_of_toRow hrow
    obtain ⟨-, -, -, htext⟩ : row.id = e.event.id ∧ row.actorID = actorOf e.call.ctx ∧
        row.rpcMethod = e.call.request.method ∧
        some row.requestID = toText e.call.ctx.requestID := by
      simpa [Row.attribution, Execution.attribution] using hattribution
    rw [← hfields] at hstored
    constructor
    case requestID =>
      have hrequest := hstored.requestID
      refine ⟨row.requestID, htext.symm, varchar_eq_self_iff.mp ?_⟩
      rw [← htext] at hrequest
      exact hrequest
    case userAgent => exact Option.isSome_of_eq_some hstored.userAgent
    case clientIP => exact Option.isSome_of_eq_some hstored.clientIP
    case grpcCode => exact Option.isSome_of_eq_some hstored.grpcCode
    case errorReason => exact Option.isSome_of_eq_some hstored.errorReason
    case resource =>
      intro mutation' hmutation'
      obtain rfl : mutation = mutation' := Option.some.inj (hmutation.symm.trans hmutation')
      exact ⟨Option.isSome_of_eq_some hstored.resourceID,
        Option.isSome_of_eq_some hstored.metadata⟩
  · intro hfits
    obtain ⟨text, htext, hlength⟩ := hfits.requestID
    obtain ⟨hresource, hmetadata⟩ := hfits.resource mutation hmutation
    have hrequest : (toText e.event.requestID).bind (varchar 255) = some text := by
      rw [← hfields]
      exact Option.bind_eq_some_iff.mpr ⟨text, htext, varchar_eq_self_iff.mpr hlength⟩
    obtain ⟨row, hrow, hid, hrowActor, hrowMethod, hrowRequest⟩ :
        ∃ row, e.event.toRow = some row ∧ row.id = e.event.id ∧ row.actorID = some actorID ∧
          row.rpcMethod = e.call.request.method ∧ row.requestID = text := by
      rw [← hfields] at hactor hrpc hrequest ⊢
      exact Event.toRow_of_columns hactor haction htype hrequest hrpc hresource hfits.grpcCode
        hfits.errorReason hfits.clientIP hfits.userAgent hmetadata
    refine ⟨row, hrow, ?_⟩
    rw [Row.attribution, Execution.attribution, hid, hrowActor, hrowMethod, hrowRequest, hactorOf,
      htext]

end GoFoundation.Audit
