/-
# Audit events

The table `audit_events` with its statements, `AuditRepository.Record` and
`AuditRepository.List`, and `Service.List` on top.

`Record` is where strings of the request meet the types of the columns: every
value has to be text that the database accepts and must fit its `VARCHAR`, or the
whole row is refused.
-/

import GoFoundation.Pagination.Service

namespace GoFoundation.Audit

open Postgres Pagination Grpc

/-- `audit.Event`.  The strings of the metadata of a call are any bytes, those of
messages are texts. -/
structure Event where
  id : UUID
  occurredAt : Int
  actorID : String
  action : String
  resourceType : String
  resourceID : String
  requestID : GoString
  rpcMethod : String
  grpcCode : String
  errorReason : String
  clientIP : String
  userAgent : GoString
  metadata : List (String × String)
  deriving DecidableEq, Repr

/-- A row of `audit_events`, and an event that `List` returns, with absent texts
read as empty. -/
structure Row where
  id : UUID
  occurredAt : Int
  actorID : Option UUID
  action : String
  resourceType : String
  resourceID : String
  requestID : String
  rpcMethod : String
  grpcCode : String
  errorReason : String
  clientIP : String
  userAgent : String
  metadata : List (String × String)
  deriving DecidableEq, Repr

/-! ## Record -/

/-- A parameter for a column `VARCHAR(size)`. -/
def varcharColumn (size : Nat) (text : String) : Option String :=
  (checkText text).bind (varchar size)

/-- `NULLIF(text, '')::uuid`. -/
def actorColumn (text : String) : Option (Option UUID) :=
  if text = "" then some none else (UUID.parse text).map some

/-- The metadata as JSON, in which the database refuses a zero character. -/
def metadataColumn (metadata : List (String × String)) : Option (List (String × String)) :=
  if metadata.all fun entry => (checkText entry.2).isSome then some metadata else none

/-- The row that `Record` inserts; `none` where the database refuses a value. -/
def Event.toRow (event : Event) : Option Row := do
  let actorID ← actorColumn event.actorID
  let action ← varcharColumn 100 event.action
  let resourceType ← varcharColumn 100 event.resourceType
  let resourceID ← varcharColumn 255 event.resourceID
  let requestID ← (toText event.requestID).bind (varchar 255)
  let rpcMethod ← varcharColumn 255 event.rpcMethod
  let grpcCode ← varcharColumn 32 event.grpcCode
  let errorReason ← varcharColumn 150 event.errorReason
  let clientIP ← varcharColumn 255 event.clientIP
  let userAgent ← toText event.userAgent
  let metadata ← metadataColumn event.metadata
  some
    { id := event.id
      occurredAt := toTimestamptz event.occurredAt
      actorID := actorID
      action := action
      resourceType := resourceType
      resourceID := resourceID
      requestID := requestID
      rpcMethod := rpcMethod
      grpcCode := grpcCode
      errorReason := errorReason
      clientIP := clientIP
      userAgent := userAgent
      metadata := metadata }

/-- The columns of the row for an event. -/
structure Event.StoredAs (event : Event) (row : Row) : Prop where
  id : row.id = event.id
  occurredAt : row.occurredAt = toTimestamptz event.occurredAt
  actorID : actorColumn event.actorID = some row.actorID
  action : varcharColumn 100 event.action = some row.action
  resourceType : varcharColumn 100 event.resourceType = some row.resourceType
  resourceID : varcharColumn 255 event.resourceID = some row.resourceID
  requestID : (toText event.requestID).bind (varchar 255) = some row.requestID
  rpcMethod : varcharColumn 255 event.rpcMethod = some row.rpcMethod
  grpcCode : varcharColumn 32 event.grpcCode = some row.grpcCode
  errorReason : varcharColumn 150 event.errorReason = some row.errorReason
  clientIP : varcharColumn 255 event.clientIP = some row.clientIP
  userAgent : toText event.userAgent = some row.userAgent
  metadata : metadataColumn event.metadata = some row.metadata

/-- A row is inserted only if every column takes its value. -/
theorem Event.storedAs_of_toRow {event : Event} {row : Row} (hrow : event.toRow = some row) :
    event.StoredAs row := by
  obtain ⟨actorID, hactorID, hrow⟩ := Option.bind_eq_some_iff.mp hrow
  obtain ⟨action, haction, hrow⟩ := Option.bind_eq_some_iff.mp hrow
  obtain ⟨resourceType, hresourceType, hrow⟩ := Option.bind_eq_some_iff.mp hrow
  obtain ⟨resourceID, hresourceID, hrow⟩ := Option.bind_eq_some_iff.mp hrow
  obtain ⟨requestID, hrequestID, hrow⟩ := Option.bind_eq_some_iff.mp hrow
  obtain ⟨rpcMethod, hrpcMethod, hrow⟩ := Option.bind_eq_some_iff.mp hrow
  obtain ⟨grpcCode, hgrpcCode, hrow⟩ := Option.bind_eq_some_iff.mp hrow
  obtain ⟨errorReason, herrorReason, hrow⟩ := Option.bind_eq_some_iff.mp hrow
  obtain ⟨clientIP, hclientIP, hrow⟩ := Option.bind_eq_some_iff.mp hrow
  obtain ⟨userAgent, huserAgent, hrow⟩ := Option.bind_eq_some_iff.mp hrow
  obtain ⟨metadata, hmetadata, hrow⟩ := Option.bind_eq_some_iff.mp hrow
  obtain rfl := Option.some.inj hrow
  exact ⟨rfl, rfl, hactorID, haction, hresourceType, hresourceID, hrequestID, hrpcMethod, hgrpcCode,
    herrorReason, hclientIP, huserAgent, hmetadata⟩

/-- `AuditRepository.Record`; `none` where the insert is refused. -/
def record (rows : List Row) (event : Event) : Option (List Row) :=
  if rows.any fun row => row.id = event.id then none
  else event.toRow.map fun row => rows ++ [row]

/-! ## List -/

/-- `audit.ListFilter`. -/
structure ListFilter where
  limit : Nat
  actorID : String
  action : String
  resourceType : String
  resourceID : String
  beforeOccurred : Option Int
  beforeID : String
  deriving DecidableEq, Repr

/-- The condition `$1 = '' OR column = $1`. -/
def matchesColumn (filter column : String) : Bool := filter = "" || column = filter

/-- The conditions of the statement on the filter. -/
def matchesFilter (actorID action resourceType resourceID : String) (row : Row) : Bool :=
  matchesColumn actorID (row.actorID.elim "" UUID.text) && matchesColumn action row.action &&
    matchesColumn resourceType row.resourceType && matchesColumn resourceID row.resourceID

/-- `AuditRepository.List`. -/
def listEvents (rows : List Row) (filter : ListFilter) : Option (List Row) :=
  selectPage Row.occurredAt Row.id
    (matchesFilter filter.actorID filter.action filter.resourceType filter.resourceID)
    filter.beforeOccurred filter.beforeID filter.limit rows

/-- `audit.ListInput` without the page that is asked for. -/
structure ListInput where
  actorID : String
  action : String
  resourceType : String
  resourceID : String
  deriving DecidableEq, Repr

/-- `Service.List` of audit events: pages of fifty unless the client asks
otherwise. -/
def list (codec : CursorCodec) (input : ListInput) (rows : List Row) (pageSize : Int)
    (pageToken : String) : Except ListError (Page Row) :=
  Pagination.list codec 50 (cursorOf Row.occurredAt Row.id)
    (fun after limit => listEvents rows
      { limit := limit
        actorID := Go.trimSpaceText input.actorID
        action := Go.trimSpaceText input.action
        resourceType := Go.trimSpaceText input.resourceType
        resourceID := Go.trimSpaceText input.resourceID
        beforeOccurred := after.map Cursor.time
        beforeID := after.elim "" Cursor.id })
    pageSize pageToken

end GoFoundation.Audit
