/-
# Page tokens

A page token is a cursor in the hands of the client.  `decodeCursor` asks that it is
base64 of JSON with an id and a time, and the statement casts the two to `uuid` and to
`timestamptz`.  An id that is there but is no UUID passes the one and not the other, and
the failed statement is answered as a fault of the server.
-/

import GoFoundation.Audit.Model
import GoFoundation.Go.Base64
import GoFoundation.Users.Service

namespace GoFoundation.Pagination

open Library Postgres Grpc Users

/-! ## Cursors as parameters -/

/-- The cursors of a service: `json.Marshal` and `json.Unmarshal` of its struct, in
base64. -/
def CursorCodec.ofJSON (marshal : Cursor → Bytes) (unmarshal : Bytes → Option Cursor) :
    CursorCodec where
  encode cursor := String.ofList (Go.Base64.encodeToString Go.Base64.rawURL (marshal cursor))
  decode token := (Go.Base64.decodeString Go.Base64.rawURL token.toList).bind unmarshal

/-- The instants that `timestamptz` covers, from the year 4714 before Christ to the
year 294276. -/
def inTimestamptz (t : Int) : Bool :=
  -210866803200000000000 ≤ toTimestamptz t && toTimestamptz t < 9224318016000000000000

section Statement

variable {ρ : Type} (time : ρ → Int) (id : ρ → UUID) (cond : ρ → Bool)

/-- The statement of a list, where the database converts the cursor to the types of the
parameters. -/
def queryPage (rows : List ρ) (after : Option Cursor) (limit : Nat) : Option (List ρ) :=
  if after.all fun cursor => inTimestamptz cursor.time then
    selectPage time id cond (after.map Cursor.time) (after.elim "" Cursor.id) limit rows
  else none

/-- The row is strictly below the cursor. -/
def Below (cursor : Cursor) (row : ρ) : Prop :=
  time row < cursor.time ∨
    (time row = cursor.time ∧ ∃ after, UUID.parse cursor.id = some after ∧ id row < after)

/-- The database can convert the cursor. -/
def Convertible (cursor : Cursor) : Prop :=
  (∃ after, UUID.parse cursor.id = some after) ∧ inTimestamptz cursor.time = true

variable {time id cond}

theorem below_of_rowBefore {cursor : Cursor} {after : UUID}
    (hparse : UUID.parse cursor.id = some after) {row : ρ}
    (hbefore : rowBefore time id row (toTimestamptz cursor.time) (some after) = true) :
    Below time id cursor row := by
  have hcut := toTimestamptz_le cursor.time
  simp only [rowBefore, Option.any_some, Bool.or_eq_true, Bool.and_eq_true,
    decide_eq_true_eq] at hbefore
  rcases hbefore with hlt | ⟨heq, hlt⟩
  · exact .inl (by omega)
  · rcases lt_or_eq_of_le hcut with hcut | hcut
    · exact .inl (by omega)
    · exact .inr ⟨by omega, after, hparse, hlt⟩

/-- With a cursor that has an id, the statement fails exactly when the cursor cannot be
converted, and otherwise returns rows below it. -/
theorem queryPage_cursor (rows : List ρ) {cursor : Cursor} (hid : cursor.id ≠ "") (limit : Nat) :
    (Convertible cursor ∧ ∃ page, queryPage time id cond rows (some cursor) limit = some page ∧
        ∀ row ∈ page, row ∈ rows ∧ Below time id cursor row) ∨
      (¬ Convertible cursor ∧ queryPage time id cond rows (some cursor) limit = none) := by
  unfold queryPage
  by_cases htime : inTimestamptz cursor.time = true
  · have hnull : nullID cursor.id = some cursor.id := if_neg hid
    rw [if_pos (by simpa using htime)]
    cases hparse : UUID.parse cursor.id with
    | none =>
        refine .inr ⟨?_, by simp only [selectPage, Option.elim_some, hnull, hparse,
          Option.map_none]⟩
        rintro ⟨⟨after, hafter⟩, -⟩
        rw [hparse] at hafter
        cases hafter
    | some after =>
        have hselect : ∃ page, selectPage time id cond ((some cursor).map Cursor.time)
            ((some cursor).elim "" Cursor.id) limit rows = some page ∧
              ∀ row ∈ page, row ∈ rows ∧ Below time id cursor row := by
          simp only [selectPage, Option.elim_some, hnull, hparse, Option.map_some,
            Option.some.injEq, exists_eq_left']
          intro row hrow
          have hselected := List.mem_of_mem_take hrow
          rw [List.mem_insertionSort, List.mem_filter, Bool.and_eq_true] at hselected
          obtain ⟨hmem, -, hbefore⟩ := hselected
          exact ⟨hmem, below_of_rowBefore hparse (by simpa using hbefore)⟩
        exact .inl ⟨⟨⟨after, hparse⟩, htime⟩, hselect⟩
  · refine .inr ⟨fun hconvertible => htime hconvertible.2, if_neg ?_⟩
    simpa using htime

theorem queryPage_first (rows : List ρ) (limit : Nat) :
    ∃ page, queryPage time id cond rows none limit = some page ∧ ∀ row ∈ page, row ∈ rows := by
  refine ⟨_, selectPage_first time id cond limit rows, ?_⟩
  intro row hrow
  exact (Keyset.mem_remaining.mp (List.mem_of_mem_take hrow)).1

end Statement

/-! ## The two handlers -/

end GoFoundation.Pagination

namespace GoFoundation.Audit

open Postgres Pagination Grpc Users

/-- `auditv1.AuditEvent`. -/
structure AuditEvent where
  id : String
  occurredAt : Timestamp
  actorID : String
  action : String
  resourceType : String
  resourceID : String
  requestID : String
  rpcMethod : String
  grpcCode : String
  errorReason : String
  clientIP : String
  userAgent : String
  metadata : List (String × String)
  deriving DecidableEq, Repr

/-- The message for an event. -/
def Row.toProto (row : Row) : AuditEvent where
  id := row.id.text
  occurredAt := .new row.occurredAt
  actorID := row.actorID.elim "" UUID.text
  action := row.action
  resourceType := row.resourceType
  resourceID := row.resourceID
  requestID := row.requestID
  rpcMethod := row.rpcMethod
  grpcCode := row.grpcCode
  errorReason := row.errorReason
  clientIP := row.clientIP
  userAgent := row.userAgent
  metadata := row.metadata

/-- `AuditHandler.ListAuditEvents`, given what the service returned. -/
def listAuditEvents (P : Protobuf) :
    Except ListError (Page Row) → Except (Option GoError) (List AuditEvent × String)
  | .ok page => .ok (page.items.map Row.toProto, page.nextPageToken)
  | .error .invalidPageToken =>
      .error (Apierror.invalidArgument P "PAGE_TOKEN_INVALID" "invalid page token"
        [⟨"page_token", "must be a valid page token"⟩])
  | .error .failed =>
      .error (Apierror.new P .internal "AUDIT_LIST_FAILED" "list audit events failed" [])

/-- `Service.List` of audit events, with the conversion of the cursor. -/
def listPage (codec : CursorCodec) (input : ListInput) (rows : List Row) (pageSize : Int)
    (pageToken : String) : Except ListError (Page Row) :=
  Pagination.list codec 50 (cursorOf Row.occurredAt Row.id)
    (queryPage Row.occurredAt Row.id
      (matchesFilter (Go.trimSpaceText input.actorID) (Go.trimSpaceText input.action)
        (Go.trimSpaceText input.resourceType) (Go.trimSpaceText input.resourceID)) rows)
    pageSize pageToken

end GoFoundation.Audit

namespace GoFoundation.Users

open Postgres Pagination

/-- `Service.List` of users, with the conversion of the cursor. -/
def listPage (codec : CursorCodec) (lower : String → String) (input : ListInput)
    (users : List User) (pageSize : Int) (pageToken : String) : Except ListError (Page User) :=
  Pagination.list codec 20 (cursorOf User.createdAt User.id)
    (queryPage User.createdAt User.id (matchesSearch lower (Go.trimSpaceText input.search)) users)
    pageSize pageToken

end GoFoundation.Users

namespace GoFoundation.Pagination

open Library Postgres Grpc Users

/-- The token is empty, or it is no cursor, or the database can convert it. -/
def Usable (codec : CursorCodec) (pageToken : String) : Prop :=
  pageToken ≠ "" → ∀ cursor, decodeCursor codec pageToken = some cursor → Convertible cursor

/-- The answer is a page of rows below the cursor, if there is one, or the token is
rejected as invalid. -/
def Handled {ρ μ : Type} (P : Protobuf) (time : ρ → Int) (id : ρ → UUID) (message : ρ → μ)
    (codec : CursorCodec) (rows : List ρ) (pageToken : String) :
    Except (Option GoError) (List μ × String) → Prop
  | .ok (messages, _) => ∃ items : List ρ, messages = items.map message ∧
      ∀ row ∈ items, row ∈ rows ∧
        (pageToken ≠ "" → ∃ cursor, decodeCursor codec pageToken = some cursor ∧
          Below time id cursor row)
  | .error err => err = Apierror.invalidArgument P "PAGE_TOKEN_INVALID" "invalid page token"
      [⟨"page_token", "must be a valid page token"⟩]

section Service

variable {ρ : Type} {time : ρ → Int} {id : ρ → UUID} {cond : ρ → Bool} {codec : CursorCodec}
  {defaultSize : Nat} {rows : List ρ} {pageSize : Int} {pageToken : String}

theorem id_ne_empty_of_decodeCursor {cursor : Cursor}
    (hdecode : decodeCursor codec pageToken = some cursor) : cursor.id ≠ "" := by
  rw [decodeCursor, Option.filter_eq_some_iff] at hdecode
  have hfields := hdecode.2
  rw [Bool.and_eq_true] at hfields
  exact of_decide_eq_true hfields.1

/-- The service returns a page below the cursor, or refuses the token, or the statement
fails; and the last one happens exactly with a cursor that cannot be converted. -/
theorem list_cases :
    (Usable codec pageToken ∧ ((∃ page : Page ρ,
        list codec defaultSize (cursorOf time id) (queryPage time id cond rows) pageSize pageToken =
          .ok page ∧
        ∀ row ∈ page.items, row ∈ rows ∧
          (pageToken ≠ "" → ∃ cursor, decodeCursor codec pageToken = some cursor ∧
            Below time id cursor row)) ∨
      list codec defaultSize (cursorOf time id) (queryPage time id cond rows) pageSize pageToken =
        .error .invalidPageToken)) ∨
    (¬ Usable codec pageToken ∧
      list codec defaultSize (cursorOf time id) (queryPage time id cond rows) pageSize pageToken =
        .error .failed) := by
  unfold list
  split
  · next hempty =>
      obtain ⟨page, hquery, hpage⟩ := @queryPage_first ρ time id cond rows
        (pageLimit defaultSize pageSize + 1)
      refine .inl ⟨fun htoken => absurd hempty htoken, .inl ⟨_, by rw [hquery], ?_⟩⟩
      intro row hrow
      exact ⟨hpage row (mem_of_mem_cutPage hrow), fun htoken => absurd hempty htoken⟩
  · next htoken =>
      cases hdecode : decodeCursor codec pageToken with
      | none =>
          refine .inl ⟨?_, .inr rfl⟩
          intro _ cursor hcursor
          rw [hdecode] at hcursor
          cases hcursor
      | some cursor =>
          rcases @queryPage_cursor ρ time id cond rows cursor
            (id_ne_empty_of_decodeCursor hdecode) (pageLimit defaultSize pageSize + 1) with
            ⟨hconvertible, page, hquery, hpage⟩ | ⟨hconvertible, hquery⟩
          · refine .inl ⟨?_, .inl ⟨_, by simp only [hquery]; rfl, ?_⟩⟩
            · intro _ other hother
              rw [hdecode, Option.some.injEq] at hother
              exact hother ▸ hconvertible
            · intro row hrow
              obtain ⟨hmem, hbelow⟩ := hpage row (mem_of_mem_cutPage hrow)
              exact ⟨hmem, fun _ => ⟨cursor, rfl, hbelow⟩⟩
          · refine .inr ⟨fun husable => hconvertible (husable htoken cursor hdecode), ?_⟩
            simp only [hquery]

end Service

/-- An error for the client is not one for a fault of the server. -/
theorem invalidArgument_ne_internal (P : Protobuf) (reason reason' message message' : String)
    (fields : List FieldViolation) :
    Apierror.new P .internal reason message [] ≠
      Apierror.invalidArgument P reason' message' fields :=
  Apierror.new_ne_new P (by simp) (by simp) (by simp) _ _ _ _ _ _

theorem listUsers_handled_iff (P : Protobuf) (codec : CursorCodec) (lower : String → String)
    (input : Users.ListInput) (users : List User) (pageSize : Int) (pageToken : String) :
    Handled P User.createdAt User.id (fun user => toProtoUser user.entity) codec users pageToken
        (UserHandler.listUsers P pageToken
          (Users.listPage codec lower input users pageSize pageToken)) ↔
      Usable codec pageToken := by
  unfold Users.listPage
  rcases @list_cases User User.createdAt User.id
      (matchesSearch lower (Go.trimSpaceText input.search)) codec 20 users pageSize pageToken with
    ⟨husable, ⟨page, hlist, hpage⟩ | hlist⟩ | ⟨husable, hlist⟩
  · rw [hlist]
    exact iff_of_true ⟨page.items, rfl, hpage⟩ husable
  · rw [hlist]
    exact iff_of_true rfl husable
  · rw [hlist]
    exact iff_of_false (invalidArgument_ne_internal P _ _ _ _ _) husable

theorem listAuditEvents_handled_iff (P : Protobuf) (codec : CursorCodec) (input : Audit.ListInput)
    (rows : List Audit.Row) (pageSize : Int) (pageToken : String) :
    Handled P Audit.Row.occurredAt Audit.Row.id Audit.Row.toProto codec rows pageToken
        (Audit.listAuditEvents P (Audit.listPage codec input rows pageSize pageToken)) ↔
      Usable codec pageToken := by
  unfold Audit.listPage
  rcases @list_cases Audit.Row Audit.Row.occurredAt Audit.Row.id
      (Audit.matchesFilter (Go.trimSpaceText input.actorID) (Go.trimSpaceText input.action)
        (Go.trimSpaceText input.resourceType) (Go.trimSpaceText input.resourceID)) codec 50 rows
      pageSize pageToken with
    ⟨husable, ⟨page, hlist, hpage⟩ | hlist⟩ | ⟨husable, hlist⟩
  · rw [hlist]
    exact iff_of_true ⟨page.items, rfl, hpage⟩ husable
  · rw [hlist]
    exact iff_of_true rfl husable
  · rw [hlist]
    exact iff_of_false (invalidArgument_ne_internal P _ _ _ _ _) husable

/-- `ListUsers` and `ListAuditEvents` answer a page token with rows below the cursor or
reject it as invalid, exactly when the token is empty, is no cursor, or is one that the
database can convert. -/
theorem page_tokens_handled_iff (P : Protobuf) (userCodec auditCodec : CursorCodec)
    (lower : String → String) (users : List User) (rows : List Audit.Row)
    (search : Users.ListInput) (filter : Audit.ListInput) (pageSize : Int) (pageToken : String) :
    (Handled P User.createdAt User.id (fun user => toProtoUser user.entity) userCodec users
        pageToken (UserHandler.listUsers P pageToken
          (Users.listPage userCodec lower search users pageSize pageToken)) ↔
      Usable userCodec pageToken) ∧
    (Handled P Audit.Row.occurredAt Audit.Row.id Audit.Row.toProto auditCodec rows pageToken
        (Audit.listAuditEvents P (Audit.listPage auditCodec filter rows pageSize pageToken)) ↔
      Usable auditCodec pageToken) :=
  ⟨listUsers_handled_iff P userCodec lower search users pageSize pageToken,
    listAuditEvents_handled_iff P auditCodec filter rows pageSize pageToken⟩

/-- A cursor whose id is no UUID, as JSON. -/
def craftedJSON : Bytes :=
  Go.encodeUtf8 "\x7b\"created_at\":\"2024-01-01T00:00:00Z\",\"id\":\"x\"\x7d"

/-- Its token. -/
def craftedToken : String := "eyJjcmVhdGVkX2F0IjoiMjAyNC0wMS0wMVQwMDowMDowMFoiLCJpZCI6IngifQ"

/-- The cursors of users, as far as this one goes. -/
def craftedCodec : CursorCodec :=
  .ofJSON (fun _ => craftedJSON) fun json =>
    if json = craftedJSON then some ⟨1704067200000000000, "x"⟩ else none

/-- `ListUsers` answers this token with an error of the server. -/
theorem crafted_token_not_handled :
    ¬ ∀ pageToken, Handled Protobuf.wire User.createdAt User.id
      (fun user => toProtoUser user.entity) craftedCodec [] pageToken
      (UserHandler.listUsers Protobuf.wire pageToken
        (Users.listPage craftedCodec (fun text => text) ⟨""⟩ [] 20 pageToken)) := by
  intro hall
  have hlist : Users.listPage craftedCodec (fun text => text) ⟨""⟩ [] 20 craftedToken =
      .error .failed := by
    decide +kernel
  have hhandled := hall craftedToken
  rw [hlist] at hhandled
  exact invalidArgument_ne_internal Protobuf.wire _ _ _ _ _ hhandled

end GoFoundation.Pagination
