/-
# Events of a row

A request names a row by its UUID.  The rules of the messages take the digits in either
case, the statements compare UUIDs, and the trail keeps the text that came with the
request and compares texts.  So an event is found under the id of the row it is about
exactly if the request spelled the id as the database prints it.
-/

import GoFoundation.Audit.Outcome
import GoFoundation.Pagination.Complete
import GoFoundation.Rbac.Assignments

namespace GoFoundation.Postgres.UUID

/-! ## Spellings of a UUID -/

/-- What follows a hyphen. -/
def afterHyphen : List Char → Option (List Char)
  | '-' :: rest => some rest
  | _ => none

/-- The pattern of `string.uuid`, for the last `bytes` bytes: two digits in either case
for each, and hyphens where they are printed. -/
def matchesPattern : Nat → List Char → Bool
  | 0, chars => chars.isEmpty
  | bytes + 1, first :: second :: rest =>
      (hexValue first).isSome && (hexValue second).isSome &&
        (if bytes = 12 ∨ bytes = 10 ∨ bytes = 8 ∨ bytes = 6 then afterHyphen rest
          else some rest).any (matchesPattern bytes)
  | _ + 1, _ => false

/-- The rule `string.uuid`. -/
def isUuid (text : String) : Bool := matchesPattern 16 text.toList

/-- No letter is in upper case. -/
def isLower (text : String) : Bool := text.toList.all fun c => !c.isUpper

/-- A digit is printed as it was spelled exactly in lower case. -/
theorem hexDigit_eq_iff {c : Char} {digit : Fin 16} (hvalue : hexValue c = some digit) :
    hexDigit digit = c ↔ c.isUpper = false := by
  have hlower : ∀ digit, (hexDigit digit).isUpper = false := by decide
  have hupper : ∀ digit, hexDigit digit = (hexDigit digit).toUpper ↔
      (hexDigit digit).toUpper.isUpper = false := by
    decide
  have hspelled := List.find?_some hvalue
  rw [Bool.or_eq_true, decide_eq_true_eq, decide_eq_true_eq] at hspelled
  rcases hspelled with rfl | rfl
  · exact iff_of_true rfl (hlower digit)
  · exact hupper digit

theorem ne_of_hexValue {c other : Char} (hvalue : (hexValue c).isSome = true)
    (hother : hexValue other = none) : c ≠ other := by
  intro heq
  rw [heq, hother] at hvalue
  cases hvalue

theorem eq_of_afterHyphen {chars rest : List Char} (hafter : afterHyphen chars = some rest) :
    chars = '-' :: rest := by
  unfold afterHyphen at hafter
  split at hafter
  · rw [Option.some.inj hafter]
  · cases hafter

/-- What matches the pattern begins with a digit. -/
theorem hexValue_of_matchesPattern {bytes : Nat} {c : Char} {rest : List Char}
    (hmatch : matchesPattern bytes (c :: rest) = true) : (hexValue c).isSome = true := by
  cases bytes with
  | zero => cases hmatch
  | succ bytes =>
      cases rest with
      | nil => cases hmatch
      | cons second rest =>
          rw [matchesPattern, Bool.and_eq_true, Bool.and_eq_true] at hmatch
          exact hmatch.1.1

theorem skipHyphen_of_matchesPattern {bytes : Nat} {chars : List Char}
    (hmatch : matchesPattern bytes chars = true) : skipHyphen chars = chars := by
  cases chars with
  | nil => rfl
  | cons c rest =>
      exact skipHyphen_of_ne (ne_of_hexValue (hexValue_of_matchesPattern hmatch) (by decide)) rest

/-- What matches the pattern is read, and is printed as it was spelled exactly in lower
case. -/
theorem parseBytes_of_matchesPattern (bytes : Nat) (chars : List Char)
    (hmatch : matchesPattern bytes chars = true) :
    ∃ digits, digits.length = 2 * bytes ∧ parseBytes bytes chars = some (digits, []) ∧
      (render bytes digits = chars ↔ ∀ c ∈ chars, c.isUpper = false) := by
  induction bytes generalizing chars with
  | zero =>
      rw [List.isEmpty_iff.mp hmatch]
      exact ⟨[], rfl, rfl, by simp [render]⟩
  | succ bytes ih =>
      rcases chars with _ | ⟨first, _ | ⟨second, rest⟩⟩
      · cases hmatch
      · cases hmatch
      · rw [matchesPattern, Bool.and_eq_true, Bool.and_eq_true] at hmatch
        obtain ⟨⟨hfirst, hsecond⟩, hrest⟩ := hmatch
        obtain ⟨high, hhigh⟩ := Option.isSome_iff_exists.mp hfirst
        obtain ⟨low, hlow⟩ := Option.isSome_iff_exists.mp hsecond
        obtain ⟨tail, htail, hmatch⟩ := (Option.any_eq_true _ _).mp hrest
        obtain ⟨digits, hlength, hparse, hprinted⟩ := ih tail hmatch
        refine ⟨high :: low :: digits, by simp only [List.length_cons]; omega, ?_⟩
        by_cases hhyphen : bytes = 12 ∨ bytes = 10 ∨ bytes = 8 ∨ bytes = 6
        · rw [if_pos hhyphen] at htail
          obtain rfl := eq_of_afterHyphen htail
          have hskip : bytes % 2 = 0 ∧ bytes ≠ 0 := by omega
          apply And.intro
          · simp [parseBytes, hhigh, hlow, hskip, skipHyphen, hparse]
          · simp [render, hhyphen, hexDigit_eq_iff hhigh, hexDigit_eq_iff hlow, hprinted]
        · rw [if_neg hhyphen] at htail
          obtain rfl := Option.some.inj htail
          apply And.intro
          · simp [parseBytes, hhigh, hlow, skipHyphen_of_matchesPattern hmatch, hparse]
          · simp [render, hhyphen, hexDigit_eq_iff hhigh, hexDigit_eq_iff hlow, hprinted]

/-- There are two digits for a byte and at most one hyphen. -/
theorem length_of_matchesPattern (bytes : Nat) (chars : List Char)
    (hmatch : matchesPattern bytes chars = true) : chars.length ≤ 3 * bytes := by
  induction bytes generalizing chars with
  | zero =>
      rw [List.isEmpty_iff.mp hmatch]
      exact Nat.le_refl 0
  | succ bytes ih =>
      rcases chars with _ | ⟨first, _ | ⟨second, rest⟩⟩
      · cases hmatch
      · cases hmatch
      · rw [matchesPattern, Bool.and_eq_true] at hmatch
        obtain ⟨tail, htail, hmatch⟩ := (Option.any_eq_true _ _).mp hmatch.2
        have hlength := ih tail hmatch
        split at htail
        · rw [eq_of_afterHyphen htail]
          simp only [List.length_cons]
          omega
        · rw [Option.some.inj htail]
          simp only [List.length_cons]
          omega

/-- An id that passes the rule is of one row, and is its text exactly in lower case. -/
theorem parse_of_isUuid {text : String} (hmatch : isUuid text = true) :
    ∃ id, parse text = some id ∧ (id.text = text ↔ isLower text = true) := by
  obtain ⟨digits, hlength, hparse, hprinted⟩ := parseBytes_of_matchesPattern 16 text.toList hmatch
  refine ⟨⟨digits, hlength⟩, ?_, ?_⟩
  · rw [parse]
    split
    · next rest heq =>
        rw [isUuid, heq] at hmatch
        exact absurd rfl (ne_of_hexValue (hexValue_of_matchesPattern hmatch)
          (show hexValue '{' = none by decide))
    · rw [hparse]
      exact dif_pos hlength
  · rw [UUID.text, ← String.toList_inj, String.toList_ofList, hprinted, isLower]
    simp

example : isUuid "0000000A-0000-0000-0000-00000000000a" = true := by decide

example : isUuid "\x7b0000000a-0000-0000-0000-00000000000a\x7d" = false := by decide

end GoFoundation.Postgres.UUID

namespace GoFoundation.Audit

open Library Postgres Grpc Server Pagination

variable {P : Protobuf}

/-! ## Requests that change a row -/

/-- The requests whose rows have been given by their ids. -/
inductive Change
  | revokeSession (sessionID : String)
  | rbac (call : Rbac.Call)
  deriving DecidableEq, Repr

/-- The request is a message in which the getter reads this. -/
def Holds {α : Type} (getter : P.Message → Option α) (req : Body P) (value : α) : Prop :=
  ∃ message, req = .message message ∧ getter message = some value

theorem view_of_holds {α : Type} {getter : P.Message → Option α} {req : Body P} {value : α}
    (hholds : Holds getter req value) (default : α) : Body.view getter default req = value := by
  obtain ⟨message, rfl, hmessage⟩ := hholds
  rw [Body.view, hmessage, Option.getD_some]

namespace Change

/-- The method that is called. -/
def method : Change → String
  | revokeSession _ => "/auth.v1.AuthService/RevokeSession"
  | rbac (.assignRole _ _) => "/rbac.v1.RBACService/AssignRole"
  | rbac (.removeRole _ _) => "/rbac.v1.RBACService/RemoveRole"
  | rbac (.assignPermissionToRole _ _) => "/rbac.v1.RBACService/AssignPermissionToRole"
  | rbac (.removePermissionFromRole _ _) => "/rbac.v1.RBACService/RemovePermissionFromRole"

theorem method_mem (change : Change) : change.method ∈ mutationMethods := by
  cases change with
  | revokeSession sessionID => simp [method, mutationMethods, mutationKinds]
  | rbac call => cases call <;> simp [method, mutationMethods, mutationKinds]

/-- The message of the request has these ids. -/
def CarriedBy (generated : Generated P) (req : Body P) : Change → Prop
  | revokeSession sessionID => Holds generated.revokeSessionRequest req sessionID
  | rbac (.assignRole userID roleID) => Holds generated.assignRoleRequest req (userID, roleID)
  | rbac (.removeRole userID roleID) => Holds generated.removeRoleRequest req (userID, roleID)
  | rbac (.assignPermissionToRole roleID permissionID) =>
      Holds generated.assignPermissionToRoleRequest req (roleID, permissionID)
  | rbac (.removePermissionFromRole roleID permissionID) =>
      Holds generated.removePermissionFromRoleRequest req (roleID, permissionID)

/-- The id of the row, as the request spells it. -/
def resourceID : Change → String
  | revokeSession sessionID => sessionID
  | rbac (.assignRole userID _) => userID
  | rbac (.removeRole userID _) => userID
  | rbac (.assignPermissionToRole roleID _) => roleID
  | rbac (.removePermissionFromRole roleID _) => roleID

/-- The id of the row that is related to it, under its key in the metadata. -/
def related : Change → Option (String × String)
  | revokeSession _ => none
  | rbac (.assignRole _ roleID) => some ("role_id", roleID)
  | rbac (.removeRole _ roleID) => some ("role_id", roleID)
  | rbac (.assignPermissionToRole _ permissionID) => some ("permission_id", permissionID)
  | rbac (.removePermissionFromRole _ permissionID) => some ("permission_id", permissionID)

/-- The ids pass the rules of the message. -/
def Valid (change : Change) : Prop :=
  UUID.isUuid change.resourceID = true ∧
    ∀ entry ∈ change.related, UUID.isUuid entry.2 = true

/-- The ids are spelled in lower case. -/
def Lower (change : Change) : Prop :=
  UUID.isLower change.resourceID = true ∧
    ∀ entry ∈ change.related, UUID.isLower entry.2 = true

instance (change : Change) : Decidable change.Valid := inferInstanceAs (Decidable (_ ∧ _))

instance (change : Change) : Decidable change.Lower := inferInstanceAs (Decidable (_ ∧ _))

/-- The row that the statements find: the session, or the first of the pair. -/
def row : Change → Option UUID
  | revokeSession sessionID => UUID.parse sessionID
  | rbac call => call.target.map fun target =>
      match target.1 with
      | .userRole user _ => user
      | .rolePermission role _ => role

/-- The second of the pair. -/
def relatedRow : Change → Option UUID
  | revokeSession _ => none
  | rbac call => call.target.map fun target =>
      match target.1 with
      | .userRole _ role => role
      | .rolePermission _ permission => permission

theorem row_of_valid {change : Change} (hvalid : change.Valid) :
    change.row = UUID.parse change.resourceID ∧
      change.relatedRow = change.related.bind fun entry => UUID.parse entry.2 := by
  cases change with
  | revokeSession sessionID => exact ⟨rfl, rfl⟩
  | rbac call =>
      obtain ⟨hresource, hrelated⟩ := hvalid
      obtain ⟨id, hid, -⟩ := UUID.parse_of_isUuid hresource
      cases call with
      | assignRole first second | removeRole first second
        | assignPermissionToRole first second | removePermissionFromRole first second =>
          obtain ⟨other, hother, -⟩ := UUID.parse_of_isUuid (hrelated _ rfl)
          have hfirst : UUID.parse first = some id := hid
          have hsecond : UUID.parse second = some other := hother
          simp [row, relatedRow, related, resourceID, Rbac.Call.target, hfirst, hsecond]

/-- What an event keeps of the request: the ids, as the request spells them. -/
def mutation : Change → Mutation
  | revokeSession sessionID => ⟨"session.revoke", "session", sessionID, []⟩
  | rbac (.assignRole userID roleID) => ⟨"role.assign", "user", userID, [("role_id", roleID)]⟩
  | rbac (.removeRole userID roleID) => ⟨"role.remove", "user", userID, [("role_id", roleID)]⟩
  | rbac (.assignPermissionToRole roleID permissionID) =>
      ⟨"permission.assign", "role", roleID, [("permission_id", permissionID)]⟩
  | rbac (.removePermissionFromRole roleID permissionID) =>
      ⟨"permission.remove", "role", roleID, [("permission_id", permissionID)]⟩

theorem mutation_ids (change : Change) :
    change.mutation.resourceID = change.resourceID ∧
      change.mutation.metadata = change.related.toList := by
  cases change with
  | revokeSession sessionID => exact ⟨rfl, rfl⟩
  | rbac call => cases call <;> exact ⟨rfl, rfl⟩

/-- It keeps nothing else, and nothing of the response. -/
theorem mutationEvent_of_carriedBy {change : Change} {generated : Generated P} {req : Body P}
    (hcarried : change.CarriedBy generated req) (response : Idempotency.Response P) :
    mutationEvent generated change.method req response = some change.mutation := by
  cases change with
  | revokeSession sessionID =>
      have hview := view_of_holds hcarried ""
      simp [mutationEvent, method, mutation, hview]
  | rbac call =>
      cases call with
      | assignRole first second | removeRole first second
        | assignPermissionToRole first second | removePermissionFromRole first second =>
          have hview := view_of_holds hcarried ("", "")
          simp [mutationEvent, method, mutation, relationshipEvent, hview]

end Change

/-! ## What the list finds -/

/-- Whoever follows the tokens of `ListAuditEvents` to the end, with the filter on the id
of the resource alone, is sent the row. -/
def Found (codec : CursorCodec) (resourceID : String) (rows : List Row) (row : Row) : Prop :=
  ∀ visits w, (walks Row.occurredAt Row.id (list codec ⟨"", "", "", resourceID⟩)).run
    (Walk.start rows) visits = some w → w.finished = true → row ∈ w.returned

/-- A row is found under the text of a UUID exactly if it has this text. -/
theorem found_iff {codec : CursorCodec} (hcodec : codec.Lawful) {rows : List Row}
    (hids : (rows.map Row.id).Nodup) (hstorable : ∀ row ∈ rows, Storable row.occurredAt)
    {row : Row} (hrow : row ∈ rows) (id : UUID) :
    Found codec id.text rows row ↔ row.resourceID = id.text := by
  have honce : VisitsOnce Row.occurredAt Row.id
      (matchesFilter (Go.trimSpaceText "") (Go.trimSpaceText "") (Go.trimSpaceText "")
        (Go.trimSpaceText id.text)) (list codec ⟨"", "", "", id.text⟩) rows :=
    visitsOnce_listing hcodec (by decide) hids hstorable
  have hcond : matchesFilter (Go.trimSpaceText "") (Go.trimSpaceText "") (Go.trimSpaceText "")
      (Go.trimSpaceText id.text) row = true ↔ row.resourceID = id.text := by
    have hempty : Go.trimSpaceText "" = "" := by decide
    simp [matchesFilter, matchesColumn, hempty, UUID.trimSpaceText_text, UUID.text_ne_empty]
  rw [← hcond]
  apply Iff.intro
  · intro hfound
    obtain ⟨fetches, -, w, hrun, hfinished⟩ := honce.bounded fun _ => 0
    exact (honce.sound _ w hrun row (hfound _ w hrun hfinished)).2
  · intro hmatches visits w hrun hfinished
    exact honce.complete visits w hrun hfinished row hrow hmatches

theorem eq_of_metadataColumn {metadata stored : List (String × String)}
    (hcolumn : metadataColumn metadata = some stored) : stored = metadata := by
  rw [metadataColumn, Option.ite_none_right_eq_some, Option.some.injEq] at hcolumn
  exact hcolumn.2.symm

/-- A column keeps an id that passed the rule. -/
theorem eq_of_varcharColumn {text stored : String} (hmatch : UUID.isUuid text = true)
    (hcolumn : varcharColumn 255 text = some stored) : stored = text := by
  have hlength := UUID.length_of_matchesPattern 16 text.toList hmatch
  rcases checkText_cases text with ⟨hcheck, -⟩ | ⟨hcheck, -⟩
  · rw [varcharColumn, hcheck, Option.bind_some, varchar, if_pos (by omega)] at hcolumn
    exact (Option.some.inj hcolumn).symm
  · rw [varcharColumn, hcheck] at hcolumn
    cases hcolumn

/-- A row that a call of a mutation method adds is that of its event. -/
theorem event_of_new_row (config : Config P) (env : Env) {method : String}
    (hmethod : method ∈ mutationMethods)
    (handler : Context → Body P → Directory → Result P × Directory) (ctx : Context)
    (req : Body P) (s : State) {row : Row}
    (hnew : row ∈ (execution config env method handler ctx req s).2.audit)
    (hold : row ∉ s.audit) :
    ∃ outcome event, auditEvent config.generated ctx method req outcome env.eventID
      env.occurredAt = some event ∧ event.toRow = some row := by
  cases hadmitted : admitted config env method ctx req s with
  | none =>
      have hsame : (execution config env method handler ctx req s).2.audit = s.audit :=
        (idempotencyUnary_of_not_admitted config env method _ ctx req hadmitted).1
      rw [hsame] at hnew
      exact absurd hnew hold
  | some s' =>
      obtain ⟨-, -, event, hevent, -, hafter⟩ :=
        execution_of_admitted config env hmethod handler ctx req hadmitted
      rw [hafter] at hnew
      split at hnew
      · exact absurd hnew hold
      · unfold record at hnew
        split at hnew
        · exact absurd hnew hold
        · cases htoRow : event.toRow with
          | none =>
              rw [htoRow] at hnew
              exact absurd hnew hold
          | some added =>
              rw [htoRow] at hnew
              obtain rfl : row = added :=
                List.mem_singleton.mp ((List.mem_append.mp hnew).resolve_left hold)
              exact ⟨_, event, hevent, htoRow⟩

/-- The row has the ids as the request spells them. -/
theorem ids_of_new_row (config : Config P) (env : Env) {change : Change} (hvalid : change.Valid)
    {req : Body P} (hcarried : change.CarriedBy config.generated req)
    (handler : Context → Body P → Directory → Result P × Directory) (ctx : Context) (s : State)
    {row : Row} (hnew : row ∈ (execution config env change.method handler ctx req s).2.audit)
    (hold : row ∉ s.audit) :
    row.resourceID = change.resourceID ∧ row.metadata = change.related.toList := by
  obtain ⟨outcome, event, hevent, hrow⟩ :=
    event_of_new_row config env change.method_mem handler ctx req s hnew hold
  obtain ⟨hresource, hmetadata⟩ := change.mutation_ids
  rw [auditEvent, change.mutationEvent_of_carriedBy hcarried outcome.response, Option.map_some,
    Option.some.injEq] at hevent
  have hstored := Event.storedAs_of_toRow hrow
  subst hevent
  have hcolumn := hstored.resourceID
  rw [hresource] at hcolumn
  exact ⟨eq_of_varcharColumn hvalid.1 hcolumn,
    (eq_of_metadataColumn hstored.metadata).trans hmetadata⟩

/-- After a request that passed validation, its event is found under the id of the row
that the statements addressed, and names the related row by its id, exactly if the
request spelled both ids in lower case.  The trail may have grown since. -/
theorem event_found_iff_lower {codec : CursorCodec} (hcodec : codec.Lawful) (config : Config P)
    (env : Env) {change : Change} (hvalid : change.Valid) {req : Body P}
    (hcarried : change.CarriedBy config.generated req)
    (handler : Context → Body P → Directory → Result P × Directory) (ctx : Context) (s : State)
    {row : Row} (hnew : row ∈ (execution config env change.method handler ctx req s).2.audit)
    (hold : row ∉ s.audit) {rows : List Row} (hrow : row ∈ rows)
    (hids : (rows.map Row.id).Nodup) (hstorable : ∀ row ∈ rows, Storable row.occurredAt) :
    ((∀ id, change.row = some id → Found codec id.text rows row) ∧
      ∀ entry ∈ change.related, ∀ id, change.relatedRow = some id →
        row.metadata = [(entry.1, id.text)]) ↔
      change.Lower := by
  obtain ⟨hresource, hmetadata⟩ := ids_of_new_row config env hvalid hcarried handler ctx s hnew hold
  obtain ⟨hfirst, hsecond⟩ := Change.row_of_valid hvalid
  apply and_congr
  · obtain ⟨id, hparse, hlower⟩ := UUID.parse_of_isUuid hvalid.1
    rw [hfirst, hparse, ← hlower]
    simp only [Option.some.injEq, forall_eq', found_iff hcodec hids hstorable hrow, hresource]
    exact eq_comm
  · cases hrelated : change.related with
    | none => simp
    | some entry =>
        obtain ⟨id, hparse, hlower⟩ := UUID.parse_of_isUuid (hvalid.2 entry hrelated)
        rw [hrelated, Option.bind_some, hparse] at hsecond
        rw [hrelated] at hmetadata
        simp only [Option.mem_def, Option.some.injEq, forall_eq', hsecond, hmetadata, ← hlower,
          Option.toList_some, List.cons.injEq, and_true]
        rw [Prod.ext_iff]
        exact ⟨fun h => h.2.symm, fun h => ⟨rfl, h.symm⟩⟩

/-! ## A user whose id has a letter -/

/-- The sample server, whose requests name this user and this role. -/
def spelledConfig (userID roleID : String) : Config Protobuf.sample :=
  { sampleConfig with
    generated :=
      { sampleConfig.generated with assignRoleRequest := fun _ => some (userID, roleID) } }

/-- A server with one user. -/
def letterState : State :=
  { sampleState with
    directory :=
      { sampleState.directory with
        users := [⟨.ofNat 10, "Ada", "ada@example.org", "", true, "local", "", 0, 0⟩] } }

/-- The handler of `AssignRole`, for any role. -/
def assignRoleHandler (userID roleID : String) :
    Context → Body Protobuf.sample → Directory → Result Protobuf.sample × Directory :=
  fun _ _ directory =>
    match Rbac.insertPair (fun pair => directory.users.any fun user => user.id = pair.1) userID
        roleID directory.rbac.userRoles with
    | some pairs =>
        (.returned ⟨.message (), none⟩,
          { directory with rbac := { directory.rbac with userRoles := pairs } })
    | none =>
        (.returned ⟨.other, Apierror.new Protobuf.sample .internal "ROLE_ASSIGNMENT_FAILED"
          "assign role failed" []⟩, directory)

/-- The server after the request. -/
def assignedState (userID roleID : String) : State :=
  (execution (spelledConfig userID roleID) (sampleEnv 100 0) "/rbac.v1.RBACService/AssignRole"
    (assignRoleHandler userID roleID) assigningContext (.message ()) letterState).2

/-- In lower case. -/
theorem event_found_lower_case :
    ∃ row, (assignedState "00000000-0000-0000-0000-00000000000a"
        "00000000-0000-0000-0000-000000000005").audit = [row] ∧
      Found .sample (UUID.ofNat 10).text [row] row ∧
      row.metadata = [("role_id", (UUID.ofNat 5).text)] := by
  have htimes : (assignedState "00000000-0000-0000-0000-00000000000a"
      "00000000-0000-0000-0000-000000000005").audit.map Row.occurredAt = [0] := by
    decide +kernel
  obtain ⟨row, htrail, htime⟩ := List.map_eq_singleton_iff.mp htimes
  have hstorable : Storable row.occurredAt := by
    rw [htime]
    decide
  have hiff := event_found_iff_lower lawful_sample
    (spelledConfig "00000000-0000-0000-0000-00000000000a" "00000000-0000-0000-0000-000000000005")
    (sampleEnv 100 0)
    (show (Change.rbac (.assignRole "00000000-0000-0000-0000-00000000000a"
      "00000000-0000-0000-0000-000000000005")).Valid by decide +kernel)
    (show Change.CarriedBy _ (.message ()) _ from ⟨(), rfl, rfl⟩)
    (assignRoleHandler "00000000-0000-0000-0000-00000000000a"
      "00000000-0000-0000-0000-000000000005") assigningContext letterState
    (show row ∈ (assignedState _ _).audit from htrail ▸ List.mem_singleton_self row)
    List.not_mem_nil (List.mem_singleton_self row) (List.nodup_singleton _)
    (List.forall_mem_singleton.mpr hstorable)
  obtain ⟨hfound, hrelated⟩ := hiff.mpr (by decide +kernel)
  exact ⟨row, htrail, hfound _ (by decide +kernel),
    hrelated ("role_id", "00000000-0000-0000-0000-000000000005") rfl _ (by decide +kernel)⟩

/-- In upper case the rule passes and the user is given the role, but the list does not
find the event under the id of the user. -/
theorem event_lost_upper_case :
    ¬ ∀ (userID roleID : String) (role : UUID),
      (Change.rbac (.assignRole userID roleID)).Valid →
      ∀ user ∈ (assignedState userID roleID).directory.users,
        (user.id, role) ∈ (assignedState userID roleID).directory.rbac.userRoles →
        ∀ row ∈ (assignedState userID roleID).audit,
          Found .sample user.id.text (assignedState userID roleID).audit row := by
  intro h
  have huser : (assignedState "00000000-0000-0000-0000-00000000000A"
      "00000000-0000-0000-0000-000000000005").directory.users.map Users.User.id =
        [.ofNat 10] := by
    decide +kernel
  have hassigned : (UUID.ofNat 10, UUID.ofNat 5) ∈
      (assignedState "00000000-0000-0000-0000-00000000000A"
        "00000000-0000-0000-0000-000000000005").directory.rbac.userRoles := by
    decide +kernel
  have hvalues : (assignedState "00000000-0000-0000-0000-00000000000A"
      "00000000-0000-0000-0000-000000000005").audit.map
        (fun row => (row.occurredAt, row.resourceID)) =
        [(0, "00000000-0000-0000-0000-00000000000A")] := by
    decide +kernel
  obtain ⟨row, htrail, hvalue⟩ := List.map_eq_singleton_iff.mp hvalues
  obtain ⟨htime, hresource⟩ := Prod.mk.inj hvalue
  have hstorable : Storable row.occurredAt := by
    rw [htime]
    decide
  obtain ⟨user, hmem, hid⟩ := List.mem_map.mp (huser ▸ List.mem_singleton_self _)
  have hfound := h _ _ (UUID.ofNat 5) (by decide +kernel) user hmem (hid ▸ hassigned) row
    (htrail ▸ List.mem_singleton_self row)
  have hids : ([row].map Row.id).Nodup := List.nodup_singleton _
  rw [htrail, found_iff lawful_sample hids (List.forall_mem_singleton.mpr hstorable)
    (List.mem_singleton_self row), hresource, hid] at hfound
  exact absurd hfound (by decide +kernel)

end GoFoundation.Audit
