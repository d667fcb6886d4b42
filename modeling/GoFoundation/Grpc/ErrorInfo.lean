/-
# `ErrorInfo` and its encoding

What results about `Ensure` need of the protobuf runtime.  The metadata of an
`ErrorInfo` is a map.  Its entries may be written in any order, and in another order
each time, so two statuses are compared as messages: an `ErrorInfo` by what it holds,
and everything else by its bytes.

The wire format at the end is a runtime with these properties.
-/

import Mathlib.Data.List.Forall2
import GoFoundation.Library.Wire
import GoFoundation.Go.Strings

namespace GoFoundation.Grpc

/-! ## The runtime on `ErrorInfo` -/

namespace ErrorInfo

/-- A map has each key once. -/
def Distinct (info : ErrorInfo) : Prop := (info.metadata.map Prod.fst).Nodup

/-- Every value is valid UTF-8. -/
def Valid (info : ErrorInfo) : Prop := ∀ entry ∈ info.metadata, Go.validUtf8 entry.2 = true

/-- The same message: the order of the entries means nothing. -/
structure Same (info other : ErrorInfo) : Prop where
  reason : info.reason = other.reason
  domain : info.domain = other.domain
  metadata : info.metadata.Perm other.metadata

theorem Same.refl (info : ErrorInfo) : info.Same info := ⟨rfl, rfl, .refl _⟩

theorem Same.symm {info other : ErrorInfo} (h : info.Same other) : other.Same info :=
  ⟨h.reason.symm, h.domain.symm, h.metadata.symm⟩

theorem Same.trans {first second third : ErrorInfo} (h : first.Same second)
    (h' : second.Same third) : first.Same third :=
  ⟨h.reason.trans h'.reason, h.domain.trans h'.domain, h.metadata.trans h'.metadata⟩

theorem Same.valid {info other : ErrorInfo} (h : info.Same other) (hvalid : other.Valid) :
    info.Valid :=
  fun entry hentry => hvalid entry (h.metadata.mem_iff.mp hentry)

end ErrorInfo

/-- The runtime on `ErrorInfo`: marshalling fails exactly on a string that is not
UTF-8, what was marshalled is read back, and what is read is a map of valid
strings. -/
structure Protobuf.LawfulErrorInfo (P : Protobuf) : Prop where
  isSome_marshal : ∀ info : ErrorInfo, info.Distinct →
    ((P.marshalDetail (.errorInfo info)).isSome = true ↔ info.Valid)
  unmarshal_marshal : ∀ (info : ErrorInfo) payload, info.Distinct →
    P.marshalDetail (.errorInfo info) = some payload →
    ∃ read, P.unmarshalErrorInfo payload = some read ∧ read.Same info
  unmarshal : ∀ payload info, P.unmarshalErrorInfo payload = some info →
    info.Distinct ∧ info.Valid

/-- A runtime that writes the same bytes for the same message. -/
def Protobuf.Deterministic (P : Protobuf) : Prop :=
  ∀ info other : ErrorInfo, info.Same other →
    P.marshalDetail (.errorInfo info) = P.marshalDetail (.errorInfo other)

/-- Two details are the same message. -/
def Protobuf.SameDetail (P : Protobuf) (detail other : AnyMessage) : Prop :=
  detail = other ∨ detail.typeURL = other.typeURL ∧ ∃ info info',
    P.errorInfoOf detail = some info ∧ P.errorInfoOf other = some info' ∧ info.Same info'

/-- Two statuses are the same message. -/
structure Protobuf.SameStatus (P : Protobuf) (value other : Status) : Prop where
  code : value.code = other.code
  message : value.message = other.message
  details : List.Forall₂ P.SameDetail value.details other.details

/-- Two errors carry the same status message, or both are nil. -/
inductive Protobuf.SameError (P : Protobuf) : Option GoError → Option GoError → Prop
  | nil : SameError P none none
  | status {value other : Status} (hsame : P.SameStatus value other) :
      SameError P (some (.status value)) (some (.status other))

section Any

variable {P Q : Protobuf}

theorem typeURL_anyOf {info : ErrorInfo} {detail : AnyMessage}
    (hany : P.anyOf (.errorInfo info) = some detail) :
    detail.typeURL = "type.googleapis.com/" ++ "google.rpc.ErrorInfo" := by
  obtain ⟨payload, -, rfl⟩ := Option.map_eq_some_iff.mp hany
  rfl

/-- An `ErrorInfo` that was written is read back. -/
theorem errorInfoOf_anyOf (hP : P.LawfulErrorInfo) {info : ErrorInfo} (hdistinct : info.Distinct)
    {detail : AnyMessage} (hany : P.anyOf (.errorInfo info) = some detail) :
    ∃ read, P.errorInfoOf detail = some read ∧ read.Same info := by
  obtain ⟨payload, hpayload, rfl⟩ := Option.map_eq_some_iff.mp hany
  obtain ⟨read, hread, hsame⟩ := hP.unmarshal_marshal info payload hdistinct hpayload
  refine ⟨read, ?_, hsame⟩
  have hends : ("type.googleapis.com/" ++ "google.rpc.ErrorInfo").endsWith
      ("/" ++ "google.rpc.ErrorInfo") = true := by decide +kernel
  have hmessage : (⟨"type.googleapis.com/" ++ "google.rpc.ErrorInfo", payload⟩ :
      AnyMessage).messageIs "google.rpc.ErrorInfo" = true := by
    rw [AnyMessage.messageIs, hends, Bool.or_true]
  show Protobuf.errorInfoOf P ⟨"type.googleapis.com/" ++ "google.rpc.ErrorInfo", payload⟩ =
    some read
  rw [Protobuf.errorInfoOf, if_pos hmessage]
  exact hread

/-- An `ErrorInfo` can be written exactly if its strings are valid. -/
theorem anyOf_eq_some_iff (hP : P.LawfulErrorInfo) {info : ErrorInfo}
    (hdistinct : info.Distinct) :
    (∃ detail, P.anyOf (.errorInfo info) = some detail) ↔ info.Valid := by
  rw [← hP.isSome_marshal info hdistinct, ← Option.isSome_iff_exists, Protobuf.anyOf,
    Option.isSome_map]

theorem errorInfoOf_spec (hP : P.LawfulErrorInfo) {detail : AnyMessage} {info : ErrorInfo}
    (hinfo : P.errorInfoOf detail = some info) : info.Distinct ∧ info.Valid := by
  unfold Protobuf.errorInfoOf at hinfo
  split at hinfo
  · exact hP.unmarshal detail.value info hinfo
  · cases hinfo

/-- Runtimes that decode alike see the same details. -/
theorem errorInfoOf_congr (hdecode : Q.unmarshalErrorInfo = P.unmarshalErrorInfo)
    (detail : AnyMessage) : Q.errorInfoOf detail = P.errorInfoOf detail := by
  rw [Protobuf.errorInfoOf, Protobuf.errorInfoOf, hdecode]

end Any

/-! ## The wire format -/

namespace ErrorInfo

open Library.Wire

/-- The bytes of a text. -/
def textBytes (text : String) : Bytes := text.toByteArray.data.toList

/-- The text of the bytes, which have to be UTF-8. -/
def readText (bytes : Bytes) : Option String := String.fromUTF8? ⟨bytes.toArray⟩

@[simp]
theorem readText_textBytes (text : String) : readText (textBytes text) = some text := by
  rw [readText, textBytes, Array.toArray_toList]
  exact dif_pos text.isValidUTF8

/-- An entry of the metadata is a message of its own. -/
def writeEntry (entry : String × GoString) : Bytes :=
  writeFields [(0x0A, textBytes entry.1), (0x12, entry.2)]

/-- The entry that a message holds. -/
def readEntry (bytes : Bytes) : Option (String × GoString) :=
  match readFields bytes with
  | some [(0x0A, key), (0x12, value)] =>
      if Go.validUtf8 value then (readText key).map (·, value) else none
  | _ => none

theorem readEntry_writeEntry {entry : String × GoString} (hvalid : Go.validUtf8 entry.2 = true) :
    readEntry (writeEntry entry) = some entry := by
  simp [readEntry, writeEntry, hvalid]

/-- The entries in the order of a deterministic runtime. -/
def sortedEntries (info : ErrorInfo) : List (String × GoString) :=
  info.metadata.mergeSort fun first second => writeEntry first ≤ writeEntry second

theorem sortedEntries_perm (info : ErrorInfo) : info.sortedEntries.Perm info.metadata :=
  List.mergeSort_perm _ _

/-- An empty text is not written. -/
def textField (tag : UInt8) (text : String) : List Field :=
  if text = "" then [] else [(tag, textBytes text)]

/-- The fields of an `ErrorInfo`. -/
def fields (info : ErrorInfo) : List Field :=
  textField 0x0A info.reason ++ textField 0x12 info.domain ++
    info.sortedEntries.map fun entry => (0x1A, writeEntry entry)

/-- `proto.Marshal`. -/
def marshal (info : ErrorInfo) : Option Bytes :=
  if info.metadata.all fun entry => Go.validUtf8 entry.2 then some (writeFields info.fields)
  else none

/-- The text of the field with the tag, which is empty if there is none. -/
def readTextField (tag : UInt8) (fields : List Field) : Option String :=
  readText ((fields.lookup tag).getD [])

/-- `proto.Unmarshal`. -/
def unmarshal (bytes : Bytes) : Option ErrorInfo := do
  let fields ← readFields bytes
  let reason ← readTextField 0x0A fields
  let domain ← readTextField 0x12 fields
  let metadata ← (fields.filter fun field => field.1 = 0x1A).mapM fun field => readEntry field.2
  if (metadata.map Prod.fst).Nodup then some ⟨reason, domain, metadata⟩ else none

theorem marshal_isSome {info : ErrorInfo} : info.marshal.isSome = true ↔ info.Valid := by
  unfold marshal Valid
  split
  · next h => simpa using h
  · next h => simpa using h

theorem lookup_textField_of_ne {tag other : UInt8} (hne : other ≠ tag) (text : String) :
    (textField tag text).lookup other = none := by
  unfold textField
  split
  · rfl
  · rw [List.lookup_cons, beq_false_of_ne hne]
    rfl

theorem lookup_entries_of_ne {tag : UInt8} (hne : tag ≠ 0x1A) (entries : List (String × GoString)) :
    (entries.map fun entry => ((0x1A, writeEntry entry) : Field)).lookup tag = none := by
  induction entries with
  | nil => rfl
  | cons entry entries ih =>
      rw [List.map_cons, List.lookup_cons, beq_false_of_ne hne]
      exact ih

theorem readText_lookup_textField (tag : UInt8) (text : String) :
    readText (((textField tag text).lookup tag).getD []) = some text := by
  by_cases hempty : text = ""
  · subst hempty
    exact readText_textBytes ""
  · simp [textField, hempty]

theorem readTextField_fields_reason (info : ErrorInfo) :
    readTextField 0x0A info.fields = some info.reason := by
  have hdomain : (textField 0x12 info.domain).lookup 0x0A = none :=
    lookup_textField_of_ne (by decide) _
  rw [readTextField, fields, List.lookup_append, List.lookup_append, hdomain,
    lookup_entries_of_ne (by decide), Option.or_none, Option.or_none, readText_lookup_textField]

theorem readTextField_fields_domain (info : ErrorInfo) :
    readTextField 0x12 info.fields = some info.domain := by
  have hreason : (textField 0x0A info.reason).lookup 0x12 = none :=
    lookup_textField_of_ne (by decide) _
  rw [readTextField, fields, List.lookup_append, List.lookup_append, hreason,
    lookup_entries_of_ne (by decide), Option.none_or, Option.or_none, readText_lookup_textField]

theorem filter_fields (info : ErrorInfo) :
    (info.fields.filter fun field => field.1 = 0x1A) =
      info.sortedEntries.map fun entry => (0x1A, writeEntry entry) := by
  have htext : ∀ tag text, tag ≠ 0x1A →
      ((textField tag text).filter fun field => field.1 = 0x1A) = [] := by
    intro tag text htag
    unfold textField
    split <;> simp [htag]
  rw [fields, List.filter_append, List.filter_append, htext _ _ (by decide),
    htext _ _ (by decide), List.nil_append, List.nil_append, List.filter_eq_self]
  intro field hfield
  obtain ⟨entry, -, rfl⟩ := List.mem_map.mp hfield
  rfl

theorem mapM_readEntry {entries : List (String × GoString)}
    (hvalid : ∀ entry ∈ entries, Go.validUtf8 entry.2 = true) :
    (entries.map fun entry => ((0x1A, writeEntry entry) : Field)).mapM
      (fun field => readEntry field.2) = some entries := by
  induction entries with
  | nil => rfl
  | cons entry entries ih =>
      have hhead := readEntry_writeEntry (hvalid entry List.mem_cons_self)
      have htail := ih fun entry hentry => hvalid entry (List.mem_cons_of_mem _ hentry)
      rw [List.map_cons, List.mapM_cons, htail, hhead]
      rfl

theorem valid_of_readEntry {bytes : Bytes} {entry : String × GoString}
    (hentry : readEntry bytes = some entry) : Go.validUtf8 entry.2 = true := by
  unfold readEntry at hentry
  split at hentry
  · split at hentry
    · next hvalid =>
        obtain ⟨key, -, rfl⟩ := Option.map_eq_some_iff.mp hentry
        exact hvalid
    · cases hentry
  · cases hentry

theorem valid_of_mapM_readEntry {fields : List Field} :
    ∀ {entries : List (String × GoString)},
      fields.mapM (fun field => readEntry field.2) = some entries →
      ∀ entry ∈ entries, Go.validUtf8 entry.2 = true := by
  induction fields with
  | nil =>
      intro entries hentries entry hentry
      cases hentries
      cases hentry
  | cons field fields ih =>
      intro entries hentries entry hentry
      simp only [List.mapM_cons, Option.bind_eq_bind, Option.bind_eq_some_iff,
        Option.pure_def, Option.some.injEq] at hentries
      obtain ⟨head, hhead, tail, htail, rfl⟩ := hentries
      cases hentry with
      | head => exact valid_of_readEntry hhead
      | tail _ hentry => exact ih htail entry hentry

theorem unmarshal_of_marshal {info : ErrorInfo} {bytes : Bytes} (hdistinct : info.Distinct)
    (hbytes : info.marshal = some bytes) :
    unmarshal bytes = some { info with metadata := info.sortedEntries } := by
  have hvalid : info.Valid := marshal_isSome.mp (by rw [hbytes]; rfl)
  have hentries := mapM_readEntry fun entry hentry =>
    hvalid entry (info.sortedEntries_perm.mem_iff.mp hentry)
  have hnodup : (info.sortedEntries.map Prod.fst).Nodup :=
    (info.sortedEntries_perm.map Prod.fst).nodup_iff.mpr hdistinct
  unfold marshal at hbytes
  split at hbytes
  · obtain rfl := Option.some.inj hbytes
    rw [unmarshal, readFields_writeFields]
    simp only [Option.bind_eq_bind, Option.bind_some, readTextField_fields_reason,
      readTextField_fields_domain, filter_fields, hentries, if_pos hnodup]
  · cases hbytes

theorem unmarshal_spec {bytes : Bytes} {info : ErrorInfo} (hinfo : unmarshal bytes = some info) :
    info.Distinct ∧ info.Valid := by
  simp only [unmarshal, Option.bind_eq_bind, Option.bind_eq_some_iff,
    Option.ite_none_right_eq_some, Option.some.injEq] at hinfo
  obtain ⟨fields, -, reason, -, domain, -, metadata, hmetadata, hnodup, rfl⟩ := hinfo
  exact ⟨hnodup, valid_of_mapM_readEntry hmetadata⟩

/-- The order in which the entries came does not show. -/
theorem writeEntry_sortedEntries {info other : ErrorInfo} (hsame : info.Same other) :
    info.sortedEntries.map writeEntry = other.sortedEntries.map writeEntry := by
  have hsorted : ∀ info : ErrorInfo, (info.sortedEntries.map writeEntry).Pairwise (· ≤ ·) := by
    intro info
    rw [List.pairwise_map]
    have hpairwise : info.sortedEntries.Pairwise fun first second =>
        decide (writeEntry first ≤ writeEntry second) = true := by
      apply List.pairwise_mergeSort
      · intro first second third hfirst hsecond
        exact decide_eq_true (List.le_trans (of_decide_eq_true hfirst) (of_decide_eq_true hsecond))
      · intro first second
        rw [Bool.or_eq_true, decide_eq_true_eq, decide_eq_true_eq]
        exact List.le_total (writeEntry first) (writeEntry second)
    exact hpairwise.imp fun hle => of_decide_eq_true hle
  have hperm : info.sortedEntries.Perm other.sortedEntries :=
    (info.sortedEntries_perm.trans hsame.metadata).trans other.sortedEntries_perm.symm
  exact (hperm.map writeEntry).eq_of_pairwise (fun _ _ _ _ => List.le_antisymm) (hsorted info)
    (hsorted other)

theorem marshal_congr {info other : ErrorInfo} (hsame : info.Same other) :
    info.marshal = other.marshal := by
  have hvalid : (info.metadata.all fun entry => Go.validUtf8 entry.2) =
      other.metadata.all fun entry => Go.validUtf8 entry.2 := hsame.metadata.all_eq
  have hentries : (info.sortedEntries.map fun entry => ((0x1A, writeEntry entry) : Field)) =
      other.sortedEntries.map fun entry => (0x1A, writeEntry entry) := by
    have hmap := congrArg (List.map fun bytes => ((0x1A, bytes) : Field))
      (writeEntry_sortedEntries hsame)
    rwa [List.map_map, List.map_map] at hmap
  rw [marshal, marshal, hvalid, fields, fields, hsame.reason, hsame.domain, hentries]

end ErrorInfo

/-- The runtime on `ErrorInfo`; concrete runs marshal no other detail. -/
def Protobuf.wire : Protobuf :=
  { Protobuf.sample with
    marshalDetail := fun
      | .errorInfo info => info.marshal
      | _ => none
    unmarshalErrorInfo := ErrorInfo.unmarshal }

theorem Protobuf.lawfulErrorInfo_wire : Protobuf.wire.LawfulErrorInfo where
  isSome_marshal _ _ := ErrorInfo.marshal_isSome
  unmarshal_marshal info _ hdistinct hpayload :=
    ⟨_, ErrorInfo.unmarshal_of_marshal hdistinct hpayload, rfl, rfl, info.sortedEntries_perm⟩
  unmarshal _ _ hinfo := ErrorInfo.unmarshal_spec hinfo

theorem Protobuf.deterministic_wire : Protobuf.wire.Deterministic :=
  fun _ _ hsame => ErrorInfo.marshal_congr hsame

end GoFoundation.Grpc
