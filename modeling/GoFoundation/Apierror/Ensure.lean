/-
# What `Ensure` does to an error

`Ensure` goes through the details of a status, writes the request id into every
`ErrorInfo` it can decode, and appends one of its own where there was none.  A
detail that does not decode or does not encode again is passed over in silence.

Every call of `Ensure` below has a runtime of its own, since the runtime may write one
message in another way each time.  What the runtimes share is how they decode.
-/

import GoFoundation.Grpc.ErrorInfo

namespace GoFoundation.Apierror

open Grpc

/-! ## The metadata entry -/

section RequestID

variable {info other : ErrorInfo} {requestID first second : GoString}

@[simp]
theorem withRequestID_reason : (withRequestID requestID info).reason = info.reason := by
  unfold withRequestID
  split <;> rfl

@[simp]
theorem withRequestID_domain : (withRequestID requestID info).domain = info.domain := by
  unfold withRequestID
  split <;> rfl

theorem withRequestID_nil : withRequestID [] info = info := if_pos rfl

theorem withRequestID_metadata (hid : requestID ≠ []) :
    (withRequestID requestID info).metadata = ("request_id", requestID) ::
      info.metadata.filter fun entry => entry.1 ≠ "request_id" := by
  rw [withRequestID, if_neg hid]

/-- The entries under other keys stay. -/
theorem withRequestID_others :
    ((withRequestID requestID info).metadata.filter fun entry => entry.1 ≠ "request_id") =
      info.metadata.filter fun entry => entry.1 ≠ "request_id" := by
  by_cases hid : requestID = []
  · rw [hid, withRequestID_nil]
  · rw [withRequestID_metadata hid]
    simp

theorem withRequestID_distinct (hdistinct : info.Distinct) :
    (withRequestID requestID info).Distinct := by
  by_cases hid : requestID = []
  · rw [hid, withRequestID_nil]
    exact hdistinct
  · rw [ErrorInfo.Distinct, withRequestID_metadata hid, List.map_cons, List.nodup_cons]
    apply And.intro
    · simp
    · exact hdistinct.sublist (List.filter_sublist.map _)

/-- Only the request id can keep a message that was read from being written. -/
theorem withRequestID_valid_iff (hvalid : info.Valid) :
    (withRequestID requestID info).Valid ↔ Go.validUtf8 requestID = true := by
  by_cases hid : requestID = []
  · subst hid
    rw [withRequestID_nil]
    exact ⟨fun _ => by decide, fun _ => hvalid⟩
  · rw [ErrorInfo.Valid, withRequestID_metadata hid, List.forall_mem_cons]
    exact ⟨And.left, fun h => ⟨h, fun entry hentry => hvalid entry (List.mem_of_mem_filter hentry)⟩⟩

theorem withRequestID_same (requestID : GoString) (h : info.Same other) :
    (withRequestID requestID info).Same (withRequestID requestID other) := by
  by_cases hid : requestID = []
  · rw [hid, withRequestID_nil, withRequestID_nil]
    exact h
  · apply ErrorInfo.Same.mk
    · rw [withRequestID_reason, withRequestID_reason, h.reason]
    · rw [withRequestID_domain, withRequestID_domain, h.domain]
    · rw [withRequestID_metadata hid, withRequestID_metadata hid]
      exact (h.metadata.filter _).cons _

/-- A later request id replaces an earlier one. -/
theorem withRequestID_withRequestID (hid : second = first ∨ second ≠ []) :
    withRequestID second (withRequestID first info) = withRequestID second info := by
  by_cases hsecond : second = []
  · obtain rfl : first = [] := by
      cases hid with
      | inl heq => rw [← heq, hsecond]
      | inr hne => exact absurd hsecond hne
    rw [hsecond, withRequestID_nil]
  · unfold withRequestID
    rw [if_neg hsecond]
    split
    · rfl
    · simp

end RequestID

/-! ## One detail -/

section Detail

variable {P Q R : Protobuf} {requestID first second : GoString} {detail : AnyMessage}

theorem ensureDetail_of_none (hnone : P.errorInfoOf detail = none) :
    ensureDetail P requestID detail = (detail, false) := by
  rw [ensureDetail, hnone]

/-- A request id that is not UTF-8 is written nowhere. -/
theorem ensureDetail_of_invalid (hP : P.LawfulErrorInfo)
    (hinvalid : Go.validUtf8 requestID = false) :
    ensureDetail P requestID detail = (detail, false) := by
  cases hinfo : P.errorInfoOf detail with
  | none => exact ensureDetail_of_none hinfo
  | some info =>
      obtain ⟨hdistinct, hvalid⟩ := errorInfoOf_spec hP hinfo
      have hnone : P.anyOf (.errorInfo (withRequestID requestID info)) = none := by
        apply Option.eq_none_iff_forall_ne_some.mpr
        intro encoded hencoded
        have := (anyOf_eq_some_iff hP (withRequestID_distinct hdistinct)).mp ⟨encoded, hencoded⟩
        rw [withRequestID_valid_iff hvalid, hinvalid] at this
        cases this
      simp only [ensureDetail, hinfo, hnone]

/-- Every other request id is written into every `ErrorInfo`. -/
theorem ensureDetail_of_valid (hP : P.LawfulErrorInfo) (hid : Go.validUtf8 requestID = true)
    {info : ErrorInfo} (hinfo : P.errorInfoOf detail = some info) :
    ∃ encoded, P.anyOf (.errorInfo (withRequestID requestID info)) = some encoded ∧
      ensureDetail P requestID detail = (encoded, true) := by
  obtain ⟨hdistinct, hvalid⟩ := errorInfoOf_spec hP hinfo
  obtain ⟨encoded, hencoded⟩ := (anyOf_eq_some_iff hP (withRequestID_distinct hdistinct)).mpr
    ((withRequestID_valid_iff hvalid).mpr hid)
  refine ⟨encoded, hencoded, ?_⟩
  simp only [ensureDetail, hinfo, hencoded]

/-- What `Ensure` keeps of a detail: all of it, or all but the request id. -/
def Kept (P : Protobuf) (detail kept : AnyMessage) : Prop :=
  (P.errorInfoOf detail = none → kept = detail) ∧
    ∀ info, P.errorInfoOf detail = some info → ∃ info', P.errorInfoOf kept = some info' ∧
      info'.reason = info.reason ∧ info'.domain = info.domain ∧
      (info'.metadata.filter fun entry => entry.1 ≠ "request_id").Perm
        (info.metadata.filter fun entry => entry.1 ≠ "request_id")

theorem kept_refl : Kept P detail detail :=
  ⟨fun _ => rfl, fun info hinfo => ⟨info, hinfo, rfl, rfl, .refl _⟩⟩

theorem kept_ensureDetail (hP : P.LawfulErrorInfo) :
    Kept P detail (ensureDetail P requestID detail).1 := by
  cases hid : Go.validUtf8 requestID with
  | false =>
      rw [ensureDetail_of_invalid hP hid]
      exact kept_refl
  | true =>
      apply And.intro
      · intro hnone
        rw [ensureDetail_of_none hnone]
      · intro info hinfo
        obtain ⟨encoded, hencoded, heq⟩ := ensureDetail_of_valid hP hid hinfo
        obtain ⟨info', hinfo', hsame⟩ := errorInfoOf_anyOf hP
          (withRequestID_distinct (errorInfoOf_spec hP hinfo).1) hencoded
        rw [heq]
        refine ⟨info', hinfo', ?_, ?_, ?_⟩
        · rw [hsame.reason, withRequestID_reason]
        · rw [hsame.domain, withRequestID_domain]
        · have hothers := hsame.metadata.filter fun entry => entry.1 ≠ "request_id"
          rwa [withRequestID_others] at hothers

/-- The same detail, or the same `ErrorInfo` written by two runtimes. -/
def Written (Q R : Protobuf) (detail other : AnyMessage) : Prop :=
  detail = other ∨ ∃ info info' : ErrorInfo, info.Distinct ∧ info'.Distinct ∧ info.Same info' ∧
    Q.anyOf (.errorInfo info) = some detail ∧ R.anyOf (.errorInfo info') = some other

theorem Written.refl : Written Q R detail detail := Or.inl rfl

/-- What two runtimes write for one message is the same message to a third. -/
theorem Written.sameDetail (hQ : Q.LawfulErrorInfo) (hR : R.LawfulErrorInfo)
    (hdecodeQ : Q.unmarshalErrorInfo = P.unmarshalErrorInfo)
    (hdecodeR : R.unmarshalErrorInfo = P.unmarshalErrorInfo) {other : AnyMessage}
    (h : Written Q R detail other) : P.SameDetail detail other := by
  cases h with
  | inl heq => exact Or.inl heq
  | inr h =>
      obtain ⟨info, info', hdistinct, hdistinct', hsame, hdetail, hother⟩ := h
      obtain ⟨read, hread, hsameQ⟩ := errorInfoOf_anyOf hQ hdistinct hdetail
      obtain ⟨read', hread', hsameR⟩ := errorInfoOf_anyOf hR hdistinct' hother
      rw [errorInfoOf_congr hdecodeQ] at hread
      rw [errorInfoOf_congr hdecodeR] at hread'
      refine Or.inr ⟨?_, read, read', hread, hread', (hsameQ.trans hsame).trans hsameR.symm⟩
      rw [typeURL_anyOf hdetail, typeURL_anyOf hother]

/-- A deterministic runtime writes one message in one way. -/
theorem Written.eq (hP : P.Deterministic) {other : AnyMessage} (h : Written P P detail other) :
    detail = other := by
  cases h with
  | inl heq => exact heq
  | inr h =>
      obtain ⟨info, info', -, -, hsame, hdetail, hother⟩ := h
      have hmarshal : P.anyOf (.errorInfo info) = P.anyOf (.errorInfo info') := by
        show (P.marshalDetail _).map _ = (P.marshalDetail _).map _
        rw [hP info info' hsame]
        rfl
      rw [hmarshal, hother] at hdetail
      exact (Option.some.inj hdetail).symm

/-- Two runtimes go through a detail in the same way. -/
theorem written_ensureDetail (hQ : Q.LawfulErrorInfo) (hR : R.LawfulErrorInfo)
    (hdecode : Q.unmarshalErrorInfo = R.unmarshalErrorInfo) (hid : Go.validUtf8 requestID = true) :
    Written Q R (ensureDetail Q requestID detail).1 (ensureDetail R requestID detail).1 := by
  have hsees := errorInfoOf_congr hdecode detail
  cases hinfo : R.errorInfoOf detail with
  | none =>
      rw [ensureDetail_of_none hinfo, ensureDetail_of_none (hsees.trans hinfo)]
      exact Written.refl
  | some info =>
      obtain ⟨encoded, hencoded, heq⟩ := ensureDetail_of_valid hR hid hinfo
      obtain ⟨encoded', hencoded', heq'⟩ := ensureDetail_of_valid hQ hid (hsees.trans hinfo)
      have hdistinct : (withRequestID requestID info).Distinct :=
        withRequestID_distinct (errorInfoOf_spec hR hinfo).1
      rw [heq, heq']
      exact Or.inr ⟨_, _, hdistinct, hdistinct, .refl _, hencoded', hencoded⟩

/-- A second pass over an `ErrorInfo` that the first pass wrote: the second request id
takes the place of the first. -/
theorem written_ensureDetail_anyOf (hP : P.LawfulErrorInfo) (hQ : Q.LawfulErrorInfo)
    (hdecode : Q.unmarshalErrorInfo = P.unmarshalErrorInfo)
    (habsorbs : second = first ∨ second ≠ []) (hsecond : Go.validUtf8 second = true)
    {info : ErrorInfo} (hdistinct : info.Distinct) {encoded once : AnyMessage}
    (hencoded : P.anyOf (.errorInfo (withRequestID first info)) = some encoded)
    (honce : R.anyOf (.errorInfo (withRequestID second info)) = some once) :
    Written Q R (ensureDetail Q second encoded).1 once := by
  obtain ⟨read, hread, hsame⟩ := errorInfoOf_anyOf hP (withRequestID_distinct hdistinct) hencoded
  have hreadQ : Q.errorInfoOf encoded = some read :=
    (errorInfoOf_congr hdecode encoded).trans hread
  obtain ⟨again, hagain, heq⟩ := ensureDetail_of_valid hQ hsecond hreadQ
  have hsame' : (withRequestID second read).Same (withRequestID second info) := by
    have hpass := withRequestID_same second hsame
    rwa [withRequestID_withRequestID habsorbs] at hpass
  rw [heq]
  exact Or.inr ⟨_, _, withRequestID_distinct (errorInfoOf_spec hQ hreadQ).1,
    withRequestID_distinct hdistinct, hsame', hagain, honce⟩

/-- A second pass over a detail makes up for the first. -/
theorem written_ensureDetail_ensureDetail (hP : P.LawfulErrorInfo) (hQ : Q.LawfulErrorInfo)
    (hR : R.LawfulErrorInfo) (hdecodeQ : Q.unmarshalErrorInfo = P.unmarshalErrorInfo)
    (hdecodeR : R.unmarshalErrorInfo = P.unmarshalErrorInfo)
    (habsorbs : second = first ∨ second ≠ []) (hfirst : Go.validUtf8 first = true)
    (hsecond : Go.validUtf8 second = true) :
    Written Q R (ensureDetail Q second (ensureDetail P first detail).1).1
      (ensureDetail R second detail).1 := by
  cases hinfo : P.errorInfoOf detail with
  | none =>
      rw [ensureDetail_of_none hinfo]
      exact written_ensureDetail hQ hR (hdecodeQ.trans hdecodeR.symm) hsecond
  | some info =>
      have hinfoR : R.errorInfoOf detail = some info :=
        (errorInfoOf_congr hdecodeR detail).trans hinfo
      obtain ⟨encoded, hencoded, heq⟩ := ensureDetail_of_valid hP hfirst hinfo
      obtain ⟨once, honce, heqR⟩ := ensureDetail_of_valid hR hsecond hinfoR
      rw [heq, heqR]
      exact written_ensureDetail_anyOf hP hQ hdecodeQ habsorbs hsecond
        (errorInfoOf_spec hP hinfo).1 hencoded honce

end Detail

/-! ## All details -/

/-- The details of the error that `Ensure` returns for a status with these. -/
def ensureDetails (P : Protobuf) (requestID : GoString) (code : Code) (details : List AnyMessage) :
    List AnyMessage :=
  (details.map (ensureDetail P requestID)).map Prod.fst ++
    if (details.map (ensureDetail P requestID)).any Prod.snd then []
    else (P.anyOf (.errorInfo (withRequestID requestID ⟨defaultReason code, domain, []⟩))).toList

theorem ensure_some (P : Protobuf) (err : GoError) (requestID : GoString) :
    ensure P (some err) requestID = errorProto { ensureBase err with
      details := ensureDetails P requestID (ensureBase err).code (ensureBase err).details } := rfl

section Details

variable {P Q R : Protobuf} {requestID first second : GoString} {code : Code}
  {details : List AnyMessage}

theorem default_distinct : ErrorInfo.Distinct ⟨defaultReason code, domain, []⟩ := List.nodup_nil

theorem default_valid : ErrorInfo.Valid ⟨defaultReason code, domain, []⟩ :=
  fun _ hentry => absurd hentry List.not_mem_nil

/-- The detail that `Ensure` adds can be written exactly if the request id can. -/
theorem exists_added_iff (hP : P.LawfulErrorInfo) :
    (∃ added, P.anyOf (.errorInfo
      (withRequestID requestID ⟨defaultReason code, domain, []⟩)) = some added) ↔
      Go.validUtf8 requestID = true := by
  rw [anyOf_eq_some_iff hP (withRequestID_distinct default_distinct),
    withRequestID_valid_iff default_valid]

/-- With a request id that is not UTF-8, `Ensure` changes nothing. -/
theorem ensureDetails_of_invalid (hP : P.LawfulErrorInfo)
    (hinvalid : Go.validUtf8 requestID = false) :
    ensureDetails P requestID code details = details := by
  have hnone : P.anyOf (.errorInfo
      (withRequestID requestID ⟨defaultReason code, domain, []⟩)) = none := by
    rw [← Option.not_isSome_iff_eq_none, Option.isSome_iff_exists, exists_added_iff hP, hinvalid]
    exact Bool.false_ne_true
  have hmap : details.map (ensureDetail P requestID) = details.map fun detail => (detail, false) :=
    List.map_congr_left fun detail _ => ensureDetail_of_invalid hP hinvalid
  rw [ensureDetails, hmap, hnone]
  simp [Function.comp_def]

/-- Without an `ErrorInfo`, one is added behind the details. -/
theorem ensureDetails_of_none (code : Code) (hP : P.LawfulErrorInfo)
    (hid : Go.validUtf8 requestID = true)
    (hnone : ∀ detail ∈ details, P.errorInfoOf detail = none) :
    ∃ added, P.anyOf (.errorInfo
      (withRequestID requestID ⟨defaultReason code, domain, []⟩)) = some added ∧
      ensureDetails P requestID code details = details ++ [added] := by
  obtain ⟨added, hadded⟩ := (exists_added_iff hP).mpr hid
  have hmap : details.map (ensureDetail P requestID) = details.map fun detail => (detail, false) :=
    List.map_congr_left fun detail hdetail => ensureDetail_of_none (hnone detail hdetail)
  refine ⟨added, hadded, ?_⟩
  rw [ensureDetails, hmap, hadded]
  simp [Function.comp_def]

/-- With an `ErrorInfo`, the details keep their number. -/
theorem ensureDetails_of_some (hP : P.LawfulErrorInfo) (hid : Go.validUtf8 requestID = true)
    {detail : AnyMessage} (hdetail : detail ∈ details) {info : ErrorInfo}
    (hinfo : P.errorInfoOf detail = some info) :
    ensureDetails P requestID code details =
      details.map fun detail => (ensureDetail P requestID detail).1 := by
  have hany : (details.map (ensureDetail P requestID)).any Prod.snd = true := by
    obtain ⟨encoded, -, heq⟩ := ensureDetail_of_valid hP hid hinfo
    rw [List.any_map, List.any_eq_true]
    exact ⟨detail, hdetail, congrArg Prod.snd heq⟩
  rw [ensureDetails, if_pos hany, List.append_nil, List.map_map]
  rfl

/-- Either no detail is an `ErrorInfo`, or one is. -/
theorem forall_none_or_exists_some (P : Protobuf) (details : List AnyMessage) :
    (∀ detail ∈ details, P.errorInfoOf detail = none) ∨
      ∃ detail ∈ details, ∃ info, P.errorInfoOf detail = some info := by
  by_cases hnone : ∀ detail ∈ details, P.errorInfoOf detail = none
  · exact Or.inl hnone
  · simp only [not_forall, ← ne_eq, Option.ne_none_iff_exists'] at hnone
    obtain ⟨detail, hdetail, hinfo⟩ := hnone
    exact Or.inr ⟨detail, hdetail, hinfo⟩

/-- The details that `Ensure` looks at, and behind them at most one of its own, which
is there only if no other is an `ErrorInfo`. -/
theorem ensureDetails_spec (hP : P.LawfulErrorInfo) (requestID : GoString) (code : Code)
    (details : List AnyMessage) :
    ∃ kept added, ensureDetails P requestID code details = kept ++ added ∧
      List.Forall₂ (Kept P) details kept ∧ added.length ≤ 1 ∧
      (added ≠ [] → kept = details ∧ ∀ detail ∈ details, P.errorInfoOf detail = none) := by
  cases hid : Go.validUtf8 requestID with
  | false =>
      refine ⟨details, [], ?_, List.forall₂_same.mpr fun _ _ => kept_refl, Nat.zero_le 1,
        fun h => absurd rfl h⟩
      rw [ensureDetails_of_invalid hP hid, List.append_nil]
  | true =>
      rcases forall_none_or_exists_some P details with hnone | ⟨detail, hdetail, info, hinfo⟩
      · obtain ⟨added, -, heq⟩ := ensureDetails_of_none code hP hid hnone
        exact ⟨details, [added], heq, List.forall₂_same.mpr fun _ _ => kept_refl, Nat.le_refl 1,
          fun _ => ⟨rfl, hnone⟩⟩
      · refine ⟨details.map fun detail => (ensureDetail P requestID detail).1, [], ?_, ?_,
          Nat.zero_le 1, fun h => absurd rfl h⟩
        · rw [ensureDetails_of_some hP hid hdetail hinfo, List.append_nil]
        · rw [List.forall₂_map_right_iff]
          exact List.forall₂_same.mpr fun _ _ => kept_ensureDetail hP

/-- Two runtimes go through the details in the same way. -/
theorem written_ensureDetails (hQ : Q.LawfulErrorInfo) (hR : R.LawfulErrorInfo)
    (hdecode : Q.unmarshalErrorInfo = R.unmarshalErrorInfo) (hid : Go.validUtf8 requestID = true) :
    List.Forall₂ (Written Q R) (ensureDetails Q requestID code details)
      (ensureDetails R requestID code details) := by
  rcases forall_none_or_exists_some R details with hnone | ⟨detail, hdetail, info, hinfo⟩
  · have hnoneQ : ∀ detail ∈ details, Q.errorInfoOf detail = none := fun detail hdetail =>
      (errorInfoOf_congr hdecode detail).trans (hnone detail hdetail)
    obtain ⟨added, hadded, heq⟩ := ensureDetails_of_none code hR hid hnone
    obtain ⟨added', hadded', heq'⟩ := ensureDetails_of_none code hQ hid hnoneQ
    have hdistinct : (withRequestID requestID ⟨defaultReason code, domain, []⟩).Distinct :=
      withRequestID_distinct default_distinct
    rw [heq, heq']
    apply List.rel_append
    · exact List.forall₂_same.mpr fun _ _ => Written.refl
    · exact .cons (Or.inr ⟨_, _, hdistinct, hdistinct, .refl _, hadded', hadded⟩) .nil
  · have hinfoQ : Q.errorInfoOf detail = some info :=
      (errorInfoOf_congr hdecode detail).trans hinfo
    rw [ensureDetails_of_some hR hid hdetail hinfo, ensureDetails_of_some hQ hid hdetail hinfoQ,
      List.forall₂_map_left_iff, List.forall₂_map_right_iff]
    exact List.forall₂_same.mpr fun _ _ => written_ensureDetail hQ hR hdecode hid

/-- A second pass over the details makes up for the first. -/
theorem written_ensureDetails_ensureDetails (hP : P.LawfulErrorInfo) (hQ : Q.LawfulErrorInfo)
    (hR : R.LawfulErrorInfo) (hdecodeQ : Q.unmarshalErrorInfo = P.unmarshalErrorInfo)
    (hdecodeR : R.unmarshalErrorInfo = P.unmarshalErrorInfo)
    (habsorbs : second = first ∨ second ≠ []) (hsecond : Go.validUtf8 second = true) :
    List.Forall₂ (Written Q R)
      (ensureDetails Q second code (ensureDetails P first code details))
      (ensureDetails R second code details) := by
  cases hfirst : Go.validUtf8 first with
  | false =>
      rw [ensureDetails_of_invalid hP hfirst]
      exact written_ensureDetails hQ hR (hdecodeQ.trans hdecodeR.symm) hsecond
  | true =>
      rcases forall_none_or_exists_some P details with hnone | ⟨detail, hdetail, info, hinfo⟩
      · -- The first pass adds an `ErrorInfo`, and the second one finds it.
        have hnoneR : ∀ detail ∈ details, R.errorInfoOf detail = none := fun detail hdetail =>
          (errorInfoOf_congr hdecodeR detail).trans (hnone detail hdetail)
        obtain ⟨added, hadded, heq⟩ := ensureDetails_of_none code hP hfirst hnone
        obtain ⟨once, honce, heqR⟩ := ensureDetails_of_none code hR hsecond hnoneR
        obtain ⟨read, hread, -⟩ :=
          errorInfoOf_anyOf hP (withRequestID_distinct default_distinct) hadded
        have hreadQ := (errorInfoOf_congr hdecodeQ added).trans hread
        rw [heq, heqR, ensureDetails_of_some hQ hsecond
          (List.mem_append_right _ (List.mem_singleton_self added)) hreadQ, List.map_append]
        apply List.rel_append
        · rw [List.forall₂_map_left_iff]
          apply List.forall₂_same.mpr
          intro detail hdetail
          have hnoneQ := (errorInfoOf_congr hdecodeQ detail).trans (hnone detail hdetail)
          rw [ensureDetail_of_none hnoneQ]
          exact Written.refl
        · exact .cons (written_ensureDetail_anyOf hP hQ hdecodeQ habsorbs hsecond default_distinct
            hadded honce) .nil
      · -- The first pass rewrites each `ErrorInfo` where it stands.
        have hinfoR := (errorInfoOf_congr hdecodeR detail).trans hinfo
        obtain ⟨encoded, hencoded, heq⟩ := ensureDetail_of_valid hP hfirst hinfo
        obtain ⟨read, hread, -⟩ := errorInfoOf_anyOf hP
          (withRequestID_distinct (errorInfoOf_spec hP hinfo).1) hencoded
        have hreadQ := (errorInfoOf_congr hdecodeQ encoded).trans hread
        have hmem : encoded ∈ details.map fun detail => (ensureDetail P first detail).1 :=
          List.mem_map.mpr ⟨detail, hdetail, congrArg Prod.fst heq⟩
        rw [ensureDetails_of_some hP hfirst hdetail hinfo,
          ensureDetails_of_some hR hsecond hdetail hinfoR,
          ensureDetails_of_some hQ hsecond hmem hreadQ, List.map_map,
          List.forall₂_map_left_iff, List.forall₂_map_right_iff]
        exact List.forall₂_same.mpr fun _ _ => written_ensureDetail_ensureDetail hP hQ hR hdecodeQ
          hdecodeR habsorbs hfirst hsecond

end Details

/-! ## The error -/

section Error

variable {P Q R : Protobuf}

/-- The status of a status error is the one that `Ensure` starts from. -/
theorem ensureBase_of_status {err : GoError} (hstatus : (fromError err).2 = true) :
    ensureBase err = (fromError err).1 := if_pos hstatus

/-- A second `Ensure` starts from the status that the first one returned. -/
theorem ensure_ensure (err : GoError) (first second : GoString) :
    ensure Q (ensure P (some err) first) second =
      errorProto { ensureBase err with
        details := ensureDetails Q second (ensureBase err).code
          (ensureDetails P first (ensureBase err).code (ensureBase err).details) } := by
  by_cases hcode : (ensureBase err).code = .ok
  · rw [ensure_some, errorProto, if_pos hcode, errorProto, if_pos hcode]
    rfl
  · rw [ensure_some, errorProto, if_neg hcode, ensure_some]
    rfl

theorem sameError_errorProto {value : Status} {details details' : List AnyMessage}
    (hdetails : List.Forall₂ P.SameDetail details details') :
    P.SameError (errorProto { value with details := details })
      (errorProto { value with details := details' }) := by
  by_cases hcode : value.code = .ok
  · rw [errorProto, if_pos hcode, errorProto, if_pos hcode]
    exact .nil
  · rw [errorProto, if_neg hcode, errorProto, if_neg hcode]
    exact .status ⟨rfl, rfl, hdetails⟩

/-- A request id that cannot be written leaves the status as it is, however often. -/
theorem ensure_ensure_of_invalid (hP : P.LawfulErrorInfo) (hQ : Q.LawfulErrorInfo)
    (hR : R.LawfulErrorInfo) (err : Option GoError) {requestID : GoString}
    (hinvalid : Go.validUtf8 requestID = false) :
    ensure Q (ensure P err requestID) requestID = ensure R err requestID := by
  cases err with
  | none => rfl
  | some err =>
      rw [ensure_ensure, ensure_some, ensureDetails_of_invalid hP hinvalid,
        ensureDetails_of_invalid hQ hinvalid, ensureDetails_of_invalid hR hinvalid]

theorem sameError_refl (P : Protobuf) (value : Status) :
    P.SameError (errorProto value) (errorProto value) :=
  sameError_errorProto (List.forall₂_same.mpr fun _ _ => Or.inl rfl)

/-- `Ensure` after `Ensure` returns the message that the second call returns alone, if
it has the request id of the first or one that replaces it. -/
theorem sameError_ensure_ensure (hP : P.LawfulErrorInfo) (hQ : Q.LawfulErrorInfo)
    (hR : R.LawfulErrorInfo) (hdecodeQ : Q.unmarshalErrorInfo = P.unmarshalErrorInfo)
    (hdecodeR : R.unmarshalErrorInfo = P.unmarshalErrorInfo) (err : Option GoError)
    {first second : GoString} (habsorbs : second = first ∨ second ≠ [])
    (hsecond : Go.validUtf8 second = true) :
    P.SameError (ensure Q (ensure P err first) second) (ensure R err second) := by
  cases err with
  | none => exact .nil
  | some err =>
      rw [ensure_ensure, ensure_some]
      apply sameError_errorProto
      exact (written_ensureDetails_ensureDetails hP hQ hR hdecodeQ hdecodeR habsorbs hsecond).imp
        fun _ _ => Written.sameDetail hQ hR hdecodeQ hdecodeR

/-- A deterministic runtime even returns the same bytes. -/
theorem ensure_ensure_eq (hP : P.LawfulErrorInfo) (hdeterministic : P.Deterministic)
    (err : Option GoError) {first second : GoString} (habsorbs : second = first ∨ second ≠ [])
    (hsecond : Go.validUtf8 second = true) :
    ensure P (ensure P err first) second = ensure P err second := by
  cases err with
  | none => rfl
  | some err =>
      have hdetails : ∀ code details,
          ensureDetails P second code (ensureDetails P first code details) =
            ensureDetails P second code details := by
        intro code details
        rw [← List.forall₂_eq_eq_eq]
        exact (written_ensureDetails_ensureDetails hP hP hP rfl rfl habsorbs hsecond).imp
          fun _ _ => Written.eq hdeterministic
      rw [ensure_ensure, hdetails, ensure_some]

/-- `Ensure` keeps what it is given, and calling it again with the request id of the
first call, or with one that can take its place, makes no difference to the message. -/
theorem ensure_preserves_and_absorbs (hP : P.LawfulErrorInfo) (hQ : Q.LawfulErrorInfo)
    (hR : R.LawfulErrorInfo) (hdecodeQ : Q.unmarshalErrorInfo = P.unmarshalErrorInfo)
    (hdecodeR : R.unmarshalErrorInfo = P.unmarshalErrorInfo) :
    (∀ (err : GoError) (requestID : GoString), (fromError err).2 = true →
      (fromError err).1.code ≠ .ok →
      ∃ kept added, ensure P (some err) requestID = some (.status
          ⟨(fromError err).1.code, (fromError err).1.message, kept ++ added⟩) ∧
        List.Forall₂ (Kept P) (fromError err).1.details kept ∧ added.length ≤ 1 ∧
        (added ≠ [] → kept = (fromError err).1.details ∧
          ∀ detail ∈ (fromError err).1.details, P.errorInfoOf detail = none)) ∧
    (∀ (err : Option GoError) (requestID : GoString),
      P.SameError (ensure Q (ensure P err requestID) requestID) (ensure R err requestID)) ∧
    (∀ (err : Option GoError) (first second : GoString), second ≠ [] →
      Go.validUtf8 second = true →
      P.SameError (ensure Q (ensure P err first) second) (ensure R err second)) ∧
    (P.Deterministic → ∀ (err : Option GoError) (first second : GoString),
      second = first ∨ second ≠ [] ∧ Go.validUtf8 second = true →
      ensure P (ensure P err first) second = ensure P err second) := by
  refine ⟨?_, ?_, ?_, ?_⟩
  · intro err requestID hstatus hcode
    obtain ⟨kept, added, hdetails, hkept, hlength, hadded⟩ :=
      ensureDetails_spec hP requestID (fromError err).1.code (fromError err).1.details
    refine ⟨kept, added, ?_, hkept, hlength, hadded⟩
    rw [ensure_some, ensureBase_of_status hstatus, hdetails]
    exact errorProto_of_ne_ok hcode
  · intro err requestID
    cases hid : Go.validUtf8 requestID with
    | true => exact sameError_ensure_ensure hP hQ hR hdecodeQ hdecodeR err (Or.inl rfl) hid
    | false =>
        rw [ensure_ensure_of_invalid hP hQ hR err hid]
        cases err with
        | none => exact .nil
        | some err => exact sameError_refl P _
  · intro err first second hne hsecond
    exact sameError_ensure_ensure hP hQ hR hdecodeQ hdecodeR err (Or.inr hne) hsecond
  · intro hdeterministic err first second hid
    cases hsecond : Go.validUtf8 second with
    | true => exact ensure_ensure_eq hP hdeterministic err (hid.imp_right And.left) hsecond
    | false =>
        obtain rfl : second = first := hid.resolve_right fun h => by simp [hsecond] at h
        exact ensure_ensure_of_invalid hP hP hP err hsecond

end Error

/-- A `NotFound` error with an `ErrorInfo`, which `Ensure` sees twice. -/
theorem ensure_preserves_and_absorbs_notFound :
    (∃ kept added, ensure .wire (some (.status ⟨.notFound, "no",
          (Protobuf.wire.anyOf (.errorInfo ⟨"USER_NOT_FOUND", domain, []⟩)).toList⟩)) [0x61] =
        some (.status ⟨.notFound, "no", kept ++ added⟩) ∧
      List.Forall₂ (Kept .wire)
        (Protobuf.wire.anyOf (.errorInfo ⟨"USER_NOT_FOUND", domain, []⟩)).toList kept ∧
      added.length ≤ 1) ∧
    Protobuf.wire.SameError (ensure .wire (ensure .wire (some .canceled) [0x61]) [0x62])
      (ensure .wire (some .canceled) [0x62]) ∧
    ensure .wire (ensure .wire (some .canceled) [0x61]) [0x61] =
      ensure .wire (some .canceled) [0x61] := by
  have h := ensure_preserves_and_absorbs Protobuf.lawfulErrorInfo_wire
    Protobuf.lawfulErrorInfo_wire Protobuf.lawfulErrorInfo_wire rfl rfl
  obtain ⟨kept, added, hensure, hkept, hlength, -⟩ := h.1 (.status ⟨.notFound, "no",
    (Protobuf.wire.anyOf (.errorInfo ⟨"USER_NOT_FOUND", domain, []⟩)).toList⟩) [0x61] rfl
    (by decide)
  exact ⟨⟨kept, added, hensure, hkept, hlength⟩,
    h.2.2.1 (some .canceled) [0x61] [0x62] (by decide) (by decide),
    h.2.2.2 Protobuf.deterministic_wire (some .canceled) [0x61] [0x61] (Or.inl rfl)⟩

/-! ## What an error says -/

section Text

variable {err other : GoError}

theorem fromError_of_plain (hplain : err.findStatus = none) :
    fromError err = (⟨.unknown, err.text, []⟩, false) := by
  cases err with
  | status value => cases hplain
  | canceled => rfl
  | deadlineExceeded => rfl
  | plain text => rfl
  | wrap text inner => simp [fromError, hplain]
  | join text first second => simp [fromError, hplain]

/-- A chain is read through the first status in it, whatever text is around it. -/
theorem fromError_of_findStatus {value : Status} (hfind : err.findStatus = some value) :
    ∃ message, fromError err = ({ value with message := message }, true) := by
  cases err with
  | status own =>
      cases hfind
      exact ⟨value.message, rfl⟩
  | canceled => cases hfind
  | deadlineExceeded => cases hfind
  | plain text => cases hfind
  | wrap text inner => exact ⟨(GoError.wrap text inner).text, by simp [fromError, hfind]⟩
  | join text first second =>
      exact ⟨(GoError.join text first second).text, by simp [fromError, hfind]⟩

/-- The status that `Ensure` makes for an error without one.  Only an error of a context
lends it its text. -/
theorem ensureBase_of_plain (hplain : err.findStatus = none) :
    ensureBase err =
      if err.isDeadlineExceeded then ⟨.deadlineExceeded, err.text, []⟩
      else if err.isCanceled then ⟨.canceled, err.text, []⟩
      else ⟨.internal, "internal server error", []⟩ := by
  rw [ensureBase, fromError_of_plain hplain, fromContextError]
  cases err.isDeadlineExceeded <;> cases err.isCanceled <;> rfl

theorem ensureBase_code_ne_ok (hplain : err.findStatus = none) : (ensureBase err).code ≠ .ok := by
  rw [ensureBase_of_plain hplain]
  cases err.isDeadlineExceeded <;> cases err.isCanceled <;> exact Code.noConfusion

/-- The client sees the message of that status. -/
theorem ensure_message (P : Protobuf) (requestID : GoString) (hplain : err.findStatus = none) :
    ∃ value : Status, ensure P (some err) requestID = some (.status value) ∧
      value.message = (ensureBase err).message :=
  ⟨_, errorProto_of_ne_ok (ensureBase_code_ne_ok hplain), rfl⟩

/-- Two errors without a status and of the same kind are returned alike exactly if they
are no errors of a context, or say the same. -/
theorem ensure_eq_iff_text (P : Protobuf) (requestID : GoString)
    (herr : err.findStatus = none) (hother : other.findStatus = none)
    (hcanceled : err.isCanceled = other.isCanceled)
    (hdeadline : err.isDeadlineExceeded = other.isDeadlineExceeded) :
    ensure P (some err) requestID = ensure P (some other) requestID ↔
      err.isCanceled = false ∧ err.isDeadlineExceeded = false ∨ err.text = other.text := by
  apply Iff.intro
  · intro heq
    obtain ⟨value, hvalue, hmessage⟩ := ensure_message P requestID herr
    obtain ⟨value', hvalue', hmessage'⟩ := ensure_message P requestID hother
    obtain rfl : value = value' := by
      rw [hvalue, hvalue'] at heq
      cases heq
      rfl
    rw [hmessage, ensureBase_of_plain herr, ensureBase_of_plain hother, ← hcanceled,
      ← hdeadline] at hmessage'
    cases hd : err.isDeadlineExceeded <;> cases hc : err.isCanceled <;>
      simp only [hd, hc, Bool.false_eq_true, if_true, if_false] at hmessage'
    · exact Or.inl ⟨rfl, rfl⟩
    · exact Or.inr hmessage'
    · exact Or.inr hmessage'
    · exact Or.inr hmessage'
  · intro hcond
    have hbase : ensureBase err = ensureBase other := by
      rw [ensureBase_of_plain herr, ensureBase_of_plain hother, ← hcanceled, ← hdeadline]
      rcases hcond with ⟨hc, hd⟩ | htext
      · rw [hc, hd]
        rfl
      · rw [htext]
    rw [ensure_some, ensure_some, hbase]

/-- A database error, and another one, both of no context. -/
theorem ensure_hides_plain :
    ensure .wire (some (.wrap "query users: connection refused" (.plain "connection refused")))
        [0x61] =
      ensure .wire (some (.plain "disk full")) [0x61] :=
  (ensure_eq_iff_text .wire [0x61] rfl rfl rfl rfl).mpr (Or.inl ⟨rfl, rfl⟩)

/-- A query that the client cancelled, and the bare error of its context: the first one
tells the client which host was asked. -/
theorem ensure_shows_canceled :
    ¬ ∀ (requestID : GoString) (err other : GoError), err.findStatus = none →
      other.findStatus = none → err.isCanceled = other.isCanceled →
      err.isDeadlineExceeded = other.isDeadlineExceeded →
      ensure .wire (some err) requestID = ensure .wire (some other) requestID := by
  intro h
  have heq := h [0x61] (.wrap "query users at 10.0.0.5: context canceled" .canceled) .canceled
    rfl rfl rfl rfl
  obtain ⟨value, hvalue, hmessage⟩ := ensure_message .wire [0x61]
    (show (GoError.wrap "query users at 10.0.0.5: context canceled" .canceled).findStatus = none
      from rfl)
  obtain ⟨value', hvalue', hmessage'⟩ := ensure_message .wire [0x61]
    (show GoError.canceled.findStatus = none from rfl)
  rw [hvalue, hvalue'] at heq
  cases heq
  rw [hmessage] at hmessage'
  exact absurd hmessage' (by decide)

end Text

end GoFoundation.Apierror
