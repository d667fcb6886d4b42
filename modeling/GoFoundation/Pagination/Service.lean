/-
# Listing in pages

`Service.List` of users and of audit events are one function up to the default
size, the filter and the column of the time, and so are the ends of their two
statements.  This module has the common part, the walk of a client that follows
`NextPageToken` while others insert rows, and the invariant of the walk.

The encoding of a cursor as JSON in base64 is not part of the repository; what
results need of it is `CursorCodec.Lawful`.
-/

import Mathlib.Data.Prod.Lex
import GoFoundation.Library.Keyset
import GoFoundation.Library.Table
import GoFoundation.Library.Transition
import GoFoundation.Postgres.Text

namespace GoFoundation.Pagination

open Library Postgres

/-! ## Cursors -/

/-- The zero `time.Time`, midnight of the first of January of year one. -/
def zeroTime : Int := -62135596800000000000

/-- `cursor`: the time and the id of the last row of a page. -/
structure Cursor where
  time : Int
  id : String
  deriving DecidableEq, Repr

/-- A cursor as JSON in base64. -/
structure CursorCodec where
  encode : Cursor → String
  decode : String → Option Cursor

/-- A time that a row may have: whole microseconds, and not the zero time. -/
def Storable (time : Int) : Prop := IsTimestamptz time ∧ time ≠ zeroTime

instance (time : Int) : Decidable (Storable time) :=
  inferInstanceAs (Decidable (toTimestamptz time = time ∧ time ≠ zeroTime))

/-- Cursors of stored rows are read back, and the empty token is no cursor. -/
structure CursorCodec.Lawful (codec : CursorCodec) : Prop where
  decode_encode : ∀ (time : Int) (id : UUID), Storable time →
    codec.decode (codec.encode ⟨time, id.text⟩) = some ⟨time, id.text⟩
  decode_empty : codec.decode "" = none

/-- `decodeCursor`. -/
def decodeCursor (codec : CursorCodec) (token : String) : Option Cursor :=
  (codec.decode token).filter fun cursor => cursor.id ≠ "" && cursor.time ≠ zeroTime

/-! ## The service -/

/-- Why a page is not returned: `ErrInvalidPageToken`, or the statement failed. -/
inductive ListError
  | invalidPageToken
  | failed
  deriving DecidableEq, Repr

/-- `ListResult`. -/
structure Page (ρ : Type) where
  items : List ρ
  nextPageToken : String
  deriving DecidableEq, Repr

/-- The number of rows on a page. -/
def pageLimit (defaultSize : Nat) (pageSize : Int) : Nat :=
  if pageSize ≤ 0 then defaultSize else if 100 < pageSize then 100 else pageSize.toNat

/-- What the service makes of the rows it asked for, which are one more than fit. -/
def cutPage {ρ : Type} (codec : CursorCodec) (cursorOf : ρ → Cursor) (limit : Nat)
    (rows : List ρ) : Page ρ :=
  if limit < rows.length then
    { items := rows.take limit
      nextPageToken := rows[limit - 1]?.elim "" fun last => codec.encode (cursorOf last) }
  else { items := rows, nextPageToken := "" }

/-- `Service.List`, over the statement of the repository. -/
def list {ρ : Type} (codec : CursorCodec) (defaultSize : Nat) (cursorOf : ρ → Cursor)
    (query : Option Cursor → Nat → Option (List ρ)) (pageSize : Int) (pageToken : String) :
    Except ListError (Page ρ) :=
  if pageToken = "" then
    match query none (pageLimit defaultSize pageSize + 1) with
    | some rows => .ok (cutPage codec cursorOf (pageLimit defaultSize pageSize) rows)
    | none => .error .failed
  else
    match decodeCursor codec pageToken with
    | none => .error .invalidPageToken
    | some cursor =>
        match query (some cursor) (pageLimit defaultSize pageSize + 1) with
        | some rows => .ok (cutPage codec cursorOf (pageLimit defaultSize pageSize) rows)
        | none => .error .failed

theorem mem_of_mem_cutPage {ρ : Type} {codec : CursorCodec} {cursorOf : ρ → Cursor} {limit : Nat}
    {rows : List ρ} {row : ρ} (hrow : row ∈ (cutPage codec cursorOf limit rows).items) :
    row ∈ rows := by
  unfold cutPage at hrow
  split at hrow
  · exact List.mem_of_mem_take hrow
  · exact hrow

/-- A page is cut from the answer to the query for the cursor, if there is one. -/
theorem list_eq_ok {ρ : Type} {codec : CursorCodec} {defaultSize : Nat} {cursorOf : ρ → Cursor}
    {query : Option Cursor → Nat → Option (List ρ)} {pageSize : Int} {pageToken : String}
    {page : Page ρ}
    (hlist : list codec defaultSize cursorOf query pageSize pageToken = .ok page) :
    ∃ after rows, query after (pageLimit defaultSize pageSize + 1) = some rows ∧
      page = cutPage codec cursorOf (pageLimit defaultSize pageSize) rows ∧
      (pageToken = "" ∧ after = none ∨
        pageToken ≠ "" ∧ ∃ cursor, decodeCursor codec pageToken = some cursor ∧
          after = some cursor) := by
  unfold list at hlist
  split at hlist
  · next hempty =>
      split at hlist
      · next rows hquery =>
          cases hlist
          exact ⟨none, rows, hquery, rfl, .inl ⟨hempty, rfl⟩⟩
      · cases hlist
  · next htoken =>
      split at hlist
      · cases hlist
      · next cursor hdecode =>
          split at hlist
          · next rows hquery =>
              cases hlist
              exact ⟨some cursor, rows, hquery, rfl, .inr ⟨htoken, cursor, hdecode, rfl⟩⟩
          · cases hlist

/-! ## The statement -/

section Statement

variable {ρ : Type} (time : ρ → Int) (id : ρ → UUID)

/-- `nullID`. -/
def nullID (id : String) : Option String := if id = "" then none else some id

/-- `(time, id) < ($1, $2::uuid)`; with the id absent the comparison is unknown,
and the row left out, unless the times decide it. -/
def rowBefore (row : ρ) (afterTime : Int) (afterID : Option UUID) : Bool :=
  time row < afterTime || (time row = afterTime && afterID.any fun after => id row < after)

/-- `… AND ($1::timestamptz IS NULL OR (time, id) < ($1, $2::uuid)) ORDER BY time
DESC, id DESC LIMIT $3`; `none` where the id is not a UUID. -/
def selectPage (cond : ρ → Bool) (afterTime : Option Int) (afterID : String) (limit : Nat)
    (rows : List ρ) : Option (List ρ) :=
  let select (afterID : Option UUID) : List ρ :=
    ((rows.filter fun row => cond row &&
      afterTime.all fun after => rowBefore time id row (toTimestamptz after) afterID).insertionSort
        fun first second => time second < time first ∨
          (time second = time first ∧ id second ≤ id first)).take limit
  match nullID afterID with
  | none => some (select none)
  | some text => (UUID.parse text).map fun after => select (some after)

/-- The position of a row in the order of the statement. -/
def position (row : ρ) : Int ×ₗ UUID := toLex (time row, id row)

theorem position_lt_iff {row other : ρ} :
    position time id row < position time id other ↔
      time row < time other ∨ (time row = time other ∧ id row < id other) :=
  Prod.Lex.toLex_lt_toLex

theorem position_le_iff {row other : ρ} :
    position time id row ≤ position time id other ↔
      time row < time other ∨ (time row = time other ∧ id row ≤ id other) :=
  Prod.Lex.toLex_le_toLex

theorem nodup_position {rows : List ρ} (hids : (rows.map id).Nodup) :
    (rows.map (position time id)).Nodup := by
  have hcomp : rows.map id = (rows.map (position time id)).map fun pair => (ofLex pair).2 := by
    rw [List.map_map]
    rfl
  rw [hcomp] at hids
  exact hids.of_map

/-- The rows of the first page are those that come first. -/
theorem selectPage_first (cond : ρ → Bool) (limit : Nat) (rows : List ρ) :
    selectPage time id cond none "" limit rows =
      some ((Keyset.remaining (position time id) cond none rows).take limit) := by
  simp only [selectPage, nullID, if_pos, Keyset.remaining, position_le_iff]
  rfl

/-- The rows of a later page are those that come first beyond the cursor. -/
theorem selectPage_after (cond : ρ → Bool) (limit : Nat) (rows : List ρ) {after : Int}
    (hafter : IsTimestamptz after) (afterID : UUID) :
    selectPage time id cond (some after) afterID.text limit rows =
      some ((Keyset.remaining (position time id) cond (some (toLex (after, afterID))) rows).take
        limit) := by
  have hbefore : ∀ row, rowBefore time id row after (some afterID) =
      Keyset.beyond (position time id) (some (toLex (after, afterID))) row := by
    intro row
    simp [rowBefore, Keyset.beyond, position, Prod.Lex.toLex_lt_toLex]
  have htime : toTimestamptz after = after := hafter
  simp only [selectPage, nullID, if_neg afterID.text_ne_empty, UUID.parse_text, Option.map_some,
    Option.all_some, htime, hbefore, position_le_iff,
    Keyset.remaining]

end Statement

/-! ## A client's walk -/

/-- A client that follows the tokens of a list: the table now, what it was sent
so far, the token it was sent last, and whether that was empty. -/
structure Walk (ρ : Type) where
  rows : List ρ
  returned : List ρ
  token : String
  finished : Bool

/-- The client fetches a page, or its fetch fails, or somebody inserts a row. -/
inductive Visit (ρ : Type)
  | fetch (pageSize : Int)
  | fail
  | insert (row : ρ)

/-- Before the first page. -/
def Walk.start {ρ : Type} (rows : List ρ) : Walk ρ := ⟨rows, [], "", false⟩

/-- The client takes a page, or is left where it was by an error. -/
def Walk.receive {ρ : Type} (w : Walk ρ) : Except ListError (Page ρ) → Walk ρ
  | .ok page =>
      { w with
        returned := w.returned ++ page.items
        token := page.nextPageToken
        finished := page.nextPageToken = "" }
  | .error _ => w

/-- The walks over a list.  The table refuses an id that it has, and holds
storable times. -/
def walks {ρ : Type} (time : ρ → Int) (id : ρ → UUID)
    (listing : List ρ → Int → String → Except ListError (Page ρ)) :
    System (Walk ρ) (Visit ρ) where
  init w := ∃ rows, w = Walk.start rows
  next w
    | .fetch pageSize =>
        if w.finished then none else some (w.receive (listing w.rows pageSize w.token))
    | .fail => some w
    | .insert row =>
        if (∀ old ∈ w.rows, id old ≠ id row) ∧ Storable (time row) then
          some { w with rows := w.rows ++ [row] }
        else none

/-- The list visits every row once: in no run is a row returned twice or out of
order or without matching; a run that comes to the empty token has returned every
matching row of the beginning; and it comes to it soon, if nobody inserts. -/
structure VisitsOnce {ρ : Type} (time : ρ → Int) (id : ρ → UUID) (cond : ρ → Bool)
    (listing : List ρ → Int → String → Except ListError (Page ρ)) (rows : List ρ) : Prop where
  nodup : ∀ visits w, (walks time id listing).run (Walk.start rows) visits = some w →
    w.returned.Nodup
  ordered : ∀ visits w, (walks time id listing).run (Walk.start rows) visits = some w →
    w.returned.Pairwise fun first second =>
      time second < time first ∨ (time second = time first ∧ id second < id first)
  sound : ∀ visits w, (walks time id listing).run (Walk.start rows) visits = some w →
    ∀ row ∈ w.returned, row ∈ w.rows ∧ cond row = true
  complete : ∀ visits w, (walks time id listing).run (Walk.start rows) visits = some w →
    w.finished = true → ∀ row ∈ rows, cond row = true → row ∈ w.returned
  bounded : ∀ pageSize : Nat → Int, ∃ fetches, fetches ≤ max 1 (rows.countP cond) ∧
    ∃ w, (walks time id listing).run (Walk.start rows)
      ((List.range fetches).map fun i => .fetch (pageSize i)) = some w ∧ w.finished = true

section Walk

variable {ρ : Type} (time : ρ → Int) (id : ρ → UUID) (cond : ρ → Bool) (codec : CursorCodec)
  (defaultSize : Nat)

/-- The cursor of a row. -/
def cursorOf (row : ρ) : Cursor := ⟨time row, (id row).text⟩

/-- The common part of the two lists. -/
def listing (rows : List ρ) (pageSize : Int) (pageToken : String) :
    Except ListError (Page ρ) :=
  list codec defaultSize (cursorOf time id)
    (fun after limit =>
      selectPage time id cond (after.map Cursor.time) (after.elim "" Cursor.id) limit rows)
    pageSize pageToken

/-- The bound of which a token is the cursor. -/
inductive Denotes : String → Option (Int ×ₗ UUID) → Prop
  | start : Denotes "" none
  | cursor (time : Int) (id : UUID) (hstorable : Storable time) :
      Denotes (codec.encode ⟨time, id.text⟩) (some (toLex (time, id)))

/-- The invariant of a walk over a table that began with the rows `start`. -/
structure Following (start : List ρ) (w : Walk ρ) (bound : Option (Int ×ₗ UUID)) : Prop where
  ids : (w.rows.map id).Nodup
  storable : ∀ row ∈ w.rows, Storable (time row)
  visited : Keyset.Visited (position time id) cond start w.rows w.returned bound w.finished
  token : w.finished = false → Denotes codec w.token bound

variable {time id cond codec defaultSize}

theorem pageLimit_pos (hdefault : 0 < defaultSize) (pageSize : Int) :
    0 < pageLimit defaultSize pageSize := by
  unfold pageLimit
  split
  · exact hdefault
  · split <;> omega

/-- An encoded cursor is not the empty token. -/
theorem encode_ne_empty (hcodec : codec.Lawful) {time : Int} (hstorable : Storable time)
    (id : UUID) : codec.encode ⟨time, id.text⟩ ≠ "" := by
  intro heq
  have hdecode := hcodec.decode_encode time id hstorable
  rw [heq, hcodec.decode_empty] at hdecode
  cases hdecode

/-- The page for a token that denotes a bound. -/
theorem listing_eq (hcodec : codec.Lawful) {token : String} {bound : Option (Int ×ₗ UUID)}
    (htoken : Denotes codec token bound) (rows : List ρ) (pageSize : Int) :
    listing time id cond codec defaultSize rows pageSize token =
      .ok (cutPage codec (cursorOf time id) (pageLimit defaultSize pageSize)
        ((Keyset.remaining (position time id) cond bound rows).take
          (pageLimit defaultSize pageSize + 1))) := by
  cases htoken with
  | start =>
      rw [listing, list, if_pos rfl]
      simp only [Option.map_none, Option.elim_none, selectPage_first]
  | cursor after afterID hstorable =>
      have hdecode : decodeCursor codec (codec.encode ⟨after, afterID.text⟩) =
          some ⟨after, afterID.text⟩ := by
        rw [decodeCursor, hcodec.decode_encode after afterID hstorable, Option.filter_some]
        simp [afterID.text_ne_empty, hstorable.2]
      rw [listing, list, if_neg (encode_ne_empty hcodec hstorable afterID), hdecode]
      simp only [Option.map_some, Option.elim_some,
        selectPage_after time id cond _ rows hstorable.1 afterID]

/-- A page that leaves rows behind, and one that does not. -/
theorem cutPage_take (codec : CursorCodec) (cursorOf : ρ → Cursor) (count : Nat)
    (rows : List ρ) :
    cutPage codec cursorOf (count + 1) (rows.take (count + 2)) =
      if count + 1 < rows.length then
        ⟨rows.take (count + 1), rows[count]?.elim "" fun last => codec.encode (cursorOf last)⟩
      else ⟨rows, ""⟩ := by
  have hlength : count + 1 < (rows.take (count + 2)).length ↔ count + 1 < rows.length := by
    rw [List.length_take]
    omega
  by_cases hmore : count + 1 < rows.length
  · rw [cutPage, if_pos (hlength.mpr hmore), if_pos hmore, List.take_take,
      Nat.min_eq_left (by omega), Nat.add_sub_cancel, List.getElem?_take_of_lt (by omega)]
  · rw [cutPage, if_neg (mt hlength.mp hmore), if_neg hmore, List.take_of_length_le (by omega)]

namespace Following

variable {start : List ρ} {w : Walk ρ} {bound : Option (Int ×ₗ UUID)}

theorem initial {rows : List ρ} (hids : (rows.map id).Nodup)
    (hstorable : ∀ row ∈ rows, Storable (time row)) :
    Following time id cond codec rows (Walk.start rows) none where
  ids := hids
  storable := hstorable
  visited := .initial (nodup_position time id hids)
  token := fun _ => .start

/-- Somebody inserts a row. -/
theorem insert (h : Following time id cond codec start w bound) {row : ρ}
    (hnew : ∀ old ∈ w.rows, id old ≠ id row) (hstorable : Storable (time row)) :
    Following time id cond codec start { w with rows := w.rows ++ [row] } bound where
  ids := Table.nodup_map_append h.ids hnew
  storable := by
    intro other hother
    rcases List.mem_append.mp hother with hold | hself
    · exact h.storable other hold
    · rw [List.mem_singleton.mp hself]
      exact hstorable
  visited := by
    refine h.visited.insert fun old hold heq => hnew old hold ?_
    exact (Prod.mk.inj (toLex.injective heq)).2
  token := h.token

/-- A fetch either finishes the walk or goes on from a bound that leaves fewer
rows, and at least one. -/
theorem fetch (h : Following time id cond codec start w bound) (hcodec : codec.Lawful)
    (hdefault : 0 < defaultSize) (hopen : w.finished = false) (pageSize : Int) :
    ∃ bound', Following time id cond codec start
        (w.receive (listing time id cond codec defaultSize w.rows pageSize w.token)) bound' ∧
      (w.receive (listing time id cond codec defaultSize w.rows pageSize w.token)).rows = w.rows ∧
      ((w.receive (listing time id cond codec defaultSize w.rows pageSize w.token)).finished =
          false →
        0 < (Keyset.remaining (position time id) cond bound' w.rows).length ∧
          (Keyset.remaining (position time id) cond bound' w.rows).length <
            (Keyset.remaining (position time id) cond bound w.rows).length) := by
  obtain ⟨count, hcount⟩ := Nat.exists_eq_add_one.mpr (pageLimit_pos hdefault pageSize)
  have hvisited : Keyset.Visited (position time id) cond start w.rows w.returned bound false :=
    hopen ▸ h.visited
  rw [listing_eq hcodec (h.token hopen), hcount, cutPage_take]
  by_cases hmore : count + 1 < (Keyset.remaining (position time id) cond bound w.rows).length
  · have hlast := List.getElem?_eq_getElem (Nat.lt_of_succ_lt hmore)
    generalize (Keyset.remaining (position time id) cond bound w.rows)[count] = last at hlast
    have hmem := (Keyset.mem_remaining.mp (List.mem_of_getElem? hlast)).1
    have htoken := encode_ne_empty hcodec (h.storable last hmem) (id last)
    have hfinished : decide (codec.encode (cursorOf time id last) = "") = false :=
      decide_eq_false htoken
    rw [if_pos hmore, hlast, Option.elim_some]
    refine ⟨some (position time id last), ⟨h.ids, h.storable, ?_, ?_⟩, rfl, fun _ => ?_⟩
    · have hnext := hvisited.fetch_more hlast
      rw [← hfinished] at hnext
      exact hnext
    · exact fun _ => .cursor (time last) (id last) (h.storable last hmem)
    · exact Keyset.length_remaining_lt hvisited.keys hmore hlast
  · rw [if_neg hmore]
    refine ⟨bound, ⟨h.ids, h.storable, hvisited.fetch_last bound, ?_⟩, rfl, ?_⟩
    · exact fun hgoes => absurd hgoes (by simp [Walk.receive])
    · exact fun hgoes => absurd hgoes (by simp [Walk.receive])

/-- Every step of a walk keeps the invariant. -/
theorem next (h : Following time id cond codec start w bound) (hcodec : codec.Lawful)
    (hdefault : 0 < defaultSize) {visit : Visit ρ} {w' : Walk ρ}
    (hnext : (walks time id (listing time id cond codec defaultSize)).next w visit = some w') :
    ∃ bound', Following time id cond codec start w' bound' := by
  cases visit with
  | fetch pageSize =>
      simp only [walks, Option.ite_none_left_eq_some, Option.some.injEq,
        Bool.not_eq_true] at hnext
      obtain ⟨hopen, rfl⟩ := hnext
      obtain ⟨bound', hfollowing, -⟩ := h.fetch hcodec hdefault hopen pageSize
      exact ⟨bound', hfollowing⟩
  | fail =>
      cases hnext
      exact ⟨bound, h⟩
  | insert row =>
      simp only [walks, Option.ite_none_right_eq_some, Option.some.injEq] at hnext
      obtain ⟨⟨hnew, hstorable⟩, rfl⟩ := hnext
      exact ⟨bound, h.insert hnew hstorable⟩

/-- Every run keeps the invariant. -/
theorem run (h : Following time id cond codec start w bound) (hcodec : codec.Lawful)
    (hdefault : 0 < defaultSize) {visits : List (Visit ρ)} {w' : Walk ρ}
    (hrun : (walks time id (listing time id cond codec defaultSize)).run w visits = some w') :
    ∃ bound', Following time id cond codec start w' bound' := by
  refine System.run_preserves
    (P := fun w => ∃ bound, Following time id cond codec start w bound) ?_ hrun ⟨bound, h⟩
  rintro w visit w' ⟨bound, h⟩ hnext
  exact h.next hcodec hdefault hnext

/-- Fetches alone come to the end, one for each row that remains at most. -/
theorem bounded (h : Following time id cond codec start w bound) (hcodec : codec.Lawful)
    (hdefault : 0 < defaultSize) (hopen : w.finished = false) (pageSize : Nat → Int) :
    ∃ fetches, fetches ≤
        max 1 (Keyset.remaining (position time id) cond bound w.rows).length ∧
      ∃ w', (walks time id (listing time id cond codec defaultSize)).run w
        ((List.range fetches).map fun i => .fetch (pageSize i)) = some w' ∧
          w'.finished = true := by
  induction hsize : (Keyset.remaining (position time id) cond bound w.rows).length
    using Nat.strong_induction_on generalizing w bound pageSize with
  | _ size ih =>
      subst hsize
      obtain ⟨bound', hnext, hrows, hfewer⟩ := h.fetch hcodec hdefault hopen (pageSize 0)
      have hstep : (walks time id (listing time id cond codec defaultSize)).next w
          (.fetch (pageSize 0)) = some (w.receive
            (listing time id cond codec defaultSize w.rows (pageSize 0) w.token)) := by
        simp [walks, hopen]
      generalize w.receive (listing time id cond codec defaultSize w.rows (pageSize 0) w.token) =
        w₁ at hnext hrows hfewer hstep
      cases hfinished : w₁.finished with
      | true => exact ⟨1, le_max_left _ _, w₁, by simp [hstep], hfinished⟩
      | false =>
          obtain ⟨hpos, hlt⟩ := hfewer hfinished
          obtain ⟨fetches, hle, w', hrun, hend⟩ :=
            ih _ (hrows ▸ hlt) hnext hfinished (fun i => pageSize (i + 1)) rfl
          refine ⟨fetches + 1, ?_, w', ?_, hend⟩
          · rw [hrows] at hle
            omega
          · rw [List.range_succ_eq_map, List.map_cons, System.run_cons, hstep, List.map_map]
            exact hrun

end Following

/-- The common part of the two lists visits every row once. -/
theorem visitsOnce_listing (hcodec : codec.Lawful) (hdefault : 0 < defaultSize) {rows : List ρ}
    (hids : (rows.map id).Nodup) (hstorable : ∀ row ∈ rows, Storable (time row)) :
    VisitsOnce time id cond (listing time id cond codec defaultSize) rows := by
  have hstart : Following time id cond codec rows (Walk.start rows) none :=
    .initial hids hstorable
  have hvisited : ∀ visits w, (walks time id (listing time id cond codec defaultSize)).run
      (Walk.start rows) visits = some w → ∃ bound,
        Keyset.Visited (position time id) cond rows w.rows w.returned bound w.finished := by
    intro visits w hrun
    obtain ⟨bound, hfollowing⟩ := hstart.run hcodec hdefault hrun
    exact ⟨bound, hfollowing.visited⟩
  constructor
  case nodup =>
    intro visits w hrun
    obtain ⟨bound, h⟩ := hvisited visits w hrun
    exact h.nodup
  case ordered =>
    intro visits w hrun
    obtain ⟨bound, h⟩ := hvisited visits w hrun
    exact h.ordered.imp (position_lt_iff time id).mp
  case sound =>
    intro visits w hrun
    obtain ⟨bound, h⟩ := hvisited visits w hrun
    exact h.sound
  case complete =>
    intro visits w hrun hfinished row hrow hcond
    obtain ⟨bound, h⟩ := hvisited visits w hrun
    exact (h.complete row hrow hcond).resolve_right fun hopen => by simp [hfinished] at hopen
  case bounded =>
    intro pageSize
    have hall : (Keyset.remaining (position time id) cond none rows).length =
        rows.countP cond := by
      simp [Keyset.length_remaining]
    exact hall ▸ hstart.bounded hcodec hdefault rfl pageSize

end Walk

end GoFoundation.Pagination
