/-
# Both lists visit every row once

`ListUsers` and `ListAuditEvents` are the common part of the previous modules at
their own columns and filters.
-/

import GoFoundation.Users.Listing
import GoFoundation.Audit.Model

namespace GoFoundation.Pagination

open Library Postgres

/-- The cursor of the run below. -/
def sampleCursor : Cursor where
  time := 1704067200000000000
  id := "00000000-0000-0000-0000-000000000002"

/-- Its token. -/
def sampleToken : String :=
  "eyJjcmVhdGVkX2F0IjoiMjAyNC0wMS0wMVQwMDowMDowMFoiLCJpZCI6IjAw" ++
    "MDAwMDAwLTAwMDAtMDAwMC0wMDAwLTAwMDAwMDAwMDAwMiJ9"

/-- The real token of the cursor that the run uses, and other cursors in a form
that no base64 text has: the time in unary, then the id. -/
def CursorCodec.sample : CursorCodec where
  encode cursor :=
    if cursor = sampleCursor then sampleToken
    else String.ofList ('.' :: (if cursor.time < 0 then '-' else '+') ::
      (List.replicate cursor.time.natAbs '1' ++ '/' :: cursor.id.toList))
  decode token :=
    if token = sampleToken then some sampleCursor
    else
      match token.toList with
      | '.' :: sign :: rest =>
          let size : Int := (rest.takeWhile (· = '1')).length
          some ⟨if sign = '-' then -size else size,
            String.ofList ((rest.dropWhile (· = '1')).drop 1)⟩
      | _ => none

theorem lawful_sample : CursorCodec.sample.Lawful where
  decode_encode := by
    intro time id _
    by_cases hsample : (⟨time, id.text⟩ : Cursor) = sampleCursor
    · simp [CursorCodec.sample, hsample]
    · have hhead : ∀ rest, String.ofList ('.' :: rest) ≠ sampleToken := by
        intro rest heq
        have hlist := congrArg (fun token : String => token.toList.head?) heq
        simp only [String.toList_ofList, List.head?_cons] at hlist
        exact absurd hlist (by decide)
      simp only [CursorCodec.sample, if_neg hsample, if_neg (hhead _), String.toList_ofList]
      have htake : ((List.replicate time.natAbs '1' ++ '/' :: id.text.toList).takeWhile
          (· = '1')).length = time.natAbs := by
        simp [List.takeWhile_append_of_pos]
      have hdrop : (List.replicate time.natAbs '1' ++ '/' :: id.text.toList).dropWhile
          (· = '1') = '/' :: id.text.toList := by
        simp [List.dropWhile_append_of_pos]
      rw [htake, hdrop]
      by_cases hneg : time < 0
      · have habs : -(time.natAbs : Int) = time := by omega
        simp only [if_pos hneg, if_true, habs, List.drop_one, List.tail_cons, String.ofList_toList]
      · have habs : (time.natAbs : Int) = time := by omega
        simp only [if_neg hneg, Char.reduceEq, if_false, habs, List.drop_one,
          List.tail_cons, String.ofList_toList]
  decode_empty := by decide

end GoFoundation.Pagination
