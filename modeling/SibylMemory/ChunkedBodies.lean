import SibylMemory.Client
import SibylMemory.Library.LimitedReader

/-!
# Bodies that arrive in chunks (`client.py:122-140`)

The two loops leave off at different places, one behind the limit and one in front of the chunk that
passes it. Both decide what a reader decides that takes the bytes one by one.
-/

namespace SibylMemory
open LimitedReader

theorem errorChunks_feed (body : List UInt8) (chunks : List (List UInt8))
    (hne : ∀ chunk ∈ chunks, chunk ≠ []) (hbody : body.length ≤ MAX_ERROR_BODY_BYTES) :
    errorChunks body chunks = ended (feedChunks MAX_ERROR_BODY_BYTES body chunks) := by
  induction chunks generalizing body with
  | nil => rfl
  | cons chunk chunks ih =>
    have hpos : 0 < chunk.length := List.length_pos_iff.mpr (hne chunk List.mem_cons_self)
    have htake : (body ++ chunk).take MAX_ERROR_BODY_BYTES =
        body ++ chunk.take (MAX_ERROR_BODY_BYTES - body.length) := by
      rw [List.take_append, List.take_of_length_le hbody]
    rw [errorChunks, feedChunks, List.foldlM_cons]
    by_cases hfull : MAX_ERROR_BODY_BYTES - body.length = 0
    · rw [feed_overflows hbody (by omega), htake, hfull, List.take_zero, List.append_nil]
      rfl
    · by_cases hlong : MAX_ERROR_BODY_BYTES - body.length < chunk.length
      · rw [feed_overflows hbody (by omega), htake, if_neg hfull, if_pos hlong]
        rfl
      · rw [feed_fits (by omega), if_neg hfull, if_neg hlong]
        refine ih (body ++ chunk) (fun c hc => hne c (List.mem_cons_of_mem _ hc)) ?_
        rw [List.length_append]
        omega

theorem successChunks_feed (body : List UInt8) (chunks : List (List UInt8))
    (hbody : body.length ≤ MAX_SUCCESS_BODY_BYTES) :
    successChunks body chunks = (feedChunks MAX_SUCCESS_BODY_BYTES body chunks).toOption := by
  induction chunks generalizing body with
  | nil => rfl
  | cons chunk chunks ih =>
    rw [successChunks, feedChunks, List.foldlM_cons]
    by_cases hlong : MAX_SUCCESS_BODY_BYTES < body.length + chunk.length
    · rw [feed_overflows hbody hlong, if_pos hlong]
      rfl
    · rw [feed_fits (by omega), if_neg hlong]
      refine ih (body ++ chunk) ?_
      rw [List.length_append]
      omega

theorem errorChunks_body (r : Response) : errorChunks [] r.chunks =
    (r.body.take MAX_ERROR_BODY_BYTES, decide (MAX_ERROR_BODY_BYTES < r.body.length)) := by
  rw [errorChunks_feed [] r.chunks r.chunks_ne (Nat.zero_le _), ended_feedChunks]
  rfl

theorem successChunks_body (r : Response) : successChunks [] r.chunks =
    if r.body.length ≤ MAX_SUCCESS_BODY_BYTES then some r.body else none := by
  rw [successChunks_feed [] r.chunks (Nat.zero_le _), toOption_feedChunks]
  rfl

theorem boundedErrorBody_small {r : Response} (h : r.body.length ≤ MAX_ERROR_BODY_BYTES) :
    boundedErrorBody r = match r.broken with
      | none => .ok (r.body, false)
      | some errorType => .error errorType := by
  have hflag : decide (MAX_ERROR_BODY_BYTES < r.body.length) = false :=
    decide_eq_false (Nat.not_lt.mpr h)
  unfold boundedErrorBody
  rw [errorChunks_body, hflag, List.take_of_length_le h]
  cases r.broken <;> rfl

theorem boundedErrorBody_large {r : Response} (h : MAX_ERROR_BODY_BYTES < r.body.length) :
    boundedErrorBody r = .ok (r.body.take MAX_ERROR_BODY_BYTES, true) := by
  unfold boundedErrorBody
  rw [errorChunks_body, decide_eq_true h]

end SibylMemory
