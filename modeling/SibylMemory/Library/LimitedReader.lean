import Mathlib.Data.List.Basic

/-!
# Reading up to a limit

A reader takes one element at a time and stops at the first one that it has no room for. Elements
that arrive in chunks are read as the whole text is, wherever the text was cut.
-/

namespace LimitedReader
variable {α : Type} {limit : Nat} {held l : List α} {chunks : List (List α)}

/-- An element that does not fit stops the reader with what it holds. -/
def step (limit : Nat) (held : List α) (a : α) : Except (List α) (List α) :=
  if held.length < limit then .ok (held ++ [a]) else .error held

def feed (limit : Nat) (held l : List α) : Except (List α) (List α) := l.foldlM (step limit) held

def feedChunks (limit : Nat) (held : List α) (chunks : List (List α)) :
    Except (List α) (List α) := chunks.foldlM (feed limit) held

/-- What was read, and whether the reader was stopped. -/
def ended : Except (List α) (List α) → List α × Bool
  | .ok held => (held, false)
  | .error held => (held, true)

theorem feed_append (l m : List α) :
    feed limit held (l ++ m) = feed limit held l >>= fun held => feed limit held m :=
  List.foldlM_append

theorem feedChunks_eq : feedChunks limit held chunks = feed limit held chunks.flatten := by
  induction chunks generalizing held with
  | nil => rfl
  | cons chunk chunks ih =>
    rw [List.flatten_cons, feed_append, feedChunks, List.foldlM_cons]
    cases feed limit held chunk with
    | error stopped => rfl
    | ok held => exact ih

theorem feed_fits (h : held.length + l.length ≤ limit) : feed limit held l = .ok (held ++ l) := by
  induction l generalizing held with
  | nil => rw [List.append_nil]; rfl
  | cons a l ih =>
    rw [List.length_cons] at h
    have hstep : step limit held a = .ok (held ++ [a]) := if_pos (by omega)
    have hrest : feed limit (held ++ [a]) l = .ok (held ++ [a] ++ l) := by
      apply ih
      rw [List.length_append, List.length_singleton]
      omega
    rw [List.append_assoc] at hrest
    rw [feed, List.foldlM_cons, hstep]
    exact hrest

theorem feed_overflows (hheld : held.length ≤ limit) (h : limit < held.length + l.length) :
    feed limit held l = .error ((held ++ l).take limit) := by
  -- the reader stops at the first element behind the limit
  have hroom : (l.take (limit - held.length)).length = limit - held.length := by
    rw [List.length_take]
    omega
  have hfits : feed limit held (l.take (limit - held.length)) =
      .ok (held ++ l.take (limit - held.length)) := feed_fits (by omega)
  have hfull : (held ++ l.take (limit - held.length)).length = limit := by
    rw [List.length_append]
    omega
  have htake : (held ++ l).take limit = held ++ l.take (limit - held.length) := by
    rw [List.take_append, List.take_of_length_le hheld]
  rw [← List.take_append_drop (limit - held.length) l, feed_append, hfits,
    List.take_append_drop, htake]
  cases hrest : l.drop (limit - held.length) with
  | nil =>
    have hlength := congrArg List.length hrest
    rw [List.length_drop, List.length_nil] at hlength
    omega
  | cons a rest =>
    have hstop : step limit (held ++ l.take (limit - held.length)) a =
        .error (held ++ l.take (limit - held.length)) := if_neg (by omega)
    show (a :: rest).foldlM (step limit) (held ++ l.take (limit - held.length)) = _
    rw [List.foldlM_cons, hstop]
    rfl

theorem feed_eq (hheld : held.length ≤ limit) : feed limit held l =
    if held.length + l.length ≤ limit then .ok (held ++ l) else .error ((held ++ l).take limit) := by
  split
  · next h => exact feed_fits h
  · next h => exact feed_overflows hheld (by omega)

theorem ended_feedChunks (limit : Nat) (chunks : List (List α)) :
    ended (feedChunks limit [] chunks) =
      (chunks.flatten.take limit, decide (limit < chunks.flatten.length)) := by
  rw [feedChunks_eq, feed_eq (Nat.zero_le _), List.nil_append, List.length_nil, Nat.zero_add]
  split
  · next h => rw [ended, List.take_of_length_le h, decide_eq_false (Nat.not_lt.mpr h)]
  · next h => rw [ended, decide_eq_true (Nat.not_le.mp h)]

theorem toOption_feedChunks (limit : Nat) (chunks : List (List α)) :
    (feedChunks limit [] chunks).toOption =
      if chunks.flatten.length ≤ limit then some chunks.flatten else none := by
  rw [feedChunks_eq, feed_eq (Nat.zero_le _), List.nil_append, List.length_nil, Nat.zero_add]
  split <;> rfl

end LimitedReader
