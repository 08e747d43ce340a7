import SibylMemory.Library.Text

/-!
# Paths and their dot segments (RFC 3986, section 5.2.4)

An absolute path is read as its segments, the texts between its slashes. Dot segments are removed
from left to right: a single dot stands for the segment it is in, a double dot for the one above
it. A path that ends in a dot segment ends in a slash.
-/

namespace DotSegments
open Text

/-- The segments of a path behind its first slash. -/
def segments (path : String) : List String := (path.toList.splitOn '/').map String.ofList

/-- One segment; the kept ones are in reverse order. -/
def keep (kept : List String) (segment : String) : List String :=
  if segment = "." then kept
  else if segment = ".." then kept.tail
  else segment :: kept

/-- What is left of the segments when more segments follow. -/
def resolved (path : List String) : List String := (path.foldl keep []).reverse

def isDots (segment : String) : Bool := decide (segment = "." ∨ segment = "..")

def removeDotSegments (path : List String) : List String :=
  resolved path ++ if path.getLast?.any isDots then [""] else []

section Removal
variable {path rest : List String}

theorem foldl_keep_plain (kept : List String) (h : ∀ s ∈ rest, isDots s = false) :
    rest.foldl keep kept = rest.reverse ++ kept := by
  induction rest generalizing kept with
  | nil => rfl
  | cons s rest ih =>
    have hs := of_decide_eq_false (h s List.mem_cons_self)
    rw [not_or] at hs
    rw [List.foldl_cons, keep, if_neg hs.1, if_neg hs.2,
      ih _ fun x hx => h x (List.mem_cons_of_mem _ hx), List.reverse_cons, List.append_assoc,
      List.singleton_append]

theorem resolved_plain (h : ∀ s ∈ rest, isDots s = false) :
    resolved (path ++ rest) = resolved path ++ rest := by
  rw [resolved, List.foldl_append, foldl_keep_plain _ h, List.reverse_append, List.reverse_reverse,
    resolved]

theorem removeDotSegments_plain (h : ∀ s ∈ rest, isDots s = false) (hne : rest ≠ []) :
    removeDotSegments (path ++ rest) = resolved path ++ rest := by
  obtain ⟨s, hs⟩ := Option.ne_none_iff_exists'.mp (mt List.getLast?_eq_none_iff.mp hne)
  rw [removeDotSegments, resolved_plain h, List.getLast?_append, hs, Option.some_or, Option.any_some,
    h s (List.mem_of_getLast? hs), if_neg (by decide), List.append_nil]

theorem resolved_dot : resolved (path ++ ["."]) = resolved path := by
  rw [resolved, List.foldl_append]
  rfl

theorem resolved_dots : resolved (path ++ [".."]) = (resolved path).dropLast := by
  rw [resolved, List.foldl_append, resolved, List.dropLast_reverse]
  rfl

end Removal

/-! ### Joined segments -/

theorem joinWith_toList (ss : List String) :
    (joinWith "/" ss).toList = ['/'].intercalate (ss.map String.toList) := by
  induction ss with
  | nil => rfl
  | cons s ss ih =>
    cases ss with
    | nil => simp [joinWith]
    | cons s' ss =>
      have hslash : "/".toList = ['/'] := by decide
      rw [joinWith_cons_cons, String.toList_append, String.toList_append, ih, hslash, List.map_cons,
        List.map_cons, List.map_cons, List.intercalate_cons_cons]

theorem segments_joinWith {ss : List String} (h : ∀ s ∈ ss, '/' ∉ s.toList) (hne : ss ≠ []) :
    segments (joinWith "/" ss) = ss := by
  have hslash : ∀ l ∈ ss.map String.toList, '/' ∉ l := by
    intro l hl
    obtain ⟨s, hs, rfl⟩ := List.mem_map.mp hl
    exact h s hs
  rw [segments, joinWith_toList, List.splitOn_intercalate _ hslash (by simpa using hne),
    List.map_map]
  exact (List.map_congr_left fun s _ => String.ofList_toList).trans (List.map_id _)

end DotSegments
