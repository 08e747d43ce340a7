import Mathlib.Data.List.DropRight
import Mathlib.Data.List.TakeWhile
import SibylMemory.Library.Text

/-!
# Trimming a list on both sides

`trim p` drops what satisfies `p` from both ends. What is left is empty or begins and ends with
an element that does not, and such lists are the ones that `trim` leaves alone.
-/

namespace Trim

variable {α : Type} {p : α → Bool} {l l' : List α}

def trim (p : α → Bool) (l : List α) : List α := (l.dropWhile p).rdropWhile p

/-- Neither end satisfies `p`. -/
structure Trimmed (p : α → Bool) (l : List α) : Prop where
  front : ∀ a ∈ l.head?, p a = false
  back : ∀ a ∈ l.getLast?, p a = false

theorem trim_eq_self (h : Trimmed p l) : trim p l = l := by
  have hfront : l.dropWhile p = l := by
    cases l with
    | nil => rfl
    | cons a l =>
      have ha := h.front a rfl
      exact List.dropWhile_cons_of_neg (by simp [ha])
  rw [trim, hfront, List.rdropWhile_eq_self_iff]
  intro hne
  simpa using h.back _ (List.getLast?_eq_getLast_of_ne_nil hne)

theorem trim_split (p : α → Bool) (l : List α) :
    ∃ a b, l = a ++ trim p l ++ b ∧ (∀ x ∈ a, p x = true) ∧ ∀ x ∈ b, p x = true := by
  refine ⟨l.takeWhile p, (l.dropWhile p).rtakeWhile p, ?_, fun x hx => ?_, fun x hx => ?_⟩
  · rw [List.append_assoc, trim, List.rdropWhile_append_rtakeWhile, List.takeWhile_append_dropWhile]
  · exact List.mem_takeWhile_imp hx
  · exact List.mem_rtakeWhile_imp hx

theorem trim_trimmed (p : α → Bool) (l : List α) : Trimmed p (trim p l) where
  back a ha := by
    have hne : trim p l ≠ [] := by
      intro hnil
      rw [hnil] at ha
      cases ha
    rw [List.getLast?_eq_getLast_of_ne_nil hne] at ha
    cases ha
    exact Bool.eq_false_iff.mpr (List.rdropWhile_last_not p _ hne)
  front a ha := by
    have hpre : trim p l <+: l.dropWhile p := List.rdropWhile_prefix p _
    obtain ⟨rest, hrest⟩ := hpre
    have hhead : a ∈ (l.dropWhile p).head? := by
      rw [← hrest, List.head?_append, ha]
      rfl
    have hnot := List.head?_dropWhile_not p l
    rw [hhead] at hnot
    simpa using hnot

theorem trim_idem (p : α → Bool) (l : List α) : trim p (trim p l) = trim p l :=
  trim_eq_self (trim_trimmed p l)

theorem trim_length_le (p : α → Bool) (l : List α) : (trim p l).length ≤ l.length := by
  have h1 := (List.rdropWhile_prefix p (l.dropWhile p)).length_le
  have h2 : (l.dropWhile p).length ≤ l.length := (List.dropWhile_suffix p).length_le
  exact le_trans h1 h2

theorem trim_subset {a : α} (h : a ∈ trim p l) : a ∈ l := by
  obtain ⟨x, y, hl, -, -⟩ := trim_split p l
  rw [hl]
  simp [h]

theorem mem_trim {a : α} (ha : p a = false) : a ∈ trim p l ↔ a ∈ l := by
  refine ⟨trim_subset, fun h => ?_⟩
  obtain ⟨x, y, hl, hx, hy⟩ := trim_split p l
  rw [hl, List.mem_append, List.mem_append] at h
  rcases h with (h | h) | h
  · rw [hx a h] at ha
    cases ha
  · exact h
  · rw [hy a h] at ha
    cases ha

theorem trim_append_left {a : List α} (h : ∀ x ∈ a, p x = true) : trim p (a ++ l) = trim p l := by
  rw [trim, List.dropWhile_append_of_pos h, trim]

end Trim

namespace Text
open Trim

theorem strip_eq (s : String) : (strip s).toList = trim isSpace s.toList := by
  rw [strip, String.toList_ofList]
  rfl

theorem strip_strip (s : String) : strip (strip s) = strip s := by
  apply String.toList_inj.mp
  rw [strip_eq, strip_eq, trim_idem]

theorem strip_length_le (s : String) : (strip s).length ≤ s.length := by
  rw [← String.length_toList, ← String.length_toList, strip_eq]
  exact trim_length_le _ _

end Text
