import Mathlib.Data.List.Basic
import SibylMemory.Library.Text

/-!
# Lines of a text

`splitLines` breaks a text where `str.splitlines` does, and `universalNewlines` is what reading a
file in text mode makes of its line ends. Lines that hold no break are read back from the text
that ends each of them with a newline.
-/

namespace Lines

def isLineBreak (c : Char) : Bool :=
  let n := c.toNat
  decide ((10 ≤ n ∧ n ≤ 13) ∨ (28 ≤ n ∧ n ≤ 30) ∨ n = 133 ∨ n = 8232 ∨ n = 8233)

def splitLinesFrom (line : List Char) : List Char → List (List Char)
  | [] => if line = [] then [] else [line]
  | '\r' :: '\n' :: cs => line :: splitLinesFrom [] cs
  | c :: cs =>
    if isLineBreak c then line :: splitLinesFrom [] cs else splitLinesFrom (line ++ [c]) cs

def splitLines (s : String) : List String := (splitLinesFrom [] s.toList).map String.ofList

def newlinesOnly : List Char → List Char
  | [] => []
  | '\r' :: '\n' :: cs => '\n' :: newlinesOnly cs
  | c :: cs => (if c = '\r' then '\n' else c) :: newlinesOnly cs

def universalNewlines (s : String) : String := String.ofList (newlinesOnly s.toList)

/-- A line without a break in it. -/
def Unbroken (line : String) : Prop := ∀ c ∈ line.toList, isLineBreak c = false

theorem splitLinesFrom_unbroken (line cs : List Char) (h : ∀ c ∈ line, isLineBreak c = false) :
    ∀ l ∈ splitLinesFrom line cs, ∀ c ∈ l, isLineBreak c = false := by
  fun_induction splitLinesFrom line cs with
  | case1 => simp
  | case2 line hne =>
    intro l hl
    rw [List.mem_singleton.mp hl]
    exact h
  | case3 line cs ih =>
    intro l hl
    rcases List.mem_cons.mp hl with rfl | hl
    · exact h
    · exact ih (by simp) l hl
  | case4 line c cs hne hbreak ih =>
    intro l hl
    rcases List.mem_cons.mp hl with rfl | hl
    · exact h
    · exact ih (by simp) l hl
  | case5 line c cs hne hbreak ih =>
    refine ih fun d hd => ?_
    rcases List.mem_append.mp hd with hd | hd
    · exact h d hd
    · rw [List.mem_singleton.mp hd]
      exact Bool.eq_false_iff.mpr hbreak

theorem splitLines_unbroken (s : String) : ∀ line ∈ splitLines s, Unbroken line := by
  intro line hline
  obtain ⟨l, hl, rfl⟩ := List.mem_map.mp hline
  intro c hc
  rw [String.toList_ofList] at hc
  exact splitLinesFrom_unbroken [] s.toList (by simp) l hl c hc

theorem splitLinesFrom_line {l : List Char} (h : ∀ c ∈ l, isLineBreak c = false) (acc cs : List Char) :
    splitLinesFrom acc (l ++ '\n' :: cs) = (acc ++ l) :: splitLinesFrom [] cs := by
  induction l generalizing acc with
  | nil =>
    rw [List.nil_append, List.append_nil, splitLinesFrom]
    · exact if_pos (by decide)
    · intro cs' he
      cases he
  | cons c l ih =>
    have hc := h c List.mem_cons_self
    rw [List.cons_append, splitLinesFrom]
    · rw [if_neg (by simp [hc]), ih fun d hd => h d (List.mem_cons_of_mem _ hd), List.append_assoc]
      rfl
    · rintro cs' rfl
      exact absurd hc (by decide)

/-- Lines with a newline behind each. -/
def joinLines (lines : List String) : String :=
  String.ofList (lines.flatMap fun line => line.toList ++ ['\n'])

theorem splitLines_joinLines {lines : List String} (h : ∀ line ∈ lines, Unbroken line) :
    splitLines (joinLines lines) = lines := by
  rw [splitLines, joinLines, String.toList_ofList]
  induction lines with
  | nil => rfl
  | cons line lines ih =>
    have hline := h line List.mem_cons_self
    rw [List.flatMap_cons, List.append_assoc, List.cons_append, List.nil_append,
      splitLinesFrom_line hline, List.nil_append, List.map_cons, String.ofList_toList,
      ih fun l hl => h l (List.mem_cons_of_mem _ hl)]

theorem newlinesOnly_id {l : List Char} (h : '\r' ∉ l) : newlinesOnly l = l := by
  fun_induction newlinesOnly l with
  | case1 => rfl
  | case2 cs ih => exact absurd List.mem_cons_self h
  | case3 c cs hne ih =>
    have hc : c ≠ '\r' := by
      rintro rfl
      exact h List.mem_cons_self
    rw [if_neg hc, ih fun hmem => h (List.mem_cons_of_mem _ hmem)]

theorem unbroken_return {line : String} (h : Unbroken line) : '\r' ∉ line.toList := by
  intro hmem
  exact absurd (h _ hmem) (by decide)

theorem universalNewlines_joinLines {lines : List String} (h : ∀ line ∈ lines, Unbroken line) :
    universalNewlines (joinLines lines) = joinLines lines := by
  rw [universalNewlines, joinLines, String.toList_ofList, newlinesOnly_id]
  simp only [List.mem_flatMap, List.mem_append, List.mem_singleton, not_exists, not_and, not_or]
  exact fun line hline => ⟨unbroken_return (h line hline), by decide⟩

/-- `"\n".join(lines) + "\n"` -/
theorem joinLines_eq {lines : List String} (h : lines ≠ []) :
    joinLines lines = Text.joinWith "\n" lines ++ "\n" := by
  apply String.toList_inj.mp
  rw [joinLines, String.toList_ofList, String.toList_append]
  induction lines with
  | nil => exact absurd rfl h
  | cons line lines ih =>
    cases lines with
    | nil => simp [Text.joinWith]
    | cons next lines =>
      rw [List.flatMap_cons, ih (List.cons_ne_nil _ _), Text.joinWith_cons_cons]
      simp [String.toList_append]

end Lines
