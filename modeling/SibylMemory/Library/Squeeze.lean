import Mathlib.Data.List.SplitBy
import Mathlib.Data.List.TakeWhile
import SibylMemory.Library.Text

/-!
# Squeezing white space

`" ".join(text.split())` as a reader of the text that remembers what it stands behind: it
commutes with appending, and a word without white space is found in what it writes only where the
text has it.
-/

namespace Squeeze
open Text

/-- At the beginning, behind a character of a word, or behind white space that follows one. -/
inductive Place where
  | start
  | word
  | gap
  deriving DecidableEq

def Place.space : Place → Place
  | .start => .start
  | .word => .gap
  | .gap => .gap

/-- What the next character of a word is written behind. -/
def Place.lead : Place → List Char
  | .gap => [' ']
  | _ => []

def place : Place → List Char → Place
  | p, [] => p
  | p, c :: cs => place (if isSpace c = true then p.space else .word) cs

def squeeze : Place → List Char → List Char
  | _, [] => []
  | p, c :: cs =>
    if isSpace c = true then squeeze p.space cs else p.lead ++ c :: squeeze .word cs

variable {p : Place} {l a b w : List Char}

theorem squeeze_append : squeeze p (a ++ b) = squeeze p a ++ squeeze (place p a) b := by
  induction a generalizing p with
  | nil => rfl
  | cons c a ih =>
    rw [List.cons_append, squeeze, squeeze, place]
    by_cases hc : isSpace c = true
    · rw [if_pos hc, if_pos hc, if_pos hc, ih]
    · rw [if_neg hc, if_neg hc, if_neg hc, ih, List.append_assoc, List.cons_append]

theorem place_append : place p (a ++ b) = place (place p a) b := by
  induction a generalizing p with
  | nil => rfl
  | cons c a ih => rw [List.cons_append, place, place, ih]

theorem squeeze_cons {c : Char} (hc : isSpace c = false) :
    squeeze p (c :: l) = p.lead ++ c :: squeeze .word l := by
  rw [squeeze, if_neg (by simp [hc])]

theorem squeeze_solid (h : ∀ c ∈ a, isSpace c = false) : squeeze .word a = a := by
  induction a with
  | nil => rfl
  | cons c a ih =>
    rw [squeeze_cons (h c List.mem_cons_self), ih fun d hd => h d (List.mem_cons_of_mem _ hd)]
    rfl

theorem place_solid (h : ∀ c ∈ a, isSpace c = false) (ha : a ≠ []) : place p a = .word := by
  induction a generalizing p with
  | nil => exact absurd rfl ha
  | cons c a ih =>
    have hc := h c List.mem_cons_self
    rw [place, if_neg (by simp [hc])]
    cases a with
    | nil => rfl
    | cons d a => exact ih (fun e he => h e (List.mem_cons_of_mem _ he)) (List.cons_ne_nil _ _)

theorem squeeze_blank (h : ∀ c ∈ a, isSpace c = true) : squeeze p a = [] := by
  induction a generalizing p with
  | nil => rfl
  | cons c a ih =>
    rw [squeeze, if_pos (h c List.mem_cons_self)]
    exact ih fun d hd => h d (List.mem_cons_of_mem _ hd)

theorem place_blank (h : ∀ c ∈ a, isSpace c = true) : place p a = if a = [] then p else p.space := by
  induction a generalizing p with
  | nil => rfl
  | cons c a ih =>
    have hspace : p.space.space = p.space := by cases p <;> rfl
    rw [place, if_pos (h c List.mem_cons_self), ih fun d hd => h d (List.mem_cons_of_mem _ hd)]
    split <;> simp [hspace]

/-! ### Words -/

theorem infix_blank (hw : ∀ c ∈ w, isSpace c = false) {k l : List Char}
    (h : w <:+: k ++ ' ' :: l) : w <:+: k ∨ w <:+: l := by
  obtain ⟨x, y, h⟩ := h
  have hspace : ' ' ∉ w := fun hmem => absurd (hw _ hmem) (by decide)
  rw [List.append_assoc] at h
  rcases List.append_eq_append_iff.mp h with ⟨t, hk, ht⟩ | ⟨t, -, ht⟩
  · rcases List.append_eq_append_iff.mp ht with ⟨u, hu, -⟩ | ⟨u, hu, hy⟩
    · exact .inl ⟨x, u, by rw [hk, hu, List.append_assoc]⟩
    · cases u with
      | nil => exact .inl ⟨x, [], by rw [hk, hu]; simp⟩
      | cons c u =>
        rw [List.cons_append] at hy
        refine absurd ?_ hspace
        rw [hu, (List.cons.inj hy).1]
        simp
  · cases t with
    | nil =>
      rw [List.nil_append] at ht
      cases w with
      | nil => exact .inl (List.nil_infix)
      | cons c w => exact absurd ((List.cons.inj ht).1 ▸ List.mem_cons_self) hspace
    | cons c t =>
      rw [List.cons_append] at ht
      exact .inr ⟨t, y, by rw [(List.cons.inj ht).2, List.append_assoc]⟩

theorem squeeze_gap (l : List Char) :
    squeeze .gap l = [] ∨ squeeze .gap l = ' ' :: squeeze .start l := by
  induction l with
  | nil => exact .inl rfl
  | cons c l ih =>
    rw [squeeze, squeeze]
    split
    · exact ih
    · exact .inr rfl

theorem infix_squeeze_word (hw : ∀ c ∈ w, isSpace c = false) :
    (w <:+: squeeze .start l → w <:+: l) ∧ ∀ k, w <:+: k ++ squeeze .word l → w <:+: k ++ l := by
  induction l with
  | nil => exact ⟨id, fun k h => h⟩
  | cons c l ih =>
    have hcons : w <:+: l → w <:+: c :: l := fun h => h.trans (List.suffix_cons _ _).isInfix
    by_cases hc : isSpace c = true
    · refine ⟨fun h => ?_, fun k h => ?_⟩
      · rw [squeeze, if_pos hc] at h
        exact hcons (ih.1 h)
      · rw [squeeze, if_pos hc] at h
        change w <:+: k ++ squeeze .gap l at h
        rcases squeeze_gap l with hgap | hgap <;> rw [hgap] at h
        · rw [List.append_nil] at h
          exact h.trans (List.prefix_append _ _).isInfix
        · rcases infix_blank hw h with h | h
          · exact h.trans (List.prefix_append _ _).isInfix
          · exact (hcons (ih.1 h)).trans (List.suffix_append _ _).isInfix
    · refine ⟨fun h => ?_, fun k h => ?_⟩
      · rw [squeeze, if_neg hc] at h
        exact ih.2 [c] h
      · rw [squeeze, if_neg hc] at h
        have hk := ih.2 (k ++ [c]) (by simpa [Place.lead] using h)
        simpa using hk

theorem infix_squeeze (hw : ∀ c ∈ w, isSpace c = false) (h : w <:+: squeeze p l) : w <:+: l := by
  cases p with
  | start => exact (infix_squeeze_word hw).1 h
  | word => exact (infix_squeeze_word hw).2 [] h
  | gap =>
    rcases squeeze_gap l with hgap | hgap <;> rw [hgap] at h
    · exact h.trans List.nil_infix
    · rcases infix_blank (k := []) hw h with h | h
      · exact h.trans List.nil_infix
      · exact (infix_squeeze_word hw).1 h

/-! ### Splitting and joining -/

/-- `text.split()` -/
def words (cs : List Char) : List (List Char) :=
  (cs.splitBy fun a b => isSpace a == isSpace b).filter fun w => !w.all isSpace

section Words
variable {g rest : List Char} {v : Bool}

theorem splitBy_stretch (hg : g ≠ []) (hv : ∀ c ∈ g, isSpace c = v)
    (hrest : ∀ c ∈ rest.head?, isSpace c = !v) :
    ((g ++ rest).splitBy fun a b => isSpace a == isSpace b) =
      g :: rest.splitBy fun a b => isSpace a == isSpace b := by
  have hchain : g.splitBy (fun a b => isSpace a == isSpace b) = [g] := by
    refine List.splitBy_of_isChain hg ?_
    refine List.Pairwise.isChain (List.pairwise_of_forall_mem_list fun a ha b hb => ?_)
    rw [hv a ha, hv b hb]
    exact beq_self_eq_true _
  rw [List.splitBy_append, hchain, List.singleton_append]
  intro a ha b hb
  rw [hv a (List.mem_of_mem_getLast? ha), hrest b hb]
  cases v <;> rfl

theorem words_blank (hv : ∀ c ∈ g, isSpace c = true) (hrest : ∀ c ∈ rest.head?, isSpace c = false) :
    words (g ++ rest) = words rest := by
  by_cases hg : g = []
  · rw [hg, List.nil_append]
  · have hall : g.all isSpace = true := List.all_eq_true.mpr hv
    rw [words, splitBy_stretch hg hv hrest, List.filter_cons_of_neg (by simp [hall]), words]

theorem words_solid (hg : g ≠ []) (hv : ∀ c ∈ g, isSpace c = false)
    (hrest : ∀ c ∈ rest.head?, isSpace c = true) : words (g ++ rest) = g :: words rest := by
  have hall : g.all isSpace = false := by
    cases g with
    | nil => exact absurd rfl hg
    | cons c g => simp [hv c List.mem_cons_self]
  rw [words, splitBy_stretch hg hv hrest, List.filter_cons_of_pos (by simp [hall]), words]

/-- A text begins with a stretch of white space or of other characters. -/
theorem exists_stretch (cs : List Char) (v : Bool) : ∃ g rest, cs = g ++ rest ∧
    (∀ c ∈ g, isSpace c = v) ∧ ∀ c ∈ rest.head?, isSpace c = !v := by
  refine ⟨cs.takeWhile (isSpace · == v), cs.dropWhile (isSpace · == v),
    List.takeWhile_append_dropWhile.symm, fun c hc => ?_, fun c hc => ?_⟩
  · exact eq_of_beq (List.mem_takeWhile_imp (p := fun c => isSpace c == v) hc)
  · have hhead := List.head?_dropWhile_not (isSpace · == v) cs
    rw [hc] at hhead
    have hne : (isSpace c == v) = false := by simpa using hhead
    revert hne
    cases isSpace c <;> cases v <;> decide

theorem exists_word (cs : List Char) : (∀ c ∈ cs, isSpace c = true) ∨
    ∃ s g rest, cs = s ++ g ++ rest ∧ g ≠ [] ∧ (∀ c ∈ s, isSpace c = true) ∧
      (∀ c ∈ g, isSpace c = false) ∧ ∀ c ∈ rest.head?, isSpace c = true := by
  obtain ⟨s, tail, rfl, hs, htail⟩ := exists_stretch cs true
  obtain ⟨g, rest, rfl, hg, hrest⟩ := exists_stretch tail false
  by_cases hempty : g = []
  · subst hempty
    cases rest with
    | nil => exact .inl (by simpa using hs)
    | cons c rest =>
      have h1 := htail c rfl
      have h2 := hrest c rfl
      rw [h1] at h2
      cases h2
  · exact .inr ⟨s, g, rest, (List.append_assoc _ _ _).symm, hempty, hs, hg, hrest⟩

theorem words_nil (h : ∀ c ∈ l, isSpace c = true) : words l = [] := by
  have hw : words (l ++ []) = words [] := words_blank h (by simp)
  rw [List.append_nil] at hw
  exact hw

theorem words_cons {s : List Char} (hs : ∀ c ∈ s, isSpace c = true) (hne : g ≠ [])
    (hg : ∀ c ∈ g, isSpace c = false) (hrest : ∀ c ∈ rest.head?, isSpace c = true) :
    words (s ++ g ++ rest) = g :: words rest := by
  rw [List.append_assoc, words_blank hs, words_solid hne hg hrest]
  intro c hc
  cases g with
  | nil => exact absurd rfl hne
  | cons d g =>
    cases hc
    exact hg c List.mem_cons_self

theorem squeeze_word_cons {s : List Char} (hs : ∀ c ∈ s, isSpace c = true) (hne : g ≠ [])
    (hg : ∀ c ∈ g, isSpace c = false) (hrest : ∀ c ∈ rest.head?, isSpace c = true) :
    squeeze p (s ++ g ++ rest) = (place p s).lead ++ g ++ squeeze .gap rest := by
  have hword : squeeze .word rest = squeeze .gap rest := by
    cases rest with
    | nil => rfl
    | cons d rest =>
      rw [squeeze, squeeze, if_pos (hrest d rfl), if_pos (hrest d rfl)]
      rfl
  cases g with
  | nil => exact absurd rfl hne
  | cons c g =>
    rw [squeeze_append, squeeze_append, squeeze_blank hs, List.nil_append, place_append,
      place_solid hg hne, hword, squeeze_cons (hg c List.mem_cons_self),
      squeeze_solid fun d hd => hg d (List.mem_cons_of_mem _ hd)]

theorem squeeze_gap_eq (cs : List Char) : squeeze .gap cs = (words cs).flatMap (' ' :: ·) := by
  induction hn : cs.length using Nat.strong_induction_on generalizing cs with
  | h n ih =>
    rcases exists_word cs with hblank | ⟨s, g, rest, rfl, hne, hs, hg, hrest⟩
    · rw [squeeze_blank hblank, words_nil hblank]
      rfl
    · have hgap : place .gap s = .gap := by
        rw [place_blank hs]
        split <;> rfl
      have hlen : rest.length < n := by
        have hpos := List.length_pos_of_ne_nil hne
        rw [← hn]
        simp only [List.length_append]
        omega
      rw [squeeze_word_cons hs hne hg hrest, words_cons hs hne hg hrest, hgap, ih _ hlen rest rfl]
      rfl

theorem toList_joinWith (ws : List (List Char)) (w : List Char) :
    (joinWith " " ((w :: ws).map String.ofList)).toList = w ++ ws.flatMap (' ' :: ·) := by
  induction ws generalizing w with
  | nil => simp [joinWith]
  | cons v ws ih =>
    have hv := ih v
    rw [List.map_cons] at hv
    rw [List.map_cons, List.map_cons, joinWith, String.toList_append, String.toList_append, hv]
    simp

/-- `" ".join(text.split())` -/
theorem squeeze_start_eq (cs : List Char) :
    squeeze .start cs = (joinWith " " ((words cs).map String.ofList)).toList := by
  rcases exists_word cs with hblank | ⟨s, g, rest, rfl, hne, hs, hg, hrest⟩
  · rw [squeeze_blank hblank, words_nil hblank]
    rfl
  · have hstart : place .start s = .start := by
      rw [place_blank hs]
      split <;> rfl
    rw [squeeze_word_cons hs hne hg hrest, words_cons hs hne hg hrest, toList_joinWith, hstart,
      squeeze_gap_eq]
    rfl

end Words

end Squeeze
