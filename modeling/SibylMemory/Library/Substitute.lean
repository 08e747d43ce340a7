import Mathlib.Data.List.Infix
import SibylMemory.Library.Scrub

/-!
# Substitution by a mark, and what the mark may spell

A pattern says how much of the front of a text it matches; every match is replaced by a mark. Over
characters that know whether they were written by a substitution, a word that was replaced is only
found where a written character takes part in it, and later substitutions keep that.
-/

namespace Substitute
open Scrub

variable {α : Type}

/-- The length of the match at the front. -/
abbrev Matcher (α : Type) := List α → Option Nat

/-- A scan; the number counts down what is left of a match. -/
def pieces (pattern : Matcher α) : Nat → List α → List (Piece α)
  | _, [] => []
  | n + 1, _ :: cs => pieces pattern n cs
  | 0, c :: cs =>
    match pattern (c :: cs) with
    | some n => .hide ((c :: cs).take n) :: pieces pattern (n - 1) cs
    | none => .keep c :: pieces pattern 0 cs

def substitute (pattern : Matcher α) (mark cs : List α) : List α :=
  render mark (pieces pattern 0 cs)

/-- `word in text`, looked for at the front. -/
def wordMatcher [DecidableEq α] (word : List α) : Matcher α := fun cs =>
  if word <+: cs then some word.length else none

/-- A match is not empty. -/
def Positive (pattern : Matcher α) : Prop := ∀ cs n, pattern cs = some n → 0 < n

theorem wordMatcher_positive [DecidableEq α] {word : List α} (h : word ≠ []) :
    Positive (wordMatcher word) := by
  intro cs n hn
  rw [wordMatcher] at hn
  split at hn
  · cases hn
    exact List.length_pos_iff.mpr h
  · cases hn

theorem pieces_text {pattern : Matcher α} (hp : Positive pattern) (n : Nat) (cs : List α) :
    text (pieces pattern n cs) = cs.drop n := by
  induction cs generalizing n with
  | nil => simp [pieces, text]
  | cons c cs ih =>
    cases n with
    | succ n => rw [pieces, ih, List.drop_succ_cons]
    | zero =>
      rw [pieces]
      split
      · rename_i m hm
        obtain ⟨k, rfl⟩ := Nat.exists_eq_add_one.mpr (hp _ _ hm)
        rw [text_hide, ih, Nat.add_sub_cancel, List.take_succ_cons, List.cons_append,
          List.take_append_drop, List.drop_zero]
      · rw [text, ih, List.drop_zero, List.drop_zero]

section Words
variable {mark w : List α} {pattern : Matcher α}

theorem absent_substitute (hw : Apart mark w) (hp : Positive pattern) {cs : List α}
    (h : ¬ w <:+: cs) : ¬ w <:+: substitute pattern mark cs := by
  refine absent_render hw ?_
  rw [pieces_text hp, List.drop_zero]
  exact h

theorem absent_mark (hw : Apart mark w) (hne : w ≠ []) : ¬ w <:+: mark := by
  intro h
  have hsides := hw [] [] (by simpa using h)
  simp [hne] at hsides

end Words

/-! ### Characters that were written -/

section Written
variable {written : α → Bool} {mark x : List α} {pattern : Matcher α}

def Fresh (written : α → Bool) (x : List α) : Prop := ∀ g ∈ x, written g = false

theorem fresh_front_mark (hmark : mark ≠ []) (hwritten : ∀ g ∈ mark, written g = true)
    {rest : List α} (hx : Fresh written x) (h : x <+: mark ++ rest) : x = [] := by
  cases x with
  | nil => rfl
  | cons g x =>
    obtain ⟨m, mark, rfl⟩ := List.exists_cons_of_ne_nil hmark
    obtain ⟨rfl, -⟩ := List.cons_prefix_cons.mp h
    have hfalse := hx g List.mem_cons_self
    rw [hwritten g List.mem_cons_self] at hfalse
    cases hfalse

theorem fresh_behind_mark (hwritten : ∀ g ∈ mark, written g = true) {rest : List α}
    (hx : Fresh written x) (h : x <:+: mark ++ rest) : x = [] ∨ x <:+: rest := by
  induction mark with
  | nil => exact .inr h
  | cons m mark ih =>
    rcases List.infix_cons_iff.mp h with hprefix | htail
    · exact .inl (fresh_front_mark (List.cons_ne_nil m mark) hwritten hx hprefix)
    · exact ih (fun g hg => hwritten g (List.mem_cons_of_mem _ hg)) htail

theorem fresh_front (hmark : mark ≠ []) (hwritten : ∀ g ∈ mark, written g = true)
    (hx : Fresh written x) {n : Nat} {gs : List α}
    (h : x <+: render mark (pieces pattern n gs)) : x <+: gs.drop n := by
  induction gs generalizing n x with
  | nil => simpa [pieces, render] using h
  | cons c gs ih =>
    cases n with
    | succ n =>
      rw [pieces] at h
      exact ih hx h
    | zero =>
      rw [pieces] at h
      split at h
      · rw [render_hide] at h
        rw [fresh_front_mark hmark hwritten hx h]
        exact List.nil_prefix
      · rw [render] at h
        cases x with
        | nil => exact List.nil_prefix
        | cons g x =>
          obtain ⟨rfl, htail⟩ := List.cons_prefix_cons.mp h
          have hdrop := ih (fun g' hg' => hx g' (List.mem_cons_of_mem _ hg')) htail
          exact List.cons_prefix_cons.mpr ⟨rfl, hdrop⟩

/-- What no substitution wrote was there before. -/
theorem fresh_part (hmark : mark ≠ []) (hwritten : ∀ g ∈ mark, written g = true)
    (hx : Fresh written x) {n : Nat} {gs : List α}
    (h : x <:+: render mark (pieces pattern n gs)) : x <:+: gs.drop n := by
  induction gs generalizing n with
  | nil => simpa [pieces, render] using h
  | cons c gs ih =>
    cases n with
    | succ n =>
      rw [pieces] at h
      exact ih h
    | zero =>
      have hwhole : x <+: render mark (pieces pattern 0 (c :: gs)) → x <+: c :: gs :=
        fresh_front hmark hwritten hx
      rw [pieces] at h hwhole
      split at h
      · rw [render_hide] at h
        rcases fresh_behind_mark hwritten hx h with rfl | hrest
        · exact List.nil_infix
        · exact (ih hrest).trans ((List.drop_suffix _ _).isInfix.trans (List.suffix_cons c gs).isInfix)
      · rename_i hnone
        rw [hnone] at hwhole
        rw [render] at h hwhole
        rcases List.infix_cons_iff.mp h with hprefix | htail
        · exact (hwhole hprefix).isInfix
        · exact (ih htail).trans (List.suffix_cons c gs).isInfix

/-- The word is only found where something written takes part in it. -/
def Marred {β : Type} (f : α → β) (written : α → Bool) (w : List β) (gs : List α) : Prop :=
  ∀ x, x <:+: gs → x.map f = w → ∃ g ∈ x, written g = true

variable {β : Type} {f : α → β} {w : List β}

theorem fresh_of_not_marred (h : ¬ ∃ g ∈ x, written g = true) : Fresh written x := by
  intro g hg
  by_contra hne
  exact h ⟨g, hg, by simpa using hne⟩

theorem exists_first_written (h : ∃ g ∈ x, written g = true) :
    ∃ front g behind, x = front ++ g :: behind ∧ Fresh written front ∧ written g = true := by
  induction x with
  | nil =>
    obtain ⟨g, hg, -⟩ := h
    cases hg
  | cons c x ih =>
    by_cases hc : written c = true
    · exact ⟨[], c, x, rfl, nofun, hc⟩
    · obtain ⟨g, hg, hw⟩ := h
      have hbehind : g ∈ x := by
        rcases List.mem_cons.mp hg with rfl | hbehind
        · exact absurd hw hc
        · exact hbehind
      obtain ⟨front, g', behind, rfl, hfresh, hw'⟩ := ih ⟨g, hbehind, hw⟩
      refine ⟨c :: front, g', behind, rfl, fun d hd => ?_, hw'⟩
      rcases List.mem_cons.mp hd with rfl | hd
      · exact Bool.not_eq_true _ ▸ hc
      · exact hfresh d hd

theorem Marred.substitute (hmark : mark ≠ []) (hwritten : ∀ g ∈ mark, written g = true)
    {gs : List α} (h : Marred f written w gs) :
    Marred f written w (substitute pattern mark gs) := by
  intro x hx hw
  by_contra hfresh
  exact hfresh (h x (fresh_part hmark hwritten (fresh_of_not_marred hfresh) hx) hw)

theorem marred_pieces [DecidableEq β] (hmark : mark ≠ []) (hwritten : ∀ g ∈ mark, written g = true)
    (hne : w ≠ []) (n : Nat) (gs : List α) :
    Marred f written w (render mark (pieces (fun l => wordMatcher w (l.map f)) n gs)) := by
  induction gs generalizing n with
  | nil =>
    intro x hx hw
    have hnil : x = [] := by simpa [pieces, render] using hx
    subst hnil
    exact absurd hw.symm hne
  | cons c gs ih =>
    intro x hx hw
    by_contra hmarred
    have hfresh := fresh_of_not_marred hmarred
    cases n with
    | succ n =>
      rw [pieces] at hx
      exact hmarred (ih n x hx hw)
    | zero =>
      have hwhole : x <+: render mark (pieces (fun l => wordMatcher w (l.map f)) 0 (c :: gs)) →
          x <+: c :: gs := fresh_front hmark hwritten hfresh
      rw [pieces] at hx hwhole
      split at hx
      · rw [render_hide] at hx
        rcases fresh_behind_mark hwritten hfresh hx with rfl | hrest
        · exact hne hw.symm
        · exact hmarred (ih _ x hrest hw)
      · rename_i hnone
        rw [hnone] at hwhole
        rw [render] at hx hwhole
        rcases List.infix_cons_iff.mp hx with hprefix | htail
        · -- a word at the front would have been matched
          have hfound : w <+: (c :: gs).map f := hw ▸ (hwhole hprefix).map f
          rw [wordMatcher, if_pos hfound] at hnone
          cases hnone
        · exact hmarred (ih 0 x htail hw)

/-- Replacing a word leaves it only where a mark takes part in it. -/
theorem marred_word [DecidableEq β] (hmark : mark ≠ []) (hwritten : ∀ g ∈ mark, written g = true)
    (hne : w ≠ []) (gs : List α) :
    Marred f written w (substitute (fun l => wordMatcher w (l.map f)) mark gs) :=
  marred_pieces hmark hwritten hne 0 gs

theorem map_pieces {matcher : Matcher β} (n : Nat) (gs : List α) :
    (render mark (pieces (fun l => matcher (l.map f)) n gs)).map f =
      render (mark.map f) (pieces matcher n (gs.map f)) := by
  induction gs generalizing n with
  | nil => simp [pieces, render]
  | cons c gs ih =>
    cases n with
    | succ n => rw [List.map_cons, pieces, pieces, ih]
    | zero =>
      rw [List.map_cons, pieces, pieces, List.map_cons]
      split
      · rw [render_hide, render_hide, List.map_append, ih]
      · rw [render, render, List.map_cons, ih]

/-- The substitution itself does not look at what was written. -/
theorem map_substitute {matcher : Matcher β} (gs : List α) :
    (substitute (fun l => matcher (l.map f)) mark gs).map f =
      substitute matcher (mark.map f) (gs.map f) := map_pieces 0 gs

/-! ### Words apart from the mark -/

theorem keep_mem {n : Nat} {gs : List α} {g : α} (h : .keep g ∈ pieces pattern n gs) : g ∈ gs := by
  induction gs generalizing n with
  | nil => simp [pieces] at h
  | cons c gs ih =>
    cases n with
    | succ n =>
      rw [pieces] at h
      exact List.mem_cons_of_mem _ (ih h)
    | zero =>
      rw [pieces] at h
      split at h
      · rcases List.mem_cons.mp h with hhead | htail
        · cases hhead
        · exact List.mem_cons_of_mem _ (ih htail)
      · rcases List.mem_cons.mp h with hhead | htail
        · cases hhead
          exact List.mem_cons_self
        · exact List.mem_cons_of_mem _ (ih htail)

/-- A word apart from the mark is found in a stretch between marks. -/
theorem fresh_of_apart (hw : Apart (mark.map f) w) {ps : List (Piece α)}
    (hps : ∀ g, .keep g ∈ ps → written g = false) {k : List α} (hk : Fresh written k)
    (h : w <:+: (k ++ render mark ps).map f) :
    ∃ x, x <:+: k ++ render mark ps ∧ x.map f = w ∧ Fresh written x := by
  induction ps generalizing k with
  | nil =>
    rw [render, List.append_nil] at h ⊢
    obtain ⟨x, hx, rfl⟩ := List.infix_map_iff.mp h
    exact ⟨x, hx, rfl, fun g hg => hk g (hx.subset hg)⟩
  | cons p ps ih =>
    have htail : ∀ g, .keep g ∈ ps → written g = false := fun g hg =>
      hps g (List.mem_cons_of_mem _ hg)
    cases p with
    | keep c =>
      have hkc : Fresh written (k ++ [c]) := by
        intro g hg
        rcases List.mem_append.mp hg with hg | hg
        · exact hk g hg
        · rw [List.mem_singleton.mp hg]
          exact hps c List.mem_cons_self
      have hmove : k ++ render mark (.keep c :: ps) = (k ++ [c]) ++ render mark ps := by
        simp [render]
      rw [hmove] at h ⊢
      exact ih htail hkc h
    | hide removed =>
      rw [render_hide, ← List.append_assoc, List.map_append, List.map_append] at h
      rcases hw _ _ h with hleft | hright
      · obtain ⟨x, hx, rfl⟩ := List.infix_map_iff.mp hleft
        exact ⟨x, hx.trans (List.infix_append' [] k _), rfl, fun g hg => hk g (hx.subset hg)⟩
      · obtain ⟨x, hx, hwx, hfresh⟩ := ih (k := []) htail (fun g hg => by cases hg) hright
        refine ⟨x, hx.trans ?_, hwx, hfresh⟩
        rw [render_hide, List.nil_append, ← List.append_assoc]
        exact (List.suffix_append _ _).isInfix

end Written

/-- Characters with the note whether they were written. -/
def tag (written : Bool) (cs : List α) : List (α × Bool) := cs.map fun c => (c, written)

@[simp] theorem tag_fst (written : Bool) (cs : List α) : (tag written cs).map Prod.fst = cs := by
  rw [tag, List.map_map]
  exact List.map_id cs

@[simp] theorem tag_append (written : Bool) (cs ds : List α) :
    tag written (cs ++ ds) = tag written cs ++ tag written ds := List.map_append

theorem mem_tag {written : Bool} {cs : List α} : ∀ g ∈ tag written cs, g.2 = written := by
  intro g hg
  obtain ⟨c, -, rfl⟩ := List.mem_map.mp hg
  rfl

theorem absent_word [DecidableEq α] {mark w cs : List α} (hw : Apart mark w) (hmark : mark ≠ [])
    (hne : w ≠ []) : ¬ w <:+: substitute (wordMatcher w) mark cs := by
  intro h
  rw [← tag_fst true mark, ← tag_fst false cs, ← map_substitute] at h
  obtain ⟨x, hx, hwx, hfresh⟩ := fresh_of_apart (k := []) (by rw [tag_fst]; exact hw)
    (fun g hg => mem_tag g (keep_mem hg)) (fun g hg => by cases hg) h
  obtain ⟨g, hg, hgw⟩ := marred_word (by simpa [tag] using hmark) mem_tag hne _ x hx hwx
  rw [hfresh g hg] at hgw
  cases hgw

/-! ### What is left to find -/

section Rest
variable {pattern matcher : Matcher α} {mark cs : List α}

theorem substitute_unmatched (h : ∀ l, l <:+ cs → l ≠ [] → pattern l = none) :
    substitute pattern mark cs = cs := by
  induction cs with
  | nil => rfl
  | cons c cs ih =>
    have htail := ih fun l hl hne => h l (hl.trans (List.suffix_cons c cs)) hne
    rw [substitute] at htail ⊢
    rw [pieces, h _ (List.suffix_refl _) (List.cons_ne_nil c cs)]
    dsimp only
    rw [render, htail]

/-- A scan keeps the text up to the first match. -/
theorem pieces_first (pattern : Matcher α) (mark cs : List α) :
    render mark (pieces pattern 0 cs) = cs ∨ ∃ u l r, cs = u ++ l ∧ (pattern l).isSome ∧
      render mark (pieces pattern 0 cs) = u ++ (mark ++ r) := by
  induction cs with
  | nil => exact .inl rfl
  | cons c cs ih =>
    rw [pieces]
    cases hfound : pattern (c :: cs) with
    | some n => exact .inr ⟨[], c :: cs, _, rfl, by rw [hfound]; rfl, rfl⟩
    | none =>
      dsimp only
      rw [render]
      rcases ih with hsame | ⟨u, l, r, rfl, hl, hr⟩
      · exact .inl (by rw [hsame])
      · exact .inr ⟨c :: u, l, r, rfl, hl, by rw [hr, List.cons_append]⟩

/-- A substitution leaves nothing for a matcher that finds nothing where it found nothing itself,
nothing in the mark, and nothing that runs into the mark unless it ran into what the mark replaces. -/
theorem unmatched_substitute (hkept : ∀ l, l <:+ cs → l ≠ [] → pattern l = none → matcher l = none)
    (hmark : ∀ v r, v <:+ mark → v ≠ [] → matcher (v ++ r) = none)
    (hcross : ∀ u l r, u ≠ [] → matcher (u ++ l) = none → (pattern l).isSome →
      matcher (u ++ (mark ++ r)) = none) :
    ∀ l, l <:+ substitute pattern mark cs → l ≠ [] → matcher l = none := by
  suffices h : ∀ n l, l <:+ render mark (pieces pattern n cs) → l ≠ [] → matcher l = none from h 0
  induction cs with
  | nil =>
    intro n l hl hne
    exact absurd (List.suffix_nil.mp hl) hne
  | cons c cs ih =>
    have hrest := ih fun l hl => hkept l (hl.trans (List.suffix_cons c cs))
    intro n l hl hne
    cases n with
    | succ n => exact hrest n l hl hne
    | zero =>
      rw [pieces] at hl
      cases hfound : pattern (c :: cs) with
      | some n =>
        rw [hfound] at hl
        dsimp only at hl
        rw [render_hide] at hl
        rcases List.suffix_or_suffix_of_suffix hl (List.suffix_append mark _) with hbehind | ⟨v, rfl⟩
        · exact hrest _ l hbehind hne
        · obtain ⟨front, hfront⟩ := hl
          rw [← List.append_assoc] at hfront
          have hv : v <:+ mark := ⟨front, List.append_cancel_right hfront⟩
          by_cases hnil : v = []
          · subst hnil
            exact hrest _ _ (List.suffix_refl _) hne
          · exact hmark v _ hv hnil
      | none =>
        rw [hfound] at hl
        dsimp only at hl
        rw [render] at hl
        rcases List.suffix_cons_iff.mp hl with rfl | hbehind
        · have hnone := hkept _ (List.suffix_refl _) (List.cons_ne_nil c cs) hfound
          rcases pieces_first pattern mark cs with hsame | ⟨u, l, r, rfl, hl, hr⟩
          · rw [hsame]
            exact hnone
          · rw [hr]
            exact hcross (c :: u) l r (List.cons_ne_nil c u) hnone hl
        · exact hrest 0 l hbehind hne

end Rest

end Substitute
