import SibylMemory.Library.Substitute

/-!
# Texts with marks

Some pieces of a text are replaced by marks, in any choice of them that do not overlap. What can be
read in such a text is a part of the text itself, or it runs through a mark; `Meets` says on the text
alone when a word can. A substitution makes such a text, and of such a text another one as long as it
matches only what was not written before.
-/

namespace Marking
open Scrub Substitute

variable {α : Type}

/-- `gs` is the text with marks in the place of some of its pieces. -/
inductive Marks (replaced : List α → List α → Prop) : List α → List (α × Bool) → Prop where
  | nil : Marks replaced [] []
  | keep {c : α} {cs gs} (behind : Marks replaced cs gs) : Marks replaced (c :: cs) ((c, false) :: gs)
  | mark {piece c cs gs mark} (found : replaced piece (c :: mark)) (behind : Marks replaced cs gs) :
      Marks replaced (piece ++ cs) (tag true (c :: mark) ++ gs)

/-- A piece is at the front of the text, and `r` and its mark agree as far as both go. -/
def Runs (replaced : List α → List α → Prop) (cs r : List α) : Prop :=
  ∃ piece mark, replaced piece mark ∧ piece <+: cs ∧ (r <+: mark ∨ mark <+: r)

/-- The text has a piece, and `m` is a part of its mark. If `p` is in front of `m`, then `m` begins
the mark and `p` is in front of the piece; if something is behind it, then `m` ends the mark, `y` is
behind the piece, and what is left runs into the mark of a piece behind `y`. -/
inductive Meets (replaced : List α → List α → Prop) (text : List α) : List α → Prop where
  | intro {before piece after mark p m y r : List α} (found : replaced piece mark)
      (occurs : text = before ++ (piece ++ after)) (part : m <:+: mark) (nonempty : m ≠ [])
      (front : p ≠ [] → m <+: mark ∧ p <:+ before)
      (behind : y ++ r ≠ [] → m <:+ mark ∧ ∃ cs, after = y ++ cs ∧ (r ≠ [] → Runs replaced cs r)) :
      Meets replaced text (p ++ (m ++ (y ++ r)))

section Marks
variable {replaced : List α → List α → Prop} {cs : List α} {gs x : List (α × Bool)}

theorem Marks.mono {replaced' : List α → List α → Prop}
    (hr : ∀ piece mark, replaced piece mark → replaced' piece mark) (h : Marks replaced cs gs) :
    Marks replaced' cs gs := by
  induction h with
  | nil => exact .nil
  | keep behind ih => exact .keep ih
  | mark found behind ih => exact .mark (hr _ _ found) ih

theorem marks_tag (cs : List α) : Marks replaced cs (tag false cs) := by
  induction cs with
  | nil => exact .nil
  | cons c cs ih => exact .keep ih

/-- At a cut, the text is cut or a mark is. -/
theorem Marks.cut (h : Marks replaced cs gs) {l r : List (α × Bool)} (hgs : gs = l ++ r) :
    (∃ cs₁ cs₂, cs = cs₁ ++ cs₂ ∧ Marks replaced cs₁ l ∧ Marks replaced cs₂ r) ∨
    ∃ before piece after u v l' r', replaced piece (u ++ v) ∧ u ≠ [] ∧ v ≠ [] ∧
      cs = before ++ (piece ++ after) ∧ l = l' ++ tag true u ∧ r = tag true v ++ r' ∧
      Marks replaced before l' ∧ Marks replaced after r' := by
  induction h generalizing l with
  | nil =>
    obtain ⟨rfl, rfl⟩ := List.append_eq_nil_iff.mp hgs.symm
    exact .inl ⟨[], [], rfl, .nil, .nil⟩
  | @keep c cs gs behind ih =>
    cases l with
    | nil =>
      refine .inl ⟨[], c :: cs, rfl, .nil, ?_⟩
      rw [List.nil_append] at hgs
      rw [← hgs]
      exact .keep behind
    | cons g l =>
      obtain ⟨rfl, htail⟩ := List.cons.inj hgs
      rcases ih htail with ⟨cs₁, cs₂, rfl, h₁, h₂⟩ | ⟨before, piece, after, u, v, l', r', hfound, hu, hv,
        rfl, rfl, hr, h₁, h₂⟩
      · exact .inl ⟨c :: cs₁, cs₂, rfl, .keep h₁, h₂⟩
      · exact .inr ⟨c :: before, piece, after, u, v, (c, false) :: l', r', hfound, hu, hv, rfl, rfl, hr,
          .keep h₁, h₂⟩
  | @mark piece c cs gs mark found behind ih =>
    rcases List.append_eq_append_iff.mp hgs with ⟨l₂, rfl, htail⟩ | ⟨v, hv, rfl⟩
    · -- behind the mark
      rcases ih htail with ⟨cs₁, cs₂, rfl, h₁, h₂⟩ | ⟨before, piece', after, u, v, l', r', hfound, hu, hv,
        rfl, rfl, hr, h₁, h₂⟩
      · exact .inl ⟨piece ++ cs₁, cs₂, (List.append_assoc _ _ _).symm, .mark found h₁, h₂⟩
      · exact .inr ⟨piece ++ before, piece', after, u, v, tag true (c :: mark) ++ l', r', hfound, hu, hv,
          (List.append_assoc _ _ _).symm, (List.append_assoc _ _ _).symm, hr, .mark found h₁, h₂⟩
    · obtain ⟨u, v, hword, rfl, rfl⟩ := List.map_eq_append_iff.mp hv
      by_cases hu : u = []
      · subst hu
        refine .inl ⟨[], piece ++ cs, rfl, .nil, ?_⟩
        rw [List.nil_append] at hword
        subst hword
        exact .mark found behind
      · by_cases hv : v = []
        · subst hv
          rw [List.append_nil] at hword
          subst hword
          refine .inl ⟨piece, cs, rfl, ?_, behind⟩
          have hwhole := Marks.mark found (.nil : Marks replaced [] [])
          rw [List.append_nil, List.append_nil] at hwhole
          exact hwhole
        · exact .inr ⟨[], piece, cs, u, v, [], gs, hword ▸ found, hu, hv, rfl, rfl, rfl, .nil, behind⟩

/-- What was not written is the text itself. -/
theorem Marks.fresh_eq (h : Marks replaced cs gs) (hfresh : Fresh Prod.snd gs) : gs.map Prod.fst = cs := by
  induction h with
  | nil => rfl
  | keep behind ih =>
    rw [List.map_cons, ih fun g hg => hfresh g (List.mem_cons_of_mem _ hg)]
  | mark found behind ih =>
    have hfirst := hfresh _ (List.mem_append_left _ List.mem_cons_self)
    cases hfirst

theorem Marks.fresh_front {l : List (α × Bool)} (h : Marks replaced cs (x ++ l))
    (hfresh : Fresh Prod.snd x) : ∃ cs', cs = x.map Prod.fst ++ cs' ∧ Marks replaced cs' l := by
  rcases h.cut rfl with ⟨cs₁, cs₂, rfl, h₁, h₂⟩ | ⟨before, piece, after, u, v, l', r', -, hu, -, -, rfl, -⟩
  · exact ⟨cs₂, by rw [h₁.fresh_eq hfresh], h₂⟩
  · obtain ⟨c, u, rfl⟩ := List.exists_cons_of_ne_nil hu
    have hfirst := hfresh (c, true) (List.mem_append_right _ List.mem_cons_self)
    cases hfirst

theorem Marks.fresh_end {l : List (α × Bool)} (h : Marks replaced cs (l ++ x))
    (hfresh : Fresh Prod.snd x) : x.map Prod.fst <:+ cs := by
  rcases h.cut rfl with ⟨cs₁, cs₂, rfl, h₁, h₂⟩ | ⟨before, piece, after, u, v, l', r', -, -, hv, -, -, rfl, -⟩
  · rw [h₂.fresh_eq hfresh]
    exact List.suffix_append cs₁ cs₂
  · obtain ⟨c, v, rfl⟩ := List.exists_cons_of_ne_nil hv
    have hfirst := hfresh (c, true) List.mem_cons_self
    cases hfirst

/-- A character that was written is in a mark, and one that was not is in the text. -/
theorem Marks.cons_cases {c : α} {written : Bool} (h : Marks replaced cs ((c, written) :: gs)) :
    (written = false ∧ ∃ cs', cs = c :: cs' ∧ Marks replaced cs' gs) ∨
    ∃ piece mark cs' gs', written = true ∧ replaced piece (c :: mark) ∧ cs = piece ++ cs' ∧
      gs = tag true mark ++ gs' ∧ Marks replaced cs' gs' := by
  generalize hall : (c, written) :: gs = all at h
  cases h with
  | nil => cases hall
  | keep behind =>
    cases hall
    exact .inl ⟨rfl, _, rfl, behind⟩
  | mark found behind =>
    cases hall
    exact .inr ⟨_, _, _, _, rfl, found, rfl, rfl, behind⟩

/-! ### What is read -/

theorem Marks.runs (h : Marks replaced cs gs) {w : List α} (hw : w <+: gs.map Prod.fst) :
    ∃ y r, w = y ++ r ∧ ∃ cs', cs = y ++ cs' ∧ (r ≠ [] → Runs replaced cs' r) := by
  induction h generalizing w with
  | nil =>
    rw [List.prefix_nil.mp hw]
    exact ⟨[], [], rfl, [], rfl, fun hne => absurd rfl hne⟩
  | @keep c cs gs behind ih =>
    cases w with
    | nil => exact ⟨[], [], rfl, c :: cs, rfl, fun hne => absurd rfl hne⟩
    | cons d w =>
      obtain ⟨rfl, htail⟩ := List.cons_prefix_cons.mp hw
      obtain ⟨y, r, rfl, cs', rfl, hr⟩ := ih htail
      exact ⟨d :: y, r, rfl, cs', rfl, hr⟩
  | @mark piece c cs gs mark found behind ih =>
    rw [List.map_append, tag_fst] at hw
    refine ⟨[], w, rfl, piece ++ cs, rfl, fun _ => ⟨piece, c :: mark, found, List.prefix_append _ _, ?_⟩⟩
    exact List.prefix_or_prefix_of_prefix hw (List.prefix_append _ _)

/-- What is read from within a mark. -/
theorem read_mark {w v : List α} (hw : w <+: v ++ gs.map Prod.fst) (hv : v ≠ []) (hne : w ≠ [])
    (h : Marks replaced cs gs) :
    ∃ m y r, w = m ++ (y ++ r) ∧ m ≠ [] ∧ m <+: v ∧
      (y ++ r ≠ [] → m = v ∧ ∃ cs', cs = y ++ cs' ∧ (r ≠ [] → Runs replaced cs' r)) := by
  rcases List.prefix_or_prefix_of_prefix hw (List.prefix_append v _) with hin | ⟨q, rfl⟩
  · exact ⟨w, [], [], (List.append_nil w).symm, hne, hin, fun hnot => absurd rfl hnot⟩
  · obtain ⟨y, r, rfl, hbehind⟩ := h.runs ((List.prefix_append_right_inj v).mp hw)
    exact ⟨v, y, r, rfl, hv, List.prefix_refl v, fun _ => ⟨rfl, hbehind⟩⟩

/-- A word that is read where a mark takes part in it meets a mark. -/
theorem Marks.meets (h : Marks replaced cs gs) (hx : x <:+: gs) (hmarred : ∃ g ∈ x, g.2 = true) :
    Meets replaced cs (x.map Prod.fst) := by
  obtain ⟨front, ⟨c, written⟩, behind, rfl, hfresh, hg⟩ := exists_first_written hmarred
  obtain rfl : written = true := hg
  obtain ⟨a, b, hgs⟩ := hx
  have hcut : gs = (a ++ front) ++ ((c, true) :: (behind ++ b)) := by
    rw [← hgs]
    simp
  have hread : c :: behind.map Prod.fst <+: ((c, true) :: (behind ++ b)).map Prod.fst := by
    rw [List.map_cons, List.map_append]
    exact List.cons_prefix_cons.mpr ⟨rfl, List.prefix_append _ _⟩
  rw [List.map_append, List.map_cons]
  rcases h.cut hcut with ⟨cs₁, cs₂, rfl, h₁, h₂⟩ | ⟨before, piece, after, u, v, l', r', hfound, hu, hv,
    rfl, hl, hr, -, h₂⟩
  · -- the mark begins behind `front`
    rcases h₂.cons_cases with ⟨hwrong, -⟩ | ⟨piece, mark, after, gs', -, hfound, rfl, hbehind, h₂⟩
    · cases hwrong
    rw [hbehind, ← List.cons_append, List.map_append] at hread
    rw [show ((c, true) :: tag true mark).map Prod.fst = c :: mark from tag_fst true (c :: mark)] at hread
    obtain ⟨m, y, r, hw, hm, hpart, hrest⟩ :=
      read_mark hread (List.cons_ne_nil _ _) (List.cons_ne_nil _ _) h₂
    rw [hw]
    refine .intro hfound rfl hpart.isInfix hm (fun _ => ⟨hpart, h₁.fresh_end hfresh⟩) fun hne => ?_
    obtain ⟨rfl, hafter⟩ := hrest hne
    exact ⟨List.suffix_refl _, hafter⟩
  · -- nothing is in front of a character within a mark
    have hfront : front = [] := by
      obtain ⟨u, d, rfl⟩ := (List.eq_nil_or_concat' u).resolve_left hu
      rw [tag_append, ← List.append_assoc] at hl
      rcases List.eq_nil_or_concat' front with hnil | ⟨front, e, rfl⟩
      · exact hnil
      · rw [← List.append_assoc] at hl
        have hlast := List.append_inj_right' hl rfl
        have hwritten := hfresh e (List.mem_append_right _ List.mem_cons_self)
        cases hlast
        cases hwritten
    subst hfront
    rw [hr, List.map_append, tag_fst] at hread
    obtain ⟨m, y, r, hw, hm, hpart, hrest⟩ := read_mark hread hv (List.cons_ne_nil _ _) h₂
    rw [hw]
    refine .intro hfound rfl (hpart.isInfix.trans (List.suffix_append u v).isInfix) hm
      (fun hne => absurd rfl hne) fun hne => ?_
    obtain ⟨rfl, hafter⟩ := hrest hne
    exact ⟨List.suffix_append u _, hafter⟩

end Marks

/-! ### Substitutions -/

section Substitutions
variable {replaced : List α → List α → Prop} {pattern : Matcher (α × Bool)} {c : α} {mark : List α}

theorem marks_pieces {n : Nat} {gs rest : List (α × Bool)} {v cs : List α}
    (hmatch : ∀ l, l <:+ gs → ∀ n, pattern l = some n →
      0 < n ∧ Fresh Prod.snd (l.take n) ∧ replaced ((l.take n).map Prod.fst) (c :: mark))
    (hrest : gs.drop n = tag true v ++ rest) (hv : 0 < n → v = []) (h : Marks replaced cs rest) :
    ∃ rest', render (tag true (c :: mark)) (pieces pattern n gs) = tag true v ++ rest' ∧
      Marks replaced cs rest' := by
  induction gs generalizing n v rest cs with
  | nil =>
    rw [List.drop_nil] at hrest
    obtain ⟨hv, rfl⟩ := List.append_eq_nil_iff.mp hrest.symm
    exact ⟨[], by rw [hv]; rfl, h⟩
  | cons g gs ih =>
    have hmatch' : ∀ l, l <:+ gs → ∀ n, pattern l = some n →
        0 < n ∧ Fresh Prod.snd (l.take n) ∧ replaced ((l.take n).map Prod.fst) (c :: mark) :=
      fun l hl => hmatch l (hl.trans (List.suffix_cons g gs))
    cases n with
    | succ n => exact ih hmatch' hrest (fun _ => hv (Nat.succ_pos n)) h
    | zero =>
      rw [List.drop_zero] at hrest
      rw [pieces]
      cases hfound : pattern (g :: gs) with
      | some n =>
        -- a match is not within a mark
        obtain ⟨hpos, hfresh, hreplaced⟩ := hmatch _ (List.suffix_refl _) n hfound
        obtain ⟨n, rfl⟩ := Nat.exists_eq_add_one.mpr hpos
        have hg : g.2 = false := hfresh g (by rw [List.take_succ_cons]; exact List.mem_cons_self)
        cases v with
        | cons d v =>
          obtain ⟨rfl, -⟩ := List.cons.inj hrest
          cases hg
        | nil =>
          obtain rfl : g :: gs = rest := hrest
          rw [← List.take_append_drop (n + 1) (g :: gs)] at h
          obtain ⟨cs', rfl, hcs'⟩ := h.fresh_front hfresh
          obtain ⟨rest', hrender, hmarks⟩ := ih hmatch' (n := n) (v := []) rfl (fun _ => rfl) hcs'
          exact ⟨tag true (c :: mark) ++ rest', by rw [render_hide, Nat.add_sub_cancel, hrender]; rfl,
            .mark hreplaced hmarks⟩
      | none =>
        dsimp only
        rw [render]
        cases v with
        | cons d v =>
          obtain ⟨rfl, htail⟩ := List.cons.inj hrest
          obtain ⟨rest', hrender, hmarks⟩ := ih hmatch' (n := 0) htail (fun hlt => absurd hlt (lt_irrefl 0)) h
          exact ⟨rest', by rw [hrender]; rfl, hmarks⟩
        | nil =>
          obtain rfl : g :: gs = rest := hrest
          obtain ⟨d, written⟩ := g
          rcases h.cons_cases with ⟨rfl, cs', rfl, hcs'⟩ | ⟨piece, word, cs', gs', rfl, hword, rfl, rfl, hcs'⟩
          · obtain ⟨rest', hrender, hmarks⟩ := ih hmatch' (n := 0) (v := []) rfl (fun _ => rfl) hcs'
            exact ⟨(d, false) :: rest', by rw [hrender]; rfl, .keep hmarks⟩
          · obtain ⟨rest', hrender, hmarks⟩ := ih hmatch' (n := 0) rfl (fun hlt => absurd hlt (lt_irrefl 0)) hcs'
            exact ⟨tag true (d :: word) ++ rest', by rw [hrender]; rfl, .mark hword hmarks⟩

/-- A substitution that matches only pieces of the text puts marks in their place. -/
theorem Marks.substitute {gs : List (α × Bool)} {cs word : List α} (hne : word ≠ [])
    (h : Marks replaced cs gs) (hmatch : ∀ l, l <:+ gs → ∀ n, pattern l = some n →
      0 < n ∧ Fresh Prod.snd (l.take n) ∧ replaced ((l.take n).map Prod.fst) word) :
    Marks replaced cs (substitute pattern (tag true word) gs) := by
  obtain ⟨c, mark, rfl⟩ := List.exists_cons_of_ne_nil hne
  obtain ⟨gs', hrender, hmarks⟩ := marks_pieces (n := 0) (v := []) hmatch rfl (fun _ => rfl) h
  rw [Substitute.substitute, hrender]
  exact hmarks

end Substitutions

end Marking
