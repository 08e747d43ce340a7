import Mathlib.Data.List.Infix

/-!
# Replacing what a pattern finds

A pattern looks at the front of a text: it may keep a first part and have the next part replaced
by a marker. A scan goes from left to right and goes on behind what it replaced. A word that
cannot be read together with the marker is only found in a scanned text where the text itself
had it and nothing of it was replaced.
-/

namespace Scrub

inductive Piece (α : Type) where
  | keep (c : α)
  | hide (removed : List α)

/-- The value to replace with all behind it, and what is behind it. -/
abbrev Pattern (α : Type) := List α → Option (List α × List α)

variable {α : Type} {pattern : Pattern α} {marker : List α}

def text : List (Piece α) → List α
  | [] => []
  | .keep c :: ps => c :: text ps
  | .hide removed :: ps => removed ++ text ps

def render (marker : List α) : List (Piece α) → List α
  | [] => []
  | .keep c :: ps => c :: render marker ps
  | .hide _ :: ps => marker ++ render marker ps

/-- A match keeps something and returns ends of the text. -/
def Lawful (pattern : Pattern α) : Prop :=
  ∀ cs value after, pattern cs = some (value, after) → ∃ kept removed, kept ≠ [] ∧
    cs = kept ++ removed ++ after ∧ value = removed ++ after

inductive Scan (pattern : Pattern α) : List α → List (Piece α) → Prop
  | nil : Scan pattern [] []
  | skip {c cs ps} (silent : pattern (c :: cs) = none) (rest : Scan pattern cs ps) :
      Scan pattern (c :: cs) (.keep c :: ps)
  | hit {kept removed after ps} (begins : kept ≠ [])
      (found : pattern (kept ++ removed ++ after) = some (removed ++ after, after))
      (rest : Scan pattern after ps) :
      Scan pattern (kept ++ removed ++ after) (kept.map .keep ++ .hide removed :: ps)

section Pieces
variable {ps qs : List (Piece α)}

@[simp] theorem text_append : text (ps ++ qs) = text ps ++ text qs := by
  induction ps with
  | nil => rfl
  | cons p ps ih =>
    cases p with
    | keep c => rw [List.cons_append, text, ih, text, List.cons_append]
    | hide removed => rw [List.cons_append, text, ih, text, List.append_assoc]

@[simp] theorem render_append : render marker (ps ++ qs) = render marker ps ++ render marker qs := by
  induction ps with
  | nil => rfl
  | cons p ps ih =>
    cases p with
    | keep c => rw [List.cons_append, render, ih, render, List.cons_append]
    | hide removed => rw [List.cons_append, render, ih, render, List.append_assoc]

@[simp] theorem text_keep (l : List α) : text (l.map .keep) = l := by
  induction l with
  | nil => rfl
  | cons c l ih => rw [List.map_cons, text, ih]

@[simp] theorem render_keep (l : List α) : render marker (l.map .keep) = l := by
  induction l with
  | nil => rfl
  | cons c l ih => rw [List.map_cons, render, ih]

@[simp] theorem text_hide (removed : List α) : text (.hide removed :: ps) = removed ++ text ps := rfl

@[simp] theorem render_hide (removed : List α) :
    render marker (.hide removed :: ps) = marker ++ render marker ps := rfl

theorem Scan.text_eq {cs : List α} (h : Scan pattern cs ps) : text ps = cs := by
  induction h with
  | nil => rfl
  | skip _ _ ih => rw [text, ih]
  | hit _ _ _ ih => simp [ih]

end Pieces

/-! ### Words -/

/-- The word is never read together with a part of the marker. -/
def Apart (marker w : List α) : Prop :=
  ∀ a b, w <:+: a ++ marker ++ b → w <:+: a ∨ w <:+: b

section Words
variable {w : List α} {ps : List (Piece α)}

theorem infix_append {l a b : List α} (h : w <:+: l) : w <:+: a ++ l ++ b :=
  h.trans (List.infix_append _ _ _)

theorem infix_text (hw : Apart marker w) {k : List α} (h : w <:+: k ++ render marker ps) :
    w <:+: k ++ text ps := by
  induction ps generalizing k with
  | nil => exact h
  | cons p ps ih =>
    cases p with
    | keep c =>
      have hk : w <:+: (k ++ [c]) ++ render marker ps := by simpa [render] using h
      simpa [text] using ih hk
    | hide removed =>
      rw [render, ← List.append_assoc] at h
      rw [text, ← List.append_assoc]
      rcases hw _ _ h with h | h
      · exact (infix_append (a := []) (b := removed ++ text ps) h).trans (by simp)
      · have htext := ih (k := []) h
        exact (infix_append (a := k ++ removed) (b := []) htext).trans (by simp)

theorem absent_render (hw : Apart marker w) (h : ¬ w <:+: text ps) : ¬ w <:+: render marker ps :=
  fun hr => h (infix_text (k := []) hw hr)

theorem absent_hide (hw : Apart marker w) {removed : List α} {qs : List (Piece α)}
    (hps : ¬ w <:+: text ps) (hqs : ¬ w <:+: text qs) :
    ¬ w <:+: render marker (ps ++ .hide removed :: qs) := by
  intro h
  rw [render_append, render_hide, ← List.append_assoc] at h
  rcases hw _ _ h with h | h
  · exact absent_render hw hps h
  · exact absent_render hw hqs h

end Words

/-! ### Boundaries -/

section Boundaries
variable {p : α → Bool} {A B x tail b after X S : List α}

/-- A stretch that a text begins with ends in front of a part that begins otherwise. -/
theorem stretch_before (hx : ∀ c ∈ x, p c = true) (hB : ∀ c ∈ B.head?, p c = false)
    (h : A ++ B = x ++ tail) : ∃ A', A = x ++ A' ∧ A' ++ B = tail := by
  rcases List.append_eq_append_iff.mp h with ⟨t, ht, hB'⟩ | ⟨t, ht, htail⟩
  · cases t with
    | nil => exact ⟨[], by simp [ht], by simpa using hB'⟩
    | cons d t =>
      have hd := hB d (by rw [hB']; rfl)
      rw [hx d (by rw [ht]; simp)] at hd
      cases hd
  · exact ⟨t, ht, htail.symm⟩

/-- A longest stretch that begins with a part of a stretch goes on to its end. -/
theorem stretch_over (hX : ∀ c ∈ X, p c = true) (hafter : ∀ c ∈ after.head?, p c = false)
    (h : b ++ after = X ++ S) : ∃ s, b = X ++ s ∧ S = s ++ after := by
  rcases List.append_eq_append_iff.mp h with ⟨t, ht, hS⟩ | ⟨t, ht, hS⟩
  · cases t with
    | nil => exact ⟨[], by simpa using ht.symm, by simpa using hS.symm⟩
    | cons d t =>
      have hd := hafter d (by rw [hS]; rfl)
      rw [hX d (by rw [ht]; simp)] at hd
      cases hd
  · exact ⟨t, ht, hS⟩

/-- Two texts that end alike behind the last character of a kind. -/
theorem last_unique {l l' a a' : List α} {c c' : α} (ha : ∀ d ∈ a, p d = true)
    (ha' : ∀ d ∈ a', p d = true) (hc : p c = false) (hc' : p c' = false)
    (h : l ++ c :: a = l' ++ c' :: a') : l = l' ∧ c = c' ∧ a = a' := by
  have hshort : ∀ {l l' a a' : List α} {c c' : α}, (∀ d ∈ a, p d = true) → p c' = false →
      l ++ c :: a = l' ++ c' :: a' → l'.length ≤ l.length := by
    intro l l' a a' c c' ha hc' h
    by_contra hlt
    rcases List.append_eq_append_iff.mp h with ⟨t, ht, htail⟩ | ⟨t, ht, -⟩
    · cases t with
      | nil =>
        rw [ht] at hlt
        simp at hlt
      | cons d t =>
        have hmem : c' ∈ a := by
          rw [(List.cons.inj htail).2]
          simp
        rw [ha c' hmem] at hc'
        cases hc'
    · rw [ht] at hlt
      simp at hlt
  have hlen := le_antisymm (hshort ha' hc h.symm) (hshort ha hc' h)
  obtain ⟨hl, htail⟩ := List.append_inj h hlen
  obtain ⟨hcc, haa⟩ := List.cons.inj htail
  exact ⟨hl, hcc, haa⟩

/-- A word of characters of a kind is not found across characters of no such kind. -/
theorem infix_before {m N E : List α} (hne : m ≠ []) (hm : ∀ c ∈ m, p c = true)
    (hE : ∀ c ∈ E, p c = false) (h : m <:+: N ++ E) : m <:+: N := by
  obtain ⟨x, y, h⟩ := h
  rcases List.append_eq_append_iff.mp h with ⟨t, ht, -⟩ | ⟨t, ht, htail⟩
  · exact ⟨x, t, ht.symm⟩
  · rcases List.eq_nil_or_concat t with rfl | ⟨t', c, rfl⟩
    · exact ⟨x, [], by simpa using ht⟩
    · obtain ⟨m', d, rfl⟩ := (List.eq_nil_or_concat m).resolve_left hne
      have hlast : (x ++ m') ++ [d] = (N ++ t') ++ [c] := by simpa using ht
      have hdc := (List.cons.inj (List.append_inj' hlast rfl).2).1
      have hd := hm d (by simp)
      rw [hdc, hE c (by rw [htail]; simp)] at hd
      cases hd

end Boundaries

/-! ### Scans -/

section Scans
variable {A B : List α} {ps : List (Piece α)}

/-- A match that begins in front of a boundary and ends behind it. -/
inductive Crossing (pattern : Pattern α) (A B : List α) (ps : List (Piece α)) : Prop
  | intro (A₁ A₂ : List α) (psA psB : List (Piece α)) (kept removed after b : List α)
      (front : A = A₁ ++ A₂) (begins : A₂ ≠ []) (ends : b ≠ []) (behind : B = b ++ after)
      (parts : A₂ ++ B = kept ++ removed ++ after)
      (found : pattern (A₂ ++ B) = some (removed ++ after, after)) (before : text psA = A₁)
      (rest : Scan pattern after psB) (pieces : ps = psA ++ kept.map .keep ++ .hide removed :: psB)

/-- A scan stops at a boundary or a match crosses it. -/
theorem Scan.split (h : Scan pattern (A ++ B) ps) :
    (∃ psA psB, ps = psA ++ psB ∧ text psA = A ∧ Scan pattern B psB) ∨ Crossing pattern A B ps := by
  generalize hT : A ++ B = T at h
  induction h generalizing A with
  | nil =>
    obtain ⟨rfl, rfl⟩ := List.append_eq_nil_iff.mp hT
    exact .inl ⟨[], [], rfl, rfl, .nil⟩
  | @skip c cs ps hnone hrest ih =>
    cases A with
    | nil =>
      refine .inl ⟨[], _, rfl, rfl, ?_⟩
      rw [List.nil_append] at hT
      rw [hT]
      exact .skip hnone hrest
    | cons d A =>
      obtain ⟨rfl, htail⟩ := List.cons.inj hT
      rcases ih htail with ⟨psA, psB, rfl, htext, hB⟩ | hcross
      · exact .inl ⟨.keep d :: psA, psB, rfl, by rw [text, htext], hB⟩
      · obtain ⟨A₁, A₂, psA, psB, kept, removed, after, b, rfl, h2, hb, hB, heq, hfound, htext, hscan,
          rfl⟩ := hcross
        exact .inr ⟨d :: A₁, A₂, .keep d :: psA, psB, kept, removed, after, b, rfl, h2, hb, hB, heq,
          hfound, by rw [text, htext], hscan, rfl⟩
  | @hit kept removed after ps hkept hfound hrest ih =>
    by_cases hA : A = []
    · subst hA
      refine .inl ⟨[], _, rfl, rfl, ?_⟩
      rw [List.nil_append] at hT
      rw [hT]
      exact .hit hkept hfound hrest
    rcases List.append_eq_append_iff.mp hT with ⟨t, hka, hB⟩ | ⟨t, hA', hafter⟩
    · -- the boundary lies inside the match or at its end
      cases t with
      | nil =>
        rw [List.append_nil] at hka
        rw [List.nil_append] at hB
        refine .inl ⟨kept.map .keep ++ [.hide removed], ps, by simp, by simp [text, hka], ?_⟩
        rw [hB]
        exact hrest
      | cons c t =>
        have heq : A ++ B = kept ++ removed ++ after := by rw [hT]
        refine .inr ⟨[], A, [], ps, kept, removed, after, c :: t, rfl, hA, by simp, hB, heq, ?_, rfl,
          hrest, by simp⟩
        rw [heq]
        exact hfound
    · rcases ih hafter.symm with ⟨psA, psB, rfl, htext, hB⟩ | hcross
      · refine .inl ⟨kept.map .keep ++ .hide removed :: psA, psB, by simp, ?_, hB⟩
        simp [htext, hA']
      · obtain ⟨A₁, A₂, psA, psB, kept', removed', after', b, rfl, h2, hb, hB, heq, hfound', htext,
          hscan, rfl⟩ := hcross
        refine .inr ⟨kept ++ removed ++ A₁, A₂, kept.map .keep ++ .hide removed :: psA, psB, kept',
          removed', after', b, ?_, h2, hb, hB, heq, hfound', ?_, hscan, by simp⟩
        · simp [hA']
        · simp [htext]

theorem Scan.kept (hA : ∀ u, u ≠ [] → u <:+ A → ∀ value after,
    pattern (u ++ B) = some (value, after) → value.length ≤ B.length)
    (h : Scan pattern (A ++ B) ps) : ∃ psB, ps = A.map .keep ++ psB ∧ text psB = B := by
  induction A generalizing ps with
  | nil => exact ⟨ps, rfl, h.text_eq⟩
  | cons c A ih =>
    have htext := h.text_eq
    generalize hT : c :: A ++ B = T at h
    cases h with
    | nil => cases hT
    | @skip d cs ps hnone hrest =>
      obtain ⟨rfl, rfl⟩ := List.cons.inj hT
      obtain ⟨psB, rfl, htextB⟩ := ih (fun u hu hs => hA u hu (hs.trans (List.suffix_cons _ _))) hrest
      exact ⟨psB, rfl, htextB⟩
    | @hit kept removed after ps hkept hfound hrest =>
      have hlen := hA _ (List.cons_ne_nil _ _) (List.suffix_refl _) (removed ++ after) after (by
        rw [hT]
        exact hfound)
      rw [List.append_assoc] at hT
      obtain ⟨t, ht⟩ : c :: A <+: kept := by
        refine List.prefix_of_prefix_length_le ⟨B, hT⟩ (List.prefix_append _ _) ?_
        have hlength := congrArg List.length hT
        simp only [List.length_append, List.length_cons] at hlength hlen ⊢
        omega
      refine ⟨t.map .keep ++ .hide removed :: ps, ?_, ?_⟩
      · rw [← ht]
        simp
      · rw [← ht, List.map_append, List.append_assoc, text_append, text_keep] at htext
        exact List.append_cancel_left htext

/-- Where nothing is found the scan goes on behind. -/
theorem Scan.skips (hA : ∀ u, u ≠ [] → u <:+ A → pattern (u ++ B) = none)
    (h : Scan pattern (A ++ B) ps) : ∃ psB, ps = A.map .keep ++ psB ∧ Scan pattern B psB := by
  induction A generalizing ps with
  | nil => exact ⟨ps, rfl, h⟩
  | cons c A ih =>
    have hnone := hA _ (List.cons_ne_nil _ _) (List.suffix_refl _)
    generalize hT : c :: A ++ B = T at h hnone
    cases h with
    | nil => cases hT
    | skip _ hrest =>
      obtain ⟨rfl, rfl⟩ := List.cons.inj hT
      obtain ⟨psB, rfl, hB⟩ := ih (fun u hu hs => hA u hu (hs.trans (List.suffix_cons _ _))) hrest
      exact ⟨psB, rfl, hB⟩
    | hit _ hfound _ =>
      rw [hfound] at hnone
      cases hnone

/-- What is replaced is what some match had to be replaced. -/
theorem Scan.hides {R : List α → Prop} (hR : ∀ cs removed after,
    pattern cs = some (removed ++ after, after) → R removed) {cs : List α} (h : Scan pattern cs ps) :
    ∀ removed, .hide removed ∈ ps → R removed := by
  induction h with
  | nil => simp
  | skip _ _ ih =>
    intro removed hmem
    exact ih removed (by simpa using hmem)
  | @hit kept removed' after ps _ hfound _ ih =>
    intro removed hmem
    rcases List.mem_append.mp hmem with hmem | hmem
    · simp at hmem
    · rcases List.mem_cons.mp hmem with he | hmem
      · cases he
        exact hR _ _ _ hfound
      · exact ih removed hmem

theorem Scan.found {kept removed after : List α} (hne : kept ≠ []) (h : Scan pattern (kept ++ removed ++ after) ps)
    (hfound : pattern (kept ++ removed ++ after) = some (removed ++ after, after)) :
    ∃ qs, ps = kept.map .keep ++ .hide removed :: qs ∧ Scan pattern after qs := by
  generalize hT : kept ++ removed ++ after = T at h hfound
  cases h with
  | nil =>
    exact absurd (List.append_eq_nil_iff.mp (List.append_eq_nil_iff.mp hT).1).1 hne
  | skip hnone _ =>
    rw [hfound] at hnone
    cases hnone
  | @hit kept' removed' after' qs _ hfound' hrest =>
    rw [hfound', Option.some_inj, Prod.mk.injEq] at hfound
    obtain ⟨hvalue, rfl⟩ := hfound
    have hremoved := List.append_cancel_right hvalue
    subst hremoved
    have hkept := List.append_cancel_right (List.append_cancel_right hT)
    subst hkept
    exact ⟨qs, rfl, hrest⟩

theorem Scan.silent (hA : ∀ u, u <:+ A → pattern u = none) (h : Scan pattern A ps) :
    render marker ps = A := by
  induction h with
  | nil => rfl
  | skip _ _ ih => rw [render, ih fun u hu => hA u (hu.trans (List.suffix_cons _ _))]
  | hit _ hfound _ _ =>
    rw [hA _ (List.suffix_refl _)] at hfound
    cases hfound

end Scans

end Scrub
