import SibylMemory.Outbox.SecretPatterns

/-!
# Secrets between other texts

Where the two scans meet a secret: a match of the name or of `bearer` in front of it hides it, and
a match that begins further left hides it as well, unless it ends at white space between the name
and the secret.
-/

namespace SibylMemory.Outbox
open Text Scrub Squeeze

/-! ### Folding -/

/-- Characters that no part of a pattern but a name looks at. -/
def isInert (c : Char) : Bool := !isSpace c && !([',', ';', '\'', '"', ':', '=', '~'].contains c)

theorem fold_inert (c : Char) : foldChar c = c ∨ isInert c = true ∧ isInert (foldChar c) = true := by
  unfold foldChar
  split
  · rename_i hc
    simp only [Char.reduceToNat] at hc
    have hall : ∀ n < 26, isInert (Char.ofNat (65 + n)) = true ∧
        isInert (Char.ofNat (65 + n + 32)) = true := by decide
    have hn := hall (c.toNat - 65) (by omega)
    have hsum : 65 + (c.toNat - 65) = c.toNat := by omega
    rw [hsum, Char.ofNat_toNat] at hn
    exact .inr hn
  · split
    · rename_i hc
      rw [hc]
      exact .inr (by decide)
    · split
      · rename_i hc
        rw [hc]
        exact .inr (by decide)
      · split
        · rename_i hc
          rcases hc with rfl | rfl <;> exact .inr (by decide)
        · exact .inl rfl

theorem fold_congr {p : Char → Bool} {b : Bool} (hp : ∀ c, isInert c = true → p c = b) (c : Char) :
    p (foldChar c) = p c := by
  rcases fold_inert c with h | ⟨h, h'⟩
  · rw [h]
  · rw [hp c h, hp _ h']

theorem isSpace_fold (c : Char) : isSpace (foldChar c) = isSpace c := by
  refine fold_congr (b := false) (fun c hc => ?_) c
  unfold isInert at hc
  simp only [Bool.and_eq_true, Bool.not_eq_true'] at hc
  exact hc.1

theorem isTokenChar_fold (c : Char) : isTokenChar (foldChar c) = isTokenChar c := by
  refine fold_congr (b := true) (fun c hc => ?_) c
  unfold isInert at hc
  unfold isTokenChar
  simp only [Bool.and_eq_true, Bool.not_eq_true', List.contains_cons, Bool.or_eq_false_iff] at hc
  simp [hc.1, bne, hc.2.1, hc.2.2.1]

/-- A character that is none of the inert ones is only the folding of itself. -/
theorem fold_eq_iff {c d : Char} (hd : isInert d = false) : foldChar c = d ↔ c = d := by
  rcases fold_inert c with h | ⟨h, h'⟩
  · rw [h]
  · constructor
    · intro he
      rw [he, hd] at h'
      cases h'
    · intro he
      rw [he, hd] at h
      cases h

/-- What a name's spelling shows of its characters. -/
theorem all_of_fold {p : Char → Bool} (hp : ∀ c, p (foldChar c) = p c) {l f : List Char}
    (hf : l.map foldChar = f) (h : ∀ c ∈ f, p c = true) : ∀ c ∈ l, p c = true := by
  intro c hc
  rw [← hp c]
  exact h _ (hf ▸ List.mem_map_of_mem hc)

/-! ### Names at a boundary -/

/-- What a match or a secret's own match can begin with. -/
def starters : List (List Char) := BEARER :: forms

theorem starters_apart : ∀ f ∈ starters, ∀ u ∈ f.tails, u ≠ [] → u ≠ f → ∀ g ∈ starters,
    ¬ u <+: g ∧ ¬ g <+: u := by decide

theorem starters_plain : ∀ f ∈ starters, f ≠ [] ∧ ∀ c ∈ f.head?, isInert c = true := by decide

section Boundary
variable {A B m n tail rest : List Char}

theorem head_starter (hn : n.map foldChar ∈ starters) :
    ∀ c ∈ (n ++ rest).head?, isInert (foldChar c) = true := by
  intro c hc
  cases n with
  | nil => exact absurd rfl (starters_plain _ hn).1
  | cons d n =>
    cases hc
    exact (starters_plain _ hn).2 _ rfl

theorem isSpace_of_inert {c : Char} (h : isInert (foldChar c) = true) : isSpace c = false := by
  unfold isInert at h
  simp only [Bool.and_eq_true, Bool.not_eq_true'] at h
  rw [← isSpace_fold]
  exact h.1

/-- A name that begins in front of another one ends in front of it. -/
theorem name_before (hm : m.map foldChar ∈ starters) (hn : n.map foldChar ∈ starters) (hA : A ≠ [])
    (h : A ++ (n ++ rest) = m ++ tail) : ∃ A', A = m ++ A' ∧ A' ++ (n ++ rest) = tail := by
  rcases List.append_eq_append_iff.mp h with ⟨t, ht, hB⟩ | ⟨t, ht, htail⟩
  · by_cases hempty : t = []
    · subst hempty
      exact ⟨[], by simp [ht], by simpa using hB⟩
    · -- a proper end of the one would begin like the other
      have hsuffix : t.map foldChar ∈ (m.map foldChar).tails := by
        rw [List.mem_tails, ht, List.map_append]
        exact List.suffix_append _ _
      have hproper : t.map foldChar ≠ m.map foldChar := by
        intro he
        have hlen := congrArg List.length he
        have hpos := List.length_pos_of_ne_nil hA
        rw [ht] at hlen
        simp only [List.length_map, List.length_append] at hlen
        omega
      have hnone := starters_apart _ hm _ hsuffix (by simpa using hempty) hproper _ hn
      rcases List.append_eq_append_iff.mp hB with ⟨u, hu, -⟩ | ⟨u, hu, -⟩
      · refine absurd ?_ hnone.2
        rw [hu, List.map_append]
        exact List.prefix_append _ _
      · refine absurd ?_ hnone.1
        rw [hu, List.map_append]
        exact List.prefix_append _ _
  · exact ⟨t, ht, htail.symm⟩

end Boundary

/-! ### What a crossing match hides -/

section Crossing
variable {A n rest : List Char} {ps : List (Piece Char)}

/-- A `bearer` in front of a boundary and a value across it. -/
theorem bearer_crossing (hn : n.map foldChar ∈ starters)
    (h : Crossing matchBearer A (n ++ rest) ps) : ∃ A₁ m sp A₅ b after psA psB,
    A = A₁ ++ m ++ sp ++ A₅ ∧ m.map foldChar = BEARER ∧ sp ≠ [] ∧ AllSpace sp ∧ b ≠ [] ∧
      n ++ rest = b ++ after ∧ Token (A₅ ++ b) after ∧ text psA = A₁ ++ m ++ sp ∧
      text psB = after ∧ ps = psA ++ .hide (A₅ ++ b) :: psB := by
  obtain ⟨A₁, A₂, psA, psB, kept, removed, after, b, rfl, hA₂, hb, hbehind, hparts, hfound, hbefore,
    hscan, rfl⟩ := h
  obtain ⟨m, sp, t, heq, hvalue, hm, hsp, hspace, htok⟩ := bearer_iff.mp hfound
  have hremoved := List.append_cancel_right hvalue
  subst hremoved
  rw [heq] at hparts
  have hkept := List.append_cancel_right (List.append_cancel_right hparts)
  rw [List.append_assoc, List.append_assoc] at heq
  obtain ⟨A₃, rfl, heq₃⟩ := name_before (hm ▸ List.mem_cons_self) hn hA₂ heq
  obtain ⟨A₅, rfl, heq₄⟩ := stretch_before hspace
    (fun c hc => isSpace_of_inert (head_starter hn c hc)) heq₃
  rw [hbehind, ← List.append_assoc] at heq₄
  have ht := List.append_cancel_right heq₄
  refine ⟨A₁, m, sp, A₅, b, after, psA ++ kept.map .keep, psB, by simp, hm, hsp, hspace, hb, hbehind,
    ht ▸ htok, ?_, hscan.text_eq, by rw [← ht]⟩
  rw [text_append, text_keep, hbefore, ← hkept, List.append_assoc]

/-- A name and its sign in front of a boundary and a value across it. -/
theorem assignment_crossing (hn : n.map foldChar ∈ starters)
    (h : Crossing matchAssignment A (n ++ rest) ps) : ∃ A₁ sign sp A₅ b after psA psB,
    A = A₁ ++ sign :: sp ++ A₅ ∧ IsSign sign ∧ AllSpace sp ∧ b ≠ [] ∧
      n ++ rest = b ++ after ∧ Value (A₅ ++ b) after ∧ text psA = A₁ ++ sign :: sp ∧
      text psB = after ∧ ps = psA ++ .hide (A₅ ++ b) :: psB := by
  obtain ⟨A₁, A₂, psA, psB, kept, removed, after, b, rfl, hA₂, hb, hbehind, hparts, hfound, hbefore,
    hscan, rfl⟩ := h
  obtain ⟨m, sp₁, sign, sp₂, v, heq, hvalue, hm, hsp₁, hsign, hsp₂, hval⟩ := assignment_some hfound
  have hremoved := List.append_cancel_right hvalue
  subst hremoved
  rw [heq] at hparts
  have hkept := List.append_cancel_right (List.append_cancel_right hparts)
  have hhead : ∀ c ∈ (n ++ rest).head?, isInert (foldChar c) = true := head_starter hn
  have hsplit : A₂ ++ (n ++ rest) = m ++ (sp₁ ++ sign :: (sp₂ ++ (removed ++ after))) := by
    rw [heq]
    simp
  obtain ⟨A₃, rfl, heq₃⟩ := name_before (List.mem_cons_of_mem _ hm) hn hA₂ hsplit
  obtain ⟨A₄, rfl, heq₄⟩ := stretch_before hsp₁
    (fun c hc => isSpace_of_inert (hhead c hc)) heq₃
  have hsigned : ∀ c ∈ [sign], (!isInert (foldChar c)) = true := by
    intro c hc
    rw [List.mem_singleton.mp hc]
    rcases hsign with rfl | rfl <;> decide
  have heq₄' : A₄ ++ (n ++ rest) = [sign] ++ (sp₂ ++ (removed ++ after)) := heq₄
  obtain ⟨A₄', rfl, heq₅⟩ := stretch_before (p := fun c => !isInert (foldChar c)) hsigned
    (fun c hc => by rw [hhead c hc]; rfl) heq₄'
  obtain ⟨A₅, rfl, heq₆⟩ := stretch_before hsp₂
    (fun c hc => isSpace_of_inert (hhead c hc)) heq₅
  rw [hbehind, ← List.append_assoc] at heq₆
  have hv := List.append_cancel_right heq₆
  refine ⟨A₁ ++ m ++ sp₁, sign, sp₂, A₅, b, after, psA ++ kept.map .keep, psB, by simp, hsign, hsp₂, hb,
    hbehind, hv ▸ hval, ?_, hscan.text_eq, by rw [← hv]⟩
  rw [text_append, text_keep, hbefore, ← hkept]
  simp

end Crossing

/-! ### Hidden secrets -/

/-- The word is found neither in front of its place nor behind it, nor together with the marker. -/
structure Foreign (w before after : List Char) : Prop where
  apart : Apart marker w
  before : ¬ w <:+: before
  after : ¬ w <:+: after

def IsWord (t : List Char) : Prop := t ≠ [] ∧ ∀ c ∈ t, isTokenChar c = true ∧ ¬ IsQuote c

theorem IsWord.token {w : List Char} (hw : IsWord w) (S : List Char) :
    Token (w ++ S.takeWhile isTokenChar) (S.dropWhile isTokenChar) := by
  refine ⟨fun he => hw.1 (List.append_eq_nil_iff.mp he).1, fun c hc => ?_, dropWhile_stops _ _⟩
  rcases List.mem_append.mp hc with hc | hc
  · exact (hw.2 c hc).1
  · exact List.mem_takeWhile_imp hc

theorem forms_plain : ∀ f ∈ forms, ∀ c ∈ f, c ≠ '\'' ∧ c ≠ '"' := by decide

theorem quote_not_inert {q : Char} (hq : IsQuote q) : isInert q = false ∧ isSpace q = false := by
  rcases hq with rfl | rfl <;> decide

theorem quote_notMem_name {N : List Char} (hN : N.map foldChar ∈ forms) {q : Char} (hq : IsQuote q) :
    q ∉ N := by
  intro hmem
  have hfold : foldChar q = q := (fold_eq_iff (quote_not_inert hq).1).mpr rfl
  have hplain := forms_plain _ hN q (hfold ▸ List.mem_map_of_mem hmem)
  rcases hq with rfl | rfl
  · exact hplain.1 rfl
  · exact hplain.2 rfl

section Hidden
variable {P N E sp₁ sp₂ w S : List Char} {sign : Char} {ps qs : List (Piece Char)}

theorem quote_notMem_sign {q : Char} (hq : IsQuote q) (h₁ : AllSpace sp₁) (hsign : IsSign sign)
    (h₂ : AllSpace sp₂) : q ∉ sp₁ ++ sign :: sp₂ := by
  have hspace := (quote_not_inert hq).2
  intro hmem
  rcases List.mem_append.mp hmem with hmem | hmem
  · rw [h₁ q hmem] at hspace
    cases hspace
  · rcases List.mem_cons.mp hmem with rfl | hmem
    · rcases hq with rfl | rfl <;> rcases hsign with h | h <;> exact absurd h (by decide)
    · rw [h₂ q hmem] at hspace
      cases hspace

theorem absent_of_hide (hf : Foreign w (P ++ N) S) {psA psB : List (Piece Char)} {removed t u : List Char}
    (hA : text psA ++ t = P ++ N) (hB : S = u ++ text psB) :
    ¬ w <:+: render marker (psA ++ .hide removed :: psB) := by
  refine absent_hide hf.apart (fun h => hf.before ?_) fun h => hf.after ?_
  · rw [← hA]
    exact h.trans (List.prefix_append _ _).isInfix
  · rw [hB]
    exact h.trans (List.suffix_append _ _).isInfix

theorem nothing_behind_blank {l a Q : List Char} {d : Char} (ha : ∀ c ∈ a, isSpace c = false)
    (h : l ++ a = Q ++ [d, ' ']) : a = [] := by
  rcases List.eq_nil_or_concat a with hnil | ⟨a', c, rfl⟩
  · exact hnil
  · have hends : (l ++ a') ++ [c] = (Q ++ [d]) ++ [' '] := by simpa using h
    obtain ⟨-, hc⟩ := List.append_inj' hends rfl
    have hspace := ha c (by simp)
    rw [(List.cons.inj hc).1] at hspace
    exact absurd hspace (by decide)

theorem sign_not_space (h : IsSign sign) : isSpace sign = false := by
  rcases h with rfl | rfl <;> decide

/-- Where a match can end between the name and the secret: nowhere if they stand together, and not
behind a character and a blank in front of the name. -/
def Guarded (P N E : List Char) : Prop :=
  (∀ c ∈ N ++ E, isTokenChar c = true) ∨
    ∃ Q d, P = Q ++ [d, ' '] ∧ isSpace d = false ∧ ¬ IsSign d ∧ foldChar d ≠ 'r'

theorem second_pass (hN : N.map foldChar ∈ forms) (h₁ : AllSpace sp₁) (hsign : IsSign sign)
    (h₂ : AllSpace sp₂) (hw : IsWord w) (hf : Foreign w (P ++ (N ++ (sp₁ ++ sign :: sp₂))) S)
    (hguard : Guarded P N (sp₁ ++ sign :: sp₂))
    (h : Scan matchAssignment (P ++ (N ++ (sp₁ ++ sign :: sp₂ ++ (w ++ S)))) qs) :
    ¬ w <:+: render marker qs := by
  rcases h.split with ⟨psA, psB, rfl, hA, hB⟩ | hcross
  · -- the scan meets the name
    have hparts := List.takeWhile_append_dropWhile (p := isTokenChar) (l := S)
    have htok := hw.token S
    have hquote : ∀ c ∈ (w ++ S.takeWhile isTokenChar).head?, ¬ IsQuote c := by
      intro c hc
      cases w with
      | nil => exact absurd rfl hw.1
      | cons d w =>
        cases hc
        exact (hw.2 _ List.mem_cons_self).2
    have hfound := assignment_token hN h₁ hsign h₂ htok hquote
    have hsplit : N ++ (sp₁ ++ sign :: sp₂ ++ (w ++ S)) = N ++ sp₁ ++ sign :: sp₂ ++
        (w ++ S.takeWhile isTokenChar) ++ S.dropWhile isTokenChar := by
      conv_lhs => rw [← hparts]
      simp
    rw [hsplit] at hB
    rw [← List.append_assoc] at hfound
    obtain ⟨psC, rfl, hC⟩ := hB.found (by simp) hfound
    rw [← List.append_assoc]
    refine absent_of_hide hf (t := []) ?_ (hC.text_eq ▸ hparts.symm)
    rw [text_append, hA, text_keep]
    simp
  · obtain ⟨A₁, sign', sp, A₅, b, after, psA, psB, hP, hsign', hsp, hb, hbehind, hval, hA, hB, rfl⟩ :=
      assignment_crossing (List.mem_cons_of_mem _ hN) hcross
    have hover : ∃ s, S = s ++ after := by
      have hX : N ++ (sp₁ ++ sign :: sp₂) ++ w ++ S = b ++ after := by
        rw [← hbehind]
        simp
      generalize hv : A₅ ++ b = v at hval
      cases hval with
      | @quoted q inner _ hq hin =>
        -- the closing quote stands behind the secret
        have hlast : q ∈ b.getLast? := by
          have hend : q ∈ (A₅ ++ b).getLast? := by
            rw [hv, List.getLast?_append]
            rfl
          rw [List.getLast?_append] at hend
          cases hbl : b.getLast? with
          | none => exact absurd (List.getLast?_eq_none_iff.mp hbl) hb
          | some d =>
            rw [hbl] at hend
            exact hend
        have hnot : q ∉ N ++ (sp₁ ++ sign :: sp₂) ++ w := by
          simp only [List.mem_append, not_or]
          have hE := quote_notMem_sign hq h₁ hsign h₂
          rw [List.mem_append, not_or] at hE
          exact ⟨⟨quote_notMem_name hN hq, hE⟩, fun hmem => (hw.2 q hmem).2 hq⟩
        rcases List.append_eq_append_iff.mp hX with ⟨t, ht, hS⟩ | ⟨t, ht, -⟩
        · exact ⟨t, hS⟩
        · refine absurd ?_ hnot
          rw [ht]
          exact List.mem_append_left _ (List.mem_of_mem_getLast? hlast)
      | token htok =>
        rw [← hv] at htok
        rcases hguard with hchars | ⟨Q, d, hQ, hd, hdsign, -⟩
        · obtain ⟨s, -, hS⟩ := stretch_over (X := N ++ (sp₁ ++ sign :: sp₂) ++ w) (S := S)
            (fun c hc => (List.mem_append.mp hc).elim (hchars c) fun hc => (hw.2 c hc).1) htok.stops
            hX.symm
          exact ⟨s, hS⟩
        · -- the blank in front of the name is neither in the value nor behind a sign
          have hA₅ : ∀ c ∈ A₅, isSpace c = false := fun c hc =>
            isSpace_tokenChar (htok.chars c (List.mem_append_left _ hc))
          have hends : A₁ ++ sign' :: sp ++ A₅ = Q ++ [d, ' '] := hP.symm.trans hQ
          have hnil := nothing_behind_blank (fun c hc =>
            isSpace_tokenChar (htok.chars c (List.mem_append_left _ hc))) hends
          rw [hnil, List.append_nil] at hends
          obtain ⟨-, hsd, -⟩ := last_unique (p := isSpace) hsp (by decide)
            (sign_not_space hsign') hd hends
          exact absurd (hsd ▸ hsign') hdsign
    obtain ⟨s, hS⟩ := hover
    refine absent_of_hide hf (t := A₅ ++ (N ++ (sp₁ ++ sign :: sp₂))) ?_ (hB.symm ▸ hS)
    rw [hA, hP]
    simp

/-- The name in a match of the first pattern ends like `bearer`. -/
theorem bearer_last {m : List Char} (hm : m.map foldChar = BEARER) :
    ∃ m' e, m = m' ++ [e] ∧ foldChar e = 'r' ∧ isSpace e = false := by
  rcases List.eq_nil_or_concat m with rfl | ⟨m', e, rfl⟩
  · cases hm
  · have hlast : (m'.map foldChar) ++ [foldChar e] = "beare".toList ++ ['r'] := by
      rw [← List.map_singleton, ← List.map_append, ← List.concat_eq_append, hm]
      rfl
    have he := (List.cons.inj (List.append_inj' hlast rfl).2).1
    refine ⟨m', e, by rw [List.concat_eq_append], he, ?_⟩
    rw [← isSpace_fold, he]
    decide

/-- No value of the first pattern ends behind a character and a blank that do not end `bearer`. -/
theorem bearer_not_before {A₁ m sp A₅ Q R : List Char} {d : Char} (hm : m.map foldChar = BEARER)
    (hsp : sp ≠ []) (hspace : AllSpace sp) (hA₅ : ∀ c ∈ A₅, isSpace c = false)
    (hd : isSpace d = false) (hfold : foldChar d ≠ 'r') (hR : ∀ c ∈ R, isSpace c = false) :
    A₁ ++ m ++ sp ++ A₅ ≠ Q ++ d :: ' ' :: R := by
  intro h
  obtain ⟨m', e, rfl, he, hespace⟩ := bearer_last hm
  obtain ⟨sp', x, rfl⟩ := (List.eq_nil_or_concat sp).resolve_left hsp
  have hblank : (A₁ ++ (m' ++ [e]) ++ sp') ++ x :: A₅ = (Q ++ [d]) ++ ' ' :: R := by simpa using h
  obtain ⟨hinit, -, -⟩ := last_unique (p := fun c => !isSpace c) (fun c hc => by simp [hA₅ c hc])
    (fun c hc => by simp [hR c hc]) (by simp [hspace x (by simp)]) (by decide) hblank
  have hends : (A₁ ++ m') ++ e :: sp' = Q ++ d :: [] := by simpa using hinit
  obtain ⟨-, hed, -⟩ := last_unique (p := isSpace) (fun c hc => hspace c (by simp [hc])) (by simp)
    hespace hd hends
  exact hfold (hed ▸ he)

theorem pair_hidden {A bea R Q : List Char} {d : Char} (hbea : bea.map foldChar = BEARER)
    (hw : IsWord w) (hf : Foreign w (A ++ (bea ++ [' '])) S) (hA : A = Q ++ d :: ' ' :: R)
    (hd : isSpace d = false) (hfold : foldChar d ≠ 'r') (hR : ∀ c ∈ R, isSpace c = false)
    (h : Scan matchBearer (A ++ (bea ++ ' ' :: (w ++ S))) ps) : ¬ w <:+: render marker ps := by
  rcases h.split with ⟨psA, psB, rfl, htext, hB⟩ | hcross
  · have hparts := List.takeWhile_append_dropWhile (p := isTokenChar) (l := S)
    have htok := hw.token S
    have hfound : matchBearer (bea ++ [' '] ++ (w ++ S.takeWhile isTokenChar) ++
        S.dropWhile isTokenChar) = some (w ++ S.takeWhile isTokenChar ++ S.dropWhile isTokenChar,
          S.dropWhile isTokenChar) :=
      bearer_iff.mpr ⟨bea, [' '], _, rfl, rfl, hbea, by simp,
        fun c hc => by rw [List.mem_singleton.mp hc]; decide, htok⟩
    have hsplit : bea ++ ' ' :: (w ++ S) = bea ++ [' '] ++ (w ++ S.takeWhile isTokenChar) ++
        S.dropWhile isTokenChar := by
      conv_lhs => rw [← hparts]
      simp
    rw [hsplit] at hB
    obtain ⟨psC, rfl, hC⟩ := hB.found (by simp) hfound
    rw [← List.append_assoc]
    refine absent_of_hide hf (t := []) ?_ (hC.text_eq ▸ hparts.symm)
    rw [text_append, htext, text_keep]
    simp
  · obtain ⟨A₁, m, sp, A₅, b, after, psA, psB, hA', hm, hsp, hspace, -, -, htok, -, -, -⟩ :=
      bearer_crossing (hbea ▸ List.mem_cons_self) hcross
    refine absurd (hA'.symm.trans hA) (bearer_not_before hm hsp hspace (fun c hc => ?_) hd hfold hR)
    exact isSpace_tokenChar (htok.chars c (List.mem_append_left _ hc))

theorem infix_before_word {m Y w : List Char} {x : Char} (hw : ∀ c ∈ w, isSpace c = false)
    (hx : isSpace x = true) (h : m ++ [x] <:+: Y ++ w) : m ++ [x] <:+: Y := by
  obtain ⟨a, b, hab⟩ := h
  rcases List.append_eq_append_iff.mp hab with ⟨t, ht, -⟩ | ⟨t, ht, htail⟩
  · exact ⟨a, t, ht.symm⟩
  · rcases List.eq_nil_or_concat t with rfl | ⟨t', c, rfl⟩
    · exact ⟨a, [], by simpa using ht⟩
    · have hlast : (a ++ m) ++ [x] = (Y ++ t') ++ [c] := by simpa using ht
      have hxc := (List.cons.inj (List.append_inj' hlast rfl).2).1
      rw [hxc, hw c (by rw [htail]; simp)] at hx
      cases hx

theorem bearer_inert {m : List Char} (hm : m.map foldChar = BEARER) : ∀ c ∈ m, isInert c = true := by
  have hall : ∀ c ∈ BEARER, isInert c = true := by decide
  refine all_of_fold (fun c => ?_) hm hall
  rcases fold_inert c with hc | ⟨hc, hc'⟩
  · rw [hc]
  · rw [hc, hc']

theorem sign_not_inert (h₁ : AllSpace sp₁) (hsign : IsSign sign) (h₂ : AllSpace sp₂) :
    ∀ c ∈ sp₁ ++ sign :: sp₂, isInert c = false := by
  intro c hc
  rcases List.mem_append.mp hc with hc | hc
  · simp [isInert, h₁ c hc]
  · rcases List.mem_cons.mp hc with rfl | hc
    · rcases hsign with rfl | rfl <;> decide
    · simp [isInert, h₂ c hc]

theorem forms_no_bearer : ∀ f ∈ forms, ¬ BEARER <:+: f := by decide

theorem bearer_keeps (hN : N.map foldChar ∈ forms) (h₁ : AllSpace sp₁) (hsign : IsSign sign)
    (h₂ : AllSpace sp₂) (hw : IsWord w) {psB : List (Piece Char)}
    (h : Scan matchBearer (N ++ (sp₁ ++ sign :: sp₂) ++ w ++ S) psB) :
    ∃ psR, psB = (N ++ (sp₁ ++ sign :: sp₂) ++ w).map .keep ++ psR ∧ text psR = S := by
  refine h.kept fun u hu hsuffix value after hfound => ?_
  obtain ⟨m, sp, t, heq, rfl, hm, hsp, hspace, htok⟩ := bearer_iff.mp hfound
  by_contra hlong
  obtain ⟨x, sp', rfl⟩ := List.exists_cons_of_ne_nil hsp
  have hpre : m ++ [x] <+: u := by
    have hle : (m ++ x :: sp').length ≤ u.length := by
      have hlength := congrArg List.length heq
      simp only [List.length_append, List.length_cons] at hlength hlong ⊢
      omega
    have hsp' : m ++ x :: sp' <+: u :=
      List.prefix_of_prefix_length_le ⟨t ++ after, by rw [heq]; simp⟩ (List.prefix_append _ _) hle
    exact (show m ++ [x] <+: m ++ x :: sp' from ⟨sp', by simp⟩).trans hsp'
  have hinside : m ++ [x] <:+: N ++ (sp₁ ++ sign :: sp₂) ++ w := hpre.isInfix.trans hsuffix.isInfix
  have hne : m ≠ [] := by
    rintro rfl
    cases hm
  -- the white space of the match is not in the word, so `bearer` would be in the name
  have hname := infix_before_word (fun c hc => isSpace_tokenChar (hw.2 c hc).1)
    (hspace x List.mem_cons_self) hinside
  have hbefore : m <:+: N :=
    infix_before hne (bearer_inert hm) (sign_not_inert h₁ hsign h₂)
      ((List.prefix_append m [x]).isInfix.trans hname)
  refine forms_no_bearer _ hN ?_
  rw [← hm]
  exact hbefore.map foldChar

/-- A character and a blank in front of a name are kept, or the marker stands for the character. -/
theorem render_guard {psA : List (Piece Char)} {Q : List Char} {d : Char}
    (htext : text psA = Q ++ [d, ' '])
    (hsolid : ∀ r, .hide r ∈ psA → r ≠ [] ∧ ∀ c ∈ r, isSpace c = false) (hd : isSpace d = false)
    (hsign : ¬ IsSign d) (hfold : foldChar d ≠ 'r') :
    ∃ Q' d', render marker psA = Q' ++ [d', ' '] ∧ isSpace d' = false ∧ ¬ IsSign d' ∧
      foldChar d' ≠ 'r' := by
  have hmarker : marker = "[REDACTED".toList ++ [']'] := by decide
  obtain ⟨psB, last, rfl⟩ := (List.eq_nil_or_concat psA).resolve_left (by
    rintro rfl
    simp [text] at htext)
  rw [List.concat_eq_append] at htext hsolid ⊢
  rw [text_append] at htext
  cases last with
  | hide r =>
    have hr := hsolid r (by simp)
    rw [text_hide, text, List.append_nil] at htext
    exact absurd (nothing_behind_blank hr.2 htext) hr.1
  | keep c =>
    have hends : text psB ++ [c] = (Q ++ [d]) ++ [' '] := by simpa [text] using htext
    obtain ⟨hB, hc⟩ := List.append_inj' hends rfl
    rw [(List.cons.inj hc).1]
    obtain ⟨psC, last', rfl⟩ := (List.eq_nil_or_concat psB).resolve_left (by
      rintro rfl
      simp [text] at hB)
    rw [List.concat_eq_append] at hB ⊢
    cases last' with
    | keep c' =>
      have hB' : text psC ++ [c'] = Q ++ [d] := by simpa [text] using hB
      have hcd := (List.cons.inj (List.append_inj' hB' rfl).2).1
      exact ⟨render marker psC, d, by simp [render, hcd], hd, hsign, hfold⟩
    | hide r =>
      exact ⟨render marker psC ++ "[REDACTED".toList, ']', by simp [render, hmarker], by decide,
        by unfold IsSign; decide, by decide⟩

theorem token_hidden (hN : N.map foldChar ∈ forms) (h₁ : AllSpace sp₁) (hsign : IsSign sign)
    (h₂ : AllSpace sp₂) (hw : IsWord w) (hf : Foreign w (P ++ (N ++ (sp₁ ++ sign :: sp₂))) S)
    (hguard : Guarded P N (sp₁ ++ sign :: sp₂))
    (h : Scan matchBearer (P ++ (N ++ (sp₁ ++ sign :: sp₂ ++ (w ++ S)))) ps)
    (h' : Scan matchAssignment (render marker ps) qs) : ¬ w <:+: render marker qs := by
  have hmem : N.map foldChar ∈ starters := List.mem_cons_of_mem _ hN
  rcases h.split with ⟨psA, psB, rfl, hA, hB⟩ | hcross
  · have hassoc : N ++ (sp₁ ++ sign :: sp₂ ++ (w ++ S)) = N ++ (sp₁ ++ sign :: sp₂) ++ w ++ S := by simp
    have hsolid := h.hides (R := fun r => r ≠ [] ∧ ∀ c ∈ r, isSpace c = false)
      fun cs removed after hfound => by
        obtain ⟨m, sp, t, -, hvalue, -, -, -, htok⟩ := bearer_iff.mp hfound
        rw [List.append_cancel_right hvalue]
        exact ⟨htok.ne, fun c hc => isSpace_tokenChar (htok.chars c hc)⟩
    rw [hassoc] at hB
    obtain ⟨psR, rfl, hR⟩ := bearer_keeps hN h₁ hsign h₂ hw hB
    have hfirst : render marker (psA ++ ((N ++ (sp₁ ++ sign :: sp₂) ++ w).map .keep ++ psR)) =
        render marker psA ++ (N ++ (sp₁ ++ sign :: sp₂ ++ (w ++ render marker psR))) := by
      rw [render_append, render_append, render_keep]
      simp
    rw [hfirst] at h'
    refine second_pass hN h₁ hsign h₂ hw ⟨hf.apart, ?_, ?_⟩ ?_ h'
    · have habsent : ¬ w <:+: render marker (psA ++ (N ++ (sp₁ ++ sign :: sp₂)).map .keep) := by
        refine absent_render hf.apart ?_
        rw [text_append, hA, text_keep]
        exact hf.before
      rw [render_append, render_keep] at habsent
      exact habsent
    · refine absent_render hf.apart ?_
      rw [hR]
      exact hf.after
    · rcases hguard with hchars | ⟨Q, d, hQ, hd, hdsign, hfold⟩
      · exact .inl hchars
      · right
        refine render_guard (hA.trans hQ) (fun r hr => hsolid r (List.mem_append_left _ hr)) hd hdsign
          hfold
  · obtain ⟨A₁, m, sp, A₅, b, after, psA, psB, hP, hm, hsp, hspace, hb, hbehind, htok, hA, hB, rfl⟩ :=
      bearer_crossing hmem hcross
    rcases hguard with hchars | ⟨Q, d, hQ, hd, -, hfold⟩
    · have hX : b ++ after = N ++ (sp₁ ++ sign :: sp₂) ++ w ++ S := by
        rw [← hbehind]
        simp
      obtain ⟨s, -, hS⟩ := stretch_over (fun c hc => (List.mem_append.mp hc).elim (hchars c)
        fun hc => (hw.2 c hc).1) htok.stops hX
      have habsent : ¬ w <:+: render marker (psA ++ .hide (A₅ ++ b) :: psB) :=
        absent_of_hide hf (t := A₅ ++ (N ++ (sp₁ ++ sign :: sp₂))) (by rw [hA, hP]; simp) (hB.symm ▸ hS)
      refine absent_render hf.apart ?_
      rw [h'.text_eq]
      exact habsent
    · refine absurd (hP.symm.trans hQ) (bearer_not_before (R := []) hm hsp hspace (fun c hc => ?_) hd
        hfold (by simp))
      exact isSpace_tokenChar (htok.chars c (List.mem_append_left _ hc))

end Hidden

end SibylMemory.Outbox
