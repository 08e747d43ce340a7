import SibylMemory.Outbox.Redaction
import SibylMemory.Library.Scrub
import SibylMemory.Library.Squeeze
import SibylMemory.Library.PercentEncoding

/-!
# What the secret patterns match (`outbox.py:40-46`)

A match of either pattern as an equation for the text, in both directions, and the redaction as
two scans of the squeezed text.
-/

namespace SibylMemory.Outbox
open Text Scrub Squeeze

def marker : List Char := "[REDACTED]".toList

def BEARER : List Char := "bearer".toList

/-- What the second pattern knows, in lower case. -/
def forms : List (List Char) :=
  ["apikey".toList, "api-key".toList, "api_key".toList, "api key".toList, "accesstoken".toList,
    "access-token".toList, "access_token".toList, "access token".toList, "authorization".toList,
    "password".toList, "secret".toList]

theorem forms_prefix_free : ∀ f ∈ forms, ∀ g ∈ forms, f <+: g → f = g := by decide

/-! ### Words and names -/

section Names
variable {cs rest m : List Char}

theorem matchWord_iff {w : List Char} :
    matchWord w cs = some rest ↔ ∃ m, cs = m ++ rest ∧ m.map foldChar = w := by
  induction w generalizing cs with
  | nil =>
    rw [matchWord, Option.some_inj]
    constructor
    · rintro rfl
      exact ⟨[], rfl, rfl⟩
    · rintro ⟨m, rfl, hm⟩
      rw [List.map_eq_nil_iff.mp hm, List.nil_append]
  | cons w ws ih =>
    cases cs with
    | nil =>
      simp only [matchWord, reduceCtorEq, false_iff]
      rintro ⟨m, hm, hfold⟩
      rw [(List.append_eq_nil_iff.mp hm.symm).1] at hfold
      cases hfold
    | cons c cs =>
      rw [matchWord]
      constructor
      · intro h
        split at h
        · rename_i hc
          obtain ⟨m, rfl, hm⟩ := ih.mp h
          exact ⟨c :: m, rfl, by rw [List.map_cons, hc, hm]⟩
        · cases h
      · rintro ⟨m, hm, hfold⟩
        cases m with
        | nil => cases hfold
        | cons d m =>
          obtain ⟨rfl, rfl⟩ := List.cons.inj hm
          obtain ⟨hc, hm'⟩ := List.cons.inj hfold
          rw [if_pos hc]
          exact ih.mpr ⟨m, rfl, hm'⟩

/-- The spellings of a name of two words. -/
def pairForms (first second : List Char) : List (List Char) :=
  [first ++ second, first ++ '-' :: second, first ++ '_' :: second, first ++ ' ' :: second]

theorem fold_separator {c d : Char} (hd : d = '-' ∨ d = '_' ∨ d = ' ') : foldChar c = d ↔ c = d := by
  constructor
  · intro h
    unfold foldChar at h
    split at h
    · rename_i hc
      simp only [Char.reduceToNat] at hc
      have hn := congrArg Char.toNat h
      rw [PercentEncoding.toNat_ofNat_ascii _ (by omega)] at hn
      rcases hd with rfl | rfl | rfl <;> simp only [Char.reduceToNat] at hn <;> omega
    · split at h
      · rcases hd with rfl | rfl | rfl <;> exact absurd h (by decide)
      · split at h
        · rcases hd with rfl | rfl | rfl <;> exact absurd h (by decide)
        · split at h
          · rcases hd with rfl | rfl | rfl <;> exact absurd h (by decide)
          · exact h
  · rintro rfl
    rcases hd with rfl | rfl | rfl <;> decide

theorem matchPair_some {first second : String} (h : matchPair first second cs = some rest) :
    ∃ m, cs = m ++ rest ∧ m.map foldChar ∈ pairForms first.toList second.toList := by
  obtain ⟨mid, hfirst, hsecond⟩ := Option.bind_eq_some_iff.mp h
  obtain ⟨m₁, rfl, h₁⟩ := matchWord_iff.mp hfirst
  obtain ⟨m₂, hmid, h₂⟩ := matchWord_iff.mp hsecond
  cases mid with
  | nil =>
    rw [skipSeparator] at hmid
    refine ⟨m₁ ++ m₂, by rw [List.append_assoc, ← hmid], ?_⟩
    simp [pairForms, h₁, h₂]
  | cons c mid =>
    rw [skipSeparator] at hmid
    split at hmid
    · rename_i hc
      subst hmid
      refine ⟨m₁ ++ c :: m₂, by simp, ?_⟩
      have hfold : foldChar c = c := (fold_separator hc).mpr rfl
      rw [List.map_append, List.map_cons, h₁, h₂, hfold]
      rcases hc with rfl | rfl | rfl <;> simp [pairForms]
    · refine ⟨m₁ ++ m₂, by rw [List.append_assoc, ← hmid], ?_⟩
      simp [pairForms, h₁, h₂]

theorem matchPair_of_mem {first second : String} (hsecond : ∀ c ∈ second.toList.head?,
    c ≠ '-' ∧ c ≠ '_' ∧ c ≠ ' ') (hne : second.toList ≠ [])
    (h : m.map foldChar ∈ pairForms first.toList second.toList) :
    matchPair first second (m ++ rest) = some rest := by
  obtain ⟨m₁, tail, rfl, hm₁, htail⟩ : ∃ m₁ tail, m = m₁ ++ tail ∧ m₁.map foldChar = first.toList ∧
      (tail.map foldChar = second.toList ∨ ∃ c, (c = '-' ∨ c = '_' ∨ c = ' ') ∧
        tail.map foldChar = c :: second.toList) := by
    simp only [pairForms, List.mem_cons, List.not_mem_nil, or_false] at h
    rcases h with h | h | h | h <;> obtain ⟨m₁, tail, rfl, hm₁, htail⟩ := List.map_eq_append_iff.mp h
    · exact ⟨m₁, tail, rfl, hm₁, .inl htail⟩
    · exact ⟨m₁, tail, rfl, hm₁, .inr ⟨_, .inl rfl, htail⟩⟩
    · exact ⟨m₁, tail, rfl, hm₁, .inr ⟨_, .inr (.inl rfl), htail⟩⟩
    · exact ⟨m₁, tail, rfl, hm₁, .inr ⟨_, .inr (.inr rfl), htail⟩⟩
  have hfirst : matchWord first.toList (m₁ ++ tail ++ rest) = some (tail ++ rest) :=
    matchWord_iff.mpr ⟨m₁, List.append_assoc _ _ _, hm₁⟩
  rw [matchPair, hfirst, Option.bind_some]
  rcases htail with htail | ⟨c, hc, htail⟩
  · cases tail with
    | nil => exact absurd htail.symm hne
    | cons d tail =>
      have hd := hsecond (foldChar d) (by rw [← htail]; rfl)
      have hnot : ¬(d = '-' ∨ d = '_' ∨ d = ' ') := by
        intro hsep
        rw [(fold_separator hsep).mpr rfl] at hd
        rcases hsep with rfl | rfl | rfl
        · exact hd.1 rfl
        · exact hd.2.1 rfl
        · exact hd.2.2 rfl
      rw [List.cons_append, skipSeparator, if_neg hnot]
      exact matchWord_iff.mpr ⟨d :: tail, rfl, htail⟩
  · cases tail with
    | nil => cases htail
    | cons d tail =>
      obtain ⟨hd, hword⟩ := List.cons.inj htail
      have hdc := (fold_separator hc).mp hd
      subst hdc
      rw [List.cons_append, skipSeparator, if_pos hc]
      exact matchWord_iff.mpr ⟨tail, rfl, hword⟩

theorem matchSecretName_some (h : matchSecretName cs = some rest) :
    ∃ m, cs = m ++ rest ∧ m.map foldChar ∈ forms := by
  have hapi : ∀ l ∈ pairForms "api".toList "key".toList, l ∈ forms := by decide
  have haccess : ∀ l ∈ pairForms "access".toList "token".toList, l ∈ forms := by decide
  unfold matchSecretName at h
  simp only [Option.orElse_eq_orElse, Option.orElse_eq_or, Option.or_eq_some_iff] at h
  have hword : ∀ w : List Char, w ∈ forms → matchWord w cs = some rest →
      ∃ m, cs = m ++ rest ∧ m.map foldChar ∈ forms := by
    intro w hw h
    obtain ⟨m, hm, hfold⟩ := matchWord_iff.mp h
    exact ⟨m, hm, hfold ▸ hw⟩
  rcases h with h | ⟨-, h | ⟨-, h | ⟨-, h | ⟨-, h⟩⟩⟩⟩
  · obtain ⟨m, hm, hfold⟩ := matchPair_some h
    exact ⟨m, hm, hapi _ hfold⟩
  · obtain ⟨m, hm, hfold⟩ := matchPair_some h
    exact ⟨m, hm, haccess _ hfold⟩
  · exact hword _ (by decide) h
  · exact hword _ (by decide) h
  · exact hword _ (by decide) h

/-- Of two names that begin one text none goes on behind the other. -/
theorem name_unique {m' rest' : List Char} (h : m ++ rest = m' ++ rest')
    (hm : m.map foldChar ∈ forms) (hm' : m'.map foldChar ∈ forms) : m = m' := by
  have hlen : m.length = m'.length := by
    rcases List.append_eq_append_iff.mp h with ⟨t, ht, -⟩ | ⟨t, ht, -⟩
    · have hpre := forms_prefix_free _ hm _ hm' ⟨t.map foldChar, by rw [ht, List.map_append]⟩
      simpa using congrArg List.length hpre
    · have hpre := forms_prefix_free _ hm' _ hm ⟨t.map foldChar, by rw [ht, List.map_append]⟩
      simpa using (congrArg List.length hpre).symm
  exact (List.append_inj h hlen).1

theorem matchSecretName_of_mem (h : m.map foldChar ∈ forms) :
    matchSecretName (m ++ rest) = some rest := by
  have hsome : ∃ r, matchSecretName (m ++ rest) = some r := by
    have hsplit : m.map foldChar ∈ pairForms "api".toList "key".toList ∨
        m.map foldChar ∈ pairForms "access".toList "token".toList ∨
        m.map foldChar = "authorization".toList ∨ m.map foldChar = "password".toList ∨
        m.map foldChar = "secret".toList := by
      have hall : ∀ f ∈ forms, f ∈ pairForms "api".toList "key".toList ∨
        f ∈ pairForms "access".toList "token".toList ∨ f = "authorization".toList ∨
        f = "password".toList ∨ f = "secret".toList := by decide
      exact hall _ h
    have hword : ∀ w, m.map foldChar = w → matchWord w (m ++ rest) = some rest := fun w hw =>
      matchWord_iff.mpr ⟨m, rfl, hw⟩
    unfold matchSecretName
    rw [← Option.isSome_iff_exists]
    simp only [Option.orElse_eq_orElse, Option.orElse_eq_or, Option.isSome_or, Bool.or_eq_true]
    rcases hsplit with h | h | h | h | h
    · rw [matchPair_of_mem (by decide) (by decide) h]
      exact .inl rfl
    · rw [matchPair_of_mem (by decide) (by decide) h]
      exact .inr (.inl rfl)
    · rw [hword _ h]
      exact .inr (.inr (.inl rfl))
    · rw [hword _ h]
      exact .inr (.inr (.inr (.inl rfl)))
    · rw [hword _ h]
      exact .inr (.inr (.inr (.inr rfl)))
  obtain ⟨r, hr⟩ := hsome
  obtain ⟨m', heq, hm'⟩ := matchSecretName_some hr
  have hmm := name_unique heq h hm'
  rw [← hmm] at heq
  rw [hr, List.append_cancel_left heq]

end Names

/-! ### Values -/

/-- A longest stretch of token characters. -/
structure Token (t after : List Char) : Prop where
  ne : t ≠ []
  chars : ∀ c ∈ t, isTokenChar c = true
  stops : ∀ c ∈ after.head?, isTokenChar c = false

def IsQuote (q : Char) : Prop := q = '\'' ∨ q = '"'

inductive Value : List Char → List Char → Prop
  | quoted {q : Char} {inner after : List Char} (quote : IsQuote q) (closed : q ∉ inner) :
      Value (q :: inner ++ [q]) after
  | token {t after : List Char} (token : Token t after) : Value t after

def AllSpace (l : List Char) : Prop := ∀ c ∈ l, isSpace c = true

def IsSign (c : Char) : Prop := c = ':' ∨ c = '='

section Values
variable {cs t after rest : List Char} {c : Char}

theorem isSpace_tokenChar (h : isTokenChar c = true) : isSpace c = false := by
  unfold isTokenChar at h
  simp only [Bool.and_eq_true, Bool.not_eq_true'] at h
  exact h.1.1

/-- How a text splits at the end of a stretch. -/
theorem stretch_unique {p : Char → Bool} {a b : List Char} (ha : ∀ c ∈ a, p c = true)
    (hb : ∀ c ∈ b.head?, p c = false) : (a ++ b).takeWhile p = a ∧ (a ++ b).dropWhile p = b := by
  rw [List.takeWhile_append_of_pos ha, List.dropWhile_append_of_pos ha]
  cases b with
  | nil => simp
  | cons d b =>
    have hd := hb d rfl
    rw [List.takeWhile_cons_of_neg (by simp [hd]), List.dropWhile_cons_of_neg (by simp [hd]),
      List.append_nil]
    exact ⟨rfl, rfl⟩

theorem dropWhile_stops (p : Char → Bool) (l : List Char) :
    ∀ c ∈ (l.dropWhile p).head?, p c = false := by
  intro c hc
  have hhead := List.head?_dropWhile_not p l
  rw [hc] at hhead
  simpa using hhead

theorem matchToken_iff : matchToken cs = some after ↔ ∃ t, cs = t ++ after ∧ Token t after := by
  unfold matchToken
  constructor
  · intro h
    split at h
    · cases h
    · rename_i hne
      cases h
      refine ⟨cs.takeWhile isTokenChar, List.takeWhile_append_dropWhile.symm, ?_,
        fun c hc => List.mem_takeWhile_imp hc, dropWhile_stops _ _⟩
      intro hnil
      rw [hnil] at hne
      exact hne rfl
  · rintro ⟨t, rfl, ht⟩
    obtain ⟨htake, hdrop⟩ := stretch_unique ht.chars ht.stops
    rw [htake, hdrop, if_neg]
    intro hnil
    exact ht.ne (List.isEmpty_iff.mp hnil)

theorem matchQuoted_iff {q : Char} :
    matchQuoted q cs = some after ↔ ∃ inner, cs = q :: inner ++ q :: after ∧ q ∉ inner := by
  cases cs with
  | nil => simp [matchQuoted]
  | cons c cs =>
    rw [matchQuoted]
    constructor
    · intro h
      split at h
      · rename_i hc
        subst hc
        have hparts := List.takeWhile_append_dropWhile (p := fun x => decide (x ≠ c)) (l := cs)
        have hstops := dropWhile_stops (fun x => decide (x ≠ c)) cs
        cases hd : cs.dropWhile (fun x => decide (x ≠ c)) with
        | nil =>
          rw [hd] at h
          cases h
        | cons d rest =>
          rw [hd] at h hparts hstops
          cases h
          have hdc : d = c := by simpa using hstops d rfl
          refine ⟨cs.takeWhile (fun x => decide (x ≠ c)), ?_, fun hmem => ?_⟩
          · rw [hdc] at hparts
            rw [List.cons_append, hparts]
          · have hne := List.mem_takeWhile_imp hmem
            simp at hne
      · cases h
    · rintro ⟨inner, heq, hinner⟩
      obtain ⟨rfl, hcs⟩ := List.cons.inj heq
      have hall : ∀ x ∈ inner, decide (x ≠ c) = true := by
        intro x hx
        rw [decide_eq_true_eq]
        rintro rfl
        exact hinner hx
      have hdrop : (inner ++ c :: after).dropWhile (fun x => decide (x ≠ c)) = c :: after :=
        (stretch_unique hall (by simp)).2
      rw [if_pos rfl, hcs]
      cases hd : List.dropWhile (fun x => decide (x ≠ c)) (inner ++ c :: after) with
      | nil =>
        rw [hdrop] at hd
        cases hd
      | cons d rest =>
        rw [hdrop] at hd
        cases hd
        rfl

theorem not_quote_token {q : Char} (h : ¬ IsQuote q) : matchQuoted '\'' (q :: cs) = none ∧
    matchQuoted '"' (q :: cs) = none :=
  ⟨by rw [matchQuoted, if_neg fun he => h (.inl he)], by rw [matchQuoted, if_neg fun he => h (.inr he)]⟩

end Values

/-! ### Matches -/

section Matches
variable {cs value after m sp₁ sp₂ t : List Char} {sign : Char}

theorem bearer_iff : matchBearer cs = some (value, after) ↔ ∃ m sp t, cs = m ++ sp ++ t ++ after ∧
    value = t ++ after ∧ m.map foldChar = BEARER ∧ sp ≠ [] ∧ AllSpace sp ∧ Token t after := by
  constructor
  · intro h
    obtain ⟨rest, hword, hrest⟩ := Option.bind_eq_some_iff.mp h
    obtain ⟨m, rfl, hm⟩ := matchWord_iff.mp hword
    dsimp only at hrest
    split at hrest
    · cases hrest
    · rename_i hlen
      obtain ⟨a, htoken, heq⟩ := Option.map_eq_some_iff.mp hrest
      obtain ⟨t, ht, htok⟩ := matchToken_iff.mp htoken
      cases heq
      have hparts := List.takeWhile_append_dropWhile (p := isSpace) (l := rest)
      refine ⟨m, rest.takeWhile isSpace, t, ?_, ht, hm, ?_, fun c hc => List.mem_takeWhile_imp hc, htok⟩
      · conv_lhs => rw [← hparts, ht]
        simp
      · intro hnil
        rw [hnil, List.nil_append] at hparts
        exact hlen (congrArg List.length hparts)
  · rintro ⟨m, sp, t, rfl, rfl, hm, hsp, hspace, htok⟩
    have hstop : ∀ c ∈ (t ++ after).head?, isSpace c = false := by
      intro c hc
      cases t with
      | nil => exact absurd rfl htok.ne
      | cons d t =>
        cases hc
        exact isSpace_tokenChar (htok.chars _ List.mem_cons_self)
    have hword : matchWord "bearer".toList (m ++ sp ++ t ++ after) = some (sp ++ (t ++ after)) :=
      matchWord_iff.mpr ⟨m, by simp, hm⟩
    have hlen : (t ++ after).length ≠ (sp ++ (t ++ after)).length := by
      have hpos := List.length_pos_of_ne_nil hsp
      have hsum : (sp ++ (t ++ after)).length = sp.length + (t ++ after).length := List.length_append
      omega
    unfold matchBearer
    rw [hword, Option.bind_some]
    dsimp only
    rw [(stretch_unique hspace hstop).2, if_neg hlen, matchToken_iff.mpr ⟨t, rfl, htok⟩]
    rfl

theorem assignment_some (h : matchAssignment cs = some (value, after)) :
    ∃ m sp₁ sign sp₂ v, cs = m ++ sp₁ ++ sign :: sp₂ ++ v ++ after ∧ value = v ++ after ∧
      m.map foldChar ∈ forms ∧ AllSpace sp₁ ∧ IsSign sign ∧ AllSpace sp₂ ∧ Value v after := by
  obtain ⟨rest, hname, hrest⟩ := Option.bind_eq_some_iff.mp h
  obtain ⟨m, rfl, hm⟩ := matchSecretName_some hname
  have hparts := List.takeWhile_append_dropWhile (p := isSpace) (l := rest)
  split at hrest
  · rename_i c afterSign hdrop
    split at hrest
    · rename_i hsign
      obtain ⟨a, hvalue, heq⟩ := Option.map_eq_some_iff.mp hrest
      have hparts₂ := List.takeWhile_append_dropWhile (p := isSpace) (l := afterSign)
      have hv : ∃ v, afterSign.dropWhile isSpace = v ++ a ∧ Value v a := by
        simp only [Option.orElse_eq_orElse, Option.orElse_eq_or, Option.or_eq_some_iff] at hvalue
        rcases hvalue with hq | ⟨-, hq | ⟨-, ht⟩⟩
        · obtain ⟨inner, heq, hin⟩ := matchQuoted_iff.mp hq
          exact ⟨'\'' :: inner ++ ['\''], by rw [heq]; simp, .quoted (.inl rfl) hin⟩
        · obtain ⟨inner, heq, hin⟩ := matchQuoted_iff.mp hq
          exact ⟨'"' :: inner ++ ['"'], by rw [heq]; simp, .quoted (.inr rfl) hin⟩
        · obtain ⟨t, heq, ht⟩ := matchToken_iff.mp ht
          exact ⟨t, heq, .token ht⟩
      obtain ⟨v, hva, hval⟩ := hv
      obtain ⟨rfl, rfl⟩ := Prod.mk.inj heq
      refine ⟨m, rest.takeWhile isSpace, c, afterSign.takeWhile isSpace, v, ?_, hva, hm,
        fun c hc => List.mem_takeWhile_imp hc, hsign, fun c hc => List.mem_takeWhile_imp hc, hval⟩
      conv_lhs => rw [← hparts, hdrop, ← hparts₂, hva]
      simp
    · cases hrest
  · cases hrest

theorem assignment_eq (hm : m.map foldChar ∈ forms) (h₁ : AllSpace sp₁) (hsign : IsSign sign)
    (h₂ : AllSpace sp₂) (hcs : ∀ c ∈ cs.head?, isSpace c = false) :
    matchAssignment (m ++ sp₁ ++ sign :: sp₂ ++ cs) =
      (matchQuoted '\'' cs <|> matchQuoted '"' cs <|> matchToken cs).map fun after => (cs, after) := by
  have hname : matchSecretName (m ++ sp₁ ++ sign :: sp₂ ++ cs) = some (sp₁ ++ sign :: (sp₂ ++ cs)) := by
    have h : matchSecretName (m ++ (sp₁ ++ sign :: (sp₂ ++ cs))) = some (sp₁ ++ sign :: (sp₂ ++ cs)) :=
      matchSecretName_of_mem hm
    simpa using h
  have hstop : ∀ c ∈ (sign :: (sp₂ ++ cs)).head?, isSpace c = false := by
    intro c hc
    cases hc
    rcases hsign with rfl | rfl <;> decide
  have hcond : sign = ':' ∨ sign = '=' := hsign
  unfold matchAssignment
  rw [hname, Option.bind_some, (stretch_unique h₁ hstop).2]
  dsimp only
  rw [if_pos hcond, (stretch_unique h₂ hcs).2]

theorem assignment_token (hm : m.map foldChar ∈ forms) (h₁ : AllSpace sp₁) (hsign : IsSign sign)
    (h₂ : AllSpace sp₂) (htok : Token t after) (hquote : ∀ c ∈ t.head?, ¬ IsQuote c) :
    matchAssignment (m ++ sp₁ ++ sign :: sp₂ ++ (t ++ after)) = some (t ++ after, after) := by
  have hmatch := matchToken_iff.mpr ⟨t, rfl, htok⟩
  cases t with
  | nil => exact absurd rfl htok.ne
  | cons c t =>
    rw [assignment_eq hm h₁ hsign h₂, hmatch, List.cons_append, (not_quote_token (hquote c rfl)).1,
      (not_quote_token (hquote c rfl)).2]
    · rfl
    · intro d hd
      cases hd
      exact isSpace_tokenChar (htok.chars c List.mem_cons_self)

theorem assignment_quoted {q : Char} {inner : List Char} (hm : m.map foldChar ∈ forms)
    (h₁ : AllSpace sp₁) (hsign : IsSign sign) (h₂ : AllSpace sp₂) (hq : IsQuote q)
    (hin : q ∉ inner) :
    matchAssignment (m ++ sp₁ ++ sign :: sp₂ ++ (q :: inner ++ q :: after)) =
      some (q :: inner ++ q :: after, after) := by
  have hmatch : matchQuoted q (q :: inner ++ q :: after) = some after :=
    matchQuoted_iff.mpr ⟨inner, rfl, hin⟩
  have hspace : ∀ c ∈ (q :: inner ++ q :: after).head?, isSpace c = false := by
    intro c hc
    cases hc
    rcases hq with rfl | rfl <;> decide
  rw [assignment_eq hm h₁ hsign h₂ hspace]
  rcases hq with rfl | rfl
  · rw [hmatch]
    rfl
  · rw [hmatch, matchQuoted.eq_def '\'']
    rfl

theorem bearer_lawful : Lawful matchBearer := by
  intro cs value after h
  obtain ⟨m, sp, t, rfl, rfl, hm, -, -, -⟩ := bearer_iff.mp h
  refine ⟨m ++ sp, t, ?_, rfl, rfl⟩
  intro hnil
  rw [(List.append_eq_nil_iff.mp hnil).1] at hm
  cases hm

theorem assignment_lawful : Lawful matchAssignment := by
  intro cs value after h
  obtain ⟨m, sp₁, sign, sp₂, v, rfl, rfl, -⟩ := assignment_some h
  exact ⟨m ++ sp₁ ++ sign :: sp₂, v, by simp, rfl, rfl⟩

end Matches

/-! ### Substitution -/

theorem substitute_scan {pattern : Pattern Char} (hp : Lawful pattern) {fuel : Nat} {cs : List Char}
    (hfuel : cs.length ≤ fuel) :
    ∃ ps, Scan pattern cs ps ∧ substitute pattern fuel cs = render marker ps := by
  induction fuel generalizing cs with
  | zero =>
    have hnil := List.length_eq_zero_iff.mp (Nat.le_zero.mp hfuel)
    subst hnil
    exact ⟨[], .nil, rfl⟩
  | succ fuel ih =>
    cases cs with
    | nil => exact ⟨[], .nil, rfl⟩
    | cons c cs =>
      cases hfound : pattern (c :: cs) with
      | none =>
        obtain ⟨ps, hscan, hsub⟩ := ih (show cs.length ≤ fuel by simpa using hfuel)
        refine ⟨.keep c :: ps, .skip hfound hscan, ?_⟩
        simp only [substitute, hfound, hsub, render]
      | some found =>
        obtain ⟨value, after⟩ := found
        obtain ⟨kept, removed, hkept, heq, rfl⟩ := hp _ _ _ hfound
        have hlen : after.length ≤ fuel := by
          have hlength := congrArg List.length heq
          have hpos := List.length_pos_of_ne_nil hkept
          simp only [List.length_append, List.length_cons] at hlength hfuel
          omega
        obtain ⟨ps, hscan, hsub⟩ := ih hlen
        refine ⟨kept.map .keep ++ .hide removed :: ps, ?_, ?_⟩
        · rw [heq]
          exact .hit hkept (by rw [← heq, hfound]) hscan
        · have htake : (c :: cs).take ((c :: cs).length - (removed ++ after).length) = kept := by
            rw [heq, List.append_assoc, List.length_append, Nat.add_sub_cancel, List.take_left]
          rw [substitute, hfound]
          dsimp only
          rw [htake, hsub, render_append, render_keep, render_hide, List.append_assoc]
          rfl

/-- The redaction as two scans, the second over what the first wrote. -/
theorem redactError_scans (maxLength : Nat) (error : String) :
    ∃ ps qs, Scan matchBearer (squeeze .start error.toList) ps ∧
      Scan matchAssignment (render marker ps) qs ∧
      redactError maxLength (some error) = some (String.ofList ((render marker qs).take maxLength)) := by
  obtain ⟨ps, hps, hfirst⟩ := substitute_scan bearer_lawful (le_refl (squeeze .start error.toList).length)
  obtain ⟨qs, hqs, hsecond⟩ := substitute_scan assignment_lawful (le_refl (render marker ps).length)
  refine ⟨ps, qs, hps, hqs, ?_⟩
  have hcollapse : collapseSpace error.toList = squeeze .start error.toList :=
    (squeeze_start_eq error.toList).symm
  unfold redactError
  simp only [Option.map_some, hcollapse, hfirst, hsecond]

end SibylMemory.Outbox
