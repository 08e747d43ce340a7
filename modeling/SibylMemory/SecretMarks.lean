import SibylMemory.DriverReceipts
import SibylMemory.Library.Marking
import SibylMemory.Outbox.RedactionContexts

/-!
# Secrets and the marks of a redaction (`scripts/release_gates.py:229-230`, `289-300`)

Redaction puts marks in the place of secrets and bearer credentials. No secret is left as the driver
wrote it, but a mark may complete one: on the driver's text, the secret meets a mark.
-/

namespace SibylMemory.ReleaseGates
open Scrub Substitute Marking

/-! ### What is replaced -/

/-- What `_BEARER` matches, or a first part of it. -/
inductive BearerPhrase : List Char → Prop where
  | intro {word spaces credential : List Char} (bearer : word.map Outbox.foldChar = "bearer".toList)
      (blank : ∀ c ∈ spaces, Text.isSpace c = true) (spaced : spaces ≠ [])
      (credentials : ∀ c ∈ credential, isCredentialChar c = true) (follows : credential ≠ []) :
      BearerPhrase (word ++ (spaces ++ credential))

inductive Replaced (settings : StackSettings) : List Char → List Char → Prop where
  | apiKey : Replaced settings settings.apiKey.toList REDACTED.toList
  | token : Replaced settings settings.hermesSessionToken.toList REDACTED.toList
  | bearer {piece : List Char} (phrase : BearerPhrase piece) :
      Replaced settings piece BEARER_REDACTED.toList

/-- Neither secret meets a mark. -/
structure Misses (settings : StackSettings) (text : String) : Prop where
  apiKey : ¬ Meets (Replaced settings) text.toList settings.apiKey.toList
  token : ¬ Meets (Replaced settings) text.toList settings.hermesSessionToken.toList

structure StackSettings.Given (settings : StackSettings) : Prop where
  apiKey : settings.apiKey ≠ ""
  token : settings.hermesSessionToken ≠ ""

/-- Neither secret can be read together with a part of a mark. -/
structure StackSettings.MarkFree (settings : StackSettings) : Prop where
  apiKey : Apart REDACTED.toList settings.apiKey.toList
  apiKey_bearer : Apart BEARER_REDACTED.toList settings.apiKey.toList
  token : Apart REDACTED.toList settings.hermesSessionToken.toList
  token_bearer : Apart BEARER_REDACTED.toList settings.hermesSessionToken.toList

theorem toList_ne_nil {s : String} (h : s ≠ "") : s.toList ≠ [] := by
  intro hnil
  exact h (String.toList_inj.mp hnil)

/-- A word that a mark takes part in begins like a part of a mark, or has a character that a mark
begins with. -/
theorem meets_chars {replaced : List Char → List Char → Prop} {text w : List Char}
    (h : Meets replaced text w) : ∃ piece mark, replaced piece mark ∧
      ((∃ c ∈ w.head?, c ∈ mark) ∨ ∃ c ∈ w, c ∈ mark.head?) := by
  cases h with
  | @intro before piece after mark p m y r found occurs part nonempty front behind =>
    obtain ⟨c, m, rfl⟩ := List.exists_cons_of_ne_nil nonempty
    refine ⟨piece, mark, found, ?_⟩
    by_cases hp : p = []
    · subst hp
      exact .inl ⟨c, rfl, part.subset List.mem_cons_self⟩
    · obtain ⟨more, rfl⟩ := (front hp).1
      exact .inr ⟨c, by simp, rfl⟩

/-- A secret that begins like no part of a mark and has no character that a mark begins with. -/
theorem not_meets {settings : StackSettings} {text w : List Char}
    (hfirst : ∀ c ∈ w.head?, c ∉ BEARER_REDACTED.toList) (hothers : ∀ c ∈ w, c ∉ ['[', 'B']) :
    ¬ Meets (Replaced settings) text w := by
  intro h
  obtain ⟨piece, mark, found, hchars⟩ := meets_chars h
  have hmark : mark = REDACTED.toList ∨ mark = BEARER_REDACTED.toList := by
    cases found with
    | apiKey => exact .inl rfl
    | token => exact .inl rfl
    | bearer phrase => exact .inr rfl
  have hpart : mark ⊆ BEARER_REDACTED.toList ∧ ∀ c ∈ mark.head?, c ∈ ['[', 'B'] := by
    rcases hmark with rfl | rfl
    · exact ⟨by decide, by decide⟩
    · exact ⟨by decide, by decide⟩
  rcases hchars with ⟨c, hc, hmem⟩ | ⟨c, hc, hmem⟩
  · exact hfirst c hc (hpart.1 hmem)
  · exact hothers c hc (hpart.2 c hmem)

/-! ### Bearer credentials -/

section Bearer
variable {cs piece : List Char}

theorem bearerMatcher_phrase {n : Nat} (h : bearerMatcher cs = some n) : BearerPhrase (cs.take n) := by
  obtain ⟨rest, hword, h⟩ := Option.bind_eq_some_iff.mp h
  obtain ⟨word, rfl, hbearer⟩ := Outbox.matchWord_iff.mp hword
  dsimp only at h
  split at h
  · cases h
  · rename_i hvalue
    cases h
    push Not at hvalue
    obtain ⟨hspaced, hfollows⟩ := hvalue
    have hrest := List.takeWhile_append_dropWhile (p := Text.isSpace) (l := rest)
    have hvalue := List.takeWhile_append_dropWhile (p := isCredentialChar)
      (l := rest.dropWhile Text.isSpace)
    have htext : word ++ rest = (word ++ (rest.takeWhile Text.isSpace ++
        (rest.dropWhile Text.isSpace).takeWhile isCredentialChar)) ++
        (rest.dropWhile Text.isSpace).dropWhile isCredentialChar := by
      rw [List.append_assoc, List.append_assoc, hvalue, hrest]
    rw [htext, List.length_append, Nat.add_sub_cancel, List.take_left]
    refine .intro hbearer (fun c hc => List.mem_takeWhile_imp hc) (fun hnil => hspaced ?_)
      (fun c hc => List.mem_takeWhile_imp hc) hfollows
    rw [hnil, List.nil_append] at hrest
    rw [hrest]

theorem credential_not_space {c : Char} (h : isCredentialChar c = true) : Text.isSpace c = false := by
  unfold isCredentialChar at h
  simp only [Bool.or_eq_true, decide_eq_true_eq] at h
  rcases h with (hlower | hdigit) | hsign
  · rw [← Outbox.isSpace_fold]
    generalize Outbox.foldChar c = d at hlower
    have hbounds : (decide (d.val ≥ 'a'.val) && decide (d.val ≤ 'z'.val)) = true := hlower
    simp only [Bool.and_eq_true, decide_eq_true_eq, ge_iff_le, UInt32.le_iff_toNat_le, Char.reduceVal,
      UInt32.reduceToNat] at hbounds
    simp only [Text.isSpace, decide_eq_false_iff_not, Char.toNat]
    omega
  · have hbounds : (decide (c.val ≥ '0'.val) && decide (c.val ≤ '9'.val)) = true := hdigit
    simp only [Bool.and_eq_true, decide_eq_true_eq, ge_iff_le, UInt32.le_iff_toNat_le, Char.reduceVal,
      UInt32.reduceToNat] at hbounds
    simp only [Text.isSpace, decide_eq_false_iff_not, Char.toNat]
    omega
  · revert c
    decide

theorem phrase_matched (h : BearerPhrase piece) (hopens : piece <+: cs) :
    (bearerMatcher cs).isSome := by
  obtain ⟨tail, rfl⟩ := hopens
  cases h with
  | @intro word spaces credential bearer blank spaced credentials follows =>
    have hword : Outbox.matchWord "bearer".toList (word ++ (spaces ++ credential) ++ tail) =
        some (spaces ++ (credential ++ tail)) :=
      Outbox.matchWord_iff.mpr ⟨word, by simp, bearer⟩
    obtain ⟨c, credential, rfl⟩ := List.exists_cons_of_ne_nil follows
    have hc := credentials c List.mem_cons_self
    have hstop : ∀ d ∈ (c :: credential ++ tail).head?, Text.isSpace d = false := by
      intro d hd
      cases hd
      exact credential_not_space hc
    have hlength : (c :: credential ++ tail).length ≠ (spaces ++ (c :: credential ++ tail)).length := by
      have hpos := List.length_pos_of_ne_nil spaced
      have hsum : (spaces ++ (c :: credential ++ tail)).length =
          spaces.length + (c :: credential ++ tail).length := List.length_append
      omega
    have htaken : (c :: credential ++ tail).takeWhile isCredentialChar ≠ [] := by
      rw [List.cons_append, List.takeWhile_cons_of_pos hc]
      exact List.cons_ne_nil _ _
    unfold bearerMatcher
    rw [hword, Option.bind_some]
    dsimp only
    rw [(Outbox.stretch_unique blank hstop).2, if_neg (not_or.mpr ⟨hlength, htaken⟩)]
    rfl

theorem phrase_ne_nil (h : BearerPhrase piece) : piece ≠ [] := by
  cases h with
  | intro bearer blank spaced credentials follows =>
    intro hnil
    exact spaced (List.append_eq_nil_iff.mp (List.append_eq_nil_iff.mp hnil).2).1

theorem bearerMatcher_positive : Positive bearerMatcher := by
  intro cs n h
  refine Nat.pos_of_ne_zero ?_
  rintro rfl
  exact phrase_ne_nil (bearerMatcher_phrase h) (List.take_zero)

/-- It begins with a letter of no other mark, and has no bracket. -/
theorem phrase_chars (h : BearerPhrase piece) : (∀ c ∈ piece.head?, Outbox.foldChar c = 'b') ∧
    '[' ∉ piece := by
  cases h with
  | @intro word spaces credential bearer blank spaced credentials follows =>
    have hbracket : Outbox.foldChar '[' ∉ "bearer".toList := by decide
    refine ⟨fun c hc => ?_, ?_⟩
    · cases word with
      | nil => cases bearer
      | cons d word =>
        cases hc
        exact (List.cons.inj bearer).1
    · intro hmem
      rcases List.mem_append.mp hmem with hword | hmem
      · exact hbracket (bearer ▸ List.mem_map_of_mem hword)
      · rcases List.mem_append.mp hmem with hspace | hcredential
        · exact absurd (blank _ hspace) (by decide)
        · exact absurd (credentials _ hcredential) (by decide)

theorem bearer_none (h : ∀ piece, BearerPhrase piece → ¬ piece <+: cs) : bearerMatcher cs = none := by
  cases hfound : bearerMatcher cs with
  | none => rfl
  | some n => exact absurd (List.take_prefix n cs) (h _ (bearerMatcher_phrase hfound))

theorem bearer_unmatched (h : bearerMatcher cs = none) (hphrase : BearerPhrase piece) :
    ¬ piece <+: cs := by
  intro hopens
  have hsome := phrase_matched hphrase hopens
  rw [h] at hsome
  cases hsome

/-- Where no phrase goes on with `c`, none goes on into a mark that begins with it. -/
theorem bearer_cross {u l mark r : List Char} {c : Char} (hsplit : ∀ q, ¬ BearerPhrase (u ++ c :: q))
    (hnone : bearerMatcher (u ++ l) = none) : bearerMatcher (u ++ (c :: mark ++ r)) = none := by
  refine bearer_none fun piece hphrase hopens => ?_
  rcases List.prefix_or_prefix_of_prefix hopens (List.prefix_append u _) with hin | ⟨q, rfl⟩
  · exact bearer_unmatched hnone hphrase (hin.trans (List.prefix_append u l))
  · cases q with
    | nil =>
      rw [List.append_nil] at hphrase
      exact bearer_unmatched hnone hphrase (List.prefix_append u l)
    | cons d q =>
      obtain ⟨rfl, -⟩ := List.cons_prefix_cons.mp ((List.prefix_append_right_inj u).mp hopens)
      exact hsplit q hphrase

/-- What is matched begins with a character of a credential. -/
theorem bearer_letter {l : List Char} (hfound : (bearerMatcher l).isSome) :
    ∃ c tail, l = c :: tail ∧ isCredentialChar c = true := by
  obtain ⟨n, hn⟩ := Option.isSome_iff_exists.mp hfound
  have hphrase := bearerMatcher_phrase hn
  cases l with
  | nil =>
    rw [List.take_nil] at hphrase
    exact absurd rfl (phrase_ne_nil hphrase)
  | cons c tail =>
    obtain ⟨n, rfl⟩ := Nat.exists_eq_add_one.mpr (bearerMatcher_positive _ _ hn)
    have hfold : Outbox.foldChar c = 'b' := (phrase_chars hphrase).1 c rfl
    refine ⟨c, tail, rfl, ?_⟩
    rw [isCredentialChar, hfold]
    rfl

/-- A phrase that runs into a `B` ran into the phrase that was there before. -/
theorem phrase_split {u l q : List Char} (hne : u ≠ []) (hnone : bearerMatcher (u ++ l) = none)
    (hfound : (bearerMatcher l).isSome) : ¬ BearerPhrase (u ++ 'B' :: q) := by
  obtain ⟨c, tail, rfl, hchar⟩ := bearer_letter hfound
  have hblank : Text.isSpace 'B' ≠ true := by decide
  intro hsplit
  generalize hall : u ++ 'B' :: q = piece at hsplit
  cases hsplit with
  | @intro word spaces credential bearer blank spaced credentials follows =>
    -- where `u` ends: within the word, within the spaces or behind them
    rcases List.append_eq_append_iff.mp hall with ⟨rest, rfl, hrest⟩ | ⟨more, rfl, hrest⟩
    · obtain ⟨a, u, rfl⟩ := List.exists_cons_of_ne_nil hne
      cases rest with
      | nil =>
        rw [List.nil_append] at hrest
        obtain ⟨s, spaces, rfl⟩ := List.exists_cons_of_ne_nil spaced
        obtain ⟨rfl, -⟩ := List.cons.inj hrest
        exact hblank (blank _ List.mem_cons_self)
      | cons d rest =>
        obtain ⟨rfl, -⟩ := List.cons.inj hrest
        have htail : (u ++ 'B' :: rest).map Outbox.foldChar = "earer".toList :=
          (List.cons.inj (bearer.trans (show "bearer".toList = 'b' :: "earer".toList from rfl))).2
        have hmem : 'b' ∈ (u ++ 'B' :: rest).map Outbox.foldChar :=
          List.mem_map.mpr ⟨'B', by simp, by decide⟩
        rw [htail] at hmem
        exact absurd hmem (by decide)
    · have hends : ∀ credential', credential' ≠ [] → (∀ d ∈ credential', isCredentialChar d = true) →
          ¬ word ++ (spaces ++ credential') <+: word ++ more ++ c :: tail := fun _ hne hchars =>
        bearer_unmatched hnone (.intro bearer blank spaced hchars hne)
      have hmore : more ≠ spaces := by
        rintro rfl
        exact hends [c] (List.cons_ne_nil c []) (List.forall_mem_singleton.mpr hchar) ⟨tail, by simp⟩
      rcases List.append_eq_append_iff.mp hrest with ⟨front, hfront, hbehind⟩ | ⟨rest, hfront, hbehind⟩
      · cases front with
        | nil => exact hmore (by rw [hfront, List.append_nil])
        | cons d front =>
          refine hends (d :: front) (List.cons_ne_nil d front) (fun e he => ?_) ⟨c :: tail, by simp [hfront]⟩
          exact credentials e (hbehind ▸ List.mem_append_left _ he)
      · cases rest with
        | nil => exact hmore (by rw [hfront, List.append_nil])
        | cons d rest =>
          obtain ⟨rfl, -⟩ := List.cons.inj hbehind
          exact hblank (blank _ (by simp [hfront]))

/-- No phrase begins within a mark. -/
theorem bearer_mark {mark v : List Char} (hmark : ∀ c ∈ mark, Outbox.foldChar c ≠ 'b') (hv : v <:+ mark)
    (hne : v ≠ []) (r : List Char) : bearerMatcher (v ++ r) = none := by
  refine bearer_none fun piece hphrase hopens => ?_
  obtain ⟨c, v, rfl⟩ := List.exists_cons_of_ne_nil hne
  obtain ⟨d, piece, rfl⟩ := List.exists_cons_of_ne_nil (phrase_ne_nil hphrase)
  obtain ⟨rfl, -⟩ := List.cons_prefix_cons.mp hopens
  exact hmark d (hv.subset List.mem_cons_self) ((phrase_chars hphrase).1 d rfl)

theorem bearer_marked (r : List Char) : bearerMatcher (BEARER_REDACTED.toList ++ r) = none := by
  have hword : Outbox.matchWord "bearer".toList (BEARER_REDACTED.toList ++ r) =
      some (" [REDACTED]".toList ++ r) := rfl
  have hdrop : (" [REDACTED]".toList ++ r).dropWhile Text.isSpace = "[REDACTED]".toList ++ r := rfl
  unfold bearerMatcher
  rw [hword, Option.bind_some]
  dsimp only
  rw [hdrop, if_pos (.inr rfl)]

/-- Where the phrases are replaced, none is left. -/
theorem bearer_clean (cs : List Char) : ∀ l, l <:+ substitute bearerMatcher BEARER_REDACTED.toList cs →
    l ≠ [] → bearerMatcher l = none := by
  refine unmatched_substitute (fun _ _ _ hnone => hnone) (fun v r hv hne => ?_)
    fun u l r hne hnone hfound => bearer_cross (fun q => phrase_split hne hnone hfound) hnone
  rcases List.suffix_cons_iff.mp
    (show v <:+ 'B' :: "earer [REDACTED]".toList from hv) with rfl | hwithin
  · exact bearer_marked r
  · exact bearer_mark (by decide) hwithin hne r

/-- The redaction of the second secret has no phrase to replace. -/
theorem bearer_once {secret : List Char} (cs : List Char) :
    substitute bearerMatcher BEARER_REDACTED.toList (substitute (wordMatcher secret) REDACTED.toList
      (substitute bearerMatcher BEARER_REDACTED.toList cs)) =
    substitute (wordMatcher secret) REDACTED.toList
      (substitute bearerMatcher BEARER_REDACTED.toList cs) := by
  refine substitute_unmatched (unmatched_substitute (fun l hl hne _ => bearer_clean cs l hl hne)
    (fun v r hv hne => bearer_mark (by decide) hv hne r) fun u l r _ hnone _ => ?_)
  show bearerMatcher (u ++ ('[' :: "REDACTED]".toList ++ r)) = none
  exact bearer_cross (fun q hphrase => (phrase_chars hphrase).2 (by simp)) hnone

end Bearer

/-! ### Redacted texts -/

theorem wordMatcher_some {w cs : List Char} {n : Nat} (h : wordMatcher w cs = some n) :
    n = w.length ∧ cs.take n = w := by
  rw [wordMatcher] at h
  split at h
  · rename_i hopens
    cases h
    exact ⟨rfl, (List.prefix_iff_eq_take.mp hopens).symm⟩
  · cases h

def glyphMatcher (matcher : Matcher Char) : Matcher (Char × Bool) := fun l => matcher (l.map Prod.fst)

def redactWord (secret : String) (gs : List (Char × Bool)) : List (Char × Bool) :=
  substitute (glyphMatcher (wordMatcher secret.toList)) (tag true REDACTED.toList) gs

def redactBearer (gs : List (Char × Bool)) : List (Char × Bool) :=
  substitute (glyphMatcher bearerMatcher) (tag true BEARER_REDACTED.toList) gs

/-- Both redactions, without the last substitution. -/
def redactGlyphs (settings : StackSettings) (text : String) : List (Char × Bool) :=
  redactWord settings.hermesSessionToken (redactBearer (redactWord settings.apiKey (tag false text.toList)))

section Texts
variable {settings : StackSettings} (given : settings.Given) (text : String)
include given

theorem redactGlyphs_fst : (redactGlyphs settings text).map Prod.fst =
    (redactText settings.hermesSessionToken (redactText settings.apiKey text)).toList := by
  have hpass : ∀ (matcher : Matcher Char) (mark : String) (gs : List (Char × Bool)),
      (substitute (glyphMatcher matcher) (tag true mark.toList) gs).map Prod.fst =
        substitute matcher mark.toList (gs.map Prod.fst) := by
    intro matcher mark gs
    conv_rhs => rw [← tag_fst true mark.toList]
    exact map_substitute gs
  simp only [redactGlyphs, redactWord, redactBearer, hpass, tag_fst, redactText, if_neg given.apiKey,
    if_neg given.token, String.toList_ofList, bearer_once]

/-- No secret is left as the driver wrote it. -/
theorem redactGlyphs_marred {secret : String}
    (h : secret = settings.apiKey ∨ secret = settings.hermesSessionToken) :
    Marred Prod.fst Prod.snd secret.toList (redactGlyphs settings text) := by
  have hmark : tag true REDACTED.toList ≠ [] := by decide
  have hbearer : tag true BEARER_REDACTED.toList ≠ [] := by decide
  rcases h with rfl | rfl
  · have hword := marred_word (f := Prod.fst) hmark mem_tag (toList_ne_nil given.apiKey)
      (tag false text.toList)
    exact (hword.substitute hbearer mem_tag).substitute hmark mem_tag
  · exact marred_word (f := Prod.fst) hmark mem_tag (toList_ne_nil given.token) _

/-- What the redactions write are marks, in the place of pieces of the driver's text. -/
theorem redactGlyphs_marks (misses : Misses settings text) :
    Marks (Replaced settings) text.toList (redactGlyphs settings text) := by
  have hkey : Marks (fun piece mark => piece = settings.apiKey.toList ∧ mark = REDACTED.toList)
      text.toList (redactWord settings.apiKey (tag false text.toList)) := by
    refine (marks_tag text.toList).substitute (by decide) fun l hl n hn => ?_
    obtain ⟨rfl, htake⟩ := wordMatcher_some hn
    refine ⟨List.length_pos_iff.mpr (toList_ne_nil given.apiKey), fun g hg => ?_, ?_, rfl⟩
    · exact mem_tag g (hl.subset (List.mem_of_mem_take hg))
    · rw [List.map_take, htake]
  have hbearer : Marks (Replaced settings) text.toList
      (redactBearer (redactWord settings.apiKey (tag false text.toList))) := by
    have hmarks : Marks (Replaced settings) text.toList
        (redactWord settings.apiKey (tag false text.toList)) := by
      refine hkey.mono fun piece mark hpiece => ?_
      obtain ⟨rfl, rfl⟩ := hpiece
      exact .apiKey
    refine hmarks.substitute (by decide) fun l hl n hn => ?_
    have hphrase := bearerMatcher_phrase hn
    rw [← List.map_take] at hphrase
    refine ⟨bearerMatcher_positive _ _ hn, fresh_of_not_marred fun hmarred => ?_, .bearer hphrase⟩
    -- a phrase that a mark takes part in would begin within it or have its bracket
    obtain ⟨piece, mark, ⟨-, rfl⟩, hchars⟩ :=
      meets_chars (hkey.meets ((List.take_prefix n l).isInfix.trans hl.isInfix) hmarred)
    rcases hchars with ⟨c, hc, hmem⟩ | ⟨c, hc, hmem⟩
    · have hnone : ∀ c ∈ REDACTED.toList, Outbox.foldChar c ≠ 'b' := by decide
      exact hnone c hmem ((phrase_chars hphrase).1 c hc)
    · cases hmem
      exact (phrase_chars hphrase).2 hc
  refine hbearer.substitute (by decide) fun l hl n hn => ?_
  obtain ⟨rfl, htake⟩ := wordMatcher_some hn
  rw [← List.map_take] at htake
  refine ⟨List.length_pos_iff.mpr (toList_ne_nil given.token), fresh_of_not_marred fun hmarred => ?_, ?_⟩
  · have hmeets := hbearer.meets ((List.take_prefix _ l).isInfix.trans hl.isInfix) hmarred
    rw [htake] at hmeets
    exact misses.token hmeets
  · rw [htake]
    exact .token

/-- Secrets that meet no mark are not found in what is stored. -/
theorem redactText_misses (misses : Misses settings text) {secret : String}
    (h : secret = settings.apiKey ∨ secret = settings.hermesSessionToken) :
    ¬ secret.toList <:+: (redactText settings.hermesSessionToken (redactText settings.apiKey text)).toList := by
  rw [← redactGlyphs_fst given]
  intro hinfix
  obtain ⟨x, hx, hword⟩ := List.infix_map_iff.mp hinfix
  have hmeets := (redactGlyphs_marks given text misses).meets hx
    (redactGlyphs_marred given text h x hx hword.symm)
  rw [← hword] at hmeets
  rcases h with rfl | rfl
  · exact misses.apiKey hmeets
  · exact misses.token hmeets

/-- Secrets apart from the marks are not found at all. -/
theorem redactText_markFree (free : settings.MarkFree) {secret : String}
    (h : secret = settings.apiKey ∨ secret = settings.hermesSessionToken) :
    ¬ secret.toList <:+: (redactText settings.hermesSessionToken (redactText settings.apiKey text)).toList := by
  have hmark : REDACTED.toList ≠ [] := by decide
  have hkey := toList_ne_nil given.apiKey
  have htoken := toList_ne_nil given.token
  simp only [redactText, if_neg given.apiKey, if_neg given.token, String.toList_ofList]
  rcases h with rfl | rfl
  · have hgone : ¬ settings.apiKey.toList <:+:
        substitute (wordMatcher settings.apiKey.toList) REDACTED.toList text.toList :=
      absent_word free.apiKey hmark hkey
    have hbearer := absent_substitute free.apiKey_bearer bearerMatcher_positive hgone
    exact absent_substitute free.apiKey_bearer bearerMatcher_positive
      (absent_substitute free.apiKey (wordMatcher_positive htoken) hbearer)
  · exact absent_substitute free.token_bearer bearerMatcher_positive
      (absent_word free.token hmark htoken)

end Texts

end SibylMemory.ReleaseGates
