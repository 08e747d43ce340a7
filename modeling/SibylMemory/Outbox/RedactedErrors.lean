import Mathlib
import SibylMemory.Outbox.SecretSpellings
import SibylMemory.Outbox.Conservation
import SibylMemory.Outbox.Flush

/-!
# Secrets in stored errors (`outbox.py:28-46`, `225-231`, `957-1022`)

An error text with a secret between arbitrary texts. What the names of `_SECRET_KEYS` call secret
is hidden from `last_error` in every context only for names that the second pattern knows, and
only where no other match can end between the name and the secret.
-/

namespace SibylMemory.Outbox
open Text Scrub Squeeze

/-! ### What is stored -/

/-- `last_error` of an operation, queued or in the history. -/
def Store.lastError (s : Store) (operationId : String) : Option String :=
  match s.operations.find operationId with
  | some row => row.lastError
  | none => (s.history.find operationId).bind HistoryRow.lastError

/-- No attempt that ends with the error leaves the word in `last_error`. -/
def Conceals (error : String) (w : List Char) : Prop :=
  ∀ s op result now s', result.error = some error → result.action ≠ .superseded →
    applyResult op result now s = (.ok (), s') →
    ∀ stored, s'.lastError op.operationId = some stored → ¬ w <:+: stored.toList

theorem applyResult_lastError {s s' : Store} {op : ClaimedOperation} {result : AttemptResult}
    {now : Instant} (h : applyResult op result now s = (.ok (), s'))
    (ha : result.action ≠ .superseded) :
    s'.lastError op.operationId = redactError MAX_ERROR_LENGTH result.error := by
  have heffect : Effect Host.plain s (.applyResult op result now) .done s' := applyResult_effect h
  cases heffect with
  | skip hskip => exact absurd hskip ha
  | archive _ hheld _ hinsert =>
    have hid := KeyedTable.find_key hheld
    unfold Store.lastError
    simp only [KeyedTable.find_delete, if_true, KeyedTable.find_insert hinsert]
    rw [if_pos (show op.operationId = (OperationRow.archived _ _ _ _ _ _).operationId from hid.symm)]
    rfl
  | settle _ _ _ hops =>
    unfold Store.lastError
    simp only [hops, if_true]
    rfl

def claimedStore : Store :=
  (World.run Host.plain [.enqueue sampleOperation 0,
    .claimPage sampleConfig (samplePage "w" "t" 0)]).store

theorem conceals_iff {error : String} {w : List Char} : Conceals error w ↔
    ∀ stored, redactError MAX_ERROR_LENGTH (some error) = some stored → ¬ w <:+: stored.toList := by
  constructor
  · intro h stored hstored
    let op := sampleClaim sampleOperation "w" "t" 0
    let result : AttemptResult := { action := .deadLetter, error := some error }
    have hheld : claimedStore.holds op = true := by decide
    obtain ⟨s', hs'⟩ := applyResult_total (run_sound Host.plain _).disjoint hheld result 0
    have hlast := applyResult_lastError hs' (by simp [result])
    exact h claimedStore op result 0 s' rfl (by simp [result]) hs' stored (hlast.trans hstored)
  · intro h s op result now s' herror ha happly stored hstored
    rw [applyResult_lastError happly ha, herror] at hstored
    exact h stored hstored

/-! ### Error texts -/

/-- `[:=]` with white space around it. -/
def IsSeparator (sep : List Char) : Prop :=
  ∃ sp₁ sign sp₂, AllSpace sp₁ ∧ IsSign sign ∧ AllSpace sp₂ ∧ sep = sp₁ ++ sign :: sp₂

/-- A single token, a token behind a scheme, a quoted string. -/
inductive ValueKind where
  | token
  | pair (scheme : List Char)
  | quoted (quote : Char)

namespace ValueKind

def opening : ValueKind → List Char
  | token => []
  | pair scheme => scheme ++ [' ']
  | quoted quote => [quote]

def closing : ValueKind → List Char
  | quoted quote => [quote]
  | _ => []

def IsScheme (scheme : List Char) : Prop :=
  scheme ≠ [] ∧ ∀ c ∈ scheme, c.isAlphanum = true ∨ c = '-'

/-- Schemes stand behind the authorization names. -/
def Fits (name : List Char) : ValueKind → Prop
  | token => True
  | pair scheme =>
    (Spells name "authorization" ∨ Spells name "proxy_authorization") ∧ IsScheme scheme
  | quoted quote => IsQuote quote

def Content (content : List Char) : ValueKind → Prop
  | quoted quote => quote ∉ content
  | _ => IsWord content

/-- The secret words. -/
def secrets (content : List Char) : ValueKind → List (List Char)
  | quoted _ => words content
  | _ => [content]

end ValueKind

/-- Whatever stands around it, a value of the kind behind the name is hidden, as long as its words
are found nowhere else. -/
def Covered (name sep : List Char) (kind : ValueKind) : Prop :=
  ∀ p s content, kind.Content content →
    (∀ w ∈ kind.secrets content,
      Foreign w (p ++ name ++ sep ++ kind.opening) (kind.closing ++ s)) →
    ∀ w ∈ kind.secrets content, Conceals
      (String.ofList (p ++ name ++ sep ++ kind.opening ++ (content ++ (kind.closing ++ s)))) w

/-- The keys whose spellings the second pattern knows. -/
def COVERED_KEYS : List String :=
  ["access_token", "api_key", "authorization", "password", "proxy_authorization", "secret"]

/-- The second pattern knows the name, and no other match can end between the name it knows and
the secret; for `bearer` the other way round, a match in front of it cannot take it away. -/
def SafeShape (name sep : List Char) : ValueKind → Prop
  | .token => (∃ key ∈ COVERED_KEYS, Spells name key) ∧
      (Plain name ∧ Plain sep ∨ Spells name "proxy_authorization" ∧ ¬ Plain name)
  | .pair scheme => BEARER <:+ scheme.map foldChar ∧ ¬(Plain name ∧ Plain sep)
  | .quoted _ => False

theorem covered_subset : ∀ key ∈ COVERED_KEYS, key ∈ SECRET_KEYS := by decide

/-! ### Safe shapes -/

theorem conceals_of_absent {l w : List Char}
    (h : ∀ ps qs, Scan matchBearer (squeeze .start l) ps →
      Scan matchAssignment (render marker ps) qs → ¬ w <:+: render marker qs) :
    Conceals (String.ofList l) w := by
  rw [conceals_iff]
  intro stored hstored hin
  obtain ⟨ps, qs, hps, hqs, hredact⟩ := redactError_scans MAX_ERROR_LENGTH (String.ofList l)
  rw [String.toList_ofList] at hps
  rw [hredact] at hstored
  cases hstored
  rw [String.toList_ofList] at hin
  exact h ps qs hps hqs (hin.trans (List.take_prefix _ _).isInfix)

section Safe
variable {name sp₁ sp₂ p s content : List Char} {sign : Char}

theorem IsWord.plain (h : IsWord content) : Plain content := fun c hc => isSpace_tokenChar (h.2 c hc).1

theorem IsWord.head (h : IsWord content) {rest : List Char} :
    ∀ c ∈ (content ++ rest).head?, isSpace c = false := by
  intro c hc
  cases content with
  | nil => exact absurd rfl h.1
  | cons d content =>
    cases hc
    exact h.plain _ List.mem_cons_self

theorem squeeze_word (h : IsWord content) {before : List Char} :
    squeeze .start (before ++ (content ++ s)) = front before ++ (content ++ squeeze .word s) := by
  rw [squeeze_front (by simp [h.1]) h.head, squeeze_append, squeeze_solid h.plain,
    place_solid h.plain h.1]

theorem blank_of_plain {sp : List Char} (h : AllSpace sp) (hp : Plain sp) : blank sp = [] := by
  cases sp with
  | nil => rfl
  | cons c sp =>
    have hc := hp c List.mem_cons_self
    rw [h c List.mem_cons_self] at hc
    cases hc

theorem plain_name_split {key : String} (hkey : key ∈ COVERED_KEYS) (hname : Spells name key)
    (hplain : Plain name) : ∃ pre N, name = pre ++ N ∧ N.map foldChar ∈ forms ∧
      ∀ c ∈ N, isTokenChar c = true := by
  have hall : ∀ k ∈ COVERED_KEYS, ∀ f ∈ expand k.toList, Plain f → ∃ g ∈ forms, g <:+ f := by decide
  have htoken : ∀ f ∈ forms, ∀ c ∈ f, isSpace c = true ∨ isTokenChar c = true := by decide
  obtain ⟨g, hg, x, hx⟩ := hall key hkey _ (hname.fold (covered_subset key hkey))
    (plain_fold.mpr hplain)
  obtain ⟨pre, N, rfl, -, rfl⟩ := List.map_eq_append_iff.mp hx.symm
  refine ⟨pre, N, rfl, hg, fun c hc => ?_⟩
  rw [← isTokenChar_fold]
  refine (htoken _ hg _ (List.mem_map_of_mem hc)).resolve_left ?_
  rw [isSpace_fold, hplain c (List.mem_append_right _ hc)]
  decide

/-- The two words of a name of `authorization` with a blank. -/
theorem proxy_split (hname : Spells name "proxy_authorization") (hplain : ¬ Plain name) :
    ∃ na d nb, name = na ++ d :: ' ' :: nb ∧ foldChar d = 'y' ∧ isSpace d = false ∧
      nb.map foldChar = "authorization".toList := by
  have hkey : "proxy_authorization" ∈ SECRET_KEYS := by decide
  have hall : ∀ f ∈ expand "proxy_authorization".toList, Plain f ∨
      f = "prox".toList ++ 'y' :: ' ' :: "authorization".toList := by decide
  rcases hall _ (hname.fold hkey) with hf | hf
  · exact absurd (plain_fold.mp hf) hplain
  · obtain ⟨na, tail, rfl, -, htail⟩ := List.map_eq_append_iff.mp hf
    obtain ⟨d, tail, rfl, hd, htail⟩ := List.map_eq_cons_iff.mp htail
    obtain ⟨c, nb, rfl, hc, hnb⟩ := List.map_eq_cons_iff.mp htail
    rw [(fold_eq_iff isInert_space).mp hc]
    refine ⟨na, d, nb, rfl, hd, ?_, hnb⟩
    rw [← isSpace_fold, hd]
    decide

theorem token_covered (h₁ : AllSpace sp₁) (hsign : IsSign sign) (h₂ : AllSpace sp₂)
    (h : SafeShape name (sp₁ ++ sign :: sp₂) .token) :
    Covered name (sp₁ ++ sign :: sp₂) .token := by
  intro p s content hcontent hforeign w hw
  obtain rfl : w = content := List.mem_singleton.mp hw
  have hword : IsWord w := hcontent
  have hshape : NameShape name := by
    obtain ⟨⟨key, hkey, hspells⟩, -⟩ := h
    exact hspells.shape (covered_subset key hkey)
  have hf := (hforeign w hw).squeeze hword.plain
  have hopening : p ++ name ++ (sp₁ ++ sign :: sp₂) ++ ValueKind.token.opening =
      p ++ name ++ (sp₁ ++ sign :: sp₂) := List.append_nil _
  have hclosing : ValueKind.token.closing ++ s = s := rfl
  rw [hopening, hclosing, front_assignment hshape h₁ hsign h₂] at hf
  rw [hopening, hclosing]
  refine conceals_of_absent fun ps qs hps hqs => ?_
  rw [squeeze_word hword, front_assignment hshape h₁ hsign h₂] at hps
  obtain ⟨⟨key, hkey, hspells⟩, hguard⟩ := h
  rcases hguard with ⟨hplain, hsep⟩ | ⟨hproxy, hblank⟩
  · obtain ⟨pre, N, rfl, hN, htoken⟩ := plain_name_split hkey hspells hplain
    have hblanks : blank sp₁ = [] ∧ blank sp₂ = [] :=
      ⟨blank_of_plain h₁ fun c hc => hsep c (by simp [hc]),
        blank_of_plain h₂ fun c hc => hsep c (by simp [hc])⟩
    have hguard : Guarded (front p ++ pre) N (blank sp₁ ++ sign :: blank sp₂) := by
      left
      intro c hc
      rw [hblanks.1, hblanks.2] at hc
      rcases List.mem_append.mp hc with hc | hc
      · exact htoken c hc
      · rw [List.mem_singleton.mp hc]
        rcases hsign with rfl | rfl <;> decide
    refine token_hidden (S := squeeze .word s) hN (blank_space _) hsign (blank_space _) hword ?_
      hguard ?_ hqs
    · simpa using hf
    · simpa using hps
  · obtain ⟨na, d, nb, rfl, hd, hspace, hnb⟩ := proxy_split hproxy hblank
    have hguard : Guarded (front p ++ na ++ [d, ' ']) nb (blank sp₁ ++ sign :: blank sp₂) := by
      refine .inr ⟨front p ++ na, d, rfl, hspace, ?_, by rw [hd]; decide⟩
      rintro (rfl | rfl) <;> exact absurd hd (by decide)
    refine token_hidden (S := squeeze .word s) (by rw [hnb]; decide) (blank_space _) hsign
      (blank_space _) hword ?_ hguard ?_ hqs
    · simpa using hf
    · simpa using hps

theorem scheme_chars {c : Char} (h : c.isAlphanum = true ∨ c = '-') : isInert c = true ∧
    isTokenChar c = true := by
  rcases h with h | rfl
  · have hrange : (48 ≤ c.toNat ∧ c.toNat ≤ 57) ∨ (65 ≤ c.toNat ∧ c.toNat ≤ 90) ∨
        (97 ≤ c.toNat ∧ c.toNat ≤ 122) := by
      simp only [Char.isAlphanum, Char.isAlpha, Char.isUpper, Char.isLower, Char.isDigit,
        Bool.or_eq_true, Bool.and_eq_true, decide_eq_true_eq, ge_iff_le, UInt32.le_iff_toNat_le] at h
      have hval : c.val.toNat = c.toNat := rfl
      have hA : 'A'.val.toNat = 65 ∧ 'Z'.val.toNat = 90 := ⟨rfl, rfl⟩
      have ha : 'a'.val.toNat = 97 ∧ 'z'.val.toNat = 122 := ⟨rfl, rfl⟩
      have h0 : '0'.val.toNat = 48 ∧ '9'.val.toNat = 57 := ⟨rfl, rfl⟩
      rw [hval, hA.1, hA.2, ha.1, ha.2, h0.1, h0.2] at h
      omega
    have hspace : isSpace c = false := by
      unfold isSpace
      simp only [decide_eq_false_iff_not]
      omega
    have hne : ∀ d : Char, d.toNat < 48 ∨ d.toNat = 58 ∨ d.toNat = 59 ∨ d.toNat = 61 ∨
        122 < d.toNat → c ≠ d := by
      rintro d hd rfl
      omega
    have h1 := hne ',' (by decide)
    have h2 := hne ';' (by decide)
    have h3 := hne '\'' (by decide)
    have h4 := hne '"' (by decide)
    have h5 := hne ':' (by decide)
    have h6 := hne '=' (by decide)
    have h7 := hne '~' (by decide)
    exact ⟨by simp [isInert, hspace, h1, h2, h3, h4, h5, h6, h7], by simp [isTokenChar, hspace, h1, h2]⟩
  · decide

theorem authorization_last (h : Spells name "authorization" ∨ Spells name "proxy_authorization") :
    ∃ nm d, name = nm ++ [d] ∧ foldChar d = 'n' := by
  have hall : ∀ f ∈ expand "authorization".toList ++ expand "proxy_authorization".toList,
      ['n'] <:+ f := by decide
  obtain ⟨x, hx⟩ := hall _ (authorization_fold h)
  obtain ⟨nm, tail, rfl, -, htail⟩ := List.map_eq_append_iff.mp hx.symm
  obtain ⟨d, rest, rfl, hd, hrest⟩ := List.map_eq_cons_iff.mp htail
  rw [List.map_eq_nil_iff.mp hrest]
  exact ⟨nm, d, rfl, hd⟩

theorem front_pair {scheme : List Char} (hname : NameShape name) (h₁ : AllSpace sp₁)
    (hsign : IsSign sign) (h₂ : AllSpace sp₂) (hscheme : ValueKind.IsScheme scheme) :
    front (p ++ name ++ (sp₁ ++ sign :: sp₂) ++ (ValueKind.pair scheme).opening) =
      front p ++ (name ++ (blank sp₁ ++ sign :: blank sp₂)) ++ scheme ++ [' '] := by
  have hplain : Plain scheme := fun c hc => isSpace_tokenChar (scheme_chars (hscheme.2 c hc)).2
  obtain ⟨hfs, hplace⟩ := front_plain (a := p ++ name ++ (sp₁ ++ sign :: sp₂)) hplain hscheme.1
  have hblank : AllSpace [' '] := fun c hc => by rw [List.mem_singleton.mp hc]; decide
  have hassoc : p ++ name ++ (sp₁ ++ sign :: sp₂) ++ (ValueKind.pair scheme).opening =
      p ++ name ++ (sp₁ ++ sign :: sp₂) ++ scheme ++ [' '] := (List.append_assoc _ _ _).symm
  rw [hassoc, front_space hplace hblank, hfs, front_assignment hname h₁ hsign h₂]
  rfl

theorem pair_covered {scheme : List Char} (h₁ : AllSpace sp₁) (hsign : IsSign sign)
    (h₂ : AllSpace sp₂) (hfits : (ValueKind.pair scheme).Fits name)
    (h : SafeShape name (sp₁ ++ sign :: sp₂) (.pair scheme)) :
    Covered name (sp₁ ++ sign :: sp₂) (.pair scheme) := by
  intro p s content hcontent hforeign w hw
  obtain rfl : w = content := List.mem_singleton.mp hw
  obtain ⟨hspells, hne, hscheme⟩ := hfits
  obtain ⟨⟨x, hx⟩, hspace⟩ := h
  have hword : IsWord w := hcontent
  have hshape : NameShape name := by
    rcases hspells with hs | hs
    · exact hs.shape (by decide)
    · exact hs.shape (by decide)
  have hschemeplain : Plain scheme := fun c hc => isSpace_tokenChar (scheme_chars (hscheme c hc)).2
  have hfront := front_pair (p := p) hshape h₁ hsign h₂ ⟨hne, hscheme⟩
  have hclosing : (ValueKind.pair scheme).closing ++ s = s := rfl
  have hf := (hforeign w hw).squeeze hword.plain
  rw [hfront, hclosing] at hf
  rw [hclosing]
  obtain ⟨sch, bea, rfl, -, hbea⟩ := List.map_eq_append_iff.mp hx.symm
  have hsch : ∀ c ∈ sch, isSpace c = false := fun c hc => hschemeplain c (List.mem_append_left _ hc)
  have hsignplain := sign_not_space hsign
  -- the last blank in front of the scheme stands behind a character that does not end `bearer`
  have hlast : ∃ Q d R, front p ++ (name ++ (blank sp₁ ++ sign :: blank sp₂)) ++ sch =
      Q ++ d :: ' ' :: R ∧ isSpace d = false ∧ foldChar d ≠ 'r' ∧ ∀ c ∈ R, isSpace c = false := by
    by_cases hsp₂ : sp₂ = []
    · by_cases hsp₁ : sp₁ = []
      · subst hsp₁
        subst hsp₂
        have hname : ¬ Plain name := fun hplain => hspace ⟨hplain, fun c hc => by
          rw [List.mem_singleton.mp hc]
          exact hsignplain⟩
        have hproxy : Spells name "proxy_authorization" := by
          refine hspells.resolve_left fun hs => hname ?_
          have hall : ∀ f ∈ expand "authorization".toList, Plain f := by decide
          exact plain_fold.mp (hall _ (hs.fold (by decide)))
        obtain ⟨na, d, nb, rfl, hd, hdspace, hnb⟩ := proxy_split hproxy hname
        have hnbplain : Plain nb := by
          rw [← plain_fold, hnb]
          decide
        refine ⟨front p ++ na, d, nb ++ sign :: sch, by simp [blank], hdspace, by rw [hd]; decide, ?_⟩
        intro c hc
        rcases List.mem_append.mp hc with hc | hc
        · exact hnbplain c hc
        · rcases List.mem_cons.mp hc with rfl | hc
          · exact hsignplain
          · exact hsch c hc
      · obtain ⟨nm, d, rfl, hd⟩ := authorization_last hspells
        refine ⟨front p ++ nm, d, sign :: sch, by simp [blank, hsp₁, hsp₂], ?_, by rw [hd]; decide, ?_⟩
        · rw [← isSpace_fold, hd]
          decide
        · intro c hc
          rcases List.mem_cons.mp hc with rfl | hc
          · exact hsignplain
          · exact hsch c hc
    · refine ⟨front p ++ (name ++ blank sp₁), sign, sch, by simp [blank, hsp₂], hsignplain, ?_, hsch⟩
      rcases hsign with rfl | rfl <;> decide
  obtain ⟨Q, d, R, hA, hd, hfold, hR⟩ := hlast
  refine conceals_of_absent fun ps qs hps hqs => ?_
  rw [squeeze_word hword, hfront] at hps
  refine absent_render hf.apart ?_
  rw [hqs.text_eq]
  refine pair_hidden (S := squeeze .word s) (A := front p ++ (name ++ (blank sp₁ ++ sign :: blank sp₂)) ++ sch)
    hbea hword ?_ hA hd hfold hR ?_
  · simpa using hf
  · simpa using hps

end Safe

end SibylMemory.Outbox
