import SibylMemory.Outbox.RedactedErrors

/-!
# Exposed secrets

For each shape that is not safe a context that leaves one specimen in the stored text: no context
at all where the second pattern does not know the name or the scheme is kept, `bearer` in front
where white space can end a match, an open quotation in front of a quoted string.
-/

namespace SibylMemory.Outbox
open Text Scrub Squeeze

/-! ### Contexts that expose a secret -/

theorem apart_singleton {c : Char} (hc : c ∉ marker) : Apart marker [c] := by
  intro a b h
  simp only [List.singleton_infix_iff, List.mem_append] at h ⊢
  rcases h with (h | h) | h
  · exact .inl h
  · exact absurd h hc
  · exact .inr h

theorem bearer_silent {l : List Char} (h : ¬ BEARER <:+: l.map foldChar) :
    ∀ u, u <:+ l → matchBearer u = none := by
  intro u hu
  cases hmatch : matchBearer u with
  | none => rfl
  | some found =>
    obtain ⟨value, after⟩ := found
    obtain ⟨m, sp, t, rfl, -, hm, -⟩ := bearer_iff.mp hmatch
    refine absurd ?_ h
    have hpre : m <:+: l := (List.prefix_append m (sp ++ t ++ after)).isInfix.trans
      (by simpa using hu.isInfix)
    rw [← hm]
    exact hpre.map foldChar

theorem assignment_silent {l : List Char} (h : ∀ f ∈ forms, ¬ f <:+: l.map foldChar) :
    ∀ u, u <:+ l → matchAssignment u = none := by
  intro u hu
  cases hmatch : matchAssignment u with
  | none => rfl
  | some found =>
    obtain ⟨value, after⟩ := found
    obtain ⟨m, sp₁, sign, sp₂, v, rfl, -, hm, -⟩ := assignment_some hmatch
    refine absurd ?_ (h _ hm)
    have hpre : m <:+: l := (List.prefix_append m (sp₁ ++ sign :: sp₂ ++ v ++ after)).isInfix.trans
      (by simpa using hu.isInfix)
    exact hpre.map foldChar

/-- A secret word that is one character which neither the marker nor a name has. -/
def SPECIMEN : List Char := ['~']

/-- A text that is short enough keeps the specimen when both patterns have been replaced. -/
theorem leaks {l T F : List Char}
    (hT : ∀ ps, Scan matchBearer (squeeze .start l) ps → render marker ps = T)
    (hF : ∀ qs, Scan matchAssignment T qs → render marker qs = F)
    (hkept : '~' ∈ F) (hshort : F.length ≤ MAX_ERROR_LENGTH) : ¬ Conceals (String.ofList l) SPECIMEN := by
  intro h
  obtain ⟨ps, qs, hps, hqs, hredact⟩ := redactError_scans MAX_ERROR_LENGTH (String.ofList l)
  rw [String.toList_ofList] at hps
  rw [hT ps hps] at hqs
  refine conceals_iff.mp h _ hredact ?_
  rw [String.toList_ofList, hF qs hqs, List.take_of_length_le hshort]
  exact (List.singleton_infix_iff _ _).mpr hkept

theorem short_of {F : List Char} {n : Nat} (h : F.length ≤ n) (hn : n ≤ 2000) :
    F.length ≤ MAX_ERROR_LENGTH := le_trans h hn

section Exposed
variable {name sp₁ sp₂ scheme : List Char} {sign : Char} {key : String}

theorem specimen_word : IsWord SPECIMEN := by
  refine ⟨by decide, fun c hc => ?_⟩
  rw [List.mem_singleton.mp hc]
  exact ⟨by decide, by unfold IsQuote; decide⟩

theorem specimen_foreign {before after : List Char} (hb : '~' ∉ before) (ha : '~' ∉ after) :
    Foreign SPECIMEN before after :=
  ⟨apart_singleton (by decide), fun h => hb ((List.singleton_infix_iff _ _).mp h),
    fun h => ha ((List.singleton_infix_iff _ _).mp h)⟩

theorem specimen_notMem_name (hkey : key ∈ SECRET_KEYS) (h : Spells name key) : '~' ∉ name := by
  have hall : ∀ k ∈ SECRET_KEYS, ∀ f ∈ expand k.toList, '~' ∉ f := by decide
  intro hmem
  have hfold : foldChar '~' ∈ name.map foldChar := List.mem_map_of_mem hmem
  exact hall key hkey _ (h.fold hkey) hfold

theorem specimen_notMem_sep (h₁ : AllSpace sp₁) (hsign : IsSign sign) (h₂ : AllSpace sp₂) :
    '~' ∉ sp₁ ++ sign :: sp₂ := by
  intro hmem
  rcases List.mem_append.mp hmem with hmem | hmem
  · exact absurd (h₁ _ hmem) (by decide)
  · rcases List.mem_cons.mp hmem with he | hmem
    · rcases hsign with h | h <;> rw [h] at he <;> exact absurd he (by decide)
    · exact absurd (h₂ _ hmem) (by decide)

/-- A context without the specimen that leaves it in the stored text. -/
theorem not_covered {kind : ValueKind} {sep p s : List Char} (hcontent : kind.Content SPECIMEN)
    (hsecrets : kind.secrets SPECIMEN = [SPECIMEN]) (hbefore : '~' ∉ p ++ name ++ sep ++ kind.opening)
    (hafter : '~' ∉ kind.closing ++ s)
    (hleak : ¬ Conceals (String.ofList
      (p ++ name ++ sep ++ kind.opening ++ (SPECIMEN ++ (kind.closing ++ s)))) SPECIMEN) :
    ¬ Covered name sep kind := by
  intro h
  refine hleak (h p s SPECIMEN hcontent (fun w hw => ?_) SPECIMEN ?_)
  · rw [hsecrets] at hw
    rw [List.mem_singleton.mp hw]
    exact specimen_foreign hbefore hafter
  · rw [hsecrets]
    exact List.mem_singleton.mpr rfl

/-- White space around a sign once it is squeezed. -/
def signs : List (List Char) :=
  [":".toList, "=".toList, " :".toList, " =".toList, ": ".toList, "= ".toList, " : ".toList,
    " = ".toList]

theorem mem_signs (sp₁ sp₂ : List Char) (hsign : IsSign sign) :
    blank sp₁ ++ sign :: blank sp₂ ∈ signs := by
  unfold blank
  rcases hsign with rfl | rfl <;> split <;> split <;> decide

theorem signs_short : ∀ E ∈ signs, E.length ≤ 3 := by decide

theorem fold_signs : ∀ E ∈ signs, E.map foldChar = E := by decide

theorem unknown_exposed (hkey : key ∈ SECRET_KEYS) (hcovered : key ∉ COVERED_KEYS)
    (h : Spells name key) (h₁ : AllSpace sp₁) (hsign : IsSign sign) (h₂ : AllSpace sp₂) :
    ¬ Covered name (sp₁ ++ sign :: sp₂) .token := by
  have hall : ∀ k ∈ SECRET_KEYS, k ∈ COVERED_KEYS ∨ ∀ f ∈ expand k.toList, ∀ E ∈ signs,
      ¬ BEARER <:+: f ++ E ++ SPECIMEN ∧ (∀ g ∈ forms, ¬ g <:+: f ++ E ++ SPECIMEN) ∧
        (f ++ E ++ SPECIMEN).length ≤ 30 := by decide +kernel
  obtain ⟨hbearer, hforms, hlen⟩ := (hall key hkey).resolve_left hcovered _ (h.fold hkey) _
    (mem_signs sp₁ sp₂ hsign)
  generalize hE : blank sp₁ ++ sign :: blank sp₂ = E at *
  have hfold : (name ++ E ++ SPECIMEN).map foldChar = name.map foldChar ++ E ++ SPECIMEN := by
    rw [List.map_append, List.map_append, fold_signs E (hE ▸ mem_signs sp₁ sp₂ hsign)]
    rfl
  have hsqueeze : squeeze .start (name ++ (sp₁ ++ sign :: sp₂) ++ (SPECIMEN ++ [])) =
      name ++ E ++ SPECIMEN := by
    have hfront := front_assignment (p := []) (h.shape hkey) h₁ hsign h₂
    rw [List.nil_append] at hfront
    rw [squeeze_word specimen_word, hfront, hE]
    simp [front, squeeze, place, Place.lead]
  refine not_covered (p := []) (s := []) specimen_word rfl ?_ (by simp [ValueKind.closing]) ?_
  · have h1 := specimen_notMem_name hkey h
    have h2 := specimen_notMem_sep h₁ hsign h₂
    simpa [ValueKind.opening, h1] using h2
  · rw [← hfold] at hbearer hforms hlen
    refine leaks (T := name ++ E ++ SPECIMEN) (F := name ++ E ++ SPECIMEN) (fun ps hps => ?_)
      (fun qs hqs => hqs.silent (assignment_silent hforms)) ?_ ?_
    · have htext : [] ++ name ++ (sp₁ ++ sign :: sp₂) ++ ValueKind.token.opening ++
          (SPECIMEN ++ (ValueKind.token.closing ++ [])) =
            name ++ (sp₁ ++ sign :: sp₂) ++ (SPECIMEN ++ []) := by
        simp [ValueKind.opening, ValueKind.closing]
      rw [htext, hsqueeze] at hps
      exact hps.silent (bearer_silent hbearer)
    · exact List.mem_append_right _ (.head _)
    · rw [List.length_map] at hlen
      exact short_of hlen (by decide)

/-- What a match of `bearer` that ends at a blank can leave in front of the specimen. -/
def rests : List (List Char) :=
  [" ~".toList, " :~".toList, " =~".toList, " : ~".toList, " = ~".toList] ++
    signs.map (" key".toList ++ · ++ SPECIMEN) ++ signs.map (" token".toList ++ · ++ SPECIMEN)

theorem swallowed_leaks {l : List Char} (run rest : List Char)
    (hl : squeeze .start l = "bearer".toList ++ [' '] ++ run ++ rest) (hrun : Token run rest)
    (hrest : rest.map foldChar ∈ rests) : ¬ Conceals (String.ofList l) SPECIMEN := by
  have hall : ∀ r ∈ rests, ¬ BEARER <:+: r ∧
      (∀ g ∈ forms, ¬ g <:+: "bearer ".toList ++ marker.map foldChar ++ r) ∧
        r.length ≤ 30 ∧ '~' ∈ r := by decide +kernel
  obtain ⟨hbearer, hforms, hlen, hmem⟩ := hall _ hrest
  refine leaks (T := "bearer ".toList ++ marker ++ rest) (F := "bearer ".toList ++ marker ++ rest)
    (fun ps hps => ?_) (fun qs hqs => hqs.silent (assignment_silent fun g hg => ?_)) ?_ ?_
  · rw [hl] at hps
    have hfound : matchBearer ("bearer".toList ++ [' '] ++ run ++ rest) = some (run ++ rest, rest) :=
      bearer_iff.mpr ⟨"bearer".toList, [' '], run, rfl, rfl, by decide, by simp,
        fun c hc => by rw [List.mem_singleton.mp hc]; decide, hrun⟩
    obtain ⟨psB, rfl, hB⟩ := hps.found (by simp) hfound
    rw [render_append, render_keep, render_hide, hB.silent (bearer_silent hbearer), ← List.append_assoc]
    rfl
  · have hfold : ("bearer ".toList ++ marker ++ rest).map foldChar =
        "bearer ".toList ++ marker.map foldChar ++ rest.map foldChar := by
      rw [List.map_append, List.map_append]
      rfl
    rw [hfold]
    exact hforms g hg
  · obtain ⟨c, hc, hfc⟩ := List.mem_map.mp hmem
    rw [(fold_eq_iff (by decide)).mp hfc] at hc
    exact List.mem_append_right _ hc
  · rw [List.length_map] at hlen
    have hhead : ("bearer ".toList ++ marker).length = 17 := by decide
    refine short_of (n := 47) ?_ (by decide)
    rw [List.length_append, hhead]
    omega

theorem front_bearer : front "bearer ".toList = "bearer".toList ++ [' '] := by decide

theorem name_tokens (hkey : key ∈ SECRET_KEYS) (h : Spells name key) (hplain : Plain name) :
    ∀ c ∈ name, isTokenChar c = true := by
  have hall : ∀ k ∈ SECRET_KEYS, ∀ f ∈ expand k.toList, ∀ c ∈ f,
      isSpace c = true ∨ isTokenChar c = true := by decide
  intro c hc
  rw [← isTokenChar_fold]
  refine (hall key hkey _ (h.fold hkey) _ (List.mem_map_of_mem hc)).resolve_left ?_
  rw [isSpace_fold, hplain c hc]
  decide

theorem sign_token (hsign : IsSign sign) : isTokenChar sign = true := by
  rcases hsign with rfl | rfl <;> decide

theorem fold_sign (hsign : IsSign sign) : foldChar sign = sign := by
  rcases hsign with rfl | rfl <;> decide

theorem blank_cases (sp : List Char) : blank sp = [] ∧ sp = [] ∨ blank sp = [' '] := by
  unfold blank
  split
  · rename_i h
    exact .inl ⟨rfl, h⟩
  · exact .inr rfl

/-- A name that the second pattern knows, with white space behind which a match can end. -/
theorem known_exposed (hkey : key ∈ SECRET_KEYS) (h : Spells name key)
    (hcovered : key ∈ COVERED_KEYS) (h₁ : AllSpace sp₁) (hsign : IsSign sign) (h₂ : AllSpace sp₂)
    (hshape : ¬(Plain name ∧ Plain (sp₁ ++ sign :: sp₂) ∨
      Spells name "proxy_authorization" ∧ ¬ Plain name)) :
    ¬ Covered name (sp₁ ++ sign :: sp₂) .token := by
  rw [not_or] at hshape
  have hname := specimen_notMem_name hkey h
  have hsep := specimen_notMem_sep h₁ hsign h₂
  have hsqueeze : squeeze .start ("bearer ".toList ++ name ++ (sp₁ ++ sign :: sp₂) ++
      ValueKind.token.opening ++ (SPECIMEN ++ (ValueKind.token.closing ++ []))) =
        "bearer".toList ++ [' '] ++ (name ++ (blank sp₁ ++ sign :: blank sp₂) ++ SPECIMEN) := by
    have hopening : "bearer ".toList ++ name ++ (sp₁ ++ sign :: sp₂) ++ ValueKind.token.opening =
        "bearer ".toList ++ name ++ (sp₁ ++ sign :: sp₂) := List.append_nil _
    rw [hopening, squeeze_word specimen_word, front_assignment (h.shape hkey) h₁ hsign h₂,
      front_bearer]
    simp [ValueKind.closing, squeeze]
  refine not_covered (p := "bearer ".toList) (s := []) specimen_word rfl ?_ (by simp [ValueKind.closing]) ?_
  · have hb : '~' ∉ "bearer ".toList := by decide
    simp only [ValueKind.opening, List.append_nil, List.mem_append, not_or] at hsep ⊢
    exact ⟨⟨hb, hname⟩, hsep⟩
  by_cases hplain : Plain name
  · have htokens := name_tokens hkey h hplain
    rcases blank_cases sp₁ with ⟨hb₁, hsp₁⟩ | hb₁
    · rcases blank_cases sp₂ with ⟨-, hsp₂⟩ | hb₂
      · refine absurd ⟨hplain, fun c hc => ?_⟩ hshape.1
        rw [hsp₁, hsp₂] at hc
        rw [List.mem_singleton.mp hc]
        exact sign_not_space hsign
      · refine swallowed_leaks (name ++ [sign]) " ~".toList ?_ ?_ (by decide)
        · rw [hsqueeze, hb₁, hb₂]
          simp [SPECIMEN]
        · refine ⟨by simp, fun c hc => ?_, by decide⟩
          rcases List.mem_append.mp hc with hc | hc
          · exact htokens c hc
          · rw [List.mem_singleton.mp hc]
            exact sign_token hsign
    · refine swallowed_leaks name (' ' :: sign :: (blank sp₂ ++ SPECIMEN)) ?_ ?_ ?_
      · rw [hsqueeze, hb₁]
        simp
      · refine ⟨?_, htokens, fun c hc => ?_⟩
        · rintro rfl
          have hne : ∀ k ∈ SECRET_KEYS, [] ∉ expand k.toList := by decide
          exact hne key hkey (h.fold hkey)
        · cases hc
          decide
      · rw [List.map_cons, List.map_cons, fold_sign hsign]
        rcases blank_cases sp₂ with ⟨hb₂, -⟩ | hb₂ <;> rw [hb₂] <;> rcases hsign with rfl | rfl <;>
          decide
  · have hproxy : ¬ Spells name "proxy_authorization" := fun hp => hshape.2 ⟨hp, hplain⟩
    have hall : ∀ k ∈ COVERED_KEYS, k = "proxy_authorization" ∨ ∀ f ∈ expand k.toList, Plain f ∨
        f = "api".toList ++ ' ' :: "key".toList ∨ f = "access".toList ++ ' ' :: "token".toList := by
      decide
    have hfolds := (hall key hcovered).resolve_left (fun he => hproxy (he ▸ h)) _ (h.fold hkey)
    have hfold : ∃ a b, name.map foldChar = a ++ ' ' :: b ∧ a ≠ [] ∧
        (∀ c ∈ a, isTokenChar c = true) ∧ (b = "key".toList ∨ b = "token".toList) := by
      rcases hfolds with hf | hf | hf
      · exact absurd (plain_fold.mp hf) hplain
      · exact ⟨_, _, hf, by decide, by decide, .inl rfl⟩
      · exact ⟨_, _, hf, by decide, by decide, .inr rfl⟩
    obtain ⟨a, b, hab, hne, hatok, hb⟩ := hfold
    obtain ⟨na, nb, rfl, rfl, rfl⟩ := split_fold hab
    refine swallowed_leaks na
      (' ' :: nb ++ (blank sp₁ ++ sign :: blank sp₂) ++ SPECIMEN) ?_ ?_ ?_
    · rw [hsqueeze]
      simp
    · refine ⟨by simpa using hne, fun c hc => ?_, fun c hc => ?_⟩
      · rw [← isTokenChar_fold]
        exact hatok _ (List.mem_map_of_mem hc)
      · cases hc
        decide
    · have hE := mem_signs sp₁ sp₂ hsign
      rw [List.map_append, List.map_append, fold_signs _ hE, List.map_cons]
      have hmem : ∀ E ∈ signs, ' ' :: "key".toList ++ E ++ SPECIMEN ∈ rests ∧
          ' ' :: "token".toList ++ E ++ SPECIMEN ∈ rests := by decide
      rcases hb with hb | hb <;> rw [hb]
      · exact (hmem _ hE).1
      · exact (hmem _ hE).2

theorem squeeze_pair {p s content : List Char} (hname : NameShape name) (h₁ : AllSpace sp₁)
    (hsign : IsSign sign) (h₂ : AllSpace sp₂) (hscheme : ValueKind.IsScheme scheme)
    (hcontent : IsWord content) :
    squeeze .start (p ++ name ++ (sp₁ ++ sign :: sp₂) ++ (ValueKind.pair scheme).opening ++
      (content ++ ((ValueKind.pair scheme).closing ++ s))) =
        front p ++ (name ++ (blank sp₁ ++ sign :: blank sp₂)) ++ scheme ++ [' '] ++
          (content ++ squeeze .word s) := by
  rw [squeeze_word hcontent, front_pair hname h₁ hsign h₂ hscheme]
  rfl

theorem specimen_notMem_scheme (h : ValueKind.IsScheme scheme) : '~' ∉ scheme := by
  intro hmem
  exact absurd (scheme_chars (h.2 _ hmem)).1 (by decide)

theorem bearer_exposed (hkey : key ∈ SECRET_KEYS) (h : Spells name key)
    (hscheme : ValueKind.IsScheme scheme) (hname : Plain name) (hsign : IsSign sign) :
    ¬ Covered name ([] ++ sign :: []) (.pair scheme) := by
  have hempty : AllSpace [] := fun c hc => absurd hc List.not_mem_nil
  refine not_covered (p := "bearer ".toList) (s := []) specimen_word rfl ?_ (by simp [ValueKind.closing]) ?_
  · have h1 := specimen_notMem_name hkey h
    have h2 := specimen_notMem_sep hempty hsign hempty
    have h3 := specimen_notMem_scheme hscheme
    have h4 : '~' ∉ "bearer ".toList := by decide
    simp only [ValueKind.opening, List.mem_append, not_or] at h2 ⊢
    exact ⟨⟨⟨h4, h1⟩, h2⟩, h3, by decide⟩
  · have htokens := name_tokens hkey h hname
    refine swallowed_leaks (name ++ sign :: scheme) " ~".toList ?_ ?_ (by decide)
    · rw [squeeze_pair (h.shape hkey) hempty hsign hempty hscheme specimen_word, front_bearer]
      simp [blank, squeeze, SPECIMEN]
    · refine ⟨by simp, fun c hc => ?_, by decide⟩
      rcases List.mem_append.mp hc with hc | hc
      · exact htokens c hc
      · rcases List.mem_cons.mp hc with rfl | hc
        · exact sign_token hsign
        · exact (scheme_chars (hscheme.2 c hc)).2

/-- What an authorization name has in front of the part that the second pattern knows. -/
theorem authorization_split (h : Spells name "authorization" ∨ Spells name "proxy_authorization") :
    ∃ pre N, name = pre ++ N ∧ N.map foldChar = "authorization".toList ∧
      (∀ g ∈ forms, ¬ g <:+: pre.map foldChar) ∧ pre.length ≤ 6 := by
  have hall : ∀ f ∈ expand "authorization".toList ++ expand "proxy_authorization".toList,
      f = f.take (f.length - 13) ++ "authorization".toList ∧ f.length - 13 ≤ 6 ∧
        ∀ g ∈ forms, ¬ g <:+: f.take (f.length - 13) := by decide
  obtain ⟨hf, hlen, hforms⟩ := hall _ (authorization_fold h)
  obtain ⟨pre, N, rfl, hpre, hN⟩ := List.map_eq_append_iff.mp hf
  refine ⟨pre, N, rfl, hN, hpre ▸ hforms, ?_⟩
  have hlength := congrArg List.length hpre
  rw [List.length_map] at hlength
  rw [hlength]
  exact le_trans (List.length_take_le _ _) hlen

/-- `bearer` and white space are not found in an authorization name, a sign, another scheme and
the blank behind it. -/
theorem no_bearer_match {E : List Char}
    (hname : Spells name "authorization" ∨ Spells name "proxy_authorization")
    (hscheme : ValueKind.IsScheme scheme) (hbearer : ¬ BEARER <:+ scheme.map foldChar)
    (hE : ∀ c ∈ blank sp₁ ++ sign :: blank sp₂, isInert c = false)
    (hEq : E = blank sp₁ ++ sign :: blank sp₂) :
    ∀ u, u <:+ name ++ E ++ scheme ++ " ~".toList → matchBearer u = none := by
  intro u hu
  cases hmatch : matchBearer u with
  | none => rfl
  | some found =>
    obtain ⟨value, after⟩ := found
    obtain ⟨m, sp, t, rfl, -, hm, hsp, hspace, -⟩ := bearer_iff.mp hmatch
    obtain ⟨x, sp', rfl⟩ := List.exists_cons_of_ne_nil hsp
    have hx := hspace x List.mem_cons_self
    have hne : m ≠ [] := by
      rintro rfl
      cases hm
    have hschemeplain : ∀ c ∈ scheme, isSpace c = false := fun c hc =>
      isSpace_tokenChar (scheme_chars (hscheme.2 c hc)).2
    obtain ⟨a, ha⟩ := hu
    have hparts : (a ++ m) ++ x :: (sp' ++ t ++ after) = (name ++ E ++ scheme) ++ ' ' :: ['~'] := by
      simpa using ha
    have hnot : ¬ m ++ [x] <:+: name ++ E ++ scheme := by
      intro hin
      have hbefore := infix_before_word hschemeplain hx hin
      have hmname : m <:+: name := infix_before hne (bearer_inert hm) (hEq ▸ hE)
        ((List.prefix_append m [x]).isInfix.trans hbefore)
      have hall : ∀ f ∈ expand "authorization".toList ++ expand "proxy_authorization".toList,
          ¬ BEARER <:+: f := by decide
      exact hall (name.map foldChar) (authorization_fold hname) (hm ▸ hmname.map foldChar)
    -- the scheme would end in `bearer`, or a character around the sign be a letter of it
    have hends : a ++ m ≠ name ++ E ++ scheme := by
      intro h
      rcases List.append_eq_append_iff.mp h with ⟨v, hv, hms⟩ | ⟨v, -, hms⟩
      · rcases List.eq_nil_or_concat v with rfl | ⟨v', c, rfl⟩
        · refine hbearer ⟨[], ?_⟩
          rw [← hm, hms]
          rfl
        · obtain ⟨E', e, he⟩ := (List.eq_nil_or_concat E).resolve_left (by rw [hEq]; simp)
          have hlast : (name ++ E') ++ [e] = (a ++ v') ++ [c] := by
            rw [he] at hv
            simpa using hv
          have hec := (List.cons.inj (List.append_inj' hlast rfl).2).1
          have hinert := bearer_inert hm c (by rw [hms]; simp)
          rw [← hec, hE e (by rw [← hEq, he]; simp)] at hinert
          cases hinert
      · refine hbearer ?_
        rw [hms, List.map_append, hm]
        exact List.suffix_append _ _
    exfalso
    rcases List.append_eq_append_iff.mp hparts with ⟨w, hw, htail⟩ | ⟨w, hw, htail⟩
    · cases w with
      | nil => exact hends (by simpa using hw.symm)
      | cons c w =>
        obtain ⟨rfl, -⟩ := List.cons.inj htail
        exact hnot ⟨a, w, by rw [hw]; simp⟩
    · rcases List.eq_nil_or_concat w with rfl | ⟨w', c, rfl⟩
      · exact hends (by simpa using hw)
      · obtain ⟨m', e, rfl, -, -⟩ := bearer_last hm
        have hlast : (a ++ m') ++ [e] = (name ++ E ++ scheme ++ w') ++ [c] := by simpa using hw
        have hec := (List.cons.inj (List.append_inj' hlast rfl).2).1
        have hinert := bearer_inert hm e (by simp)
        have hlen := congrArg List.length htail
        have hw' : w' = [] := by
          rw [← List.length_eq_zero_iff]
          simp only [List.length_append, List.length_cons, List.length_nil, List.length_concat] at hlen
          omega
        rw [hw'] at htail
        rw [hec, ← (List.cons.inj htail).1] at hinert
        exact absurd hinert (by decide)

/-- A scheme that does not end in `bearer`: the second pattern takes it and leaves the token. -/
theorem scheme_exposed (hname : Spells name "authorization" ∨ Spells name "proxy_authorization")
    (h₁ : AllSpace sp₁) (hsign : IsSign sign) (h₂ : AllSpace sp₂)
    (hscheme : ValueKind.IsScheme scheme) (hbearer : ¬ BEARER <:+ scheme.map foldChar) :
    ¬ Covered name (sp₁ ++ sign :: sp₂) (.pair scheme) := by
  obtain ⟨key, hkey, h⟩ : ∃ key ∈ SECRET_KEYS, Spells name key := by
    rcases hname with h | h
    · exact ⟨_, by decide, h⟩
    · exact ⟨_, by decide, h⟩
  have hE := sign_not_inert (blank_space sp₁) hsign (blank_space sp₂)
  have hchars : ∀ c ∈ scheme, isTokenChar c = true := fun c hc => (scheme_chars (hscheme.2 c hc)).2
  refine not_covered (p := []) (s := []) specimen_word rfl ?_ (by simp [ValueKind.closing]) ?_
  · have h1 := specimen_notMem_name hkey h
    have h2 := specimen_notMem_sep h₁ hsign h₂
    have h3 := specimen_notMem_scheme hscheme
    simp only [ValueKind.opening, List.nil_append, List.mem_append, not_or] at h2 ⊢
    exact ⟨⟨h1, h2⟩, h3, by decide⟩
  have hsqueeze := squeeze_pair (p := []) (s := []) (h.shape hkey) h₁ hsign h₂ hscheme specimen_word
  obtain ⟨pre, N, hsplit, hN, hpre, hlen⟩ := authorization_split hname
  have hforms : N.map foldChar ∈ forms := by
    rw [hN]
    decide
  have htext : front [] ++ (name ++ (blank sp₁ ++ sign :: blank sp₂)) ++ scheme ++ [' '] ++
      (SPECIMEN ++ squeeze .word []) =
        name ++ (blank sp₁ ++ sign :: blank sp₂) ++ scheme ++ " ~".toList := by
    simp [front, squeeze, place, Place.lead, SPECIMEN]
  rw [htext] at hsqueeze
  refine leaks (T := name ++ (blank sp₁ ++ sign :: blank sp₂) ++ scheme ++ " ~".toList)
    (F := name ++ (blank sp₁ ++ sign :: blank sp₂) ++ marker ++ " ~".toList)
    (fun ps hps => ?_) (fun qs hqs => ?_) ?_ ?_
  · rw [hsqueeze] at hps
    exact hps.silent (no_bearer_match hname hscheme hbearer hE rfl)
  · have hassoc : name ++ (blank sp₁ ++ sign :: blank sp₂) ++ scheme ++ " ~".toList =
        pre ++ (N ++ (blank sp₁ ++ sign :: blank sp₂ ++ (scheme ++ " ~".toList))) := by
      rw [hsplit]
      simp
    rw [hassoc] at hqs
    have hvalue : Token scheme " ~".toList := ⟨hscheme.1, hchars, by decide⟩
    have hfound := assignment_token hforms (blank_space sp₁) hsign (blank_space sp₂) hvalue
      fun c hc hquote => by
        have hinert := (scheme_chars (hscheme.2 c (List.mem_of_mem_head? hc))).1
        rw [(quote_not_inert hquote).1] at hinert
        cases hinert
    obtain ⟨qsB, rfl, hB⟩ := hqs.skips fun u hu hsuffix => by
      -- a name that begins in front of the known one would be inside what is in front of it
      cases hmatch : matchAssignment
        (u ++ (N ++ (blank sp₁ ++ sign :: blank sp₂ ++ (scheme ++ " ~".toList)))) with
      | none => rfl
      | some found =>
        obtain ⟨m, s₁, sg, s₂, v, heq, -, hm, -⟩ := assignment_some hmatch
        have hbegin : u ++ (N ++ (blank sp₁ ++ sign :: blank sp₂ ++ (scheme ++ " ~".toList))) =
            m ++ (s₁ ++ sg :: s₂ ++ v ++ found.2) := by
          rw [heq]
          simp
        obtain ⟨u', rfl, -⟩ := name_before (List.mem_cons_of_mem _ hm)
          (List.mem_cons_of_mem _ hforms) hu hbegin
        exact absurd (((List.prefix_append m u').isInfix.trans hsuffix.isInfix).map foldChar) (hpre _ hm)
    have hparts : N ++ (blank sp₁ ++ sign :: blank sp₂ ++ (scheme ++ " ~".toList)) =
        N ++ blank sp₁ ++ sign :: blank sp₂ ++ scheme ++ " ~".toList := by simp
    rw [hparts] at hB
    rw [← List.append_assoc] at hfound
    obtain ⟨qsC, rfl, hC⟩ := hB.found (by simp) hfound
    rw [render_append, render_append, render_keep, render_keep, render_hide,
      hC.silent (assignment_silent (by decide)), hsplit]
    simp
  · exact List.mem_append_right _ (by decide)
  · have hNlen : N.length = 13 := by
      rw [← List.length_map (f := foldChar), hN]
      rfl
    have hEshort := signs_short _ (mem_signs sp₁ sp₂ hsign)
    have hend : (marker ++ " ~".toList).length = 12 := by decide
    refine short_of (n := 34) ?_ (by decide)
    rw [hsplit, List.append_assoc _ marker, List.length_append, List.length_append, List.length_append,
      hNlen, hend]
    omega

theorem quoted_exposed {quote : Char} (hkey : key ∈ SECRET_KEYS) (h : Spells name key)
    (h₁ : AllSpace sp₁) (hsign : IsSign sign) (h₂ : AllSpace sp₂) (hquote : IsQuote quote) :
    ¬ Covered name (sp₁ ++ sign :: sp₂) (.quoted quote) := by
  have hqplain : Plain [quote] := fun c hc => by
    rw [List.mem_singleton.mp hc]
    exact (quote_not_inert hquote).2
  have hqfold : foldChar quote = quote := by rcases hquote with rfl | rfl <;> decide
  have hqs : quote ≠ '~' := by rcases hquote with rfl | rfl <;> decide
  have hempty : AllSpace [] := fun c hc => absurd hc List.not_mem_nil
  refine not_covered (p := "secret=".toList ++ [quote]) (s := []) ?_ ?_ ?_ ?_ ?_
  · exact fun hmem => hqs (List.mem_singleton.mp hmem)
  · exact show words SPECIMEN = [SPECIMEN] by decide
  · have h1 := specimen_notMem_name hkey h
    have h2 := specimen_notMem_sep h₁ hsign h₂
    have h3 : '~' ∉ "secret=".toList := by decide
    simp only [ValueKind.opening, List.mem_append, List.mem_singleton, not_or] at h2 ⊢
    exact ⟨⟨⟨⟨h3, Ne.symm hqs⟩, h1⟩, h2⟩, Ne.symm hqs⟩
  · simpa [ValueKind.closing] using Ne.symm hqs
  -- the quotation that is open in front of the name is closed by the value's first quote
  have hinner : quote ∉ name ++ (blank sp₁ ++ sign :: blank sp₂) := by
    rw [List.mem_append, not_or]
    refine ⟨fun hmem => ?_, quote_notMem_sign hquote (blank_space _) hsign (blank_space _)⟩
    have hall : ∀ k ∈ SECRET_KEYS, ∀ f ∈ expand k.toList, '\'' ∉ f ∧ '"' ∉ f := by decide
    have hfold : quote ∈ name.map foldChar := hqfold ▸ List.mem_map_of_mem hmem
    have hnone := hall key hkey _ (h.fold hkey)
    rcases hquote with rfl | rfl
    · exact hnone.1 hfold
    · exact hnone.2 hfold
  have hsqueeze : squeeze .start ("secret=".toList ++ [quote] ++ name ++ (sp₁ ++ sign :: sp₂) ++
      (ValueKind.quoted quote).opening ++ (SPECIMEN ++ ((ValueKind.quoted quote).closing ++ []))) =
        "secret".toList ++ [] ++ '=' :: [] ++ (quote :: (name ++ (blank sp₁ ++ sign :: blank sp₂)) ++
          quote :: (SPECIMEN ++ [quote])) := by
    have hp : front ("secret=".toList ++ [quote]) = "secret=".toList ++ [quote] := by
      rw [(front_plain (a := "secret=".toList) hqplain (by simp)).1]
      rfl
    have hopening := (front_plain (a := "secret=".toList ++ [quote] ++ name ++ (sp₁ ++ sign :: sp₂))
      hqplain (by simp)).1
    have hclosing : squeeze .word ((ValueKind.quoted quote).closing ++ []) = [quote] :=
      squeeze_solid hqplain
    rw [squeeze_word specimen_word, hclosing]
    change front (_ ++ [quote]) ++ _ = _
    rw [hopening, front_assignment (h.shape hkey) h₁ hsign h₂, hp]
    simp
  have hb : 'b' ∉ (name ++ (blank sp₁ ++ sign :: blank sp₂)).map foldChar := by
    have hall : ∀ k ∈ SECRET_KEYS, ∀ f ∈ expand k.toList, 'b' ∉ f := by decide
    have hsigns : ∀ E ∈ signs, 'b' ∉ E := by decide
    have hE := mem_signs sp₁ sp₂ hsign
    rw [List.map_append, fold_signs _ hE, List.mem_append, not_or]
    exact ⟨hall key hkey _ (h.fold hkey), hsigns _ hE⟩
  generalize name ++ (blank sp₁ ++ sign :: blank sp₂) = inner at hinner hsqueeze hb
  refine leaks (T := "secret".toList ++ [] ++ '=' :: [] ++ (quote :: inner ++ quote :: (SPECIMEN ++ [quote])))
    (F := "secret=".toList ++ marker ++ (SPECIMEN ++ [quote])) (fun ps hps => ?_) (fun qs hscan => ?_) ?_ ?_
  · rw [hsqueeze] at hps
    refine hps.silent (bearer_silent fun hin => ?_)
    have hmem : 'b' ∈ _ := hin.subset (show 'b' ∈ BEARER by decide)
    have hqb : 'b' ≠ quote := by rcases hquote with rfl | rfl <;> decide
    have hs : 'b' ∉ "secret".toList.map foldChar ∧ 'b' ≠ foldChar '=' ∧
        'b' ∉ SPECIMEN.map foldChar := by decide
    simp only [List.map_append, List.map_cons, List.map_nil, hqfold, List.mem_append, List.mem_cons,
      List.not_mem_nil, or_false, hb, hs.1, hs.2.1, hs.2.2, hqb] at hmem
  · have hsecret : "secret".toList.map foldChar ∈ forms := by decide
    have hfound : matchAssignment ("secret".toList ++ [] ++ '=' :: [] ++
        (quote :: inner ++ quote :: (SPECIMEN ++ [quote]))) = some _ :=
      assignment_quoted hsecret hempty (.inr rfl) hempty hquote hinner
    have hparts : "secret".toList ++ [] ++ '=' :: [] ++ (quote :: inner ++ quote :: (SPECIMEN ++ [quote])) =
        "secret".toList ++ [] ++ '=' :: [] ++ (quote :: inner ++ [quote]) ++ (SPECIMEN ++ [quote]) := by
      simp
    have hvalue : quote :: inner ++ quote :: (SPECIMEN ++ [quote]) =
        quote :: inner ++ [quote] ++ (SPECIMEN ++ [quote]) := by simp
    rw [hparts] at hscan hfound
    rw [hvalue] at hfound
    obtain ⟨qsB, rfl, hB⟩ := hscan.found (by simp) hfound
    have hsilent : ∀ g ∈ forms, ¬ g <:+: (SPECIMEN ++ [quote]).map foldChar := by
      rcases hquote with rfl | rfl <;> decide
    rw [render_append, render_keep, render_hide, hB.silent (assignment_silent hsilent)]
    simp
  · exact List.mem_append_right _ (List.mem_append_left _ (.head _))
  · have hhead : ("secret=".toList ++ marker).length = 17 := by decide
    refine short_of (n := 19) ?_ (by decide)
    rw [List.length_append, hhead]
    rfl

end Exposed

/-! ### Shapes -/

theorem plain_sep {sp₁ sp₂ : List Char} {sign : Char} (h₁ : AllSpace sp₁) (h₂ : AllSpace sp₂)
    (h : Plain (sp₁ ++ sign :: sp₂)) : sp₁ = [] ∧ sp₂ = [] := by
  have hnil : ∀ sp, AllSpace sp → Plain sp → sp = [] := by
    intro sp hs hp
    cases sp with
    | nil => rfl
    | cons c sp =>
      have hc := hp c List.mem_cons_self
      rw [hs c List.mem_cons_self] at hc
      cases hc
  exact ⟨hnil _ h₁ fun c hc => h c (by simp [hc]), hnil _ h₂ fun c hc => h c (by simp [hc])⟩

theorem redaction_covers {name sep : List Char} {kind : ValueKind}
    (hname : ∃ key ∈ SECRET_KEYS, Spells name key) (hsep : IsSeparator sep) (hkind : kind.Fits name) :
    Covered name sep kind ↔ SafeShape name sep kind := by
  obtain ⟨key, hkey, hspells⟩ := hname
  obtain ⟨sp₁, sign, sp₂, h₁, hsign, h₂, rfl⟩ := hsep
  cases kind with
  | token =>
    refine ⟨fun hcovered => ?_, token_covered h₁ hsign h₂⟩
    by_contra hshape
    by_cases hknown : key ∈ COVERED_KEYS
    · refine known_exposed hkey hspells hknown h₁ hsign h₂ (fun hguard => hshape ?_) hcovered
      exact ⟨⟨key, hknown, hspells⟩, hguard⟩
    · exact unknown_exposed hkey hknown hspells h₁ hsign h₂ hcovered
  | pair scheme =>
    refine ⟨fun hcovered => ?_, pair_covered h₁ hsign h₂ hkind⟩
    by_contra hshape
    by_cases hbearer : BEARER <:+ scheme.map foldChar
    · by_cases hplain : Plain name ∧ Plain (sp₁ ++ sign :: sp₂)
      · obtain ⟨rfl, rfl⟩ := plain_sep h₁ h₂ hplain.2
        exact bearer_exposed hkey hspells hkind.2 hplain.1 hsign hcovered
      · exact hshape ⟨hbearer, hplain⟩
    · exact scheme_exposed hkind.1 h₁ hsign h₂ hkind.2 hbearer hcovered
  | quoted quote =>
    exact ⟨fun hcovered => quoted_exposed hkey hspells h₁ hsign h₂ hkind hcovered, False.elim⟩

theorem redaction_covers_sample : Covered "API-Key".toList "=".toList .token ↔
    SafeShape "API-Key".toList "=".toList .token :=
  redaction_covers ⟨"api_key", by decide, by unfold Spells; decide⟩
    ⟨[], '=', [], by simp [AllSpace], .inr rfl, by simp [AllSpace], rfl⟩ trivial

/-- Two of the names and schemes that the patterns do not know. -/
theorem cookie_is_stored : Spells "Cookie".toList "cookie" ∧
    ¬ Conceals "Cookie: sid-4711" "sid-4711".toList ∧
    ¬ Conceals "Authorization: Basic dXNlcg==" "dXNlcg==".toList := by
  refine ⟨by unfold Spells; decide, fun h => ?_, fun h => ?_⟩
  · exact conceals_iff.mp h "Cookie: sid-4711" (by decide) (by decide)
  · exact conceals_iff.mp h "Authorization: [REDACTED] dXNlcg==" (by decide) (by decide)

end SibylMemory.Outbox
