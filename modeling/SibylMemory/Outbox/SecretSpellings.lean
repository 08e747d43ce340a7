import SibylMemory.Outbox.RedactionContexts
import SibylMemory.Outbox.Transactions

/-!
# Spellings of the secret names (`outbox.py:28-39`, `205-222`)

A name that `_reject_secrets` knows is, folded, one of finitely many texts; which of them the
second pattern knows, and what white space leaves of a name and a sign.
-/

namespace SibylMemory.Outbox
open Text Scrub Squeeze

/-! ### Names -/

/-- The texts that `normalizeKey` takes to a key. -/
def expand : List Char → List (List Char)
  | [] => [[]]
  | c :: cs =>
    if c = '_' then (expand cs).flatMap fun l => ['_' :: l, '-' :: l, ' ' :: l]
    else (expand cs).map (c :: ·)

def IsKeyChar (c : Char) : Prop := c = '_' ∨ 97 ≤ c.toNat ∧ c.toNat ≤ 122

instance (c : Char) : Decidable (IsKeyChar c) := inferInstanceAs (Decidable (_ ∨ _))

def normalizeChar (c : Char) : Char :=
  let l := lowerChar c
  if l = '-' ∨ l = ' ' then '_' else l

theorem lowerChar_cases (c : Char) : lowerChar c = foldChar c ∨
    lowerChar c = c ∧ ¬(97 ≤ c.toNat ∧ c.toNat ≤ 122) ∧ c ≠ '-' ∧ c ≠ ' ' ∧ c ≠ '_' := by
  unfold lowerChar foldChar
  split
  · exact .inl rfl
  · split
    · exact .inl rfl
    · split
      · rename_i h
        subst h
        exact .inr ⟨rfl, by decide, by decide, by decide, by decide⟩
      · split
        · rename_i h
          rcases h with rfl | rfl <;> exact .inr ⟨rfl, by decide, by decide, by decide, by decide⟩
        · exact .inl rfl

theorem normalizeChar_eq {c d : Char} (hd : IsKeyChar d) (h : normalizeChar c = d) :
    foldChar c = d ∨ d = '_' ∧ (foldChar c = '-' ∨ foldChar c = ' ') := by
  unfold normalizeChar at h
  dsimp only at h
  split at h
  · rename_i hsep
    rcases lowerChar_cases c with hc | ⟨hc, -, h1, h2, -⟩
    · exact .inr ⟨h.symm, hc ▸ hsep⟩
    · rw [hc] at hsep
      rcases hsep with he | he
      · exact absurd he h1
      · exact absurd he h2
  · rcases lowerChar_cases c with hc | ⟨hc, hn, -, -, h3⟩
    · exact .inl (hc ▸ h)
    · rw [hc] at h
      subst h
      rcases hd with hd | hd
      · exact absurd hd h3
      · exact absurd hd hn

theorem fold_mem_expand {name k : List Char} (hk : ∀ c ∈ k, IsKeyChar c)
    (h : name.map normalizeChar = k) : name.map foldChar ∈ expand k := by
  induction name generalizing k with
  | nil =>
    rw [← h]
    exact List.mem_singleton.mpr rfl
  | cons c name ih =>
    obtain ⟨d, k, rfl⟩ := List.exists_cons_of_ne_nil (show k ≠ [] by rw [← h]; simp)
    obtain ⟨hd, hrest⟩ := List.cons.inj h
    have hmem := ih (fun e he => hk e (List.mem_cons_of_mem _ he)) hrest
    rw [expand, List.map_cons]
    rcases normalizeChar_eq (hk d List.mem_cons_self) hd with hc | ⟨rfl, hc⟩
    · rw [hc]
      split
      · rename_i hdash
        rw [List.mem_flatMap]
        exact ⟨_, hmem, by simp [hdash]⟩
      · exact List.mem_map_of_mem hmem
    · rw [if_pos rfl, List.mem_flatMap]
      refine ⟨_, hmem, ?_⟩
      rcases hc with hc | hc <;> simp [hc]

theorem secret_keys_plain : ∀ k ∈ SECRET_KEYS, ∀ c ∈ k.toList, IsKeyChar c := by decide

/-- A spelling of the key. -/
def Spells (name : List Char) (key : String) : Prop := normalizeKey (String.ofList name) = key

theorem Spells.fold {name : List Char} {key : String} (hkey : key ∈ SECRET_KEYS)
    (h : Spells name key) : name.map foldChar ∈ expand key.toList := by
  refine fold_mem_expand (secret_keys_plain key hkey) ?_
  rw [← h, normalizeKey, String.toList_ofList, String.toList_ofList]
  rfl

theorem authorization_fold {name : List Char}
    (h : Spells name "authorization" ∨ Spells name "proxy_authorization") : name.map foldChar ∈
      expand "authorization".toList ++ expand "proxy_authorization".toList := by
  rcases h with h | h
  · exact List.mem_append_left _ (h.fold (by decide))
  · exact List.mem_append_right _ (h.fold (by decide))

/-! ### White space in names and around signs -/

def Plain (l : List Char) : Prop := ∀ c ∈ l, isSpace c = false

instance (l : List Char) : Decidable (Plain l) := inferInstanceAs (Decidable (∀ c ∈ l, _))

/-- One word, or two with one blank between them. -/
def NameShape (name : List Char) : Prop :=
  name ≠ [] ∧ Plain name ∨ ∃ a b, name = a ++ ' ' :: b ∧ a ≠ [] ∧ b ≠ [] ∧ Plain a ∧ Plain b

theorem plain_fold {l : List Char} : Plain (l.map foldChar) ↔ Plain l := by
  constructor
  · intro h c hc
    rw [← isSpace_fold]
    exact h _ (List.mem_map_of_mem hc)
  · intro h c hc
    obtain ⟨d, hd, rfl⟩ := List.mem_map.mp hc
    rw [isSpace_fold]
    exact h d hd

theorem isInert_space : isInert ' ' = false := by decide

theorem split_fold {name a b : List Char} (h : name.map foldChar = a ++ ' ' :: b) :
    ∃ na nb, name = na ++ ' ' :: nb ∧ na.map foldChar = a ∧ nb.map foldChar = b := by
  obtain ⟨na, tail, rfl, hna, htail⟩ := List.map_eq_append_iff.mp h
  obtain ⟨c, nb, rfl, hc, hnb⟩ := List.map_eq_cons_iff.mp htail
  rw [(fold_eq_iff isInert_space).mp hc]
  exact ⟨na, nb, rfl, hna, hnb⟩

theorem not_plain_fold {name : List Char} {key : String} (hkey : key ∈ SECRET_KEYS)
    (h : Spells name key) (hplain : ¬ Plain name) : ∃ a b, name.map foldChar = a ++ ' ' :: b ∧
      a ≠ [] ∧ b ≠ [] ∧ Plain a ∧ Plain b := by
  have hall : ∀ k ∈ SECRET_KEYS, ∀ f ∈ expand k.toList, ¬ Plain f →
      f = f.takeWhile (· ≠ ' ') ++ ' ' :: (f.dropWhile (· ≠ ' ')).drop 1 ∧
        f.takeWhile (· ≠ ' ') ≠ [] ∧ (f.dropWhile (· ≠ ' ')).drop 1 ≠ [] ∧
        Plain (f.takeWhile (· ≠ ' ')) ∧ Plain ((f.dropWhile (· ≠ ' ')).drop 1) := by decide
  exact ⟨_, _, hall key hkey _ (h.fold hkey) (fun hp => hplain (plain_fold.mp hp))⟩

theorem Spells.shape {name : List Char} {key : String} (hkey : key ∈ SECRET_KEYS)
    (h : Spells name key) : NameShape name := by
  by_cases hplain : Plain name
  · refine .inl ⟨?_, hplain⟩
    rintro rfl
    have hne : ∀ k ∈ SECRET_KEYS, [] ∉ expand k.toList := by decide
    exact hne key hkey (h.fold hkey)
  · obtain ⟨a, b, hab, ha, hb, hpa, hpb⟩ := not_plain_fold hkey h hplain
    obtain ⟨na, nb, rfl, rfl, rfl⟩ := split_fold hab
    exact .inr ⟨na, nb, rfl, by simpa using ha, by simpa using hb, plain_fold.mp hpa,
      plain_fold.mp hpb⟩

/-! ### Squeezed texts -/

/-- What is written of a text when a word follows it. -/
def front (l : List Char) : List Char := squeeze .start l ++ (place .start l).lead

/-- What is left of white space inside a text. -/
def blank (sp : List Char) : List Char := if sp = [] then [] else [' ']

section Squeezed
variable {a b name sp₁ sp₂ sp p R w : List Char} {sign : Char}

theorem squeeze_front (hne : R ≠ []) (hR : ∀ c ∈ R.head?, isSpace c = false) :
    squeeze .start (a ++ R) = front a ++ squeeze .word R := by
  obtain ⟨c, R, rfl⟩ := List.exists_cons_of_ne_nil hne
  have hc := hR c rfl
  rw [squeeze_append, squeeze_cons hc, squeeze_cons hc, front]
  simp [Place.lead]

theorem squeeze_plain (hb : Plain b) (hne : b ≠ []) {q : Place} : squeeze q b = q.lead ++ b := by
  obtain ⟨c, b, rfl⟩ := List.exists_cons_of_ne_nil hne
  rw [squeeze_cons (hb c List.mem_cons_self), squeeze_solid fun d hd => hb d (List.mem_cons_of_mem _ hd)]

theorem front_plain (hb : Plain b) (hne : b ≠ []) :
    front (a ++ b) = front a ++ b ∧ place .start (a ++ b) = .word := by
  have hplace : place .start (a ++ b) = .word := by rw [place_append, place_solid hb hne]
  refine ⟨?_, hplace⟩
  rw [front, hplace, squeeze_append, squeeze_plain hb hne, front]
  simp [Place.lead]

theorem front_space (ha : place .start a = .word) (hsp : AllSpace sp) :
    front (a ++ sp) = front a ++ blank sp := by
  rw [front, front, squeeze_append, squeeze_blank hsp, place_append, ha, place_blank hsp, blank]
  split <;> simp [Place.lead, Place.space]

theorem front_name (hname : NameShape name) :
    front (p ++ name) = front p ++ name ∧ place .start (p ++ name) = .word := by
  rcases hname with ⟨hne, hplain⟩ | ⟨a, b, rfl, ha, hb, hpa, hpb⟩
  · exact front_plain hplain hne
  · have hspace : AllSpace [' '] := fun c hc => by rw [List.mem_singleton.mp hc]; decide
    have hassoc : p ++ (a ++ ' ' :: b) = p ++ a ++ [' '] ++ b := by simp
    obtain ⟨hfa, hplace⟩ := front_plain (a := p) hpa ha
    obtain ⟨hfb, hplace'⟩ := front_plain (a := p ++ a ++ [' ']) hpb hb
    rw [hassoc]
    refine ⟨?_, hplace'⟩
    rw [hfb, front_space hplace hspace, hfa]
    simp [blank]

/-- A name and a sign keep their characters, white space around the sign is one blank. -/
theorem front_assignment (hname : NameShape name) (h₁ : AllSpace sp₁) (hsign : IsSign sign)
    (h₂ : AllSpace sp₂) : front (p ++ name ++ (sp₁ ++ sign :: sp₂)) =
      front p ++ (name ++ (blank sp₁ ++ sign :: blank sp₂)) := by
  have hplain : Plain [sign] := fun c hc => by rw [List.mem_singleton.mp hc]; exact sign_not_space hsign
  have hassoc : p ++ name ++ (sp₁ ++ sign :: sp₂) = p ++ name ++ sp₁ ++ [sign] ++ sp₂ := by simp
  obtain ⟨hfn, hplace⟩ := front_name (p := p) hname
  obtain ⟨hfs, hplace'⟩ := front_plain (a := p ++ name ++ sp₁) hplain (List.cons_ne_nil _ _)
  rw [hassoc, front_space hplace' h₂, hfs, front_space hplace h₁, hfn]
  simp

theorem blank_space (sp : List Char) : AllSpace (blank sp) := by
  unfold blank
  split
  · exact fun c hc => absurd hc List.not_mem_nil
  · intro c hc
    rw [List.mem_singleton.mp hc]
    decide

theorem absent_front (hw : Plain w) (h : ¬ w <:+: a) : ¬ w <:+: front a := by
  intro hin
  have hspace : w <:+: squeeze .start a := by
    unfold front at hin
    cases hp : place .start a with
    | gap =>
      rw [hp] at hin
      rcases infix_blank (l := []) hw hin with hin | hin
      · exact hin
      · exact hin.trans List.nil_infix
    | start => simpa [hp, Place.lead] using hin
    | word => simpa [hp, Place.lead] using hin
  exact h (infix_squeeze hw hspace)

theorem Foreign.squeeze {before after : List Char} (hw : Plain w) (h : Foreign w before after) :
    Foreign w (front before) (squeeze .word after) :=
  ⟨h.apart, absent_front hw h.before, fun hin => h.after (infix_squeeze hw hin)⟩

end Squeezed

end SibylMemory.Outbox
