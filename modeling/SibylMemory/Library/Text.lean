import Mathlib.Data.List.Basic

/-!
# Text operations

The string methods the model needs, on the characters of a text, so that they
evaluate on closed texts: prefixes, suffixes, substrings, joining, and Python's
notion of white space.
-/

namespace Text

def startsWith (s pre : String) : Bool := pre.toList.isPrefixOf s.toList

def endsWith (s suf : String) : Bool := suf.toList.isSuffixOf s.toList

def hasInfix (needle : List Char) : List Char → Bool
  | [] => needle.isEmpty
  | c :: cs => needle.isPrefixOf (c :: cs) || hasInfix needle cs

def contains (s sub : String) : Bool := hasInfix sub.toList s.toList

def joinWith (sep : String) : List String → String
  | [] => ""
  | [x] => x
  | x :: y :: xs => x ++ sep ++ joinWith sep (y :: xs)

/-- `str.isspace` on one character. -/
def isSpace (c : Char) : Bool :=
  let n := c.toNat
  decide ((9 ≤ n ∧ n ≤ 13) ∨ (28 ≤ n ∧ n ≤ 32) ∨ n = 133 ∨ n = 160 ∨ n = 5760
    ∨ (8192 ≤ n ∧ n ≤ 8202) ∨ n = 8232 ∨ n = 8233 ∨ n = 8239 ∨ n = 8287 ∨ n = 12288)

def strip (s : String) : String :=
  String.ofList ((s.toList.dropWhile isSpace).reverse.dropWhile isSpace).reverse

/-- Characters of a text are looked through one by one. -/
instance (priority := high) decidableForallChar {p : Char → Prop} [DecidablePred p] (l : List Char) :
    Decidable (∀ c ∈ l, p c) := List.decidableBAll p l

instance (priority := high) decidableForallOption {p : Char → Prop} [DecidablePred p]
    (o : Option Char) : Decidable (∀ c ∈ o, p c) :=
  match o with
  | none => .isTrue fun _ h => by cases h
  | some c => decidable_of_iff (p c) ⟨fun h d hd => by cases hd; exact h, fun h => h c rfl⟩

theorem hasInfix_iff (needle cs : List Char) : hasInfix needle cs = true ↔ needle <:+: cs := by
  induction cs with
  | nil => simp [hasInfix]
  | cons c cs ih =>
    rw [hasInfix, Bool.or_eq_true, ih, List.infix_cons_iff, List.isPrefixOf_iff_prefix]

theorem contains_eq_false {s sub : String} {c : Char} (hc : c ∈ sub.toList)
    (hs : c ∉ s.toList) : contains s sub = false := by
  rw [Bool.eq_false_iff]
  intro h
  exact hs (((hasInfix_iff _ _).mp h).subset hc)

theorem startsWith_append {s t pre : String} (h : startsWith s pre = true) :
    startsWith (s ++ t) pre = true := by
  unfold startsWith at h ⊢
  rw [List.isPrefixOf_iff_prefix] at h ⊢
  rw [String.toList_append]
  exact h.trans (List.prefix_append _ _)

theorem endsWith_append (s suf : String) : endsWith (s ++ suf) suf = true :=
  List.isSuffixOf_iff_suffix.mpr ⟨s.toList, String.toList_append.symm⟩

/-- Of two ends of one text the shorter one is an end of the other. -/
theorem endsWith_other {s suf suf' : String} (h : endsWith s suf = true)
    (hn : endsWith suf suf' = false) (hn' : endsWith suf' suf = false) : endsWith s suf' = false := by
  rw [← Bool.not_eq_true]
  intro h'
  have hs : suf.toList <:+ s.toList := List.isSuffixOf_iff_suffix.mp h
  have hs' : suf'.toList <:+ s.toList := List.isSuffixOf_iff_suffix.mp h'
  rcases List.suffix_or_suffix_of_suffix hs hs' with hend | hend
  · exact Bool.false_ne_true (hn'.symm.trans (List.isSuffixOf_iff_suffix.mpr hend))
  · exact Bool.false_ne_true (hn.symm.trans (List.isSuffixOf_iff_suffix.mpr hend))

/-! ### Decoding joined texts -/

theorem joinWith_cons_cons (sep x y : String) (xs : List String) :
    joinWith sep (x :: y :: xs) = x ++ sep ++ joinWith sep (y :: xs) := rfl

theorem append_cons_inj {c : Char} {a b x y : List Char} (ha : c ∉ a) (hb : c ∉ b)
    (h : a ++ c :: x = b ++ c :: y) : a = b ∧ x = y := by
  induction a generalizing b with
  | nil =>
    cases b with
    | nil => exact ⟨rfl, (List.cons.inj h).2⟩
    | cons d b =>
      rw [List.nil_append, List.cons_append] at h
      exact absurd ((List.cons.inj h).1 ▸ List.mem_cons_self) hb
  | cons d a ih =>
    cases b with
    | nil =>
      rw [List.nil_append, List.cons_append] at h
      exact absurd ((List.cons.inj h).1 ▸ List.mem_cons_self) ha
    | cons e b =>
      rw [List.cons_append, List.cons_append] at h
      obtain ⟨hd, htl⟩ := List.cons.inj h
      obtain ⟨hab, hxy⟩ := ih (fun hc => ha (List.mem_cons_of_mem _ hc))
        (fun hc => hb (List.mem_cons_of_mem _ hc)) htl
      exact ⟨by rw [hd, hab], hxy⟩

theorem append_sep_inj {c : Char} {a b x y : String} (ha : c ∉ a.toList) (hb : c ∉ b.toList)
    (h : a ++ (String.ofList [c] ++ x) = b ++ (String.ofList [c] ++ y)) : a = b ∧ x = y := by
  have hl := congrArg String.toList h
  simp only [String.toList_append, String.toList_ofList, List.cons_append, List.nil_append] at hl
  obtain ⟨h1, h2⟩ := append_cons_inj ha hb hl
  exact ⟨String.toList_inj.mp h1, String.toList_inj.mp h2⟩

theorem append_sep_inj_right {c : Char} {a b x y : String} (hx : c ∉ x.toList) (hy : c ∉ y.toList)
    (h : a ++ String.ofList [c] ++ x = b ++ String.ofList [c] ++ y) : a = b ∧ x = y := by
  have hl := congrArg (fun s => s.toList.reverse) h
  simp only [String.toList_append, String.toList_ofList, List.reverse_append, List.reverse_cons,
    List.reverse_nil, List.nil_append, List.cons_append] at hl
  obtain ⟨h1, h2⟩ := append_cons_inj (by simpa using hx) (by simpa using hy) hl
  exact ⟨String.toList_inj.mp (List.reverse_injective h2),
    String.toList_inj.mp (List.reverse_injective h1)⟩

theorem append_left_cancel {a x y : String} (h : a ++ x = a ++ y) : x = y := by
  have hl := congrArg String.toList h
  simp only [String.toList_append] at hl
  exact String.toList_inj.mp (List.append_cancel_left hl)

theorem append_sep_eq_iff {sep : Char} {a b x y : String} :
    a ++ String.ofList [sep] ++ x = b ++ String.ofList [sep] ++ y ↔ (a = b ∧ x = y) ∨
      ∃ w, (b = a ++ String.ofList [sep] ++ w ∧ x = w ++ String.ofList [sep] ++ y) ∨
        (a = b ++ String.ofList [sep] ++ w ∧ y = w ++ String.ofList [sep] ++ x) := by
  constructor
  · intro h
    have hl := congrArg String.toList h
    simp only [String.toList_append, String.toList_ofList, List.append_assoc, List.singleton_append]
      at hl
    rcases List.append_eq_append_iff.mp hl with ⟨t, hb, hx⟩ | ⟨t, ha, hy⟩
    · cases t with
      | nil =>
        rw [List.append_nil] at hb
        rw [List.nil_append] at hx
        exact .inl ⟨(String.toList_inj.mp hb).symm, String.toList_inj.mp (List.cons.inj hx).2⟩
      | cons c w =>
        obtain ⟨rfl, htail⟩ := List.cons.inj hx
        refine .inr ⟨String.ofList w, .inl ⟨?_, ?_⟩⟩ <;> apply String.toList_inj.mp
        · simp [hb]
        · simpa using htail
    · cases t with
      | nil =>
        rw [List.append_nil] at ha
        rw [List.nil_append] at hy
        exact .inl ⟨String.toList_inj.mp ha, (String.toList_inj.mp (List.cons.inj hy).2).symm⟩
      | cons c w =>
        obtain ⟨rfl, htail⟩ := List.cons.inj hy
        refine .inr ⟨String.ofList w, .inr ⟨?_, ?_⟩⟩ <;> apply String.toList_inj.mp
        · simp [ha]
        · simpa using htail
  · rintro (⟨rfl, rfl⟩ | ⟨w, ⟨rfl, rfl⟩ | ⟨rfl, rfl⟩⟩)
    · rfl
    · simp only [String.append_assoc]
    · simp only [String.append_assoc]

/-! ### Numbers -/

theorem digit_toString (n : Nat) : ∀ c ∈ (toString n).toList, c.isDigit = true := by
  intro c hc
  have hd : c ∈ Nat.toDigits 10 n := Nat.toList_repr ▸ hc
  exact Nat.isDigit_of_mem_toDigits (by decide) (by decide) hd

theorem toString_injective {m n : Nat} (h : toString m = toString n) : m = n := by
  have hd : Nat.toDigits 10 m = Nat.toDigits 10 n := by
    rw [← Nat.toList_repr, ← Nat.toList_repr]
    exact congrArg String.toList h
  have hm : Nat.ofDigitChars 10 (Nat.toDigits 10 m) 0 = m :=
    Nat.ofDigitChars_toDigits (by decide) (by decide)
  have hn : Nat.ofDigitChars 10 (Nat.toDigits 10 n) 0 = n :=
    Nat.ofDigitChars_toDigits (by decide) (by decide)
  rw [← hm, hd, hn]

theorem numeral_toString (i : Int) : ∀ c ∈ (toString i).toList, c.isDigit = true ∨ c = '-' := by
  intro c hc
  cases i with
  | ofNat n => exact .inl (digit_toString n c hc)
  | negSucc n =>
    have hs : toString (Int.negSucc n) = "-" ++ toString (n + 1) := rfl
    rw [hs, String.toList_append, List.mem_append] at hc
    rcases hc with hc | hc
    · exact .inr (by simpa using hc)
    · exact .inl (digit_toString _ c hc)

theorem int_toString_injective {m n : Int} (h : toString m = toString n) : m = n := by
  have hminus : ∀ k l : Nat, toString k ≠ "-" ++ toString (l + 1) := by
    intro k l he
    have hd := digit_toString k '-' (by rw [he, String.toList_append]; simp)
    revert hd
    decide
  have hneg : ∀ n, toString (Int.negSucc n) = "-" ++ toString (n + 1) := fun _ => rfl
  have hnat : ∀ n, toString (Int.ofNat n) = toString n := fun _ => rfl
  cases m with
  | ofNat m =>
    cases n with
    | ofNat n =>
      rw [hnat, hnat] at h
      rw [toString_injective h]
    | negSucc n =>
      rw [hnat, hneg] at h
      exact absurd h (hminus m n)
  | negSucc m =>
    cases n with
    | ofNat n =>
      rw [hnat, hneg] at h
      exact absurd h.symm (hminus n m)
    | negSucc n =>
      rw [hneg, hneg] at h
      rw [Nat.succ.inj (toString_injective (append_left_cancel h))]

end Text
