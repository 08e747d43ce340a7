import Mathlib.Data.List.Basic
import Mathlib.Tactic.IntervalCases

/-!
# UTF-8 and percent-encoding

`quote s` is `urllib.parse.quote(s, safe="")`: every UTF-8 byte outside the
unreserved set becomes `%XX`. `unquote` is `urllib.parse.unquote` with its
default `errors="replace"`. Bytes are numbers below 256. `unquote_quote` is the
round trip; injectivity of `quote` and the alphabet of its output follow.
-/

namespace PercentEncoding

/-! ### UTF-8 -/

/-- The UTF-8 bytes of one character. -/
def utf8Char (c : Char) : List Nat :=
  let n := c.toNat
  if n < 128 then [n]
  else if n < 2048 then [192 + n / 64, 128 + n % 64]
  else if n < 65536 then [224 + n / 4096, 128 + n / 64 % 64, 128 + n % 64]
  else [240 + n / 262144, 128 + n / 4096 % 64, 128 + n / 64 % 64, 128 + n % 64]

def utf8 (s : List Char) : List Nat := s.flatMap utf8Char

def isTail (b : Nat) : Bool := decide (128 ≤ b ∧ b ≤ 191)

/-- The second byte allowed after the first byte `b` of a three or four byte character. -/
def secondOk (b b' : Nat) : Bool :=
  if b = 224 then decide (160 ≤ b' ∧ b' ≤ 191)
  else if b = 237 then decide (128 ≤ b' ∧ b' ≤ 159)
  else if b = 240 then decide (144 ≤ b' ∧ b' ≤ 191)
  else if b = 244 then decide (128 ≤ b' ∧ b' ≤ 143)
  else isTail b'

/-- `bytes.decode("utf-8", errors="replace")`: each maximal ill-formed part of the
input becomes one U+FFFD. -/
def decodeReplace : List Nat → List Char
  | [] => []
  | b :: rest =>
    if b < 128 then Char.ofNat b :: decodeReplace rest
    else if 194 ≤ b ∧ b ≤ 223 then
      match rest with
      | b₁ :: rest₁ =>
        if isTail b₁ then Char.ofNat ((b - 192) * 64 + (b₁ - 128)) :: decodeReplace rest₁
        else '\uFFFD' :: decodeReplace (b₁ :: rest₁)
      | [] => ['\uFFFD']
    else if 224 ≤ b ∧ b ≤ 239 then
      match rest with
      | b₁ :: rest₁ =>
        if secondOk b b₁ then
          match rest₁ with
          | b₂ :: rest₂ =>
            if isTail b₂ then
              Char.ofNat ((b - 224) * 4096 + (b₁ - 128) * 64 + (b₂ - 128)) :: decodeReplace rest₂
            else '\uFFFD' :: decodeReplace (b₂ :: rest₂)
          | [] => ['\uFFFD']
        else '\uFFFD' :: decodeReplace (b₁ :: rest₁)
      | [] => ['\uFFFD']
    else if 240 ≤ b ∧ b ≤ 244 then
      match rest with
      | b₁ :: rest₁ =>
        if secondOk b b₁ then
          match rest₁ with
          | b₂ :: rest₂ =>
            if isTail b₂ then
              match rest₂ with
              | b₃ :: rest₃ =>
                if isTail b₃ then
                  Char.ofNat ((b - 240) * 262144 + (b₁ - 128) * 4096 + (b₂ - 128) * 64 + (b₃ - 128))
                    :: decodeReplace rest₃
                else '\uFFFD' :: decodeReplace (b₃ :: rest₃)
              | [] => ['\uFFFD']
            else '\uFFFD' :: decodeReplace (b₂ :: rest₂)
          | [] => ['\uFFFD']
        else '\uFFFD' :: decodeReplace (b₁ :: rest₁)
      | [] => ['\uFFFD']
    else '\uFFFD' :: decodeReplace rest

theorem toNat_ofNat_ascii (n : Nat) (h : n < 128) : (Char.ofNat n).toNat = n := by
  have hv : n.isValidChar := Or.inl (by omega)
  rw [Char.ofNat, dif_pos hv]
  rfl

theorem char_range (c : Char) : c.toNat < 55296 ∨ (57343 < c.toNat ∧ c.toNat < 1114112) := c.valid

theorem utf8Char_lt (c : Char) : ∀ b ∈ utf8Char c, b < 256 := by
  intro b hb
  have hc := char_range c
  simp only [utf8Char] at hb
  split_ifs at hb <;> simp only [List.mem_cons, List.not_mem_nil, or_false] at hb <;> omega

/-- Decoding reads back one encoded character and goes on behind it. -/
theorem decodeReplace_utf8Char (c : Char) (rest : List Nat) :
    decodeReplace (utf8Char c ++ rest) = c :: decodeReplace rest := by
  have hc := char_range c
  have hof : Char.ofNat c.toNat = c := Char.ofNat_toNat c
  generalize hn : c.toNat = n at hc hof
  simp only [utf8Char, hn]
  by_cases h1 : n < 128
  · simp only [h1, if_true, List.cons_append, List.nil_append]
    rw [decodeReplace.eq_def]
    simp only [h1, if_true, hof]
  by_cases h2 : n < 2048
  · have hb : 194 ≤ 192 + n / 64 ∧ 192 + n / 64 ≤ 223 := by omega
    have ht : isTail (128 + n % 64) = true := by simp [isTail]; omega
    have hv : (192 + n / 64 - 192) * 64 + (128 + n % 64 - 128) = n := by omega
    have hlo : ¬192 + n / 64 < 128 := by omega
    simp only [h1, h2, if_false, if_true, List.cons_append, List.nil_append]
    rw [decodeReplace.eq_def]
    simp only [hlo, hb, ht, hv, hof, if_true, if_false, and_self]
  by_cases h3 : n < 65536
  · have hlo : ¬224 + n / 4096 < 128 := by omega
    have h2' : ¬(194 ≤ 224 + n / 4096 ∧ 224 + n / 4096 ≤ 223) := by omega
    have hb : 224 ≤ 224 + n / 4096 ∧ 224 + n / 4096 ≤ 239 := by omega
    have hs : secondOk (224 + n / 4096) (128 + n / 64 % 64) = true := by
      unfold secondOk isTail
      split_ifs <;> simp only [decide_eq_true_eq] <;> omega
    have ht : isTail (128 + n % 64) = true := by simp [isTail]; omega
    have hv : (224 + n / 4096 - 224) * 4096 + (128 + n / 64 % 64 - 128) * 64 + (128 + n % 64 - 128)
        = n := by omega
    simp only [h1, h2, h3, if_false, if_true, List.cons_append, List.nil_append]
    rw [decodeReplace.eq_def]
    simp only [hlo, h2', hb, hs, ht, hv, hof, if_true, if_false, and_self]
  · have hlo : ¬240 + n / 262144 < 128 := by omega
    have h2' : ¬(194 ≤ 240 + n / 262144 ∧ 240 + n / 262144 ≤ 223) := by omega
    have h3' : ¬(224 ≤ 240 + n / 262144 ∧ 240 + n / 262144 ≤ 239) := by omega
    have hb : 240 ≤ 240 + n / 262144 ∧ 240 + n / 262144 ≤ 244 := by omega
    have hs : secondOk (240 + n / 262144) (128 + n / 4096 % 64) = true := by
      unfold secondOk isTail
      split_ifs <;> simp only [decide_eq_true_eq] <;> omega
    have ht1 : isTail (128 + n / 64 % 64) = true := by simp [isTail]; omega
    have ht2 : isTail (128 + n % 64) = true := by simp [isTail]; omega
    have hv : (240 + n / 262144 - 240) * 262144 + (128 + n / 4096 % 64 - 128) * 4096
        + (128 + n / 64 % 64 - 128) * 64 + (128 + n % 64 - 128) = n := by omega
    simp only [h1, h2, h3, if_false, List.cons_append, List.nil_append]
    rw [decodeReplace.eq_def]
    simp only [hlo, h2', h3', hb, hs, ht1, ht2, hv, hof, if_true, if_false, and_self]

theorem decodeReplace_utf8 (s : List Char) : decodeReplace (utf8 s) = s := by
  induction s with
  | nil => rfl
  | cons c s ih =>
    have hcons : utf8 (c :: s) = utf8Char c ++ utf8 s := rfl
    rw [hcons, decodeReplace_utf8Char, ih]

/-! ### Quoting -/

/-- The characters `quote` never escapes. -/
def isUnreserved (b : Nat) : Bool :=
  decide ((48 ≤ b ∧ b ≤ 57) ∨ (65 ≤ b ∧ b ≤ 90) ∨ (97 ≤ b ∧ b ≤ 122)
    ∨ b = 95 ∨ b = 46 ∨ b = 45 ∨ b = 126)

def hexUpper (n : Nat) : Char := if n < 10 then Char.ofNat (48 + n) else Char.ofNat (55 + n)

def quoteByte (b : Nat) : List Char :=
  if isUnreserved b then [Char.ofNat b] else ['%', hexUpper (b / 16), hexUpper (b % 16)]

/-- `urllib.parse.quote(s, safe="")`. -/
def quote (s : String) : String := String.ofList ((utf8 s.toList).flatMap quoteByte)

def hexValue (c : Char) : Option Nat :=
  let n := c.toNat
  if 48 ≤ n ∧ n ≤ 57 then some (n - 48)
  else if 65 ≤ n ∧ n ≤ 70 then some (n - 55)
  else if 97 ≤ n ∧ n ≤ 102 then some (n - 87)
  else none

/-- `urllib.parse.unquote_to_bytes` on ASCII text: a `%` that no two hexadecimal
digits follow stays. -/
def unquoteToBytes : List Char → List Nat
  | [] => []
  | [c] => [c.toNat]
  | [c, a] => c.toNat :: unquoteToBytes [a]
  | c :: a :: b :: rest =>
    if c = '%' then
      match hexValue a, hexValue b with
      | some x, some y => (16 * x + y) :: unquoteToBytes rest
      | _, _ => 37 :: unquoteToBytes (a :: b :: rest)
    else c.toNat :: unquoteToBytes (a :: b :: rest)

/-- Unquotes each maximal ASCII run; `run` is the current one, reversed. -/
def unquoteRuns : List Char → List Char → List Char
  | run, [] => decodeReplace (unquoteToBytes run.reverse)
  | run, c :: cs =>
    if c.toNat < 128 then unquoteRuns (c :: run) cs
    else decodeReplace (unquoteToBytes run.reverse) ++ c :: unquoteRuns [] cs

/-- `urllib.parse.unquote(s)`. -/
def unquote (s : String) : String :=
  if '%' ∈ s.toList then String.ofList (unquoteRuns [] s.toList) else s

theorem hexUpper_facts : ∀ n < 16, hexValue (hexUpper n) = some n ∧ (hexUpper n).toNat < 128 := by
  intro n hn
  interval_cases n <;> decide

theorem unquoteToBytes_literal (c : Char) (hc : c ≠ '%') (rest : List Char) :
    unquoteToBytes (c :: rest) = c.toNat :: unquoteToBytes rest := by
  rcases rest with _ | ⟨a, _ | ⟨b, rest⟩⟩ <;> simp [unquoteToBytes, hc]

theorem unquoteToBytes_quoteByte (b : Nat) (hb : b < 256) (rest : List Char) :
    unquoteToBytes (quoteByte b ++ rest) = b :: unquoteToBytes rest := by
  unfold quoteByte
  split
  · rename_i hu
    have hn : (Char.ofNat b).toNat = b := by
      simp only [isUnreserved, decide_eq_true_eq] at hu
      exact toNat_ofNat_ascii b (by omega)
    have hne : Char.ofNat b ≠ '%' := by
      intro he
      rw [he] at hn
      subst hn
      exact absurd hu (by decide)
    rw [List.singleton_append, unquoteToBytes_literal _ hne, hn]
  · have h1 := (hexUpper_facts (b / 16) (by omega)).1
    have h2 := (hexUpper_facts (b % 16) (by omega)).1
    have hv : 16 * (b / 16) + b % 16 = b := by omega
    simp [unquoteToBytes, h1, h2, hv]

theorem unquoteToBytes_flatMap (bs : List Nat) (hbs : ∀ b ∈ bs, b < 256) :
    unquoteToBytes (bs.flatMap quoteByte) = bs := by
  induction bs with
  | nil => rfl
  | cons b bs ih =>
    rw [List.flatMap_cons, unquoteToBytes_quoteByte b (hbs b List.mem_cons_self),
      ih fun x hx => hbs x (List.mem_cons_of_mem _ hx)]

theorem quoteByte_ascii (b : Nat) (hb : b < 256) : ∀ c ∈ quoteByte b, c.toNat < 128 := by
  intro c hc
  unfold quoteByte at hc
  split at hc
  · rename_i hu
    rw [List.mem_singleton] at hc
    subst hc
    simp only [isUnreserved, decide_eq_true_eq] at hu
    rw [toNat_ofNat_ascii b (by omega)]
    omega
  · simp only [List.mem_cons, List.not_mem_nil, or_false] at hc
    rcases hc with rfl | rfl | rfl
    · decide
    · exact (hexUpper_facts _ (by omega)).2
    · exact (hexUpper_facts _ (by omega)).2

theorem unquoteRuns_ascii (run cs : List Char) (h : ∀ c ∈ cs, c.toNat < 128) :
    unquoteRuns run cs = decodeReplace (unquoteToBytes (run.reverse ++ cs)) := by
  induction cs generalizing run with
  | nil => simp [unquoteRuns]
  | cons c cs ih =>
    rw [unquoteRuns, if_pos (h c List.mem_cons_self), ih (c :: run) fun x hx =>
      h x (List.mem_cons_of_mem _ hx)]
    simp

theorem utf8_lt (s : List Char) : ∀ b ∈ utf8 s, b < 256 := by
  intro b hb
  obtain ⟨c, _, hbc⟩ := List.mem_flatMap.mp hb
  exact utf8Char_lt c b hbc

theorem quote_ascii (s : String) : ∀ c ∈ (quote s).toList, c.toNat < 128 := by
  intro c hc
  rw [quote, String.toList_ofList] at hc
  obtain ⟨b, hb, hcb⟩ := List.mem_flatMap.mp hc
  exact quoteByte_ascii b (utf8_lt _ b hb) c hcb

theorem unquoteRuns_quote (s : String) : unquoteRuns [] (quote s).toList = s.toList := by
  rw [unquoteRuns_ascii [] _ (quote_ascii s), List.reverse_nil, List.nil_append, quote,
    String.toList_ofList, unquoteToBytes_flatMap _ (utf8_lt _), decodeReplace_utf8]

theorem unquoteToBytes_no_percent (cs : List Char) (h : '%' ∉ cs) :
    unquoteToBytes cs = cs.map Char.toNat := by
  induction cs with
  | nil => rfl
  | cons c cs ih =>
    rw [List.mem_cons, not_or] at h
    rw [unquoteToBytes_literal c (fun he => h.1 he.symm), ih h.2, List.map_cons]

theorem decodeReplace_ascii (cs : List Char) (h : ∀ c ∈ cs, c.toNat < 128) :
    decodeReplace (cs.map Char.toNat) = cs := by
  induction cs with
  | nil => rfl
  | cons c cs ih =>
    have hc := h c List.mem_cons_self
    rw [List.map_cons, decodeReplace.eq_def]
    simp only [hc, if_true, Char.ofNat_toNat, ih fun x hx => h x (List.mem_cons_of_mem _ hx)]

theorem unquote_quote (s : String) : unquote (quote s) = s := by
  unfold unquote
  split
  · rw [unquoteRuns_quote, String.ofList_toList]
  · rename_i hp
    -- no escape: the quoted text is its own decoding
    have hrun := unquoteRuns_quote s
    rw [unquoteRuns_ascii [] _ (quote_ascii s), List.reverse_nil, List.nil_append,
      unquoteToBytes_no_percent _ hp, decodeReplace_ascii _ (quote_ascii s)] at hrun
    exact String.toList_inj.mp hrun

theorem quote_injective : Function.Injective quote := by
  intro s t h
  rw [← unquote_quote s, h, unquote_quote]

theorem quoteByte_alphabet (b : Nat) (hb : b < 256) :
    ∀ c ∈ quoteByte b, c = '%' ∨ isUnreserved c.toNat = true := by
  intro c hc
  unfold quoteByte at hc
  split at hc
  · rename_i hu
    rw [List.mem_singleton] at hc
    subst hc
    right
    have hv := hu
    simp only [isUnreserved, decide_eq_true_eq] at hv
    rw [toNat_ofNat_ascii b (by omega)]
    exact hu
  · have hhex : ∀ n < 16, isUnreserved (hexUpper n).toNat = true := by
      intro n hn
      interval_cases n <;> decide
    simp only [List.mem_cons, List.not_mem_nil, or_false] at hc
    rcases hc with rfl | rfl | rfl
    · exact Or.inl rfl
    · exact Or.inr (hhex _ (by omega))
    · exact Or.inr (hhex _ (by omega))

theorem quote_alphabet (s : String) :
    ∀ c ∈ (quote s).toList, c = '%' ∨ isUnreserved c.toNat = true := by
  intro c hc
  rw [quote, String.toList_ofList] at hc
  obtain ⟨b, hb, hcb⟩ := List.mem_flatMap.mp hc
  exact quoteByte_alphabet b (utf8_lt _ b hb) c hcb

example : quote "a/é" = "a%2F%C3%A9" := by decide

end PercentEncoding
