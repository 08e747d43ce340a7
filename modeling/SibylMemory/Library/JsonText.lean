import SibylMemory.Library.PyValue
import SibylMemory.Library.Text

/-!
# JSON string literals

`scan` reads a literal behind its opening quote as `json.loads` does: code units first, and pairs
of escaped surrogates joined afterwards. What `json.dumps` writes of a text is read back as the
code points of the text.
-/

namespace JsonText
open PyValue (escapeChar unicodeEscape hexDigit renderString)

abbrev CodePoints := List Nat

def points (s : String) : CodePoints := s.toList.map Char.toNat

def hexValue (c : Char) : Option Nat :=
  let n := c.toNat
  if 48 ≤ n ∧ n ≤ 57 then some (n - 48)
  else if 97 ≤ n ∧ n ≤ 102 then some (n - 87)
  else if 65 ≤ n ∧ n ≤ 70 then some (n - 55)
  else none

def hexUnit (a b c d : Char) : Option Nat := do
  let a ← hexValue a
  let b ← hexValue b
  let c ← hexValue c
  let d ← hexValue d
  return a * 4096 + b * 256 + c * 16 + d

def shortEscape (c : Char) : Option Nat :=
  if c = '"' then some 34
  else if c = '\\' then some 92
  else if c = '/' then some 47
  else if c = 'b' then some 8
  else if c = 'f' then some 12
  else if c = 'n' then some 10
  else if c = 'r' then some 13
  else if c = 't' then some 9
  else none

/-- The code units up to the closing quote, and what follows it. -/
def scan : List Char → Option (List Nat × List Char)
  | [] => none
  | '"' :: cs => some ([], cs)
  | '\\' :: 'u' :: a :: b :: c :: d :: cs =>
    match hexUnit a b c d, scan cs with
    | some n, some (ns, rest) => some (n :: ns, rest)
    | _, _ => none
  | '\\' :: e :: cs =>
    match shortEscape e, scan cs with
    | some n, some (ns, rest) => some (n :: ns, rest)
    | _, _ => none
  | c :: cs =>
    if c = '\\' ∨ c.toNat < 32 then none
    else (scan cs).map fun r => (c.toNat :: r.1, r.2)

def isHigh (n : Nat) : Bool := decide (55296 ≤ n ∧ n ≤ 56319)

def isLow (n : Nat) : Bool := decide (56320 ≤ n ∧ n ≤ 57343)

def joinSurrogates : List Nat → List Nat
  | high :: low :: ns =>
    if isHigh high && isLow low then
      (65536 + (high - 55296) * 1024 + (low - 56320)) :: joinSurrogates ns
    else high :: joinSurrogates (low :: ns)
  | ns => ns

def isJsonSpace (c : Char) : Bool := decide (c = ' ' ∨ c = '\t' ∨ c = '\n' ∨ c = '\r')

/-- `json.loads` of a text that begins with a quote; `none` is a `JSONDecodeError`. -/
def loadsLiteral : List Char → Option CodePoints
  | '"' :: cs =>
    match scan cs with
    | some (units, rest) => if rest.all isJsonSpace then some (joinSurrogates units) else none
    | none => none
  | _ => none

/-! ### What is written is read back -/

/-- The code units of a character. -/
def units (c : Char) : List Nat :=
  if c.toNat < 65536 then [c.toNat]
  else [55296 + (c.toNat - 65536) / 1024, 56320 + (c.toNat - 65536) % 1024]

theorem char_bounds (c : Char) : c.toNat < 55296 ∨ 57343 < c.toNat ∧ c.toNat < 1114112 := by
  rcases c.valid with h | h
  · exact .inl h
  · exact .inr h

theorem joinSurrogates_cons {n : Nat} (h : isHigh n = false) (ns : List Nat) :
    joinSurrogates (n :: ns) = n :: joinSurrogates ns := by
  cases ns with
  | nil => rfl
  | cons m ns => simp [joinSurrogates, h]

theorem joinSurrogates_pair {high low : Nat} (h : (isHigh high && isLow low) = true) (ns : List Nat) :
    joinSurrogates (high :: low :: ns)
      = (65536 + (high - 55296) * 1024 + (low - 56320)) :: joinSurrogates ns := if_pos h

theorem joinSurrogates_units (l : List Char) :
    joinSurrogates (l.flatMap units) = l.map Char.toNat := by
  induction l with
  | nil => rfl
  | cons c l ih =>
    have hc := char_bounds c
    rw [List.flatMap_cons, List.map_cons, ← ih, units]
    split
    · have hhigh : isHigh c.toNat = false := by
        simp only [isHigh, decide_eq_false_iff_not]
        omega
      exact joinSurrogates_cons hhigh _
    · have hpair : (isHigh (55296 + (c.toNat - 65536) / 1024)
          && isLow (56320 + (c.toNat - 65536) % 1024)) = true := by
        simp only [isHigh, isLow, Bool.and_eq_true, decide_eq_true_eq]
        omega
      have hvalue : 65536 + (55296 + (c.toNat - 65536) / 1024 - 55296) * 1024
          + (56320 + (c.toNat - 65536) % 1024 - 56320) = c.toNat := by omega
      rw [List.cons_append, List.cons_append, List.nil_append, joinSurrogates_pair hpair, hvalue]

theorem hexValue_hexDigit : ∀ n < 16, hexValue (hexDigit n) = some n := by decide

theorem scan_unicode {n : Nat} (h : n < 65536) (cs : List Char) :
    scan (unicodeEscape n ++ cs) = (scan cs).map fun r => (n :: r.1, r.2) := by
  have hunit : hexUnit (hexDigit (n / 4096 % 16)) (hexDigit (n / 256 % 16)) (hexDigit (n / 16 % 16))
      (hexDigit (n % 16)) = some n := by
    simp only [hexUnit, hexValue_hexDigit _ (Nat.mod_lt _ (by decide : 0 < 16)), Option.bind_eq_bind,
      Option.bind_some, Option.pure_def, Option.some.injEq]
    omega
  simp only [unicodeEscape, List.cons_append, List.nil_append, scan, hunit]
  cases scan cs <;> rfl

theorem scan_short {e : Char} {n : Nat} (he : e ≠ 'u') (h : shortEscape e = some n) (cs : List Char) :
    scan ('\\' :: e :: cs) = (scan cs).map fun r => (n :: r.1, r.2) := by
  rw [scan, h]
  · cases scan cs <;> rfl
  · rintro a b c d l rfl
    exact absurd rfl he

theorem scan_plain {c : Char} (h : 32 ≤ c.toNat) (hq : c ≠ '"') (hb : c ≠ '\\') (cs : List Char) :
    scan (c :: cs) = (scan cs).map fun r => (c.toNat :: r.1, r.2) := by
  rw [scan]
  · rw [if_neg]
    rintro (he | hlt)
    · exact hb he
    · omega
  · exact hq
  · intro a b d e l he
    exact absurd he hb
  · intro e l he
    exact absurd he hb

/-- What is written for a character: a short escape, its code units, or the character itself. -/
theorem escapeChar_cases (c : Char) :
    (∃ e, escapeChar true c = ['\\', e] ∧ shortEscape e = some c.toNat ∧ e ≠ 'u' ∧
      c.toNat < 65536 ∧ 32 ≤ e.toNat ∧ e.toNat ≤ 126) ∨
    (escapeChar true c = unicodeEscape c.toNat ∧ c.toNat < 65536) ∨
    (escapeChar true c = unicodeEscape (55296 + (c.toNat - 65536) / 1024) ++
      unicodeEscape (56320 + (c.toNat - 65536) % 1024) ∧ ¬ c.toNat < 65536) ∨
    escapeChar true c = [c] ∧ c ≠ '"' ∧ c ≠ '\\' ∧ 32 ≤ c.toNat ∧ c.toNat ≤ 126 := by
  unfold escapeChar
  dsimp only
  by_cases hquote : c = '"'
  · exact .inl ⟨'"', if_pos hquote, by rw [hquote]; decide, by rw [hquote]; decide⟩
  rw [if_neg hquote]
  by_cases hback : c = '\\'
  · exact .inl ⟨'\\', if_pos hback, by rw [hback]; decide, by rw [hback]; decide⟩
  rw [if_neg hback]
  by_cases hn : c = '\n'
  · exact .inl ⟨'n', if_pos hn, by rw [hn]; decide, by rw [hn]; decide⟩
  rw [if_neg hn]
  by_cases hr : c = '\r'
  · exact .inl ⟨'r', if_pos hr, by rw [hr]; decide, by rw [hr]; decide⟩
  rw [if_neg hr]
  by_cases ht : c = '\t'
  · exact .inl ⟨'t', if_pos ht, by rw [ht]; decide, by rw [ht]; decide⟩
  rw [if_neg ht]
  by_cases hb : c.toNat = 8
  · exact .inl ⟨'b', if_pos hb, by rw [hb]; decide, by rw [hb]; decide⟩
  rw [if_neg hb]
  by_cases hf : c.toNat = 12
  · exact .inl ⟨'f', if_pos hf, by rw [hf]; decide, by rw [hf]; decide⟩
  rw [if_neg hf]
  by_cases hcontrol : c.toNat < 32
  · exact .inr (.inl ⟨if_pos hcontrol, by omega⟩)
  rw [if_neg hcontrol, Bool.true_and]
  by_cases hascii : 126 < c.toNat
  · rw [if_pos (decide_eq_true hascii)]
    by_cases hplane : c.toNat < 65536
    · exact .inr (.inl ⟨if_pos hplane, hplane⟩)
    · exact .inr (.inr (.inl ⟨if_neg hplane, hplane⟩))
  · rw [if_neg (by rw [decide_eq_true_eq]; exact hascii)]
    exact .inr (.inr (.inr ⟨rfl, hquote, hback, by omega, by omega⟩))

theorem scan_escape (c : Char) (cs : List Char) :
    scan (escapeChar true c ++ cs) = (scan cs).map fun r => (units c ++ r.1, r.2) := by
  have hc := char_bounds c
  have hsmall : c.toNat < 65536 → units c = [c.toNat] := fun h => if_pos h
  rcases escapeChar_cases c with ⟨e, he, hshort, hu, hlt, -⟩ | ⟨he, hlt⟩ | ⟨he, hge⟩ |
    ⟨he, hquote, hback, hlow, hhigh⟩
  · rw [he, hsmall hlt]
    exact scan_short hu hshort cs
  · rw [he, hsmall hlt]
    exact scan_unicode hlt cs
  · have hunits : units c = [55296 + (c.toNat - 65536) / 1024, 56320 + (c.toNat - 65536) % 1024] :=
      if_neg hge
    rw [he, List.append_assoc, scan_unicode (by omega), scan_unicode (by omega), hunits,
      Option.map_map]
    rfl
  · rw [he, hsmall (by omega)]
    exact scan_plain hlow hquote hback cs

theorem scan_text (l : List Char) (cs : List Char) :
    scan (l.flatMap (escapeChar true) ++ '"' :: cs) = some (l.flatMap units, cs) := by
  induction l with
  | nil => rw [List.flatMap_nil, List.nil_append, scan, List.flatMap_nil]
  | cons c l ih => rw [List.flatMap_cons, List.append_assoc, scan_escape, ih]; rfl

theorem hexDigit_printable : ∀ n < 16, 32 ≤ (hexDigit n).toNat ∧ (hexDigit n).toNat ≤ 126 := by decide

theorem unicodeEscape_printable (n : Nat) : ∀ d ∈ unicodeEscape n, 32 ≤ d.toNat ∧ d.toNat ≤ 126 := by
  have hdigit : ∀ k, 32 ≤ (hexDigit (k % 16)).toNat ∧ (hexDigit (k % 16)).toNat ≤ 126 := fun k =>
    hexDigit_printable _ (Nat.mod_lt _ (by decide))
  intro d hd
  simp only [unicodeEscape, List.mem_cons, List.not_mem_nil, or_false] at hd
  rcases hd with rfl | rfl | rfl | rfl | rfl | rfl
  · decide
  · decide
  all_goals exact hdigit _

theorem escapeChar_printable (c : Char) :
    ∀ d ∈ escapeChar true c, 32 ≤ d.toNat ∧ d.toNat ≤ 126 := by
  intro d hd
  rcases escapeChar_cases c with ⟨e, he, -, -, -, hprintable⟩ | ⟨he, -⟩ | ⟨he, -⟩ | ⟨he, -, -, hc⟩ <;>
    rw [he] at hd
  · rcases List.mem_cons.mp hd with rfl | hd
    · decide
    · rw [List.mem_singleton.mp hd]
      exact hprintable
  · exact unicodeEscape_printable _ d hd
  · rcases List.mem_append.mp hd with hd | hd
    · exact unicodeEscape_printable _ d hd
    · exact unicodeEscape_printable _ d hd
  · rw [List.mem_singleton.mp hd]
    exact hc

theorem loads_dumps (s : String) : loadsLiteral (renderString true s).toList = some (points s) := by
  have hliteral : (renderString true s).toList
      = '"' :: (s.toList.flatMap (escapeChar true) ++ ['"']) := by
    simp [renderString]
  rw [hliteral, loadsLiteral, scan_text]
  simp only [List.all_nil, if_true, joinSurrogates_units]
  rfl

end JsonText
