import Mathlib.Data.List.TakeWhile

/-!
# Splitting a URL

`urlsplit` of `urllib.parse` on lists of characters: leading control characters and spaces go,
tabs and line ends go everywhere, then scheme, authority, fragment and query are split off in
this order. `check` says which authorities do not raise a `ValueError`.
-/

namespace UrlSplit

def isC0OrSpace (c : Char) : Bool := decide (c.toNat ≤ 32)

/-- Removed from a URL wherever they stand. -/
def isUnsafe (c : Char) : Bool := decide (c = '\t' ∨ c = '\r' ∨ c = '\n')

def clean (url : List Char) : List Char := (url.dropWhile isC0OrSpace).filter fun c => !isUnsafe c

def lowerChar (c : Char) : Char :=
  if 65 ≤ c.toNat ∧ c.toNat ≤ 90 then Char.ofNat (c.toNat + 32) else c

/-- `str.lower` as far as ASCII goes. -/
def lower (l : List Char) : List Char := l.map lowerChar

def isSchemeChar (c : Char) : Bool :=
  decide (c.isAlphanum = true ∨ c = '+' ∨ c = '-' ∨ c = '.')

/-- A text before and behind the first `c`. -/
def cut (c : Char) (l : List Char) : List Char × List Char :=
  (l.takeWhile (· ≠ c), (l.dropWhile (· ≠ c)).drop 1)

def splitScheme (l : List Char) : List Char × List Char :=
  let pre := (cut ':' l).1
  if ':' ∈ l ∧ (pre.head?.any Char.isAlpha) = true ∧ pre.all isSchemeChar = true then
    (lower pre, (cut ':' l).2)
  else ([], l)

def isDelimiter (c : Char) : Bool := decide (c = '/' ∨ c = '?' ∨ c = '#')

def splitNetloc : List Char → List Char × List Char
  | '/' :: '/' :: rest =>
    (rest.takeWhile (fun c => !isDelimiter c), rest.dropWhile fun c => !isDelimiter c)
  | l => ([], l)

structure SplitUrl where
  scheme : List Char
  netloc : List Char
  path : List Char
  query : List Char
  fragment : List Char

def urlsplit (check : List Char → Bool) (url : List Char) : Option SplitUrl :=
  let (scheme, rest) := splitScheme (clean url)
  let (netloc, rest) := splitNetloc rest
  if check netloc = true then
    let (rest, fragment) := cut '#' rest
    let (path, query) := cut '?' rest
    some { scheme, netloc, path, query, fragment }
  else none

/-! ### The parts of an authority -/

def afterLast (c : Char) (l : List Char) : List Char := (l.reverse.takeWhile (· ≠ c)).reverse

def beforeLast (c : Char) (l : List Char) : List Char :=
  ((l.reverse.dropWhile (· ≠ c)).drop 1).reverse

def username (netloc : List Char) : Option (List Char) :=
  if '@' ∈ netloc then some (cut ':' (beforeLast '@' netloc)).1 else none

def password (netloc : List Char) : Option (List Char) :=
  let userinfo := beforeLast '@' netloc
  if '@' ∈ netloc ∧ ':' ∈ userinfo then some (cut ':' userinfo).2 else none

/-- Lower case but for the zone of an address; empty when there is none. -/
def hostname (netloc : List Char) : List Char :=
  let hostinfo := afterLast '@' netloc
  let host := if '[' ∈ hostinfo then (cut ']' (cut '[' hostinfo).2).1 else (cut ':' hostinfo).1
  lower (host.takeWhile (· ≠ '%')) ++ host.dropWhile (· ≠ '%')

/-! ### URLs without query and fragment -/

section Cut
variable {c : Char} {l : List Char}

theorem cut_of_notMem (h : c ∉ l) : cut c l = (l, []) := by
  have hall : ∀ x ∈ l, decide (x ≠ c) = true := by
    rintro x hx
    rw [decide_eq_true_eq]
    rintro rfl
    exact h hx
  have htake : l.takeWhile (· ≠ c) = l := List.takeWhile_eq_self_iff.mpr hall
  have hdrop : l.dropWhile (· ≠ c) = [] := List.dropWhile_eq_nil_iff.mpr hall
  rw [cut, htake, hdrop]
  rfl

theorem cut_append {a b : List Char} (h : c ∉ a) : cut c (a ++ c :: b) = (a, b) := by
  have hall : ∀ x ∈ a, decide (x ≠ c) = true := by
    rintro x hx
    rw [decide_eq_true_eq]
    rintro rfl
    exact h hx
  rw [cut, List.takeWhile_append_of_pos hall, List.dropWhile_append_of_pos hall]
  simp

theorem exists_cut (h : c ∈ l) : ∃ a b, l = a ++ c :: b ∧ c ∉ a := by
  induction l with
  | nil => cases h
  | cons x l ih =>
    by_cases hx : x = c
    · exact ⟨[], l, by rw [hx]; rfl, by simp⟩
    · rcases List.mem_cons.mp h with he | h
      · exact absurd he.symm hx
      · obtain ⟨a, b, rfl, ha⟩ := ih h
        refine ⟨x :: a, b, rfl, ?_⟩
        rw [List.mem_cons, not_or]
        exact ⟨Ne.symm hx, ha⟩

end Cut

/-! ### Suffixes -/

section Last
variable {c : Char} {l m s : List Char}

theorem notMem_afterLast : c ∉ afterLast c l := by
  intro h
  have hne := List.mem_takeWhile_imp (List.mem_reverse.mp h)
  simp at hne

theorem afterLast_append (h : c ∉ s) : afterLast c (m ++ c :: s) = s := by
  have hall : ∀ x ∈ s.reverse, decide (x ≠ c) = true := by
    rintro x hx
    rw [decide_eq_true_eq]
    rintro rfl
    exact h (List.mem_reverse.mp hx)
  have hrev : (m ++ c :: s).reverse = s.reverse ++ c :: m.reverse := by simp
  rw [afterLast, hrev, List.takeWhile_append_of_pos hall]
  simp

theorem exists_afterLast (h : c ∈ l) : ∃ m, l = m ++ c :: afterLast c l := by
  obtain ⟨a, b, hab, ha⟩ := exists_cut (List.mem_reverse.mpr h)
  have hl : l = b.reverse ++ c :: a.reverse := by
    rw [← List.reverse_reverse l, hab]
    simp
  have hlast : afterLast c l = a.reverse := by
    rw [hl, afterLast_append]
    simpa using ha
  exact ⟨b.reverse, by rw [hlast]; exact hl⟩

/-- What is removed from a URL stands before its last segment when there is none in it. -/
theorem exists_clean (h : ∀ c ∈ s, isUnsafe c = false) : ∃ m', clean (m ++ '/' :: s) = m' ++ '/' :: s := by
  have hfilter : ('/' :: s).filter (fun c => !isUnsafe c) = '/' :: s := by
    refine List.filter_eq_self.mpr fun c hc => ?_
    rcases List.mem_cons.mp hc with rfl | hc
    · decide
    · rw [h c hc]
      rfl
  rw [clean, List.dropWhile_append]
  split
  · refine ⟨[], ?_⟩
    rw [List.dropWhile_cons_of_neg (by decide), hfilter, List.nil_append]
  · exact ⟨_, by rw [List.filter_append, hfilter]⟩

end Last

theorem mem_of_mem_clean {c : Char} {url : List Char} (h : c ∈ clean url) : c ∈ url :=
  (List.dropWhile_suffix _).subset (List.mem_filter.mp h).1

theorem clean_append {url suffix : List Char} (h : clean url ≠ [])
    (hsuffix : ∀ c ∈ suffix, isUnsafe c = false) : clean (url ++ suffix) = clean url ++ suffix := by
  have hdrop : (url.dropWhile isC0OrSpace).isEmpty = false := by
    cases hd : url.dropWhile isC0OrSpace with
    | nil =>
      rw [clean, hd] at h
      exact absurd rfl h
    | cons c l => rfl
  have hkeep : suffix.filter (fun c => !isUnsafe c) = suffix :=
    List.filter_eq_self.mpr fun c hc => by simp [hsuffix c hc]
  rw [clean, List.dropWhile_append, hdrop, if_neg (by decide), List.filter_append, hkeep, clean]

/-- A cleaned URL with a scheme and an authority: `rest` is empty or begins with a delimiter. -/
structure Authority (check : List Char → Bool) (l pre netloc rest : List Char) : Prop where
  eq : l = pre ++ ':' :: '/' :: '/' :: (netloc ++ rest)
  colon : ':' ∉ pre
  alpha : (pre.head?.any Char.isAlpha) = true
  chars : pre.all isSchemeChar = true
  inside : ∀ c ∈ netloc, isDelimiter c = false
  behind : ∀ c ∈ rest.head?, isDelimiter c = true
  checked : check netloc = true

/-- The parts of such a URL. -/
def assemble (pre netloc rest : List Char) : SplitUrl where
  scheme := lower pre
  netloc := netloc
  path := (cut '?' (cut '#' rest).1).1
  query := (cut '?' (cut '#' rest).1).2
  fragment := (cut '#' rest).2

section Authority
variable {check : List Char → Bool} {url pre netloc rest : List Char}

theorem splitScheme_some {l scheme tail : List Char} (h : splitScheme l = (scheme, tail))
    (hne : scheme ≠ []) : ∃ pre, l = pre ++ ':' :: tail ∧ ':' ∉ pre ∧
      (pre.head?.any Char.isAlpha) = true ∧ pre.all isSchemeChar = true ∧ scheme = lower pre := by
  unfold splitScheme at h
  dsimp only at h
  split at h
  · rename_i hcond
    obtain ⟨hmem, halpha, hchars⟩ := hcond
    obtain ⟨a, b, rfl, ha⟩ := exists_cut hmem
    rw [cut_append ha] at h halpha hchars
    cases h
    exact ⟨a, rfl, ha, halpha, hchars, rfl⟩
  · cases h
    exact absurd rfl hne

theorem splitNetloc_some {l netloc tail : List Char} (h : splitNetloc l = (netloc, tail))
    (hne : netloc ≠ []) : l = '/' :: '/' :: (netloc ++ tail) ∧
      (∀ c ∈ netloc, isDelimiter c = false) ∧ ∀ c ∈ tail.head?, isDelimiter c = true := by
  unfold splitNetloc at h
  split at h
  · rename_i rest
    cases h
    refine ⟨by rw [List.takeWhile_append_dropWhile], fun c hc => ?_, fun c hc => ?_⟩
    · simpa using List.mem_takeWhile_imp hc
    · have hhead := List.head?_dropWhile_not (fun c => !isDelimiter c) rest
      rw [hc] at hhead
      simpa using hhead
  · cases h
    exact absurd rfl hne

theorem urlsplit_authority {r : SplitUrl} (h : urlsplit check url = some r) (hscheme : r.scheme ≠ [])
    (hnetloc : r.netloc ≠ []) :
    ∃ pre rest, Authority check (clean url) pre r.netloc rest ∧ r = assemble pre r.netloc rest := by
  unfold urlsplit at h
  cases hs : splitScheme (clean url) with
  | mk scheme tail =>
    cases hn : splitNetloc tail with
    | mk netloc rest =>
      simp only [hs, hn] at h
      split at h
      · rename_i hcheck
        cases h
        obtain ⟨pre, hclean, hcolon, halpha, hchars, rfl⟩ := splitScheme_some hs hscheme
        obtain ⟨rfl, hin, hbehind⟩ := splitNetloc_some hn hnetloc
        exact ⟨pre, rest, ⟨hclean, hcolon, halpha, hchars, hin, hbehind, hcheck⟩, rfl⟩
      · cases h

theorem Authority.urlsplit_eq (h : Authority check (clean url) pre netloc rest) :
    urlsplit check url = some (assemble pre netloc rest) := by
  have hmem : ':' ∈ clean url := by
    rw [h.eq]
    simp
  have hcut : cut ':' (clean url) = (pre, '/' :: '/' :: (netloc ++ rest)) := by
    rw [h.eq, cut_append h.colon]
  have hscheme : splitScheme (clean url) = (lower pre, '/' :: '/' :: (netloc ++ rest)) := by
    unfold splitScheme
    rw [hcut]
    exact if_pos ⟨hmem, h.alpha, h.chars⟩
  have hin : ∀ c ∈ netloc, (!isDelimiter c) = true := fun c hc => by simp [h.inside c hc]
  have hbehind : rest.takeWhile (fun c => !isDelimiter c) = [] ∧
      rest.dropWhile (fun c => !isDelimiter c) = rest := by
    cases rest with
    | nil => exact ⟨rfl, rfl⟩
    | cons c rest =>
      have hc := h.behind c rfl
      exact ⟨List.takeWhile_cons_of_neg (by simp [hc]), List.dropWhile_cons_of_neg (by simp [hc])⟩
  have hnetloc : splitNetloc ('/' :: '/' :: (netloc ++ rest)) = (netloc, rest) := by
    rw [splitNetloc, List.takeWhile_append_of_pos hin, List.dropWhile_append_of_pos hin, hbehind.1,
      hbehind.2, List.append_nil]
  unfold urlsplit
  simp only [hscheme, hnetloc, h.checked, if_true]
  rfl

theorem Authority.mem_url (h : Authority check (clean url) pre netloc rest) {c : Char}
    (hc : c ∈ rest) : c ∈ url := by
  apply mem_of_mem_clean
  rw [h.eq]
  simp [hc]

/-- Without the two delimiters all that follows the authority is the path. -/
theorem assemble_plain (hquery : '?' ∉ rest) (hfragment : '#' ∉ rest) :
    assemble pre netloc rest = ⟨lower pre, netloc, rest, [], []⟩ := by
  rw [assemble, cut_of_notMem hfragment, cut_of_notMem hquery]

/-- A suffix without delimiters is appended to a path that is not empty. -/
theorem Authority.append (h : Authority check (clean url) pre netloc rest) (hrest : rest ≠ [])
    {suffix : List Char} (hsuffix : ∀ c ∈ suffix, isUnsafe c = false) :
    Authority check (clean (url ++ suffix)) pre netloc (rest ++ suffix) where
  eq := by
    have hne : clean url ≠ [] := by
      rw [h.eq]
      simp
    rw [clean_append hne hsuffix, h.eq]
    simp
  colon := h.colon
  alpha := h.alpha
  chars := h.chars
  inside := h.inside
  behind c hc := by
    cases rest with
    | nil => exact absurd rfl hrest
    | cons d rest => exact h.behind c hc
  checked := h.checked

end Authority

end UrlSplit
