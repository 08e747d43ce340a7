import Mathlib.Data.List.Sort

/-!
# Python values that `json.dumps` accepts, and their canonical text

`canonical` is what survives a round trip through
`json.dumps(…, sort_keys=True, allow_nan=False)`: tuples come back as lists,
mappings with their keys sorted, and a float that is not finite is refused.
`render` is the compact text (`separators=(",", ":")`) of a value.
-/

/-- A float by what `json.dumps` prints for it. -/
inductive PyFloat where
  | finite (repr : String)
  | nan
  | inf
  | negInf
  deriving DecidableEq

inductive PyValue where
  | none
  | bool (b : Bool)
  | int (n : Int)
  | float (x : PyFloat)
  | str (s : String)
  | list (xs : List PyValue)
  | tuple (xs : List PyValue)
  | dict (entries : List (String × PyValue))

namespace PyValue

/-! ### Mappings -/

def lookup (key : String) : List (String × PyValue) → Option PyValue
  | [] => Option.none
  | (k, v) :: es => if k = key then some v else lookup key es

/-- `entries[key] = value`: in place when the key is there, else at the end. -/
def assign (key : String) (value : PyValue) : List (String × PyValue) → List (String × PyValue)
  | [] => [(key, value)]
  | (k, v) :: es => if k = key then (k, value) :: es else (k, v) :: assign key value es

theorem lookup_assign (key : String) (value : PyValue) (es : List (String × PyValue))
    (k : String) : lookup k (assign key value es) = if k = key then some value else lookup k es := by
  induction es with
  | nil =>
    by_cases h : k = key
    · simp [assign, lookup, h]
    · have h' : key ≠ k := fun he => h he.symm
      simp [assign, lookup, h, h']
  | cons e es ih =>
    obtain ⟨k', v⟩ := e
    by_cases hk : k' = key
    · subst hk
      by_cases h : k = k'
      · simp [assign, lookup, h]
      · have h' : k' ≠ k := fun he => h he.symm
        simp [assign, lookup, h, h']
    · by_cases h : k' = k
      · subst h
        simp [assign, lookup, hk]
      · simp [assign, lookup, hk, h, ih]

def keyLe (a b : String × PyValue) : Bool := decide (a.1 ≤ b.1)

/-- The items in the order `sort_keys=True` gives them. -/
def sortEntries (es : List (String × PyValue)) : List (String × PyValue) :=
  es.insertionSort fun a b => keyLe a b = true

theorem lookup_orderedInsert (e : String × PyValue) (es : List (String × PyValue)) (k : String) :
    lookup k (es.orderedInsert (fun a b => keyLe a b = true) e)
      = if k = e.1 then some e.2 else lookup k es := by
  induction es with
  | nil =>
    by_cases h : k = e.1
    · simp [lookup, h]
    · have h' : e.1 ≠ k := fun he => h he.symm
      simp [lookup, h, h']
  | cons b es ih =>
    rw [List.orderedInsert_cons]
    split
    · by_cases h : k = e.1
      · simp [lookup, h]
      · have h' : e.1 ≠ k := fun he => h he.symm
        simp [lookup, h, h']
    · rename_i hle
      -- an entry skipped on the way has a smaller key, so it does not shadow the new one
      have hne : b.1 ≠ e.1 := by
        intro he
        apply hle
        simp [keyLe, he]
      by_cases hb : b.1 = k
      · subst hb
        simp [lookup, hne]
      · simp [lookup, hb, ih]

theorem lookup_sortEntries (es : List (String × PyValue)) (k : String) :
    lookup k (sortEntries es) = lookup k es := by
  induction es with
  | nil => rfl
  | cons e es ih =>
    have hs : sortEntries (e :: es) = (sortEntries es).orderedInsert (fun a b => keyLe a b = true) e := rfl
    rw [hs, lookup_orderedInsert, ih]
    by_cases h : k = e.1
    · simp [lookup, h]
    · have h' : e.1 ≠ k := fun he => h he.symm
      simp [lookup, h, h']

theorem keyLe_total : ∀ a b : String × PyValue, keyLe a b = true ∨ keyLe b a = true := by
  intro a b
  simpa [keyLe] using String.le_total a.1 b.1

theorem keyLe_trans : ∀ a b c : String × PyValue,
    keyLe a b = true → keyLe b c = true → keyLe a c = true := by
  intro a b c hab hbc
  simp only [keyLe, decide_eq_true_eq] at *
  exact String.le_trans hab hbc

theorem sortEntries_idem (es : List (String × PyValue)) :
    sortEntries (sortEntries es) = sortEntries es := by
  have : Std.Total fun a b : String × PyValue => keyLe a b = true := ⟨keyLe_total⟩
  have : IsTrans (String × PyValue) fun a b => keyLe a b = true := ⟨keyLe_trans⟩
  exact (List.pairwise_insertionSort _ es).insertionSort_eq

theorem mem_sortEntries {e : String × PyValue} {es : List (String × PyValue)} :
    e ∈ sortEntries es ↔ e ∈ es := List.mem_insertionSort _

/-! ### Canonical values -/

mutual
/-- The value read back after `json.dumps(v, sort_keys=True, allow_nan=False)`. -/
def canonical : PyValue → Option PyValue
  | .none => some .none
  | .bool b => some (.bool b)
  | .int n => some (.int n)
  | .float (.finite r) => some (.float (.finite r))
  | .float _ => Option.none
  | .str s => some (.str s)
  | .list xs => (canonicalList xs).map .list
  | .tuple xs => (canonicalList xs).map .list
  | .dict es => (canonicalEntries es).map fun es => .dict (sortEntries es)

def canonicalList : List PyValue → Option (List PyValue)
  | [] => some []
  | x :: xs => do
    let x ← canonical x
    let xs ← canonicalList xs
    some (x :: xs)

def canonicalEntries : List (String × PyValue) → Option (List (String × PyValue))
  | [] => some []
  | (k, x) :: es => do
    let x ← canonical x
    let es ← canonicalEntries es
    some ((k, x) :: es)
end

theorem canonicalList_isSome {xs : List PyValue} (h : ∀ x ∈ xs, x.canonical.isSome) :
    (canonicalList xs).isSome := by
  induction xs with
  | nil => rfl
  | cons x xs ih =>
    obtain ⟨y, hy⟩ := Option.isSome_iff_exists.mp (h x List.mem_cons_self)
    obtain ⟨ys, hys⟩ := Option.isSome_iff_exists.mp
      (ih fun z hz => h z (List.mem_cons_of_mem _ hz))
    simp [canonicalList, hy, hys]

theorem canonicalEntries_isSome {es : List (String × PyValue)} (h : ∀ e ∈ es, e.2.canonical.isSome) :
    (canonicalEntries es).isSome := by
  induction es with
  | nil => rfl
  | cons e es ih =>
    obtain ⟨key, value⟩ := e
    obtain ⟨y, hy⟩ := Option.isSome_iff_exists.mp (h _ List.mem_cons_self)
    obtain ⟨ys, hys⟩ := Option.isSome_iff_exists.mp
      (ih fun z hz => h z (List.mem_cons_of_mem _ hz))
    simp [canonicalEntries, hy, hys]

theorem canonicalEntries_of_fixed {es : List (String × PyValue)}
    (h : ∀ e ∈ es, canonical e.2 = some e.2) : canonicalEntries es = some es := by
  induction es with
  | nil => rfl
  | cons e es ih =>
    obtain ⟨k, v⟩ := e
    have hv : canonical v = some v := h _ List.mem_cons_self
    have hes := ih fun e he => h e (List.mem_cons_of_mem _ he)
    simp [canonicalEntries, hv, hes]

mutual
theorem canonical_idem : ∀ (v : PyValue) {w : PyValue}, canonical v = some w → canonical w = some w
  | .none, _, h => by cases h; rfl
  | .bool b, _, h => by cases h; rfl
  | .int n, _, h => by cases h; rfl
  | .float (.finite r), _, h => by cases h; rfl
  | .float .nan, _, h => by cases h
  | .float .inf, _, h => by cases h
  | .float .negInf, _, h => by cases h
  | .str s, _, h => by cases h; rfl
  | .list xs, _, h => by
    obtain ⟨ys, hys, rfl⟩ := Option.map_eq_some_iff.mp h
    simp [canonical, canonicalList_idem xs hys]
  | .tuple xs, _, h => by
    obtain ⟨ys, hys, rfl⟩ := Option.map_eq_some_iff.mp h
    simp [canonical, canonicalList_idem xs hys]
  | .dict es, _, h => by
    obtain ⟨es', hes, rfl⟩ := Option.map_eq_some_iff.mp h
    have hfixed : canonicalEntries (sortEntries es') = some (sortEntries es') :=
      canonicalEntries_of_fixed fun e he => canonicalEntries_fixed es hes e (mem_sortEntries.mp he)
    simp [canonical, hfixed, sortEntries_idem]

theorem canonicalList_idem : ∀ (xs : List PyValue) {ys : List PyValue},
    canonicalList xs = some ys → canonicalList ys = some ys
  | [], _, h => by cases h; rfl
  | x :: xs, _, h => by
    simp only [canonicalList, Option.bind_eq_bind, Option.bind_eq_some_iff, Option.some.injEq] at h
    obtain ⟨y, hy, ys, hys, rfl⟩ := h
    simp [canonicalList, canonical_idem x hy, canonicalList_idem xs hys]

theorem canonicalEntries_fixed : ∀ (es : List (String × PyValue)) {es' : List (String × PyValue)},
    canonicalEntries es = some es' → ∀ e ∈ es', canonical e.2 = some e.2
  | [], _, h => by cases h; intro e he; cases he
  | (k, x) :: es, _, h => by
    simp only [canonicalEntries, Option.bind_eq_bind, Option.bind_eq_some_iff, Option.some.injEq] at h
    obtain ⟨y, hy, es', hes, rfl⟩ := h
    intro e he
    rcases List.mem_cons.mp he with rfl | he
    · exact canonical_idem x hy
    · exact canonicalEntries_fixed es hes e he
end

theorem lookup_canonicalEntries {es es' : List (String × PyValue)}
    (h : canonicalEntries es = some es') (key : String) :
    lookup key es' = (lookup key es).bind canonical := by
  induction es generalizing es' with
  | nil => cases h; rfl
  | cons e es ih =>
    obtain ⟨k, x⟩ := e
    simp only [canonicalEntries, Option.bind_eq_bind, Option.bind_eq_some_iff, Option.some.injEq] at h
    obtain ⟨y, hy, es', hes, rfl⟩ := h
    rw [lookup, lookup]
    split
    · exact hy.symm
    · exact ih hes

theorem lookup_canonicalEntries_some {es es' : List (String × PyValue)}
    (h : canonicalEntries es = some es') {key : String} {v : PyValue} (hv : lookup key es = some v) :
    ∃ w, canonical v = some w ∧ lookup key es' = some w := by
  induction es generalizing es' with
  | nil => cases hv
  | cons e es ih =>
    obtain ⟨k, x⟩ := e
    simp only [canonicalEntries, Option.bind_eq_bind, Option.bind_eq_some_iff, Option.some.injEq] at h
    obtain ⟨y, hy, es', hes, rfl⟩ := h
    rw [lookup] at hv ⊢
    split at hv
    · rename_i hk
      cases hv
      exact ⟨y, hy, if_pos hk⟩
    · rename_i hk
      rw [if_neg hk]
      exact ih hes hv

theorem canonical_dict_shape {es : List (String × PyValue)} {v : PyValue}
    (h : (PyValue.dict es).canonical = some v) : ∃ es', v = .dict es' := by
  obtain ⟨ces, -, rfl⟩ := Option.map_eq_some_iff.mp h
  exact ⟨_, rfl⟩

theorem canonical_dict {es es' : List (String × PyValue)}
    (h : (PyValue.dict es).canonical = some (.dict es')) (key : String) :
    lookup key es' = (lookup key es).bind canonical := by
  obtain ⟨ces, hces, he⟩ := Option.map_eq_some_iff.mp h
  cases he
  rw [lookup_sortEntries, lookup_canonicalEntries hces]

theorem canonical_dict_some {es es' : List (String × PyValue)}
    (h : (PyValue.dict es).canonical = some (.dict es')) {key : String} {v : PyValue}
    (hv : lookup key es = some v) : ∃ w, canonical v = some w ∧ lookup key es' = some w := by
  obtain ⟨ces, hces, he⟩ := Option.map_eq_some_iff.mp h
  cases he
  rw [lookup_sortEntries]
  exact lookup_canonicalEntries_some hces hv

theorem lookup_fixed {es : List (String × PyValue)}
    (h : (PyValue.dict es).canonical = some (.dict es)) {key : String} {v : PyValue}
    (hv : lookup key es = some v) : canonical v = some v := by
  have hl := canonical_dict h key
  rw [hv] at hl
  exact hl.symm

theorem canonical_eq_none {v : PyValue} (h : canonical v = some .none) : v = .none := by
  unfold canonical at h
  split at h
  · rfl
  all_goals first | cases h | (obtain ⟨x, -, hx⟩ := Option.map_eq_some_iff.mp h; cases hx)

/-! ### Text -/

def hexDigit (n : Nat) : Char := if n < 10 then Char.ofNat (48 + n) else Char.ofNat (87 + n)

/-- `\uXXXX` for one UTF-16 code unit. -/
def unicodeEscape (n : Nat) : List Char :=
  ['\\', 'u', hexDigit (n / 4096 % 16), hexDigit (n / 256 % 16), hexDigit (n / 16 % 16),
    hexDigit (n % 16)]

/-- One character inside a JSON string; beyond the short escapes, `ensure_ascii`
escapes everything outside the printable ASCII range, as surrogate pairs above the
basic plane. -/
def escapeChar (ensureAscii : Bool) (c : Char) : List Char :=
  let n := c.toNat
  if c = '"' then ['\\', '"']
  else if c = '\\' then ['\\', '\\']
  else if c = '\n' then ['\\', 'n']
  else if c = '\r' then ['\\', 'r']
  else if c = '\t' then ['\\', 't']
  else if n = 8 then ['\\', 'b']
  else if n = 12 then ['\\', 'f']
  else if n < 32 then unicodeEscape n
  else if ensureAscii && decide (126 < n) then
    if n < 65536 then unicodeEscape n
    else unicodeEscape (55296 + (n - 65536) / 1024) ++ unicodeEscape (56320 + (n - 65536) % 1024)
  else [c]

def renderString (ensureAscii : Bool) (s : String) : String :=
  "\"" ++ String.ofList (s.toList.flatMap (escapeChar ensureAscii)) ++ "\""

def renderFloat : PyFloat → String
  | .finite r => r
  | .nan => "NaN"
  | .inf => "Infinity"
  | .negInf => "-Infinity"

mutual
/-- Compact `json.dumps` of a value, mappings in the order they hold their items. -/
def render (ensureAscii : Bool) : PyValue → String
  | .none => "null"
  | .bool true => "true"
  | .bool false => "false"
  | .int n => toString n
  | .float x => renderFloat x
  | .str s => renderString ensureAscii s
  | .list xs => "[" ++ renderItems ensureAscii xs ++ "]"
  | .tuple xs => "[" ++ renderItems ensureAscii xs ++ "]"
  | .dict es => "\x7b" ++ renderEntries ensureAscii es ++ "\x7d"

def renderItems (ensureAscii : Bool) : List PyValue → String
  | [] => ""
  | [x] => render ensureAscii x
  | x :: y :: xs => render ensureAscii x ++ "," ++ renderItems ensureAscii (y :: xs)

def renderEntries (ensureAscii : Bool) : List (String × PyValue) → String
  | [] => ""
  | [(k, x)] => renderString ensureAscii k ++ ":" ++ render ensureAscii x
  | (k, x) :: e :: es =>
    renderString ensureAscii k ++ ":" ++ render ensureAscii x ++ "," ++ renderEntries ensureAscii (e :: es)
end

example : (canonical (.dict [("b", .tuple [.int 1]), ("a", .str "x\n")])).map (render true)
    = some "\x7b\"a\":\"x\\n\",\"b\":[1]\x7d" := by decide

end PyValue
