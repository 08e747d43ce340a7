import SibylMemory.Library.PyValue
import SibylMemory.Library.Text

/-!
# What the provider takes from outside its repository

SHA-256, `json.loads`, `str` of a value that is not text, and the two Hermes helpers that turn
message content into visible text (`capture.py:44-58`, `runtime.py:70-75`).
Identifiers are hashed from text: `hashlib.sha256(t.encode("utf-8"))` is `sha256 t`,
and joining UTF-8 encodings with a NUL byte is the encoding of the text joined
with U+0000.
-/

namespace SibylMemory

def isHexDigit (c : Char) : Bool :=
  decide ((48 ≤ c.toNat ∧ c.toNat ≤ 57) ∨ (97 ≤ c.toNat ∧ c.toNat ≤ 102))

/-- How `json.loads` fails: a `ValueError` (bad JSON, bad UTF-8, a number too long), or another
exception, by its class name (`RecursionError`). -/
inductive LoadsError where
  | valueError
  | other (name : String)
  deriving DecidableEq

/-- The environment of the provider. A digest is lower-case hexadecimal text. -/
structure Host where
  /-- `hashlib.sha256(text.encode("utf-8")).hexdigest()` -/
  sha256 : String → String
  sha256_hex : ∀ text, ∀ c ∈ (sha256 text).toList, isHexDigit c = true
  sha256_ne_empty : ∀ text, sha256 text ≠ ""
  /-- `str(value)` -/
  str : PyValue → String
  str_str : ∀ text, str (.str text) = text
  /-- `json.loads(body)` -/
  loads : List UInt8 → Except LoadsError PyValue
  /-- `agent.message_content.flatten_message_text` -/
  flattenMessageText : PyValue → String
  /-- `agent.skill_commands.extract_user_instruction_from_skill_message(text) or ""` -/
  extractUserInstruction : String → String

/-- No two texts have the same digest; it is used between texts that one run hashes. -/
def Host.CollisionFree (host : Host) : Prop := Function.Injective host.sha256

/-- `_hash_parts` (`runtime.py:66-67`) and `_delimited_hash` (`capture.py:61-62`) of texts that can be
encoded. -/
def hashParts (host : Host) (parts : List String) : String :=
  host.sha256 (Text.joinWith "\x00" parts)

/-- `bool(value)`. -/
def truthy : PyValue → Bool
  | .none => false
  | .bool b => b
  | .int n => decide (n ≠ 0)
  | .float (.finite r) => decide (r ≠ "0.0" ∧ r ≠ "-0.0")
  | .float _ => true
  | .str s => decide (s ≠ "")
  | .list xs => !xs.isEmpty
  | .tuple xs => !xs.isEmpty
  | .dict es => !es.isEmpty

/-! ### A host to compute with -/

def hexDigit (n : Nat) : Char := Char.ofNat (if n < 10 then 48 + n else 87 + n)

def hexValue (c : Char) : Nat := if c.toNat < 97 then c.toNat - 48 else c.toNat - 87

theorem hexDigit_facts : ∀ n < 16, hexValue (hexDigit n) = n ∧ isHexDigit (hexDigit n) = true := by
  decide

/-- The code point of a character: two hexadecimal digits for an ASCII character, and behind
an `f` six for another. -/
def hexChar (c : Char) : List Char :=
  if c.toNat < 128 then [c.toNat / 16, c.toNat].map fun n => hexDigit (n % 16)
  else 'f' :: [c.toNat / 1048576, c.toNat / 65536, c.toNat / 4096, c.toNat / 256, c.toNat / 16,
    c.toNat].map fun n => hexDigit (n % 16)

theorem hexChar_hex (c : Char) : ∀ d ∈ hexChar c, isHexDigit d = true := by
  have hmap : ∀ (l : List Nat), ∀ d ∈ l.map fun n => hexDigit (n % 16), isHexDigit d = true := by
    intro l d hd
    obtain ⟨n, -, rfl⟩ := List.mem_map.mp hd
    exact (hexDigit_facts _ (Nat.mod_lt _ (by decide))).2
  intro d hd
  unfold hexChar at hd
  split at hd
  · exact hmap _ d hd
  · rcases List.mem_cons.mp hd with rfl | hd
    · decide
    · exact hmap _ d hd

theorem hexChar_append_injective {c d : Char} {l l' : List Char}
    (h : hexChar c ++ l = hexChar d ++ l') : c = d ∧ l = l' := by
  have hv : ∀ n, hexValue (hexDigit (n % 16)) = n % 16 := fun n =>
    (hexDigit_facts _ (Nat.mod_lt _ (by decide))).1
  have hf : hexValue 'f' = 15 := by decide
  have hc : c.toNat < 1114112 := by
    rcases c.valid with hc | hc <;> simp only [Char.toNat, UInt32.toNat] at * <;> omega
  have hd : d.toNat < 1114112 := by
    rcases d.valid with hd | hd <;> simp only [Char.toNat, UInt32.toNat] at * <;> omega
  have hn : c.toNat = d.toNat → l = l' → c = d ∧ l = l' := fun hcd hl =>
    ⟨Char.ext (UInt32.toNat_inj.mp hcd), hl⟩
  unfold hexChar at h
  split at h <;> split at h
  · obtain ⟨hx, hl⟩ := List.append_inj h rfl
    have hx := congrArg (fun l => l.map hexValue) hx
    simp only [List.map_cons, List.map_nil, hv, List.cons.injEq] at hx
    exact hn (by omega) hl
  · have hx := congrArg hexValue (List.cons.inj h).1
    rw [hv, hf] at hx
    omega
  · have hx := congrArg hexValue (List.cons.inj h).1
    rw [hv, hf] at hx
    omega
  · obtain ⟨hx, hl⟩ := List.append_inj h rfl
    have hx := congrArg (fun l => l.map hexValue) hx
    simp only [List.map_cons, List.map_nil, hv, List.cons.injEq] at hx
    exact hn (by omega) hl

theorem flatMap_hexChar_injective {l l' : List Char} (h : l.flatMap hexChar = l'.flatMap hexChar) :
    l = l' := by
  have hne : ∀ c, hexChar c ≠ [] := by
    intro c
    unfold hexChar
    split <;> exact List.cons_ne_nil _ _
  induction l generalizing l' with
  | nil =>
    cases l' with
    | nil => rfl
    | cons d l' => exact absurd (List.append_eq_nil_iff.mp h.symm).1 (hne d)
  | cons c l ih =>
    cases l' with
    | nil => exact absurd (List.append_eq_nil_iff.mp h).1 (hne c)
    | cons d l' =>
      obtain ⟨rfl, hl⟩ := hexChar_append_injective h
      rw [ih hl]

/-- A digest that spells its text out; messages are read as plain text. -/
def Host.plain : Host where
  sha256 text := String.ofList ('0' :: text.toList.flatMap hexChar)
  sha256_hex text c hc := by
    rw [String.toList_ofList, List.mem_cons, List.mem_flatMap] at hc
    rcases hc with rfl | ⟨d, -, hd⟩
    · decide
    · exact hexChar_hex d c hd
  sha256_ne_empty text h := by simpa using congrArg String.toList h
  str v := match v with
    | .str s => s
    | _ => "?"
  str_str _ := rfl
  loads _ := .error .valueError
  flattenMessageText v := match v with
    | .str s => s
    | _ => ""
  extractUserInstruction text := text

theorem plain_collisionFree : Host.plain.CollisionFree := by
  intro a b h
  have hl : '0' :: a.toList.flatMap hexChar = '0' :: b.toList.flatMap hexChar := by
    simpa [Host.plain] using congrArg String.toList h
  exact String.toList_inj.mp (flatMap_hexChar_injective (List.cons.inj hl).2)

end SibylMemory
