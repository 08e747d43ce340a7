import SibylMemory.Library.JsonText

/-!
# Texts without an encoding

A text of Python is a list of code points, and UTF-8 encodes it unless it holds a lone surrogate.
`encode` gives the text that a sequence of code points is, and `readAs` any such sequence with a
character in the place of each surrogate.
-/

namespace Encoding
open JsonText (CodePoints points char_bounds)

def isScalar (n : Nat) : Bool := decide (n < 55296 ∨ 57343 < n ∧ n < 1114112)

def charAs (mark : Char) (n : Nat) : Char := if isScalar n then Char.ofNat n else mark

def readAs (mark : Char) (text : CodePoints) : String := String.ofList (text.map (charAs mark))

/-- `text.encode("utf-8")` as the text that it encodes; `none` is a `UnicodeEncodeError`. -/
def encode (text : CodePoints) : Option String :=
  if text.all isScalar then some (readAs ' ' text) else none

theorem isScalar_toNat (c : Char) : isScalar c.toNat = true := decide_eq_true (char_bounds c)

theorem charAs_toNat (mark c : Char) : charAs mark c.toNat = c := by
  rw [charAs, if_pos (isScalar_toNat c), Char.ofNat_toNat]

theorem toNat_charAs (mark : Char) {n : Nat} (h : isScalar n = true) : (charAs mark n).toNat = n := by
  have hv : n.isValidChar := of_decide_eq_true h
  rw [charAs, if_pos h, Char.ofNat, dif_pos hv]
  rfl

@[simp] theorem readAs_points (mark : Char) (s : String) : readAs mark (points s) = s := by
  have hchars : charAs mark ∘ Char.toNat = id := funext fun c => charAs_toNat mark c
  rw [readAs, points, List.map_map, hchars, List.map_id, String.ofList_toList]

/-- Only the text itself encodes to `s`. -/
theorem encode_eq_some_iff {text : CodePoints} {s : String} :
    encode text = some s ↔ text = points s := by
  constructor
  · intro h
    unfold encode at h
    split at h
    · rename_i hscalar
      cases h
      rw [points, readAs, String.toList_ofList, List.map_map]
      refine (List.map_id text).symm.trans (List.map_congr_left fun n hn => ?_)
      exact (toNat_charAs ' ' (List.all_eq_true.mp hscalar n hn)).symm
    · cases h
  · rintro rfl
    have hscalar : (points s).all isScalar = true := by
      simp only [points, List.all_map, List.all_eq_true]
      exact fun c _ => isScalar_toNat c
    rw [encode, if_pos hscalar, readAs_points]

@[simp] theorem encode_points (s : String) : encode (points s) = some s := encode_eq_some_iff.mpr rfl

def encodeAll (texts : List CodePoints) : Option (List String) := texts.mapM encode

@[simp] theorem encodeAll_points (texts : List String) : encodeAll (texts.map points) = some texts := by
  induction texts with
  | nil => rfl
  | cons s texts ih =>
    rw [encodeAll] at ih ⊢
    simp [ih]

end Encoding
