import SibylMemory.Identifiers

/-!
# Which turns share an identity (`capture.py:25-26`, `61-118`)

Texts are joined with a NUL before they are hashed, and a NUL inside a text is not escaped. Two
pairs of texts have one joined text exactly when they are equal or differ by what stands before
the NUL that separates them.
-/

namespace SibylMemory
open Text

/-- Of two pairs, one has a longer first text: it goes on across a NUL to a NUL in the second text
of the other. -/
def Shifted (p q : String × String) : Prop :=
  ∃ w, (q.1 = p.1 ++ "\x00" ++ w ∧ p.2 = w ++ "\x00" ++ q.2) ∨
    (p.1 = q.1 ++ "\x00" ++ w ∧ q.2 = w ++ "\x00" ++ p.2)

theorem joined_eq_iff (p q : String × String) :
    p.1 ++ "\x00" ++ p.2 = q.1 ++ "\x00" ++ q.2 ↔ p = q ∨ Shifted p q := by
  unfold Shifted
  rw [nul_eq, append_sep_eq_iff, Prod.ext_iff]

theorem Shifted.ne {p q : String × String} (h : Shifted p q) : p ≠ q := by
  rintro rfl
  obtain ⟨w, ⟨hw, -⟩ | ⟨hw, -⟩⟩ := h
  all_goals
    have hlen := congrArg (fun s => s.toList.length) hw
    simp only [nul_eq, String.toList_append, String.toList_ofList, List.length_append,
      List.length_singleton] at hlen
    omega

instance (p q : String × String) : Decidable (Shifted p q) :=
  decidable_of_iff (p.1 ++ "\x00" ++ p.2 = q.1 ++ "\x00" ++ q.2 ∧ p ≠ q)
    ⟨fun h => ((joined_eq_iff p q).mp h.1).resolve_left h.2,
      fun h => ⟨(joined_eq_iff p q).mpr (.inr h), h.ne⟩⟩

/-- The arguments of `derive_turn_identity`. -/
structure TurnArguments where
  agentId : String
  sessionId : String
  localSequence : Nat
  turnNumber : Option Int
  userContent : String
  assistantContent : String

namespace TurnArguments

def identity (host : Host) (x : TurnArguments) : Except String TurnIdentity :=
  deriveTurnIdentity host x.agentId x.sessionId x.localSequence x.turnNumber x.userContent
    x.assistantContent

def effectiveTurn (x : TurnArguments) : Int := x.turnNumber.getD x.localSequence

def place (x : TurnArguments) : String × String := (x.agentId, x.sessionId)

def contents (x : TurnArguments) : String × String := (x.userContent, x.assistantContent)

end TurnArguments

structure SameTurn (x y : TurnArguments) : Prop where
  agent : x.agentId = y.agentId
  session : x.sessionId = y.sessionId
  sequence : x.localSequence = y.localSequence
  turn : x.effectiveTurn = y.effectiveTurn
  user : x.userContent = y.userContent
  assistant : x.assistantContent = y.assistantContent

/-- Two calls with equal numbers, whose ids or whose contents are shifted across a NUL while the
others are shifted too or equal. -/
structure Ambiguous (x y : TurnArguments) : Prop where
  sequence : x.localSequence = y.localSequence
  turn : x.effectiveTurn = y.effectiveTurn
  places : x.place = y.place ∨ Shifted x.place y.place
  contents : x.contents = y.contents ∨ Shifted x.contents y.contents
  shifted : Shifted x.place y.place ∨ Shifted x.contents y.contents

section Identities
variable {host : Host}

theorem identity_ok {x : TurnArguments} {i : TurnIdentity} (h : x.identity host = .ok i) :
    i.turnHash = turnHash host x.userContent x.assistantContent ∧
    i.operationId = turnOperationId host x.agentId x.sessionId x.localSequence x.effectiveTurn
      i.turnHash ∧
    i.sourceId = turnSourceId x.agentId x.sessionId x.localSequence x.effectiveTurn i.turnHash := by
  unfold TurnArguments.identity deriveTurnIdentity at h
  split at h
  · cases h
  · dsimp only at h
    split at h
    · cases h
    · cases h
      exact ⟨rfl, rfl, rfl⟩

theorem turnHash_eq_iff (hcf : host.CollisionFree) (p q : String × String) :
    turnHash host p.1 p.2 = turnHash host q.1 q.2 ↔ p = q ∨ Shifted p q := by
  unfold turnHash
  rw [hcf.eq_iff, joined_eq_iff]

theorem turnOperationId_eq_iff (hcf : host.CollisionFree) {p q : String × String} {n n' : Nat}
    {turn turn' : Int} {digest digest' : String} (hd : Digest digest) (hd' : Digest digest') :
    turnOperationId host p.1 p.2 n turn digest = turnOperationId host q.1 q.2 n' turn' digest' ↔
      (p = q ∨ Shifted p q) ∧ n = n' ∧ turn = turn' ∧ digest = digest' := by
  rw [← joined_eq_iff]
  constructor
  · exact turnOperationId_parts hcf hd hd'
  · rintro ⟨h, rfl, rfl, rfl⟩
    unfold turnOperationId hashParts
    simp only [joinWith, ← String.append_assoc] at h ⊢
    rw [h]

theorem operationId_eq_iff (hcf : host.CollisionFree) {x y : TurnArguments} {i j : TurnIdentity}
    (hi : x.identity host = .ok i) (hj : y.identity host = .ok j) :
    i.operationId = j.operationId ↔ (x.place = y.place ∨ Shifted x.place y.place) ∧
      x.localSequence = y.localSequence ∧ x.effectiveTurn = y.effectiveTurn ∧
      (x.contents = y.contents ∨ Shifted x.contents y.contents) := by
  obtain ⟨hhash, hid, -⟩ := identity_ok hi
  obtain ⟨hhash', hid', -⟩ := identity_ok hj
  have hdigest : Digest i.turnHash := hhash ▸ turnHash_digest host _ _
  have hdigest' : Digest j.turnHash := hhash' ▸ turnHash_digest host _ _
  rw [hid, hid']
  refine (turnOperationId_eq_iff hcf (p := x.place) (q := y.place) hdigest hdigest').trans ?_
  rw [hhash, hhash']
  exact and_congr_right' (and_congr_right' (and_congr_right'
    (turnHash_eq_iff hcf x.contents y.contents)))

end Identities

/-- Equal operation ids tell the turns apart exactly when the two calls are not ambiguous, and
equal fingerprints the texts exactly when these are not shifted. -/
theorem turn_identity_injective (host : Host) (hcf : host.CollisionFree) :
    (∀ (x y : TurnArguments) i j, x.identity host = .ok i → y.identity host = .ok j →
      ((i.operationId = j.operationId → SameTurn x y) ↔ ¬ Ambiguous x y)) ∧
    ∀ u a u' a', (turnHash host u a = turnHash host u' a' → u = u' ∧ a = a') ↔
      ¬ Shifted (u, a) (u', a') := by
  refine ⟨fun x y i j hi hj => ?_, fun u a u' a' => ?_⟩
  · rw [operationId_eq_iff hcf hi hj]
    constructor
    · intro h hamb
      have hsame := h ⟨hamb.places, hamb.sequence, hamb.turn, hamb.contents⟩
      rcases hamb.shifted with hs | hs
      · exact hs.ne (Prod.ext hsame.agent hsame.session)
      · exact hs.ne (Prod.ext hsame.user hsame.assistant)
    · rintro hn ⟨hplaces, hseq, hturn, hcontents⟩
      have hplace : x.place = y.place := hplaces.resolve_right fun hs =>
        hn ⟨hseq, hturn, hplaces, hcontents, .inl hs⟩
      have hcontent : x.contents = y.contents := hcontents.resolve_right fun hs =>
        hn ⟨hseq, hturn, hplaces, hcontents, .inr hs⟩
      exact ⟨congrArg Prod.fst hplace, congrArg Prod.snd hplace, hseq, hturn,
        congrArg Prod.fst hcontent, congrArg Prod.snd hcontent⟩
  · rw [turnHash_eq_iff hcf (u, a) (u', a')]
    constructor
    · intro h hs
      exact hs.ne (Prod.ext_iff.mpr (h (.inr hs)))
    · intro hn h
      exact Prod.ext_iff.mp (h.resolve_right hn)

def firstTurn (userContent assistantContent : String) : TurnArguments where
  agentId := "hermes:w:i"
  sessionId := "s"
  localSequence := 1
  turnNumber := none
  userContent := userContent
  assistantContent := assistantContent

/-- Two turns whose texts hold a NUL in different places have one fingerprint and one id. -/
theorem nul_texts_collide : Host.plain.CollisionFree ∧
    turnHash Host.plain "a\x00b" "c" = turnHash Host.plain "a" "b\x00c" ∧
    (∃ i j, (firstTurn "a\x00b" "c").identity Host.plain = .ok i ∧
      (firstTurn "a" "b\x00c").identity Host.plain = .ok j ∧ i.operationId = j.operationId) ∧
    ¬ SameTurn (firstTurn "a\x00b" "c") (firstTurn "a" "b\x00c") :=
  ⟨plain_collisionFree, by decide, ⟨_, _, rfl, rfl, by decide +kernel⟩,
    fun h => absurd h.user (by decide)⟩

theorem turn_identity_injective_plain :
    ¬ Ambiguous (firstTurn "a" "b") (firstTurn "a" "c") ∧
    (turnHash Host.plain "a" "b" = turnHash Host.plain "a" "c" → "a" = "a" ∧ "b" = "c") := by
  obtain ⟨hids, htexts⟩ := turn_identity_injective Host.plain plain_collisionFree
  have hshift : ¬ Shifted ("a", "b") ("a", "c") := by decide
  refine ⟨(hids _ _ _ _ rfl rfl).mp fun h => ?_, (htexts _ _ _ _).mpr hshift⟩
  exact absurd h (by decide +kernel)

end SibylMemory
