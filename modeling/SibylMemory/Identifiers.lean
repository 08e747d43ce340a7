import SibylMemory.Runtime

/-!
# Identifiers of operations and sources

Operation ids are digests of texts whose parts are joined with a NUL character. With a
digest that has no collisions, the ids of turns, of rewind corrections and of the
replacements that revision reconciliation makes are three disjoint families.
-/

namespace SibylMemory
open PercentEncoding Outbox Text

def Digest (s : String) : Prop := s ≠ "" ∧ ∀ c ∈ s.toList, isHexDigit c = true

theorem sha256_digest (host : Host) (text : String) : Digest (host.sha256 text) :=
  ⟨host.sha256_ne_empty text, host.sha256_hex text⟩

theorem hashParts_digest (host : Host) (parts : List String) : Digest (hashParts host parts) :=
  sha256_digest host _

theorem Digest.avoids {s : String} (h : Digest s) {c : Char} (hc : isHexDigit c = false) :
    c ∉ s.toList := by
  intro hmem
  have := h.2 c hmem
  rw [hc] at this
  cases this

theorem nat_avoids (n : Nat) {c : Char} (hc : c.isDigit = false) : c ∉ (toString n).toList := by
  intro hmem
  have := digit_toString n c hmem
  rw [hc] at this
  cases this

theorem int_avoids (i : Int) {c : Char} (hc : c.isDigit = false) (hm : c ≠ '-') :
    c ∉ (toString i).toList := by
  intro hmem
  rcases numeral_toString i c hmem with h | h
  · rw [hc] at h
    cases h
  · exact hm h

theorem quote_avoids (s : String) {c : Char} (hc : c ≠ '%') (hu : isUnreserved c.toNat = false) :
    c ∉ (quote s).toList := by
  intro hmem
  rcases quote_alphabet s c hmem with h | h
  · exact hc h
  · rw [hu] at h
    cases h

theorem turnHash_digest (host : Host) (userContent assistantContent : String) :
    Digest (turnHash host userContent assistantContent) := sha256_digest host _

/-! ### Operation ids -/

theorem nul_eq : "\x00" = String.ofList ['\x00'] := by decide

section Ids
variable {host : Host} {agentId agentId' : String}

/-- The last three parts of a turn's id hold no NUL, so that only the first two can be confused. -/
theorem turnOperationId_parts (hcf : host.CollisionFree) {sid sid' : String} {n n' : Nat}
    {turn turn' : Int} {digest digest' : String} (hd : Digest digest) (hd' : Digest digest')
    (h : turnOperationId host agentId sid n turn digest
      = turnOperationId host agentId' sid' n' turn' digest') :
    agentId ++ "\x00" ++ sid = agentId' ++ "\x00" ++ sid' ∧ n = n' ∧ turn = turn' ∧
      digest = digest' := by
  have hsplit : ∀ (a b c d e : String), joinWith "\x00" [a, b, c, d, e] = (a ++ "\x00" ++ b)
      ++ String.ofList ['\x00'] ++ c ++ String.ofList ['\x00'] ++ d ++ String.ofList ['\x00'] ++ e := by
    intro a b c d e
    simp only [joinWith, nul_eq, String.append_assoc]
  have htext := hcf h
  rw [hsplit, hsplit] at htext
  -- from the right: digest, turn number, sequence number
  obtain ⟨h1, hdigest⟩ := append_sep_inj_right (hd.avoids (by decide)) (hd'.avoids (by decide)) htext
  obtain ⟨h2, hturn⟩ := append_sep_inj_right (int_avoids turn (by decide) (by decide))
    (int_avoids turn' (by decide) (by decide)) h1
  obtain ⟨h3, hn⟩ := append_sep_inj_right (nat_avoids n (by decide)) (nat_avoids n' (by decide)) h2
  exact ⟨h3, toString_injective hn, int_toString_injective hturn, hdigest⟩

theorem turnOperationId_inj (hcf : host.CollisionFree) {sid sid' : String} {n n' : Nat}
    {turn turn' : Int} {digest digest' : String} (hd : Digest digest) (hd' : Digest digest')
    (h : turnOperationId host agentId sid n turn digest
      = turnOperationId host agentId sid' n' turn' digest') : sid = sid' ∧ n = n' := by
  obtain ⟨hplace, hn, -⟩ := turnOperationId_parts hcf hd hd' h
  exact ⟨append_left_cancel hplace, hn⟩

/-- The id under which `plan_rewind_corrections` plans the correction of an operation. -/
def rewindIntentId (operationId : String) : String := "rewind-stale-" ++ operationId

theorem rewindOperationId_inj (hcf : host.CollisionFree) {i j : String}
    (h : rewindOperationId host agentId (rewindIntentId i)
      = rewindOperationId host agentId (rewindIntentId j)) : i = j := by
  have htext := hcf h
  simp only [joinWith] at htext
  exact append_left_cancel (append_left_cancel htext)

theorem rewindIntentId_avoids {i : String} (hi : Digest i) :
    '\x00' ∉ (rewindIntentId i).toList := by
  rw [rewindIntentId, String.toList_append, List.mem_append]
  rintro (h | h)
  · exact absurd h (by decide)
  · exact hi.avoids (by decide) h

/-- What is hashed from three parts or more is no rewind correction. -/
theorem hashParts_ne_rewind (hcf : host.CollisionFree) {i : String} (hi : Digest i) {p q : String}
    {rest : List String} : hashParts host (agentId :: p :: q :: rest)
      ≠ rewindOperationId host agentId (rewindIntentId i) := by
  intro h
  have htext := hcf h
  simp only [joinWith, String.append_assoc] at htext
  have htail := append_left_cancel (append_left_cancel htext)
  refine rewindIntentId_avoids hi (htail ▸ ?_)
  simp only [String.toList_append, List.mem_append]
  exact .inr (.inl (by decide))

theorem turn_ne_rewind (hcf : host.CollisionFree) {sid : String} {n : Nat} {turn : Int}
    {digest i : String} (hi : Digest i) :
    turnOperationId host agentId sid n turn digest
      ≠ rewindOperationId host agentId (rewindIntentId i) := hashParts_ne_rewind hcf hi

/-- The id of a replacement, `_hash_parts(operation_id, current_revision, action)`. -/
def replacementId (host : Host) (operationId : String) (revision : Int) (action : String) : String :=
  hashParts host [operationId, toString revision, action]

theorem digest_append_ne {i name x sep y : String} (hi : Digest i) :
    i ++ x ≠ "hermes:" ++ name ++ sep ++ y := by
  intro h
  have hl := congrArg String.toList h
  simp only [String.toList_append] at hl
  cases hc : i.toList with
  | nil => exact hi.1 (String.toList_inj.mp (by simpa using hc))
  | cons c cs =>
    rw [hc] at hl
    have hhead : c = 'h' := (List.cons.inj hl).1
    have hhex := hi.2 c (by rw [hc]; exact List.mem_cons_self)
    rw [hhead] at hhex
    exact absurd hhex (by decide)

/-- What is hashed from a digest on is not what is hashed from an agent on. -/
theorem replacement_ne_agent (hcf : host.CollisionFree) {name : String}
    (ha : agentId = "hermes:" ++ name) {i action part : String} {parts : List String}
    {revision : Int} (hi : Digest i) :
    replacementId host i revision action ≠ hashParts host (agentId :: part :: parts) := by
  intro h
  have htext := hcf h
  simp only [joinWith, ha] at htext
  rw [String.append_assoc] at htext
  exact digest_append_ne hi htext

end Ids

/-! ### Source ids -/

theorem colon_eq : ":" = String.ofList [':'] := by decide

theorem turnSourceId_inj {agentId agentId' sid sid' : String} {n n' : Nat} {turn turn' : Int}
    {digest digest' : String} (h : turnSourceId agentId sid n turn digest
      = turnSourceId agentId' sid' n' turn' digest') :
    agentId = agentId' ∧ sid = sid' ∧ n = n' ∧ turn = turn' ∧
      digest.toList.take 16 = digest'.toList.take 16 := by
  simp only [turnSourceId, joinWith, colon_eq, String.append_assoc] at h
  have h1 := append_left_cancel (append_left_cancel (append_left_cancel (append_left_cancel h)))
  -- from the left: agent, session, sequence number, turn number
  obtain ⟨ha, h2⟩ := append_sep_inj (quote_avoids agentId (by decide) (by decide))
    (quote_avoids agentId' (by decide) (by decide)) h1
  obtain ⟨hs, h3⟩ := append_sep_inj (quote_avoids sid (by decide) (by decide))
    (quote_avoids sid' (by decide) (by decide)) h2
  obtain ⟨hn, h4⟩ := append_sep_inj (nat_avoids n (by decide)) (nat_avoids n' (by decide)) h3
  obtain ⟨hturn, hfirst⟩ := append_sep_inj (int_avoids turn (by decide) (by decide))
    (int_avoids turn' (by decide) (by decide)) h4
  exact ⟨quote_injective ha, quote_injective hs, toString_injective hn, int_toString_injective hturn,
    String.ofList_injective hfirst⟩

end SibylMemory
