import SibylMemory.Delivery.Catalogue

/-!
# Requests that do not change

What a worker sends for an operation is a function of its content and, for a correction that
waits for a turn, of the revision that the server gave to that turn.
-/

namespace SibylMemory
open Outbox Idempotency Text

/-! ### Keys on the wire -/

theorem strip_of_no_space {s : String} (h : ∀ c ∈ s.toList, isSpace c = false) : strip s = s := by
  have hdrop : ∀ l : List Char, (∀ c ∈ l, isSpace c = false) → l.dropWhile isSpace = l := by
    intro l hl
    cases l with
    | nil => rfl
    | cons c l => rw [List.dropWhile_cons_of_neg (by simp [hl c List.mem_cons_self])]
  rw [strip, hdrop _ h, hdrop _ fun c hc => h c (List.mem_reverse.mp hc), List.reverse_reverse,
    String.ofList_toList]

theorem digest_no_space {i : String} (h : Digest i) : ∀ c ∈ i.toList, isSpace c = false := by
  intro c hc
  have hx := h.2 c hc
  unfold isHexDigit at hx
  unfold isSpace
  simp only [decide_eq_true_eq, decide_eq_false_iff_not] at hx ⊢
  omega

theorem strip_key {sys : System} (hc : Catalogued sys) {i : String} {c : Content}
    (hi : sys.book i = some c) : strip c.idempotencyKey = c.idempotencyKey := by
  obtain ⟨hd, pre, hp, hk⟩ := hc.formed i c hi
  refine strip_of_no_space fun ch hch => ?_
  rw [hk, String.toList_append] at hch
  rcases List.mem_append.mp hch with hch | hch
  · have hall : (keyPrefixes.all fun p => p.toList.all fun ch => !isSpace ch) = true := by decide
    have hspace := List.all_eq_true.mp (List.all_eq_true.mp hall pre hp) ch hch
    simpa using hspace
  · exact digest_no_space hd ch hch

theorem mutationRequest_ok {path : String} {payload : Option JSONObject} {key : String}
    {wire : WireRequest} (h : mutationRequest path payload key = .ok wire) :
    ∃ json, payload = some json ∧ wire = ⟨"POST", path, json, some (strip key)⟩ := by
  unfold mutationRequest at h
  split at h
  · cases h
  · rename_i json
    refine ⟨json, rfl, ?_⟩
    unfold normalizeIdempotencyKey at h
    dsimp only at h
    split at h
    · cases h
    · cases h
      rfl

/-! ### Answers -/

section Answers
variable {α : Type} {host : Host} {exchange : Exchange} {requestId : String} {wire : WireRequest}
  {parser : PyValue → Except String α} {check : α → Except String Unit} {response : α}

theorem request_answered
    (h : request host (fun _ => exchange) requestId wire parser check = .ok response) :
    ∃ r, exchange = .answered r ∧ r.isError = false := by
  unfold request at h
  split at h
  · cases h
  · rename_i r hr
    split at h
    · cases h
    · rename_i he
      exact ⟨r, hr, by simpa using he⟩

theorem request_unchecked
    (h : request host (fun _ => exchange) requestId wire parser check = .ok response) :
    request host (fun _ => exchange) "" wire parser (fun _ => .ok ()) = .ok response := by
  unfold request at h ⊢
  split at h
  · cases h
  · split at h
    · cases h
    · rename_i r he
      rw [if_neg he]
      unfold parseSuccess at h ⊢
      dsimp only at h ⊢
      split at h
      · cases h
      · cases h
      · split at h
        · cases h
        · cases h
        · split at h
          · cases h
          · split at h
            · cases h
            · cases h
              rfl

end Answers

/-! ### Prepared attempts -/

def Attempt.payload : Attempt → Option JSONObject
  | .remember r => r.toJson
  | .expose r => some r.toJson
  | .correct _ r => r.toJson
  | .preview _ r => r.toJson
  | .finished _ => none

def Attempt.isPreview : Attempt → Bool
  | .preview _ _ => true
  | _ => false

theorem wire_ok {a : Attempt} {key : String} {wire : WireRequest} (h : a.wire key = .ok wire) :
    a.payload = some wire.payload ∧
      wire.idempotencyKey = if a.isPreview then none else some (strip key) := by
  cases a with
  | remember r =>
    rw [Attempt.wire] at h
    obtain ⟨json, hj, rfl⟩ := mutationRequest_ok h
    exact ⟨hj, rfl⟩
  | expose r =>
    rw [Attempt.wire] at h
    obtain ⟨json, hj, rfl⟩ := mutationRequest_ok h
    exact ⟨hj, rfl⟩
  | correct sourceId r =>
    simp only [Attempt.wire, bind_ok] at h
    obtain ⟨path, -, h⟩ := h
    obtain ⟨json, hj, rfl⟩ := mutationRequest_ok h
    exact ⟨hj, rfl⟩
  | preview sourceId r =>
    simp only [Attempt.wire, bind_ok] at h
    obtain ⟨path, -, h⟩ := h
    split at h
    · cases h
    · rename_i json hj
      cases h
      exact ⟨hj, rfl⟩
  | finished result => cases h

/-- The stored request of a correction, completed with the revision that the server gave to the
turn it depends on. -/
inductive Hydrated (server : ServerLog) (op : ClaimedOperation) : JSONObject → Prop where
  | explicit (own : optionalItem op.request "expected_revision" ≠ none ∨ op.dependsOn = none) :
      Hydrated server op op.request
  | dependent {d : String} {e : Effect String (String × String) Int}
      (missing : optionalItem op.request "expected_revision" = none) (waits : op.dependsOn = some d)
      (effect : find server ("hermes-turn-" ++ d) = some e) :
      Hydrated server op (PyValue.assign "expected_revision" (.int e.receipt) op.request)

def isRaw (op : ClaimedOperation) : Bool := endsWith op.endpoint "/memory/raw"

inductive Prepared (host : Host) (server : ServerLog) (op : ClaimedOperation) : Attempt → Prop where
  | remember {r : RawMemoryRequest} (raw : isRaw op = true)
      (made : rawRequest host op.request = .ok r) : Prepared host server op (.remember r)
  | expose {r : ContextExposureRequest} (raw : isRaw op = false) (kind : op.kind = "context_exposure")
      (made : exposureRequest host op.request = .ok r) : Prepared host server op (.expose r)
  | correct {sourceId : String} {data : JSONObject} {r : CorrectionRequest} (raw : isRaw op = false)
      (kind : op.kind ≠ "context_exposure") (source : correctionSourceId op.endpoint = .ok sourceId)
      (hydrated : Hydrated server op data) (made : correctionRequest host data = .ok r) :
      Prepared host server op (.correct sourceId r)
  | preview {sourceId : String} {data : JSONObject} {r : CorrectionRequest} (raw : isRaw op = false)
      (kind : op.kind ≠ "context_exposure") (source : correctionSourceId op.endpoint = .ok sourceId)
      (hydrated : Hydrated server op data) (made : correctionRequest host data = .ok r) :
      Prepared host server op (.preview sourceId r)

section Prepared
variable {host : Host} {server server' : ServerLog} {op op' : ClaimedOperation} {a a' : Attempt}

theorem Hydrated.mono (hm : ∀ k e, find server k = some e → find server' k = some e)
    {data : JSONObject} (h : Hydrated server op data) : Hydrated server' op data := by
  cases h with
  | explicit own => exact .explicit own
  | dependent missing waits effect => exact .dependent missing waits (hm _ _ effect)

theorem Prepared.mono (hm : ∀ k e, find server k = some e → find server' k = some e)
    (h : Prepared host server op a) : Prepared host server' op a := by
  cases h with
  | remember raw made => exact .remember raw made
  | expose raw kind made => exact .expose raw kind made
  | correct raw kind source hydrated made => exact .correct raw kind source (hydrated.mono hm) made
  | preview raw kind source hydrated made => exact .preview raw kind source (hydrated.mono hm) made

theorem Prepared.of_raw (h : Prepared host server op a) (hraw : isRaw op = true) :
    ∃ r, a = .remember r := by
  cases h with
  | @remember r => exact ⟨r, rfl⟩
  | expose hn => rw [hraw] at hn; cases hn
  | correct hn => rw [hraw] at hn; cases hn
  | preview hn => rw [hraw] at hn; cases hn

theorem Hydrated.unique (hc : op.content = op'.content) {data data' : JSONObject}
    (h : Hydrated server op data) (h' : Hydrated server op' data') : data = data' := by
  have hr : op.request = op'.request := PyValue.dict.inj (congrArg Content.request hc)
  have hd : op.dependsOn = op'.dependsOn := congrArg Content.dependsOn hc
  cases h with
  | explicit own =>
    cases h' with
    | explicit own' => exact hr
    | dependent missing waits effect =>
      rw [← hr] at missing
      rw [← hd] at waits
      rcases own with own | own
      · exact absurd missing own
      · rw [own] at waits
        cases waits
  | dependent missing waits effect =>
    cases h' with
    | explicit own' =>
      rw [hr] at missing
      rw [hd] at waits
      rcases own' with own' | own'
      · exact absurd missing own'
      · rw [own'] at waits
        cases waits
    | dependent missing' waits' effect' =>
      rw [hd, waits'] at waits
      cases waits
      rw [effect] at effect'
      cases effect'
      rw [hr]

/-- Two attempts for one content send the same payload; if neither is a preview, they are the same. -/
theorem Prepared.unique (hc : op.content = op'.content) (h : Prepared host server op a)
    (h' : Prepared host server op' a') :
    a.payload = a'.payload ∧ (a.isPreview = false → a'.isPreview = false → a = a') := by
  have hr : op.request = op'.request := PyValue.dict.inj (congrArg Content.request hc)
  have he : op.endpoint = op'.endpoint := congrArg Content.endpoint hc
  have hkind : op.kind = op'.kind := congrArg Content.kind hc
  have hraw : isRaw op = isRaw op' := by rw [isRaw, isRaw, he]
  -- what the attempts of a correction have in common
  have hcorrection : ∀ {sourceId sourceId' : String} {data data' : JSONObject}
      {r r' : CorrectionRequest}, correctionSourceId op.endpoint = .ok sourceId →
      correctionSourceId op'.endpoint = .ok sourceId' → Hydrated server op data →
      Hydrated server op' data' → correctionRequest host data = .ok r →
      correctionRequest host data' = .ok r' → sourceId = sourceId' ∧ r = r' := by
    intro sourceId sourceId' data data' r r' hs hs' hd hd' hm hm'
    rw [← he, hs] at hs'
    rw [← hd.unique hc hd', hm] at hm'
    exact ⟨Except.ok.inj hs', Except.ok.inj hm'⟩
  cases h with
  | remember raw made =>
    cases h' with
    | remember raw' made' =>
      rw [← hr, made] at made'
      cases made'
      exact ⟨rfl, fun _ _ => rfl⟩
    | expose raw' => rw [← hraw, raw] at raw'; cases raw'
    | correct raw' => rw [← hraw, raw] at raw'; cases raw'
    | preview raw' => rw [← hraw, raw] at raw'; cases raw'
  | expose raw kind made =>
    cases h' with
    | remember raw' => rw [← hraw, raw] at raw'; cases raw'
    | expose raw' kind' made' =>
      rw [← hr, made] at made'
      cases made'
      exact ⟨rfl, fun _ _ => rfl⟩
    | correct raw' kind' => exact absurd (hkind ▸ kind) kind'
    | preview raw' kind' => exact absurd (hkind ▸ kind) kind'
  | correct raw kind source hydrated made =>
    cases h' with
    | remember raw' => rw [← hraw, raw] at raw'; cases raw'
    | expose raw' kind' => exact absurd (hkind ▸ kind') kind
    | correct raw' kind' source' hydrated' made' =>
      obtain ⟨rfl, rfl⟩ := hcorrection source source' hydrated hydrated' made made'
      exact ⟨rfl, fun _ _ => rfl⟩
    | preview raw' kind' source' hydrated' made' =>
      obtain ⟨rfl, rfl⟩ := hcorrection source source' hydrated hydrated' made made'
      exact ⟨rfl, fun _ h => by cases h⟩
  | preview raw kind source hydrated made =>
    cases h' with
    | remember raw' => rw [← hraw, raw] at raw'; cases raw'
    | expose raw' kind' => exact absurd (hkind ▸ kind') kind
    | correct raw' kind' source' hydrated' made' =>
      obtain ⟨rfl, rfl⟩ := hcorrection source source' hydrated hydrated' made made'
      exact ⟨rfl, fun h _ => by cases h⟩
    | preview raw' kind' source' hydrated' made' =>
      obtain ⟨rfl, rfl⟩ := hcorrection source source' hydrated hydrated' made made'
      exact ⟨rfl, fun h _ => by cases h⟩

theorem beginAttempt_prepared {s : Store} (h : beginAttempt host s op = .ok a)
    (going : ∀ result, a ≠ .finished result)
    (revisions : ∀ d v, s.turnRevision d = some v →
      ∃ e, find server ("hermes-turn-" ++ d) = some e ∧ e.receipt = v) :
    Prepared host server op a := by
  unfold beginAttempt at h
  split at h
  · rename_i hraw
    cases hr : rawRequest host op.request with
    | error e => rw [hr] at h; cases h
    | ok r => rw [hr] at h; cases h; exact .remember hraw hr
  rename_i hraw
  rw [Bool.not_eq_true] at hraw
  split at h
  · rename_i hkind
    cases hr : exposureRequest host op.request with
    | error e => rw [hr] at h; cases h
    | ok r => rw [hr] at h; cases h; exact .expose hraw hkind hr
  rename_i hkind
  split at h
  · unfold correctionAttempt at h
    simp only [bind_ok] at h
    obtain ⟨sourceId, hsource, h⟩ := h
    split at h
    · cases h
      exact absurd rfl (going _)
    · rename_i data hdata
      have hhydrated : Hydrated server op data := by
        unfold hydrate at hdata
        split at hdata
        · rename_i d hmissing hwaits
          split at hdata
          · cases hdata
          · rename_i v hv
            cases hdata
            obtain ⟨e, he, hrev⟩ := revisions d v hv
            rw [← hrev]
            exact .dependent hmissing hwaits he
        · rename_i hn
          cases hdata
          refine .explicit ?_
          by_contra hcon
          rw [not_or, not_not] at hcon
          obtain ⟨d, hd⟩ := Option.ne_none_iff_exists'.mp hcon.2
          exact hn d hcon.1 hd
      simp only [bind_ok] at h
      obtain ⟨r, hr, h⟩ := h
      split at h <;> cases h
      · exact .preview hraw hkind hsource hhydrated hr
      · exact .correct hraw hkind hsource hhydrated hr
  · cases h
    exact absurd rfl (going _)

end Prepared

end SibylMemory
