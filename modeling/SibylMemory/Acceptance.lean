import SibylMemory.Identifiers

/-!
# The outbox accepts what the runtime builds

Captures and rewind corrections pass `_validate_operation`, hold no secret-named field and
are finite JSON, so that only a known id can keep them out of the outbox.
-/

namespace SibylMemory
open PercentEncoding Outbox Text

/-! ### Validation -/

theorem validateOperation_ok {op : NewOperation} (id : op.operationId ≠ "")
    (key : op.idempotencyKey ≠ "") (kind : op.kind ≠ "")
    (endpoint : startsWith op.endpoint "/" = true ∧ contains op.endpoint "://" = false ∧
      contains op.endpoint "?" = false ∧ contains op.endpoint "#" = false)
    (method : op.httpMethod = "POST") (dependency : op.dependsOn ≠ some op.operationId) :
    validateOperation op = .ok () := by
  have hm : upper "POST" = "POST" := by decide
  obtain ⟨h1, h2, h3, h4⟩ := endpoint
  unfold validateOperation
  simp [id, key, kind, h1, h2, h3, h4, method, hm, dependency, pure, Except.pure]

theorem append_ne_empty {a b : String} (h : a ≠ "") : a ++ b ≠ "" := by
  intro he
  apply h
  have hl := congrArg String.toList he
  rw [String.toList_append] at hl
  exact String.toList_inj.mp (by simpa using (List.append_eq_nil_iff.mp hl).1)

/-- The fixed part of a correction endpoint and the escapes of its source id hold none of the
characters that would make it a URL. -/
theorem correctionEndpoint_avoids (sourceId : String) {c : Char} (hf : c ∉ "/api/memory/inspect/".toList)
    (hs : c ∉ "/corrections".toList) (hc : c ≠ '%') (hu : isUnreserved c.toNat = false) :
    c ∉ (correctionEndpoint sourceId).toList := by
  intro h
  unfold correctionEndpoint at h
  simp only [String.toList_append, List.mem_append] at h
  rcases h with (h | h) | h
  · exact hf h
  · exact quote_avoids sourceId hc hu h
  · exact hs h

theorem correctionEndpoint_valid (sourceId : String) :
    startsWith (correctionEndpoint sourceId) "/" = true ∧
    contains (correctionEndpoint sourceId) "://" = false ∧
    contains (correctionEndpoint sourceId) "?" = false ∧
    contains (correctionEndpoint sourceId) "#" = false := by
  refine ⟨startsWith_append (startsWith_append (by decide)), ?_, ?_, ?_⟩
  · exact contains_eq_false (c := ':') (by decide)
      (correctionEndpoint_avoids sourceId (by decide) (by decide) (by decide) (by decide))
  · exact contains_eq_false (c := '?') (by decide)
      (correctionEndpoint_avoids sourceId (by decide) (by decide) (by decide) (by decide))
  · exact contains_eq_false (c := '#') (by decide)
      (correctionEndpoint_avoids sourceId (by decide) (by decide) (by decide) (by decide))

theorem correctionEndpoint_end (sourceId : String) :
    endsWith (correctionEndpoint sourceId) "/corrections" = true :=
  endsWith_append ("/api/memory/inspect/" ++ quote sourceId) "/corrections"

theorem correctionEndpoint_not_raw (sourceId : String) :
    endsWith (correctionEndpoint sourceId) "/memory/raw" = false :=
  endsWith_other (correctionEndpoint_end sourceId) (by decide) (by decide)

/-! ### Requests -/

theorem canonicalRequest_ok {host : Host} {request json : PyValue}
    (secrets : rejectSecrets "request" request = .ok ()) (finite : request.canonical = some json) :
    canonicalRequest host request = .ok (json, host.sha256 (json.render true)) := by
  simp [canonicalRequest, secrets, finite, pure, Except.pure, bind, Except.bind]

theorem rejectSecretItems_strings (path : String) (k : Nat) (xs : List String) :
    rejectSecretItems path k (xs.map PyValue.str) = .ok () := by
  induction xs generalizing k with
  | nil => rfl
  | cons x xs ih =>
    rw [List.map_cons, rejectSecretItems]
    exact ih (k + 1)

theorem rejectSecretEntries_ok {es : JSONObject}
    (keys : ∀ k ∈ es.map Prod.fst, normalizeKey k ∉ SECRET_KEYS)
    (values : ∀ e ∈ es, ∀ path, rejectSecrets path e.2 = .ok ()) (path : String) :
    rejectSecretEntries path es = .ok () := by
  induction es with
  | nil => rfl
  | cons e es ih =>
    obtain ⟨key, value⟩ := e
    have hk : normalizeKey key ∉ SECRET_KEYS := keys key List.mem_cons_self
    have hv := values (key, value) List.mem_cons_self (path ++ "." ++ key)
    have hrest := ih (fun k h => keys k (List.mem_cons_of_mem _ h))
      (fun e h => values e (List.mem_cons_of_mem _ h))
    simp only [rejectSecretEntries, hk, if_false, hv, hrest]
    rfl

structure Storable (value : PyValue) : Prop where
  secrets : ∀ path, rejectSecrets path value = .ok ()
  finite : value.canonical.isSome

theorem storable_str (s : String) : Storable (.str s) := ⟨fun _ => rfl, rfl⟩

theorem storable_int (n : Int) : Storable (.int n) := ⟨fun _ => rfl, rfl⟩

theorem storable_bool (b : Bool) : Storable (.bool b) := ⟨fun _ => rfl, rfl⟩

theorem storable_strings (xs : List String) : Storable (.list (xs.map .str)) where
  secrets path := rejectSecretItems_strings path 0 xs
  finite := by
    rw [PyValue.canonical, Option.isSome_map]
    refine PyValue.canonicalList_isSome fun x hx => ?_
    obtain ⟨s, -, rfl⟩ := List.mem_map.mp hx
    rfl

theorem storable_dict (es : JSONObject) (keys : ∀ k ∈ es.map Prod.fst, normalizeKey k ∉ SECRET_KEYS)
    (values : ∀ e ∈ es, Storable e.2) : Storable (.dict es) where
  secrets path := rejectSecretEntries_ok keys (fun e he => (values e he).secrets) path
  finite := by
    rw [PyValue.canonical, Option.isSome_map]
    exact PyValue.canonicalEntries_isSome fun e he => (values e he).finite

theorem mem_assign {key : String} {value : PyValue} {es : JSONObject} {e : String × PyValue}
    (h : e ∈ PyValue.assign key value es) : e ∈ es ∨ e = (key, value) := by
  induction es with
  | nil => exact .inr (List.mem_singleton.mp h)
  | cons e' es ih =>
    obtain ⟨k, v⟩ := e'
    rw [PyValue.assign] at h
    split at h
    · rename_i hk
      rcases List.mem_cons.mp h with rfl | h
      · exact .inr (by rw [hk])
      · exact .inl (List.mem_cons_of_mem _ h)
    · rcases List.mem_cons.mp h with rfl | h
      · exact .inl List.mem_cons_self
      · exact (ih h).imp_left (List.mem_cons_of_mem _)

theorem storable_assign {es : JSONObject} (keys : ∀ k ∈ es.map Prod.fst, normalizeKey k ∉ SECRET_KEYS)
    (values : ∀ e ∈ es, Storable e.2) {key : String} (hk : normalizeKey key ∉ SECRET_KEYS)
    {value : PyValue} (hv : Storable value) : Storable (.dict (PyValue.assign key value es)) := by
  refine storable_dict _ (fun k hmem => ?_) fun e he => ?_
  · obtain ⟨e, he, rfl⟩ := List.mem_map.mp hmem
    rcases mem_assign he with he | rfl
    · exact keys _ (List.mem_map_of_mem he)
    · exact hk
  · rcases mem_assign he with he | rfl
    · exact values e he
    · exact hv

theorem Storable.accepted {request : PyValue} (h : Storable request) (host : Host) :
    ∃ json, canonicalRequest host request = .ok (json, host.sha256 (json.render true)) := by
  obtain ⟨json, hj⟩ := Option.isSome_iff_exists.mp h.finite
  exact ⟨json, canonicalRequest_ok (h.secrets _) hj⟩

/-! ### Captures -/

section Capture
variable (c : CaptureContext) (sid parent : String) (identity : TurnIdentity)

theorem captureMetadata_keys : ∀ k ∈ (captureMetadata c sid parent identity).map Prod.fst,
    normalizeKey k ∉ SECRET_KEYS := by
  have hk : (captureMetadata c sid parent identity).map Prod.fst
      = ["source_schema", "hermes_version", "agent_id", "agent_workspace", "agent_identity",
        "platform", "session_id", "parent_session_id", "local_sequence", "turn_number",
        "turn_number_source", "turn_hash", "provider_operation_id", "trust_level",
        "contains_tool_messages", "project_id", "memory_space_id"] := rfl
  rw [hk]
  decide

theorem captureMetadata_storable : ∀ e ∈ captureMetadata c sid parent identity, Storable e.2 := by
  intro e he
  simp only [captureMetadata, List.mem_cons, List.not_mem_nil, or_false] at he
  rcases he with rfl | rfl | rfl | rfl | rfl | rfl | rfl | rfl | rfl | rfl | rfl | rfl | rfl | rfl |
    rfl | rfl | rfl
  all_goals first
    | exact storable_str _
    | exact storable_int _
    | exact storable_bool _

theorem captureProvenance_storable : Storable (.dict (captureProvenance c)) := by
  have hk : (captureProvenance c).map Prod.fst
      = ["adapter", "adapter_version", "participant_ids", "chat_id", "thread_id"] := rfl
  refine storable_dict _ (by rw [hk]; decide) fun e he => ?_
  simp only [captureProvenance, List.mem_cons, List.not_mem_nil, or_false] at he
  rcases he with rfl | rfl | rfl | rfl | rfl
  all_goals first
    | exact storable_str _
    | exact storable_strings _

theorem capturePayload_storable (userContent assistantContent : String) {metadata : JSONObject}
    (hm : Storable (.dict metadata)) :
    Storable (.dict (capturePayload c sid identity userContent assistantContent metadata)) := by
  have hk : (capturePayload c sid identity userContent assistantContent metadata).map Prod.fst
      = ["title", "raw_content", "source_id", "memory_scope", "scope_key", "project_id", "tags",
        "capture_surface", "metadata", "provenance"] := rfl
  refine storable_dict _ (by rw [hk]; decide) fun e he => ?_
  simp only [capturePayload, List.mem_cons, List.not_mem_nil, or_false] at he
  rcases he with rfl | rfl | rfl | rfl | rfl | rfl | rfl | rfl | rfl | rfl
  case inr.inr.inr.inr.inr.inr.inl =>
    exact storable_strings ["hermes", "conversation", "completed-turn"]
  case inr.inr.inr.inr.inr.inr.inr.inr.inl => exact hm
  case inr.inr.inr.inr.inr.inr.inr.inr.inr => exact captureProvenance_storable c
  all_goals exact storable_str _

end Capture

/-- What the factory of a capture builds. -/
structure Captured (host : Host) (agentId sid : String) (n : Nat) (userContent assistantContent : String)
    (t : NewTurnOperation) : Prop where
  ids : ∃ turn, t.operation.operationId
      = turnOperationId host agentId sid n turn (turnHash host userContent assistantContent) ∧
    t.sourceId = turnSourceId agentId sid n turn (turnHash host userContent assistantContent)
  kind : t.operation.kind = "raw_capture"
  endpoint : t.operation.endpoint = "/api/memory/raw"
  key : t.operation.idempotencyKey = "hermes-turn-" ++ t.operation.operationId
  dependency : t.operation.dependsOn = none
  method : t.operation.httpMethod = "POST"
  digest : t.turnHash = turnHash host userContent assistantContent
  storable : Storable t.operation.request

section Factory
variable {host : Host} {c : RuntimeContext} {sid parent userContent assistantContent : String}
  {turnNumber : Option Int} {n : Nat}

/-- What the factory makes: the payload has its own hash, taken without the hash, in its
metadata. -/
theorem captureFactory_ok {t : NewTurnOperation}
    (h : captureFactory host c sid parent turnNumber userContent assistantContent n = .ok t) :
    ∃ identity hash,
      deriveTurnIdentity host c.agentId sid n turnNumber userContent assistantContent
        = .ok identity ∧
      canonicalRequestHash host (capturePayload (c.capture host) sid identity userContent
        assistantContent (captureMetadata (c.capture host) sid parent identity)) = .ok hash ∧
      t = captureOperation
        { identity
          payload := capturePayload (c.capture host) sid identity userContent assistantContent
            (PyValue.assign "provider_request_hash" (.str hash)
              (captureMetadata (c.capture host) sid parent identity)) } := by
  unfold captureFactory at h
  split at h
  · rename_i capture hb
    cases h
    unfold buildTurnCapture at hb
    simp only [bind_ok] at hb
    obtain ⟨identity, hi, hash, hhash, hb⟩ := hb
    cases hb
    exact ⟨identity, hash, hi, hhash, rfl⟩
  · cases h

theorem captureFactory_captured {t : NewTurnOperation}
    (h : captureFactory host c sid parent turnNumber userContent assistantContent n = .ok t) :
    Captured host c.agentId sid n userContent assistantContent t := by
  obtain ⟨identity, hash, hi, -, rfl⟩ := captureFactory_ok h
  rw [deriveTurnIdentity] at hi
  split at hi
  · cases hi
  dsimp only at hi
  split at hi
  · cases hi
  cases hi
  exact {
    ids := ⟨turnNumber.getD n, rfl, rfl⟩, kind := rfl, endpoint := rfl, key := rfl
    dependency := rfl, method := rfl, digest := rfl
    storable := capturePayload_storable _ _ _ _ _
      (storable_assign (captureMetadata_keys _ _ _ _) (captureMetadata_storable _ _ _ _)
        (by decide) (storable_str _)) }

theorem captureFactory_total (host : Host) (c : RuntimeContext)
    (sid parent userContent assistantContent : String) (hn : 1 ≤ n) :
    ∃ t, captureFactory host c sid parent none userContent assistantContent n = .ok t := by
  obtain ⟨identity, hi⟩ : ∃ identity, deriveTurnIdentity host c.agentId sid n none userContent
      assistantContent = .ok identity := by
    have h1 : ¬ n < 1 := by omega
    have h2 : ¬ ((none : Option Int).getD n < 0) := by simp
    exact ⟨_, by rw [deriveTurnIdentity, if_neg h1, if_neg h2]⟩
  have hfinite := (capturePayload_storable (c.capture host) sid identity userContent
    assistantContent (storable_dict _ (captureMetadata_keys (c.capture host) sid parent identity)
      (captureMetadata_storable _ _ _ _))).finite
  obtain ⟨json, hj⟩ := Option.isSome_iff_exists.mp hfinite
  have hi' : deriveTurnIdentity host (c.capture host).agentId sid n none userContent
      assistantContent = .ok identity := hi
  simp [captureFactory, buildTurnCapture, hi', canonicalRequestHash, hj, bind, Except.bind, pure,
    Except.pure]

end Factory

theorem Captured.operationId_digest {host : Host} {agentId sid userContent assistantContent : String}
    {n : Nat} {t : NewTurnOperation} (h : Captured host agentId sid n userContent assistantContent t) :
    Digest t.operation.operationId := by
  obtain ⟨turn, hid, -⟩ := h.ids
  rw [hid]
  exact hashParts_digest host _

theorem Captured.valid {host : Host} {agentId sid userContent assistantContent : String} {n : Nat}
    {t : NewTurnOperation} (h : Captured host agentId sid n userContent assistantContent t) :
    validateOperation t.operation = .ok () := by
  refine validateOperation_ok h.operationId_digest.1 ?_ ?_ ?_ h.method ?_
  · rw [h.key]
    exact append_ne_empty (by decide)
  · rw [h.kind]
    decide
  · rw [h.endpoint]
    decide
  · rw [h.dependency]
    exact fun he => by cases he

theorem Captured.named {host : Host} {agentId sid userContent assistantContent : String} {n : Nat}
    {t : NewTurnOperation} (h : Captured host agentId sid n userContent assistantContent t) :
    t.sourceId ≠ "" ∧ t.turnHash ≠ "" := by
  obtain ⟨turn, -, hs⟩ := h.ids
  refine ⟨?_, ?_⟩
  · rw [hs, turnSourceId, joinWith_cons_cons, String.append_assoc]
    exact append_ne_empty (by decide)
  · rw [h.digest]
    exact host.sha256_ne_empty _

/-! ### Rewind corrections -/

theorem rewindRequest_storable (operationId : String) (revision : Option Int) :
    Storable (correctionJson (rewindRequest operationId revision)) := by
  have hm : Storable (.dict [("provider_operation_id", .str operationId)]) := by
    refine storable_dict _ (by simp only [List.map_cons, List.map_nil]; decide) fun e he => ?_
    rw [List.mem_singleton] at he
    rw [he]
    exact storable_str _
  cases revision with
  | none =>
    refine storable_dict [("action", _), ("reason", _), ("metadata", _)] ?_ fun e he => ?_
    · simp only [List.map_cons, List.map_nil]
      decide
    · simp only [List.mem_cons, List.not_mem_nil, or_false] at he
      rcases he with rfl | rfl | rfl
      · exact storable_str _
      · exact storable_str _
      · exact hm
  | some n =>
    refine storable_dict [("action", _), ("reason", _), ("metadata", _),
      ("expected_revision", _)] ?_ fun e he => ?_
    · simp only [List.map_cons, List.map_nil]
      decide
    · simp only [List.mem_cons, List.not_mem_nil, or_false] at he
      rcases he with rfl | rfl | rfl | rfl
      · exact storable_str _
      · exact storable_str _
      · exact hm
      · exact storable_int _

def rewindEntries (operationId : String) : Option Int → JSONObject
  | none => [("action", .str "mark_stale"),
      ("metadata", .dict [("provider_operation_id", .str operationId)]),
      ("reason", .str "hermes_session_rewind")]
  | some n => [("action", .str "mark_stale"), ("expected_revision", .int n),
      ("metadata", .dict [("provider_operation_id", .str operationId)]),
      ("reason", .str "hermes_session_rewind")]

theorem rewindRequest_canonical (i : String) (r : Option Int) :
    (correctionJson (rewindRequest i r)).canonical = some (.dict (rewindEntries i r)) := by
  have h1 : ¬ "reason" ≤ "metadata" := by decide
  have h2 : "action" ≤ "metadata" := by decide
  have h3 : ¬ "metadata" ≤ "expected_revision" := by decide
  have h4 : "action" ≤ "expected_revision" := by decide
  have h5 : ¬ "reason" ≤ "expected_revision" := by decide
  cases r <;>
    simp [correctionJson, rewindRequest, CorrectionRequest.toJson, dictOf, presentEntries,
      PyValue.canonical, PyValue.canonicalEntries, PyValue.sortEntries, PyValue.keyLe,
      List.orderedInsert, rewindEntries, h1, h2, h3, h4, h5]

/-- The revision of a rewind correction can be read off its stored text. -/
theorem rewindEntries_inj {i : String} {r r' : Option Int}
    (h : (PyValue.dict (rewindEntries i r)).render true
      = (PyValue.dict (rewindEntries i r')).render true) : r = r' := by
  have hkey : ∀ (n : Int), (PyValue.dict (rewindEntries i none)).render true
      ≠ (PyValue.dict (rewindEntries i (some n))).render true := by
    intro n he
    have hc := congrArg (fun s => s.toList[24]?) he
    revert hc
    simp [rewindEntries, PyValue.render, PyValue.renderEntries, PyValue.renderString,
      PyValue.escapeChar]
  cases r with
  | none =>
    cases r' with
    | none => rfl
    | some n => exact absurd h (hkey n)
  | some m =>
    cases r' with
    | none => exact absurd h.symm (hkey m)
    | some n =>
      simp only [rewindEntries, PyValue.render, PyValue.renderEntries] at h
      rw [← String.toList_inj] at h
      simp only [String.toList_append, List.append_assoc] at h
      simp only [List.append_cancel_left_eq] at h
      simp only [← List.append_assoc, List.append_cancel_right_eq] at h
      rw [int_toString_injective (String.toList_inj.mp h)]

theorem rewindOperation_valid (host : Host) (agentId : String) (correction : StaleCorrectionIntent)
    (h : correction.dependsOnOperationId
      ≠ some (rewindOperationId host agentId correction.operationId)) :
    validateOperation (rewindOperation host agentId correction) = .ok () :=
  validateOperation_ok (hashParts_digest host _).1 (append_ne_empty (by decide))
    (by simp [rewindOperation])
    (correctionEndpoint_valid _) rfl h

end SibylMemory
