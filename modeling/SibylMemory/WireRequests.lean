import SibylMemory.Endpoints
import SibylMemory.Delivery.Dependencies
import SibylMemory.Delivery.Replacements
import SibylMemory.Library.Mappings

/-!
# Stored operations and the requests made of them

What `_execute_operation` sends for a stored operation is the object that was stored, whichever
builder made it and whichever decoder reads it; a correction that waits for a turn also gets the
turn's revision. The hash in a capture is that of the body without the hash.
-/

namespace SibylMemory
open Outbox Text
open PyValue hiding none

/-- The same object, whatever the order of its items. -/
def SameObject (payload data : JSONObject) : Prop :=
  ∃ w, (PyValue.dict payload).canonical = some w ∧ (PyValue.dict data).canonical = some w

theorem sameObject_of_lookup {payload data : JSONObject} {w : PyValue} (hp : Distinct payload)
    (hd : Distinct data) (hw : (PyValue.dict data).canonical = some w)
    (h : ∀ k, lookup k payload = lookup k data) : SameObject payload data :=
  ⟨w, canonical_of_lookup hp hd hw fun k => by rw [h], hw⟩

/-! ### Raw captures -/

/-- A capture request without a scope of its own, whose metadata and provenance are mappings. -/
structure RawMemoryRequest.Plain (r : RawMemoryRequest) (metadata provenance : JSONObject) : Prop where
  metadata : r.metadata = .dict metadata
  provenance : r.provenance = .dict provenance
  memoryScope : r.memoryScope = "project"
  captureSurface : r.captureSurface = "hermes_memory_provider"

section Raw
variable {host : Host} {r : RawMemoryRequest} {metadata provenance : JSONObject}

theorem RawMemoryRequest.Plain.toJson (h : r.Plain metadata provenance) :
    r.toJson = some [("title", .str r.title), ("raw_content", .str r.rawContent),
      ("source_id", .str r.sourceId), ("memory_scope", .str "project"),
      ("scope_key", .str r.projectId), ("project_id", .str r.projectId),
      ("tags", .list (r.tags.map .str)), ("metadata", .dict metadata),
      ("provenance", .dict provenance), ("capture_surface", .str "hermes_memory_provider")] := by
  rw [RawMemoryRequest.toJson, h.metadata, h.provenance, h.memoryScope, h.captureSurface]
  rfl

theorem canonicalList_strings (xs : List String) :
    canonicalList (xs.map .str) = some (xs.map .str) := by
  induction xs with
  | nil => rfl
  | cons x xs ih => simp [canonicalList, canonical, ih]

theorem rawRequest_stored (host : Host) {json payload es : JSONObject} (hr : r.Plain metadata provenance)
    (hj : r.toJson = some json) (hl : ∀ k, lookup k payload = lookup k json)
    (hs : (PyValue.dict payload).canonical = some (.dict es)) :
    ∃ m p, (PyValue.dict metadata).canonical = some (.dict m) ∧
      (PyValue.dict provenance).canonical = some (.dict p) ∧
      rawRequest host es = .ok { r with metadata := .dict m, provenance := .dict p } ∧
      ∀ k, lookup k es = (lookup k json).bind canonical := by
  have hlookup : ∀ k, lookup k es = (lookup k json).bind canonical := by
    intro k
    rw [canonical_dict hs, hl]
  rw [hr.toJson] at hj
  cases hj
  obtain ⟨vm, hvm, hm⟩ := canonical_dict_some hs (by rw [hl]; rfl : lookup "metadata" _ = some _)
  obtain ⟨vp, hvp, hp⟩ := canonical_dict_some hs (by rw [hl]; rfl : lookup "provenance" _ = some _)
  obtain ⟨m, rfl⟩ := canonical_dict_shape hvm
  obtain ⟨p, rfl⟩ := canonical_dict_shape hvp
  refine ⟨m, p, hvm, hvp, ?_, hlookup⟩
  have htitle : lookup "title" es = some (.str r.title) := hlookup _
  have hcontent : lookup "raw_content" es = some (.str r.rawContent) := hlookup _
  have hsource : lookup "source_id" es = some (.str r.sourceId) := hlookup _
  have hproject : lookup "project_id" es = some (.str r.projectId) := hlookup _
  have htags : lookup "tags" es = some (.list (r.tags.map .str)) := by
    rw [hlookup]
    exact congrArg (Option.map PyValue.list) (canonicalList_strings r.tags)
  have hstr : (r.tags.map .str).map host.str = r.tags := by
    simp [Function.comp_def, host.str_str]
  simp only [rawRequest, item, htitle, hcontent, hsource, hproject, hm, hp, htags, strings,
    Option.getD_some, hstr, bind, Except.bind, pure, Except.pure, host.str_str]
  rw [← hr.memoryScope, ← hr.captureSurface]

theorem RawMemoryRequest.Plain.distinct {json : JSONObject} (h : r.Plain metadata provenance)
    (hj : r.toJson = some json) : Distinct json := by
  rw [h.toJson] at hj
  cases hj
  simp [Distinct]

theorem RawMemoryRequest.Plain.lookup_toJson {m p json json' : JSONObject}
    (h : r.Plain metadata provenance) (hj : r.toJson = some json)
    (hm : (PyValue.dict metadata).canonical = some (.dict m))
    (hp : (PyValue.dict provenance).canonical = some (.dict p))
    (hj' : { r with metadata := .dict m, provenance := .dict p }.toJson = some json') (k : String) :
    lookup k json' = (lookup k json).bind canonical := by
  have h' : RawMemoryRequest.Plain { r with metadata := .dict m, provenance := .dict p } m p :=
    ⟨rfl, rfl, h.memoryScope, h.captureSurface⟩
  have hstr : ∀ text, canonical (.str text) = some (.str text) := fun _ => rfl
  have htags : canonical (.list (r.tags.map .str)) = some (.list (r.tags.map .str)) :=
    congrArg (Option.map PyValue.list) (canonicalList_strings r.tags)
  have hentries : canonicalEntries json = some json' := by
    rw [h.toJson] at hj
    rw [h'.toJson] at hj'
    cases hj
    cases hj'
    simp only [canonicalEntries, hm, hp, hstr, htags, Option.bind_eq_bind, Option.bind_some]
  exact lookup_canonicalEntries hentries k

theorem raw_sent (host : Host) {json payload es : JSONObject} (hr : r.Plain metadata provenance)
    (hj : r.toJson = some json) (hl : ∀ k, lookup k payload = lookup k json)
    (hd : Distinct payload) (hs : (PyValue.dict payload).canonical = some (.dict es)) :
    ∃ r' json' m, rawRequest host es = .ok r' ∧ r'.toJson = some json' ∧ SameObject json' es ∧
      Distinct json' ∧ (PyValue.dict metadata).canonical = some (.dict m) ∧
      lookup "metadata" json' = some (.dict m) ∧
      ∀ k, lookup k json' = (lookup k json).bind canonical := by
  obtain ⟨m, p, hm, hp, hdecode, hes⟩ := rawRequest_stored host hr hj hl hs
  have hr' : RawMemoryRequest.Plain { r with metadata := .dict m, provenance := .dict p } m p :=
    ⟨rfl, rfl, hr.memoryScope, hr.captureSurface⟩
  have hlookup := hr.lookup_toJson hj hm hp hr'.toJson
  refine ⟨_, _, m, hdecode, hr'.toJson, ?_, hr'.distinct hr'.toJson, hm, rfl, hlookup⟩
  exact sameObject_of_lookup (hr'.distinct hr'.toJson) (distinct_canonical hd hs)
    (canonical_idem _ hs) fun k => by rw [hlookup, hes]

/-! ### The embedded hash -/

def erase (key : String) (es : JSONObject) : JSONObject := es.filter fun e => e.1 ≠ key

theorem lookup_erase (key : String) (es : JSONObject) (k : String) :
    lookup k (erase key es) = if k = key then none else lookup k es := by
  induction es with
  | nil => exact (ite_self _).symm
  | cons e es ih =>
    obtain ⟨k', v⟩ := e
    rw [erase] at ih
    by_cases hk : k' = key
    · rw [erase, List.filter_cons_of_neg (by simp [hk]), ih, lookup, hk]
      split
      · rfl
      · rename_i hne
        rw [if_neg fun he => hne he.symm]
    · rw [erase, List.filter_cons_of_pos (by simp [hk]), lookup, ih, lookup]
      split
      · rename_i he
        rw [if_neg (he ▸ hk)]
      · rfl

theorem distinct_erase {es : JSONObject} (hd : Distinct es) (key : String) :
    Distinct (erase key es) :=
  hd.sublist (List.filter_sublist.map _)

/-- A value that was read back is read back as the value it was read from. -/
theorem map_canonical_of_bind {es es' : JSONObject} {w : PyValue} {k : String}
    (hw : (PyValue.dict es).canonical = some w) (h : lookup k es' = (lookup k es).bind canonical) :
    (lookup k es').map canonical = (lookup k es).map canonical := by
  obtain ⟨ws, rfl⟩ := canonical_dict_shape hw
  rw [h]
  cases hl : lookup k es with
  | none => rfl
  | some v =>
    obtain ⟨y, hy, -⟩ := canonical_dict_some hw hl
    rw [Option.bind_some, hy, Option.map_some, Option.map_some, canonical_idem v hy, hy]

/-- `metadata.provider_request_hash` is the hash of the payload without it. -/
def HashEmbedded (host : Host) (payload : JSONObject) : Prop :=
  ∃ metadata hash, lookup "metadata" payload = some (.dict metadata) ∧
    lookup "provider_request_hash" metadata = some (.str hash) ∧
    canonicalRequestHash host (assign "metadata" (.dict (erase "provider_request_hash" metadata))
      payload) = .ok hash

def RawMemoryRequest.stamp (r : RawMemoryRequest) (metadata : JSONObject) (hash : String) :
    RawMemoryRequest :=
  { r with metadata := .dict (assign "provider_request_hash" (.str hash) metadata) }

/-- A request as it is hashed and then stored, with the hash in its metadata. -/
structure Stamped (host : Host) (new : NewOperation) (r : RawMemoryRequest)
    (metadata provenance : JSONObject) (hash : String) : Prop where
  endpoint : new.endpoint = "/api/memory/raw"
  independent : new.dependsOn = none
  plain : r.Plain metadata provenance
  distinct : Distinct metadata
  unstamped : lookup "provider_request_hash" metadata = none
  hashed : ∃ json body, r.toJson = some json ∧ Distinct body ∧
    (∀ k, lookup k body = lookup k json) ∧ canonicalRequestHash host body = .ok hash
  stored : ∃ json payload, (r.stamp metadata hash).toJson = some json ∧ Distinct payload ∧
    (∀ k, lookup k payload = lookup k json) ∧ new.request = .dict payload

theorem canonicalRequestHash_ok {body : JSONObject} {hash : String}
    (h : canonicalRequestHash host body = .ok hash) :
    ∃ w, (PyValue.dict body).canonical = some w ∧ hash = host.sha256 (w.render false) := by
  unfold canonicalRequestHash at h
  split at h
  · rename_i w hw
    cases h
    exact ⟨w, hw, rfl⟩
  · cases h

theorem RawMemoryRequest.Plain.stamp (h : r.Plain metadata provenance) (hash : String) :
    (r.stamp metadata hash).Plain (assign "provider_request_hash" (.str hash) metadata) provenance :=
  ⟨rfl, h.provenance, h.memoryScope, h.captureSurface⟩

theorem RawMemoryRequest.Plain.stamp_toJson {json : JSONObject} (h : r.Plain metadata provenance)
    (hj : r.toJson = some json) (hash : String) :
    (r.stamp metadata hash).toJson = some (assign "metadata"
      (.dict (assign "provider_request_hash" (.str hash) metadata)) json) := by
  rw [(h.stamp hash).toJson]
  rw [h.toJson] at hj
  cases hj
  rfl

/-- The hash stays that of the body when a stored capture is read back and sent. -/
theorem Stamped.embedded {new : NewOperation} {hash : String} {json json' m : JSONObject}
    (h : Stamped host new r metadata provenance hash)
    (hj : (r.stamp metadata hash).toJson = some json)
    (hm : (PyValue.dict (assign "provider_request_hash" (.str hash) metadata)).canonical
      = some (.dict m))
    (hmeta : lookup "metadata" json' = some (.dict m)) (hd : Distinct json')
    (hl : ∀ k, lookup k json' = (lookup k json).bind canonical) : HashEmbedded host json' := by
  obtain ⟨json₀, body, hj₀, hdb, hbody, hhash⟩ := h.hashed
  obtain ⟨w, hw, hsha⟩ := canonicalRequestHash_ok hhash
  have hm₀ : lookup "metadata" body = some (.dict metadata) := by
    rw [hbody]
    rw [h.plain.toJson] at hj₀
    cases hj₀
    rfl
  obtain ⟨ws, rfl⟩ := canonical_dict_shape hw
  obtain ⟨w₀, hw₀, -⟩ := canonical_dict_some hw hm₀
  -- the metadata without the hash is the metadata that was hashed
  have hmetadata : (PyValue.dict (erase "provider_request_hash" m)).canonical = some w₀ := by
    refine canonical_of_lookup
      (distinct_erase (distinct_canonical (distinct_assign h.distinct _ _) hm) _) h.distinct hw₀
      fun k => ?_
    rw [lookup_erase]
    split
    · rename_i hk
      rw [hk, h.unstamped]
    · rename_i hk
      refine map_canonical_of_bind hw₀ ?_
      rw [canonical_dict hm, lookup_assign, if_neg hk]
  refine ⟨m, hash, hmeta, ?_, ?_⟩
  · rw [canonical_dict hm, lookup_assign, if_pos rfl]
    rfl
  have hsent : (PyValue.dict (assign "metadata" (.dict (erase "provider_request_hash" m))
      json')).canonical = some (.dict ws) := by
    refine canonical_of_lookup (distinct_assign hd _ _) hdb hw fun k => ?_
    rw [lookup_assign]
    split
    · rename_i hk
      rw [hk, hm₀, Option.map_some, Option.map_some, hmetadata, hw₀]
    · rename_i hk
      refine map_canonical_of_bind hw ?_
      rw [h.plain.stamp_toJson hj₀] at hj
      cases hj
      rw [hl, hbody, lookup_assign, if_neg hk]
  rw [canonicalRequestHash, hsent, hsha]

/-! ### The two builders -/

/-- `build_turn_capture` writes the items of `to_json` in another order. -/
theorem capturePayload_lookup {c : CaptureContext} {sessionId userContent assistantContent : String}
    {identity : TurnIdentity} {json m : JSONObject}
    (h : RawMemoryRequest.toJson
      { title := "Hermes turn " ++ sessionId ++ "/" ++ toString identity.turnNumber,
        rawContent := canonicalSource userContent assistantContent, sourceId := identity.sourceId,
        projectId := c.projectId, metadata := .dict m,
        provenance := .dict (captureProvenance c) } = some json) :
    Distinct (capturePayload c sessionId identity userContent assistantContent m) ∧
      ∀ k, lookup k (capturePayload c sessionId identity userContent assistantContent m)
        = lookup k json := by
  have hdistinct : Distinct (capturePayload c sessionId identity userContent assistantContent m) := by
    simp [Distinct, capturePayload]
  refine ⟨hdistinct, fun k => lookup_perm hdistinct ?_ k⟩
  cases h
  have hcomm : ([("capture_surface", .str CAPTURE_SURFACE)] ++
      [("metadata", .dict m), ("provenance", .dict (captureProvenance c))] : JSONObject).Perm
      ([("metadata", .dict m), ("provenance", .dict (captureProvenance c))] ++
        [("capture_surface", .str CAPTURE_SURFACE)]) := List.perm_append_comm
  exact hcomm.append_left ((capturePayload c sessionId identity userContent assistantContent m).take 7)

theorem captureFactory_stamped {c : RuntimeContext} {sessionId parentSessionId : String}
    {turnNumber : Option Int} {userContent assistantContent : String} {localSequence : Nat}
    {turn : NewTurnOperation}
    (h : captureFactory host c sessionId parentSessionId turnNumber userContent assistantContent
      localSequence = .ok turn) :
    ∃ r metadata provenance hash, Stamped host turn.operation r metadata provenance hash := by
  obtain ⟨identity, hash, -, hhash, rfl⟩ := captureFactory_ok h
  have hplain : RawMemoryRequest.Plain
      { title := "Hermes turn " ++ sessionId ++ "/" ++ toString identity.turnNumber,
        rawContent := canonicalSource userContent assistantContent, sourceId := identity.sourceId,
        projectId := (c.capture host).projectId,
        metadata := .dict (captureMetadata (c.capture host) sessionId parentSessionId identity),
        provenance := .dict (captureProvenance (c.capture host)) }
      (captureMetadata (c.capture host) sessionId parentSessionId identity)
      (captureProvenance (c.capture host)) := ⟨rfl, rfl, rfl, rfl⟩
  have hbody := capturePayload_lookup hplain.toJson
  have hpayload := capturePayload_lookup (hplain.stamp hash).toJson
  exact ⟨_, _, _, hash, rfl, rfl, hplain, by simp [Distinct, captureMetadata], rfl,
    ⟨_, _, hplain.toJson, hbody.1, hbody.2, hhash⟩,
    ⟨_, _, (hplain.stamp hash).toJson, hpayload.1, hpayload.2, rfl⟩⟩

theorem rememberOperation_stamped {c : RuntimeContext} {sessionId callIdentity : String}
    {args : RememberToolArgs} {new : NewOperation}
    (h : rememberOperation host c sessionId callIdentity args = .ok new) :
    ∃ r metadata provenance hash, Stamped host new r metadata provenance hash := by
  unfold rememberOperation at h
  simp only [bind_ok] at h
  obtain ⟨payload, hp, h⟩ := h
  cases h
  have hplain : RawMemoryRequest.Plain
      (rememberRequest c sessionId callIdentity (host.sha256 args.content)
        (hashParts host [c.agentId, sessionId, callIdentity, args.kind, host.sha256 args.content]) args)
      _ _ := ⟨rfl, rfl, rfl, rfl⟩
  rw [hplain.toJson, Option.getD_some] at hp
  unfold stampRequestHash at hp
  split at hp
  · rename_i hash m hhash hm
    cases hm
    cases hp
    have hstamped := hplain.stamp hash
    exact ⟨_, _, _, hash, rfl, rfl, hplain, by simp [Distinct], rfl,
      ⟨_, _, hplain.toJson, hplain.distinct hplain.toJson, fun _ => rfl, hhash⟩,
      ⟨_, _, hstamped.toJson, hstamped.distinct hstamped.toJson, fun _ => rfl, rfl⟩⟩
  · cases hp
  · cases hp

end Raw

/-! ### Exposures -/

theorem exposure_stored (host : Host) {r : ContextExposureRequest} {sessionHash queryHash : String}
    {es : JSONObject} (hsession : r.sessionIdHash = some (.str sessionHash))
    (hquery : r.queryHash = some (.str queryHash))
    (hs : (PyValue.dict r.toJson).canonical = some (.dict es)) : exposureRequest host es = .ok r := by
  obtain ⟨exposedIds, projectId, sessionIdHash, query, automatic⟩ := r
  cases hsession
  cases hquery
  have hlookup := canonical_dict hs
  obtain ⟨vm, hvm, hm⟩ := canonical_dict_some hs (rfl : lookup "metadata" _ = some _)
  obtain ⟨m, rfl⟩ := canonical_dict_shape hvm
  have hmeta := canonical_dict hvm
  have hids : lookup "exposed_ids" es = some (.list (exposedIds.map .str)) := by
    rw [hlookup]
    exact congrArg (Option.map PyValue.list) (canonicalList_strings exposedIds)
  have hproject : lookup "project_id" es = some (.str projectId) := hlookup _
  have hautomatic : lookup "automatic" m = some (.bool automatic) := hmeta _
  have hsessionItem : lookup "session_id_hash" m = some (.str sessionHash) := hmeta _
  have hqueryItem : lookup "query_hash" m = some (.str queryHash) := hmeta _
  have hstr : (exposedIds.map .str).map host.str = exposedIds := by
    simp [Function.comp_def, host.str_str]
  simp only [exposureRequest, hm, item, hids, hproject, Option.getD_some, strings, hstr, host.str_str,
    optionalItem, hsessionItem, hqueryItem, hautomatic, truthy, bind, Except.bind, pure, Except.pure]

/-! ### Corrections -/

def correctionKeys : List String :=
  ["action", "reason", "metadata"] ++ optionalKeys ++ ["expected_revision"]

theorem presentEntries_keys (pairs : List (String × Option PyValue)) :
    ((presentEntries pairs).map Prod.fst).Sublist (pairs.map Prod.fst) := by
  induction pairs with
  | nil => exact List.Sublist.slnil
  | cons p pairs ih =>
    obtain ⟨k, v⟩ := p
    cases v with
    | none => exact ih.cons k
    | some v => exact ih.cons_cons k

theorem CorrectionRequest.toJson_keys {r : CorrectionRequest} {json : JSONObject}
    (h : r.toJson = some json) :
    (json.map Prod.fst).Sublist correctionKeys := by
  unfold CorrectionRequest.toJson at h
  obtain ⟨metadata, -, h⟩ := Option.bind_eq_some_iff.mp h
  cases h
  exact (presentEntries_keys _).append_left ["action", "reason", "metadata"]

theorem CorrectionRequest.toJson_distinct {r : CorrectionRequest} {json : JSONObject}
    (h : r.toJson = some json) : Distinct json :=
  (toJson_keys h).nodup (by decide)


theorem CorrectionRequest.toJson_other {r : CorrectionRequest} {json : JSONObject}
    (h : r.toJson = some json) {k : String} (hk : k ∉ correctionKeys) : lookup k json = none := by
  cases hl : lookup k json with
  | none => rfl
  | some v => exact absurd ((toJson_keys h).subset (List.mem_map.mpr ⟨_, lookup_mem hl, rfl⟩)) hk

theorem canonical_assign {es : JSONObject} {key : String} {v w : PyValue} (hd : Distinct es)
    (hes : (PyValue.dict es).canonical = some (.dict es)) (hv : v.canonical = some w) :
    ∃ w', (PyValue.dict (assign key v es)).canonical = some w' := by
  have hvalues : ∀ e ∈ assign key v es, e.2.canonical.isSome := by
    intro e he
    have hl := lookup_of_mem (distinct_assign hd key v) he
    rw [lookup_assign] at hl
    split at hl
    · cases hl
      rw [hv]
      rfl
    · rw [lookup_fixed hes hl]
      rfl
  obtain ⟨ces, hces⟩ := Option.isSome_iff_exists.mp (canonicalEntries_isSome hvalues)
  exact ⟨_, by rw [canonical, hces, Option.map_some]⟩

def Filled (es data : JSONObject) : Prop :=
  data = es ∨ ∃ revision : Int, data = assign "expected_revision" (.int revision) es

theorem Filled.lookup {es data : JSONObject} (h : Filled es data) {k : String}
    (hk : k ≠ "expected_revision") : PyValue.lookup k data = PyValue.lookup k es := by
  rcases h with rfl | ⟨revision, rfl⟩
  · rfl
  · rw [lookup_assign, if_neg hk]

theorem correction_sent (host : Host) {r : CorrectionRequest} {json es data : JSONObject}
    (hr : r.Plain) (hrevision : r.expectedRevision ≠ some .none) (hj : r.toJson = some json)
    (hs : (PyValue.dict json).canonical = some (.dict es)) (hdata : Filled es data) :
    ∃ r' json', correctionRequest host data = .ok r' ∧ r'.toJson = some json' ∧
      SameObject json' data := by
  have henc := CorrectionRequest.toJson_encodes hj
  have hlookup := canonical_dict hs
  have hstored := stored_correction hr hj hs
  have hdes := distinct_canonical (CorrectionRequest.toJson_distinct hj) hs
  obtain ⟨text, htext⟩ := hstored.reason
  obtain ⟨m, hm⟩ := hstored.metadata
  obtain ⟨action, -, haction⟩ := canonical_dict_some hs henc.action
  rw [← hdata.lookup (by decide)] at htext hm haction
  obtain ⟨r', hr'⟩ : ∃ r', correctionRequest host data = .ok r' := by
    simp [correctionRequest, item, haction, htext, bind, Except.bind, pure, Except.pure]
  have hdec := correctionRequest_decodes hr'
  have hmeta : r'.metadata = .dict m := by rw [hdec.metadata, hm, Option.getD_some]
  obtain ⟨json', hj'⟩ : ∃ json', r'.toJson = some json' := by
    rw [CorrectionRequest.toJson, hmeta]
    exact ⟨_, rfl⟩
  have henc' := CorrectionRequest.toJson_encodes hj'
  have hoptional : ∀ k ∈ optionalKeys, optionalItem data k = PyValue.lookup k data := by
    intro k hk
    refine optionalItem_eq ?_
    rw [hdata.lookup (by rintro rfl; exact absurd hk (by decide))]
    exact hstored.present k hk
  have hexpected : optionalItem data "expected_revision" = PyValue.lookup "expected_revision" data := by
    refine optionalItem_eq ?_
    rcases hdata with rfl | ⟨revision, rfl⟩
    · rw [hlookup, henc.expectedRevision]
      exact present_canonical hrevision
    · rw [lookup_assign, if_pos rfl]
      simp
  obtain ⟨w, hw⟩ : ∃ w, (PyValue.dict data).canonical = some w := by
    rcases hdata with rfl | ⟨revision, rfl⟩
    · exact ⟨_, canonical_idem _ hs⟩
    · exact canonical_assign hdes (canonical_idem _ hs) (w := .int revision) rfl
  have hd : Distinct data := by
    rcases hdata with rfl | ⟨revision, rfl⟩
    · exact hdes
    · exact distinct_assign hdes _ _
  refine ⟨r', json', hr', hj', sameObject_of_lookup (CorrectionRequest.toJson_distinct hj') hd hw
    fun k => ?_⟩
  by_cases hk : k ∈ correctionKeys
  · simp only [correctionKeys, optionalKeys, List.mem_append, List.mem_cons, List.not_mem_nil,
      or_false] at hk
    rcases hk with ((rfl | rfl | rfl) | rfl | rfl | rfl) | rfl
    · rw [henc'.action, hdec.action]
    · obtain ⟨v, hv, hreason⟩ := hdec.reason
      rw [htext] at hv
      cases hv
      rw [henc'.reason, hreason, host.str_str, htext]
    · obtain ⟨m', hm', hl⟩ := henc'.metadata
      rw [hmeta] at hm'
      cases hm'
      rw [hl, hm]
    · rw [henc'.replacementSourceId, hdec.replacementSourceId, hoptional _ (by decide)]
    · rw [henc'.duplicateOfSourceId, hdec.duplicateOfSourceId, hoptional _ (by decide)]
    · rw [henc'.revisedContent, hdec.revisedContent, hoptional _ (by decide)]
    · rw [henc'.expectedRevision, hdec.expectedRevision, hexpected]
  · have hne : k ≠ "expected_revision" := by
      rintro rfl
      exact hk (by decide)
    rw [CorrectionRequest.toJson_other hj' hk, hdata.lookup hne, hlookup,
      CorrectionRequest.toJson_other hj hk, Option.bind_none]

/-! ### Operations -/

/-- The operations that the runtime hands to the outbox. -/
inductive Enqueues (host : Host) : NewOperation → Prop where
  | capture {c : RuntimeContext} {sessionId parentSessionId userContent assistantContent : String}
      {turnNumber : Option Int} {localSequence : Nat} {turn : NewTurnOperation}
      (built : captureFactory host c sessionId parentSessionId turnNumber userContent
        assistantContent localSequence = .ok turn) : Enqueues host turn.operation
  | remember {c : RuntimeContext} {sessionId callIdentity : String} {args : RememberToolArgs}
      {new : NewOperation} (built : rememberOperation host c sessionId callIdentity args = .ok new) :
      Enqueues host new
  | expose (c : RuntimeContext) (sessionHash queryHash : String) (deliverySequence : Nat)
      (renderedItemIds : List String) (automatic : Bool) : Enqueues host
        (exposureOperation host c sessionHash queryHash deliverySequence renderedItemIds automatic)
  | rewind (agentId : String) (correction : StaleCorrectionIntent) :
      Enqueues host (rewindOperation host agentId correction)
  | correct (c : RuntimeContext) (sessionId callIdentity : String) (args : CorrectionToolArgs)
      (currentRevision : Int) :
      Enqueues host (correctOperation host c sessionId callIdentity args currentRevision)
  | replace {s : Store} {op : ClaimedOperation} {sourceId : String} {r : CorrectionRequest}
      {preview : CorrectionResponse} {new : NewOperation}
      (begun : beginAttempt host s op = .ok (.preview sourceId r))
      (reconciled : reconcileCorrection host op r preview = .ok (.replace new)) : Enqueues host new

/-- What is to be sent: what is stored, and for a correction without a revision also that of the
turn it waits for. -/
inductive Expected (s : Store) (op : ClaimedOperation) : JSONObject → Prop where
  | stored (own : op.dependsOn = none ∨ lookup "expected_revision" op.request ≠ none) :
      Expected s op op.request
  | hydrated {d : String} {revision : Int} (waits : op.dependsOn = some d)
      (missing : lookup "expected_revision" op.request = none)
      (known : s.turnRevision d = some revision) :
      Expected s op (assign "expected_revision" (.int revision) op.request)

/-- An attempt sends what is stored, or waits for the revision of a turn. -/
inductive WireAgrees (host : Host) (s : Store) (op : ClaimedOperation) : Prop where
  | sent {attempt : Attempt} {payload data : JSONObject}
      (begun : beginAttempt host s op = .ok attempt) (encoded : attempt.payload = some payload)
      (expected : Expected s op data) (same : SameObject payload data)
      (hash : isRaw op = true → HashEmbedded host payload)
  | waiting {d : String} (waits : op.dependsOn = some d)
      (missing : lookup "expected_revision" op.request = none) (unknown : s.turnRevision d = none)
      (begun : beginAttempt host s op = .ok (.finished revisionMissing))

section Agreement
variable {host : Host} {s : Store} {op : ClaimedOperation} {new : NewOperation}

theorem stored_request (hc : op.content = new.content) :
    new.request.canonical = some (.dict op.request) := by
  have hr : PyValue.dict op.request = new.request.canonical.getD .none := congrArg Content.request hc
  cases hw : new.request.canonical with
  | none => rw [hw] at hr; cases hr
  | some w => rw [hw] at hr; rw [hr, Option.getD_some]

theorem stamped_agrees {r : RawMemoryRequest} {metadata provenance : JSONObject} {hash : String}
    (h : Stamped host new r metadata provenance hash) (hc : op.content = new.content) :
    WireAgrees host s op := by
  obtain ⟨json, payload, hj, hd, hl, hpayload⟩ := h.stored
  have hstored := stored_request hc
  rw [hpayload] at hstored
  obtain ⟨r', json', m, hdecode, hj', hsame, hd', hm, hmeta, hl'⟩ :=
    raw_sent host (h.plain.stamp hash) hj hl hd hstored
  have hend : op.endpoint = "/api/memory/raw" := (congrArg Content.endpoint hc).trans h.endpoint
  have hbegun : beginAttempt host s op = .ok (.remember r') := by
    rw [beginAttempt, hend, if_pos (by decide), hdecode]
    rfl
  refine .sent hbegun hj' (.stored (.inl ?_)) hsame fun _ => h.embedded hj hm hmeta hd' hl'
  exact (congrArg Content.dependsOn hc).trans h.independent

theorem exposure_agrees {r : ContextExposureRequest} {sessionHash queryHash : String}
    (hsession : r.sessionIdHash = some (.str sessionHash)) (hquery : r.queryHash = some (.str queryHash))
    (hend : new.endpoint = "/api/memory/expose") (hkind : new.kind = "context_exposure")
    (hdep : new.dependsOn = none) (hreq : new.request = .dict r.toJson)
    (hc : op.content = new.content) : WireAgrees host s op := by
  have hstored := stored_request hc
  rw [hreq] at hstored
  have hdecode := exposure_stored host hsession hquery hstored
  have hop : op.endpoint = "/api/memory/expose" := (congrArg Content.endpoint hc).trans hend
  have hk : op.kind = "context_exposure" := (congrArg Content.kind hc).trans hkind
  have hbegun : beginAttempt host s op = .ok (.expose r) := by
    rw [beginAttempt, hop, if_neg (by decide), if_pos hk, hdecode]
    rfl
  refine .sent hbegun rfl (.stored (.inl ?_)) ⟨_, hstored, canonical_idem _ hstored⟩ ?_
  · exact (congrArg Content.dependsOn hc).trans hdep
  · intro hraw
    rw [isRaw, hop] at hraw
    exact absurd hraw (by decide)

structure Correction (new : NewOperation) (r : CorrectionRequest) : Prop where
  plain : r.Plain
  revision : r.expectedRevision ≠ some .none
  request : ∃ json, r.toJson = some json ∧ new.request = .dict json
  notRaw : endsWith new.endpoint "/memory/raw" = false
  kind : new.kind ≠ "context_exposure"
  source : ∃ sourceId, correctionSourceId new.endpoint = .ok sourceId

theorem hydrate_own (h : op.dependsOn = none ∨ optionalItem op.request "expected_revision" ≠ none) :
    hydrate s op = some op.request := by
  unfold hydrate
  split
  · rename_i d hmissing hwaits
    rcases h with hdep | hown
    · rw [hdep] at hwaits
      cases hwaits
    · exact absurd hmissing hown
  · rfl

theorem hydrate_waits {d : String} (hwaits : op.dependsOn = some d)
    (hmissing : optionalItem op.request "expected_revision" = none) : hydrate s op =
      (s.turnRevision d).map fun revision => assign "expected_revision" (.int revision) op.request := by
  rw [hydrate, hmissing, hwaits]
  dsimp only
  cases s.turnRevision d with
  | none => rfl
  | some revision => rfl

theorem source_endsWith {endpoint sourceId : String}
    (h : correctionSourceId endpoint = .ok sourceId) : endsWith endpoint "/corrections" = true := by
  unfold correctionSourceId at h
  split at h
  · rename_i hboth
    rw [Bool.and_eq_true] at hboth
    exact hboth.2
  · cases h

theorem correction_begun {sourceId : String} {data : JSONObject} {r : CorrectionRequest}
    (hraw : endsWith op.endpoint "/memory/raw" = false) (hkind : op.kind ≠ "context_exposure")
    (hsource : correctionSourceId op.endpoint = .ok sourceId) (hdata : hydrate s op = some data)
    (hr : correctionRequest host data = .ok r) :
    ∃ attempt, beginAttempt host s op = .ok attempt ∧ attempt.payload = r.toJson := by
  rw [beginAttempt, if_neg (by rw [hraw]; decide), if_neg hkind, if_pos (source_endsWith hsource)]
  simp only [correctionAttempt, hsource, hdata, hr, bind, Except.bind, pure, Except.pure]
  split
  · exact ⟨_, rfl, rfl⟩
  · exact ⟨_, rfl, rfl⟩

theorem correction_agrees {r : CorrectionRequest} (h : Correction new r)
    (hc : op.content = new.content) : WireAgrees host s op := by
  obtain ⟨json, hj, hreq⟩ := h.request
  obtain ⟨sourceId, hsource⟩ := h.source
  have hstored := stored_request hc
  rw [hreq] at hstored
  have hend : op.endpoint = new.endpoint := congrArg Content.endpoint hc
  have hraw : endsWith op.endpoint "/memory/raw" = false := by rw [hend, h.notRaw]
  have hkind : op.kind ≠ "context_exposure" := by
    rw [show op.kind = new.kind from congrArg Content.kind hc]
    exact h.kind
  rw [← hend] at hsource
  have hpresent : lookup "expected_revision" op.request ≠ some .none := by
    rw [canonical_dict hstored, (CorrectionRequest.toJson_encodes hj).expectedRevision]
    exact present_canonical h.revision
  have hitem := optionalItem_eq hpresent
  have hsent : ∀ data, Filled op.request data → hydrate s op = some data → Expected s op data →
      WireAgrees host s op := by
    intro data hfilled hdata hexpected
    obtain ⟨r', json', hr', hj', hsame⟩ :=
      correction_sent host h.plain h.revision hj hstored hfilled
    obtain ⟨attempt, hbegun, hpayload⟩ := correction_begun hraw hkind hsource hdata hr'
    exact .sent hbegun (hpayload.trans hj') hexpected hsame fun hr => by
      rw [isRaw, hraw] at hr
      cases hr
  by_cases hown : op.dependsOn = none ∨ lookup "expected_revision" op.request ≠ none
  · exact hsent _ (.inl rfl) (hydrate_own (hown.imp_right (hitem ▸ ·))) (.stored hown)
  rw [not_or, not_not] at hown
  obtain ⟨d, hd⟩ := Option.ne_none_iff_exists'.mp hown.1
  have hhydrate := hydrate_waits (s := s) hd (hitem.trans hown.2)
  cases hv : s.turnRevision d with
  | none =>
    rw [hv, Option.map_none] at hhydrate
    refine .waiting hd hown.2 hv ?_
    rw [beginAttempt, if_neg (by rw [hraw]; decide), if_neg hkind, if_pos (source_endsWith hsource)]
    simp only [correctionAttempt, hsource, hhydrate, bind, Except.bind, pure, Except.pure]
  | some v =>
    rw [hv, Option.map_some] at hhydrate
    exact hsent _ (.inr ⟨v, rfl⟩) hhydrate (.hydrated hd hown.2 hv)

/-! ### What the builders make -/

theorem correction_made {r : CorrectionRequest} {sourceId : String} (hr : r.Plain)
    (hrevision : r.expectedRevision ≠ some .none) (hreq : new.request = correctionJson r)
    (hend : new.endpoint = correctionEndpoint sourceId) (hkind : new.kind ≠ "context_exposure") :
    Correction new r where
  plain := hr
  revision := hrevision
  request := by
    obtain ⟨m, hm⟩ := hr.metadata
    obtain ⟨json, hj⟩ : ∃ json, r.toJson = some json := by
      rw [CorrectionRequest.toJson, hm]
      exact ⟨_, rfl⟩
    exact ⟨json, hj, by rw [hreq, correctionJson, hj, Option.getD_some]⟩
  notRaw := by rw [hend, correctionEndpoint_not_raw]
  kind := hkind
  source := ⟨sourceId, by rw [hend, correctionEndpoint_source]⟩

theorem preview_begun {sourceId : String} {r : CorrectionRequest}
    (h : beginAttempt host s op = .ok (.preview sourceId r)) :
    endsWith op.endpoint "/memory/raw" = false ∧ op.kind ≠ "context_exposure" ∧
      correctionSourceId op.endpoint = .ok sourceId ∧ ∃ data, r.Decodes host data := by
  unfold beginAttempt at h
  split at h
  · cases hr : rawRequest host op.request with
    | error e => rw [hr] at h; cases h
    | ok r => rw [hr] at h; cases h
  rename_i hraw
  split at h
  · cases hr : exposureRequest host op.request with
    | error e => rw [hr] at h; cases h
    | ok r => rw [hr] at h; cases h
  rename_i hkind
  split at h
  · unfold correctionAttempt at h
    simp only [bind_ok] at h
    obtain ⟨i, hsource, h⟩ := h
    split at h
    · cases h
    · simp only [bind_ok] at h
      obtain ⟨r', hr, h⟩ := h
      split at h
      · cases h
        exact ⟨by simpa using hraw, hkind, hsource, _, correctionRequest_decodes hr⟩
      · cases h
  · cases h

theorem replacement_made {sourceId : String} {r : CorrectionRequest} {preview : CorrectionResponse}
    (begun : beginAttempt host s op = .ok (.preview sourceId r))
    (reconciled : reconcileCorrection host op r preview = .ok (.replace new)) :
    ∃ r', Correction new r' := by
  obtain ⟨hraw, hkind, hsource, data, hdec⟩ := preview_begun begun
  obtain ⟨revision, action, metadata, json, hrep⟩ := reconcileCorrection_replaced reconciled
  have hplain := hdec.plain hrep.notes
  obtain rfl := hrep.operation
  refine ⟨_, ?_, ?_, ⟨json, hrep.encoded, rfl⟩, hraw, hkind, sourceId, hsource⟩
  · exact ⟨⟨_, rfl⟩, hplain.replacementSourceId, hplain.duplicateOfSourceId, hplain.revisedContent⟩
  · simp

/-- What is sent for an operation of the runtime is what was stored for it. -/
theorem stored_wire_agree (h : Enqueues host new) (hc : op.content = new.content) :
    WireAgrees host s op := by
  have htext : ∀ x : Option String, x.map PyValue.str ≠ some .none := by
    intro x
    cases x <;> simp
  have hint : ∀ x : Option Int, x.map PyValue.int ≠ some .none := by
    intro x
    cases x <;> simp
  cases h with
  | capture built =>
    obtain ⟨r, metadata, provenance, hash, hstamped⟩ := captureFactory_stamped built
    exact stamped_agrees hstamped hc
  | remember built =>
    obtain ⟨r, metadata, provenance, hash, hstamped⟩ := rememberOperation_stamped built
    exact stamped_agrees hstamped hc
  | expose c sessionHash queryHash deliverySequence renderedItemIds automatic =>
    exact exposure_agrees rfl rfl rfl rfl rfl rfl hc
  | rewind agentId correction =>
    let r := rewindRequest (rewindOperationId host agentId correction.operationId)
      correction.expectedRevision
    have hplain : r.Plain := ⟨⟨_, rfl⟩, htext none, htext none, htext none⟩
    have hkind : "rewind_correction" ≠ "context_exposure" := by decide
    exact correction_agrees (correction_made hplain (hint _) rfl rfl hkind) hc
  | correct c sessionId callIdentity args currentRevision =>
    have hplain : CorrectionRequest.Plain
        { action := .str args.apiAction, reason := args.reason,
          revisedContent := args.revisedContent.map .str,
          replacementSourceId := args.replacementSourceId.map .str,
          duplicateOfSourceId := args.duplicateOfSourceId.map .str,
          expectedRevision := some (.int currentRevision),
          metadata := .dict [("provider_operation_id", .str (hashParts host [c.agentId, sessionId,
            callIdentity, args.sourceId, args.apiAction, toString currentRevision]))] } :=
      ⟨⟨_, rfl⟩, htext _, htext _, htext _⟩
    have hkind : "manual_correction" ≠ "context_exposure" := by decide
    exact correction_agrees (correction_made hplain (hint (some _)) rfl rfl hkind) hc
  | replace begun reconciled =>
    obtain ⟨r, hr⟩ := replacement_made begun reconciled
    exact correction_agrees hr hc

end Agreement

def sampleStale : StaleCorrectionIntent where
  operationId := "turn"
  sourceId := "hermes:turn:1"
  expectedRevision := some 3
  dependsOnOperationId := none

def sampleRewind : NewOperation := rewindOperation Host.plain "hermes:main" sampleStale

def claimedRewind : ClaimedOperation :=
  { sampleClaim sampleRewind "worker" "token" 1 with
    request := [("action", .str "mark_stale"), ("expected_revision", .int 3),
      ("metadata", .dict [("provider_operation_id",
        .str (rewindOperationId Host.plain "hermes:main" "turn"))]),
      ("reason", .str "hermes_session_rewind")] }

theorem stored_wire_agree_rewind : WireAgrees Host.plain Store.empty claimedRewind :=
  stored_wire_agree (.rewind "hermes:main" sampleStale) rfl

end SibylMemory
