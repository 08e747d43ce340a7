import SibylMemory.Delivery.Accounts
import SibylMemory.Library.Chains

/-!
# Chains of replaced corrections

A correction that meets a revision conflict is previewed and superseded by one with the reported
revision and otherwise the same request. The history links it to its replacement.
-/

namespace SibylMemory
open Outbox Idempotency

/-! ### Stored corrections -/

def optionalKeys : List String := ["replacement_source_id", "duplicate_of_source_id", "revised_content"]

/-- A stored correction: text for a reason, a mapping for metadata, and no null. -/
structure StoredCorrection (es : JSONObject) : Prop where
  reason : ∃ text, PyValue.lookup "reason" es = some (.str text)
  metadata : ∃ m, PyValue.lookup "metadata" es = some (.dict m)
  present : ∀ key ∈ optionalKeys, PyValue.lookup key es ≠ some .none

/-- A request without nulls, with a mapping for metadata. -/
structure CorrectionRequest.Plain (r : CorrectionRequest) : Prop where
  metadata : ∃ m, r.metadata = .dict m
  replacementSourceId : r.replacementSourceId ≠ some .none
  duplicateOfSourceId : r.duplicateOfSourceId ≠ some .none
  revisedContent : r.revisedContent ≠ some .none

def sourceEndpoints : List String := ["/api/memory/raw", "/api/memory/expose"]

structure Stored (c : Content) : Prop where
  canonical : c.request.canonical = some c.request
  correction : c.endpoint ∈ sourceEndpoints ∨ ∃ es, c.request = .dict es ∧ StoredCorrection es

theorem present_canonical {v : Option PyValue} (h : v ≠ some .none) :
    v.bind PyValue.canonical ≠ some .none := by
  intro hn
  obtain ⟨x, rfl, hx⟩ := Option.bind_eq_some_iff.mp hn
  exact h (congrArg some (PyValue.canonical_eq_none hx))

theorem stored_correction {r : CorrectionRequest} (hr : r.Plain) {json es : JSONObject}
    (hj : r.toJson = some json) (hc : (PyValue.dict json).canonical = some (.dict es)) :
    StoredCorrection es := by
  have henc := CorrectionRequest.toJson_encodes hj
  have hlookup := PyValue.canonical_dict hc
  refine ⟨⟨r.reason, ?_⟩, ?_, fun key hkey => ?_⟩
  · rw [hlookup, henc.reason]
    rfl
  · obtain ⟨m, -, hm⟩ := henc.metadata
    obtain ⟨w, hw, hl⟩ := PyValue.canonical_dict_some hc hm
    obtain ⟨m', -, rfl⟩ := Option.map_eq_some_iff.mp hw
    exact ⟨_, hl⟩
  · rw [hlookup]
    simp only [optionalKeys, List.mem_cons, List.not_mem_nil, or_false] at hkey
    rcases hkey with rfl | rfl | rfl
    · rw [henc.replacementSourceId]
      exact present_canonical hr.replacementSourceId
    · rw [henc.duplicateOfSourceId]
      exact present_canonical hr.duplicateOfSourceId
    · rw [henc.revisedContent]
      exact present_canonical hr.revisedContent

/-- What is offered for an endpoint that takes corrections. -/
def Wellmade (op : NewOperation) : Prop :=
  op.endpoint ∈ sourceEndpoints ∨
    ∃ r json, CorrectionRequest.Plain r ∧ r.toJson = some json ∧ op.request = .dict json

theorem correctionJson_wellmade {r : CorrectionRequest} (hr : r.Plain) {op : NewOperation}
    (h : op.request = correctionJson r) : Wellmade op := by
  obtain ⟨m, hm⟩ := hr.metadata
  obtain ⟨json, hj⟩ : ∃ json, r.toJson = some json := by
    rw [CorrectionRequest.toJson, hm]
    exact ⟨_, rfl⟩
  exact .inr ⟨r, json, hr, hj, by rw [h, correctionJson, hj]; rfl⟩

theorem own_wellmade {host : Host} {s : Store} {op : NewOperation} (h : Own host s op) :
    Wellmade op := by
  have htext : ∀ x : Option String, x.map PyValue.str ≠ some .none := by
    intro x
    cases x <;> simp
  cases h with
  | capture made =>
    left
    rw [(captureFactory_captured made).endpoint]
    decide
  | rewind =>
    exact correctionJson_wellmade
      ⟨⟨_, rfl⟩, by simp [rewindRequest], by simp [rewindRequest], by simp [rewindRequest]⟩ rfl
  | remember made =>
    unfold rememberOperation at made
    simp only [bind_ok] at made
    obtain ⟨payload, -, made⟩ := made
    cases made
    exact .inl (by simp [sourceEndpoints])
  | correct => exact correctionJson_wellmade ⟨⟨_, rfl⟩, htext _, htext _, htext _⟩ rfl
  | expose => exact .inl (by simp [exposureOperation, sourceEndpoints])

theorem CorrectionRequest.Decodes.plain {host : Host} {r : CorrectionRequest} {data m : JSONObject}
    (h : r.Decodes host data) (hm : r.metadata = .dict m) : r.Plain where
  metadata := ⟨m, hm⟩
  replacementSourceId := h.replacementSourceId ▸ optionalItem_ne_none _ _
  duplicateOfSourceId := h.duplicateOfSourceId ▸ optionalItem_ne_none _ _
  revisedContent := h.revisedContent ▸ optionalItem_ne_none _ _

/-! ### Links -/

def intentKeys : List String := ["action", "reason"] ++ optionalKeys

/-- Two stored corrections ask for the same, up to the revision they expect and the name of the
operation in the metadata. -/
structure SameIntent (c d : Content) : Prop where
  kind : d.kind = c.kind
  endpoint : d.endpoint = c.endpoint
  dependsOn : d.dependsOn = c.dependsOn
  request : ∃ es es', c.request = .dict es ∧ d.request = .dict es' ∧
    (∀ key ∈ intentKeys, PyValue.lookup key es' = PyValue.lookup key es) ∧
    ∃ m m', PyValue.lookup "metadata" es = some (.dict m) ∧
      PyValue.lookup "metadata" es' = some (.dict m') ∧
      ∀ key, key ≠ "provider_operation_id" → PyValue.lookup key m' = PyValue.lookup key m

theorem SameIntent.trans {c d e : Content} (h : SameIntent c d) (h' : SameIntent d e) :
    SameIntent c e := by
  obtain ⟨es, es₁, hc, hd, hkeys, m, m₁, hm, hm₁, hmeta⟩ := h.request
  obtain ⟨es₁', es₂, hd', he, hkeys', m₁', m₂, hm₁', hm₂, hmeta'⟩ := h'.request
  rw [hd] at hd'
  cases hd'
  rw [hm₁] at hm₁'
  cases hm₁'
  refine ⟨h'.kind.trans h.kind, h'.endpoint.trans h.endpoint, h'.dependsOn.trans h.dependsOn,
    es, es₂, hc, he, fun key hkey => ?_, m, m₂, hm, hm₂, fun key hkey => ?_⟩
  · exact (hkeys' key hkey).trans (hkeys key hkey)
  · exact (hmeta' key hkey).trans (hmeta key hkey)

theorem Hydrated.lookup {server : ServerLog} {op : ClaimedOperation} {data : JSONObject}
    (h : Hydrated server op data) {key : String} (hk : key ≠ "expected_revision") :
    PyValue.lookup key data = PyValue.lookup key op.request := by
  cases h with
  | explicit own => rfl
  | dependent missing waits effect => rw [PyValue.lookup_assign, if_neg hk]

theorem replaced_sameIntent {host : Host} {server : ServerLog} {op : ClaimedOperation}
    {r : CorrectionRequest} {data : JSONObject} {preview : CorrectionResponse}
    {replacement : NewOperation} {revision : Int} {action : String} {metadata json : JSONObject}
    (hfixed : (PyValue.dict op.request).canonical = some (.dict op.request))
    (hstored : StoredCorrection op.request) (hdata : Hydrated server op data)
    (hdecode : r.Decodes host data)
    (hrep : Replaced host op r preview replacement revision action metadata json)
    {json' : JSONObject} (hcanon : (PyValue.dict json).canonical = some (.dict json')) :
    SameIntent op.content { replacement.content with request := .dict json' } ∧
      PyValue.lookup "expected_revision" json' = some (.int revision) := by
  have henc := CorrectionRequest.toJson_encodes hrep.encoded
  have hlookup := PyValue.canonical_dict hcanon
  have hop : ∀ key v, key ≠ "expected_revision" → PyValue.lookup key data = some v →
      PyValue.lookup key op.request = some v ∧ v.canonical = some v := by
    intro key v hk hv
    rw [hdata.lookup hk] at hv
    exact ⟨hv, PyValue.lookup_fixed hfixed hv⟩
  -- an optional entry is there in both, or in neither
  have hoptional : ∀ key, key ∈ optionalKeys → key ≠ "expected_revision" →
      (optionalItem data key).bind PyValue.canonical = PyValue.lookup key op.request := by
    intro key hkey hk
    have hpresent : PyValue.lookup key data ≠ some .none := by
      rw [hdata.lookup hk]
      exact hstored.present key hkey
    rw [optionalItem_eq hpresent]
    cases hv : PyValue.lookup key data with
    | none => rw [← hdata.lookup hk, hv]; rfl
    | some v =>
      obtain ⟨hl, hc⟩ := hop key v hk hv
      rw [hl]
      exact hc
  have haction : PyValue.lookup "action" json' = PyValue.lookup "action" op.request := by
    obtain ⟨hl, hc⟩ := hop "action" _ (by decide) hdecode.action
    rw [hlookup, henc.action, hl]
    exact hc
  have hreason : PyValue.lookup "reason" json' = PyValue.lookup "reason" op.request := by
    obtain ⟨text, htext⟩ := hstored.reason
    obtain ⟨v, hv, hr⟩ := hdecode.reason
    obtain ⟨hl, -⟩ := hop "reason" v (by decide) hv
    rw [htext] at hl
    cases hl
    rw [hlookup, henc.reason, htext, hr, host.str_str]
    rfl
  obtain ⟨m, hm⟩ := hstored.metadata
  have hmd : metadata = m := by
    have hmeta := hdecode.metadata
    rw [hdata.lookup (by decide), hm, hrep.notes] at hmeta
    exact PyValue.dict.inj hmeta
  have hmfixed := PyValue.lookup_fixed hfixed hm
  subst hmd
  obtain ⟨m₁, hm₁, hmj⟩ := henc.metadata
  cases hm₁
  obtain ⟨w, hw, hwl⟩ := PyValue.canonical_dict_some hcanon hmj
  obtain ⟨m', hm', rfl⟩ := Option.map_eq_some_iff.mp hw
  refine ⟨⟨by rw [hrep.operation]; rfl, by rw [hrep.operation]; rfl, by rw [hrep.operation]; rfl,
    op.request, json', rfl, rfl, fun key hkey => ?_, metadata, _, hm, hwl, fun key hkey => ?_⟩, ?_⟩
  · simp only [intentKeys, optionalKeys, List.mem_append, List.mem_cons, List.not_mem_nil,
      or_false] at hkey
    rcases hkey with (rfl | rfl) | rfl | rfl | rfl
    · exact haction
    · exact hreason
    · rw [hlookup, henc.replacementSourceId]
      exact (congrArg (fun x => Option.bind x PyValue.canonical) hdecode.replacementSourceId).trans
        (hoptional _ (by decide) (by decide))
    · rw [hlookup, henc.duplicateOfSourceId]
      exact (congrArg (fun x => Option.bind x PyValue.canonical) hdecode.duplicateOfSourceId).trans
        (hoptional _ (by decide) (by decide))
    · rw [hlookup, henc.revisedContent]
      exact (congrArg (fun x => Option.bind x PyValue.canonical) hdecode.revisedContent).trans
        (hoptional _ (by decide) (by decide))
  · rw [PyValue.canonical_dict hw key, PyValue.lookup_assign, if_neg hkey]
    cases hv : PyValue.lookup key metadata with
    | none => rfl
    | some v => exact PyValue.lookup_fixed hmfixed hv
  · rw [hlookup, henc.expectedRevision]
    rfl

/-! ### The history -/

def Outbox.Store.next (s : Store) (i : String) : Option String :=
  (s.history.find i).bind HistoryRow.replacementId

def Outbox.Store.archivedIds (s : Store) : List String := s.history.rows.map HistoryRow.operationId

/-- The server has reported a revision in a preview for a correction. -/
def Reported (host : Host) (sys : System) (i : String) (revision : Int) : Prop :=
  ∃ x exchange requestId sourceId r preview, (x, exchange) ∈ sys.answers ∧ x.op.operationId = i ∧
    x.attempt = .preview sourceId r ∧
    request host (fun _ => exchange) requestId x.wire CorrectionResponse.fromJson
      (fun _ => .ok ()) = .ok preview ∧
    orRevision preview.currentRevision preview.revision = some revision

structure Linked (host : Host) (sys : System) (i j : String) (c d : Content) : Prop where
  first : sys.book i = some c
  second : sys.book j = some d
  intent : SameIntent c d
  revision : ∃ es revision, d.request = .dict es ∧
    PyValue.lookup "expected_revision" es = some (.int revision) ∧ Reported host sys i revision

structure Chained (host : Host) (sys : System) : Prop where
  stored : ∀ i c, sys.book i = some c → Stored c
  superseded : ∀ i h, sys.store.history.find i = some h →
    (h.outcome = .superseded ↔ h.replacementId.isSome)
  link : ∀ i j, sys.store.next i = some j → ∃ c d, Linked host sys i j c d
  order : ∀ i j, sys.store.next i = some j →
    sys.store.archivedIds.idxOf i < sys.store.archivedIds.idxOf j

theorem start_chained (host : Host) : Chained host System.start where
  stored := fun i c h => by cases h
  superseded := fun i h hf => by cases hf
  link := fun i j h => by cases h
  order := fun i j h => by cases h

theorem next_some {s : Store} {i j : String} (h : s.next i = some j) :
    ∃ row, s.history.find i = some row ∧ row.replacementId = some j := Option.bind_eq_some_iff.mp h

theorem mem_archivedIds {s : Store} {i : String} {row : HistoryRow}
    (h : s.history.find i = some row) : i ∈ s.archivedIds :=
  List.mem_map.mpr ⟨row, KeyedTable.find_mem h, KeyedTable.find_key h⟩

theorem not_mem_archivedIds {s : Store} {i : String} (h : s.history.find i = none) :
    i ∉ s.archivedIds := by
  intro hm
  obtain ⟨row, hrow, hid⟩ := List.mem_map.mp hm
  exact (KeyedTable.find_eq_none_iff _ _).mp h row hrow hid

theorem Prepared.preview_decodes {host : Host} {server : ServerLog} {op : ClaimedOperation}
    {sourceId : String} {r : CorrectionRequest} (h : Prepared host server op (.preview sourceId r)) :
    correctionSourceId op.endpoint = .ok sourceId ∧
      ∃ data, Hydrated server op data ∧ r.Decodes host data := by
  cases h with
  | preview raw kind source hydrated made =>
    exact ⟨source, _, hydrated, correctionRequest_decodes made⟩

section Steps
variable {host : Host} {sys sys' : System} {c : Call} {r : Reply}

theorem previewed_stored (h : sys.Sound host) (hc : Chained host sys) {x : Sent}
    (hx : x ∈ sys.sent) {sourceId : String} {r : CorrectionRequest}
    (ha : x.attempt = .preview sourceId r) :
    (PyValue.dict x.op.request).canonical = some (.dict x.op.request) ∧
      StoredCorrection x.op.request ∧
      ∃ data, Hydrated sys.server x.op data ∧ r.Decodes host data := by
  have hbegun := (h.staged.sent x hx).1
  have hprep := h.accounted.begun _ hbegun
  dsimp only at hprep
  rw [ha] at hprep
  obtain ⟨hsource, hdata⟩ := hprep.preview_decodes
  have hstored := hc.stored _ _ (h.booked.claims _ (h.staged.begun _ hbegun))
  refine ⟨hstored.canonical, ?_, hdata⟩
  rcases hstored.correction with hend | ⟨es, hes, hcorrection⟩
  · exfalso
    have hop : x.op.endpoint ∈ sourceEndpoints := hend
    simp only [sourceEndpoints, List.mem_cons, List.not_mem_nil, or_false] at hop
    rcases hop with hop | hop <;> rw [hop] at hsource <;> cases hsource
  · have hsame : PyValue.dict x.op.request = .dict es := hes
    cases hsame
    exact hcorrection

theorem called_wellmade (h : sys.Sound host) (hc : Chained host sys) {op : NewOperation}
    (called : Called host sys c) (ho : offered (c, .ok r) = some op) : Wellmade op := by
  rcases called_offered called ho with hown |
    ⟨x, exchange, requestId, sourceId, cr, preview, revision, action, metadata, json, answered,
      attempt, answer, hrep⟩
  · exact own_wellmade hown
  · obtain ⟨-, -, data, -, hdecode⟩ := previewed_stored h hc (h.staged.answers _ answered) attempt
    have hplain := hdecode.plain hrep.notes
    refine .inr ⟨_, json, ?_, hrep.encoded, by rw [hrep.operation]⟩
    exact ⟨⟨_, rfl⟩, hplain.replacementSourceId, hplain.duplicateOfSourceId, hplain.revisedContent⟩

theorem offered_stored {s s' : Store} (heff : Effect host s c r s') {op : NewOperation}
    (ho : offered (c, .ok r) = some op) (hw : Wellmade op) : Stored op.content := by
  obtain ⟨json, hash, now, -, hcanonical, -⟩ := effect_offers heff ho
  have hj := canonicalRequest_canonical hcanonical
  have hcontent : op.content.request = json := by simp [NewOperation.content, hj]
  refine ⟨by rw [hcontent]; exact PyValue.canonical_idem _ hj, ?_⟩
  rcases hw with hend | ⟨r, json', hplain, hencoded, hrequest⟩
  · exact .inl hend
  · right
    rw [hrequest] at hj
    obtain ⟨es, -, rfl⟩ := Option.map_eq_some_iff.mp hj
    exact ⟨_, hcontent, stored_correction hplain hencoded hj⟩

theorem supersede_offers {s s' : Store} {op : ClaimedOperation} {replacement : NewOperation}
    {now : Instant} (h : Effect host s (.supersede op replacement now) r s') :
    offered (.supersede op replacement now, .ok r) = some replacement := by
  cases h
  rfl

theorem supersede_linked (h : sys.Sound host) (hc : Chained host sys) {op : ClaimedOperation}
    {replacement : NewOperation} {now : Instant}
    (called : Called host sys (.supersede op replacement now))
    (heff : Effect host sys.store (.supersede op replacement now) r
      (sys.exec host (.supersede op replacement now)).store)
    (hexec : (Call.supersede op replacement now).exec host sys.store
      = (.ok r, (sys.exec host (.supersede op replacement now)).store)) :
    Linked host (sys.exec host (.supersede op replacement now)) op.operationId
      replacement.operationId op.content replacement.content := by
  obtain ⟨x, exchange, requestId, sourceId, cr, preview, hanswer, rfl, ha, hread, hrec⟩ :=
    called_supersede called
  obtain ⟨revision, action, metadata, json, hrep⟩ := reconcileCorrection_replaced hrec
  have hx := h.staged.answers _ hanswer
  obtain ⟨hfixed, hstored, data, hdata, hdecode⟩ := previewed_stored h hc hx ha
  have hoffer := supersede_offers heff
  obtain ⟨json', hash, -, -, hcanonical, -⟩ := effect_offers heff hoffer
  have hj := canonicalRequest_canonical hcanonical
  have hrequest : replacement.request = .dict json := by rw [hrep.operation]
  rw [hrequest] at hj
  obtain ⟨es, -, rfl⟩ := Option.map_eq_some_iff.mp hj
  obtain ⟨hintent, hrevision⟩ := replaced_sameIntent hfixed hstored hdata hdecode hrep hj
  have hcontent : replacement.content.request = .dict (PyValue.sortEntries es) := by
    simp [NewOperation.content, hrequest, hj]
  have hsame : { replacement.content with request := .dict (PyValue.sortEntries es) }
      = replacement.content := by rw [← hcontent]
  refine ⟨exec_book_keep h.booked _ (h.content hx), ?_, hsame ▸ hintent,
    _, revision, hcontent, hrevision, ?_⟩
  · rw [exec_book hexec, hoffer]
    exact if_pos rfl
  · exact ⟨x, exchange, requestId, sourceId, cr, preview, hanswer, rfl, ha, hread, hrep.reported⟩

/-- The place of an archived operation does not move; an operation that is not archived comes
behind all that are. -/
theorem idxOf_append_lt {ids : List String} {i j k : String} (hi : i ∈ ids)
    (h : ids.idxOf i < ids.idxOf j) : (ids ++ [k]).idxOf i < (ids ++ [k]).idxOf j := by
  rw [List.idxOf_append, if_pos hi, List.idxOf_append]
  split
  · exact h
  · have hlt := List.idxOf_lt_length_of_mem hi
    omega

theorem exec_chained (h : sys.Sound host) (hc : Chained host sys) (called : Called host sys c) :
    Chained host (sys.exec host c) := by
  rcases exec_cases host sys c with he | ⟨r, heff, hexec⟩
  · rw [he]
    exact hc
  have hold : ∀ i j, sys.store.next i = some j →
      ∃ c' d, Linked host (sys.exec host c) i j c' d := by
    intro i j hij
    obtain ⟨c', d, hl⟩ := hc.link i j hij
    exact ⟨c', d, exec_book_keep h.booked c hl.first, exec_book_keep h.booked c hl.second,
      hl.intent, hl.revision⟩
  have hstored : ∀ i content, (sys.exec host c).book i = some content → Stored content := by
    intro i content hi
    rcases exec_book_cases hexec hi with hold | ⟨op, ho, -, rfl⟩
    · exact hc.stored i content hold
    · exact offered_stored heff ho (called_wellmade h hc called ho)
  rcases effect_archives heff with hsame | ⟨row, harch, hinsert⟩
  · have hnext : ∀ i, (sys.exec host c).store.next i = sys.store.next i := fun i => by
      rw [Store.next, hsame, Store.next]
    have hids : (sys.exec host c).store.archivedIds = sys.store.archivedIds := by
      rw [Store.archivedIds, hsame, Store.archivedIds]
    refine ⟨hstored, fun i row hf => hc.superseded i row (hsame ▸ hf), fun i j hij => ?_,
      fun i j hij => ?_⟩
    · rw [hnext] at hij
      exact hold i j hij
    · rw [hnext] at hij
      rw [hids]
      exact hc.order i j hij
  obtain ⟨hfresh, hrows⟩ := (KeyedTable.insert_eq_some_iff _ _ _).mp hinsert
  have hfind := KeyedTable.find_insert hinsert
  have hids : (sys.exec host c).store.archivedIds = sys.store.archivedIds ++ [row.operationId] := by
    rw [Store.archivedIds, hrows, List.map_append]
    rfl
  have hkind : row.outcome = .superseded ↔ row.replacementId.isSome := by
    cases harch with
    | result id live action kept archived =>
      rw [archived]
      exact ⟨fun ho => absurd ho kept, fun hs => by cases hs⟩
    | replacement id live fresh archived =>
      rw [archived]
      exact ⟨fun _ => rfl, fun _ => rfl⟩
  refine ⟨hstored, fun i row' hf => ?_, fun i j hij => ?_, fun i j hij => ?_⟩
  · rw [hfind] at hf
    split at hf
    · cases hf
      exact hkind
    · exact hc.superseded i row' hf
  · obtain ⟨row', hf, hj⟩ := next_some hij
    rw [hfind] at hf
    split at hf
    · rename_i hi
      cases hf
      subst hi
      cases harch with
      | result id live action kept archived =>
        rw [archived] at hj
        cases hj
      | @replacement op replacement now live' id live fresh archived =>
        rw [archived] at hj
        cases hj
        rw [← id]
        exact ⟨_, _, supersede_linked h hc called heff hexec⟩
    · exact hold i j (by rw [Store.next, hf]; exact hj)
  · obtain ⟨row', hf, hj⟩ := next_some hij
    rw [hids]
    rw [hfind] at hf
    split at hf
    · rename_i hi
      cases hf
      subst hi
      have hnew := not_mem_archivedIds hfresh
      cases harch with
      | result id live action kept archived =>
        rw [archived] at hj
        cases hj
      | @replacement op replacement now live' id live fresh archived =>
        rw [archived] at hj
        cases hj
        obtain ⟨hlive, hhist⟩ := (known_eq_none_iff _ _).mp fresh
        have hne : replacement.operationId ≠ row.operationId := by
          intro he
          rw [he, live] at hlive
          cases hlive
        rw [List.idxOf_append, if_neg hnew, List.idxOf_append, if_neg (not_mem_archivedIds hhist)]
        simp [hne.symm]
    · exact idxOf_append_lt (mem_archivedIds hf) (hc.order i j (by rw [Store.next, hf]; exact hj))

theorem Reported.mono {i : String} {revision : Int} (hm : ∀ y ∈ sys.answers, y ∈ sys'.answers)
    (h : Reported host sys i revision) : Reported host sys' i revision := by
  obtain ⟨x, exchange, requestId, sourceId, r, preview, hanswer, hrest⟩ := h
  exact ⟨x, exchange, requestId, sourceId, r, preview, hm _ hanswer, hrest⟩

theorem Chained.mono (h : Chained host sys) (hstore : sys'.store = sys.store)
    (hbook : sys'.book = sys.book) (hm : ∀ y ∈ sys.answers, y ∈ sys'.answers) :
    Chained host sys' := by
  refine ⟨hbook ▸ h.stored, hstore ▸ h.superseded, fun i j hij => ?_, hstore ▸ h.order⟩
  obtain ⟨c, d, hl⟩ := h.link i j (hstore ▸ hij)
  obtain ⟨es, revision, hes, hrev, hrep⟩ := hl.revision
  exact ⟨c, d, hbook ▸ hl.first, hbook ▸ hl.second, hl.intent, es, revision, hes, hrev, hrep.mono hm⟩

theorem move_chained (h : sys.Sound host) (hc : Chained host sys) (hmove : Move host sys sys') :
    Chained host sys' := by
  cases hmove with
  | call called => exact exec_chained h hc called
  | finished answered =>
    exact finish_keeps answered hc (fun c called => exec_chained h hc called)
      fun _ _ hc' => hc'.mono rfl rfl fun y hy => hy
  | served => exact hc.mono rfl rfl fun y hy => List.mem_append_left _ hy
  | answered => exact hc.mono rfl rfl fun y hy => List.mem_append_left _ hy
  | _ => exact hc.mono rfl rfl fun y hy => hy

theorem run_chained (host : Host) (acts : List Act) : Chained host (System.run host acts) :=
  (@Run.exec_invariant_of_step _ _ (System.step host) (fun sys => sys.Sound host ∧ Chained host sys)
    (fun sys a h => ⟨step_sound h.1 a, move_chained h.1 h.2 (step_move host sys a)⟩) _ acts
    ⟨start_sound host, start_chained host⟩).2

end Steps

/-! ### Runs -/

/-- Live, or archived with another outcome than superseded. -/
def Outbox.Store.final (s : Store) (i : String) : Prop :=
  (s.operations.find i).isSome ∨ ∃ h, s.history.find i = some h ∧ h.outcome ≠ .superseded

structure SoundChains (host : Host) (sys : System) : Prop where
  acyclic : ∀ i, ¬ Relation.TransGen (Chain.Step sys.store.next) i i
  known : ∀ i j, sys.store.next i = some j → (sys.store.known j).isSome
  ends : ∀ i h, sys.store.history.find i = some h → h.outcome = .superseded →
    ∃! e, Chain.Reaches sys.store.next i e ∧ sys.store.final e
  live : ∀ i j k, Chain.Reaches sys.store.next i j → Chain.Reaches sys.store.next i k →
    (sys.store.operations.find j).isSome → (sys.store.operations.find k).isSome → j = k
  content : ∀ i row, sys.store.operations.find i = some row → sys.book i = some row.content
  intent : ∀ i j, Chain.Reaches sys.store.next i j → i ≠ j →
    ∃ c d, sys.book i = some c ∧ sys.book j = some d ∧ SameIntent c d
  revision : ∀ i j, sys.store.next i = some j → ∃ d es revision, sys.book j = some d ∧
    d.request = .dict es ∧ PyValue.lookup "expected_revision" es = some (.int revision) ∧
    Reported host sys i revision

section Chains
variable {host : Host} {sys : System}

theorem next_none_of_live (h : sys.Sound host) {i : String}
    (hl : (sys.store.operations.find i).isSome) : sys.store.next i = none := by
  rcases h.booked.disjoint i with hn | hn
  · rw [hn] at hl
    cases hl
  · rw [Store.next, hn]
    rfl

/-- The end of a chain is final, and only the end is. -/
theorem final_iff (h : sys.Sound host) (hc : Chained host sys) {i : String}
    (hk : (sys.store.known i).isSome) : sys.store.final i ↔ sys.store.next i = none := by
  constructor
  · rintro (hl | ⟨row, hrow, ho⟩)
    · exact next_none_of_live h hl
    · rw [Store.next, hrow]
      have hnone : ¬ row.replacementId.isSome := fun hs => ho ((hc.superseded i row hrow).mpr hs)
      simpa using hnone
  · intro hnext
    cases hl : sys.store.operations.find i with
    | some row => exact .inl (by rw [hl]; rfl)
    | none =>
      right
      cases hh : sys.store.history.find i with
      | none =>
        rw [(known_eq_none_iff sys.store i).mpr ⟨hl, hh⟩] at hk
        cases hk
      | some row =>
        refine ⟨row, rfl, fun ho => ?_⟩
        have hs := (hc.superseded i row hh).mp ho
        rw [Store.next, hh] at hnext
        have hnone : row.replacementId = none := hnext
        rw [hnone] at hs
        cases hs

theorem linked_known (h : sys.Sound host) (hc : Chained host sys) {i j : String}
    (hij : sys.store.next i = some j) : (sys.store.known j).isSome := by
  obtain ⟨c, d, hl⟩ := hc.link i j hij
  exact h.booked.known j (by rw [hl.second]; rfl)

theorem reaches_known (h : sys.Sound host) (hc : Chained host sys) {i j : String}
    (hij : Chain.Reaches sys.store.next i j) (hk : (sys.store.known i).isSome) :
    (sys.store.known j).isSome := by
  induction hij with
  | refl => exact hk
  | tail _ hstep _ => exact linked_known h hc hstep

theorem chain_bounded {i j : String} (hij : sys.store.next i = some j) :
    sys.store.archivedIds.idxOf i < sys.store.archivedIds.length := by
  obtain ⟨row, hrow, -⟩ := next_some hij
  exact List.idxOf_lt_length_of_mem (mem_archivedIds hrow)

theorem sound_chains (h : sys.Sound host) (hc : Chained host sys) : SoundChains host sys := by
  refine ⟨Chain.acyclic hc.order, fun i j hij => linked_known h hc hij, fun i row hrow ho => ?_,
    fun i j k hj hk hlj hlk => ?_, h.booked.row, fun i j hij hne => ?_, fun i j hij => ?_⟩
  · obtain ⟨e, he⟩ := Chain.exists_end hc.order (fun i j => chain_bounded) i
    have hki := known_of_history hrow
    refine ⟨e, ⟨he.1, (final_iff h hc (reaches_known h hc he.1 hki)).mpr he.2⟩, ?_⟩
    rintro e' ⟨hreach, hfinal⟩
    exact Chain.Ends.unique
      ⟨hreach, (final_iff h hc (reaches_known h hc hreach hki)).mp hfinal⟩ he
  · exact Chain.Ends.unique ⟨hj, next_none_of_live h hlj⟩ ⟨hk, next_none_of_live h hlk⟩
  · have hlift := Chain.Reaches.lift
      (r := fun i j => ∃ c d, sys.book i = some c ∧ sys.book j = some d ∧ SameIntent c d) hij ?_ ?_
    · exact hlift.resolve_left hne
    · rintro i j k ⟨c, d, hi, hj, hcd⟩ ⟨d', e, hj', hk, hde⟩
      rw [hj] at hj'
      cases hj'
      exact ⟨c, e, hi, hk, hcd.trans hde⟩
    · intro i j hstep
      obtain ⟨c, d, hl⟩ := hc.link i j hstep
      exact ⟨c, d, hl.first, hl.second, hl.intent⟩
  · obtain ⟨c, d, hl⟩ := hc.link i j hij
    obtain ⟨es, revision, hes, hrev, hrep⟩ := hl.revision
    exact ⟨d, es, revision, hl.second, hes, hrev, hrep⟩

end Chains

/-- In every run the chains of replaced corrections are sound, and a supersede that fails changes
nothing. -/
theorem replacement_chains (host : Host) :
    (∀ acts, SoundChains host (System.run host acts)) ∧
    ∀ op replacement now e (s s' : Store),
      supersede host op replacement now s = (.error e, s') → s' = s := by
  refine ⟨fun acts => sound_chains (run_sound host acts) (run_chained host acts), ?_⟩
  intro op replacement now e s s' h
  have hexec : (Call.supersede op replacement now).exec host s = (.error e, s') := by
    simp only [Call.exec, replyWith, h]
    rfl
  exact exec_error hexec

end SibylMemory
