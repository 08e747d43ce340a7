import SibylMemory.Library.Encoding
import SibylMemory.Outbox.Sequences
import SibylMemory.Identifiers
import SibylMemory.RecallRuns
import SibylMemory.WireRequests

/-!
# Recording what was handed to Hermes (`runtime.py:135-136`, `348-383`)

`prefetch` waits for a fetch, and before it returns the markdown the runtime reserves a sequence
number, enqueues the exposure of the rendered items and submits a flush. Each of the three may
raise, and other threads work on the outbox in between. The query, the session and the items are any
texts of Python, and what is hashed is encoded first.
-/

namespace SibylMemory
open Outbox Text
open JsonText (CodePoints points)
open Encoding (encode encodeAll encode_points encodeAll_points)

def sessionHash (host : Host) (sessionId : String) : String :=
  String.ofList ((host.sha256 sessionId).toList.take 16)

/-- What happens around a delivery. A fault is raised in place of a step, which then does nothing:
the outbox is closed or locked, the executor is shut down. -/
structure Circumstances where
  reserveFault : Option Raised := none
  enqueueFault : Option Raised := none
  submitFault : Option Raised := none
  meanwhile : Store → Store := id
  reservedAt : Instant
  enqueuedAt : Instant

/-- A method of the outbox, or what is raised in its place. -/
def faulty {α : Type} (fault : Option Raised) (method : Store → Except OutboxException α × Store)
    (s : Store) : Except Raised α × Store :=
  match fault with
  | some e => (.error e, s)
  | none => match method s with
    | (.ok a, s') => (.ok a, s')
    | (.error e, s') => (.error (.exception e.className), s')

/-- What a method replies or raises, and the outbox before and after it was asked to enqueue. -/
structure Recording (α : Type) where
  reply : Except Raised α
  before : Store
  after : Store

/-- What `text.encode("utf-8")` raises on a lone surrogate. -/
def encodeError : Raised := .exception "UnicodeEncodeError"

def recordDelivery (host : Host) (c : RuntimeContext) (sessionId queryHash : String)
    (result : RecallResult) (automatic : Bool) (w : Circumstances) (s : Store) : Recording Unit :=
  if result.renderedItemIds = [] then ⟨.ok (), s, s⟩
  else
    match faulty w.reserveFault (reserveSequence (sessionId ++ ":exposure") "" w.reservedAt) s with
    | (.error e, s) => ⟨.error e, s, s⟩
    | (.ok deliverySequence, s) =>
      match encodeAll result.renderedItemIds with
      | none => ⟨.error encodeError, s, s⟩
      | some renderedItemIds =>
        let s := w.meanwhile s
        let operation := exposureOperation host c (sessionHash host sessionId) queryHash deliverySequence
          renderedItemIds automatic
        match faulty w.enqueueFault (enqueue host operation w.enqueuedAt) s with
        | (.error e, s') => ⟨.error e, s, s'⟩
        | (.ok _, s') => ⟨match w.submitFault with | none => .ok () | some e => .error e, s, s'⟩

/-- What a `prefetch` is handed: nothing, a fetch that is not done in time (with what came of it
before its callback was added), or one that is. -/
inductive Fetched where
  | absent
  | missed (late : Option (Except Raised RecallResult))
  | inTime (outcome : Except Raised RecallResult)

/-- `SibylRuntime.prefetch` on a runtime whose session is `activeSession`. -/
def runtimePrefetch (host : Host) (c : RuntimeContext) (activeSession query sessionId : CodePoints)
    (fetched : Fetched) (w : Circumstances) (s : Store) : Recording String :=
  let session := if sessionId = [] then activeSession else sessionId
  match encode query with
  | none => ⟨.error encodeError, s, s⟩
  | some query =>
    match fetched, encode session with
    | .absent, _ => ⟨.ok "", s, s⟩
    | .inTime (.error (.baseException className)), _ => ⟨.error (.baseException className), s, s⟩
    -- every observation has a hash of the session
    | _, none => ⟨.error encodeError, s, s⟩
    | .inTime (.ok result), some session =>
      if strip result.markdown = "" then ⟨.ok "", s, s⟩
      else
        let recording := recordDelivery host c session (queryDigest host query) result true w s
        ⟨recording.reply.map fun _ => result.markdown, recording.before, recording.after⟩
    | .missed (some (.error (.baseException className))), some _ =>
      ⟨.error (.baseException className), s, s⟩
    | _, some _ => ⟨.ok "", s, s⟩

/-! ### The coordinator's part -/

theorem prefetchResult_reply (host : Host) (c : RuntimeContext) (activeSession : CodePoints)
    (w : Circumstances) (s : Store) {r : RecallCoordinator} {call : Nat} {p : PrefetchCall}
    (hp : r.calls[call]? = some p) (outcome : Except Raised RecallResult)
    (hto : ∀ className, outcome ≠ .error (.timeoutError className)) (hs : p.sessionId ≠ "") :
    ∃ recorded, (∀ result, outcome = .ok result → recorded = (recordDelivery host c p.sessionId
        (queryDigest host p.query) result true w s).reply) ∧
      (r.prefetchResult host call p.sessionId (queryDigest host p.query) recorded outcome).calls[call]? =
        some (PrefetchCall.mk p.query p.sessionId p.future (.returned (runtimePrefetch host c
          activeSession (points p.query) (points p.sessionId) (.inTime outcome) w s).reply)) := by
  have hsession : points p.sessionId ≠ [] := by
    intro h
    rw [points, List.map_eq_nil_iff] at h
    exact hs (String.toList_inj.mp h)
  have hcalls : ∀ (t : RecallCoordinator) phase, t.calls = r.calls →
      (t.setPhase call phase).calls[call]? = some { p with phase } := by
    intro t phase ht
    rw [RecallCoordinator.setPhase, List.getElem?_modify, ht, hp]
    simp
  cases outcome with
  | ok result =>
    refine ⟨_, fun _ h => by cases h; rfl, ?_⟩
    by_cases hr : strip result.markdown = ""
    · rw [RecallCoordinator.prefetchResult, if_pos hr]
      simp only [runtimePrefetch, if_neg hsession, encode_points, if_pos hr]
      exact hcalls _ _ rfl
    · rw [RecallCoordinator.prefetchResult, if_neg hr]
      simp only [runtimePrefetch, if_neg hsession, encode_points, if_neg hr]
      exact hcalls _ _ rfl
  | error e =>
    have hok : ∀ result : RecallResult, Except.error e ≠ .ok result := fun result h => by cases h
    refine ⟨.ok (), fun result h => absurd h (hok result), ?_⟩
    cases e with
    | timeoutError className => exact absurd rfl (hto className)
    | exception className =>
      simp only [runtimePrefetch, if_neg hsession, encode_points]
      exact hcalls _ _ rfl
    | baseException className =>
      simp only [runtimePrefetch, encode_points]
      exact hcalls _ _ rfl

/-! ### Operation ids of exposures -/

def exposureId (host : Host) (c : RuntimeContext) (sessionHash queryHash : String) (n : Nat)
    (ids : List String) : String :=
  hashParts host ([c.agentId, sessionHash, queryHash, toString n] ++ ids)

theorem sessionHash_avoids (host : Host) (sessionId : String) {ch : Char} (hc : isHexDigit ch = false) :
    ch ∉ (sessionHash host sessionId).toList := by
  rw [sessionHash, String.toList_ofList]
  intro h
  exact (sha256_digest host sessionId).avoids hc (List.mem_of_mem_take h)

theorem exposureId_inj {host : Host} (hcf : host.CollisionFree) {c : RuntimeContext}
    {sid sid' query query' : String} {n n' : Nat} {ids ids' : List String} (hids : ids ≠ [])
    (hids' : ids' ≠ []) (h : exposureId host c (sessionHash host sid) (queryDigest host query) n ids
      = exposureId host c (sessionHash host sid') (queryDigest host query') n' ids') :
    sessionHash host sid = sessionHash host sid' ∧ n = n' := by
  have htext := hcf h
  obtain ⟨i, is, rfl⟩ := List.exists_cons_of_ne_nil hids
  obtain ⟨i', is', rfl⟩ := List.exists_cons_of_ne_nil hids'
  simp only [List.cons_append, List.nil_append, joinWith_cons_cons, String.append_assoc, nul_eq] at htext
  have htail := append_left_cancel (append_left_cancel htext)
  obtain ⟨hs, h1⟩ := append_sep_inj (sessionHash_avoids host sid (by decide))
    (sessionHash_avoids host sid' (by decide)) htail
  obtain ⟨-, h2⟩ := append_sep_inj ((sha256_digest host query).avoids (by decide))
    ((sha256_digest host query').avoids (by decide)) h1
  obtain ⟨hn, -⟩ := append_sep_inj (nat_avoids n (by decide)) (nat_avoids n' (by decide)) h2
  exact ⟨hs, toString_injective hn⟩

/-! ### What recording does to the outbox -/

/-- The outbox holds one operation more, under an id that was not used: the exposure of `ids`. -/
def Exposed (before after : Store) (ids : List String) : Prop :=
  ∃ row json, before.known row.operationId = none ∧ row.kind = "context_exposure" ∧
    row.request = .dict json ∧ PyValue.lookup "exposed_ids" json = some (.list (ids.map .str)) ∧
    ∀ i, after.operations.find i
      = if i = row.operationId then some row else before.operations.find i

section Recordings
variable {host : Host} {c : RuntimeContext} {sessionId queryHash : String} {n : Nat}
  {ids : List String}

theorem exposure_storable (host : Host) (c : RuntimeContext) (sessionHash queryHash : String) (n : Nat)
    (ids : List String) (automatic : Bool) :
    Storable (exposureOperation host c sessionHash queryHash n ids automatic).request := by
  have hmetadata : Storable (.dict [("automatic", .bool automatic),
      ("session_id_hash", .str sessionHash), ("query_hash", .str queryHash)]) := by
    refine storable_dict _ (by simp only [List.map_cons, List.map_nil]; decide) fun e he => ?_
    simp only [List.mem_cons, List.not_mem_nil, or_false] at he
    rcases he with rfl | rfl | rfl
    · exact storable_bool _
    · exact storable_str _
    · exact storable_str _
  refine storable_dict [("exposed_ids", _), ("project_id", _), ("source_surface", _), ("metadata", _)]
    (by simp only [List.map_cons, List.map_nil]; decide) fun e he => ?_
  simp only [List.mem_cons, List.not_mem_nil, or_false] at he
  rcases he with rfl | rfl | rfl | rfl
  · exact storable_strings _
  · exact storable_str _
  · exact storable_str _
  · exact hmetadata

theorem exposure_valid (host : Host) (c : RuntimeContext) (sessionHash queryHash : String) (n : Nat)
    (ids : List String) (automatic : Bool) :
    validateOperation (exposureOperation host c sessionHash queryHash n ids automatic) = .ok () :=
  validateOperation_ok (hashParts_digest host _).1 (append_ne_empty (by decide))
    (by simp [exposureOperation]) (by simp [exposureOperation]; decide) rfl (by simp [exposureOperation])

theorem enqueue_exposure (automatic : Bool) (now : Instant) {t : Store}
    (h : t.known (exposureId host c sessionId queryHash n ids) = none) :
    ∃ t', enqueue host (exposureOperation host c sessionId queryHash n ids automatic) now t
      = (.ok true, t') ∧ Exposed t t' ids := by
  obtain ⟨json, hj⟩ := (exposure_storable host c sessionId queryHash n ids automatic).accepted host
  have hdict := canonicalRequest_canonical hj
  obtain ⟨es, rfl⟩ := PyValue.canonical_dict_shape hdict
  obtain ⟨operations, hins, -⟩ := t.operations.insert_isSome (pendingRow (exposureOperation host c
    sessionId queryHash n ids automatic) (.dict es) (host.sha256 ((PyValue.dict es).render true)) now)
    ((known_eq_none_iff _ _).mp h).1
  have hknown : t.known (exposureOperation host c sessionId queryHash n ids automatic).operationId
      = none := h
  refine ⟨{ t with operations }, ?_, ?_⟩
  · simp [enqueue, transact, exposure_valid, hj, hknown, insertRow_ok.mpr hins, bind, Except.bind, pure,
      Except.pure]
  · refine ⟨_, es, h, rfl, rfl, ?_, fun i => KeyedTable.find_insert hins i⟩
    rw [PyValue.canonical_dict hdict]
    exact congrArg (Option.map PyValue.list) (canonicalList_strings ids)

theorem enqueue_used {op : NewOperation} {now : Instant} {t : Store}
    (h : t.known op.operationId ≠ none) : (enqueue host op now t).2 = t := by
  cases he : enqueue host op now t with
  | mk out t' =>
    cases out with
    | error e => exact (transact_error he).1
    | ok b =>
      have heff := enqueue_effect he
      cases heff with
      | known => rfl
      | accept valid canonical fresh => exact absurd fresh h

theorem reserve_ok {name : String} (hname : name ≠ "") (parent : String) (now : Instant) (s : Store) :
    ∃ s', reserveSequence name parent now s = (.ok (s.nextSequence name), s') ∧
      s'.operations = s.operations ∧ s'.history = s.history := by
  obtain ⟨⟨sessions, n⟩, hup⟩ := upsertSession_total s.sessions name parent now
  obtain ⟨rfl, -⟩ := upsertSession_ok hup
  refine ⟨{ s with sessions := setNextSequence sessions name (s.nextSequence name + 1) now }, ?_, rfl, rfl⟩
  simp [reserveSequence, transact, hname, hup, bind, Except.bind, pure, Except.pure]

end Recordings

/-! ### Failing open -/

/-- Recall fails open, and what is exposed is what was handed out. -/
structure FailsOpen (fetched : Fetched) (out : Recording String) : Prop where
  replies : ∃ text, out.reply = .ok text
  exposed : out.after.operations ≠ out.before.operations ↔ ∃ r, fetched = .inTime (.ok r) ∧
    r.Nonblank ∧ r.renderedItemIds ≠ [] ∧ out.reply = .ok r.markdown
  exact : ∀ r, fetched = .inTime (.ok r) → out.after.operations ≠ out.before.operations →
    ∃ ids, encodeAll r.renderedItemIds = some ids ∧ Exposed out.before out.after ids

/-- A result is recorded: no step raises, and no operation has the id that is due. -/
def RecordsDelivery (host : Host) (c : RuntimeContext) (session query : String) (r : RecallResult)
    (w : Circumstances) (s : Store) : Prop :=
  (w.reserveFault = none ∧ w.enqueueFault = none ∧ w.submitFault = none) ∧
  ∃ ids, encodeAll r.renderedItemIds = some ids ∧
    (w.meanwhile (reserveSequence (session ++ ":exposure") "" w.reservedAt s).2).known
      (exposureId host c (sessionHash host session) (queryDigest host query)
        (s.nextSequence (session ++ ":exposure")) ids) = none

/-- The query can be encoded, no exception that is not an `Exception` comes from the fetch, the
session can be encoded if there was a fetch, and what is to be recorded is. -/
structure Recordable (host : Host) (c : RuntimeContext) (session query : CodePoints) (fetched : Fetched)
    (w : Circumstances) (s : Store) : Prop where
  encodes : ∃ text, encode query = some text
  exceptions : ∀ className, fetched ≠ .inTime (.error (.baseException className)) ∧
    fetched ≠ .missed (some (.error (.baseException className)))
  hashes : fetched ≠ .absent → ∃ text, encode session = some text
  recorded : ∀ r session' query', fetched = .inTime (.ok r) → encode session = some session' →
    encode query = some query' → r.Nonblank → r.renderedItemIds ≠ [] →
    RecordsDelivery host c session' query' r w s

section Prefetch
variable {host : Host} {c : RuntimeContext} {activeSession query sessionId : CodePoints}
  {session' query' : String} {fetched : Fetched} {w : Circumstances} {s : Store}

/-- Nothing is recorded: the reply is empty or, for a result without items, its markdown. -/
theorem prefetch_quiet (hquery : encode query = some query')
    (hx : ∀ className, fetched ≠ .inTime (.error (.baseException className)) ∧
      fetched ≠ .missed (some (.error (.baseException className))))
    (hsession : fetched ≠ .absent →
      ∃ text, encode (if sessionId = [] then activeSession else sessionId) = some text)
    (hq : ∀ r, fetched = .inTime (.ok r) → r.Nonblank → r.renderedItemIds = []) :
    FailsOpen fetched (runtimePrefetch host c activeSession query sessionId fetched w s) := by
  have hsame : (∃ text, (runtimePrefetch host c activeSession query sessionId fetched w s).reply
      = .ok text) ∧ (runtimePrefetch host c activeSession query sessionId fetched w s).after
        = (runtimePrefetch host c activeSession query sessionId fetched w s).before := by
    simp only [runtimePrefetch, hquery]
    cases fetched with
    | absent => exact ⟨⟨_, rfl⟩, rfl⟩
    | missed late =>
      obtain ⟨session', hsession'⟩ := hsession nofun
      rw [hsession']
      cases late with
      | none => exact ⟨⟨_, rfl⟩, rfl⟩
      | some outcome =>
        cases outcome with
        | ok result => exact ⟨⟨_, rfl⟩, rfl⟩
        | error e =>
          cases e with
          | timeoutError className => exact ⟨⟨_, rfl⟩, rfl⟩
          | exception className => exact ⟨⟨_, rfl⟩, rfl⟩
          | baseException className => exact absurd rfl (hx _).2
    | inTime outcome =>
      obtain ⟨session', hsession'⟩ := hsession nofun
      rw [hsession']
      cases outcome with
      | ok result =>
        dsimp only
        by_cases hr : strip result.markdown = ""
        · rw [if_pos hr]
          exact ⟨⟨_, rfl⟩, rfl⟩
        · rw [if_neg hr, recordDelivery, if_pos (hq result rfl hr)]
          exact ⟨⟨_, rfl⟩, rfl⟩
      | error e =>
        cases e with
        | timeoutError className => exact ⟨⟨_, rfl⟩, rfl⟩
        | exception className => exact ⟨⟨_, rfl⟩, rfl⟩
        | baseException className => exact absurd rfl (hx _).1
  obtain ⟨hreply, hstore⟩ := hsame
  refine ⟨hreply, ⟨fun h => absurd (congrArg Store.operations hstore) h, ?_⟩,
    fun r _ h => absurd (congrArg Store.operations hstore) h⟩
  rintro ⟨r, hr, hn, hids, -⟩
  exact absurd (hq r hr hn) hids

theorem Exposed.changed {before after : Store} {ids : List String} (h : Exposed before after ids) :
    after.operations ≠ before.operations := by
  obtain ⟨row, json, hfresh, -, -, -, hfind⟩ := h
  intro he
  have hrow := hfind row.operationId
  rw [he, if_pos rfl, ((known_eq_none_iff _ _).mp hfresh).1] at hrow
  cases hrow

theorem not_failsOpen_of_error {out : Recording String} {e : Raised} (h : out.reply = .error e) :
    ¬ FailsOpen fetched out := by
  intro ho
  obtain ⟨text, htext⟩ := ho.replies
  rw [h] at htext
  cases htext

/-- What comes of a result that is to be recorded, in the order of the steps. -/
theorem record_cases (host : Host) (c : RuntimeContext) (session queryHash : String)
    {r : RecallResult} (hids : r.renderedItemIds ≠ []) (w : Circumstances) (s : Store) :
    let out := recordDelivery host c session queryHash r true w s
    let due := w.meanwhile (reserveSequence (session ++ ":exposure") "" w.reservedAt s).2
    let i := exposureId host c (sessionHash host session) queryHash
      (s.nextSequence (session ++ ":exposure"))
    ((w.reserveFault ≠ none ∨ w.enqueueFault ≠ none ∨ encodeAll r.renderedItemIds = none) ∧
      ∃ e, out.reply = .error e) ∨
    ∃ ids, encodeAll r.renderedItemIds = some ids ∧
      (due.known (i ids) ≠ none ∧ out.after = out.before ∨
      (w.reserveFault = none ∧ w.enqueueFault = none ∧ due.known (i ids) = none ∧
        Exposed out.before out.after ids ∧
        out.reply = match w.submitFault with | none => .ok () | some e => .error e)) := by
  have hname : session ++ ":exposure" ≠ "" := by
    intro h
    have hl := congrArg String.toList h
    simp at hl
  obtain ⟨s₁, hs₁, -, -⟩ := reserve_ok hname "" w.reservedAt s
  dsimp only
  rw [recordDelivery, if_neg hids, hs₁]
  cases hreserve : w.reserveFault with
  | some e => exact .inl ⟨.inl (by simp), e, rfl⟩
  | none =>
    rw [faulty, hs₁]
    dsimp only
    cases hencode : encodeAll r.renderedItemIds with
    | none => exact .inl ⟨.inr (.inr rfl), encodeError, rfl⟩
    | some ids =>
      dsimp only
      cases henqueue : w.enqueueFault with
      | some e => exact .inl ⟨.inr (.inl (by simp)), e, rfl⟩
      | none =>
        refine .inr ⟨ids, rfl, ?_⟩
        by_cases hknown : (w.meanwhile s₁).known (exposureId host c (sessionHash host session) queryHash
            (s.nextSequence (session ++ ":exposure")) ids) = none
        · obtain ⟨t, ht, hexposed⟩ := enqueue_exposure true w.enqueuedAt hknown
          rw [faulty, ht]
          exact .inr ⟨rfl, rfl, hknown, hexposed, rfl⟩
        · refine .inl ⟨hknown, ?_⟩
          have hused : (enqueue host (exposureOperation host c (sessionHash host session) queryHash
              (s.nextSequence (session ++ ":exposure")) ids true) w.enqueuedAt
              (w.meanwhile s₁)).2 = w.meanwhile s₁ := enqueue_used hknown
          rw [faulty]
          cases henq : enqueue host (exposureOperation host c (sessionHash host session) queryHash
              (s.nextSequence (session ++ ":exposure")) ids true) w.enqueuedAt
              (w.meanwhile s₁) with
          | mk out t =>
            rw [henq] at hused
            cases out with
            | error e => exact hused
            | ok b => exact hused

theorem prefetch_recorded {r : RecallResult} (hr : r.Nonblank) (hids : r.renderedItemIds ≠ [])
    (hquery : encode query = some query')
    (hsession : encode (if sessionId = [] then activeSession else sessionId) = some session') :
    FailsOpen (.inTime (.ok r))
        (runtimePrefetch host c activeSession query sessionId (.inTime (.ok r)) w s) ↔
      RecordsDelivery host c session' query' r w s := by
  have hout : runtimePrefetch host c activeSession query sessionId (.inTime (.ok r)) w s
      = ⟨(recordDelivery host c session' (queryDigest host query') r true w s).reply.map
          fun _ => r.markdown,
        (recordDelivery host c session' (queryDigest host query') r true w s).before,
        (recordDelivery host c session' (queryDigest host query') r true w s).after⟩ := by
    simp only [runtimePrefetch, hquery, hsession]
    exact if_neg hr
  rw [hout]
  rcases record_cases host c session' (queryDigest host query') hids w s with
    ⟨hfault, e, he⟩ | ⟨ids, hencode, ⟨hused, hsame⟩ | ⟨hreserve, henqueue, hfresh, hexposed, hreply⟩⟩
  · rw [he]
    refine iff_of_false (not_failsOpen_of_error rfl) ?_
    rintro ⟨⟨hreserve, henqueue, -⟩, ids, hencode, -⟩
    rcases hfault with h | h | h
    · exact h hreserve
    · exact h henqueue
    · rw [h] at hencode
      cases hencode
  · refine iff_of_false (fun h => ?_) ?_
    · -- nothing was stored, but the markdown would be returned
      obtain ⟨text, htext⟩ := h.replies
      have hmarkdown : (Except.map (fun _ => r.markdown) (recordDelivery host c session'
          (queryDigest host query') r true w s).reply) = .ok r.markdown := by
        cases hrep : (recordDelivery host c session' (queryDigest host query') r true w s).reply with
        | ok u => rfl
        | error e => rw [hrep] at htext; cases htext
      exact h.exposed.mpr ⟨r, rfl, hr, hids, hmarkdown⟩ (congrArg Store.operations hsame)
    · rintro ⟨-, ids', hencode', hfresh⟩
      cases hencode.symm.trans hencode'
      exact hused hfresh
  · rw [hreply]
    cases hsubmit : w.submitFault with
    | some e =>
      refine iff_of_false (not_failsOpen_of_error rfl) ?_
      rintro ⟨⟨-, -, h⟩, -⟩
      rw [hsubmit] at h
      cases h
    | none =>
      refine iff_of_true ⟨⟨_, rfl⟩, ⟨fun _ => ⟨r, rfl, hr, hids, rfl⟩, fun _ => hexposed.changed⟩, ?_⟩
        ⟨⟨hreserve, henqueue, hsubmit⟩, ids, hencode, hfresh⟩
      intro r' hr' _
      cases hr'
      exact ⟨ids, hencode, hexposed⟩

/-- A query, or with a fetch a session, that can not be encoded raises. -/
theorem prefetch_unencoded
    (h : FailsOpen fetched (runtimePrefetch host c activeSession query sessionId fetched w s)) :
    (∃ text, encode query = some text) ∧ (fetched ≠ .absent →
      ∃ text, encode (if sessionId = [] then activeSession else sessionId) = some text) := by
  obtain ⟨text, htext⟩ := h.replies
  rw [runtimePrefetch] at htext
  cases hquery : encode query with
  | none =>
    rw [hquery] at htext
    cases htext
  | some query' =>
    refine ⟨⟨query', rfl⟩, fun hfetched => ?_⟩
    rw [hquery] at htext
    dsimp only at htext
    cases hsession : encode (if sessionId = [] then activeSession else sessionId) with
    | none =>
      rw [hsession] at htext
      split at htext <;> contradiction
    | some session' => exact ⟨session', rfl⟩

theorem failsOpen_iff : FailsOpen fetched
    (runtimePrefetch host c activeSession query sessionId fetched w s) ↔
      Recordable host c (if sessionId = [] then activeSession else sessionId) query fetched w s := by
  constructor
  · intro h
    obtain ⟨hquery, hsession⟩ := prefetch_unencoded h
    refine ⟨hquery, fun className => ⟨?_, ?_⟩, hsession, fun r session' query' hr hs hq hn hids => ?_⟩
    · rintro rfl
      obtain ⟨query', hquery⟩ := hquery
      refine not_failsOpen_of_error (e := .baseException className) ?_ h
      rw [runtimePrefetch, hquery]
    · rintro rfl
      obtain ⟨query', hquery⟩ := hquery
      obtain ⟨session', hsession⟩ := hsession nofun
      refine not_failsOpen_of_error (e := .baseException className) ?_ h
      rw [runtimePrefetch, hquery, hsession]
    · subst hr
      exact (prefetch_recorded hn hids hq hs).mp h
  · intro h
    obtain ⟨query', hquery⟩ := h.encodes
    by_cases hq : ∀ r, fetched = .inTime (.ok r) → r.Nonblank → r.renderedItemIds = []
    · exact prefetch_quiet hquery h.exceptions h.hashes hq
    · push Not at hq
      obtain ⟨r, rfl, hn, hids⟩ := hq
      obtain ⟨session', hsession⟩ := h.hashes nofun
      exact (prefetch_recorded hn hids hquery hsession).mpr
        (h.recorded r session' query' rfl hsession hquery hn hids)

end Prefetch

theorem exposureId_unused {host : Host} (hcf : host.CollisionFree) (calls : List Call)
    (c : RuntimeContext) {session query query' : String} {n : Nat} {ids ids' : List String}
    (hids : ids ≠ []) (hids' : ids' ≠ [])
    (hn : n ∈ (World.run host calls).allocated (session ++ ":exposure")) :
    exposureId host c (sessionHash host session) (queryDigest host query') n ids' ≠
      exposureId host c (sessionHash host session) (queryDigest host query)
        ((World.run host calls).store.nextSequence (session ++ ":exposure")) ids := by
  intro h
  obtain ⟨-, hseq⟩ := exposureId_inj hcf hids' hids h
  have hlt := (run_sequenced host calls (session ++ ":exposure")).below n hn
  omega

/-- Recall fails open and records what it hands out if and only if the query and the session of a
fetch can be encoded, no step of a recording that is due raises and the id that is due is not used.
The deliveries of a session do not use it. -/
theorem prefetch_fails_open (host : Host) :
    (∀ c activeSession query sessionId fetched w s, FailsOpen fetched
        (runtimePrefetch host c activeSession query sessionId fetched w s) ↔
      Recordable host c (if sessionId = [] then activeSession else sessionId) query fetched w s) ∧
    (host.CollisionFree → ∀ calls c session query query' n ids ids', ids ≠ [] → ids' ≠ [] →
      n ∈ (World.run host calls).allocated (session ++ ":exposure") →
      exposureId host c (sessionHash host session) (queryDigest host query') n ids' ≠
        exposureId host c (sessionHash host session) (queryDigest host query)
          ((World.run host calls).store.nextSequence (session ++ ":exposure")) ids) := by
  refine ⟨fun c activeSession query sessionId fetched w s => failsOpen_iff, ?_⟩
  intro hcf calls c session query query' n ids ids' hids hids' hn
  exact exposureId_unused hcf calls c hids hids' hn

def sampleResult : RecallResult where
  markdown := "# Memory"
  renderedItemIds := [points "decision_1"]
  totalItems := 1

/-- A context is recorded, and the next delivery of its session gets another id. -/
theorem prefetch_fails_open_second :
    FailsOpen (.inTime (.ok sampleResult)) (runtimePrefetch Host.plain sampleAgent (points "s1")
      (points "deploy") [] (.inTime (.ok sampleResult)) { reservedAt := 0, enqueuedAt := 0 }
      Store.empty) ∧
    exposureId Host.plain sampleAgent (sessionHash Host.plain "s1") (queryDigest Host.plain "q") 1 ["a"] ≠
      exposureId Host.plain sampleAgent (sessionHash Host.plain "s1") (queryDigest Host.plain "q")
        ((World.run Host.plain [.reserveSequence ("s1" ++ ":exposure") "" 0]).store.nextSequence
          ("s1" ++ ":exposure")) ["a"] := by
  constructor
  · refine ((prefetch_fails_open Host.plain).1 _ _ _ _ _ _ _).mpr
      ⟨⟨_, encode_points _⟩, fun _ => ⟨nofun, nofun⟩, fun _ => ⟨_, encode_points "s1"⟩, ?_⟩
    intro r session' query' hr hsession hquery _ _
    cases hr
    rw [if_pos rfl, encode_points] at hsession
    rw [encode_points] at hquery
    cases hsession
    cases hquery
    exact ⟨⟨rfl, rfl, rfl⟩, ["decision_1"], encodeAll_points ["decision_1"], by decide⟩
  · exact (prefetch_fails_open Host.plain).2 plain_collisionFree
      [.reserveSequence ("s1" ++ ":exposure") "" 0] sampleAgent "s1" "q" "q" 1 ["a"] ["a"] (by decide)
      (by decide) (by decide)

/-- After a shutdown the outbox raises, or the executor does when the exposure is already stored;
and an item whose id has a lone surrogate can not be recorded. -/
theorem closed_outbox_escapes :
    ¬ FailsOpen (.inTime (.ok sampleResult)) (runtimePrefetch Host.plain sampleAgent (points "s1")
      (points "deploy") [] (.inTime (.ok sampleResult))
      { reserveFault := some (.exception "OutboxClosedError"), reservedAt := 0, enqueuedAt := 0 }
      Store.empty) ∧
    ¬ FailsOpen (.inTime (.ok sampleResult)) (runtimePrefetch Host.plain sampleAgent (points "s1")
      (points "deploy") [] (.inTime (.ok sampleResult))
      { submitFault := some (.exception "RuntimeError"), reservedAt := 0, enqueuedAt := 0 }
      Store.empty) ∧
    ¬ FailsOpen (.inTime (.ok { sampleResult with renderedItemIds := [[0xD800]] }))
      (runtimePrefetch Host.plain sampleAgent (points "s1") (points "deploy") []
        (.inTime (.ok { sampleResult with renderedItemIds := [[0xD800]] }))
        { reservedAt := 0, enqueuedAt := 0 } Store.empty) :=
  ⟨not_failsOpen_of_error rfl, not_failsOpen_of_error rfl, not_failsOpen_of_error rfl⟩

end SibylMemory
