import SibylMemory.Delivery.Book
import SibylMemory.Provider

/-!
# What the accepted operations are

Every operation is keyed by its own id, a dependency is an indexed turn, and the operation of an
indexed turn is its capture.
-/

namespace SibylMemory
open Outbox Idempotency

/-! ### Offered operations -/

inductive Concludes (host : Host) (x : Sent) (exchange : Exchange) (requestId : String)
    (now : Instant) : Call → Prop where
  | record {r : RawMemoryRequest} {response : RawMemoryResponse}
      (attempt : x.attempt = .remember r)
      (answer : request host (fun _ => exchange) requestId x.wire RawMemoryResponse.fromJson
        (fun r => requireReceipt x.op r.mutationReceipt) = .ok response) :
      Concludes host x exchange requestId now
        (.recordTurnRevision x.op.operationId response.revision)
  | replace {sourceId : String} {r : CorrectionRequest} {preview : CorrectionResponse}
      {replacement : NewOperation} (attempt : x.attempt = .preview sourceId r)
      (answer : request host (fun _ => exchange) requestId x.wire CorrectionResponse.fromJson
        (fun _ => .ok ()) = .ok preview)
      (replaces : reconcileCorrection host x.op r preview = .ok (.replace replacement)) :
      Concludes host x exchange requestId now (.supersede x.op replacement now)

theorem call_concludes {host : Host} {x : Sent} {exchange : Exchange} {requestId : String}
    {now : Instant} {c : Call} (h : x.call host exchange requestId now = some c) :
    Concludes host x exchange requestId now c := by
  unfold Sent.call at h
  split at h
  · rename_i ha
    split at h
    · rename_i hr
      cases h
      exact .record ha hr
    · cases h
  · rename_i ha
    split at h
    · rename_i hr
      split at h
      · rename_i hc
        cases h
        exact .replace ha hr hc
      · cases h
    · cases h
  · cases h

/-- The replacement of a correction. -/
structure Replaced (host : Host) (op : ClaimedOperation) (r : CorrectionRequest)
    (preview : CorrectionResponse) (replacement : NewOperation) (revision : Int) (action : String)
    (metadata json : JSONObject) : Prop where
  reported : orRevision preview.currentRevision preview.revision = some revision
  act : r.action = .str action
  notes : r.metadata = .dict metadata
  encoded : ({ r with
    expectedRevision := some (.int revision),
    metadata := .dict (PyValue.assign "provider_operation_id"
      (.str (replacementId host op.operationId revision action)) metadata) } :
    CorrectionRequest).toJson = some json
  operation : replacement =
    { operationId := replacementId host op.operationId revision action, kind := op.kind,
      endpoint := op.endpoint, request := .dict json,
      idempotencyKey := "hermes-correction-" ++ replacementId host op.operationId revision action,
      dependsOn := op.dependsOn }

theorem reconcileCorrection_replaced {host : Host} {op : ClaimedOperation} {r : CorrectionRequest}
    {preview : CorrectionResponse} {replacement : NewOperation}
    (h : reconcileCorrection host op r preview = .ok (.replace replacement)) :
    ∃ revision action metadata json,
      Replaced host op r preview replacement revision action metadata json := by
  unfold reconcileCorrection at h
  split at h
  · cases h
  split at h
  · cases h
  split at h
  · cases h
  · rename_i revision hrevision
    split at h
    · rename_i action metadata haction hmetadata
      dsimp only at h
      split at h
      · cases h
      · rename_i json hjson
        cases h
        exact ⟨revision, action, metadata, json, hrevision, haction, hmetadata, hjson, rfl⟩
    · cases h
    · cases h

def keyPrefixes : List String :=
  ["hermes-turn-", "hermes-correction-", "hermes-remember-", "hermes-context-"]

/-- What is enqueued for a rewind. -/
def Content.IsRewind (c : Content) : Prop :=
  c.kind = "rewind_correction" ∧ ∃ sourceId, c.endpoint = correctionEndpoint sourceId

/-- An operation under its own key. One that waits is the rewind correction of an indexed turn,
or takes the place of a claim that waits. -/
structure Formed (sys : System) (op : NewOperation) : Prop where
  digest : Digest op.operationId
  key : ∃ pre ∈ keyPrefixes, op.idempotencyKey = pre ++ op.operationId
  dependency : ∀ d, op.dependsOn = some d →
    (op.content.IsRewind ∧ ∃ t ∈ sys.store.turns.rows, t.operationId = d) ∨
    ∃ claim ∈ sys.claimed, claim.dependsOn = some d ∧ claim.kind = op.kind ∧
      claim.endpoint = op.endpoint

theorem rememberOperation_formed {host : Host} {c : RuntimeContext} {sid callIdentity : String}
    {args : RememberToolArgs} {op : NewOperation} (sys : System)
    (h : rememberOperation host c sid callIdentity args = .ok op) : Formed sys op := by
  unfold rememberOperation at h
  simp only [bind_ok] at h
  obtain ⟨payload, -, h⟩ := h
  cases h
  exact ⟨hashParts_digest host _, ⟨"hermes-remember-", by decide, rfl⟩, fun d h => by cases h⟩

theorem enqueue_offered {op op' : NewOperation} {now : Instant} {r : Reply}
    (h : offered (.enqueue op now, .ok r) = some op') : op = op' := by
  cases r with
  | accepted created =>
    cases created with
    | false => cases h
    | true => exact Option.some.inj h
  | _ => cases h

inductive Own (host : Host) (s : Store) : NewOperation → Prop where
  | capture {c : RuntimeContext} {sid parent u a : String} {turnNumber : Option Int} {n : Nat}
      {turn : NewTurnOperation} (made : captureFactory host c sid parent turnNumber u a n = .ok turn) :
      Own host s turn.operation
  | rewind {agentId : String} {t : TurnRow} {revision : Option Int} {queued : Bool}
      (indexed : t ∈ s.turns.rows) :
      Own host s (rewindOperation host agentId
        { operationId := "rewind-stale-" ++ t.operationId, sourceId := t.sourceId,
          expectedRevision := revision,
          dependsOnOperationId := if queued then some t.operationId else none })
  | remember {c : RuntimeContext} {sid callIdentity : String} {args : RememberToolArgs}
      {op : NewOperation} (made : rememberOperation host c sid callIdentity args = .ok op) :
      Own host s op
  | correct {c : RuntimeContext} {sid callIdentity : String} {args : CorrectionToolArgs}
      {currentRevision : Int} :
      Own host s (correctOperation host c sid callIdentity args currentRevision)
  | expose {c : RuntimeContext} {sessionHash queryHash : String} {deliverySequence : Nat}
      {renderedItemIds : List String} {automatic : Bool} :
      Own host s (exposureOperation host c sessionHash queryHash deliverySequence renderedItemIds
        automatic)

theorem own_offered {host : Host} {s : Store} {o : OwnAct} {c : Call} {r : Reply}
    {op : NewOperation} (h : o.call host s = some c) (ho : offered (c, .ok r) = some op) :
    Own host s op := by
  cases o with
  | capture context sid parent turnNumber u a now =>
    cases h
    cases r with
    | turn record =>
      simp only [offered] at ho
      split at ho
      · rename_i turn hturn
        cases ho
        exact .capture hturn
      · cases ho
    | _ => cases ho
  | rewind agentId index revision queued now =>
    obtain ⟨t, ht, rfl⟩ := Option.map_eq_some_iff.mp h
    obtain rfl := enqueue_offered ho
    exact .rewind (List.mem_of_getElem? ht)
  | mark sid parent required now =>
    cases h
    cases ho
  | reserve sid parent now =>
    cases h
    cases ho
  | remember context sid callIdentity args now =>
    obtain ⟨op', hop, rfl⟩ := Option.map_eq_some_iff.mp h
    obtain rfl := enqueue_offered ho
    cases hr : rememberOperation host context sid callIdentity args with
    | error e =>
      rw [hr] at hop
      cases hop
    | ok op'' =>
      rw [hr] at hop
      cases hop
      exact .remember hr
  | correct context sid callIdentity args currentRevision now =>
    cases h
    obtain rfl := enqueue_offered ho
    exact .correct
  | expose context sessionHash queryHash deliverySequence renderedItemIds automatic now =>
    cases h
    obtain rfl := enqueue_offered ho
    exact .expose

theorem own_formed {host : Host} {sys : System} {op : NewOperation} (h : Own host sys.store op) :
    Formed sys op := by
  cases h with
  | capture made =>
    have hcap := captureFactory_captured made
    exact ⟨hcap.operationId_digest, ⟨"hermes-turn-", by decide, hcap.key⟩, fun d hd => by
      rw [hcap.dependency] at hd
      cases hd⟩
  | @rewind agentId t revision queued indexed =>
    refine ⟨hashParts_digest host _, ⟨"hermes-correction-", by decide, rfl⟩, fun d hd => .inl ?_⟩
    refine ⟨⟨rfl, t.sourceId, rfl⟩, t, indexed, ?_⟩
    simp only [rewindOperation] at hd
    split at hd
    · exact Option.some.inj hd
    · cases hd
  | remember made => exact rememberOperation_formed sys made
  | correct =>
    exact ⟨hashParts_digest host _, ⟨"hermes-correction-", by decide, rfl⟩, fun d hd => by cases hd⟩
  | expose =>
    exact ⟨hashParts_digest host _, ⟨"hermes-context-", by decide, rfl⟩, fun d hd => by cases hd⟩

theorem tends_offered {c : Call} {out : Except OutboxException Reply} (h : c.Tends) :
    offered (c, out) = none := by
  cases c <;> first | rfl | exact False.elim h

/-- An operation that a call offers is one of the runtime's own, or replaces a correction that was
answered with a preview. -/
theorem called_offered {host : Host} {sys : System} {c : Call} {r : Reply} {op : NewOperation}
    (called : Called host sys c) (ho : offered (c, .ok r) = some op) :
    Own host sys.store op ∨
      ∃ x exchange requestId sourceId cr preview revision action metadata json,
        (x, exchange) ∈ sys.answers ∧ x.attempt = .preview sourceId cr ∧
        request host (fun _ => exchange) requestId x.wire CorrectionResponse.fromJson
          (fun _ => .ok ()) = .ok preview ∧
        Replaced host x.op cr preview op revision action metadata json := by
  cases called with
  | own made => exact .inl (own_offered made ho)
  | tend tends =>
    rw [tends_offered tends] at ho
    cases ho
  | apply concluded => cases ho
  | @finish x exchange requestId now _ answered made =>
    cases call_concludes made with
    | record attempt answer => cases ho
    | @replace sourceId cr preview replacement attempt answer replaces =>
      obtain ⟨revision, action, metadata, json, hrep⟩ := reconcileCorrection_replaced replaces
      have hop : replacement = op := by
        cases r with
        | done => exact Option.some.inj ho
        | _ => cases ho
      rw [hop] at hrep
      exact .inr ⟨x, exchange, requestId, sourceId, cr, preview, revision, action, metadata, json,
        answered, attempt, answer, hrep⟩

theorem called_formed {host : Host} {sys : System} (hs : Staged sys) {c : Call} {r : Reply}
    {op : NewOperation} (h : Called host sys c) (ho : offered (c, .ok r) = some op) :
    Formed sys op := by
  rcases called_offered h ho with hown |
    ⟨x, exchange, _, _, _, _, _, _, _, _, answered, -, -, hrep⟩
  · exact own_formed hown
  · rw [hrep.operation]
    exact ⟨hashParts_digest host _, ⟨"hermes-correction-", by decide, rfl⟩, fun d hd =>
      .inr ⟨x.op, hs.begun _ (hs.sent x (hs.answers _ answered)).1, hd, rfl, rfl⟩⟩

/-! ### Indexed turns -/

inductive OwnCall (host : Host) : Call → Prop where
  | capture (c : RuntimeContext) (sid parent parent' : String) (turnNumber : Option Int)
      (u a : String) (now : Instant) : OwnCall host
        (.enqueueTurn sid (captureFactory host c sid parent' turnNumber u a) parent now)
  | enqueue (op : NewOperation) (now : Instant) : OwnCall host (.enqueue op now)
  | mark (sid parent : String) (required : Bool) (now : Instant) :
      OwnCall host (.markSessionReconcile sid parent required now)
  | reserve (sid parent : String) (now : Instant) : OwnCall host (.reserveSequence sid parent now)

theorem own_call {host : Host} {s : Store} {o : OwnAct} {c : Call} (h : o.call host s = some c) :
    OwnCall host c := by
  cases o with
  | capture => cases h; exact .capture _ _ _ _ _ _ _ _
  | rewind =>
    obtain ⟨t, -, rfl⟩ := Option.map_eq_some_iff.mp h
    exact .enqueue _ _
  | mark => cases h; exact .mark _ _ _ _
  | reserve => cases h; exact .reserve _ _ _
  | remember =>
    obtain ⟨op, -, rfl⟩ := Option.map_eq_some_iff.mp h
    exact .enqueue _ _
  | correct => cases h; exact .enqueue _ _
  | expose => cases h; exact .enqueue _ _

section Called
variable {host : Host} {sys : System}

theorem called_turn {sid parent : String}
    {factory : Nat → Except OutboxException NewTurnOperation} {now : Instant}
    (h : Called host sys (.enqueueTurn sid factory parent now)) :
    ∃ c parent' turnNumber u a, factory = captureFactory host c sid parent' turnNumber u a := by
  cases h with
  | own made =>
    cases own_call made
    exact ⟨_, _, _, _, _, rfl⟩
  | tend tends => exact False.elim tends
  | finish answered made => cases call_concludes made

theorem called_not_index {c : Call} (h : Called host sys c) :
    ∀ sid n oid src digest now, c ≠ .indexTurn sid n oid src digest now := by
  rintro sid n oid src digest now rfl
  cases h with
  | own made => cases own_call made
  | tend tends => exact False.elim tends
  | finish answered made => cases call_concludes made

theorem called_apply {op : ClaimedOperation} {result : AttemptResult} {now : Instant}
    (h : Called host sys (.applyResult op result now)) : (op, result) ∈ sys.results := by
  cases h with
  | own made => cases own_call made
  | tend tends => exact False.elim tends
  | finish answered made => cases call_concludes made
  | apply concluded => exact concluded

theorem called_record {oid : String} {revision : Int}
    (h : Called host sys (.recordTurnRevision oid revision)) :
    ∃ x exchange requestId r response, (x, exchange) ∈ sys.answers ∧ oid = x.op.operationId ∧
      x.attempt = .remember r ∧ request host (fun _ => exchange) requestId x.wire
        RawMemoryResponse.fromJson (fun r => requireReceipt x.op r.mutationReceipt) = .ok response ∧
      revision = response.revision := by
  cases h with
  | own made => cases own_call made
  | tend tends => exact False.elim tends
  | finish answered made =>
    cases call_concludes made with
    | record attempt answer => exact ⟨_, _, _, _, _, answered, rfl, attempt, answer, rfl⟩

theorem called_supersede {op : ClaimedOperation} {replacement : NewOperation} {now : Instant}
    (h : Called host sys (.supersede op replacement now)) :
    ∃ x exchange requestId sourceId r preview, (x, exchange) ∈ sys.answers ∧ x.op = op ∧
      x.attempt = .preview sourceId r ∧ request host (fun _ => exchange) requestId x.wire
        CorrectionResponse.fromJson (fun _ => .ok ()) = .ok preview ∧
      reconcileCorrection host x.op r preview = .ok (.replace replacement) := by
  cases h with
  | own made => cases own_call made
  | tend tends => exact False.elim tends
  | finish answered made =>
    cases call_concludes made with
    | replace attempt answer replaces =>
      exact ⟨_, _, _, _, _, _, answered, rfl, attempt, answer, replaces⟩

end Called

theorem enqueueTurn_offers {host : Host} {s s' : Store} {sid parent : String}
    {factory : Nat → Except OutboxException NewTurnOperation} {now : Instant} {r : Reply}
    {made : NewTurnOperation} (h : Effect host s (.enqueueTurn sid factory parent now) r s')
    (hm : factory (s.nextSequence sid) = .ok made) :
    offered (.enqueueTurn sid factory parent now, .ok r) = some made.operation := by
  cases h
  simp only [offered, hm]

structure Catalogued (sys : System) : Prop where
  formed : ∀ i c, sys.book i = some c → Digest i ∧ ∃ pre ∈ keyPrefixes, c.idempotencyKey = pre ++ i
  dependency : ∀ i c d, sys.book i = some c → c.dependsOn = some d →
    c.IsRewind ∧ ∃ t ∈ sys.store.turns.rows, t.operationId = d
  turns : ∀ t ∈ sys.store.turns.rows, ∃ c, sys.book t.operationId = some c ∧
    c.endpoint = "/api/memory/raw" ∧ c.idempotencyKey = "hermes-turn-" ++ t.operationId

theorem start_catalogued : Catalogued System.start where
  formed := fun i c h => by cases h
  dependency := fun i c d h => by cases h
  turns := fun t h => by cases h

theorem exec_catalogued {host : Host} {sys : System} (hb : Booked sys) (hs : Staged sys)
    (hc : Catalogued sys) {c : Call} (called : Called host sys c) :
    Catalogued (sys.exec host c) := by
  rcases exec_cases host sys c with he | ⟨r, heff, hexec⟩
  · rw [he]
    exact hc
  -- what the book says is old, or comes from a well-formed operation
  have hbook : ∀ i content, (sys.exec host c).book i = some content → sys.book i = some content ∨
      ∃ op, Formed sys op ∧ op.operationId = i ∧ content = op.content := by
    intro i content hi
    rcases exec_book_cases hexec hi with hold | ⟨op, ho, hid, hcontent⟩
    · exact .inl hold
    · exact .inr ⟨op, called_formed hs called ho, hid, hcontent⟩
  have hdep : ∀ d, (∃ t ∈ sys.store.turns.rows, t.operationId = d) →
      ∃ t ∈ (sys.exec host c).store.turns.rows, t.operationId = d := by
    intro d hd
    obtain ⟨t, ht, hid⟩ := hd
    obtain ⟨t', ht', -, -, hid', -⟩ := effect_turns_keep heff ht
    exact ⟨t', ht', hid'.trans hid⟩
  refine ⟨fun i content hi => ?_, fun i content d hi hd => ?_, fun t ht => ?_⟩
  · rcases hbook i content hi with hold | ⟨op, hform, rfl, rfl⟩
    · exact hc.formed i content hold
    · exact ⟨hform.digest, hform.key⟩
  · rcases hbook i content hi with hold | ⟨op, hform, rfl, rfl⟩
    · exact (hc.dependency i content d hold hd).imp_right (hdep d)
    · rcases hform.dependency d hd with hturn | ⟨claim, hclaim, hcd, hkind, hend⟩
      · exact hturn.imp_right (hdep d)
      · obtain ⟨⟨hrewind, sourceId, hsource⟩, hturn⟩ :=
          hc.dependency _ _ d (hb.claims claim hclaim) hcd
        exact ⟨⟨hkind.symm.trans hrewind, sourceId, hend.symm.trans hsource⟩, hdep d hturn⟩
  · rcases effect_turn_row heff (called_not_index called) ht with
      ⟨t₀, ht₀, -, -, hid, -⟩ | ⟨factory, parent, now, made, rfl, hmade, -, hid, -⟩
    · obtain ⟨content, hcontent, hend, hkey⟩ := hc.turns t₀ ht₀
      rw [← hid]
      exact ⟨content, exec_book_keep hb c hcontent, hend, hkey⟩
    · obtain ⟨context, parent', turnNumber, u, a, rfl⟩ := called_turn called
      have hcap := captureFactory_captured hmade
      refine ⟨made.operation.content, ?_, hcap.endpoint, ?_⟩
      · rw [exec_book hexec, enqueueTurn_offers heff hmade, hid]
        exact if_pos rfl
      · rw [hid]
        exact hcap.key

theorem move_catalogued {host : Host} {sys sys' : System} (hb : Booked sys) (hs : Staged sys)
    (hc : Catalogued sys) (h : Move host sys sys') : Catalogued sys' := by
  cases h with
  | call called => exact exec_catalogued hb hs hc called
  | finished answered =>
    exact finish_keeps answered hc (fun c called => exec_catalogued hb hs hc called)
      fun _ _ h => ⟨h.formed, h.dependency, h.turns⟩
  | _ => exact ⟨hc.formed, hc.dependency, hc.turns⟩

/-! ### Keys -/

/-- No digest has the separator of the prefixes. -/
theorem key_id_inj {pre pre' i i' : String} (hp : pre ∈ keyPrefixes) (hp' : pre' ∈ keyPrefixes)
    (hi : Digest i) (hi' : Digest i') (h : pre ++ i = pre' ++ i') : i = i' := by
  have hsplit : ∀ p ∈ keyPrefixes, ∃ q, p = q ++ String.ofList ['-'] := by
    intro p hp
    simp only [keyPrefixes, List.mem_cons, List.not_mem_nil, or_false] at hp
    rcases hp with rfl | rfl | rfl | rfl
    · exact ⟨"hermes-turn", by decide⟩
    · exact ⟨"hermes-correction", by decide⟩
    · exact ⟨"hermes-remember", by decide⟩
    · exact ⟨"hermes-context", by decide⟩
  obtain ⟨q, rfl⟩ := hsplit pre hp
  obtain ⟨q', rfl⟩ := hsplit pre' hp'
  exact (Text.append_sep_inj_right (hi.avoids (by decide)) (hi'.avoids (by decide)) h).2

theorem Catalogued.key_inj {sys : System} (hc : Catalogued sys) {i j : String} {c d : Content}
    (hi : sys.book i = some c) (hj : sys.book j = some d) (h : c.idempotencyKey = d.idempotencyKey) :
    i = j := by
  obtain ⟨hdi, pre, hp, hk⟩ := hc.formed i c hi
  obtain ⟨hdj, pre', hp', hk'⟩ := hc.formed j d hj
  rw [hk, hk'] at h
  exact key_id_inj hp hp' hdi hdj h

end SibylMemory
