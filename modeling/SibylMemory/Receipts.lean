import SibylMemory.Delivery.Accounts
import SibylMemory.ErrorResponses

/-!
# Receipts behind archived operations

A success is concluded from a schema-valid answer whose receipt carries the operation's key;
whether that receipt says `applied` is not looked at.
-/

namespace SibylMemory
open Outbox

/-! ### Success answers -/

def successObject (host : Host) (r : Response) : Option JSONObject :=
  match successChunks [] r.chunks, r.broken with
  | some body, none => (jsonObject host body).toOption
  | _, _ => none

/-- The receipt of a schema-valid answer to an attempt that mutates. -/
def Attempt.HasReceipt (payload : JSONObject) (receipt : MutationReceipt) : Attempt → Prop
  | .remember _ => ∃ response, RawMemoryResponse.fromJson (.dict payload) = .ok response ∧
      response.mutationReceipt = some receipt
  | .expose _ => ∃ response, ContextExposureResponse.fromJson (.dict payload) = .ok response ∧
      response.mutationReceipt = receipt
  | .correct _ _ => ∃ response, CorrectionResponse.fromJson (.dict payload) = .ok response ∧
      response.mutationReceipt = some receipt
  | .preview _ _ => False
  | .finished _ => False

/-- The answer to a request is a schema-valid success object with a receipt for the operation's
key. -/
def Sent.Receives (host : Host) (x : Sent) (exchange : Exchange) (receipt : MutationReceipt) : Prop :=
  ∃ r payload, exchange = .answered r ∧ r.isError = false ∧ successObject host r = some payload ∧
    x.attempt.HasReceipt payload receipt ∧ receipt.idempotencyKey = some x.op.idempotencyKey

section Answers
variable {α : Type} {host : Host} {net : WireRequest → Exchange} {requestId : String}
  {wire : WireRequest} {parser : PyValue → Except String α} {check : α → Except String Unit}
  {parsed : α}

theorem request_ok : request host net requestId wire parser check = .ok parsed ↔
    ∃ r payload, net wire = .answered r ∧ r.isError = false ∧ successObject host r = some payload ∧
      parser (.dict payload) = .ok parsed ∧ check parsed = .ok () := by
  have hparse : ∀ r, parseSuccess host requestId r parser check = .ok parsed ↔
      ∃ payload, successObject host r = some payload ∧ parser (.dict payload) = .ok parsed ∧
        check parsed = .ok () := by
    intro r
    unfold parseSuccess successObject
    dsimp only
    split
    · rename_i h
      simp [h]
    · rename_i body errorType h hb
      simp [h, hb]
    · rename_i body h hb
      simp only [h, hb]
      cases hj : jsonObject host body with
      | error e => cases e <;> simp [Except.toOption]
      | ok payload =>
        simp only [Except.toOption, Option.some.injEq, exists_eq_left']
        cases hp : parser (.dict payload) with
        | error e => simp
        | ok value =>
          simp only [Except.ok.injEq]
          cases hc : check value with
          | error e =>
            constructor
            · intro h
              cases h
            · rintro ⟨rfl, h⟩
              rw [hc] at h
              cases h
          | ok u =>
            constructor
            · rintro ⟨⟩
              exact ⟨rfl, hc⟩
            · rintro ⟨rfl, -⟩
              rfl
  unfold request
  cases hnet : net wire with
  | failed errorType => simp
  | answered r =>
    by_cases herr : r.isError = true
    · simp [herr]
    · rw [Bool.not_eq_true] at herr
      simp only [herr, Bool.false_eq_true, if_false, hparse, Exchange.answered.injEq]
      constructor
      · rintro ⟨payload, h⟩
        exact ⟨r, payload, rfl, herr, h⟩
      · rintro ⟨r', payload, rfl, -, h⟩
        exact ⟨payload, h⟩

theorem requireReceipt_ok {op : ClaimedOperation} {receipt : Option MutationReceipt} :
    requireReceipt op receipt = .ok () ↔
      ∃ r, receipt = some r ∧ r.idempotencyKey = some op.idempotencyKey := by
  unfold requireReceipt requireMatchingReceipt
  cases receipt with
  | none => simp
  | some r => by_cases h : r.idempotencyKey = some op.idempotencyKey <;> simp [h]

theorem request_receipt {op : ClaimedOperation} {receiptOf : α → Option MutationReceipt} :
    (∃ response, request host net requestId wire parser (fun r => requireReceipt op (receiptOf r))
        = .ok response) ↔
      ∃ receipt r payload, net wire = .answered r ∧ r.isError = false ∧
        successObject host r = some payload ∧
        (∃ response, parser (.dict payload) = .ok response ∧ receiptOf response = some receipt) ∧
        receipt.idempotencyKey = some op.idempotencyKey := by
  simp only [request_ok, requireReceipt_ok]
  constructor
  · rintro ⟨response, r, payload, hnet, herr, hobject, hparsed, receipt, hreceipt, hkey⟩
    exact ⟨receipt, r, payload, hnet, herr, hobject, ⟨response, hparsed, hreceipt⟩, hkey⟩
  · rintro ⟨receipt, r, payload, hnet, herr, hobject, ⟨response, hparsed, hreceipt⟩, hkey⟩
    exact ⟨response, r, payload, hnet, herr, hobject, hparsed, receipt, hreceipt, hkey⟩

end Answers

/-! ### What an execution concludes -/

section Execution
variable {host : Host} {net : WireRequest → Exchange} {requestId : String} {op : ClaimedOperation}
  {now : Instant} {s : Store}

theorem rememberDone_successful {response : RawMemoryResponse} (h : 1 ≤ response.revision) :
    (rememberDone op response s).1.action = .succeed := by
  have hn : ¬ response.revision < 1 := by omega
  simp [rememberDone, recordTurnRevision, transact, hn, AttemptResult.success, pure, Except.pure]

theorem rawResponse_revision {value : PyValue} {response : RawMemoryResponse}
    (h : RawMemoryResponse.fromJson value = .ok response) : 1 ≤ response.revision := by
  unfold RawMemoryResponse.fromJson at h
  simp only [bind_ok] at h
  obtain ⟨data, -, id, -, organization, -, source, -, principal, -, scope, -, scopeKey, -, title, -,
    raw, -, tags, -, metadata, -, provenance, -, surface, -, revision, hrevision, receipt, -, h⟩ := h
  cases h
  exact Schema.requiredInt_minimum hrevision

theorem failed_succeeds {α : Type} {op : ClaimedOperation} {result : Except ClientError α}
    {e : ClientError} (he : result = .error e) :
    (failedAttempt op e).action = .succeed ↔ ∃ response, result = .ok response := by
  refine iff_of_false (failedAttempt_unsuccessful op e) ?_
  rintro ⟨response, hresponse⟩
  rw [he] at hresponse
  cases hresponse

theorem finish_received {x : Sent} {exchange : Exchange} (hx : ∀ result, x.attempt ≠ .finished result) :
    (x.finish host exchange requestId now s).1.action = .succeed ↔
      ∃ receipt, x.Receives host exchange receipt := by
  obtain ⟨op, attempt, wire⟩ := x
  cases attempt with
  | finished result => exact absurd rfl (hx result)
  | preview sourceId r =>
    refine iff_of_false ?_ ?_
    · simp only [Sent.finish]
      split
      · exact previewDone_unsuccessful
      · exact failedAttempt_unsuccessful _ _
    · rintro ⟨receipt, r', payload, -, -, -, hreceipt, -⟩
      exact hreceipt
  | remember r =>
    refine Iff.trans ?_ (@request_receipt RawMemoryResponse host (fun _ => exchange) requestId wire
      RawMemoryResponse.fromJson op RawMemoryResponse.mutationReceipt)
    simp only [Sent.finish]
    split
    · rename_i response hresponse
      obtain ⟨r', payload, -, -, -, hparsed, -⟩ := request_ok.mp hresponse
      exact iff_of_true (rememberDone_successful (rawResponse_revision hparsed)) ⟨response, hresponse⟩
    · rename_i e he
      exact failed_succeeds he
  | expose r =>
    refine Iff.trans ?_ (Iff.trans (@request_receipt ContextExposureResponse host (fun _ => exchange)
      requestId wire ContextExposureResponse.fromJson op fun r => some r.mutationReceipt) ?_)
    · simp only [Sent.finish]
      split
      · rename_i response hresponse
        exact iff_of_true rfl ⟨response, hresponse⟩
      · rename_i e he
        exact failed_succeeds he
    · simp only [Option.some.injEq]
      rfl
  | correct sourceId r =>
    refine Iff.trans ?_ (@request_receipt CorrectionResponse host (fun _ => exchange) requestId wire
      CorrectionResponse.fromJson op CorrectionResponse.mutationReceipt)
    simp only [Sent.finish]
    split
    · rename_i response hresponse
      exact iff_of_true rfl ⟨response, hresponse⟩
    · rename_i e he
      exact failed_succeeds he

/-- The answer to a claimed operation's request has a receipt for its key. -/
def Outbox.ClaimedOperation.Receives (host : Host) (net : WireRequest → Exchange) (s : Store)
    (op : ClaimedOperation) (receipt : MutationReceipt) : Prop :=
  ∃ attempt wire, beginAttempt host s op = .ok attempt ∧
    attempt.wire op.idempotencyKey = .ok wire ∧ Sent.Receives host ⟨op, attempt, wire⟩ (net wire) receipt

theorem execute_received : (executeOperation host net requestId op now s).1.action = .succeed ↔
    ∃ receipt, op.Receives host net s receipt := by
  have hbegun : ∀ attempt, beginAttempt host s op = .ok attempt →
      ((∃ receipt, op.Receives host net s receipt) ↔ ∃ wire receipt,
        attempt.wire op.idempotencyKey = .ok wire ∧
        Sent.Receives host ⟨op, attempt, wire⟩ (net wire) receipt) := by
    intro attempt hbegin
    constructor
    · rintro ⟨receipt, attempt', wire, hb, hw, hreceives⟩
      rw [hbegin] at hb
      cases hb
      exact ⟨wire, receipt, hw, hreceives⟩
    · rintro ⟨wire, receipt, hw, hreceives⟩
      exact ⟨receipt, attempt, wire, hbegin, hw, hreceives⟩
  rw [executeOperation_eq]
  split
  · rename_i className hbegin
    refine iff_of_false (by simp [AttemptResult.failure]) ?_
    rintro ⟨receipt, attempt, wire, hb, -⟩
    rw [hbegin] at hb
    cases hb
  · rename_i result hbegin
    rw [hbegun _ hbegin]
    refine iff_of_false (beginAttempt_unsuccessful hbegin) ?_
    rintro ⟨wire, receipt, hw, -⟩
    cases hw
  · rename_i attempt hgoing hbegin
    rw [hbegun _ hbegin]
    split
    · rename_i e he
      refine iff_of_false (failedAttempt_unsuccessful op e) ?_
      rintro ⟨wire, receipt, hw, -⟩
      rw [he] at hw
      cases hw
    · rename_i wire hwire
      rw [finish_received fun result he => hgoing result he]
      simp only [hwire, Except.ok.injEq, exists_and_left, exists_eq_left']

end Execution

/-! ### What happens to the row -/

/-- The operation is live, or archived as obsolete or superseded. -/
def Outbox.Store.Retains (s : Store) (i : String) : Prop :=
  (∃ row, s.operations.find i = some row) ∨
    ∃ h, s.history.find i = some h ∧ (h.outcome = .obsolete ∨ h.outcome = .superseded)

section Rows
variable {host : Host} {s : Store} {op : ClaimedOperation} {now : Instant}

theorem effect_retains {c : Call} {r : Reply} {s' : Store} (h : Effect host s c r s')
    (hc : (∃ result now, c = .applyResult op result now ∧ result.action ≠ .succeed) ∨
      (∃ replacement now, c = .supersede op replacement now) ∨
      ∃ revision, c = .recordTurnRevision op.operationId revision)
    (hs : s.Retains op.operationId) : s'.Retains op.operationId := by
  rcases hc with ⟨result, now, rfl, hresult⟩ | ⟨replacement, now, rfl⟩ | ⟨revision, rfl⟩
  · cases h with
    | skip => exact hs
    | archive action held token insert =>
      rcases action with ⟨rfl, -⟩ | ⟨haction, -⟩
      · exact .inr ⟨_, (KeyedTable.find_insert insert _).trans
          (if_pos (KeyedTable.find_key held).symm), .inl rfl⟩
      · exact absurd haction hresult
    | settle action held token ops => exact .inl ⟨_, by rw [ops, if_pos rfl]⟩
  · cases h with
    | supersede valid canonical held token fresh insert archive =>
      exact .inr ⟨_, (KeyedTable.find_insert archive _).trans
        (if_pos (KeyedTable.find_key held).symm), .inr rfl⟩
  · cases h with
    | record positive => exact hs

theorem apply_retains {result : AttemptResult} (hresult : result.action ≠ .succeed)
    (hs : s.Retains op.operationId) : (applyResult op result now s).2.Retains op.operationId := by
  have hexec : (applyResult op result now s).2
      = ((Call.applyResult op result now).exec Host.plain s).2 := rfl
  rw [hexec]
  cases h : (Call.applyResult op result now).exec Host.plain s with
  | mk out s' =>
    cases out with
    | error e =>
      rw [exec_error h]
      exact hs
    | ok r => exact effect_retains (exec_effect h) (.inl ⟨result, now, rfl, hresult⟩) hs

theorem apply_delivers {result : AttemptResult} (hresult : result.action = .succeed)
    (held : s.holds op = true) (fresh : s.history.find op.operationId = none) :
    ∃ h, (applyResult op result now s).2.history.find op.operationId = some h ∧ h.delivered := by
  obtain ⟨row, hrow, htoken⟩ := (holds_iff s op).mp held
  have hid : row.operationId = op.operationId := KeyedTable.find_key hrow
  have hheld : s.heldRow op = some row := (heldRow_eq_some_iff s op row).mpr ⟨hrow, htoken⟩
  obtain ⟨outcome, houtcome, happly⟩ : ∃ outcome, (outcome = .succeeded ∨ outcome = .replayed) ∧
      applyResult op result now s = archiveAndDelete op outcome result now s := by
    refine ⟨if result.replayed then .replayed else .succeeded, ?_, by rw [applyResult, hresult]⟩
    split
    · exact .inr rfl
    · exact .inl rfl
  obtain ⟨history, hinsert, -⟩ := s.history.insert_isSome (row.archived outcome now none result.status
    (redactError MAX_ERROR_LENGTH result.error)) (show s.history.find row.operationId = none by
      rw [hid, fresh])
  have harchive : archiveAndDelete op outcome result now s
      = (.ok (), { s with history, operations := s.operations.delete op.operationId }) := by
    rw [archiveAndDelete, transact_ok, hheld]
    simp [insertRow, hinsert, pure, Except.pure, bind, Except.bind]
  rw [happly, harchive]
  exact ⟨_, (KeyedTable.find_insert hinsert _).trans (if_pos hid.symm), houtcome⟩

theorem execute_retains {net : WireRequest → Exchange} {requestId : String}
    (hs : s.Retains op.operationId) :
    (executeOperation host net requestId op now s).2.Retains op.operationId := by
  rw [executeOperation_eq]
  split
  · exact hs
  · exact hs
  · split
    · exact hs
    · rename_i attempt _ _ _ wire _
      rw [finish_eq]
      split
      · rename_i c hcall
        have hc : (∃ replacement now, c = .supersede op replacement now) ∨
            ∃ revision, c = .recordTurnRevision op.operationId revision := by
          cases call_concludes hcall with
          | record => exact .inr ⟨_, rfl⟩
          | replace => exact .inl ⟨_, _, rfl⟩
        cases h : c.exec host s with
        | mk out s' =>
          cases out with
          | error e =>
            rw [exec_error h]
            exact hs
          | ok r => exact effect_retains (exec_effect h) (.inr hc) hs
      · exact hs

end Rows

/-! ### Genuine receipts -/

section Genuine
variable {host : Host} {net : WireRequest → Exchange} {s : Store} {op : ClaimedOperation}

theorem Attempt.HasReceipt.unique {payload : JSONObject} {receipt receipt' : MutationReceipt} :
    ∀ {attempt : Attempt}, attempt.HasReceipt payload receipt →
      attempt.HasReceipt payload receipt' → receipt = receipt'
  | .remember _, ⟨response, hparsed, hreceipt⟩, ⟨response', hparsed', hreceipt'⟩
  | .correct _ _, ⟨response, hparsed, hreceipt⟩, ⟨response', hparsed', hreceipt'⟩ => by
    rw [hparsed] at hparsed'
    cases hparsed'
    rw [hreceipt] at hreceipt'
    exact Option.some.inj hreceipt'
  | .expose _, ⟨response, hparsed, hreceipt⟩, ⟨response', hparsed', hreceipt'⟩ => by
    rw [hparsed] at hparsed'
    cases hparsed'
    exact hreceipt.symm.trans hreceipt'

theorem receives_unique {receipt receipt' : MutationReceipt} (h : op.Receives host net s receipt)
    (h' : op.Receives host net s receipt') : receipt = receipt' := by
  obtain ⟨attempt, wire, hbegin, hwire, r, payload, hnet, -, hobject, hreceipt, -⟩ := h
  obtain ⟨attempt', wire', hbegin', hwire', r', payload', hnet', -, hobject', hreceipt', -⟩ := h'
  rw [hbegin] at hbegin'
  cases hbegin'
  rw [hwire] at hwire'
  cases hwire'
  rw [hnet] at hnet'
  cases hnet'
  rw [hobject] at hobject'
  cases hobject'
  exact hreceipt.unique hreceipt'

end Genuine

/-- The answer carries a receipt for the operation's key that reports the mutation as applied;
the receipt of a replay reports what the replayed request did. -/
def Outbox.ClaimedOperation.Confirmed (host : Host) (net : WireRequest → Exchange) (s : Store)
    (op : ClaimedOperation) : Prop :=
  ∃ receipt, op.Receives host net s receipt ∧ receipt.applied = true

/-- An execution succeeds only when the mutation is confirmed, and otherwise it and the result it
gives retain the operation in whatever store they meet. -/
structure DoneOnReceipt (host : Host) (net : WireRequest → Exchange) (requestId : String)
    (op : ClaimedOperation) (now : Instant) (s : Store) : Prop where
  succeeds : (executeOperation host net requestId op now s).1.action = .succeed →
    op.Confirmed host net s
  retained : ¬ op.Confirmed host net s →
    (s.Retains op.operationId →
      (executeOperation host net requestId op now s).2.Retains op.operationId) ∧
    ∀ s' later, s'.Retains op.operationId →
      (applyResult op (executeOperation host net requestId op now s).1 later s').2.Retains
        op.operationId

/-- For every claimed operation and every answer: an operation is done only on a genuine receipt,
exactly when the receipt for its key, if the answer has one, says `applied`. -/
theorem done_only_on_receipt (host : Host) (net : WireRequest → Exchange) (requestId : String)
    (op : ClaimedOperation) (now : Instant) (s : Store) :
    DoneOnReceipt host net requestId op now s ↔
      ∀ receipt, op.Receives host net s receipt → receipt.applied = true := by
  constructor
  · intro h receipt hreceives
    obtain ⟨receipt', hreceives', happlied⟩ := h.succeeds (execute_received.mpr ⟨receipt, hreceives⟩)
    rw [receives_unique hreceives hreceives']
    exact happlied
  · intro h
    have hsucceeds : (executeOperation host net requestId op now s).1.action = .succeed →
        op.Confirmed host net s := by
      intro hact
      obtain ⟨receipt, hreceives⟩ := execute_received.mp hact
      exact ⟨receipt, hreceives, h receipt hreceives⟩
    exact ⟨hsucceeds, fun hn => ⟨execute_retains, fun s' later hs' =>
      apply_retains (fun hact => hn (hsucceeds hact)) hs'⟩⟩

/-! ### A receipt that says the opposite -/

def unappliedReceipt : MutationReceipt where
  operationId := "k"
  applied := false
  revision := none
  affectedRecords := []
  idempotencyKey := some "k"
  replayed := false

def unappliedAnswer : JSONObject :=
  [("id", .str "1"), ("organization_id", .str "o"), ("source_id", .str "s"),
    ("principal_id", .str "u"), ("memory_scope", .str "project"), ("title", .str "t"),
    ("raw_content", .str "c"), ("tags", .list []), ("revision", .int 1),
    ("mutation_receipt", .dict [("operation_id", .str "k"), ("applied", .bool false),
      ("revision", .none), ("affected_records", .list []), ("idempotency_key", .str "k"),
      ("replayed", .bool false)])]

def unappliedPieces : List String :=
  ["\x7b\"id\":\"1\",", "\"organization_id\":\"o\",", "\"source_id\":\"s\",", "\"principal_id\":\"u\",",
    "\"memory_scope\":\"project\",", "\"title\":\"t\",", "\"raw_content\":\"c\",", "\"tags\":[],",
    "\"revision\":1,", "\"mutation_receipt\":", "\x7b\"operation_id\":\"k\",", "\"applied\":false,",
    "\"revision\":null,", "\"affected_records\":[],", "\"idempotency_key\":\"k\",",
    "\"replayed\":false\x7d\x7d"]

def unappliedBody : List UInt8 :=
  unappliedPieces.flatMap fun piece => piece.toList.map fun c => UInt8.ofNat c.toNat

theorem unappliedBody_length : 0 < unappliedBody.length ∧
    unappliedBody.length ≤ MAX_SUCCESS_BODY_BYTES := by
  decide +kernel

def unapplied : Response where
  status := 200
  requestIdHeader := none
  chunks := [unappliedBody]
  chunks_ne := by simpa using List.ne_nil_of_length_pos unappliedBody_length.1

def unappliedHost : Host :=
  { Host.plain with
    loads := fun body =>
      if body = unappliedBody then .ok (.dict unappliedAnswer) else .error .valueError }

def claimedTurn : Store :=
  (World.run Host.plain
    [.enqueue { sampleOperation with request := .dict sampleTurn.request } 0,
      .claimPage sampleConfig (samplePage "worker" "token" 1)]).store

/-- A capture is archived as delivered on a receipt that says it was not applied. -/
theorem unapplied_receipt_archives :
    ¬ sampleTurn.Confirmed unappliedHost (fun _ => .answered unapplied) claimedTurn ∧
    ∃ h, (applyResult sampleTurn (executeOperation unappliedHost (fun _ => .answered unapplied) "r"
        sampleTurn 2 claimedTurn).1 3 claimedTurn).2.history.find "a" = some h ∧ h.delivered := by
  have hobject : successObject unappliedHost unapplied = some unappliedAnswer := by
    have hn : ¬ MAX_SUCCESS_BODY_BYTES < unappliedBody.length := by
      have hle := unappliedBody_length.2
      omega
    simp [successObject, unapplied, successChunks, hn, jsonObject, unappliedHost, bind, Except.bind,
      pure, Except.pure, Except.toOption]
  have hreceives : sampleTurn.Receives unappliedHost (fun _ => .answered unapplied) claimedTurn
      unappliedReceipt :=
    ⟨.remember sampleRaw, _, rfl, rfl, unapplied, unappliedAnswer, rfl, rfl, hobject, ⟨_, rfl, rfl⟩, rfl⟩
  constructor
  · rintro ⟨receipt, hreceipt, happlied⟩
    rw [receives_unique hreceipt hreceives] at happlied
    cases happlied
  · exact apply_delivers (execute_received.mpr ⟨_, hreceives⟩) (by decide) rfl

end SibylMemory
