import SibylMemory.ChunkedBodies
import SibylMemory.Execute

/-!
# HTTP error responses and what becomes of the operation

The status of an error response dictates the action only when the client can
make something of the body: a body that is not a contract error ends in
`SibylProtocolError`, which the `except` ladder dead-letters whatever the status.
-/

namespace SibylMemory
open Outbox

/-! ### Bodies that can be read -/

def Response.Small (r : Response) : Prop := r.body.length ≤ MAX_ERROR_BODY_BYTES

def Response.Cut (r : Response) : Prop := r.Small ∧ r.broken ≠ none

def Response.Whole (r : Response) : Prop := r.Small ∧ r.broken = none

/-- The body is a JSON object of the error contract. -/
def ContractBody (host : Host) (body : List UInt8) : Prop :=
  ∃ payload error message, host.loads body = .ok (.dict payload) ∧
    Schema.get payload "error" = .str error ∧ Schema.get payload "message" = .str message ∧
    (∀ key ∈ ["request_id", "remediation"],
      Schema.get payload key = .none ∨ ∃ s, Schema.get payload key = .str s) ∧
    ∃ details, (PyValue.lookup "details" payload).getD (.dict []) = .dict details

def Response.code (host : Host) (r : Response) : Option String :=
  match host.loads r.body with
  | .ok (.dict payload) => Schema.asString (Schema.get payload "error")
  | _ => none

theorem optionalErrorString_ok {payload : JSONObject} {key : String} :
    (∃ v, optionalErrorString payload key = .ok v) ↔
      Schema.get payload key = .none ∨ ∃ s, Schema.get payload key = .str s := by
  unfold optionalErrorString
  split <;> rename_i h <;> simp_all

theorem jsonObject_ok {host : Host} {body : List UInt8} {payload : JSONObject} :
    jsonObject host body = .ok payload ↔ host.loads body = .ok (.dict payload) := by
  unfold jsonObject
  rw [bind_ok]
  constructor
  · rintro ⟨value, hloads, hvalue⟩
    cases value with
    | dict entries =>
      cases hvalue
      exact hloads
    | _ => cases hvalue
  · intro hloads
    exact ⟨.dict payload, hloads, rfl⟩

theorem errorEnvelope_contract {host : Host} {body : List UInt8} (h : ContractBody host body) :
    ∃ envelope payload, errorEnvelope host body = .ok envelope ∧
      host.loads body = .ok (.dict payload) ∧
      Schema.get payload "error" = .str envelope.error := by
  obtain ⟨payload, error, message, hl, he, hm, hopt, details, hd⟩ := h
  obtain ⟨requestId, hr⟩ := optionalErrorString_ok.mpr (hopt "request_id" (by simp))
  obtain ⟨remediation, hrem⟩ := optionalErrorString_ok.mpr (hopt "remediation" (by simp))
  refine ⟨{ error, message, requestId, remediation, details }, payload, ?_, hl, he⟩
  simp [errorEnvelope, jsonObject_ok.mpr hl, he, hm, hr, hrem, hd, bind, Except.bind, pure, Except.pure]

theorem optionalErrorString_error {payload : JSONObject} {key : String} {e : LoadsError}
    (h : optionalErrorString payload key = .error e) : e = .valueError := by
  unfold optionalErrorString at h
  split at h <;> cases h
  rfl

theorem jsonObject_error {host : Host} {body : List UInt8} {e : LoadsError}
    (h : jsonObject host body = .error e) : e = .valueError ∨ host.loads body = .error e := by
  unfold jsonObject at h
  rw [bind_error] at h
  rcases h with h | ⟨v, -, h⟩
  · exact .inr h
  · cases v <;> cases h
    all_goals exact .inl rfl

theorem jsonObject_other {host : Host} {body : List UInt8} {className : String} :
    jsonObject host body = .error (.other className) ↔
      host.loads body = .error (.other className) := by
  constructor
  · intro h
    exact (jsonObject_error h).resolve_left (by simp)
  · intro h
    rw [jsonObject, h]
    rfl

theorem errorEnvelope_error {host : Host} {body : List UInt8} {e : LoadsError}
    (h : errorEnvelope host body = .error e) : e = .valueError ∨ host.loads body = .error e := by
  unfold errorEnvelope at h
  rw [bind_error] at h
  rcases h with h | ⟨payload, -, h⟩
  · exact jsonObject_error h
  left
  split at h
  · simp only [bind_error] at h
    rcases h with h | ⟨_, -, h | ⟨_, -, h⟩⟩
    · exact optionalErrorString_error h
    · exact optionalErrorString_error h
    · split at h <;> cases h
      rfl
  · cases h
    rfl

theorem errorEnvelope_loads_error {host : Host} {body : List UInt8} {e : LoadsError}
    (h : host.loads body = .error e) : errorEnvelope host body = .error e := by
  simp [errorEnvelope, jsonObject, h, bind, Except.bind]

theorem contract_of_envelope {host : Host} {body : List UInt8} {envelope : ErrorEnvelope}
    (h : errorEnvelope host body = .ok envelope) : ContractBody host body := by
  unfold errorEnvelope at h
  simp only [bind_ok] at h
  obtain ⟨payload, hp, h⟩ := h
  have hl := jsonObject_ok.mp hp
  split at h
  · rename_i error message he hm
    simp only [bind_ok] at h
    obtain ⟨requestId, hri, remediation, hre, h⟩ := h
    split at h
    · rename_i details hdet
      refine ⟨payload, error, message, hl, he, hm, fun key hk => ?_, details, hdet⟩
      rw [List.mem_cons, List.mem_singleton] at hk
      rcases hk with rfl | rfl
      · exact optionalErrorString_ok.mp ⟨_, hri⟩
      · exact optionalErrorString_ok.mp ⟨_, hre⟩
    · cases h
  · cases h

/-! ### The exception that an error response becomes -/

/-- `json.loads` gives up on the body with another exception than a `ValueError`. -/
def Response.Crashes (host : Host) (r : Response) : Prop :=
  r.Whole ∧ ∃ className, host.loads r.body = .error (.other className)

def Response.Contract (host : Host) (r : Response) : Prop := r.Whole ∧ ContractBody host r.body

inductive Reading (host : Host) (requestId : String) (r : Response) : Prop where
  | cut (h : r.Cut) (errorType : String)
      (raised : raiseHttpError host requestId r = .transport requestId errorType)
  | crashed (h : r.Crashes host) (className : String)
      (raised : raiseHttpError host requestId r = .other className)
  | refused (cut : ¬ r.Cut) (crash : ¬ r.Crashes host) (contract : ¬ r.Contract host)
      (message id preview : String)
      (raised : raiseHttpError host requestId r = .protocol message id (some r.status) preview)
  | contract (h : r.Contract host) (data : HTTPErrorData) (status : data.statusCode = r.status)
      (code : r.code host = some data.error)
      (raised : raiseHttpError host requestId r = .http data ∨
        raiseHttpError host requestId r = .conflict data)

theorem reading (host : Host) (requestId : String) (r : Response) : Reading host requestId r := by
  by_cases hs : r.Small
  · have hb := boundedErrorBody_small hs
    cases hbr : r.broken with
    | some errorType =>
      rw [hbr] at hb
      refine .cut ⟨hs, by simp [hbr]⟩ errorType ?_
      rw [raiseHttpError, hb]
    | none =>
      rw [hbr] at hb
      have hw : r.Whole := ⟨hs, hbr⟩
      have hnc : ¬ r.Cut := fun h => h.2 hbr
      cases he : errorEnvelope host r.body with
      | ok envelope =>
        obtain ⟨envelope', payload, he', hl, hcode⟩ :=
          errorEnvelope_contract (contract_of_envelope he)
        rw [he] at he'
        cases he'
        have hc : r.code host = some envelope.error := by
          rw [Response.code, hl]
          simp [hcode, Schema.asString]
        refine .contract ⟨hw, contract_of_envelope he⟩
          (envelopeData (r.requestIdHeader.getD requestId) r envelope) rfl hc ?_
        unfold raiseHttpError
        rw [hb]
        simp only [he, Bool.false_eq_true, if_false]
        split
        · exact .inr rfl
        · exact .inl rfl
      | error e =>
        cases e with
        | other className =>
          have hl := (errorEnvelope_error he).resolve_left (by simp)
          refine .crashed ⟨hw, className, hl⟩ className ?_
          unfold raiseHttpError
          rw [hb]
          simp only [he, Bool.false_eq_true, if_false]
        | valueError =>
          refine .refused hnc ?_ ?_ _ _ _ (by
            unfold raiseHttpError
            rw [hb]
            simp only [he, Bool.false_eq_true, if_false]
            rfl)
          · rintro ⟨-, className, hl⟩
            rw [errorEnvelope_loads_error hl] at he
            cases he
          · rintro ⟨-, hcb⟩
            obtain ⟨envelope, payload, he', -⟩ := errorEnvelope_contract hcb
            rw [he] at he'
            cases he'
  · have hb := boundedErrorBody_large (Nat.lt_of_not_le hs)
    refine .refused (fun h => hs h.1) (fun h => hs h.1.1) (fun h => hs h.1.1) _ _ _ (by
      unfold raiseHttpError
      rw [hb]
      simp only [if_true]
      rfl)

/-! ### What the status dictates -/

def pendingKinds : List IdempotencyErrorKind := [.lockHeld, .interruptedPending, .receiptPending]

def Response.Transient (r : Response) : Prop := r.status = 429 ∨ 500 ≤ r.status

def Response.Auth (r : Response) : Prop := r.status = 401 ∨ r.status = 403

def Response.PendingKey (host : Host) (r : Response) : Prop :=
  r.status = 409 ∧ ∃ kind ∈ pendingKinds, r.code host = some kind.value

structure Dictated (host : Host) (r : Response) (action : ResultAction) : Prop where
  transient : r.Transient → action = .retry
  auth : r.Auth → action = .blockAuth
  pending : r.PendingKey host → action ≠ .deadLetter

/-- The operation is still queued, in a state from which it is delivered later. -/
def Outbox.Store.awaits (s : Store) (i : String) : Prop :=
  ∃ row, s.operations.find i = some row ∧
    row.state ∈ [OperationState.pending, .pendingRecovery, .blockedAuth]

/-- The bodies on which the action is the dictated one. -/
structure Conforms (host : Host) (r : Response) : Prop where
  transient : r.Transient → r.Cut ∨ r.Crashes host ∨ r.Contract host
  auth : r.Auth → r.Contract host
  pending : r.PendingKey host →
    r.Cut ∨ r.Contract host ∧ r.code host ≠ some IdempotencyErrorKind.receiptPending.value

theorem classify_transient {status : Nat} (h : status = 429 ∨ 500 ≤ status) (code : Option String)
    (correction dependency : Bool) :
    classifyHttpFailure (some status) code correction dependency = .retry := if_pos h

theorem classify_auth {status : Nat} (h : status = 401 ∨ status = 403) (code : Option String)
    (correction dependency : Bool) :
    classifyHttpFailure (some status) code correction dependency = .blockAuth := by
  have hn : ¬ (status = 429 ∨ 500 ≤ status) := by omega
  simp only [classifyHttpFailure, hn, h, if_false, if_true]

theorem classify_pending (kind : IdempotencyErrorKind) (correction dependency : Bool) :
    classifyHttpFailure (some 409) (some kind.value) correction dependency =
      match kind with
      | .lockHeld => .retry
      | .interruptedPending => .recover
      | _ => .deadLetter := by
  cases kind <;> cases correction <;> cases dependency <;> decide

theorem execute_error_response {host : Host} {net : WireRequest → Exchange} {requestId : String}
    {op : ClaimedOperation} {now : Instant} {s : Store} {attempt : Attempt} {wire : WireRequest}
    {r : Response} (hbegin : beginAttempt host s op = .ok attempt)
    (hwire : attempt.wire op.idempotencyKey = .ok wire) (hnet : net wire = .answered r)
    (herr : r.isError = true) :
    executeOperation host net requestId op now s
      = (failedAttempt op (raiseHttpError host requestId r), s) := by
  have hreq : ∀ {α : Type} (parser : PyValue → Except String α) (check : α → Except String Unit),
      request host net requestId wire parser check = .error (raiseHttpError host requestId r) := by
    intro α parser check
    simp [request, hnet, herr]
  unfold executeOperation
  cases attempt with
  | finished result => cases hwire
  | _ => simp only [hbegin, hwire, hreq]

theorem apply_awaits {s : Store} {op : ClaimedOperation} (hheld : s.holds op = true)
    {result : AttemptResult} (now : Instant)
    (h : result.action ∈ [ResultAction.retry, .recover, .blockAuth]) :
    (applyResult op result now s).2.awaits op.operationId := by
  obtain ⟨row, held, token⟩ := (holds_iff s op).mp hheld
  have hsettle : ∀ state, state ∈ [OperationState.pending, .pendingRecovery, .blockedAuth] →
      (settle op state result now s).2.awaits op.operationId := by
    intro state hstate
    refine ⟨row.settled state result now, ?_, hstate⟩
    simp [settle, transact, hheld, find_update_held held token, pure, Except.pure]
  simp only [List.mem_cons, List.not_mem_nil, or_false] at h
  unfold applyResult
  rcases h with h | h | h <;> rw [h]
  · exact hsettle .pending (by simp)
  · exact hsettle .pendingRecovery (by simp)
  · exact hsettle .blockedAuth (by simp)

theorem failed_action {op : ClaimedOperation} {data : HTTPErrorData} {e : ClientError}
    (h : e = .http data ∨ e = .conflict data) : (failedAttempt op e).action
      = classifyHttpFailure (some data.statusCode) (some data.error) (isCorrection op) false := by
  rcases h with rfl | rfl <;> rfl

section Verdict
variable {host : Host} {requestId : String} {op : ClaimedOperation} {r : Response}

theorem pending_contract {data : HTTPErrorData} (status : data.statusCode = r.status)
    (code : r.code host = some data.error) (hp : r.PendingKey host) :
    (r.code host = some IdempotencyErrorKind.receiptPending.value →
      classifyHttpFailure (some data.statusCode) (some data.error) (isCorrection op) false
        = .deadLetter) ∧
    (r.code host ≠ some IdempotencyErrorKind.receiptPending.value →
      classifyHttpFailure (some data.statusCode) (some data.error) (isCorrection op) false
        ∈ [ResultAction.retry, .recover, .blockAuth]) := by
  obtain ⟨h409, kind, hk, hc⟩ := hp
  rw [code, Option.some.injEq] at hc
  rw [status, h409, hc, classify_pending kind, code, hc]
  cases kind with
  | payloadMismatch => simp [pendingKinds] at hk
  | lockHeld => simp [IdempotencyErrorKind.value]
  | interruptedPending => simp [IdempotencyErrorKind.value]
  | receiptPending => simp [IdempotencyErrorKind.value]

theorem conforming_action (requestId : String) (op : ClaimedOperation) (h : Conforms host r)
    (hr : r.Transient ∨ r.Auth ∨ r.PendingKey host) :
    (failedAttempt op (raiseHttpError host requestId r)).action
      ∈ [ResultAction.retry, .recover, .blockAuth] := by
  cases reading host requestId r with
  | cut _ errorType raised =>
    rw [raised]
    exact List.mem_cons_self
  | crashed _ className raised =>
    rw [raised]
    exact List.mem_cons_self
  | refused hcut hcrash hcontract =>
    exfalso
    rcases hr with ht | ha | hp
    · rcases h.transient ht with h | h | h
      · exact hcut h
      · exact hcrash h
      · exact hcontract h
    · exact hcontract (h.auth ha)
    · rcases h.pending hp with h | h
      · exact hcut h
      · exact hcontract h.1
  | contract hcontract data status code raised =>
    rw [failed_action raised]
    rcases hr with ht | ha | hp
    · rw [status, classify_transient ht]
      exact List.mem_cons_self
    · rw [status, classify_auth ha]
      simp
    · refine (pending_contract status code hp).2 ?_
      rcases h.pending hp with hcut | hok
      · exact absurd hcontract.1.2 hcut.2
      · exact hok.2

theorem dictated_iff :
    Dictated host r (failedAttempt op (raiseHttpError host requestId r)).action ↔
      Conforms host r := by
  constructor
  · intro h
    cases reading host requestId r with
    | cut hcut errorType raised =>
      rw [raised] at h
      refine ⟨fun _ => .inl hcut, fun ha => ?_, fun _ => .inl hcut⟩
      cases h.auth ha
    | crashed hcrash className raised =>
      rw [raised] at h
      refine ⟨fun _ => .inr (.inl hcrash), fun ha => ?_, fun hp => ?_⟩
      · cases h.auth ha
      · obtain ⟨-, kind, -, hc⟩ := hp
        obtain ⟨-, name, hl⟩ := hcrash
        rw [Response.code, hl] at hc
        cases hc
    | refused _ _ _ message id preview raised =>
      rw [raised] at h
      refine ⟨fun ht => ?_, fun ha => ?_, fun hp => ?_⟩
      · cases h.transient ht
      · cases h.auth ha
      · exact absurd rfl (h.pending hp)
    | contract hcontract data status code raised =>
      rw [failed_action raised] at h
      refine ⟨fun _ => .inr (.inr hcontract), fun _ => hcontract,
        fun hp => .inr ⟨hcontract, fun hc => ?_⟩⟩
      exact h.pending hp ((pending_contract status code hp).1 hc)
  · intro h
    refine ⟨fun ht => ?_, fun ha => ?_, fun hp => ?_⟩
    · cases reading host requestId r with
      | cut _ errorType raised => rw [raised]; rfl
      | crashed _ className raised => rw [raised]; rfl
      | refused hcut hcrash hcontract =>
        rcases h.transient ht with h | h | h
        · exact absurd h hcut
        · exact absurd h hcrash
        · exact absurd h hcontract
      | contract _ data status code raised =>
        rw [failed_action raised, status, classify_transient ht]
    · cases reading host requestId r with
      | cut hcut => exact absurd (h.auth ha).1.2 hcut.2
      | crashed hcrash =>
        obtain ⟨-, name, hl⟩ := hcrash
        obtain ⟨payload, _, _, hl', -⟩ := (h.auth ha).2
        rw [hl] at hl'
        cases hl'
      | refused _ _ hcontract => exact absurd (h.auth ha) hcontract
      | contract _ data status code raised =>
        rw [failed_action raised, status, classify_auth ha]
    · have hmem := conforming_action requestId op h (.inr (.inr hp))
      intro hd
      rw [hd] at hmem
      simp at hmem

end Verdict

/-- For every claimed operation whose request is answered by an error response: the status
dictates the action, and a transient or authentication failure leaves the operation queued,
exactly when the body conforms. -/
theorem error_response_verdict (host : Host) (net : WireRequest → Exchange) (requestId : String)
    (op : ClaimedOperation) (now : Instant) (s : Store) (attempt : Attempt) (wire : WireRequest)
    (r : Response) (hbegin : beginAttempt host s op = .ok attempt)
    (hwire : attempt.wire op.idempotencyKey = .ok wire) (hnet : net wire = .answered r)
    (herr : r.isError = true) :
    (Dictated host r (executeOperation host net requestId op now s).1.action ∧
      (r.Transient ∨ r.Auth ∨ r.PendingKey host → ∀ s' later, s'.holds op = true →
        (applyResult op (executeOperation host net requestId op now s).1 later s').2.awaits
          op.operationId)) ↔
      Conforms host r := by
  rw [execute_error_response hbegin hwire hnet herr]
  constructor
  · intro h
    exact dictated_iff.mp h.1
  · intro h
    exact ⟨dictated_iff.mpr h, fun hr _ later held =>
      apply_awaits held later (conforming_action requestId op h hr)⟩

/-! ### A gateway's HTML page -/

def htmlPage : Response where
  status := 503
  requestIdHeader := none
  chunks := [[60, 104, 116, 109, 108, 62]]
  chunks_ne := by decide

def sampleTurn : ClaimedOperation where
  operationId := "a"
  dependsOn := none
  kind := "raw_capture"
  endpoint := "/api/memory/raw"
  request := [("title", .str "t"), ("raw_content", .str "c"), ("source_id", .str "s"),
    ("project_id", .str "p"), ("metadata", .dict []), ("provenance", .dict [])]
  idempotencyKey := "k"
  state := .pending
  createdAt := 0
  updatedAt := 0
  attempts := 1
  lastStatus := none
  lastError := none
  httpMethod := "POST"
  claimToken := "token"
  claimedBy := "worker"
  leaseExpiresAt := 30
  recoveryKind := .rawCapture

def sampleRaw : RawMemoryRequest where
  title := "t"
  rawContent := "c"
  sourceId := "s"
  projectId := "p"
  metadata := .dict []
  provenance := .dict []
  tags := []

/-- A transient status with a body that is no contract error dead-letters the capture. -/
theorem html_dead_letters : htmlPage.Transient ∧
    (executeOperation Host.plain (fun _ => .answered htmlPage) "r" sampleTurn 0
      Store.empty).1.action = .deadLetter := by
  exact ⟨.inr (by decide), by decide⟩

theorem error_response_verdict_html :
    ∃ wire, (Attempt.remember sampleRaw).wire "k" = .ok wire ∧
    ((Dictated Host.plain htmlPage
        (executeOperation Host.plain (fun _ => .answered htmlPage) "r" sampleTurn 0
          Store.empty).1.action ∧
      (htmlPage.Transient ∨ htmlPage.Auth ∨ htmlPage.PendingKey Host.plain →
        ∀ s' later, s'.holds sampleTurn = true →
        (applyResult sampleTurn (executeOperation Host.plain (fun _ => .answered htmlPage) "r"
          sampleTurn 0 Store.empty).1 later s').2.awaits sampleTurn.operationId)) ↔
      Conforms Host.plain htmlPage) :=
  ⟨_, rfl, error_response_verdict Host.plain (fun _ => .answered htmlPage) "r" sampleTurn 0
    Store.empty (.remember sampleRaw) _ htmlPage rfl rfl rfl rfl⟩

end SibylMemory
