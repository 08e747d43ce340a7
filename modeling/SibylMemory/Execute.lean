import SibylMemory.Client
import SibylMemory.Outbox.Calls

/-!
# Executing a claimed operation (`runtime.py:653-822`)

An attempt is prepared from the claimed operation, sent, and turned into the
result that `apply_result` gets; the exceptions on the way end in the `except`
ladder. The parts are separate because other workers run between them.
-/

namespace SibylMemory
open Outbox Text

/-! ### Classification (`outbox.py:245-268`) -/

def classifyHttpFailure (status : Option Nat) (errorCode : Option String) (isCorrection : Bool)
    (dependencyPending : Bool) : ResultAction :=
  match status with
  | none => .retry
  | some status =>
    if status = 429 ∨ 500 ≤ status then .retry
    else if status = 401 ∨ status = 403 then .blockAuth
    else if status = 404 ∧ isCorrection then
      if dependencyPending then .retry else .obsolete
    else if status = 409 then
      if errorCode = some "idempotency_lock_held" then .retry
      else if errorCode = some "idempotency_interrupted_pending" then .recover
      else if errorCode = some "idempotency_payload_mismatch" then .deadLetter
      else if errorCode = some "revision_conflict" then .reconcileRevision
      else .deadLetter
    else .deadLetter

/-! ### Stored requests (`runtime.py:789-830`)

The errors are class names of the Python exceptions. -/

def item (data : JSONObject) (key : String) : Except String PyValue :=
  match PyValue.lookup key data with
  | some value => .ok value
  | none => .error "KeyError"

/-- `data.get(key)`, with null read as `None`. -/
def optionalItem (data : JSONObject) (key : String) : Option PyValue :=
  match PyValue.lookup key data with
  | some .none => none
  | value => value

theorem optionalItem_some {data : JSONObject} {key : String} {v : PyValue}
    (h : optionalItem data key = some v) : PyValue.lookup key data = some v := by
  unfold optionalItem at h
  split at h
  · cases h
  · exact h

theorem optionalItem_ne_none (data : JSONObject) (key : String) :
    optionalItem data key ≠ some .none := by
  unfold optionalItem
  split
  · simp
  · rename_i h
    exact fun hn => h hn

theorem optionalItem_eq {data : JSONObject} {key : String} (h : PyValue.lookup key data ≠ some .none) :
    optionalItem data key = PyValue.lookup key data := by
  unfold optionalItem
  split
  · rename_i hn
    exact absurd hn h
  · rfl

def strings (host : Host) : PyValue → Except String (List String)
  | .list xs => .ok (xs.map host.str)
  | .tuple xs => .ok (xs.map host.str)
  | .dict es => .ok (es.map Prod.fst)
  | .str s => .ok (s.toList.map fun c => String.ofList [c])
  | _ => .error "TypeError"

def rawRequest (host : Host) (data : JSONObject) : Except String RawMemoryRequest := do
  let title ← item data "title"
  let rawContent ← item data "raw_content"
  let sourceId ← item data "source_id"
  let projectId ← item data "project_id"
  let metadata ← item data "metadata"
  let provenance ← item data "provenance"
  let tags ← strings host ((PyValue.lookup "tags" data).getD (.list []))
  return { title := host.str title, rawContent := host.str rawContent, sourceId := host.str sourceId,
           projectId := host.str projectId, metadata, provenance, tags }

def exposureRequest (host : Host) (data : JSONObject) : Except String ContextExposureRequest := do
  match (PyValue.lookup "metadata" data).getD (.dict []) with
  | .dict metadata =>
    let exposedIds ← strings host (← item data "exposed_ids")
    let projectId ← item data "project_id"
    return { exposedIds, projectId := host.str projectId,
             sessionIdHash := optionalItem metadata "session_id_hash",
             queryHash := optionalItem metadata "query_hash",
             automatic := truthy ((PyValue.lookup "automatic" metadata).getD (.bool true)) }
  | _ => throw "AttributeError"

def correctionRequest (host : Host) (data : JSONObject) : Except String CorrectionRequest := do
  let action ← item data "action"
  let reason ← item data "reason"
  return { action, reason := host.str reason,
           replacementSourceId := optionalItem data "replacement_source_id",
           duplicateOfSourceId := optionalItem data "duplicate_of_source_id",
           revisedContent := optionalItem data "revised_content",
           expectedRevision := optionalItem data "expected_revision",
           metadata := (PyValue.lookup "metadata" data).getD (.dict []) }

/-- What `_correction_request` reads. -/
structure CorrectionRequest.Decodes (host : Host) (r : CorrectionRequest) (data : JSONObject) : Prop where
  action : PyValue.lookup "action" data = some r.action
  reason : ∃ value, PyValue.lookup "reason" data = some value ∧ r.reason = host.str value
  metadata : r.metadata = (PyValue.lookup "metadata" data).getD (.dict [])
  replacementSourceId : r.replacementSourceId = optionalItem data "replacement_source_id"
  duplicateOfSourceId : r.duplicateOfSourceId = optionalItem data "duplicate_of_source_id"
  revisedContent : r.revisedContent = optionalItem data "revised_content"
  expectedRevision : r.expectedRevision = optionalItem data "expected_revision"

theorem item_ok {data : JSONObject} {key : String} {v : PyValue} (h : item data key = .ok v) :
    PyValue.lookup key data = some v := by
  unfold item at h
  split at h
  · rename_i hv
    cases h
    exact hv
  · cases h

theorem correctionRequest_decodes {host : Host} {data : JSONObject} {r : CorrectionRequest}
    (h : correctionRequest host data = .ok r) : r.Decodes host data := by
  unfold correctionRequest at h
  simp only [bind_ok] at h
  obtain ⟨action, haction, reason, hreason, h⟩ := h
  cases h
  exact ⟨item_ok haction, ⟨reason, item_ok hreason, rfl⟩, rfl, rfl, rfl, rfl, rfl⟩

def correctionMarker : String := "/api/memory/inspect/"

def correctionSourceId (endpoint : String) : Except String String :=
  if startsWith endpoint correctionMarker && endsWith endpoint "/corrections" then
    let inner := endpoint.toList.drop correctionMarker.length
    .ok (PercentEncoding.unquote (String.ofList (inner.take (inner.length - "/corrections".length))))
  else .error "ValueError"

/-! ### Preparing an attempt (`runtime.py:653-706`) -/

inductive Attempt where
  | remember (request : RawMemoryRequest)
  | expose (request : ContextExposureRequest)
  | correct (sourceId : String) (request : CorrectionRequest)
  | preview (sourceId : String) (request : CorrectionRequest)
  | finished (result : AttemptResult)

/-- A correction without a revision takes that of the turn it depends on; `none` when that
turn has none. -/
def hydrate (s : Store) (op : ClaimedOperation) : Option JSONObject :=
  match optionalItem op.request "expected_revision", op.dependsOn with
  | none, some dependency =>
    match s.turnRevision dependency with
    | none => none
    | some revision => some (PyValue.assign "expected_revision" (.int revision) op.request)
  | _, _ => some op.request

def revisionMissing : AttemptResult :=
  .failure .retry none (some "source dependency revision is not available")

def correctionAttempt (host : Host) (s : Store) (op : ClaimedOperation) :
    Except String Attempt := do
  let sourceId ← correctionSourceId op.endpoint
  match hydrate s op with
  | none => return .finished revisionMissing
  | some data =>
    let request ← correctionRequest host data
    if op.state = .reconcileRevision then return .preview sourceId request
    else return .correct sourceId request

/-- What `_execute_operation` is about to send. The error is a class name. -/
def beginAttempt (host : Host) (s : Store) (op : ClaimedOperation) : Except String Attempt :=
  if endsWith op.endpoint "/memory/raw" then
    (rawRequest host op.request).map .remember
  else if op.kind = "context_exposure" then
    (exposureRequest host op.request).map .expose
  else if endsWith op.endpoint "/corrections" then
    correctionAttempt host s op
  else .ok (.finished (.failure .deadLetter none (some "unsupported outbox operation")))

def mutationRequest (path : String) (payload : Option JSONObject) (key : String) :
    Except ClientError WireRequest :=
  match payload with
  | none => .error (.other "TypeError")
  | some payload =>
    (normalizeIdempotencyKey key).map fun key =>
      { method := "POST", path, payload, idempotencyKey := some key }

/-- The request on the wire; a preview carries no idempotency key. -/
def Attempt.wire (key : String) : Attempt → Except ClientError WireRequest
  | .remember r => mutationRequest "memory/raw" r.toJson key
  | .expose r => mutationRequest "memory/expose" (some r.toJson) key
  | .correct sourceId r => do
    let path ← correctionPath sourceId false
    mutationRequest path r.toJson key
  | .preview sourceId r => do
    let path ← correctionPath sourceId true
    match r.toJson with
    | none => throw (.other "TypeError")
    | some payload => return { method := "POST", path, payload, idempotencyKey := none }
  | .finished _ => .error (.other "TypeError")

/-! ### The `except` ladder (`runtime.py:707-739`) -/

def isCorrection (op : ClaimedOperation) : Bool := endsWith op.endpoint "/corrections"

def httpFailure (op : ClaimedOperation) (data : HTTPErrorData) : AttemptResult :=
  .failure (classifyHttpFailure (some data.statusCode) (some data.error) (isCorrection op) false)
    (some data.statusCode) (some data.error)

def failedAttempt (op : ClaimedOperation) : ClientError → AttemptResult
  | .conflict data => httpFailure op data
  | .http data => httpFailure op data
  | .transport _ errorType => .failure .retry none (some errorType)
  | .protocol _ _ statusCode _ =>
    .failure .deadLetter (statusCode.map Nat.cast) (some "invalid Sibyl response contract")
  | .other className => .failure .retry none (some className)

/-- The class of an exception of the outbox. -/
def Outbox.OutboxException.className : OutboxException → String
  | .valueError _ => "ValueError"
  | .operationConflict _ => "OperationConflictError"
  | .claimLost _ => "ClaimLostError"
  | .outboxError _ => "OutboxError"
  | .integrityError _ => "IntegrityError"
  | .factory _ => "ValueError"
  | .unicodeEncodeError => "UnicodeEncodeError"
  | .overflowError => "OverflowError"
  | .baseException className => className

def escaped (e : OutboxException) : AttemptResult := .failure .retry none (some e.className)

/-! ### After the answer (`runtime.py:656-693`, `741-787`) -/

def receiptReplayed (receipt : Option MutationReceipt) : Bool :=
  match receipt with
  | some r => r.replayed
  | none => false

/-- A stored capture: its revision is recorded before the result is applied. -/
def rememberDone (op : ClaimedOperation) (response : RawMemoryResponse) (s : Store) :
    AttemptResult × Store :=
  match recordTurnRevision op.operationId response.revision s with
  | (.ok _, s') => (.success (receiptReplayed response.mutationReceipt) (some 200), s')
  | (.error e, s') => (escaped e, s')

/-- What `_reconcile_correction` does with a preview: a result, or a replacement operation. -/
inductive Reconciliation where
  | finished (result : AttemptResult)
  | replace (replacement : NewOperation)

/-- `a or b` on optional revisions: zero does not count. -/
def orRevision (a b : Option Int) : Option Int :=
  match a with
  | some n => if n = 0 then b else some n
  | none => b

/-- `_reconcile_correction` up to the `supersede` (`runtime.py:747-785`). -/
def reconcileCorrection (host : Host) (op : ClaimedOperation) (r : CorrectionRequest)
    (preview : CorrectionResponse) : Except String Reconciliation :=
  if preview.targetLifecycleState = "erased" || preview.intendedOutcomeSatisfied then
    .ok (.finished (.failure .obsolete (some 200)))
  else if !preview.allowed then
    .ok (.finished (.failure .deadLetter (some 200)
      (some "correction preview denied during revision reconciliation")))
  else
    match orRevision preview.currentRevision preview.revision with
    | none => .ok (.finished (.failure .deadLetter none
        (some "correction preview omitted current revision")))
    | some currentRevision =>
      match r.action, r.metadata with
      | .str action, .dict metadata => do
        let replacementId := hashParts host [op.operationId, toString currentRevision, action]
        let replacement : CorrectionRequest :=
          { r with expectedRevision := some (.int currentRevision),
                   metadata := .dict
                     (PyValue.assign "provider_operation_id" (.str replacementId) metadata) }
        match replacement.toJson with
        | none => throw "TypeError"
        | some request =>
          return .replace
            { operationId := replacementId, kind := op.kind, endpoint := op.endpoint,
              request := .dict request, idempotencyKey := "hermes-correction-" ++ replacementId,
              dependsOn := op.dependsOn }
      | .str _, _ => .error "TypeError"
      | _, _ => .error "AttributeError"

def previewDone (host : Host) (op : ClaimedOperation) (r : CorrectionRequest)
    (preview : CorrectionResponse) (now : Instant) (s : Store) : AttemptResult × Store :=
  match reconcileCorrection host op r preview with
  | .error className => (.failure .retry none (some className), s)
  | .ok (.finished result) => (result, s)
  | .ok (.replace replacement) =>
    match supersede host op replacement now s with
    | (.ok _, s') => (.failure .superseded (some 200), s')
    | (.error e, s') => (escaped e, s')

/-! ### The whole of `_execute_operation` -/

def requireReceipt (op : ClaimedOperation) (receipt : Option MutationReceipt) : Except String Unit :=
  requireMatchingReceipt receipt op.idempotencyKey

/-- `_execute_operation` without other workers in between. -/
def executeOperation (host : Host) (net : WireRequest → Exchange) (requestId : String)
    (op : ClaimedOperation) (now : Instant) (s : Store) : AttemptResult × Store :=
  match beginAttempt host s op with
  | .error className => (.failure .retry none (some className), s)
  | .ok attempt =>
    match attempt, attempt.wire op.idempotencyKey with
    | .finished result, _ => (result, s)
    | _, .error e => (failedAttempt op e, s)
    | .remember _, .ok wire =>
      match request host net requestId wire RawMemoryResponse.fromJson
          (fun r => requireReceipt op r.mutationReceipt) with
      | .ok response => rememberDone op response s
      | .error e => (failedAttempt op e, s)
    | .expose _, .ok wire =>
      match request host net requestId wire ContextExposureResponse.fromJson
          (fun r => requireReceipt op (some r.mutationReceipt)) with
      | .ok response => (.success response.mutationReceipt.replayed (some 200), s)
      | .error e => (failedAttempt op e, s)
    | .correct _ _, .ok wire =>
      match request host net requestId wire CorrectionResponse.fromJson
          (fun r => requireReceipt op r.mutationReceipt) with
      | .ok response => (.success (receiptReplayed response.mutationReceipt) (some 200), s)
      | .error e => (failedAttempt op e, s)
    | .preview _ r, .ok wire =>
      match request host net requestId wire CorrectionResponse.fromJson (fun _ => .ok ()) with
      | .ok response => previewDone host op r response now s
      | .error e => (failedAttempt op e, s)

end SibylMemory
