import SibylMemory.Sessions
import SibylMemory.Outbox.Calls

/-!
# The operations that the runtime enqueues (`runtime.py:352-583`, `621-646`)
-/

namespace SibylMemory
open PercentEncoding Outbox

def ADAPTER_VERSION : String := "0.1.0"
def HERMES_VERSION : String := "0.18.2"

/-- `RuntimeContext` (`provider.py:31-42`) with the fields of its configuration that the runtime
reads. `SibylMemoryProvider.initialize` builds `agent_id` with this prefix. -/
structure RuntimeContext where
  agentId : String
  agentId_prefix : ∃ name, agentId = "hermes:" ++ name
  agentWorkspace : String
  agentIdentity : String
  agentContext : String
  platform : String
  projectId : String
  memorySpaceId : String
  automaticCapture : Bool
  kwargs : JSONObject

def sampleAgent : RuntimeContext where
  agentId := "hermes:w:i"
  agentId_prefix := ⟨"w:i", by decide⟩
  agentWorkspace := "w"
  agentIdentity := "i"
  agentContext := "primary"
  platform := "cli"
  projectId := "p"
  memorySpaceId := "m"
  automaticCapture := true
  kwargs := []

/-! ### Context values (`runtime.py:830-851`) -/

def stableContextValue (host : Host) (kwargs : JSONObject) : List String → String
  | [] => ""
  | key :: keys =>
    match PyValue.lookup key kwargs with
    | none => stableContextValue host kwargs keys
    | some .none => stableContextValue host kwargs keys
    | some value =>
      let text := Text.strip (host.str value)
      if text = "" then stableContextValue host kwargs keys else text

def participantIds (host : Host) (kwargs : JSONObject) : List String :=
  let values := [stableContextValue host kwargs ["user_id"],
    stableContextValue host kwargs ["user_id_alt"]]
  (values.filter fun value => value ≠ "").eraseDups

def RuntimeContext.capture (host : Host) (c : RuntimeContext) : CaptureContext where
  agentId := c.agentId
  agentWorkspace := c.agentWorkspace
  agentIdentity := c.agentIdentity
  platform := c.platform
  projectId := c.projectId
  memorySpaceId := c.memorySpaceId
  hermesVersion := HERMES_VERSION
  adapterVersion := ADAPTER_VERSION
  participantIds := participantIds host c.kwargs
  chatId := stableContextValue host c.kwargs ["chat_id", "group_id", "conversation_id"]
  threadId := stableContextValue host c.kwargs ["thread_id"]

/-! ### Captures (`runtime.py:533-583`) -/

def captureOperation (capture : TurnCapture) : NewTurnOperation where
  operation :=
    { operationId := capture.identity.operationId, kind := "raw_capture",
      endpoint := "/api/memory/raw", request := .dict capture.payload,
      idempotencyKey := capture.identity.idempotencyKey }
  sourceId := capture.identity.sourceId
  turnHash := capture.identity.turnHash

/-- `build_operation`, the factory that `_enqueue_capture` hands to `enqueue_turn`. -/
def captureFactory (host : Host) (c : RuntimeContext) (sessionId parentSessionId : String)
    (turnNumber : Option Int) (userContent assistantContent : String) (localSequence : Nat) :
    Except OutboxException NewTurnOperation :=
  match buildTurnCapture host (c.capture host) sessionId parentSessionId localSequence turnNumber
      userContent assistantContent with
  | .ok capture => .ok (captureOperation capture)
  | .error message => .error (.factory message)

/-! ### Rewind corrections (`runtime.py:625-646`) -/

def correctionEndpoint (sourceId : String) : String :=
  "/api/memory/inspect/" ++ quote sourceId ++ "/corrections"

/-- `to_json` of a request whose metadata is a mapping, so that it does not raise. -/
def correctionJson (r : CorrectionRequest) : PyValue := .dict (r.toJson.getD [])

def rewindOperationId (host : Host) (agentId intentId : String) : String :=
  hashParts host [agentId, intentId]

def rewindRequest (operationId : String) (expectedRevision : Option Int) : CorrectionRequest where
  action := .str "mark_stale"
  reason := "hermes_session_rewind"
  expectedRevision := expectedRevision.map .int
  metadata := .dict [("provider_operation_id", .str operationId)]

def rewindOperation (host : Host) (agentId : String) (correction : StaleCorrectionIntent) :
    NewOperation :=
  let providerOperationId := rewindOperationId host agentId correction.operationId
  { operationId := providerOperationId, kind := "rewind_correction",
    endpoint := correctionEndpoint correction.sourceId,
    request := correctionJson (rewindRequest providerOperationId correction.expectedRevision),
    idempotencyKey := "hermes-correction-" ++ providerOperationId,
    dependsOn := correction.dependsOnOperationId }

/-! ### Tools and exposures (`runtime.py:352-390`, `421-531`) -/

structure RememberToolArgs where
  title : String
  content : String
  kind : String
  tags : List String

def rememberRequest (c : RuntimeContext) (sessionId callIdentity contentHash operationId : String)
    (args : RememberToolArgs) : RawMemoryRequest where
  title := args.title
  rawContent := args.content
  sourceId := Text.joinWith ":" ["hermes", "remember", quote c.agentId, quote sessionId,
    quote callIdentity, String.ofList (contentHash.toList.take 16)]
  projectId := c.projectId
  tags := args.tags
  metadata := .dict [("remember_kind", .str args.kind), ("agent_id", .str c.agentId),
    ("session_id", .str sessionId), ("provider_operation_id", .str operationId),
    ("trust_level", .str "untrusted_user_memory")]
  provenance := .dict [("adapter", .str ADAPTER_NAME), ("adapter_version", .str ADAPTER_VERSION)]

/-- `payload["metadata"]["provider_request_hash"] = canonical_request_hash(payload)` -/
def stampRequestHash (host : Host) (payload : JSONObject) : Except String JSONObject :=
  match canonicalRequestHash host payload, PyValue.lookup "metadata" payload with
  | .ok hash, some (.dict metadata) =>
    .ok (PyValue.assign "metadata"
      (.dict (PyValue.assign "provider_request_hash" (.str hash) metadata)) payload)
  | .ok _, _ => .error "TypeError"
  | .error _, _ => .error "ValueError"

/-- The operation of `_tool_remember`; the error is a class name. -/
def rememberOperation (host : Host) (c : RuntimeContext) (sessionId callIdentity : String)
    (args : RememberToolArgs) : Except String NewOperation := do
  let contentHash := host.sha256 args.content
  let operationId := hashParts host [c.agentId, sessionId, callIdentity, args.kind, contentHash]
  let request := rememberRequest c sessionId callIdentity contentHash operationId args
  let payload ← stampRequestHash host (request.toJson.getD [])
  return { operationId, kind := "manual_remember", endpoint := "/api/memory/raw",
           request := .dict payload, idempotencyKey := "hermes-remember-" ++ operationId }

structure CorrectionToolArgs where
  sourceId : String
  apiAction : String
  reason : String
  revisedContent : Option String := none
  replacementSourceId : Option String := none
  duplicateOfSourceId : Option String := none

/-- The operation of `_tool_correct` once its preview allows it. -/
def correctOperation (host : Host) (c : RuntimeContext) (sessionId callIdentity : String)
    (args : CorrectionToolArgs) (currentRevision : Int) : NewOperation :=
  let operationId := hashParts host [c.agentId, sessionId, callIdentity, args.sourceId,
    args.apiAction, toString currentRevision]
  let request : CorrectionRequest :=
    { action := .str args.apiAction, reason := args.reason,
      revisedContent := args.revisedContent.map .str,
      replacementSourceId := args.replacementSourceId.map .str,
      duplicateOfSourceId := args.duplicateOfSourceId.map .str,
      expectedRevision := some (.int currentRevision),
      metadata := .dict [("provider_operation_id", .str operationId)] }
  { operationId, kind := "manual_correction", endpoint := correctionEndpoint args.sourceId,
    request := correctionJson request, idempotencyKey := "hermes-correction-" ++ operationId }

/-- The operation of `_record_delivery`. -/
def exposureOperation (host : Host) (c : RuntimeContext) (sessionHash queryHash : String)
    (deliverySequence : Nat) (renderedItemIds : List String) (automatic : Bool) : NewOperation :=
  let operationId := hashParts host
    ([c.agentId, sessionHash, queryHash, toString deliverySequence] ++ renderedItemIds)
  let request : ContextExposureRequest :=
    { exposedIds := renderedItemIds, projectId := c.projectId,
      sessionIdHash := some (.str sessionHash), queryHash := some (.str queryHash), automatic }
  { operationId, kind := "context_exposure", endpoint := "/api/memory/expose",
    request := .dict request.toJson, idempotencyKey := "hermes-context-" ++ operationId }

end SibylMemory
