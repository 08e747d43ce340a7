import SibylMemory.Schemas
import SibylMemory.Library.PercentEncoding

/-!
# Turn captures and their identities (`capture.py`)
-/

namespace SibylMemory
open PercentEncoding

def SOURCE_SCHEMA : String := "hermes-final-turn-v1"
def CAPTURE_SURFACE : String := "hermes_memory_provider"
def ADAPTER_NAME : String := "hermes-sibyl-memory"

/-! ### Digests (`capture.py:17-62`) -/

def messageHash (host : Host) (content : String) : String := host.sha256 content

def turnHash (host : Host) (userContent assistantContent : String) : String :=
  host.sha256 (userContent ++ "\x00" ++ assistantContent)

def canonicalSource (userContent assistantContent : String) : String :=
  "[User]\n" ++ userContent ++ "\n\n[Assistant]\n" ++ assistantContent

/-- The error is that of `allow_nan=False`. -/
def canonicalRequestHash (host : Host) (payload : JSONObject) : Except String String :=
  match (PyValue.dict payload).canonical with
  | some json => .ok (host.sha256 (json.render false))
  | none => .error "Out of range float values are not JSON compliant"

/-! ### Identity of a turn (`capture.py:65-118`) -/

structure TurnIdentity where
  operationId : String
  sourceId : String
  idempotencyKey : String
  turnHash : String
  localSequence : Nat
  turnNumber : Int
  turnNumberSource : String

/-- The operation id of a turn: `_delimited_hash` of its coordinates. -/
def turnOperationId (host : Host) (agentId sessionId : String) (localSequence : Nat) (turn : Int)
    (digest : String) : String :=
  hashParts host [agentId, sessionId, toString localSequence, toString turn, digest]

def turnSourceId (agentId sessionId : String) (localSequence : Nat) (turn : Int)
    (digest : String) : String :=
  Text.joinWith ":" ["hermes", "turn", quote agentId, quote sessionId, toString localSequence,
    toString turn, String.ofList (digest.toList.take 16)]

def deriveTurnIdentity (host : Host) (agentId sessionId : String) (localSequence : Nat)
    (turnNumber : Option Int) (userContent assistantContent : String) :
    Except String TurnIdentity :=
  if localSequence < 1 then .error "local_sequence must be positive"
  else
    let effectiveTurn := turnNumber.getD localSequence
    if effectiveTurn < 0 then .error "turn_number must be non-negative"
    else
      let digest := SibylMemory.turnHash host userContent assistantContent
      let operationId := turnOperationId host agentId sessionId localSequence effectiveTurn digest
      .ok { operationId, sourceId := turnSourceId agentId sessionId localSequence effectiveTurn digest,
            idempotencyKey := "hermes-turn-" ++ operationId, turnHash := digest, localSequence,
            turnNumber := effectiveTurn,
            turnNumberSource := if turnNumber.isSome then "hermes" else "local-sequence-fallback" }

/-! ### The captured payload (`capture.py:120-196`) -/

/-- The arguments of `build_turn_capture` that come from the runtime's context. -/
structure CaptureContext where
  agentId : String
  agentWorkspace : String
  agentIdentity : String
  platform : String
  projectId : String
  memorySpaceId : String
  hermesVersion : String
  adapterVersion : String
  participantIds : List String
  chatId : String
  threadId : String

structure TurnCapture where
  identity : TurnIdentity
  payload : JSONObject

def captureMetadata (c : CaptureContext) (sessionId parentSessionId : String)
    (identity : TurnIdentity) : JSONObject :=
  [("source_schema", .str SOURCE_SCHEMA), ("hermes_version", .str c.hermesVersion),
    ("agent_id", .str c.agentId), ("agent_workspace", .str c.agentWorkspace),
    ("agent_identity", .str c.agentIdentity), ("platform", .str c.platform),
    ("session_id", .str sessionId), ("parent_session_id", .str parentSessionId),
    ("local_sequence", .int identity.localSequence), ("turn_number", .int identity.turnNumber),
    ("turn_number_source", .str identity.turnNumberSource), ("turn_hash", .str identity.turnHash),
    ("provider_operation_id", .str identity.operationId),
    ("trust_level", .str "untrusted_conversation"), ("contains_tool_messages", .bool false),
    ("project_id", .str c.projectId), ("memory_space_id", .str c.memorySpaceId)]

def captureProvenance (c : CaptureContext) : JSONObject :=
  [("adapter", .str ADAPTER_NAME), ("adapter_version", .str c.adapterVersion),
    ("participant_ids", .list (c.participantIds.map .str)), ("chat_id", .str c.chatId),
    ("thread_id", .str c.threadId)]

def capturePayload (c : CaptureContext) (sessionId : String) (identity : TurnIdentity)
    (userContent assistantContent : String) (metadata : JSONObject) : JSONObject :=
  [("title", .str ("Hermes turn " ++ sessionId ++ "/" ++ toString identity.turnNumber)),
    ("raw_content", .str (canonicalSource userContent assistantContent)),
    ("source_id", .str identity.sourceId), ("memory_scope", .str "project"),
    ("scope_key", .str c.projectId), ("project_id", .str c.projectId),
    ("tags", .list [.str "hermes", .str "conversation", .str "completed-turn"]),
    ("capture_surface", .str CAPTURE_SURFACE), ("metadata", .dict metadata),
    ("provenance", .dict (captureProvenance c))]

def buildTurnCapture (host : Host) (c : CaptureContext) (sessionId parentSessionId : String)
    (localSequence : Nat) (turnNumber : Option Int) (userContent assistantContent : String) :
    Except String TurnCapture := do
  let identity ← deriveTurnIdentity host c.agentId sessionId localSequence turnNumber userContent
    assistantContent
  let metadata := captureMetadata c sessionId parentSessionId identity
  let payload := capturePayload c sessionId identity userContent assistantContent
  let hash ← canonicalRequestHash host (payload metadata)
  return { identity, payload := payload (PyValue.assign "provider_request_hash" (.str hash) metadata) }

/-! ### Committed turns (`capture.py:199-222`) -/

abbrev Message := JSONObject

def isText (text : String) : PyValue → Bool
  | .str s => decide (s = text)
  | _ => false

def userMessageText (host : Host) (content : PyValue) : String :=
  host.extractUserInstruction (host.flattenMessageText content)

/-- The loop of `committed_turns`, from a pending user message. -/
def committedFrom (host : Host) : Option String → List Message → List (String × String)
  | _, [] => []
  | pendingUser, message :: messages =>
    let role := Schema.get message "role"
    let content := if isText "user" role then userMessageText host (Schema.get message "content")
      else host.flattenMessageText (Schema.get message "content")
    if isText "user" role ∧ content ≠ "" then committedFrom host (some content) messages
    else
      match pendingUser with
      | none => committedFrom host none messages
      | some user =>
        if ¬ isText "assistant" role ∨ content = "" then committedFrom host pendingUser messages
        else if truthy (Schema.get message "tool_calls") then committedFrom host pendingUser messages
        else (user, content) :: committedFrom host none messages

def committedTurns (host : Host) (messages : List Message) : List (String × String) :=
  committedFrom host none messages

def committedTurnFingerprints (host : Host) (messages : List Message) : List String :=
  (committedTurns host messages).map fun turn => turnHash host turn.1 turn.2

end SibylMemory
