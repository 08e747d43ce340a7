import SibylMemory.Schemas
import SibylMemory.Library.PercentEncoding

/-!
# The HTTP client (`client.py`)

One request, one answer: the client does not retry. The network is a function
from the request to what comes back; a response is its status, its request-id
header, and the chunks of its body as `iter_bytes` yields them (none is empty),
with the `httpx` error that cuts it short, if any.
-/

namespace SibylMemory

def MAX_ERROR_BODY_BYTES : Nat := 16 * 1024
def MAX_SUCCESS_BODY_BYTES : Nat := 2 * 1024 * 1024
def MAX_ERROR_PREVIEW_CHARS : Nat := 512

structure WireRequest where
  method : String
  path : String
  payload : JSONObject
  idempotencyKey : Option String

structure Response where
  status : Nat
  requestIdHeader : Option String
  chunks : List (List UInt8)
  chunks_ne : ∀ chunk ∈ chunks, chunk ≠ []
  broken : Option String := none

def Response.body (r : Response) : List UInt8 := r.chunks.flatten

inductive Exchange where
  | answered (response : Response)
  /-- an `httpx.HTTPError` before any response, by its class name -/
  | failed (errorType : String)

/-- `response.is_error` of `httpx` -/
def Response.isError (r : Response) : Bool := decide (400 ≤ r.status ∧ r.status ≤ 599)

/-! ### Errors (`client.py:47-107`) -/

inductive IdempotencyErrorKind where
  | lockHeld
  | payloadMismatch
  | interruptedPending
  | receiptPending
  deriving DecidableEq

def IdempotencyErrorKind.value : IdempotencyErrorKind → String
  | .lockHeld => "idempotency_lock_held"
  | .payloadMismatch => "idempotency_payload_mismatch"
  | .interruptedPending => "idempotency_interrupted_pending"
  | .receiptPending => "idempotency_receipt_pending"

structure HTTPErrorData where
  statusCode : Nat
  error : String
  message : String
  requestId : String
  remediation : Option String
  details : JSONObject

/-- What a client method raises; `other` is an exception outside `SibylClientError`. -/
inductive ClientError where
  | transport (requestId errorType : String)
  | protocol (message requestId : String) (statusCode : Option Nat) (bodyPreview : String)
  | http (data : HTTPErrorData)
  | conflict (data : HTTPErrorData)
  | other (className : String)

/-! ### Bodies (`client.py:122-162`) -/

/-- The loop of `_bounded_error_body`. -/
def errorChunks (body : List UInt8) : List (List UInt8) → List UInt8 × Bool
  | [] => (body, false)
  | chunk :: chunks =>
    let remaining := MAX_ERROR_BODY_BYTES - body.length
    if remaining = 0 then (body, true)
    else if remaining < chunk.length then (body ++ chunk.take remaining, true)
    else errorChunks (body ++ chunk) chunks

/-- `_bounded_error_body`; the error is that of the broken stream. -/
def boundedErrorBody (r : Response) : Except String (List UInt8 × Bool) :=
  match errorChunks [] r.chunks, r.broken with
  | (body, true), _ => .ok (body, true)
  | (body, false), none => .ok (body, false)
  | (_, false), some errorType => .error errorType

/-- The loop of `_bounded_success_body`; `none` is its `ValueError`. -/
def successChunks (body : List UInt8) : List (List UInt8) → Option (List UInt8)
  | [] => some body
  | chunk :: chunks =>
    if MAX_SUCCESS_BODY_BYTES < body.length + chunk.length then none
    else successChunks (body ++ chunk) chunks

/-- What leaves `_bounded_success_body`: its `ValueError`, or the error of the broken stream. -/
inductive BodyError where
  | valueError (message : String)
  | httpError (errorType : String)

def boundedSuccessBody (r : Response) : Except BodyError (List UInt8) :=
  match successChunks [] r.chunks, r.broken with
  | none, _ => .error (.valueError "success response exceeds the safe body limit")
  | some _, some errorType => .error (.httpError errorType)
  | some body, none => .ok body

def isControl (c : Char) : Bool :=
  let n := c.toNat
  decide (n ≤ 8 ∨ n = 11 ∨ n = 12 ∨ (14 ≤ n ∧ n ≤ 31) ∨ n = 127)

def safePreview (body : List UInt8) : String :=
  let decoded := PercentEncoding.decodeReplace (body.map UInt8.toNat)
  let cleaned := decoded.map fun c =>
    if isControl c then '?' else if c = '\r' ∨ c = '\n' then ' ' else c
  if MAX_ERROR_PREVIEW_CHARS < cleaned.length then
    String.ofList (cleaned.take MAX_ERROR_PREVIEW_CHARS ++ ['…'])
  else String.ofList cleaned

def jsonObject (host : Host) (body : List UInt8) : Except LoadsError JSONObject := do
  match ← host.loads body with
  | .dict entries => return entries
  | _ => throw .valueError

def optionalErrorString (payload : JSONObject) (key : String) : Except LoadsError (Option String) :=
  match Schema.get payload key with
  | .none => .ok none
  | .str s => .ok (some s)
  | _ => .error .valueError

/-! ### Error responses (`client.py:400-442`) -/

structure ErrorEnvelope where
  error : String
  message : String
  requestId : Option String
  remediation : Option String
  details : JSONObject

/-- The part of `_raise_http_error` inside its `try`. -/
def errorEnvelope (host : Host) (body : List UInt8) : Except LoadsError ErrorEnvelope := do
  let payload ← jsonObject host body
  match Schema.get payload "error", Schema.get payload "message" with
  | .str error, .str message =>
    let requestId ← optionalErrorString payload "request_id"
    let remediation ← optionalErrorString payload "remediation"
    match (PyValue.lookup "details" payload).getD (.dict []) with
    | .dict details => return { error, message, requestId, remediation, details }
    | _ => throw .valueError
  | _, _ => throw .valueError

/-- The fields of the exception; `error_request_id or response_request_id`. -/
def envelopeData (responseRequestId : String) (r : Response) (envelope : ErrorEnvelope) :
    HTTPErrorData where
  statusCode := r.status
  error := envelope.error
  message := envelope.message
  requestId := match envelope.requestId with
    | some id => if id = "" then responseRequestId else id
    | none => responseRequestId
  remediation := envelope.remediation
  details := envelope.details

def raiseHttpError (host : Host) (requestId : String) (r : Response) : ClientError :=
  match boundedErrorBody r with
  | .error errorType => .transport requestId errorType
  | .ok (body, truncated) =>
    let responseRequestId := r.requestIdHeader.getD requestId
    if truncated then
      .protocol "Sibyl error response exceeded the safe body limit" responseRequestId r.status
        (safePreview body)
    else
      match errorEnvelope host body with
      | .error .valueError =>
        .protocol "Sibyl returned a non-contract JSON error response" responseRequestId r.status
          (safePreview body)
      | .error (.other className) => .other className
      | .ok envelope =>
        let data := envelopeData responseRequestId r envelope
        if r.status = 409 then .conflict data else .http data

/-! ### Requests (`client.py:237-398`) -/

def requireMatchingReceipt (receipt : Option MutationReceipt) (idempotencyKey : String) :
    Except String Unit :=
  match receipt with
  | none => .error "response.mutation_receipt is required"
  | some r =>
    if r.idempotencyKey = some idempotencyKey then .ok ()
    else .error "response.mutation_receipt.idempotency_key does not match request"

/-- The idempotency header of a request (`client.py:343-347`). -/
def normalizeIdempotencyKey (key : String) : Except ClientError String :=
  let normalized := Text.strip key
  if normalized = "" ∨ 255 < normalized.length then .error (.other "ValueError")
  else .ok normalized

/-- What `_request` makes of a success response. -/
def parseSuccess {α : Type} (host : Host) (requestId : String) (r : Response)
    (parser : PyValue → Except String α) (check : α → Except String Unit) : Except ClientError α :=
  let malformed := .error (.protocol "Sibyl returned a malformed JSON success response" requestId
    r.status "")
  match successChunks [] r.chunks, r.broken with
  | none, _ => .error (.protocol "Sibyl success response exceeded the safe body limit" requestId
      r.status "")
  | some _, some errorType => .error (.transport requestId errorType)
  | some body, none =>
    match jsonObject host body with
    | .error (.other className) => .error (.other className)
    | .error .valueError => malformed
    | .ok payload =>
      match parser (.dict payload) with
      | .error _ => malformed
      | .ok parsed =>
        match check parsed with
        | .error _ => malformed
        | .ok _ => .ok parsed

def request {α : Type} (host : Host) (net : WireRequest → Exchange) (requestId : String)
    (wire : WireRequest) (parser : PyValue → Except String α) (check : α → Except String Unit) :
    Except ClientError α :=
  match net wire with
  | .failed errorType => .error (.transport requestId errorType)
  | .answered r =>
    if r.isError then .error (raiseHttpError host requestId r)
    else parseSuccess host requestId r parser check

def correctionPath (sourceId : String) (preview : Bool) : Except ClientError String :=
  if sourceId = "" then .error (.other "ValueError")
  else .ok ("memory/inspect/" ++ PercentEncoding.quote sourceId ++ "/corrections"
    ++ (if preview then "/preview" else ""))

end SibylMemory
