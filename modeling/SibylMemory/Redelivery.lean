import SibylMemory.ResponseBoundary
import SibylMemory.RuntimeFlush

/-!
# Responses that arrive in other chunks

What the client makes of a response, and with it every flush, depends on the bytes of the body and
not on the chunks in which the network delivers them.
-/

namespace SibylMemory
open Outbox

/-- The same response in other chunks; a stream that breaks off does so behind the same bytes. -/
structure Response.Redelivered (r r' : Response) : Prop where
  status : r'.status = r.status
  requestIdHeader : r'.requestIdHeader = r.requestIdHeader
  body : r'.body = r.body
  broken : r'.broken = r.broken

inductive Exchange.Redelivered : Exchange → Exchange → Prop where
  | answered {r r' : Response} (h : r.Redelivered r') : Redelivered (.answered r) (.answered r')
  | failed (errorType : String) : Redelivered (.failed errorType) (.failed errorType)

/-! ### The bounded bodies -/

section Bodies
variable {r r' : Response}

theorem boundedErrorBody_whole (h : r.broken = none) : boundedErrorBody r =
    .ok (r.body.take (min r.body.length MAX_ERROR_BODY_BYTES),
      decide (MAX_ERROR_BODY_BYTES < r.body.length)) := by
  by_cases hlength : r.body.length ≤ MAX_ERROR_BODY_BYTES
  · rw [boundedErrorBody_small hlength, h, Nat.min_eq_left hlength, List.take_length,
      decide_eq_false (Nat.not_lt.mpr hlength)]
  · have hlong := Nat.lt_of_not_le hlength
    rw [boundedErrorBody_large hlong, Nat.min_eq_right hlong.le, decide_eq_true hlong]

theorem boundedSuccessBody_whole (h : r.broken = none) : boundedSuccessBody r =
    if r.body.length ≤ MAX_SUCCESS_BODY_BYTES then .ok r.body
    else .error (.valueError "success response exceeds the safe body limit") := by
  unfold boundedSuccessBody
  by_cases hlength : r.body.length ≤ MAX_SUCCESS_BODY_BYTES
  · rw [successChunks_body, h, if_pos hlength, if_pos hlength]
  · rw [successChunks_body, h, if_neg hlength, if_neg hlength]

theorem boundedErrorBody_redelivered (h : r.Redelivered r') :
    boundedErrorBody r' = boundedErrorBody r := by
  unfold boundedErrorBody
  rw [errorChunks_body, errorChunks_body, h.body, h.broken]

theorem boundedSuccessBody_redelivered (h : r.Redelivered r') :
    boundedSuccessBody r' = boundedSuccessBody r := by
  unfold boundedSuccessBody
  rw [successChunks_body, successChunks_body, h.body, h.broken]

end Bodies

/-! ### What the client makes of them -/

section Calls
variable {α : Type} {host : Host} {requestId : String} {r r' : Response}

theorem raiseHttpError_redelivered (h : r.Redelivered r') :
    raiseHttpError host requestId r' = raiseHttpError host requestId r := by
  unfold raiseHttpError envelopeData
  rw [boundedErrorBody_redelivered h, h.status, h.requestIdHeader]

/-- The second `try` of `_request`, on the body that the first one has read. -/
def parseBody (host : Host) (requestId : String) (status : Nat) (body : List UInt8)
    (parser : PyValue → Except ParseError α) (check : α → Except String Unit) :
    Except ClientError α :=
  let malformed := .error (.protocol "Sibyl returned a malformed JSON success response" requestId
    status "")
  match jsonObject host body with
  | .error (.other className) => .error (.other className)
  | .error .valueError => malformed
  | .ok payload =>
    match parser (.dict payload) with
    | .error (.schema _) => malformed
    | .error .overflow => .error (.other "OverflowError")
    | .ok parsed =>
      match check parsed with
      | .error _ => malformed
      | .ok _ => .ok parsed

theorem parseNumbers_body (r : Response) (parser : PyValue → Except ParseError α)
    (check : α → Except String Unit) : parseNumbers host requestId r parser check =
      match boundedSuccessBody r with
      | .error (.valueError _) => .error (.protocol
          "Sibyl success response exceeded the safe body limit" requestId r.status "")
      | .error (.httpError errorType) => .error (.transport requestId errorType)
      | .ok body => parseBody host requestId r.status body parser check := by
  unfold parseNumbers boundedSuccessBody
  cases successChunks [] r.chunks with
  | none => rfl
  | some body =>
    cases r.broken with
    | none => rfl
    | some errorType => rfl

theorem parseNumbers_redelivered (h : r.Redelivered r') {parser : PyValue → Except ParseError α}
    {check : α → Except String Unit} :
    parseNumbers host requestId r' parser check = parseNumbers host requestId r parser check := by
  rw [parseNumbers_body, parseNumbers_body, boundedSuccessBody_redelivered h, h.status]

theorem request_redelivered {net net' : WireRequest → Exchange} {wire : WireRequest}
    (h : (net wire).Redelivered (net' wire)) {parser : PyValue → Except String α}
    {check : α → Except String Unit} :
    request host net' requestId wire parser check = request host net requestId wire parser check := by
  unfold request
  generalize net wire = exchange at h
  generalize net' wire = exchange' at h
  cases h with
  | failed errorType => rfl
  | answered h =>
    dsimp only
    rw [← parseNumbers_checked, ← parseNumbers_checked, parseNumbers_redelivered h,
      raiseHttpError_redelivered h, Response.isError, Response.isError, h.status]

theorem contextPack_redelivered {net net' : WireRequest → Exchange} {req : ContextPackRequest}
    (h : (net (contextPackWire req)).Redelivered (net' (contextPackWire req))) :
    contextPack host net' requestId req = contextPack host net requestId req := by
  unfold contextPack
  generalize net (contextPackWire req) = exchange at h
  generalize net' (contextPackWire req) = exchange' at h
  cases h with
  | failed errorType => rfl
  | answered h =>
    dsimp only
    rw [parseNumbers_redelivered h, raiseHttpError_redelivered h, Response.isError,
      Response.isError, h.status, h.requestIdHeader]

end Calls

/-! ### What the runtime makes of them -/

section Executor
variable {host : Host} {requestId : String} {now : Instant} {exchange exchange' : Exchange}
  {net net' : WireRequest → Exchange}

theorem answer_redelivered {α : Type} (h : exchange.Redelivered exchange') (wire : WireRequest)
    (parser : PyValue → Except String α) (check : α → Except String Unit) :
    request host (fun _ => exchange') requestId wire parser check =
      request host (fun _ => exchange) requestId wire parser check := request_redelivered h

theorem call_redelivered (h : exchange.Redelivered exchange') (x : Sent) :
    x.call host exchange' requestId now = x.call host exchange requestId now := by
  unfold Sent.call
  simp only [answer_redelivered h]

theorem finish_redelivered (h : exchange.Redelivered exchange') (x : Sent) (s : Store) :
    x.finish host exchange' requestId now s = x.finish host exchange requestId now s := by
  unfold Sent.finish
  simp only [answer_redelivered h]

theorem executeOperation_redelivered (h : ∀ wire, (net wire).Redelivered (net' wire))
    (op : ClaimedOperation) (s : Store) :
    executeOperation host net' requestId op now s = executeOperation host net requestId op now s := by
  rw [executeOperation_eq, executeOperation_eq]
  simp only [finish_redelivered (h _)]

theorem executorCalls_redelivered (h : ∀ wire, (net wire).Redelivered (net' wire))
    (op : ClaimedOperation) (s : Store) :
    executorCalls host net' requestId op now s = executorCalls host net requestId op now s := by
  unfold executorCalls
  simp only [call_redelivered (h _)]

/-- The flush of the runtime is the same in whatever chunks its answers arrive. -/
theorem runtimeFlush_redelivered {net net' : World → WireRequest → Exchange}
    (h : ∀ w wire, (net w wire).Redelivered (net' w wire)) (config : OutboxConfig) (thread : Nat)
    (now stamp : World → Instant) (monotonic : World → Int) (uuids : World → Nat → String)
    (requestId : World → String) :
    runtimeFlush host config thread now stamp monotonic uuids net' requestId =
      runtimeFlush host config thread now stamp monotonic uuids net requestId := by
  have hexecute : ∀ w op, runtimeExecution host (net' w) (requestId w) op (now w) w =
      runtimeExecution host (net w) (requestId w) op (now w) w := by
    intro w op
    rw [runtimeExecution, runtimeExecution, executorCalls_redelivered (h w),
      executeOperation_redelivered (h w)]
  unfold runtimeFlush
  simp only [hexecute]

end Executor

/-! ### Every method of the client -/

/-- A body that is not cut off is bounded by its bytes: the error body is a prefix of it with the
answer whether there was more, the success body is all of it or rejected. In other chunks, every
response is accepted or rejected as before. -/
theorem bodies_bounded :
    (∀ r : Response, r.broken = none →
      boundedErrorBody r = .ok (r.body.take (min r.body.length MAX_ERROR_BODY_BYTES),
        decide (MAX_ERROR_BODY_BYTES < r.body.length)) ∧
      boundedSuccessBody r = if r.body.length ≤ MAX_SUCCESS_BODY_BYTES then .ok r.body
        else .error (.valueError "success response exceeds the safe body limit")) ∧
    ∀ (host : Host) (net net' : WireRequest → Exchange),
      (∀ wire, (net wire).Redelivered (net' wire)) → ∀ (c : ClientCall) (requestId : String),
        c.run host net' requestId = c.run host net requestId := by
  refine ⟨fun r h => ⟨boundedErrorBody_whole h, boundedSuccessBody_whole h⟩,
    fun host net net' hnet c requestId => ?_⟩
  have hsent : ∀ {α : Type} {wire : Except ClientError WireRequest}
      {parser : PyValue → Except String α} {check : α → Except String Unit},
      (wire >>= fun wire => request host net' requestId wire parser check) =
        wire >>= fun wire => request host net requestId wire parser check := by
    intro α wire parser check
    cases wire with
    | error e => rfl
    | ok wire => exact request_redelivered (hnet wire)
  cases c with
  | authMe => exact request_redelivered (hnet authMeWire)
  | contextPack req => exact contextPack_redelivered (hnet (contextPackWire req))
  | exposeContext req key => exact hsent
  | rememberRaw req key => exact hsent
  | previewCorrection sourceId req => exact hsent
  | applyCorrection sourceId req key => exact hsent

/-! ### One body in one chunk and in two -/

def sampleChunks (chunks : List (List UInt8)) (h : ∀ chunk ∈ chunks, chunk ≠ []) : Exchange :=
  .answered { status := 200, requestIdHeader := none, chunks, chunks_ne := h }

theorem bodies_bounded_sample :
    ClientCall.run authMeHost (fun _ => sampleChunks [[123], [125]] (by decide)) "r" .authMe =
      ClientCall.run authMeHost (fun _ => sampleChunks [[123, 125]] (by decide)) "r" .authMe :=
  bodies_bounded.2 authMeHost _ _ (fun _ => .answered ⟨rfl, rfl, rfl, rfl⟩) .authMe "r"

end SibylMemory
