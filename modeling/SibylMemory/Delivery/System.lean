import SibylMemory.Library.Idempotency
import SibylMemory.Library.Runs
import SibylMemory.Outbox.Conservation
import SibylMemory.Acceptance
import SibylMemory.Execute

/-!
# Workers, the network and the server

One outbox file, shared by a runtime that enqueues and any number of workers that deliver. An
attempt is cut where other parties run: claim, preparation, sending, the server, the answer, the
result. What was claimed, prepared, sent, answered and concluded is kept for good, so that every
step can be made late, again, or never: a crash is a step that is not made.
-/

namespace SibylMemory
open Outbox Idempotency

/-! ### The rest of an attempt -/

structure Sent where
  op : ClaimedOperation
  attempt : Attempt
  wire : WireRequest

def Sent.call (host : Host) (x : Sent) (exchange : Exchange) (requestId : String) (now : Instant) :
    Option Call :=
  match x.attempt with
  | .remember _ =>
    match request host (fun _ => exchange) requestId x.wire RawMemoryResponse.fromJson
        (fun r => requireReceipt x.op r.mutationReceipt) with
    | .ok response => some (.recordTurnRevision x.op.operationId response.revision)
    | .error _ => none
  | .preview _ r =>
    match request host (fun _ => exchange) requestId x.wire CorrectionResponse.fromJson
        (fun _ => .ok ()) with
    | .ok preview =>
      match reconcileCorrection host x.op r preview with
      | .ok (.replace replacement) => some (.supersede x.op replacement now)
      | _ => none
    | .error _ => none
  | _ => none

/-- `_execute_operation` from the answer on. -/
def Sent.finish (host : Host) (x : Sent) (exchange : Exchange) (requestId : String) (now : Instant)
    (s : Store) : AttemptResult × Store :=
  match x.attempt with
  | .finished result => (result, s)
  | .remember _ =>
    match request host (fun _ => exchange) requestId x.wire RawMemoryResponse.fromJson
        (fun r => requireReceipt x.op r.mutationReceipt) with
    | .ok response => rememberDone x.op response s
    | .error e => (failedAttempt x.op e, s)
  | .expose _ =>
    match request host (fun _ => exchange) requestId x.wire ContextExposureResponse.fromJson
        (fun r => requireReceipt x.op (some r.mutationReceipt)) with
    | .ok response => (.success response.mutationReceipt.replayed (some 200), s)
    | .error e => (failedAttempt x.op e, s)
  | .correct _ _ =>
    match request host (fun _ => exchange) requestId x.wire CorrectionResponse.fromJson
        (fun r => requireReceipt x.op r.mutationReceipt) with
    | .ok response => (.success (receiptReplayed response.mutationReceipt) (some 200), s)
    | .error e => (failedAttempt x.op e, s)
  | .preview _ r =>
    match request host (fun _ => exchange) requestId x.wire CorrectionResponse.fromJson
        (fun _ => .ok ()) with
    | .ok preview => previewDone host x.op r preview now s
    | .error e => (failedAttempt x.op e, s)

theorem finish_eq (host : Host) (x : Sent) (exchange : Exchange) (requestId : String)
    (now : Instant) (s : Store) :
    (x.finish host exchange requestId now s).2
      = match x.call host exchange requestId now with
        | some c => (c.exec host s).2
        | none => s := by
  unfold Sent.finish Sent.call
  split <;> rename_i hx <;> simp only [hx]
  · split
    · rename_i response _
      simp only [rememberDone, Call.exec, replyWith]
      split <;> rename_i hr <;> rw [hr]
    · rfl
  · split <;> rfl
  · split <;> rfl
  · split
    · simp only [previewDone]
      split
      · rename_i hr
        simp only [hr]
      · rename_i hr
        simp only [hr]
      · rename_i hr
        simp only [hr, Call.exec, replyWith]
        split <;> rename_i hs <;> rw [hs]
    · rfl

/-- `_execute_operation` without other workers in between is preparing, sending and finishing. -/
theorem executeOperation_eq (host : Host) (net : WireRequest → Exchange) (requestId : String)
    (op : ClaimedOperation) (now : Instant) (s : Store) :
    executeOperation host net requestId op now s
      = match beginAttempt host s op with
        | .error className => (.failure .retry none (some className), s)
        | .ok (.finished result) => (result, s)
        | .ok attempt =>
          match attempt.wire op.idempotencyKey with
          | .error e => (failedAttempt op e, s)
          | .ok wire => Sent.finish host ⟨op, attempt, wire⟩ (net wire) requestId now s := by
  unfold executeOperation
  cases beginAttempt host s op with
  | error className => rfl
  | ok attempt =>
    cases attempt with
    | finished result => rfl
    | remember r => dsimp only; cases Attempt.wire op.idempotencyKey (.remember r) <;> rfl
    | expose r => dsimp only; cases Attempt.wire op.idempotencyKey (.expose r) <;> rfl
    | correct sourceId r =>
      dsimp only; cases Attempt.wire op.idempotencyKey (.correct sourceId r) <;> rfl
    | preview sourceId r =>
      dsimp only; cases Attempt.wire op.idempotencyKey (.preview sourceId r) <;> rfl

/-! ### States -/

structure Content where
  kind : String
  endpoint : String
  request : PyValue
  idempotencyKey : String
  dependsOn : Option String

def Outbox.OperationRow.content (r : OperationRow) : Content :=
  ⟨r.kind, r.endpoint, r.request, r.idempotencyKey, r.dependsOn⟩

def Outbox.ClaimedOperation.content (op : ClaimedOperation) : Content :=
  ⟨op.kind, op.endpoint, .dict op.request, op.idempotencyKey, op.dependsOn⟩

def Outbox.NewOperation.content (op : NewOperation) : Content :=
  ⟨op.kind, op.endpoint, op.request.canonical.getD .none, op.idempotencyKey, op.dependsOn⟩

/-- What the server compares under a key. -/
def WireRequest.body (w : WireRequest) : String × String :=
  (w.path, (PyValue.dict w.payload).render true)

abbrev ServerLog := List (Effect String (String × String) Int)

/-- The outbox, the server, and what workers have done so far. `book` keeps what every accepted
operation asks for, which the outbox forgets when it archives. -/
structure System where
  store : Store
  book : String → Option Content
  claimed : List ClaimedOperation
  begun : List (ClaimedOperation × Attempt)
  sent : List Sent
  server : ServerLog
  answers : List (Sent × Exchange)
  results : List (ClaimedOperation × AttemptResult)

def System.start : System where
  store := Store.empty
  book _ := none
  claimed := []
  begun := []
  sent := []
  server := []
  answers := []
  results := []

def recordContent (book : String → Option Content) (e : Call × Except OutboxException Reply) :
    String → Option Content :=
  match offered e with
  | some op => Function.update book op.operationId (some op.content)
  | none => book

def claimsOf : Except OutboxException Reply → List ClaimedOperation
  | .ok (.claims claims) => claims
  | _ => []

def System.exec (host : Host) (sys : System) (c : Call) : System :=
  let e := c.exec host sys.store
  { sys with store := e.2, book := recordContent sys.book (c, e.1),
             claimed := sys.claimed ++ claimsOf e.1 }

/-! ### The runtime's own thread -/

/-- The transactions of the runtime's own thread. The turn of a rewind correction is named by its
place in the index; its revision and whether it was queued are those of an earlier reading. -/
inductive OwnAct where
  | capture (c : RuntimeContext) (sid parent : String) (turnNumber : Option Int)
      (userContent assistantContent : String) (now : Instant)
  | rewind (agentId : String) (index : Nat) (revision : Option Int) (queued : Bool) (now : Instant)
  | mark (sid parent : String) (required : Bool) (now : Instant)
  | reserve (sid parent : String) (now : Instant)
  | remember (c : RuntimeContext) (sid callIdentity : String) (args : RememberToolArgs)
      (now : Instant)
  | correct (c : RuntimeContext) (sid callIdentity : String) (args : CorrectionToolArgs)
      (currentRevision : Int) (now : Instant)
  | expose (c : RuntimeContext) (sessionHash queryHash : String) (deliverySequence : Nat)
      (renderedItemIds : List String) (automatic : Bool) (now : Instant)

def OwnAct.call (host : Host) (s : Store) : OwnAct → Option Call
  | .capture c sid parent turnNumber u a now =>
    some (.enqueueTurn sid (captureFactory host c sid parent turnNumber u a) parent now)
  | .rewind agentId index revision queued now =>
    s.turns.rows[index]?.map fun t =>
      .enqueue (rewindOperation host agentId
        { operationId := "rewind-stale-" ++ t.operationId, sourceId := t.sourceId,
          expectedRevision := revision,
          dependsOnOperationId := if queued then some t.operationId else none }) now
  | .mark sid parent required now => some (.markSessionReconcile sid parent required now)
  | .reserve sid parent now => some (.reserveSequence sid parent now)
  | .remember c sid callIdentity args now =>
    (rememberOperation host c sid callIdentity args).toOption.map fun op => .enqueue op now
  | .correct c sid callIdentity args currentRevision now =>
    some (.enqueue (correctOperation host c sid callIdentity args currentRevision) now)
  | .expose c sessionHash queryHash deliverySequence renderedItemIds automatic now =>
    some (.enqueue (exposureOperation host c sessionHash queryHash deliverySequence renderedItemIds
      automatic) now)

/-! ### Steps -/

/-- What may come back for a request: nothing at all; an error; or, for an effect, a success whose
revision is that of the effect. -/
def conveys (host : Host) (wire : WireRequest) : Answer Int → Exchange → Bool
  | _, .failed _ => true
  | .receipt revision, .answered r => r.isError ||
    match request host (fun _ => .answered r) "" wire RawMemoryResponse.fromJson (fun _ => .ok ()) with
    | .ok response => decide (response.revision = revision)
    | .error _ => true
  | .refused, .answered r => r.isError
  | .mismatch, .answered r => decide (r.status = 409)

/-- A step names what it goes on with by its place in the list. -/
inductive Act where
  | own (o : OwnAct)
  | claim (config : OutboxConfig) (page : ClaimPage)
  | renew (config : OutboxConfig) (index : Nat) (leaseSeconds : Option Int) (now stamp : Instant)
  | unblock (now : Instant)
  | release (indices : List Nat) (now : Instant)
  | begin (index : Nat)
  | send (index : Nat)
  /-- the server handles a request, with the revision it would give to a new effect or a refusal -/
  | serve (index : Nat) (choice : Option Int) (exchange : Exchange)
  /-- an answer that no effect is behind: to a preview, or a transport error -/
  | answer (index : Nat) (exchange : Exchange)
  | finish (index : Nat) (requestId : String) (now : Instant)
  | apply (index : Nat) (now : Instant)

def System.begin (host : Host) (sys : System) (op : ClaimedOperation) : System :=
  match beginAttempt host sys.store op with
  | .error className =>
    { sys with results := sys.results ++ [(op, .failure .retry none (some className))] }
  | .ok (.finished result) => { sys with results := sys.results ++ [(op, result)] }
  | .ok attempt => { sys with begun := sys.begun ++ [(op, attempt)] }

def System.send (sys : System) (op : ClaimedOperation) (attempt : Attempt) : System :=
  match attempt.wire op.idempotencyKey with
  | .error e => { sys with results := sys.results ++ [(op, failedAttempt op e)] }
  | .ok wire => { sys with sent := sys.sent ++ [⟨op, attempt, wire⟩] }

def System.serve (host : Host) (sys : System) (x : Sent) (choice : Option Int)
    (exchange : Exchange) : System :=
  match x.wire.idempotencyKey with
  | none => sys
  | some key =>
    let (answer, server) := Idempotency.serve sys.server key x.wire.body choice
    if conveys host x.wire answer exchange then
      { sys with server, answers := sys.answers ++ [(x, exchange)] }
    else sys

def System.answer (sys : System) (x : Sent) (exchange : Exchange) : System :=
  match x.wire.idempotencyKey, exchange with
  | some _, .answered _ => sys
  | _, _ => { sys with answers := sys.answers ++ [(x, exchange)] }

def System.finish (host : Host) (sys : System) (x : Sent) (exchange : Exchange) (requestId : String)
    (now : Instant) : System :=
  let result := (x.finish host exchange requestId now sys.store).1
  let sys := match x.call host exchange requestId now with
    | some c => sys.exec host c
    | none => sys
  { sys with results := sys.results ++ [(x.op, result)] }

def System.step (host : Host) (sys : System) : Act → System
  | .own o => match o.call host sys.store with
    | some c => sys.exec host c
    | none => sys
  | .claim config page => sys.exec host (.claimPage config page)
  | .renew config index lease now stamp => match sys.claimed[index]? with
    | some op => sys.exec host (.renewClaim config op lease now stamp)
    | none => sys
  | .unblock now => sys.exec host (.unblockAuth now)
  | .release indices now =>
    sys.exec host (.releaseUnattempted (indices.filterMap fun i => sys.claimed[i]?) now)
  | .begin index => match sys.claimed[index]? with
    | some op => sys.begin host op
    | none => sys
  | .send index => match sys.begun[index]? with
    | some (op, attempt) => sys.send op attempt
    | none => sys
  | .serve index choice exchange => match sys.sent[index]? with
    | some x => sys.serve host x choice exchange
    | none => sys
  | .answer index exchange => match sys.sent[index]? with
    | some x => sys.answer x exchange
    | none => sys
  | .finish index requestId now => match sys.answers[index]? with
    | some (x, exchange) => sys.finish host x exchange requestId now
    | none => sys
  | .apply index now => match sys.results[index]? with
    | some (op, result) => sys.exec host (.applyResult op result now)
    | none => sys

def System.run (host : Host) (acts : List Act) : System :=
  Run.exec (System.step host) System.start acts

end SibylMemory
