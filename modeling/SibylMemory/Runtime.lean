import SibylMemory.Operations

/-!
# The runtime's calls on its own thread (`runtime.py:110-215`, `533-651`)

A method of the runtime is a sequence of transactions of the outbox, each with its own
clock reading; an exception of one ends the method and keeps what was committed before.
-/

namespace SibylMemory
open Outbox

structure Runtime where
  context : RuntimeContext
  sessionId : String
  parentSessionId : String
  turns : TurnStartQueue

def Runtime.new (c : RuntimeContext) (sessionId parentSessionId : String) : Runtime where
  context := c
  sessionId := sessionId
  parentSessionId := parentSessionId
  turns := TurnStartQueue.empty

def Runtime.initialize (rt : Runtime) (now : Instant) : Store → Except OutboxException Unit × Store :=
  markSessionReconcile rt.sessionId rt.parentSessionId true now

/-- `on_turn_start`, without the recall it schedules. -/
def Runtime.onTurnStart (host : Host) (rt : Runtime) (turnNumber : Int) (message : String) : Runtime :=
  let cleanMessage := host.extractUserInstruction message
  if cleanMessage = "" then rt
  else { rt with turns := rt.turns.record host rt.sessionId turnNumber cleanMessage }

/-- `on_session_switch` up to its outbox call. -/
def Runtime.switched (rt : Runtime) (s : Store) (newSessionId parentSessionId : String)
    (reset : Bool) : Runtime where
  context := rt.context
  sessionId := newSessionId
  parentSessionId := match s.sessionParentId newSessionId with
    | some existingParent => existingParent
    | none => if reset then "" else parentSessionId
  turns := if reset then rt.turns.clear rt.sessionId else rt.turns

def Runtime.onSessionSwitch (rt : Runtime) (newSessionId parentSessionId : String) (reset : Bool)
    (now : Instant) (s : Store) : Except OutboxException Unit × Runtime × Store :=
  let rt := rt.switched s newSessionId parentSessionId reset
  let (out, s) := markSessionReconcile newSessionId rt.parentSessionId true now s
  (out, rt, s)

/-! ### Captures -/

def enqueueCapture (host : Host) (c : RuntimeContext) (sessionId userContent assistantContent : String)
    (turnNumber : Option Int) (now : Instant) (s : Store) :
    Except OutboxException IndexedTurnRecord × Store :=
  let parentSessionId := (s.sessionParentId sessionId).getD ""
  enqueueTurn host sessionId
    (captureFactory host c sessionId parentSessionId turnNumber userContent assistantContent)
    parentSessionId now s

/-! ### Reconciliation (`runtime.py:585-651`) -/

/-- The loop that captures the turns which the index lacks. Clock readings are numbered from
the last turn. -/
def recoverTurns (host : Host) (c : RuntimeContext) (sessionId : String)
    (indexedCounts : String → Nat) (clock : Nat → Instant) :
    (String → Nat) → List (String × String) → Store → Except OutboxException Unit × Store
  | _, [], s => (.ok (), s)
  | seen, (userContent, assistantContent) :: turns, s =>
    let digest := turnHash host userContent assistantContent
    let seen := Function.update seen digest (seen digest + 1)
    if indexedCounts digest < seen digest then
      match enqueueCapture host c sessionId userContent assistantContent none (clock turns.length) s with
      | (.ok _, s) => recoverTurns host c sessionId indexedCounts clock seen turns s
      | (.error e, s) => (.error e, s)
    else recoverTurns host c sessionId indexedCounts clock seen turns s

def IndexedTurn.ofRecord (record : IndexedTurnRecord) : IndexedTurn where
  operationId := record.operationId
  sourceId := record.sourceId
  turnHash := record.turnHash
  localSequence := record.localSequence
  revision := record.revision
  queued := record.queued

/-- The loop over the planned corrections. -/
def enqueueCorrections (host : Host) (agentId : String) (clock : Nat → Instant) :
    List StaleCorrectionIntent → Store → Except OutboxException Unit × Store
  | [], s => (.ok (), s)
  | correction :: corrections, s =>
    match enqueue host (rewindOperation host agentId correction) (clock corrections.length) s with
    | (.ok _, s) => enqueueCorrections host agentId clock corrections s
    | (.error e, s) => (.error e, s)

/-- The committed turns of a transcript but for the one that is about to be captured. -/
def priorTurns (transcriptTurns : List (String × String)) (currentTurn : String × String) :
    List (String × String) :=
  if transcriptTurns.getLast? = some currentTurn then transcriptTurns.dropLast else transcriptTurns

def rewindPlan (host : Host) (sessionId : String) (messages : List Message) (s : Store) :
    List StaleCorrectionIntent :=
  planRewindCorrections ((s.indexedTurns sessionId).map IndexedTurn.ofRecord)
    (committedTurnFingerprints host messages)

/-- The clock readings of the three parts of `_reconcile_session`. -/
structure ReconcileClock where
  recover : Nat → Instant
  correct : Nat → Instant
  mark : Instant

def reconcileSession (host : Host) (c : RuntimeContext) (sessionId : String)
    (messages : List Message) (currentTurn : String × String) (clock : ReconcileClock) (s : Store) :
    Except OutboxException Unit × Store :=
  let prior := priorTurns (committedTurns host messages) currentTurn
  let indexedCounts := counter ((s.indexedTurns sessionId).map IndexedTurnRecord.turnHash)
  match recoverTurns host c sessionId indexedCounts clock.recover (fun _ => 0) prior s with
  | (.error e, s) => (.error e, s)
  | (.ok _, s) =>
    match enqueueCorrections host c.agentId clock.correct (rewindPlan host sessionId messages s) s with
    | (.error e, s) => (.error e, s)
    | (.ok _, s) => markSessionReconcile sessionId "" false clock.mark s

/-! ### Completed turns (`runtime.py:141-189`) -/

structure SyncTurn where
  userContent : String
  assistantContent : String
  sessionId : String
  messages : Option (List Message)
  clock : ReconcileClock
  now : Instant

/-- `sync_turn` returns at once. -/
def Runtime.skips (host : Host) (rt : Runtime) (t : SyncTurn) : Bool :=
  decide (rt.context.agentContext ≠ "primary") || !rt.context.automaticCapture
    || decide (host.extractUserInstruction t.userContent = "")

def Runtime.activeSession (rt : Runtime) (t : SyncTurn) : String :=
  if t.sessionId = "" then rt.sessionId else t.sessionId

/-- The pair that is compared with the transcript and captured. -/
def SyncTurn.current (host : Host) (t : SyncTurn) : String × String :=
  (host.extractUserInstruction t.userContent, t.assistantContent)

/-- The part of `sync_turn` before the capture. -/
def Runtime.reconcile (host : Host) (rt : Runtime) (t : SyncTurn) (s : Store) :
    Except OutboxException Unit × Store :=
  match t.messages with
  | none => (.ok (), s)
  | some messages =>
    if s.sessionReconcileRequired (rt.activeSession t) then
      reconcileSession host rt.context (rt.activeSession t) messages (t.current host) t.clock s
    else (.ok (), s)

/-- `consume` with its `TurnReconciliationError` handled. -/
def Runtime.consumed (host : Host) (rt : Runtime) (t : SyncTurn) : Option Int × Runtime :=
  match rt.turns.consume host (rt.activeSession t) (t.current host).1 with
  | some (pending, turns) => (some pending.turnNumber, { rt with turns })
  | none => (none, rt)

/-- `sync_turn`: the operation id of the capture, if one was made. -/
def Runtime.syncTurn (host : Host) (rt : Runtime) (t : SyncTurn) (s : Store) :
    Except OutboxException (Option String) × Runtime × Store :=
  if rt.skips host t then (.ok none, rt, s)
  else
    match rt.reconcile host t s with
    | (.error e, s) => (.error e, rt, s)
    | (.ok _, s) =>
      let (turnNumber, rt') := rt.consumed host t
      match enqueueCapture host rt.context (rt.activeSession t) (t.current host).1
          t.assistantContent turnNumber t.now s with
      | (.error e, s) => (.error e, rt', s)
      | (.ok record, s) => (.ok (some record.operationId), rt', s)

end SibylMemory
