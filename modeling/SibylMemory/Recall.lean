import SibylMemory.Host
import SibylMemory.Library.JsonText

/-!
# Automatic recall (`recall.py`)

A context is fetched on an executor and handed to the `prefetch` of the same session and query.
`schedule` and the first half of `prefetch` and `discard_session` run under the lock, each as one
step. Waiting for a future, its completion and the cancellations of a discarded session are
steps of their own. An observation is kept without its duration.
-/

namespace SibylMemory
open Text
open JsonText (CodePoints)

/-- `query_digest` of a text that can be encoded. -/
def queryDigest (host : Host) (query : String) : String := host.sha256 query

/-- The ids are any texts of Python: they are encoded when they are recorded. -/
structure RecallResult where
  markdown : String
  renderedItemIds : List CodePoints
  totalItems : Int
  requestId : String := ""
  renderedTokenEstimate : Option Int := none

structure RecallObservation where
  event : String
  sessionHash : String
  queryHash : String
  itemCount : Int := 0
  requestId : String := ""
  renderedTokenEstimate : Option Int := none
  errorClass : String := ""

/-- An exception by its class name: a `TimeoutError`, another `Exception`, or one that is not an
`Exception` (`SystemExit`). -/
inductive Raised where
  | timeoutError (className : String)
  | exception (className : String)
  | baseException (className : String)

/-! ### Futures -/

inductive FutureState where
  | pending
  | running
  | cancelled
  | finished (outcome : Except Raised RecallResult)

/-- What `future.result()` returns or raises once it is done. -/
def FutureState.outcome : FutureState → Option (Except Raised RecallResult)
  | .pending => none
  | .running => none
  | .cancelled => some (.error (.exception "CancelledError"))
  | .finished outcome => some outcome

/-- `future.cancel()` on a future that runs or is done has no effect. -/
def FutureState.cancel : FutureState → FutureState
  | .pending => .cancelled
  | state => state

/-- A call of `_fetch_context` that was submitted. -/
structure ContextFetch where
  query : String
  sessionId : String
  state : FutureState

/-! ### The coordinator -/

/-- Where a `prefetch` is: waiting for its future, past the timeout, or done. -/
inductive PrefetchPhase where
  | waiting
  | missed
  | returned (reply : Except Raised String)

structure PrefetchCall where
  query : String
  sessionId : String
  future : Option Nat
  phase : PrefetchPhase

structure ContextDelivery where
  call : Nat
  sessionId : String
  queryHash : String
  result : RecallResult

structure LateObserver where
  future : Nat
  sessionId : String
  queryHash : String

/-- `futures` is the dict `_futures`; the numbers index `fetches`. -/
structure RecallCoordinator where
  futures : List ((String × String) × Nat) := []
  fetches : List ContextFetch := []
  calls : List PrefetchCall := []
  discarded : List Nat := []
  callbacks : List LateObserver := []
  observed : List RecallObservation := []
  delivered : List ContextDelivery := []

namespace RecallCoordinator

def pop (s : RecallCoordinator) (key : String × String) : Option Nat × RecallCoordinator :=
  ((s.futures.find? fun e => e.1 = key).map Prod.snd,
    { s with futures := s.futures.filter fun e => e.1 ≠ key })

def setState (s : RecallCoordinator) (future : Nat) (f : FutureState → FutureState) :
    RecallCoordinator :=
  { s with fetches := s.fetches.modify future fun x => { x with state := f x.state } }

def setPhase (s : RecallCoordinator) (call : Nat) (phase : PrefetchPhase) : RecallCoordinator :=
  { s with calls := s.calls.modify call fun c => { c with phase } }

def observe (s : RecallCoordinator) (observation : RecallObservation) : RecallCoordinator :=
  { s with observed := s.observed ++ [observation] }

def deliver (s : RecallCoordinator) (delivery : ContextDelivery) : RecallCoordinator :=
  { s with delivered := s.delivered ++ [delivery] }

def register (s : RecallCoordinator) (observer : LateObserver) : RecallCoordinator :=
  { s with callbacks := s.callbacks ++ [observer] }

def observation (host : Host) (event sessionId queryHash : String) : RecallObservation where
  event
  sessionHash := String.ofList ((host.sha256 sessionId).toList.take 16)
  queryHash

def resultObservation (host : Host) (event sessionId queryHash : String) (result : RecallResult) :
    RecallObservation :=
  { observation host event sessionId queryHash with
    itemCount := result.totalItems, requestId := result.requestId,
    renderedTokenEstimate := result.renderedTokenEstimate }

def failedObservation (host : Host) (sessionId queryHash className : String) : RecallObservation :=
  { observation host "sibyl_context_failed" sessionId queryHash with errorClass := className }

/-- `_observe_late_result`: the state, and what escapes its `except Exception`. -/
def observeLateResult (host : Host) (s : RecallCoordinator) (sessionId queryHash : String) :
    Except Raised RecallResult → Option Raised × RecallCoordinator
  | .ok result =>
    (none, s.observe (resultObservation host "sibyl_context_ready_late" sessionId queryHash result))
  | .error (.timeoutError className) =>
    (none, s.observe (failedObservation host sessionId queryHash className))
  | .error (.exception className) =>
    (none, s.observe (failedObservation host sessionId queryHash className))
  | .error (.baseException className) => (some (.baseException className), s)

/-- The callbacks of a future that is done, in the order they were added. -/
def invokeCallbacks (host : Host) (s : RecallCoordinator) (future : Nat)
    (outcome : Except Raised RecallResult) : RecallCoordinator :=
  s.callbacks.foldl
    (fun s c => if c.future = future then (observeLateResult host s c.sessionId c.queryHash outcome).2
      else s)
    { s with callbacks := s.callbacks.filter fun c => c.future ≠ future }

/-- The state of a future changes; when it is done its callbacks run. -/
def advance (host : Host) (s : RecallCoordinator) (future : Nat) (f : FutureState → FutureState) :
    RecallCoordinator :=
  match s.fetches[future]? with
  | none => s
  | some fetch =>
    match fetch.state.outcome, (f fetch.state).outcome with
    | none, some outcome => invokeCallbacks host (s.setState future f) future outcome
    | _, _ => s.setState future f

/-! ### Operations -/

/-- `schedule`; `submitted` is false when `submit` raises (an executor that was shut down). -/
def schedule (host : Host) (s : RecallCoordinator) (query sessionId : String) (submitted : Bool) :
    RecallCoordinator :=
  if query = "" then s
  else
    let key := (sessionId, queryDigest host query)
    let (previous, s) := s.pop key
    let s := match previous with
      | some future => advance host s future FutureState.cancel
      | none => s
    if submitted then
      { s with
        futures := s.futures ++ [(key, s.fetches.length)],
        fetches := s.fetches ++ [ContextFetch.mk query sessionId .pending] }
    else s

/-- `prefetch` up to the wait for the future. -/
def prefetch (host : Host) (s : RecallCoordinator) (query sessionId : String) : RecallCoordinator :=
  let (pending, s) := s.pop (sessionId, queryDigest host query)
  let phase := if pending.isSome then .waiting else .returned (.ok "")
  { s with calls := s.calls ++ [PrefetchCall.mk query sessionId pending phase] }

/-- `discard_session` up to the cancellations. -/
def discardSession (s : RecallCoordinator) (sessionId : String) : RecallCoordinator :=
  let keys := s.futures.filter fun e => e.1.1 = sessionId
  { s with
    futures := s.futures.filter fun e => e.1.1 ≠ sessionId,
    discarded := s.discarded ++ keys.map Prod.snd }

/-- `prefetch` from the result of its future on; `recorded` is what `record_delivery` does. -/
def prefetchResult (host : Host) (s : RecallCoordinator) (call : Nat) (sessionId queryHash : String)
    (recorded : Except Raised Unit) : Except Raised RecallResult → RecallCoordinator
  | .ok result =>
    let s := s.observe (resultObservation host "sibyl_context_ready" sessionId queryHash result)
    if strip result.markdown = "" then s.setPhase call (.returned (.ok ""))
    else
      (s.deliver ⟨call, sessionId, queryHash, result⟩).setPhase call
        (.returned (recorded.map fun _ => result.markdown))
  | .error (.timeoutError _) =>
    (s.observe (observation host "sibyl_context_hot_wait_missed" sessionId queryHash)).setPhase call
      .missed
  | .error (.exception className) =>
    (s.observe (failedObservation host sessionId queryHash className)).setPhase call
      (.returned (.ok ""))
  | .error (.baseException className) =>
    s.setPhase call (.returned (.error (.baseException className)))

/-- `future.add_done_callback` of a call past the timeout, and its return. -/
def addDoneCallback (host : Host) (s : RecallCoordinator) (call future : Nat)
    (sessionId queryHash : String) : Option (Except Raised RecallResult) → RecallCoordinator
  | none =>
    (s.register ⟨future, sessionId, queryHash⟩).setPhase call (.returned (.ok ""))
  | some outcome =>
    let (escaped, s) := observeLateResult host s sessionId queryHash outcome
    s.setPhase call (.returned (match escaped with | none => .ok "" | some e => .error e))

end RecallCoordinator

/-! ### Steps -/

inductive RecallAct where
  | schedule (query sessionId : String) (submitted : Bool)
  | prefetch (query sessionId : String)
  | discardSession (sessionId : String)
  /-- `future.cancel()` of a discarded session. -/
  | cancel (future : Nat)
  /-- The executor drops a fetch that it has not started. -/
  | revoke (future : Nat)
  | start (future : Nat)
  | complete (future : Nat) (outcome : Except Raised RecallResult)
  /-- The future of a call is done in time. -/
  | result (call : Nat) (recorded : Except Raised Unit)
  /-- The wait of a call ends before its future is done. -/
  | hotWaitMissed (call : Nat)
  | addDoneCallback (call : Nat)

open RecallCoordinator in
/-- One step; `none` when it is not enabled. -/
def recallStep (host : Host) (s : RecallCoordinator) : RecallAct → Option RecallCoordinator
  | .schedule query sessionId submitted => some (s.schedule host query sessionId submitted)
  | .prefetch query sessionId => some (s.prefetch host query sessionId)
  | .discardSession sessionId => some (s.discardSession sessionId)
  | .cancel future =>
    if future ∈ s.discarded then
      some (advance host { s with discarded := s.discarded.erase future } future FutureState.cancel)
    else none
  | .revoke future => some (advance host s future FutureState.cancel)
  | .start future =>
    match s.fetches[future]? with
    | some ⟨_, _, .pending⟩ => some (advance host s future fun _ => .running)
    | _ => none
  | .complete future outcome =>
    match s.fetches[future]? with
    | some ⟨_, _, .running⟩ => some (advance host s future fun _ => .finished outcome)
    | _ => none
  | .result call recorded => do
    let c ← s.calls[call]?
    let future ← c.future
    let fetch ← s.fetches[future]?
    match c.phase, fetch.state.outcome with
    | .waiting, some outcome =>
      some (s.prefetchResult host call c.sessionId (queryDigest host c.query) recorded outcome)
    | _, _ => none
  | .hotWaitMissed call => do
    let c ← s.calls[call]?
    let future ← c.future
    let fetch ← s.fetches[future]?
    match c.phase, fetch.state.outcome with
    | .waiting, none =>
      some ((s.observe (observation host "sibyl_context_hot_wait_missed" c.sessionId
        (queryDigest host c.query))).setPhase call .missed)
    | _, _ => none
  | .addDoneCallback call => do
    let c ← s.calls[call]?
    let future ← c.future
    let fetch ← s.fetches[future]?
    match c.phase with
    | .missed =>
      some (s.addDoneCallback host call future c.sessionId (queryDigest host c.query)
        fetch.state.outcome)
    | _ => none

/-- The coordinator after a run, `none` when a step of it was not enabled. -/
def recallRun (host : Host) (acts : List RecallAct) : Option RecallCoordinator :=
  acts.foldlM (recallStep host) {}

end SibylMemory
