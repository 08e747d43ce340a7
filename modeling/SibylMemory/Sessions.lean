import SibylMemory.Capture
import SibylMemory.Library.Surplus

/-!
# Turn starts and rewind plans (`sessions.py`)
-/

namespace SibylMemory

/-! ### Turn starts (`sessions.py:19-69`) -/

structure PendingTurn where
  turnNumber : Int
  userMessageHash : String

/-- One queue a session; a session without entries has the empty one. -/
structure TurnStartQueue where
  turns : String → List PendingTurn

namespace TurnStartQueue

def empty : TurnStartQueue := ⟨fun _ => []⟩

def record (host : Host) (q : TurnStartQueue) (sessionId : String) (turnNumber : Int)
    (userContent : String) : TurnStartQueue :=
  let pending : PendingTurn := { turnNumber, userMessageHash := messageHash host userContent }
  ⟨Function.update q.turns sessionId (q.turns sessionId ++ [pending])⟩

/-- `none` is the `TurnReconciliationError`, which leaves the queue alone. -/
def consume (host : Host) (q : TurnStartQueue) (sessionId userContent : String) :
    Option (PendingTurn × TurnStartQueue) :=
  let actualHash := messageHash host userContent
  match (q.turns sessionId).dropWhile (fun pending => pending.userMessageHash ≠ actualHash) with
  | [] => none
  | pending :: rest => some (pending, ⟨Function.update q.turns sessionId rest⟩)

def clear (q : TurnStartQueue) (sessionId : String) : TurnStartQueue :=
  ⟨Function.update q.turns sessionId []⟩

end TurnStartQueue

/-! ### Rewind plans (`sessions.py:72-107`) -/

structure IndexedTurn where
  operationId : String
  sourceId : String
  turnHash : String
  localSequence : Nat
  revision : Option Int := none
  queued : Bool := false

structure StaleCorrectionIntent where
  operationId : String
  sourceId : String
  expectedRevision : Option Int
  dependsOnOperationId : Option String

def staleIntent (turn : IndexedTurn) : StaleCorrectionIntent where
  operationId := "rewind-stale-" ++ turn.operationId
  sourceId := turn.sourceId
  expectedRevision := turn.revision
  dependsOnOperationId := if turn.queued then some turn.operationId else none

/-- The loop of `plan_rewind_corrections`; `remaining` is its counter. -/
def planFrom (remaining : String → Nat) : List IndexedTurn → List StaleCorrectionIntent
  | [] => []
  | turn :: turns =>
    if 0 < remaining turn.turnHash then
      planFrom (Function.update remaining turn.turnHash (remaining turn.turnHash - 1)) turns
    else staleIntent turn :: planFrom remaining turns

def planRewindCorrections (indexedTurns : List IndexedTurn) (committedFingerprints : List String) :
    List StaleCorrectionIntent :=
  planFrom (counter committedFingerprints)
    (indexedTurns.insertionSort fun a b => a.localSequence ≤ b.localSequence)

theorem planFrom_eq (remaining : String → Nat) (turns : List IndexedTurn) :
    planFrom remaining turns = (surplus IndexedTurn.turnHash remaining turns).map staleIntent := by
  induction turns generalizing remaining with
  | nil => rfl
  | cons turn turns ih =>
    rw [planFrom, surplus]
    split
    · exact ih _
    · rw [ih, List.map_cons]

theorem plan_eq {turns : List IndexedTurn} (fingerprints : List String)
    (h : turns.Pairwise fun a b => a.localSequence ≤ b.localSequence) :
    planRewindCorrections turns fingerprints
      = (surplus IndexedTurn.turnHash (counter fingerprints) turns).map staleIntent := by
  rw [planRewindCorrections, List.Pairwise.insertionSort_eq h, planFrom_eq]

end SibylMemory
