import SibylMemory.Host
import SibylMemory.Library.KeyedTable

/-!
# The outbox database (`outbox.py`)

The four tables of schema version 2 (`outbox.py:330-409`) with their PRIMARY KEY
and UNIQUE constraints as fields, and the records that cross the interface of
`DurableOutbox`. Instants and durations are microseconds, the resolution of
`datetime` and `timedelta`. `request_json` is kept as the value its text denotes.
-/

namespace SibylMemory.Outbox

abbrev Instant := Int

def MAX_ERROR_LENGTH : Nat := 2000

/-- `outbox.py:49-54` -/
inductive OperationState where
  | pending
  | pendingRecovery
  | blockedAuth
  | deadLetter
  | reconcileRevision
  deriving DecidableEq

/-- `outbox.py:64-68` -/
inductive Outcome where
  | succeeded
  | replayed
  | obsolete
  | superseded
  deriving DecidableEq

/-- `outbox.py:71-79` -/
inductive ResultAction where
  | succeed
  | retry
  | blockAuth
  | deadLetter
  | recover
  | reconcileRevision
  | obsolete
  | superseded
  deriving DecidableEq

/-- `outbox.py:57-61` -/
inductive RecoveryKind where
  | none
  | rawCapture
  | correction
  | exposure
  deriving DecidableEq

/-- The exceptions that leave a method of the outbox, with their messages. -/
inductive OutboxException where
  | valueError (message : String)
  | operationConflict (message : String)
  | claimLost (message : String)
  | outboxError (message : String)
  | integrityError (constraint : String)
  /-- raised by the factory that `enqueue_turn` calls -/
  | factory (message : String)
  /-- a parameter that `sqlite3` cannot bind: a text with a lone surrogate, too long an integer -/
  | unicodeEncodeError
  | overflowError
  /-- raised by an executor, and no `Exception` -/
  | baseException (className : String)
  deriving DecidableEq

/-- `outbox.py:98-106` -/
structure NewOperation where
  operationId : String
  kind : String
  endpoint : String
  request : PyValue
  idempotencyKey : String
  dependsOn : Option String := none
  httpMethod : String := "POST"

/-- `outbox.py:120-124` -/
structure NewTurnOperation where
  operation : NewOperation
  sourceId : String
  turnHash : String

/-- `outbox.py:109-117` -/
structure IndexedTurnRecord where
  sessionId : String
  localSequence : Nat
  operationId : String
  sourceId : String
  turnHash : String
  revision : Option Int
  queued : Bool
  deriving DecidableEq

/-- A row of `operations`. -/
structure OperationRow where
  operationId : String
  dependsOn : Option String
  kind : String
  endpoint : String
  request : PyValue
  requestHash : String
  idempotencyKey : String
  httpMethod : String
  state : OperationState
  createdAt : Instant
  updatedAt : Instant
  attempts : Nat
  lastStatus : Option Int
  lastError : Option String
  claimToken : Option String
  claimedBy : Option String
  leaseExpiresAt : Option Instant

/-- A row of `operation_history`. -/
structure HistoryRow where
  operationId : String
  outcome : Outcome
  kind : String
  endpoint : String
  idempotencyKey : String
  requestHash : String
  httpMethod : String
  dependsOn : Option String
  attempts : Nat
  completedAt : Instant
  replacementId : Option String
  lastStatus : Option Int
  lastError : Option String
  deriving DecidableEq

/-- A row of `session_state`. -/
structure SessionRow where
  sessionId : String
  parentSessionId : String
  nextSequence : Nat
  reconcileRequired : Bool
  updatedAt : Instant
  deriving DecidableEq

/-- A row of `session_turns`. -/
structure TurnRow where
  sessionId : String
  localSequence : Nat
  operationId : String
  sourceId : String
  turnHash : String
  revision : Option Int
  deriving DecidableEq

def TurnRow.position (t : TurnRow) : String × Nat := (t.sessionId, t.localSequence)

/-- `session_turns`: keyed by position, with `operation_id` and `source_id` UNIQUE. -/
structure TurnTable extends KeyedTable TurnRow.position where
  operationUnique : (rows.map TurnRow.operationId).Nodup
  sourceUnique : (rows.map TurnRow.sourceId).Nodup

/-- The database file. -/
structure Store where
  operations : KeyedTable OperationRow.operationId
  history : KeyedTable HistoryRow.operationId
  sessions : KeyedTable SessionRow.sessionId
  turns : TurnTable

def TurnTable.empty : TurnTable := ⟨KeyedTable.empty, List.nodup_nil, List.nodup_nil⟩

/-- What `_create_schema` leaves. -/
def Store.empty : Store := ⟨KeyedTable.empty, KeyedTable.empty, KeyedTable.empty, TurnTable.empty⟩

/-- `outbox.py:127-145` -/
structure ClaimedOperation where
  operationId : String
  dependsOn : Option String
  kind : String
  endpoint : String
  request : List (String × PyValue)
  idempotencyKey : String
  state : OperationState
  createdAt : Instant
  updatedAt : Instant
  attempts : Nat
  lastStatus : Option Int
  lastError : Option String
  httpMethod : String
  claimToken : String
  claimedBy : String
  leaseExpiresAt : Instant
  recoveryKind : RecoveryKind

/-- `outbox.py:148-169` -/
structure AttemptResult where
  action : ResultAction
  status : Option Int := none
  error : Option String := none
  replayed : Bool := false

def AttemptResult.success (replayed : Bool) (status : Option Int) : AttemptResult :=
  { action := .succeed, status, replayed }

def AttemptResult.failure (action : ResultAction) (status : Option Int := none)
    (error : Option String := none) : AttemptResult :=
  { action, status, error }

/-! ### The session index -/

namespace TurnTable

/-- `INSERT INTO session_turns`: fails on a taken position, operation id or source id. -/
def insertTurn (t : TurnTable) (r : TurnRow) : Except OutboxException TurnTable :=
  if hp : r.position ∈ t.rows.map TurnRow.position then
    .error (.integrityError "session_turns.session_id, session_turns.local_sequence")
  else if ho : r.operationId ∈ t.rows.map TurnRow.operationId then
    .error (.integrityError "session_turns.operation_id")
  else if hs : r.sourceId ∈ t.rows.map TurnRow.sourceId then
    .error (.integrityError "session_turns.source_id")
  else
    .ok ⟨⟨t.rows ++ [r], by simpa [List.nodup_append] using ⟨t.nodup, by simpa using hp⟩⟩,
      by simpa [List.nodup_append] using ⟨t.operationUnique, by simpa using ho⟩,
      by simpa [List.nodup_append] using ⟨t.sourceUnique, by simpa using hs⟩⟩

theorem insertTurn_ok {t t' : TurnTable} {r : TurnRow} (h : t.insertTurn r = .ok t') :
    t'.rows = t.rows ++ [r] ∧ ∀ x ∈ t.rows, x.position ≠ r.position ∧
      x.operationId ≠ r.operationId ∧ x.sourceId ≠ r.sourceId := by
  unfold insertTurn at h
  split_ifs at h with hp ho hs
  cases h
  refine ⟨rfl, fun x hx => ⟨fun he => hp ?_, fun he => ho ?_, fun he => hs ?_⟩⟩
  all_goals exact he ▸ List.mem_map_of_mem hx

theorem mem_insertTurn {t t' : TurnTable} {r : TurnRow} (h : t.insertTurn r = .ok t') (x : TurnRow) :
    x ∈ t'.rows ↔ x ∈ t.rows ∨ x = r := by
  rw [(insertTurn_ok h).1]
  simp

/-- `UPDATE session_turns SET revision = ? WHERE operation_id = ?`. -/
def setRevision (t : TurnTable) (operationId : String) (revision : Int) : TurnTable :=
  let f := fun r : TurnRow => if r.operationId = operationId then { r with revision := some revision } else r
  have keep : ∀ {β : Type} (g : TurnRow → β), (∀ r, g (f r) = g r) →
      (t.rows.map f).map g = t.rows.map g := by
    intro β g hg
    simp [List.map_map, Function.comp_def, hg]
  ⟨⟨t.rows.map f, by
      rw [keep TurnRow.position (by intro r; simp only [f]; split <;> rfl)]
      exact t.nodup⟩,
    by
      rw [keep TurnRow.operationId (by intro r; simp only [f]; split <;> rfl)]
      exact t.operationUnique,
    by
      rw [keep TurnRow.sourceId (by intro r; simp only [f]; split <;> rfl)]
      exact t.sourceUnique⟩

def byOperation (t : TurnTable) (operationId : String) : Option TurnRow :=
  t.rows.find? fun r => r.operationId = operationId

theorem operation_inj (t : TurnTable) {r r' : TurnRow} (hr : r ∈ t.rows) (hr' : r' ∈ t.rows)
    (h : r.operationId = r'.operationId) : r = r' :=
  List.inj_on_of_nodup_map t.operationUnique hr hr' h

theorem mem_setRevision (t : TurnTable) (i : String) (revision : Int) (x : TurnRow) :
    x ∈ (t.setRevision i revision).rows ↔
      ∃ r ∈ t.rows, (if r.operationId = i then { r with revision := some revision } else r) = x := by
  simp [setRevision]

end TurnTable

end SibylMemory.Outbox
