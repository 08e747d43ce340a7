import SibylMemory.Outbox.Model
import SibylMemory.Outbox.Redaction
import SibylMemory.Library.PyValue

/-!
# The methods of `DurableOutbox` (`outbox.py:205-1235`)

Each method is one SQLite transaction. Its body is a function from the store it
reads to either the values it returns with the store it leaves, or the exception
it raises; `transact` commits the first and rolls the second back. Clock readings,
claim tokens and the turn factory are arguments.
-/

namespace SibylMemory.Outbox
open Text

/-- `BEGIN IMMEDIATE … COMMIT`: an exception leaves the store as it was. -/
def transact {α : Type} (tx : Store → Except OutboxException (α × Store)) (s : Store) :
    Except OutboxException α × Store :=
  match tx s with
  | .ok (a, s') => (.ok a, s')
  | .error e => (.error e, s)

/-! ### Requests (`outbox.py:205-242`) -/

def SECRET_KEYS : List String :=
  ["access_token", "api_key", "authorization", "cookie", "password", "proxy_authorization",
    "refresh_token", "secret", "set_cookie", "token"]

/-- `str.lower` on one character, as far as it can produce an ASCII letter. -/
def lowerChar (c : Char) : Char :=
  if 'A'.toNat ≤ c.toNat ∧ c.toNat ≤ 'Z'.toNat then Char.ofNat (c.toNat + 32)
  else if c = '\u212A' then 'k'
  else c

/-- `str(key).lower().replace("-", "_").replace(" ", "_")` -/
def normalizeKey (key : String) : String :=
  String.ofList (key.toList.map fun c =>
    let l := lowerChar c
    if l = '-' ∨ l = ' ' then '_' else l)

mutual
/-- `_reject_secrets` (`outbox.py:213-222`): mappings and lists are searched, other
values (tuples among them) are not. -/
def rejectSecrets (path : String) : PyValue → Except OutboxException Unit
  | .dict es => rejectSecretEntries path es
  | .list xs => rejectSecretItems path 0 xs
  | _ => .ok ()

def rejectSecretEntries (path : String) : List (String × PyValue) → Except OutboxException Unit
  | [] => .ok ()
  | (key, nested) :: es => do
    if normalizeKey key ∈ SECRET_KEYS then
      throw (.valueError ("secret field " ++ path ++ "." ++ key ++ " cannot be stored in the outbox"))
    rejectSecrets (path ++ "." ++ key) nested
    rejectSecretEntries path es

def rejectSecretItems (path : String) (index : Nat) : List PyValue → Except OutboxException Unit
  | [] => .ok ()
  | nested :: xs => do
    rejectSecrets (path ++ "[" ++ toString index ++ "]") nested
    rejectSecretItems path (index + 1) xs
end

/-- `_canonical_request` (`outbox.py:205-210`) with the hash its callers take of the
text (`outbox.py:451`). -/
def canonicalRequest (host : Host) (request : PyValue) :
    Except OutboxException (PyValue × String) := do
  rejectSecrets "request" request
  match request.canonical with
  | some json => return (json, host.sha256 (json.render true))
  | none => throw (.valueError "outbox request must be finite JSON")

/-- `str.rstrip("/")` -/
def rstripSlash (s : String) : String :=
  String.ofList (s.toList.reverse.dropWhile (· = '/')).reverse

/-- `outbox.py:234-242` -/
def recoveryKindForEndpoint (endpoint : String) : RecoveryKind :=
  let path := rstripSlash (String.ofList (endpoint.toList.takeWhile (· ≠ '?')))
  if endsWith path "/memory/raw" then .rawCapture
  else if endsWith path "/memory/expose" then .exposure
  else if endsWith path "/corrections" then .correction
  else .none

/-- `str.upper` on one character, as far as it can produce the letters of a method name. -/
def upperChar (c : Char) : List Char :=
  if 'a'.toNat ≤ c.toNat ∧ c.toNat ≤ 'z'.toNat then [Char.ofNat (c.toNat - 32)]
  else if c = '\u017F' then ['S']
  else if c = '\uFB05' ∨ c = '\uFB06' then ['S', 'T']
  else [c]

def upper (s : String) : String := String.ofList (s.toList.flatMap upperChar)

/-- `_validate_operation` (`outbox.py:778-793`) -/
def validateOperation (op : NewOperation) : Except OutboxException Unit := do
  if op.operationId = "" ∨ op.idempotencyKey = "" then
    throw (.valueError "operation_id and idempotency_key are required")
  if op.kind = "" then
    throw (.valueError "kind is required")
  if !startsWith op.endpoint "/" || contains op.endpoint "://" || contains op.endpoint "?"
      || contains op.endpoint "#" then
    throw (.valueError "endpoint must be an absolute path, not a URL")
  if upper op.httpMethod ∉ ["POST", "PUT", "PATCH", "DELETE"] then
    throw (.valueError "http_method must be a mutation method")
  if op.dependsOn = some op.operationId then
    throw (.valueError "an operation cannot depend on itself")

/-! ### Identity of a stored operation -/

/-- The columns that `_assert_same_operation` compares (`outbox.py:801-816`). -/
structure Mutation where
  kind : String
  endpoint : String
  requestHash : String
  idempotencyKey : String
  httpMethod : String
  dependsOn : Option String
  deriving DecidableEq

def OperationRow.mutation (r : OperationRow) : Mutation :=
  ⟨r.kind, r.endpoint, r.requestHash, r.idempotencyKey, r.httpMethod, r.dependsOn⟩

def HistoryRow.mutation (h : HistoryRow) : Mutation :=
  ⟨h.kind, h.endpoint, h.requestHash, h.idempotencyKey, h.httpMethod, h.dependsOn⟩

def NewOperation.mutation (op : NewOperation) (requestHash : String) : Mutation :=
  ⟨op.kind, op.endpoint, requestHash, op.idempotencyKey, upper op.httpMethod, op.dependsOn⟩

/-- The `UNION ALL … LIMIT 1` over both tables (`outbox.py:455-467`). -/
def Store.known (s : Store) (operationId : String) : Option Mutation :=
  match s.operations.find operationId with
  | some r => some r.mutation
  | none => (s.history.find operationId).map HistoryRow.mutation

/-- `_assert_same_operation` (`outbox.py:795-820`) -/
def assertSameOperation (existing : Mutation) (op : NewOperation) (requestHash : String) :
    Except OutboxException Unit :=
  if existing = op.mutation requestHash then .ok ()
  else .error (.operationConflict
    ("operation " ++ op.operationId ++ " already exists with a different mutation"))

/-- The row that the three `INSERT INTO operations` statements write. -/
def pendingRow (op : NewOperation) (request : PyValue) (requestHash : String) (now : Instant) :
    OperationRow where
  operationId := op.operationId
  dependsOn := op.dependsOn
  kind := op.kind
  endpoint := op.endpoint
  request := request
  requestHash := requestHash
  idempotencyKey := op.idempotencyKey
  httpMethod := upper op.httpMethod
  state := .pending
  createdAt := now
  updatedAt := now
  attempts := 0
  lastStatus := none
  lastError := none
  claimToken := none
  claimedBy := none
  leaseExpiresAt := none

/-- `INSERT` into a keyed table, as SQLite reports it. -/
def insertRow {ρ : Type} {key : ρ → String} (constraint : String) (t : KeyedTable key) (r : ρ) :
    Except OutboxException (KeyedTable key) :=
  match t.insert r with
  | some t' => .ok t'
  | none => .error (.integrityError constraint)

/-! ### Enqueueing (`outbox.py:448-633`) -/

/-- `outbox.py:448-495` -/
def enqueue (host : Host) (op : NewOperation) (now : Instant) :
    Store → Except OutboxException Bool × Store :=
  transact fun s => do
    validateOperation op
    let (request, requestHash) ← canonicalRequest host op.request
    match s.known op.operationId with
    | some existing =>
      assertSameOperation existing op requestHash
      return (false, s)
    | none =>
      let operations ← insertRow "operations.operation_id" s.operations
        (pendingRow op request requestHash now)
      return (true, { s with operations })

/-- The new parent of a session: a non-empty one overrides (`outbox.py:510-514`). -/
def SessionRow.adopt (r : SessionRow) (parent : String) (now : Instant) : SessionRow :=
  { r with parentSessionId := if parent ≠ "" then parent else r.parentSessionId, updatedAt := now }

@[simp] theorem SessionRow.adopt_id (r : SessionRow) (parent : String) (now : Instant) :
    (r.adopt parent now).sessionId = r.sessionId := rfl

def SessionRow.advance (r : SessionRow) (nextSequence : Nat) (now : Instant) : SessionRow :=
  { r with nextSequence, updatedAt := now }

@[simp] theorem SessionRow.advance_id (r : SessionRow) (n : Nat) (now : Instant) :
    (r.advance n now).sessionId = r.sessionId := rfl

def SessionRow.mark (r : SessionRow) (parent : String) (required : Bool) (now : Instant) :
    SessionRow :=
  { r.adopt parent now with reconcileRequired := required }

@[simp] theorem SessionRow.mark_id (r : SessionRow) (parent : String) (required : Bool)
    (now : Instant) : (r.mark parent required now).sessionId = r.sessionId := rfl

def isSession (sessionId : String) (r : SessionRow) : Bool := decide (r.sessionId = sessionId)

/-- The session upsert shared by `reserve_sequence` and `enqueue_turn` (`outbox.py:503-518`). -/
def upsertSession (sessions : KeyedTable SessionRow.sessionId) (sessionId parent : String)
    (now : Instant) : Except OutboxException (KeyedTable SessionRow.sessionId × Nat) :=
  match sessions.find sessionId with
  | some row =>
    .ok (sessions.update (isSession sessionId) (fun r => r.adopt parent now)
      (fun r => r.adopt_id parent now),
      row.nextSequence)
  | none => do
    let sessions ← insertRow "session_state.session_id" sessions
      { sessionId, parentSessionId := parent, nextSequence := 1, reconcileRequired := true,
        updatedAt := now }
    return (sessions, 1)

/-- `UPDATE session_state SET next_sequence = ?, updated_at = ? WHERE session_id = ?`. -/
def setNextSequence (sessions : KeyedTable SessionRow.sessionId) (sessionId : String)
    (nextSequence : Nat) (now : Instant) : KeyedTable SessionRow.sessionId :=
  sessions.update (isSession sessionId) (fun r => r.advance nextSequence now)
    (fun r => r.advance_id nextSequence now)

/-- `outbox.py:497-530` -/
def reserveSequence (sessionId parent : String) (now : Instant) :
    Store → Except OutboxException Nat × Store :=
  transact fun s => do
    if sessionId = "" then throw (.valueError "session_id is required")
    let (sessions, sequence) ← upsertSession s.sessions sessionId parent now
    return (sequence, { s with sessions := setNextSequence sessions sessionId (sequence + 1) now })

/-- `outbox.py:532-633` -/
def enqueueTurn (host : Host) (sessionId : String)
    (factory : Nat → Except OutboxException NewTurnOperation) (parent : String) (now : Instant) :
    Store → Except OutboxException IndexedTurnRecord × Store :=
  transact fun s => do
    if sessionId = "" then throw (.valueError "session_id is required")
    let (sessions, localSequence) ← upsertSession s.sessions sessionId parent now
    let turn ← factory localSequence
    let op := turn.operation
    validateOperation op
    if turn.sourceId = "" ∨ turn.turnHash = "" then
      throw (.valueError "turn source_id and turn_hash are required")
    let (request, requestHash) ← canonicalRequest host op.request
    if (s.known op.operationId).isSome then
      throw (.operationConflict ("operation " ++ op.operationId ++ " already exists"))
    let operations ← insertRow "operations.operation_id" s.operations
      (pendingRow op request requestHash now)
    let turns ← s.turns.insertTurn
      { sessionId, localSequence, operationId := op.operationId, sourceId := turn.sourceId,
        turnHash := turn.turnHash, revision := none }
    let sessions := setNextSequence sessions sessionId (localSequence + 1) now
    return ({ sessionId, localSequence, operationId := op.operationId, sourceId := turn.sourceId,
              turnHash := turn.turnHash, revision := none, queued := true },
            { s with operations, sessions, turns })

/-- The upsert of `index_turn` (`outbox.py:649-659`). -/
def raiseSequence (sessions : KeyedTable SessionRow.sessionId) (sessionId : String)
    (nextSequence : Nat) (now : Instant) :
    Except OutboxException (KeyedTable SessionRow.sessionId) :=
  match sessions.find sessionId with
  | some _ =>
    .ok (sessions.update (isSession sessionId)
      (fun r => r.advance (max r.nextSequence nextSequence) now)
      (fun r => r.advance_id (max r.nextSequence nextSequence) now))
  | none =>
    insertRow "session_state.session_id" sessions
      { sessionId, parentSessionId := "", nextSequence, reconcileRequired := true, updatedAt := now }

/-- `outbox.py:635-687` -/
def indexTurn (sessionId : String) (localSequence : Int) (operationId sourceId turnHash : String)
    (now : Instant) : Store → Except OutboxException Bool × Store :=
  transact fun s => do
    if sessionId = "" ∨ operationId = "" ∨ sourceId = "" ∨ turnHash = "" ∨ localSequence < 1 then
      throw (.valueError "indexed turn fields are required")
    let sequence := localSequence.toNat
    let sessions ← raiseSequence s.sessions sessionId (sequence + 1) now
    match s.turns.find (sessionId, sequence) with
    | some existing =>
      if (existing.operationId, existing.sourceId, existing.turnHash)
          ≠ (operationId, sourceId, turnHash) then
        throw (.operationConflict ("session " ++ sessionId ++ " sequence " ++ toString sequence
          ++ " already identifies another turn"))
      return (false, { s with sessions })
    | none =>
      let turns ← s.turns.insertTurn
        { sessionId, localSequence := sequence, operationId, sourceId, turnHash, revision := none }
      return (true, { s with sessions, turns })

/-! ### Sessions and revisions (`outbox.py:689-776`) -/

/-- The upsert of `mark_session_reconcile`. -/
def markSession (sessions : KeyedTable SessionRow.sessionId) (sessionId parent : String)
    (required : Bool) (now : Instant) :
    Except OutboxException (KeyedTable SessionRow.sessionId) :=
  match sessions.find sessionId with
  | some _ =>
    .ok (sessions.update (isSession sessionId) (fun r => r.mark parent required now)
      (fun r => r.mark_id parent required now))
  | none =>
    insertRow "session_state.session_id" sessions
      { sessionId, parentSessionId := parent, nextSequence := 1, reconcileRequired := required,
        updatedAt := now }

/-- `outbox.py:689-714` -/
def markSessionReconcile (sessionId parent : String) (required : Bool) (now : Instant) :
    Store → Except OutboxException Unit × Store :=
  transact fun s => do
    if sessionId = "" then throw (.valueError "session_id is required")
    let sessions ← markSession s.sessions sessionId parent required now
    return ((), { s with sessions })

/-- `outbox.py:716-722` -/
def Store.sessionReconcileRequired (s : Store) (sessionId : String) : Bool :=
  match s.sessions.find sessionId with
  | some row => row.reconcileRequired
  | none => false

/-- `outbox.py:724-730` -/
def Store.sessionParentId (s : Store) (sessionId : String) : Option String :=
  (s.sessions.find sessionId).map SessionRow.parentSessionId

/-- `outbox.py:732-757` -/
def Store.indexedTurns (s : Store) (sessionId : String) : List IndexedTurnRecord :=
  ((s.turns.rows.filter fun t => t.sessionId = sessionId).insertionSort
      fun a b => a.localSequence ≤ b.localSequence).map fun t =>
    { sessionId := t.sessionId, localSequence := t.localSequence, operationId := t.operationId,
      sourceId := t.sourceId, turnHash := t.turnHash, revision := t.revision,
      queued := (s.operations.find t.operationId).isSome }

/-- `outbox.py:759-766` -/
def recordTurnRevision (operationId : String) (revision : Int) :
    Store → Except OutboxException Unit × Store :=
  transact fun s => do
    if revision < 1 then throw (.valueError "revision must be positive")
    return ((), { s with turns := s.turns.setRevision operationId revision })

/-- `outbox.py:768-776` -/
def Store.turnRevision (s : Store) (operationId : String) : Option Int :=
  (s.turns.byOperation operationId).bind TurnRow.revision

/-! ### Claims (`outbox.py:822-937`) -/

/-- What `DurableOutbox.__init__` fixes (`outbox.py:274-289`). -/
structure OutboxConfig where
  leaseSeconds : Int
  positive : 0 < leaseSeconds

structure ClaimPage where
  workerId : String
  pageSize : Int
  leaseSeconds : Option Int
  readyBefore : Option Instant
  now : Instant
  /-- the later reading of `_claimed_from_row` -/
  stamp : Instant
  /-- `uuid.uuid4().hex`, one for each selected row -/
  uuids : Nat → String

def OperationState.claimable : OperationState → Bool
  | .pending => true
  | .pendingRecovery => true
  | .reconcileRevision => true
  | .blockedAuth => false
  | .deadLetter => false

/-- `claim_token IS NULL OR lease_expires_at <= now` -/
def OperationRow.unleased (r : OperationRow) (now : Instant) : Bool :=
  match r.claimToken, r.leaseExpiresAt with
  | none, _ => true
  | some _, some expires => decide (expires ≤ now)
  | some _, none => false

/-- The dependency predicate of the claim query (`outbox.py:851-858`). -/
def Store.dependencyMet (s : Store) (dependsOn : Option String) : Bool :=
  match dependsOn with
  | none => true
  | some d =>
    match s.history.find d with
    | some h => h.outcome = .succeeded || h.outcome = .replayed
    | none => false

/-- The `WHERE` clause of the claim query (`outbox.py:847-858`). -/
def Store.selectable (s : Store) (cutoff now : Instant) (r : OperationRow) : Bool :=
  r.state.claimable && decide (r.updatedAt < cutoff) && r.unleased now && s.dependencyMet r.dependsOn

/-- `ORDER BY created_at, operation_id` -/
def claimOrder (a b : OperationRow) : Prop :=
  a.createdAt < b.createdAt ∨ (a.createdAt = b.createdAt ∧ a.operationId ≤ b.operationId)

instance : DecidableRel claimOrder := fun a b => by unfold claimOrder; infer_instance

def Store.selected (s : Store) (cutoff now : Instant) (pageSize : Nat) : List OperationRow :=
  ((s.operations.rows.filter (s.selectable cutoff now)).insertionSort claimOrder).take pageSize

/-- The per-row `UPDATE` of `claim_page` (`outbox.py:868-873`). -/
def OperationRow.claim (r : OperationRow) (token worker : String) (expires now : Instant) :
    OperationRow :=
  { r with claimToken := some token, claimedBy := some worker, leaseExpiresAt := some expires,
           attempts := r.attempts + 1, updatedAt := now }

@[simp] theorem OperationRow.claim_id (r : OperationRow) (token worker : String)
    (expires now : Instant) : (r.claim token worker expires now).operationId = r.operationId := rfl

/-- `_claimed_from_row` (`outbox.py:889-918`) -/
def claimedFromRow (row : OperationRow) (token worker : String) (expires stamp : Instant) :
    Except OutboxException ClaimedOperation :=
  match row.request with
  | .dict request =>
    .ok { operationId := row.operationId, dependsOn := row.dependsOn, kind := row.kind,
          endpoint := row.endpoint, request, idempotencyKey := row.idempotencyKey,
          state := row.state, createdAt := row.createdAt, updatedAt := stamp,
          attempts := row.attempts + 1, lastStatus := row.lastStatus, lastError := row.lastError,
          httpMethod := row.httpMethod, claimToken := token, claimedBy := worker,
          leaseExpiresAt := expires, recoveryKind := recoveryKindForEndpoint row.endpoint }
  | _ => .error (.outboxError ("operation " ++ row.operationId ++ " has a non-object request"))

/-- The loop over the selected rows (`outbox.py:864-884`); `index` counts them. -/
def claimRows (page : ClaimPage) (expires : Instant) :
    Nat → List OperationRow → KeyedTable OperationRow.operationId →
      Except OutboxException (List ClaimedOperation × KeyedTable OperationRow.operationId)
  | _, [], operations => .ok ([], operations)
  | index, row :: rows, operations => do
    let token := page.uuids index
    let hit := fun r : OperationRow => decide (r.operationId = row.operationId) && r.unleased page.now
    let changed := operations.rows.any hit
    let operations := operations.update hit
      (fun r => r.claim token page.workerId expires page.now)
      (fun r => r.claim_id token page.workerId expires page.now)
    if changed then
      let claim ← claimedFromRow row token page.workerId expires page.stamp
      let (claims, operations) ← claimRows page expires (index + 1) rows operations
      return (claim :: claims, operations)
    else claimRows page expires (index + 1) rows operations

/-- The far-future cut-off that stands for no cut-off (`outbox.py:842`): 365000 days. -/
def farFuture (now : Instant) : Instant := now + 365000 * 86400 * 1000000

/-- `outbox.py:822-887` -/
def claimPage (config : OutboxConfig) (page : ClaimPage) :
    Store → Except OutboxException (List ClaimedOperation) × Store :=
  transact fun s => do
    if page.workerId = "" then throw (.valueError "worker_id is required")
    if page.pageSize < 1 then throw (.valueError "page_size must be positive")
    let lease := page.leaseSeconds.getD config.leaseSeconds
    if lease ≤ 0 then throw (.valueError "lease_seconds must be positive")
    let cutoff := page.readyBefore.getD (farFuture page.now)
    let rows := s.selected cutoff page.now page.pageSize.toNat
    let (claims, operations) ← claimRows page (page.now + lease) 0 rows s.operations
    return (claims, { s with operations })

/-- `operation_id = ? AND claim_token = ?` -/
def OperationRow.heldBy (op : ClaimedOperation) (r : OperationRow) : Bool :=
  decide (r.operationId = op.operationId) && decide (r.claimToken = some op.claimToken)

/-- The claim that `op` made is still the one recorded in the store. -/
def Store.holds (s : Store) (op : ClaimedOperation) : Bool :=
  s.operations.rows.any (OperationRow.heldBy op)

def lostClaim (op : ClaimedOperation) : OutboxException :=
  .claimLost ("claim lost for operation " ++ op.operationId)

def OperationRow.renewed (r : OperationRow) (expires stamp : Instant) : OperationRow :=
  { r with leaseExpiresAt := some expires, updatedAt := stamp }

@[simp] theorem OperationRow.renewed_id (r : OperationRow) (expires stamp : Instant) :
    (r.renewed expires stamp).operationId = r.operationId := rfl

/-- `outbox.py:920-937` -/
def renewClaim (config : OutboxConfig) (op : ClaimedOperation) (leaseSeconds : Option Int)
    (now stamp : Instant) : Store → Except OutboxException Instant × Store :=
  transact fun s => do
    let lease := leaseSeconds.getD config.leaseSeconds
    if lease ≤ 0 then throw (.valueError "lease_seconds must be positive")
    let expires := now + lease
    if !s.holds op then throw (lostClaim op)
    let operations := s.operations.update (OperationRow.heldBy op) (fun r => r.renewed expires stamp)
      (fun r => r.renewed_id expires stamp)
    return (expires, { s with operations })

/-! ### Results (`outbox.py:939-1113`) -/

/-- The history row of `_archive_and_delete` and `supersede`. -/
def OperationRow.archived (row : OperationRow) (outcome : Outcome) (completedAt : Instant)
    (replacementId : Option String) (lastStatus : Option Int) (lastError : Option String) :
    HistoryRow where
  operationId := row.operationId
  outcome := outcome
  kind := row.kind
  endpoint := row.endpoint
  idempotencyKey := row.idempotencyKey
  requestHash := row.requestHash
  httpMethod := row.httpMethod
  dependsOn := row.dependsOn
  attempts := row.attempts
  completedAt := completedAt
  replacementId := replacementId
  lastStatus := lastStatus
  lastError := lastError

/-- `SELECT * FROM operations WHERE operation_id = ? AND claim_token = ?`. -/
def Store.heldRow (s : Store) (op : ClaimedOperation) : Option OperationRow :=
  s.operations.rows.find? (OperationRow.heldBy op)

/-- `_archive_and_delete` (`outbox.py:978-1022`) -/
def archiveAndDelete (op : ClaimedOperation) (outcome : Outcome) (result : AttemptResult)
    (now : Instant) : Store → Except OutboxException Unit × Store :=
  transact fun s =>
    match s.heldRow op with
    | none => .error (lostClaim op)
    | some row => do
      let history ← insertRow "operation_history.operation_id" s.history
        (row.archived outcome now none result.status (redactError MAX_ERROR_LENGTH result.error))
      return ((), { s with history, operations := s.operations.delete op.operationId })

/-- The `UPDATE` of a result that keeps the operation queued (`outbox.py:958-974`). -/
def OperationRow.settled (r : OperationRow) (state : OperationState) (result : AttemptResult)
    (now : Instant) : OperationRow :=
  { r with state, updatedAt := now, lastStatus := result.status,
           lastError := redactError MAX_ERROR_LENGTH result.error,
           claimToken := none, claimedBy := none, leaseExpiresAt := none }

@[simp] theorem OperationRow.settled_id (r : OperationRow) (state : OperationState)
    (result : AttemptResult) (now : Instant) :
    (r.settled state result now).operationId = r.operationId := rfl

/-- The part of `apply_result` that keeps the operation queued. -/
def settle (op : ClaimedOperation) (state : OperationState) (result : AttemptResult)
    (now : Instant) : Store → Except OutboxException Unit × Store :=
  transact fun s => do
    if !s.holds op then throw (lostClaim op)
    let operations := s.operations.update (OperationRow.heldBy op)
      (fun r => r.settled state result now)
      (fun r => r.settled_id state result now)
    return ((), { s with operations })

/-- `outbox.py:939-976` -/
def applyResult (op : ClaimedOperation) (result : AttemptResult) (now : Instant) (s : Store) :
    Except OutboxException Unit × Store :=
  match result.action with
  | .superseded => (.ok (), s)
  | .succeed => archiveAndDelete op (if result.replayed then .replayed else .succeeded) result now s
  | .obsolete => archiveAndDelete op .obsolete result now s
  | .retry => settle op .pending result now s
  | .blockAuth => settle op .blockedAuth result now s
  | .deadLetter => settle op .deadLetter result now s
  | .recover => settle op .pendingRecovery result now s
  | .reconcileRevision => settle op .reconcileRevision result now s

/-- `outbox.py:1024-1101` -/
def supersede (host : Host) (op : ClaimedOperation) (replacement : NewOperation) (now : Instant) :
    Store → Except OutboxException Unit × Store :=
  transact fun s => do
    validateOperation replacement
    if replacement.operationId = op.operationId then
      throw (.valueError "replacement must have a new logical operation ID")
    let (request, requestHash) ← canonicalRequest host replacement.request
    match s.heldRow op with
    | none => throw (lostClaim op)
    | some row =>
      if (s.known replacement.operationId).isSome then
        throw (.operationConflict ("replacement " ++ replacement.operationId ++ " already exists"))
      let operations ← insertRow "operations.operation_id" s.operations
        (pendingRow replacement request requestHash now)
      let history ← insertRow "operation_history.operation_id" s.history
        (row.archived .superseded now (some replacement.operationId) row.lastStatus row.lastError)
      return ((), { s with history, operations := operations.delete op.operationId })

def OperationRow.isBlocked (r : OperationRow) : Bool := decide (r.state = .blockedAuth)

def OperationRow.unblocked (r : OperationRow) (now : Instant) : OperationRow :=
  { r with state := .pending, updatedAt := now, lastError := none }

@[simp] theorem OperationRow.unblocked_id (r : OperationRow) (now : Instant) :
    (r.unblocked now).operationId = r.operationId := rfl

/-- `outbox.py:1103-1113` -/
def unblockAuth (now : Instant) : Store → Except OutboxException Nat × Store :=
  transact fun s => do
    let changed := (s.operations.rows.filter OperationRow.isBlocked).length
    let operations := s.operations.update OperationRow.isBlocked (fun r => r.unblocked now)
      (fun r => r.unblocked_id now)
    return (changed, { s with operations })

/-- The `UPDATE` of `_release_unattempted` (`outbox.py:1228-1231`). -/
def OperationRow.released (r : OperationRow) (now : Instant) : OperationRow :=
  { r with attempts := r.attempts - 1, updatedAt := now, claimToken := none, claimedBy := none,
           leaseExpiresAt := none }

@[simp] theorem OperationRow.released_id (r : OperationRow) (now : Instant) :
    (r.released now).operationId = r.operationId := rfl

/-- The loop of `_release_unattempted`; a count of zero would break `CHECK (attempts >= 0)`. -/
def releaseRows (now : Instant) : List ClaimedOperation → KeyedTable OperationRow.operationId →
    Except OutboxException (KeyedTable OperationRow.operationId)
  | [], operations => .ok operations
  | op :: ops, operations =>
    if operations.rows.any fun r => r.heldBy op && decide (r.attempts = 0) then
      .error (.integrityError "attempts >= 0")
    else
      releaseRows now ops (operations.update (OperationRow.heldBy op) (fun r => r.released now)
        (fun r => r.released_id now))

/-- `outbox.py:1219-1235` -/
def releaseUnattempted (ops : List ClaimedOperation) (now : Instant) :
    Store → Except OutboxException Unit × Store :=
  transact fun s => do
    let operations ← releaseRows now ops s.operations
    return ((), { s with operations })

/-- `outbox.py:1161-1167` -/
def Store.historyOutcome (s : Store) (operationId : String) : Option Outcome :=
  (s.history.find operationId).map HistoryRow.outcome

end SibylMemory.Outbox
