import SibylMemory.Operator
import SibylMemory.RuntimeFlush
import SibylMemory.Outbox.Initialization
import SibylMemory.Outbox.Settlements

/-!
# The operator's flush (`cli.py:490-562`)

`hermes sibyl flush` opens the outbox, asks for the credential, unblocks what waits for one, and
flushes with the executor of the runtime. No row changes before the credential was found safe.
The check leaves the runtime's own credential flag unset, so closing the runner flushes nothing more.
-/

namespace SibylMemory
open Outbox

/-- What `DurableOutbox(home)` raises when it cannot create or migrate the tables. -/
def Outbox.InitError.pyException : InitError → PyException
  | .operational _ => ⟨"OperationalError", ["sqlite3.Error"]⟩
  | .outbox _ => ⟨"OutboxError", ["RuntimeError"]⟩
  | .fileNotFound _ => ⟨"FileNotFoundError", ["OSError"]⟩

/-- What the command meets: the machine, the file of the outbox (an empty one where there was none)
and how the calls of the system on it end, the answer to `auth_me`, and what its flush meets. -/
structure OperatorFlush where
  machine : Machine
  outboxConfig : OutboxConfig
  clientFactory : OperatorContext → Except PyException Unit
  file : DatabaseFile
  connect : Except PyException Unit
  secureFiles : Except PyException Unit
  probe : Exchange
  probeRequestId : String
  hex : String
  now : World → Instant
  stamp : World → Instant
  monotonic : World → Int
  uuids : World → Nat → String
  net : World → WireRequest → Exchange
  requestId : World → String

/-- How the command has ended, the file as `DurableOutbox(home)` left it, and its flush. -/
structure FlushCommand where
  result : CommandResult Bool
  opened : DatabaseFile
  flushed : FlushState

namespace OperatorFlush

/-- `self._outbox.flush(f"operator-{uuid.uuid4().hex}", self._runtime._execute_operation)` -/
def env (o : OperatorFlush) : FlushEnv :=
  { runtimeFlush o.machine.host o.outboxConfig 0 o.now o.stamp o.monotonic o.uuids o.net o.requestId with
    workerId := "operator-" ++ o.hex }

/-- `DurableOutbox(home)`: what fails in a script leaves the file as it was. -/
def openOutbox (o : OperatorFlush) : Except PyException Unit × DatabaseFile :=
  match o.connect with
  | .error e => (.error e, o.file)
  | .ok _ =>
    match o.file.upgrade o.file.userVersion with
    | .error e => (.error e.pyException, o.file)
    | .ok file => (o.secureFiles, file)

/-- `_RuntimeFlushRunner.__init__` -/
def makeRunner (o : OperatorFlush) (c : OperatorContext) : Except PyException Unit × DatabaseFile :=
  match o.clientFactory c with
  | .error e => (.error e, o.file)
  | .ok _ => o.openOutbox

/-- `_RuntimeFlushRunner.run` up to the flush. -/
def authorize (o : OperatorFlush) (c : OperatorContext) : Except PyException Unit :=
  match authMe o.machine.host o.probe o.probeRequestId with
  | .error e => .error (e.pyException o.machine.bases)
  | .ok response =>
    if credentialFailures response.credential c.requirement = [] then .ok ()
    else .error ⟨"UnsafeCredentialError", ["RuntimeError"]⟩

def unblocked (o : OperatorFlush) (w : World) : World :=
  World.step o.machine.host w (.unblockAuth (o.now w))

/-- `_RuntimeFlushRunner.run` -/
def run (o : OperatorFlush) (fuel : Nat) (c : OperatorContext) (w : World) :
    Option (Except PyException (Nat × FlushReport) × FlushState) :=
  match o.authorize c with
  | .error e => some (.error e, { world := w })
  | .ok _ =>
    match (unblockAuth (o.now w) w.store).1 with
    | .error e => some (.error e.pyException, { world := w })
    | .ok count => (flush o.env fuel (o.unblocked w)).map fun out =>
        ((out.1.mapError OutboxException.pyException).map fun report => (count, report), out.2)

/-- An `except` clause that prints a line and returns `False`. -/
def handled (classes : List String) (e : PyException) (line : String) : CommandResult Bool :=
  if e.isA classes then ⟨[line], .ok false⟩ else ⟨[], .error e⟩

def adviseDoctor (e : PyException) : String :=
  "Flush failed: " ++ e.className ++ "; run 'hermes sibyl doctor'"

/-- What is printed after a flush, with the snapshot that its report ends with. -/
def report (o : OperatorFlush) (count : Nat) (report : FlushReport) (w : World) : CommandResult Bool :=
  let remaining := w.store.snapshot (o.now w) (o.stamp w)
  ⟨["Unblocked authentication failures: " ++ toString count,
    "Claimed operations: " ++ toString report.claimed,
    "Outcomes: " ++ formatOutcomes report.outcomes,
    "Remaining: " ++ formatCounts remaining], .ok (decide (remaining.total = 0))⟩

/-- `_flush` -/
def command (o : OperatorFlush) (fuel : Nat) (w : World) : Option FlushCommand :=
  match o.machine.operatorContext with
  | .error e => some ⟨handled configurationErrors e
      ("Flush failed: invalid configuration (" ++ e.className ++ ")"), o.file, { world := w }⟩
  | .ok c =>
    if c.incomplete then
      some ⟨⟨["Flush failed: run 'hermes memory setup sibyl' first"], .ok false⟩, o.file, { world := w }⟩
    else
      match o.makeRunner c with
      | (.error e, opened) => some ⟨handled localErrors e (adviseDoctor e), opened, { world := w }⟩
      | (.ok _, opened) => (o.run fuel c w).map fun out =>
        match out.1 with
        | .error e => ⟨handled remoteErrors e (adviseDoctor e), opened, out.2⟩
        | .ok (count, report) => ⟨o.report count report out.2.world, opened, out.2⟩

/-- The command gets to its flush: the configuration is complete, the outbox opens, and Sibyl has
answered with a credential that is safe. -/
def Cleared (o : OperatorFlush) : Prop :=
  ∃ c response, o.machine.operatorContext = .ok c ∧ c.incomplete = false ∧
    (o.makeRunner c).1 = .ok () ∧
    authMe o.machine.host o.probe o.probeRequestId = .ok response ∧
    credentialFailures response.credential c.requirement = []

end OperatorFlush

section Flush
variable {o : OperatorFlush} {w : World}

theorem handled_ended (classes : List String) (e : PyException) (line : String) :
    (OperatorFlush.handled classes e line).ended ≠ .ok true := by
  unfold OperatorFlush.handled
  split <;> exact nofun

theorem operator_regular
    (hclock : ∀ w calls, o.now w ≤ o.now (Run.exec (World.step o.machine.host) w calls)) :
    o.env.Regular :=
  { runtimeFlush_regular o.outboxConfig 0 o.stamp o.monotonic o.uuids o.net o.requestId hclock with
    worker := by
      intro h
      have hlength := congrArg String.length h
      simp [OperatorFlush.env] at hlength }

theorem operator_storing
    (hstatus : ∀ w wire r, o.net w wire = .answered r → (r.status : Int) < INT64_END) : o.env.Storing :=
  fun w _ _ => runtimeExecution_storable (hstatus w)

theorem authorize_ok {c : OperatorContext} : o.authorize c = .ok () ↔
    ∃ response, authMe o.machine.host o.probe o.probeRequestId = .ok response ∧
      credentialFailures response.credential c.requirement = [] := by
  unfold OperatorFlush.authorize
  cases authMe o.machine.host o.probe o.probeRequestId with
  | error e => simp
  | ok response => by_cases h : credentialFailures response.credential c.requirement = [] <;> simp [h]

/-- `unblock_auth` returns, and rewrites what is blocked and nothing else. -/
theorem unblocked_store (o : OperatorFlush) (w : World) :
    (∃ count, (unblockAuth (o.now w) w.store).1 = .ok count) ∧
    ∃ r, Effect o.machine.host w.store (.unblockAuth (o.now w)) r (o.unblocked w).store := by
  have hreturns : ∃ count, unblockAuth (o.now w) w.store = (.ok count, (o.unblocked w).store) :=
    ⟨_, rfl⟩
  obtain ⟨count, h⟩ := hreturns
  exact ⟨⟨count, by rw [h]⟩, _, unblockAuth_effect h⟩

theorem unblocked_find (o : OperatorFlush) (w : World) (i : String) :
    (o.unblocked w).store.operations.find i = (w.store.operations.find i).map fun r =>
      if r.isBlocked then r.unblocked (o.now w) else r := by
  obtain ⟨-, r, heff⟩ := unblocked_store o w
  generalize (o.unblocked w).store = s' at heff ⊢
  cases heff with
  | unblock ops => exact ops i

theorem unblocked_history (o : OperatorFlush) (w : World) :
    (o.unblocked w).store.history = w.store.history := by
  obtain ⟨-, r, heff⟩ := unblocked_store o w
  generalize (o.unblocked w).store = s' at heff ⊢
  cases heff with
  | unblock ops => rfl

theorem unblocked_lapsed (hs : w.store.Lapsed (o.now w)) (hlater : o.now w < o.now (o.unblocked w)) :
    (o.unblocked w).store.Lapsed (o.now (o.unblocked w)) := by
  obtain ⟨-, r, heff⟩ := unblocked_store o w
  have hrows : ∀ row ∈ (o.unblocked w).store.operations.rows, ∃ old ∈ w.store.operations.rows,
      row = if old.isBlocked then old.unblocked (o.now w) else old := by
    intro row hrow
    have hfind := KeyedTable.find_of_mem hrow
    rw [unblocked_find, Option.map_eq_some_iff] at hfind
    obtain ⟨old, hold, rfl⟩ := hfind
    exact ⟨old, KeyedTable.find_mem hold, rfl⟩
  refine ⟨effect_disjoint heff hs.disjoint, fun row hrow => ?_, fun row hrow => ?_, fun row hrow => ?_⟩
  all_goals obtain ⟨old, hold, rfl⟩ := hrows row hrow
  · split
    · exact hs.objects old hold
    · exact hs.objects old hold
  · have hunleased := unleased_mono hlater.le (hs.unleased old hold)
    split
    · exact hunleased
    · exact hunleased
  · split
    · exact hlater
    · exact (hs.passed old hold).trans hlater

/-- Opening the outbox adds tables and changes no row. -/
theorem openOutbox_rows (o : OperatorFlush) (name : String) :
    o.openOutbox.2.rows name = o.file.rows name := by
  unfold OperatorFlush.openOutbox
  split
  · rfl
  · split
    · rfl
    · rename_i file hfile
      exact upgrade_rows hfile name

theorem makeRunner_rows (o : OperatorFlush) (c : OperatorContext) (name : String) :
    (o.makeRunner c).2.rows name = o.file.rows name := by
  unfold OperatorFlush.makeRunner
  split
  · rfl
  · exact openOutbox_rows o name

end Flush

def rememberedAnswer (key : String) : JSONObject :=
  [("id", .str "1"), ("organization_id", .str "o"), ("source_id", .str "s"), ("principal_id", .str "u"),
    ("memory_scope", .str "project"), ("title", .str "t"), ("raw_content", .str "c"), ("tags", .list []),
    ("revision", .int 1), ("mutation_receipt", .dict [("operation_id", .str "m"), ("applied", .bool true),
      ("revision", .int 1), ("affected_records", .list []), ("idempotency_key", .str key),
      ("replayed", .bool false)])]

/-- The body of an answer to a write is its key, after a first byte. -/
def flushMachine : Machine :=
  { sampleMachine with
    host :=
      { Host.plain with
        loads := fun body => .ok (.dict (match body with
          | [] => operatorAnswer
          | _ :: key => rememberedAnswer (String.ofList (key.map fun b => Char.ofNat b.toNat)))) } }

/-- The clock moves on with every call. -/
def sampleOperator : OperatorFlush where
  machine := flushMachine
  outboxConfig := sampleConfig
  clientFactory := fun _ => .ok ()
  file := freshFile
  connect := .ok ()
  secureFiles := .ok ()
  probe := .answered sampleAnswer
  probeRequestId := "r"
  hex := "0"
  now := fun w => 100 + w.trace.length
  stamp := fun w => 100 + w.trace.length
  monotonic := fun _ => 0
  uuids := fun _ _ => "token"
  net := fun _ wire => .answered
    { sampleAnswer with
      chunks := [0 :: (wire.idempotencyKey.getD "").toList.map fun c => c.toNat.toUInt8]
      chunks_ne := by simp }
  requestId := fun _ => "r"

def capturedSample : NewOperation :=
  { sampleOperation with
    request := .dict [("title", .str "t"), ("raw_content", .str "c"), ("source_id", .str "s"),
      ("project_id", .str "project_p"), ("metadata", .dict []), ("provenance", .dict [])] }

/-- Two operations were refused the credential of their time, and a third waits for the first. The
request of the last can not be decoded. -/
def blockedSample : World :=
  let last := { sampleOperation with operationId := "c", idempotencyKey := "m" }
  World.run flushMachine.host [.enqueue capturedSample 0,
    .enqueue { capturedSample with operationId := "b", idempotencyKey := "l", dependsOn := some "a" } 1,
    .enqueue last 2, .claimPage sampleConfig { samplePage "w" "t" 3 with pageSize := 2 },
    .applyResult (sampleClaim capturedSample "w" "t" 3) (.failure .blockAuth (some 401)) 4,
    .applyResult (sampleClaim last "w" "t" 3) (.failure .blockAuth (some 401)) 5]

theorem trace_length (host : Host) (w : World) (calls : List Call) :
    (Run.exec (World.step host) w calls).trace.length = w.trace.length + calls.length := by
  induction calls generalizing w with
  | nil => rfl
  | cons c calls ih =>
    rw [Run.exec_cons, ih, List.length_cons, World.step, List.length_append, List.length_singleton]
    omega

end SibylMemory
