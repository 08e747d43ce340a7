import SibylMemory.Library.Encoding
import SibylMemory.Outbox.Leases
import SibylMemory.Outbox.SessionOrder

/-!
# `DurableOutbox.flush` (`outbox.py:1169-1235`)

A flush claims page after page of what was last written before it began, hands every claim to the
executor once and applies the result. What it meets outside (the clocks, the claim tokens and the
executor) is a function of all that has happened on the outbox so far.
-/

namespace SibylMemory.Outbox
open JsonText (CodePoints points)
open Encoding (readAs readAs_points)

/-- `AttemptResult` as an executor builds it: its error is any text of Python. -/
structure ExecutorResult where
  action : ResultAction
  status : Option Int := none
  error : Option CodePoints := none
  replayed : Bool := false

def AttemptResult.returned (result : AttemptResult) : ExecutorResult where
  action := result.action
  status := result.status
  error := result.error.map points
  replayed := result.replayed

/-- An exception of the executor by its text, or one that leaves the flush: it is no `Exception`
(`SystemExit`), or its `str` raises. -/
inductive ExecutorError where
  | exception (text : CodePoints)
  | baseException (className : String)

/-- One call of the executor: the calls made on the outbox while it runs, by itself or by threads
that enqueue, and how it ends. -/
structure Execution where
  calls : List Call
  outcome : Except ExecutorError ExecutorResult

/-- What the executor was called on, and the outbox at that moment. -/
structure ExecutorCall where
  world : World
  operation : ClaimedOperation

/-- `now` is `_utc_now`, and `stamp` the later reading of `_claimed_from_row`. -/
structure FlushEnv where
  host : Host
  config : OutboxConfig
  workerId : String
  pageSize : Int
  timeoutSeconds : Option Int
  now : World → Instant
  stamp : World → Instant
  monotonic : World → Int
  uuids : World → Nat → String
  execute : World → ClaimedOperation → Execution

/-- `FlushReport` without what `snapshot` and the clock add to it. -/
structure FlushReport where
  claimed : Nat
  outcomes : ResultAction → Nat
  deadlineExhausted : Bool

/-- `_FlushAccumulator` beside the outbox, with what `claim_page` has returned and the calls of the
executor. -/
structure FlushState where
  world : World
  claimed : Nat := 0
  outcomes : ResultAction → Nat := fun _ => 0
  claims : List ClaimedOperation := []
  attempts : List ExecutorCall := []

def FlushState.attempted (st : FlushState) : List String :=
  st.attempts.map fun a => a.operation.operationId

def FlushState.count (st : FlushState) (action : ResultAction) : FlushState :=
  { st with outcomes := Function.update st.outcomes action (st.outcomes action + 1) }

def FlushState.grant (st : FlushState) (claims : List ClaimedOperation) : FlushState :=
  { st with claims := st.claims ++ claims }

section Definitions
variable (env : FlushEnv)

/-- `None if timeout_seconds is None else started + timeout_seconds` -/
def FlushEnv.deadline (w : World) : Option Int :=
  env.timeoutSeconds.map fun t => env.monotonic w + t

/-- `deadline is not None and time.monotonic() >= deadline` -/
def FlushEnv.expired (deadline : Option Int) (w : World) : Bool :=
  match deadline with
  | none => false
  | some instant => decide (instant ≤ env.monotonic w)

def FlushState.call (st : FlushState) (c : Call) : FlushState :=
  { st with world := World.step env.host st.world c }

def FlushEnv.page (readyBefore : Instant) (w : World) : ClaimPage where
  workerId := env.workerId
  pageSize := env.pageSize
  leaseSeconds := none
  readyBefore := some readyBefore
  now := env.now w
  stamp := env.stamp w
  uuids := env.uuids w

/-- An exception of the executor counts as a retry, if it is an `Exception` with a text. -/
def Execution.result (a : Execution) : Except OutboxException ExecutorResult :=
  match a.outcome with
  | .ok result => .ok result
  | .error (.exception text) => .ok { action := .retry, error := some text }
  | .error (.baseException className) => .error (.baseException className)

/-- The result with a character in the place of each lone surrogate of its error. -/
def ExecutorResult.read (r : ExecutorResult) (mark : Char) : AttemptResult where
  action := r.action
  status := r.status
  error := r.error.map (readAs mark)
  replayed := r.replayed

/-- One above the greatest integer of a column. -/
def INT64_END : Int := 9223372036854775808

/-- What `sqlite3` raises when it binds the status and the redacted error: an integer has 64 bits,
and a text is encoded. White space and the patterns know no character of the private use area, so
a surrogate is left in the redacted text when it matters which of them stands for it. -/
def ExecutorResult.fault (r : ExecutorResult) : Option OutboxException :=
  let stored := fun mark => redactError MAX_ERROR_LENGTH (r.read mark).error
  if r.status.any fun n => decide (n < -INT64_END ∨ INT64_END ≤ n) then some .overflowError
  else if stored '\uE000' = stored '\uE001' then none
  else some .unicodeEncodeError

/-- What is applied when no surrogate is left. -/
def ExecutorResult.stored (r : ExecutorResult) : AttemptResult := r.read '\uE000'

/-- `apply_result` on the result of an executor. The row of an operation to archive is looked up
before its columns are bound. -/
def applyReturned (host : Host) (op : ClaimedOperation) (r : ExecutorResult) (now : Instant)
    (w : World) : Except OutboxException Unit × World :=
  match r.action, r.fault with
  | .superseded, _ | _, none =>
    ((applyResult op r.stored now w.store).1, World.step host w (.applyResult op r.stored now))
  | action, some e =>
    (.error (if action ∈ [ResultAction.succeed, .obsolete] ∧ w.store.holds op = false
      then lostClaim op else e), w)

/-- The outbox after the executor has run on an operation. -/
def FlushEnv.executed (w : World) (op : ClaimedOperation) : World :=
  Run.exec (World.step env.host) w (env.execute w op).calls

/-- The body of the loop over the claims: the executor and `apply_result`. -/
def attemptOperation (st : FlushState) (op : ClaimedOperation) :
    Except OutboxException Unit × FlushState :=
  let world := env.executed st.world op
  let called := { st with
    world, claimed := st.claimed + 1, attempts := st.attempts ++ [⟨st.world, op⟩] }
  match (env.execute st.world op).result with
  | .error e => (.error e, called)
  | .ok result =>
    match applyReturned env.host op result (env.now world) world with
    | (.error e, world) => (.error e, { called with world })
    | (.ok _, world) => (.ok (), FlushState.count { called with world } result.action)

/-- The loop over the claims of a page; returns `deadline_exhausted`. -/
def flushPage (deadline : Option Int) :
    List ClaimedOperation → FlushState → Except OutboxException Bool × FlushState
  | [], st => (.ok false, st)
  | op :: ops, st =>
    if env.expired deadline st.world then
      let now := env.now st.world
      ((releaseUnattempted (op :: ops) now st.world.store).1.map fun _ => true,
        st.call env (.releaseUnattempted (op :: ops) now))
    else
      match attemptOperation env st op with
      | (.error e, st) => (.error e, st)
      | (.ok _, st) => flushPage deadline ops st

/-- The loop over the pages; `none` when the fuel does not suffice. -/
def flushLoop (deadline : Option Int) (readyBefore : Instant) :
    Nat → FlushState → Option (Except OutboxException Bool × FlushState)
  | 0, _ => none
  | fuel + 1, st =>
    if env.expired deadline st.world then some (.ok true, st)
    else
      let page := env.page readyBefore st.world
      match (claimPage env.config page st.world.store).1, st.call env (.claimPage env.config page) with
      | .error e, st => some (.error e, st)
      | .ok [], st => some (.ok false, st)
      | .ok claims, st =>
        match flushPage env deadline claims (st.grant claims) with
        | (.error e, st) => some (.error e, st)
        | (.ok true, st) => some (.ok true, st)
        | (.ok false, st) => flushLoop deadline readyBefore fuel st

def flush (fuel : Nat) (w : World) : Option (Except OutboxException FlushReport × FlushState) :=
  if ∃ t, env.timeoutSeconds = some t ∧ t < 0 then
    some (.error (.valueError "timeout_seconds cannot be negative"), { world := w })
  else
    (flushLoop env (env.deadline w) (env.now w) fuel { world := w }).map fun out =>
      (out.1.map fun deadlineExhausted =>
        FlushReport.mk out.2.claimed out.2.outcomes deadlineExhausted, out.2)

end Definitions

/-! ### Calls that return -/

section Total
variable {s : Store}

theorem claimRows_total (page : ClaimPage) (expires : Instant) (index : Nat)
    {rows : List OperationRow} (hrows : ∀ row ∈ rows, ∃ request, row.request = .dict request)
    (operations : KeyedTable OperationRow.operationId) :
    ∃ out, claimRows page expires index rows operations = .ok out := by
  induction rows generalizing index operations with
  | nil => exact ⟨_, rfl⟩
  | cons row rows ih =>
    obtain ⟨request, hrequest⟩ := hrows row List.mem_cons_self
    have hrest := fun r hr => hrows r (List.mem_cons_of_mem _ hr)
    rw [claimRows]
    split
    · obtain ⟨out, hout⟩ := ih (index + 1) hrest (operations.update _ _ _)
      simp only [claimedFromRow, hrequest, bind, Except.bind]
      rw [hout]
      exact ⟨_, rfl⟩
    · exact ih (index + 1) hrest _

theorem claimPage_total (config : OutboxConfig) {page : ClaimPage} (hworker : page.workerId ≠ "")
    (hsize : 1 ≤ page.pageSize) (hlease : page.leaseSeconds = none)
    (hrows : ∀ row ∈ s.selected (page.readyBefore.getD (farFuture page.now)) page.now
      page.pageSize.toNat, ∃ request, row.request = .dict request) :
    ∃ claims s', claimPage config page s = (.ok claims, s') := by
  obtain ⟨⟨claims, operations⟩, hout⟩ := claimRows_total page
    (page.now + config.leaseSeconds) 0 hrows s.operations
  refine ⟨claims, { s with operations }, ?_⟩
  rw [claimPage, transact_ok, hlease]
  have hpositive := config.positive
  simp only [guard_ok, bind_ok]
  refine ⟨hworker, by omega, ?_, (claims, operations), hout, rfl⟩
  show ¬ config.leaseSeconds ≤ 0
  omega

theorem applyResult_total (hd : s.Disjoint) {op : ClaimedOperation} (h : s.holds op = true)
    (result : AttemptResult) (now : Instant) :
    ∃ s', applyResult op result now s = (.ok (), s') := by
  obtain ⟨row, hrow, htoken⟩ := (holds_iff s op).mp h
  have hsettle : ∀ state, ∃ s', settle op state result now s = (.ok (), s') := by
    intro state
    let operations := s.operations.update (OperationRow.heldBy op)
      (fun r => r.settled state result now) (fun r => r.settled_id state result now)
    refine ⟨{ s with operations }, ?_⟩
    rw [settle, transact_ok]
    simp [h, pure, Except.pure, operations]
  have harchive : ∀ outcome, ∃ s', archiveAndDelete op outcome result now s = (.ok (), s') := by
    intro outcome
    have hhistory : s.history.find row.operationId = none := by
      rcases hd row.operationId with hlive | hclosed
      · rw [KeyedTable.find_key hrow, hrow] at hlive
        cases hlive
      · exact hclosed
    obtain ⟨history, hinsert, -⟩ := s.history.insert_isSome
      (row.archived outcome now none result.status (redactError MAX_ERROR_LENGTH result.error))
      hhistory
    refine ⟨{ s with history, operations := s.operations.delete op.operationId }, ?_⟩
    rw [archiveAndDelete, transact_ok, (heldRow_eq_some_iff s op row).mpr ⟨hrow, htoken⟩]
    simp only [bind_ok, insertRow_ok]
    exact ⟨history, hinsert, rfl⟩
  unfold applyResult
  split
  · exact ⟨s, rfl⟩
  · exact harchive _
  · exact harchive _
  all_goals exact hsettle _

end Total

/-! ### Results that can be stored -/

/-- `sqlite3` can bind the result, or there is nothing to bind. -/
def ExecutorResult.Bound (r : ExecutorResult) : Prop := r.action = .superseded ∨ r.fault = none

/-- The executor ends in a result that `apply_result` can store. -/
def Execution.Storable (a : Execution) : Prop := ∃ r, a.result = .ok r ∧ r.Bound

def ExecutorCall.execution (env : FlushEnv) (a : ExecutorCall) : Execution :=
  env.execute a.world a.operation

section Returned
variable {host : Host} {op : ClaimedOperation} {r : ExecutorResult} {now : Instant} {w : World}

@[simp] theorem returned_read (result : AttemptResult) (mark : Char) :
    result.returned.read mark = result := by
  have herror : (result.error.map points).map (readAs mark) = result.error := by
    cases result.error <;> simp
  simp [ExecutorResult.read, AttemptResult.returned, herror]

@[simp] theorem returned_stored (result : AttemptResult) : result.returned.stored = result :=
  returned_read result _

/-- The texts of the provider can be encoded. -/
theorem returned_bound {result : AttemptResult}
    (h : ∀ n ∈ result.status, -INT64_END ≤ n ∧ n < INT64_END) : result.returned.Bound := by
  refine .inr ?_
  have hstatus : (result.status.any fun n => decide (n < -INT64_END ∨ INT64_END ≤ n)) = false := by
    rw [Option.any_eq_false]
    intro n hn
    have hfits := h n hn
    exact decide_eq_false (by omega)
  simp only [ExecutorResult.fault, returned_read, if_true]
  rw [show result.returned.status = result.status from rfl, hstatus, if_neg Bool.false_ne_true]

theorem applyReturned_bound (h : r.Bound) : applyReturned host op r now w =
    ((applyResult op r.stored now w.store).1, World.step host w (.applyResult op r.stored now)) := by
  unfold applyReturned
  rcases h with h | h
  · rw [h]
  · rw [h]
    split <;> first | rfl | contradiction

theorem applyReturned_unbound (host : Host) (op : ClaimedOperation) (now : Instant) (w : World)
    (h : ¬ r.Bound) : ∃ e, applyReturned host op r now w = (.error e, w) := by
  obtain ⟨haction, hfault⟩ := not_or.mp h
  obtain ⟨e, he⟩ := Option.ne_none_iff_exists'.mp hfault
  unfold applyReturned
  rw [he]
  split <;> first | exact ⟨_, rfl⟩ | contradiction

end Returned

/-! ### What an attempt leaves alone -/

/-- The calls that an executor makes on the operation it was given, and those that name none. -/
def Call.ByExecutor (op : ClaimedOperation) : Call → Prop
  | .enqueue _ _ => True
  | .reserveSequence _ _ _ => True
  | .enqueueTurn _ _ _ _ => True
  | .indexTurn _ _ _ _ _ _ => True
  | .markSessionReconcile _ _ _ _ => True
  | .recordTurnRevision _ _ => True
  | .renewClaim _ claim _ _ _ => claim = op
  | .supersede claim _ _ => claim = op
  | _ => False

/-- From `s` to `s'` only operation `i` is rewritten or archived, and what is written is stamped
`cutoff` or later. -/
structure Touches (cutoff : Instant) (i : String) (s s' : Store) : Prop where
  others : ∀ j row, j ≠ i → s.operations.find j = some row → s'.operations.find j = some row
  stamped : ∀ j row, s'.operations.find j = some row →
    s.operations.find j = some row ∨ cutoff ≤ row.updatedAt
  archived : ∀ j h, s'.history.find j = some h → s.history.find j = some h ∨ j = i
  history : ∀ j h, s.history.find j = some h → s'.history.find j = some h

section Touched
variable {host : Host} {cutoff : Instant} {i : String} {s s' s'' : Store} {c : Call} {r : Reply}
  {op : ClaimedOperation}

theorem Touches.refl : Touches cutoff i s s where
  others := fun _ _ _ h => h
  stamped := fun _ _ h => .inl h
  archived := fun _ _ h => .inl h
  history := fun _ _ h => h

theorem Touches.trans (h : Touches cutoff i s s') (h' : Touches cutoff i s' s'') :
    Touches cutoff i s s'' where
  others := fun j row hj hrow => h'.others j row hj (h.others j row hj hrow)
  stamped := by
    intro j row hrow
    rcases h'.stamped j row hrow with hrow | hstamp
    · exact h.stamped j row hrow
    · exact .inr hstamp
  archived := by
    intro j row hrow
    rcases h'.archived j row hrow with hrow | hj
    · exact h.archived j row hrow
    · exact .inr hj
  history := fun j row hrow => h'.history j row (h.history j row hrow)

theorem effect_stamp (h : Effect host s c r s') {j : String} {row : OperationRow}
    (hrow : s'.operations.find j = some row) :
    s.operations.find j = some row ∨ row.updatedAt ∈ c.readings := by
  cases h with
  | accept valid canonical fresh insert =>
    rcases KeyedTable.find_insert_cases insert hrow with ⟨-, rfl⟩ | hrow
    · exact .inr (by simp [Call.readings, pendingRow])
    · exact .inl hrow
  | turn nonempty made valid canonical named fresh insert index session =>
    rcases KeyedTable.find_insert_cases insert hrow with ⟨-, rfl⟩ | hrow
    · exact .inr (by simp [Call.readings, pendingRow])
    · exact .inl hrow
  | claim granted =>
    by_cases hj : j ∈ granted.pairs.map fun p => p.1.operationId
    · obtain ⟨p, hp, rfl⟩ := List.mem_map.mp hj
      rw [granted.taken p hp] at hrow
      cases hrow
      exact .inr (by simp [Call.readings, OperationRow.claim])
    · rw [granted.others j hj] at hrow
      exact .inl hrow
  | renew positive held token ops =>
    rw [ops] at hrow
    split at hrow
    · cases hrow
      exact .inr (by simp [Call.readings, OperationRow.renewed])
    · exact .inl hrow
  | archive action held token insert =>
    rw [KeyedTable.find_delete] at hrow
    split at hrow
    · cases hrow
    · exact .inl hrow
  | settle action held token ops =>
    rw [ops] at hrow
    split at hrow
    · cases hrow
      exact .inr (by simp [Call.readings, OperationRow.settled])
    · exact .inl hrow
  | supersede valid canonical held token fresh insert archive =>
    rw [KeyedTable.find_delete] at hrow
    split at hrow
    · cases hrow
    rcases KeyedTable.find_insert_cases insert hrow with ⟨-, rfl⟩ | hrow
    · exact .inr (by simp [Call.readings, pendingRow])
    · exact .inl hrow
  | unblock ops =>
    rw [ops, Option.map_eq_some_iff] at hrow
    obtain ⟨row₀, hrow₀, rfl⟩ := hrow
    split
    · exact .inr (by simp [Call.readings, OperationRow.unblocked])
    · exact .inl hrow₀
  | release ops =>
    rw [ops, Option.map_eq_some_iff] at hrow
    obtain ⟨row₀, hrow₀, rfl⟩ := hrow
    split
    · exact .inr (by simp [Call.readings, OperationRow.released])
    · exact .inl hrow₀
  | _ => exact .inl hrow

theorem effect_archived (h : Effect host s c r s') {j : String} {row : HistoryRow}
    (hrow : s'.history.find j = some row) :
    s.history.find j = some row ∨ (∃ op result now, c = .applyResult op result now ∧
      j = op.operationId) ∨ ∃ op replacement now, c = .supersede op replacement now ∧
        j = op.operationId ∧ row.outcome = .superseded := by
  cases h with
  | @archive op now row₀ outcome history result action held token insert =>
    rcases KeyedTable.find_insert_cases insert hrow with ⟨hj, -⟩ | hrow
    · have hid : row₀.operationId = op.operationId := KeyedTable.find_key held
      exact .inr (.inl ⟨op, result, now, rfl, hj.trans hid⟩)
    · exact .inl hrow
  | @supersede op now row₀ json hash operations history replacement valid canonical held token fresh
      insert archive =>
    rcases KeyedTable.find_insert_cases archive hrow with ⟨hj, rfl⟩ | hrow
    · have hid : row₀.operationId = op.operationId := KeyedTable.find_key held
      exact .inr (.inr ⟨op, replacement, now, rfl, hj.trans hid, rfl⟩)
    · exact .inl hrow
  | _ => exact .inl hrow

/-- A call on operation `i` whose readings are not before the cut-off. -/
theorem effect_touches (h : Effect host s c r s') (hd : s.Disjoint)
    (hcall : c.ByExecutor op ∨ ∃ result now, c = .applyResult op result now)
    (hreadings : ∀ t ∈ c.readings, cutoff ≤ t) : Touches cutoff op.operationId s s' := by
  have hchange := effect_row h
  refine ⟨fun j row hj hrow => ?_, fun j row hrow => ?_, fun j row hrow => ?_,
    fun j row hrow => effect_history h hd hrow⟩
  · have hch := hchange j
    rw [hrow] at hch
    generalize ho : s'.operations.find j = o at hch
    cases hch with
    | same => rfl
    | claimed => simp [Call.ByExecutor] at hcall
    | renewed id token =>
      simp only [Call.ByExecutor, reduceCtorEq, exists_false, or_false] at hcall
      exact absurd (hcall ▸ id.symm) hj
    | settled id action token =>
      simp only [Call.ByExecutor, false_or] at hcall
      obtain ⟨result, now, he⟩ := hcall
      cases he
      exact absurd id.symm hj
    | archived id action token =>
      simp only [Call.ByExecutor, false_or] at hcall
      obtain ⟨result, now, he⟩ := hcall
      cases he
      exact absurd id.symm hj
    | superseded id token =>
      simp only [Call.ByExecutor, reduceCtorEq, exists_false, or_false] at hcall
      exact absurd (hcall ▸ id.symm) hj
    | unblocked => simp [Call.ByExecutor] at hcall
    | released => simp [Call.ByExecutor] at hcall
  · rcases effect_stamp h hrow with hold | hstamp
    · exact .inl hold
    · exact .inr (hreadings _ hstamp)
  · rcases effect_archived h hrow with hrow | ⟨op', result, now, rfl, rfl⟩ |
      ⟨op', replacement, now, rfl, rfl, -⟩
    · exact .inl hrow
    · simp only [Call.ByExecutor, false_or] at hcall
      obtain ⟨result', now', he⟩ := hcall
      cases he
      exact .inr rfl
    · simp only [Call.ByExecutor, reduceCtorEq, exists_false, or_false] at hcall
      exact .inr (hcall ▸ rfl)

/-- The claim is in force, or its operation was archived. -/
def Store.HeldOrClosed (s : Store) (op : ClaimedOperation) : Prop :=
  s.holds op = true ∨
    s.operations.find op.operationId = none ∧ (s.history.find op.operationId).isSome = true

theorem effect_heldOrClosed (h : Effect host s c r s') (hd : s.Disjoint) (hcall : c.ByExecutor op)
    (hs : s.HeldOrClosed op) : s'.HeldOrClosed op := by
  have hch := effect_row h op.operationId
  rcases hs with hheld | ⟨hgone, hclosed⟩
  · obtain ⟨row, hrow, htoken⟩ := (holds_iff s op).mp hheld
    have hknown : s.known op.operationId = some row.mutation := by simp [Store.known, hrow]
    have hknown' := effect_known h hd hknown
    rw [hrow] at hch
    generalize ho : s'.operations.find op.operationId = o at hch
    cases hch with
    | same => exact .inl ((holds_iff s' op).mpr ⟨row, ho, htoken⟩)
    | claimed => exact hcall.elim
    | renewed id token => exact .inl ((holds_iff s' op).mpr ⟨_, ho, htoken⟩)
    | settled => exact hcall.elim
    | archived => exact hcall.elim
    | superseded =>
      refine .inr ⟨ho, ?_⟩
      rw [Store.known, ho] at hknown'
      cases hhistory : s'.history.find op.operationId with
      | none =>
        rw [hhistory] at hknown'
        cases hknown'
      | some row => rfl
    | unblocked => exact hcall.elim
    | released => exact hcall.elim
  · obtain ⟨row, hrow⟩ := Option.isSome_iff_exists.mp hclosed
    refine .inr ⟨?_, by rw [effect_history h hd hrow]; rfl⟩
    rw [hgone] at hch
    generalize ho : s'.operations.find op.operationId = o at hch
    cases hch with
    | same => rfl
    | born offer id valid canonical fresh =>
      rw [((known_eq_none_iff s _).mp fresh).2] at hrow
      cases hrow

end Touched

/-! ### Runs of the executor -/

section Executor
variable (host : Host) (cutoff : Instant) {w : World} {op : ClaimedOperation}

theorem step_touches (hd : w.store.Disjoint) {c : Call}
    (hcall : c.ByExecutor op ∨ ∃ result now, c = .applyResult op result now)
    (hreadings : ∀ t ∈ c.readings, cutoff ≤ t) :
    Touches cutoff op.operationId w.store (World.step host w c).store ∧
      (World.step host w c).store.Disjoint := by
  rcases step_cases host w c with ⟨e, he⟩ | ⟨r, s', heff, he⟩
  · rw [he]
    exact ⟨.refl, hd⟩
  · rw [he]
    exact ⟨effect_touches heff hd hcall hreadings, effect_disjoint heff hd⟩

theorem exec_touches (hd : w.store.Disjoint) {calls : List Call}
    (hcalls : ∀ c ∈ calls, c.ByExecutor op ∧ ∀ t ∈ c.readings, cutoff ≤ t) :
    Touches cutoff op.operationId w.store (Run.exec (World.step host) w calls).store ∧
      (Run.exec (World.step host) w calls).store.Disjoint := by
  induction calls generalizing w with
  | nil => exact ⟨.refl, hd⟩
  | cons c calls ih =>
    obtain ⟨hcall, hreadings⟩ := hcalls c List.mem_cons_self
    obtain ⟨htouch, hd'⟩ := step_touches host cutoff hd (.inl hcall) hreadings
    obtain ⟨hrest, hd''⟩ := ih hd' fun c' hc' => hcalls c' (List.mem_cons_of_mem _ hc')
    exact ⟨htouch.trans hrest, hd''⟩

theorem exec_heldOrClosed (hd : w.store.Disjoint) {calls : List Call}
    (hcalls : ∀ c ∈ calls, c.ByExecutor op) (hs : w.store.HeldOrClosed op) :
    (Run.exec (World.step host) w calls).store.HeldOrClosed op := by
  induction calls generalizing w with
  | nil => exact hs
  | cons c calls ih =>
    have hcall := hcalls c List.mem_cons_self
    have hrest := fun c' hc' => hcalls c' (List.mem_cons_of_mem _ hc')
    rcases step_cases host w c with ⟨e, he⟩ | ⟨r, s', heff, he⟩
    · rw [Run.exec_cons, he]
      exact ih hd hrest hs
    · rw [Run.exec_cons, he]
      exact ih (effect_disjoint heff hd) hrest (effect_heldOrClosed heff hd hcall hs)

end Executor

end SibylMemory.Outbox
