import SibylMemory.Outbox.ClaimColumns
import SibylMemory.Outbox.FlushRuns

/-!
# What a flush leaves (`outbox.py:939-976`, `1169-1217`)

A flush may find claims that a worker left behind when it died, as long as their leases have run
out. Whatever its executor returns, each operation that it attempts ends where the result puts it,
and the report counts these results.
-/

namespace SibylMemory.Outbox

/-! ### Where a result puts an operation -/

def ArchivedAs (s : Store) (i : String) (outcome : Outcome) (result : AttemptResult) : Prop :=
  s.operations.find i = none ∧ ∃ h, s.history.find i = some h ∧ h.outcome = outcome ∧
    h.lastStatus = result.status ∧ h.lastError = redactError MAX_ERROR_LENGTH result.error

def QueuedAs (s : Store) (i : String) (state : OperationState) (result : AttemptResult) : Prop :=
  ∃ row, s.operations.find i = some row ∧ row.state = state ∧
    (row.claimToken = none ∧ row.claimedBy = none ∧ row.leaseExpiresAt = none) ∧
    row.lastStatus = result.status ∧ row.lastError = redactError MAX_ERROR_LENGTH result.error

/-- Operation `i` is where `apply_result` puts it. What an executor reports as superseded it has
archived itself. -/
def Filed (s : Store) (i : String) (result : AttemptResult) : Prop :=
  match result.action with
  | .succeed => ArchivedAs s i (if result.replayed then .replayed else .succeeded) result
  | .obsolete => ArchivedAs s i .obsolete result
  | .superseded => True
  | .retry => QueuedAs s i .pending result
  | .blockAuth => QueuedAs s i .blockedAuth result
  | .deadLetter => QueuedAs s i .deadLetter result
  | .recover => QueuedAs s i .pendingRecovery result
  | .reconcileRevision => QueuedAs s i .reconcileRevision result

section Filed
variable {s s' : Store} {i : String} {result : AttemptResult}

theorem ArchivedAs.mono (hd : s'.Disjoint)
    (hhistory : ∀ h, s.history.find i = some h → s'.history.find i = some h) {outcome : Outcome}
    (h : ArchivedAs s i outcome result) : ArchivedAs s' i outcome result := by
  obtain ⟨-, row, hrow, hrest⟩ := h
  have hrow' := hhistory row hrow
  refine ⟨?_, row, hrow', hrest⟩
  rcases hd i with hgone | hnone
  · exact hgone
  · rw [hnone] at hrow'
    cases hrow'

theorem QueuedAs.mono (hrows : ∀ row, s.operations.find i = some row → s'.operations.find i = some row)
    {state : OperationState} (h : QueuedAs s i state result) : QueuedAs s' i state result := by
  obtain ⟨row, hrow, hrest⟩ := h
  exact ⟨row, hrows row hrow, hrest⟩

theorem Filed.mono (hd : s'.Disjoint)
    (hrows : ∀ row, s.operations.find i = some row → s'.operations.find i = some row)
    (hhistory : ∀ h, s.history.find i = some h → s'.history.find i = some h)
    (h : Filed s i result) : Filed s' i result := by
  unfold Filed at h ⊢
  split at h
  · exact h.mono hd hhistory
  · exact h.mono hd hhistory
  · trivial
  all_goals exact h.mono hrows

theorem applied_filed {op : ClaimedOperation} {now : Instant}
    (h : applyResult op result now s = (.ok (), s')) : Filed s' op.operationId result := by
  have heff : Effect Host.plain s _ _ s' := applyResult_effect h
  cases heff with
  | skip action => simp only [Filed, action]
  | @archive op now row outcome history result action held token insert =>
    have hfile : ArchivedAs { s with history, operations := s.operations.delete op.operationId }
        op.operationId outcome result := by
      refine ⟨by rw [KeyedTable.find_delete, if_pos rfl], row.archived outcome now none result.status
        (redactError MAX_ERROR_LENGTH result.error), ?_, rfl, rfl, rfl⟩
      rw [KeyedTable.find_insert insert, if_pos]
      exact (KeyedTable.find_key held).symm
    rcases action with ⟨rfl, haction⟩ | ⟨haction, rfl⟩
    · simpa only [Filed, haction] using hfile
    · simpa only [Filed, haction] using hfile
  | @settle op now row state operations result action held token ops =>
    have hfile : QueuedAs { s with operations } op.operationId state result := by
      refine ⟨row.settled state result now, ?_, rfl, ⟨rfl, rfl, rfl⟩, rfl, rfl⟩
      exact (ops op.operationId).trans (if_pos rfl)
    simp only [List.mem_cons, Prod.mk.injEq, List.not_mem_nil, or_false] at action
    rcases action with ⟨haction, rfl⟩ | ⟨haction, rfl⟩ | ⟨haction, rfl⟩ | ⟨haction, rfl⟩ |
      ⟨haction, rfl⟩
    all_goals simpa only [Filed, haction] using hfile

theorem filed_delivered (h : Filed s i result) (haction : result.action = .succeed) :
    s.operations.find i = none ∧ s.delivered i := by
  simp only [Filed, haction] at h
  obtain ⟨hgone, row, hrow, houtcome, -⟩ := h
  refine ⟨hgone, ?_⟩
  rw [Store.delivered, Store.historyOutcome, hrow, Option.map_some, houtcome]
  cases result.replayed <;> simp

theorem filed_claimed (h : Filed s i result) {row : OperationRow}
    (hrow : s.operations.find i = some row) (hclaimed : row.claimToken.isSome) :
    result.action = .superseded := by
  have hqueued : ∀ {state}, ¬ QueuedAs s i state result := by
    rintro state ⟨row', hrow', -, ⟨hfree, -, -⟩, -⟩
    rw [hrow] at hrow'
    cases hrow'
    rw [hfree] at hclaimed
    cases hclaimed
  have harchived : ∀ {outcome}, ¬ ArchivedAs s i outcome result := by
    rintro outcome ⟨hgone, -⟩
    rw [hrow] at hgone
    cases hgone
  unfold Filed at h
  split at h
  · exact absurd h harchived
  · exact absurd h harchived
  · assumption
  all_goals exact absurd h hqueued

end Filed

/-! ### The account of a flush -/

/-- The calls of the executor with the results it returned. -/
abbrev Results := List (ExecutorCall × AttemptResult)

/-- `p.2` is what the executor returned on the call. -/
def ReturnedBy (env : FlushEnv) (p : ExecutorCall × AttemptResult) : Prop :=
  ∃ r, (p.1.execution env).result = .ok r ∧ r.Bound ∧ r.stored = p.2

/-- What a flush has attempted so far, with the results. -/
structure Settled (env : FlushEnv) (w : World) (results : Results) (st : FlushState) : Prop where
  attempted : results.map Prod.fst = st.attempts
  counted : ∀ action, st.outcomes action = results.countP fun p => decide (p.2.action = action)
  returned : ∀ p ∈ results, ReturnedBy env p
  filed : ∀ p ∈ results, Filed st.world.store p.1.operation.operationId p.2
  others : ∀ i row, w.store.operations.find i = some row →
    i ∉ st.claims.map ClaimedOperation.operationId → st.world.store.operations.find i = some row

section Settled
variable {env : FlushEnv} {w : World} {pend : List ClaimedOperation} {st : FlushState}
  {results : Results}

theorem Settled.ids (h : Settled env w results st) :
    results.map (fun p => p.1.operation.operationId) = st.attempted := by
  rw [FlushState.attempted, ← h.attempted, List.map_map]
  rfl

theorem Settled.mem_attempted (h : Settled env w results st) {i : String} :
    i ∈ st.attempted ↔ ∃ p ∈ results, p.1.operation.operationId = i := by
  rw [← h.ids, List.mem_map]

theorem Settled.not_pending (h : Settled env w results st) (hinv : FlushInv env w pend st)
    {p : ExecutorCall × AttemptResult} (hp : p ∈ results) :
    p.1.operation.operationId ∉ pend.map ClaimedOperation.operationId :=
  hinv.account.not_pending (h.mem_attempted.mpr ⟨p, hp, rfl⟩)

/-- A row that the flush did not find at its start belongs to an operation unknown then. -/
theorem newcomer_unknown (hinv : FlushInv env w pend st) {i : String} {row : OperationRow}
    (hstart : w.store.operations.find i = none)
    (hrow : st.world.store.operations.find i = some row) : w.store.known i = none := by
  refine (known_eq_none_iff _ _).mpr ⟨hstart, ?_⟩
  cases hclosed : w.store.history.find i with
  | none => rfl
  | some h =>
    rcases hinv.disjoint i with hgone | hopen
    · rw [hgone] at hrow
      cases hrow
    · rw [hinv.history i h hclosed] at hopen
      cases hopen

theorem settled_page (hr : env.Regular) {claims : List ClaimedOperation}
    (hinv : FlushInv env w [] st) (h : Settled env w results st)
    (hclaims : (claimPage env.config (env.page (env.now w) st.world) st.world.store).1 = .ok claims) :
    Settled env w results
      ((st.call env (.claimPage env.config (env.page (env.now w) st.world))).grant claims) := by
  obtain ⟨s', hclaim⟩ : ∃ s', claimPage env.config (env.page (env.now w) st.world) st.world.store =
      (.ok claims, s') := ⟨_, Prod.ext hclaims rfl⟩
  have hinv' := claim_flush hinv hclaim hr.clock
  have hstore : (World.step env.host st.world (.claimPage env.config
      (env.page (env.now w) st.world))).store = s' := by
    show (claimPage env.config (env.page (env.now w) st.world) st.world.store).2 = s'
    rw [hclaim]
  have heff : Effect env.host _ _ _ s' := claimPage_effect hclaim
  have hd := effect_disjoint heff hinv.disjoint
  refine ⟨h.attempted, h.counted, h.returned, fun p hp => ?_, hinv'.untouched⟩
  have hnot : p.1.operation.operationId ∉ claims.map ClaimedOperation.operationId :=
    hinv'.account.not_pending (h.mem_attempted.mpr ⟨p, hp, rfl⟩)
  show Filed (World.step env.host st.world _).store p.1.operation.operationId p.2
  rw [hstore]
  cases heff with
  | claim granted =>
    exact (h.filed p hp).mono hd (fun row hrow => (granted.not_claimed hnot).trans hrow)
      fun _ hrow => hrow

theorem settled_attempt (hr : env.Regular) {op : ClaimedOperation} {ops : List ClaimedOperation}
    {r : ExecutorResult} (hinv : FlushInv env w (op :: ops) st) (h : Settled env w results st)
    (hresult : (env.execute st.world op).result = .ok r) (hb : r.Bound) :
    Settled env w (results ++ [(⟨st.world, op⟩, r.stored)]) (st.after env op r.stored) := by
  obtain ⟨hheld, happly, htouch, hd⟩ := attempt_filed hr hinv hresult
  refine ⟨?_, fun action => ?_, fun p hp => ?_, fun p hp => ?_,
    (attempt_flush hr hinv hresult hb).2.untouched⟩
  · rw [List.map_append, h.attempted]
    rfl
  · rw [List.countP_append, ← h.counted]
    simp only [FlushState.after, FlushState.count, Function.update_apply, List.countP_singleton,
      decide_eq_true_eq]
    by_cases ha : action = r.stored.action
    · rw [if_pos ha, if_pos ha.symm, ha]
    · rw [if_neg ha, if_neg (fun he => ha he.symm)]
      rfl
  · rcases List.mem_append.mp hp with hp | hp
    · exact h.returned p hp
    · rw [List.mem_singleton.mp hp]
      exact ⟨r, hresult, hb, rfl⟩
  · rcases List.mem_append.mp hp with hp | hp
    · have hne : p.1.operation.operationId ≠ op.operationId :=
        fun he => h.not_pending hinv hp (by simp [he])
      exact (h.filed p hp).mono hd (htouch.others _ · hne) (htouch.history _)
    · rw [List.mem_singleton.mp hp]
      exact applied_filed happly

theorem settled_release (hinv : FlushInv env w pend st) (h : Settled env w results st) :
    Settled env w results (st.call env (.releaseUnattempted pend (env.now st.world))) := by
  obtain ⟨s', hs', -⟩ := release_lapsed hinv
  have hstore : (World.step env.host st.world
      (.releaseUnattempted pend (env.now st.world))).store = s' := by
    show (releaseUnattempted pend (env.now st.world) st.world.store).2 = s'
    rw [hs']
  have heff : Effect env.host _ _ _ s' := releaseUnattempted_effect hs'
  have hd := effect_disjoint heff hinv.disjoint
  -- only the rows of the claims given back are written
  have hkept : ∀ i, i ∉ pend.map ClaimedOperation.operationId →
      ∀ row, st.world.store.operations.find i = some row → s'.operations.find i = some row := by
    intro i hi row hrow
    cases heff with
    | release ops =>
      rw [ops, hrow, Option.map_some, if_neg]
      intro hheld
      obtain ⟨c, hc, hby⟩ := List.any_eq_true.mp hheld
      rw [← KeyedTable.find_key hrow, ((heldBy_iff c row).mp hby).1] at hi
      exact hi (List.mem_map_of_mem hc)
  refine ⟨h.attempted, h.counted, h.returned, fun p hp => ?_, fun i row hrow hi => ?_⟩
  · show Filed (World.step env.host st.world _).store p.1.operation.operationId p.2
    rw [hstore]
    refine (h.filed p hp).mono hd (hkept _ (h.not_pending hinv hp)) fun row hrow => ?_
    exact effect_history heff hinv.disjoint hrow
  · show (World.step env.host st.world _).store.operations.find i = some row
    rw [hstore]
    refine hkept i (fun hmem => hi ?_) row (h.others i row hrow hi)
    show i ∈ st.claims.map ClaimedOperation.operationId
    rw [hinv.account.ids]
    exact List.mem_append_right _ hmem

theorem settled_keeps (hr : env.Regular) (w : World) :
    env.Keeps w fun st => ∃ results, Settled env w results st where
  page := fun _ _ hinv ⟨results, h⟩ hclaims => ⟨results, settled_page hr hinv h hclaims⟩
  attempt := fun _ _ _ _ hinv ⟨_, h⟩ hresult hb => ⟨_, settled_attempt hr hinv h hresult hb⟩
  release := fun _ _ hinv ⟨results, h⟩ => ⟨results, settled_release hinv h⟩

theorem settled_start (env : FlushEnv) (w : World) : Settled env w [] { world := w } where
  attempted := rfl
  counted := fun _ => rfl
  returned := List.forall_mem_nil _
  filed := List.forall_mem_nil _
  others := fun _ _ hrow _ => hrow

end Settled

/-- Every result of the executor on a claim in force can be stored. -/
def FlushEnv.Storing (env : FlushEnv) : Prop :=
  ∀ w op, w.store.holds op = true → (env.execute w op).Storable

/-- A flush whose results can be stored returns, and its attempts are settled. -/
theorem flush_settles {env : FlushEnv} {w : World} (hr : env.Regular)
    (hs : w.store.Lapsed (env.now w)) (hstoring : env.Storing) :
    ∃ exhausted st results, Settled env w results st ∧
      FlushEnd env w (fun st => ∃ results, Settled env w results st) exhausted st ∧
      ∀ fuel, w.store.operations.rows.length < fuel →
        flush env fuel w = some (.ok ⟨st.claimed, st.outcomes, exhausted⟩, st) := by
  obtain ⟨out, st, hflush, ⟨-, hstopped⟩ | ⟨exhausted, rfl, hend⟩⟩ :=
    flush_ends hr hs (settled_keeps hr w) ⟨[], settled_start env w⟩
  · obtain ⟨a, ha, hnot⟩ := hstopped.unstorable
    exact absurd (hstoring a.world a.operation (hstopped.ran.held a ha)) hnot
  · obtain ⟨results, hsettled⟩ := hend.kept
    exact ⟨exhausted, st, results, hsettled, hend, hflush⟩

/-! ### Results -/

theorem settled_claimed {env : FlushEnv} {w : World} {pend : List ClaimedOperation}
    {st : FlushState} {results : Results} (haccount : FlushAccount env w pend st)
    (hsettled : Settled env w results st) : st.claimed = results.length := by
  rw [haccount.claimed, ← hsettled.attempted, List.length_map]

/-- A flush returns, with or without a deadline, and its report is the account of its calls of the
executor: it counts their results by action, each operation attempted is where its result puts it,
and every other one is as it was, or as it was but for a claim given back. Unless the deadline
passed it attempts exactly what it reaches. -/
theorem flush_reports {env : FlushEnv} {w : World} (hr : env.Regular)
    (hs : w.store.Lapsed (env.now w)) (hstoring : env.Storing) :
    ∃ report st, ∃ results : Results,
      (∀ fuel, w.store.operations.rows.length < fuel → flush env fuel w = some (.ok report, st)) ∧
      (env.Ran w st.claims st.attempts st.world ∧ results.map Prod.fst = st.attempts ∧
        st.attempted.Nodup) ∧
      (∀ p ∈ results, ReturnedBy env p ∧ Filed st.world.store p.1.operation.operationId p.2) ∧
      (report.claimed = results.length ∧
        ∀ action, report.outcomes action = results.countP fun p => decide (p.2.action = action)) ∧
      (report.deadlineExhausted = true → env.Overdue w st) ∧
      (report.deadlineExhausted = false →
        ∀ i, i ∈ st.attempted ↔ Reached w.store st.world.store i) ∧
      ∀ i row, w.store.operations.find i = some row → i ∉ st.attempted →
        st.world.store.operations.find i = some row ∨
        ∃ now, st.world.store.operations.find i = some { row with
          updatedAt := now, claimToken := none, claimedBy := none, leaseExpiresAt := none } := by
  obtain ⟨exhausted, st, results, hsettled, hend, hflush⟩ := flush_settles hr hs hstoring
  obtain ⟨pend, haccount, hgiven⟩ := hend.account
  refine ⟨_, st, results, hflush, ⟨haccount.ran, hsettled.attempted, haccount.attempted_nodup⟩,
    fun p hp => ⟨hsettled.returned p hp, hsettled.filed p hp⟩,
    ⟨settled_claimed haccount hsettled, hsettled.counted⟩, hend.overdue,
    fun he i => ⟨haccount.attempted_reached, (hend.complete he).2 i⟩, fun i row hrow hi => ?_⟩
  by_cases hclaimed : i ∈ st.claims.map ClaimedOperation.operationId
  · obtain ⟨c, hc, rfl⟩ := haccount.pending_of_claimed hclaimed hi
    obtain ⟨row', now, hrow', hfind⟩ := hgiven c hc
    rw [hrow] at hrow'
    cases hrow'
    exact .inr ⟨now, hfind⟩
  · exact .inl (hsettled.others i row hrow hclaimed)

/-- What is delivered if every attempt succeeds. -/
inductive Deliverable (s : Store) : String → Prop where
  | ready {i row} (find : s.operations.find i = some row) (claimable : row.state.claimable = true)
      (met : s.dependencyMet row.dependsOn = true) : Deliverable s i
  | chained {i d row} (find : s.operations.find i = some row)
      (claimable : row.state.claimable = true) (depends : row.dependsOn = some d)
      (dependency : Deliverable s d) : Deliverable s i

theorem Deliverable.present {s : Store} {i : String} (h : Deliverable s i) :
    ∃ row, s.operations.find i = some row := by
  cases h with
  | ready find => exact ⟨_, find⟩
  | chained find => exact ⟨_, find⟩

theorem Reached.deliverable {s s' : Store} {i : String} (h : Reached s s' i) : Deliverable s i := by
  induction h with
  | ready find claimable met => exact .ready find claimable met
  | unlocked find claimable depends _ _ _ ih => exact .chained find claimable depends ih

theorem Deliverable.reached {s s' : Store} (hd : s.Disjoint)
    (hdelivered : ∀ i, Reached s s' i → s'.delivered i) {i : String} (h : Deliverable s i) :
    Reached s s' i := by
  induction h with
  | ready find claimable met => exact .ready find claimable met
  | chained find claimable depends dependency ih =>
    refine .unlocked find claimable depends ih ?_ (hdelivered _ ih)
    obtain ⟨row, hrow⟩ := dependency.present
    refine (hd _).resolve_left fun hnone => ?_
    rw [hnone] at hrow
    cases hrow

/-- Whatever is attempted under a claim in force succeeds. -/
def FlushEnv.Succeeds (env : FlushEnv) : Prop :=
  ∀ w op, w.store.holds op = true →
    ∃ r, (env.execute w op).result = .ok r ∧ r.fault = none ∧ r.action = .succeed

theorem FlushEnv.Succeeds.storing {env : FlushEnv} (h : env.Succeeds) : env.Storing := by
  intro w op hheld
  obtain ⟨r, hresult, hfault, -⟩ := h w op hheld
  exact ⟨r, hresult, .inr hfault⟩

/-- A flush without a deadline whose attempts succeed drains the outbox: what it can deliver, in
however long a chain of dependencies, is delivered in this one flush, and what stays is what was
not deliverable, as it was, and what came in meanwhile. -/
theorem flush_drains {env : FlushEnv} {w : World} (hr : env.Regular)
    (hs : w.store.Lapsed (env.now w)) (hnone : env.timeoutSeconds = none) (hok : env.Succeeds) :
    ∃ report st,
      (∀ fuel, w.store.operations.rows.length < fuel → flush env fuel w = some (.ok report, st)) ∧
      env.Ran w st.claims st.attempts st.world ∧
      report.claimed = st.attempted.length ∧ report.outcomes .succeed = st.attempted.length ∧
      st.attempted.Nodup ∧ (∀ i, i ∈ st.attempted ↔ Deliverable w.store i) ∧
      (∀ i, Deliverable w.store i →
        st.world.store.operations.find i = none ∧ st.world.store.delivered i) ∧
      ∀ i row, st.world.store.operations.find i = some row ↔
        (w.store.operations.find i = some row ∧ ¬ Deliverable w.store i) ∨
        (w.store.known i = none ∧ st.world.store.operations.find i = some row) := by
  obtain ⟨exhausted, st, results, hsettled, hend, hflush⟩ := flush_settles hr hs hok.storing
  obtain ⟨hinv, hreached⟩ := hend.undated hnone
  have hclaims := hinv.account.settled_ids
  have hsucceed : ∀ p ∈ results, p.2.action = .succeed := by
    intro p hp
    have hmem : p.1 ∈ st.attempts := by
      rw [← hsettled.attempted]
      exact List.mem_map_of_mem hp
    obtain ⟨r, hresult, -, hstored⟩ := hsettled.returned p hp
    obtain ⟨r', hresult', -, haction⟩ :=
      hok p.1.world p.1.operation (hinv.account.ran.held p.1 hmem)
    rw [ExecutorCall.execution, hresult'] at hresult
    cases hresult
    rw [← hstored]
    exact haction
  have hdelivered : ∀ i ∈ st.attempted,
      st.world.store.operations.find i = none ∧ st.world.store.delivered i := by
    intro i hi
    obtain ⟨p, hp, rfl⟩ := hsettled.mem_attempted.mp hi
    exact filed_delivered (hsettled.filed p hp) (hsucceed p hp)
  have hlength : results.length = st.attempted.length := by
    rw [← hsettled.ids, List.length_map]
  have hcount : st.outcomes .succeed = st.attempted.length := by
    rw [hsettled.counted, ← hlength, List.countP_eq_length]
    exact fun p hp => decide_eq_true (hsucceed p hp)
  have hiff : ∀ i, i ∈ st.attempted ↔ Deliverable w.store i := by
    refine fun i => ⟨fun hi => ?_, fun h => ?_⟩
    · exact (hinv.account.attempted_reached hi).deliverable
    · exact hreached i (h.reached hs.disjoint fun j hj => (hdelivered j (hreached j hj)).2)
  refine ⟨_, st, hflush, hinv.account.ran, (settled_claimed hinv.account hsettled).trans hlength,
    hcount, hinv.account.attempted_nodup, hiff, fun i h => hdelivered i ((hiff i).mpr h), fun i row => ⟨fun hrow => ?_, ?_⟩⟩
  · have hnot : ¬ Deliverable w.store i := by
      intro h
      rw [(hdelivered i ((hiff i).mpr h)).1] at hrow
      cases hrow
    cases hstart : w.store.operations.find i with
    | some row' =>
      have hkept := hinv.untouched i row' hstart (by rw [hclaims, hiff]; exact hnot)
      rw [hrow] at hkept
      cases hkept
      exact .inl ⟨rfl, hnot⟩
    | none => exact .inr ⟨newcomer_unknown hinv hstart hrow, hrow⟩
  · rintro (⟨hstart, hnot⟩ | ⟨-, hrow⟩)
    · exact hinv.untouched i row hstart (by rw [hclaims, hiff]; exact hnot)
    · exact hrow

/-! ### Three operations -/

theorem queuedSample_lapsed : queuedSample.store.Lapsed 10 := queuedSample_idle.lapsed

theorem flush_reports_sample : ∃ report st, ∃ results : Results,
    flush mixedFlush 4 queuedSample = some (.ok report, st) ∧
    results.map Prod.fst = st.attempts ∧ report.claimed = results.length ∧
    (∀ i ∈ ["a", "b", "c"], i ∈ st.attempted) ∧
    ∀ p ∈ results, Filed st.world.store p.1.operation.operationId p.2 := by
  have hruns : (flush mixedFlush 4 queuedSample).map (fun out => out.2.attempted) =
      some ["a", "b", "c"] := by decide +kernel
  have hr : mixedFlush.Regular := sampleFlush_regular _
  obtain ⟨report, st, results, hflush, ⟨-, hattempted, -⟩, hfiled, ⟨hclaimed, -⟩, -⟩ :=
    flush_reports hr queuedSample_lapsed fun w op _ => mixed_storable ⟨w, op⟩
  have hended := hflush 4 (by decide)
  rw [hended, Option.map_some, Option.some.injEq] at hruns
  refine ⟨report, st, results, hended, hattempted, hclaimed, fun i hi => ?_,
    fun p hp => (hfiled p hp).2⟩
  rw [show st.attempted = ["a", "b", "c"] from hruns]
  exact hi

theorem flush_drains_sample : ∃ report st,
    flush sampleFlush 4 queuedSample = some (.ok report, st) ∧ report.claimed = 3 ∧
    st.world.store.delivered "b" := by
  have hruns : (flush sampleFlush 4 queuedSample).map (fun out => out.2.attempted) =
      some ["a", "b", "c"] := by decide +kernel
  have hr : sampleFlush.Regular := sampleFlush_regular _
  have hok : sampleFlush.Succeeds := fun _ _ _ =>
    ⟨(AttemptResult.success false (some 200)).returned, rfl, by decide +kernel, rfl⟩
  obtain ⟨report, st, hflush, -, hclaimed, -, -, -, hdelivered, -⟩ :=
    flush_drains hr queuedSample_lapsed rfl hok
  have hended := hflush 4 (by decide)
  rw [hended, Option.map_some, Option.some.injEq] at hruns
  obtain ⟨a, ha, hastate, hadepends⟩ : ∃ row, queuedSample.store.operations.find "a" = some row ∧
      row.state.claimable = true ∧ row.dependsOn = none := ⟨_, rfl, rfl, rfl⟩
  obtain ⟨b, hb, hbstate, hbdepends⟩ : ∃ row, queuedSample.store.operations.find "b" = some row ∧
      row.state.claimable = true ∧ row.dependsOn = some "a" := ⟨_, rfl, rfl, rfl⟩
  refine ⟨report, st, hended, ?_, (hdelivered "b" ?_).2⟩
  · rw [hclaimed, show st.attempted = ["a", "b", "c"] from hruns]
    rfl
  · exact .chained hb hbstate hbdepends (.ready ha hastate (by rw [hadepends]; rfl))

end SibylMemory.Outbox
