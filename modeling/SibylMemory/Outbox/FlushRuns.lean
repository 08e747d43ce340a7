import SibylMemory.Outbox.Flush
import Mathlib.Data.List.Induction

/-!
# What one flush does

While a flush runs, a row of the queue is as it was before, claimed and still to be attempted, or
written after the cut-off. Only the first kind can be selected, so every operation has at most one
attempt, and the loop ends when none is left whose dependency is met.
-/

namespace SibylMemory.Outbox
open JsonText (points)

/-! ### What a flush starts from -/

/-- An executor works on the operation it was given, and says so if it has superseded it: with any
other result the claim would be lost. -/
structure Execution.Fair (host : Host) (now : Instant) (w : World) (op : ClaimedOperation)
    (a : Execution) : Prop where
  calls : ∀ c ∈ a.calls, c.ByExecutor op ∧ ∀ t ∈ c.readings, now ≤ t
  superseded : (Run.exec (World.step host) w a.calls).store.operations.find op.operationId = none →
    ∃ result, a.outcome = .ok result ∧ result.action = .superseded

/-- Valid arguments, a clock that does not go back, and a fair executor. -/
structure FlushEnv.Regular (env : FlushEnv) : Prop where
  worker : env.workerId ≠ ""
  size : 1 ≤ env.pageSize
  timeout : ∀ t, env.timeoutSeconds = some t → 0 ≤ t
  clock : ∀ w calls, env.now w ≤ env.now (Run.exec (World.step env.host) w calls)
  executor : ∀ w op, w.store.holds op = true →
    (env.execute w op).Fair env.host (env.now w) w op

/-- A queue in which nothing is claimed and nothing was written at or after `now`. -/
structure Store.Idle (s : Store) (now : Instant) : Prop where
  disjoint : s.Disjoint
  objects : ∀ row ∈ s.operations.rows, ∃ request, row.request = .dict request
  free : ∀ row ∈ s.operations.rows,
    row.claimToken = none ∧ row.claimedBy = none ∧ row.leaseExpiresAt = none
  passed : ∀ row ∈ s.operations.rows, row.updatedAt < now

/-- Every claim has run out at `now`, and nothing was written at or after it. -/
structure Store.Lapsed (s : Store) (now : Instant) : Prop where
  disjoint : s.Disjoint
  objects : ∀ row ∈ s.operations.rows, ∃ request, row.request = .dict request
  unleased : ∀ row ∈ s.operations.rows, row.unleased now = true
  passed : ∀ row ∈ s.operations.rows, row.updatedAt < now

theorem unleased_mono {row : OperationRow} {now later : Instant} (hle : now ≤ later)
    (h : row.unleased now = true) : row.unleased later = true := by
  unfold OperationRow.unleased at h ⊢
  split at h
  · rfl
  · rename_i expires htoken hlease
    simp only [decide_eq_true_eq] at h ⊢
    exact h.trans hle
  · cases h

theorem Store.Idle.lapsed {s : Store} {now : Instant} (h : s.Idle now) : s.Lapsed now where
  disjoint := h.disjoint
  objects := h.objects
  unleased := fun row hrow => by simp [OperationRow.unleased, (h.free row hrow).1]
  passed := h.passed

/-- The operations that a flush from `s` to `s'` has to attempt: those that can be claimed at the
start, and those unlocked by a dependency that was delivered meanwhile. -/
inductive Reached (s s' : Store) : String → Prop where
  | ready {i row} (find : s.operations.find i = some row) (claimable : row.state.claimable = true)
      (met : s.dependencyMet row.dependsOn = true) : Reached s s' i
  | unlocked {i d row} (find : s.operations.find i = some row)
      (claimable : row.state.claimable = true) (depends : row.dependsOn = some d)
      (dependency : Reached s s' d) (before : s.history.find d = none) (delivered : s'.delivered d) :
      Reached s s' i

section Reached
variable {s s' s'' : Store} {i : String}

theorem dependencyMet_some (s : Store) (d : String) :
    s.dependencyMet (some d) = true ↔ s.delivered d := by
  unfold Store.dependencyMet Store.delivered Store.historyOutcome
  cases hf : s.history.find d with
  | none => simp [hf]
  | some h => simp [hf]

theorem delivered_mono (h : ∀ j row, s.history.find j = some row → s'.history.find j = some row)
    (hd : s.delivered i) : s'.delivered i := by
  unfold Store.delivered Store.historyOutcome at hd ⊢
  cases hi : s.history.find i with
  | none => simp [hi] at hd
  | some row =>
    rw [hi] at hd
    rw [h i row hi]
    exact hd

theorem Reached.mono (h : ∀ j row, s'.history.find j = some row → s''.history.find j = some row)
    (hr : Reached s s' i) : Reached s s'' i := by
  induction hr with
  | ready find claimable met => exact .ready find claimable met
  | unlocked find claimable depends _ before delivered ih =>
    exact .unlocked find claimable depends ih before (delivered_mono h delivered)

theorem Reached.present (h : Reached s s' i) : ∃ row, s.operations.find i = some row := by
  cases h with
  | ready find => exact ⟨_, find⟩
  | unlocked find => exact ⟨_, find⟩

end Reached

/-! ### The steps of a flush -/

/-- The outbox after `attemptOperation`. -/
def FlushEnv.settled (env : FlushEnv) (w : World) (op : ClaimedOperation) : World :=
  match (env.execute w op).result with
  | .error _ => env.executed w op
  | .ok result =>
    (applyReturned env.host op result (env.now (env.executed w op)) (env.executed w op)).2

/-- The steps that lead a flush from `w` to an outbox, with the claims of its pages and its calls of
the executor: each is on one of these claims while it is in force, and its result is applied to what
the executor left. -/
inductive FlushEnv.Ran (env : FlushEnv) (w : World) :
    List ClaimedOperation → List ExecutorCall → World → Prop where
  | start : env.Ran w [] [] w
  | page {claims calls world granted s'} (before : env.Ran w claims calls world)
      (page : claimPage env.config (env.page (env.now w) world) world.store = (.ok granted, s')) :
      env.Ran w (claims ++ granted) calls
        (World.step env.host world (.claimPage env.config (env.page (env.now w) world)))
  | attempt {claims calls world op} (before : env.Ran w claims calls world) (mem : op ∈ claims)
      (held : world.store.holds op = true) :
      env.Ran w claims (calls ++ [⟨world, op⟩]) (env.settled world op)
  | release {claims calls world ops} (before : env.Ran w claims calls world)
      (mem : ∀ op ∈ ops, op ∈ claims) :
      env.Ran w claims calls
        (World.step env.host world (.releaseUnattempted ops (env.now world)))

section Ran
variable {env : FlushEnv} {w world : World} {st : FlushState} {op : ClaimedOperation}
  {r : ExecutorResult} {claims : List ClaimedOperation} {calls : List ExecutorCall}

theorem settled_cases (env : FlushEnv) (w : World) (op : ClaimedOperation) :
    env.settled w op = env.executed w op ∨ ∃ result, env.settled w op =
      World.step env.host (env.executed w op) (.applyResult op result (env.now (env.executed w op))) := by
  unfold FlushEnv.settled
  split
  · exact .inl rfl
  · rename_i r hresult
    by_cases hb : r.Bound
    · exact .inr ⟨r.stored, by rw [applyReturned_bound hb]⟩
    · obtain ⟨e, he⟩ := applyReturned_unbound env.host op (env.now (env.executed w op))
        (env.executed w op) hb
      exact .inl (by rw [he])

theorem settled_exec (env : FlushEnv) (w : World) (op : ClaimedOperation) :
    ∃ calls, env.settled w op = Run.exec (World.step env.host) w calls := by
  rcases settled_cases env w op with h | ⟨result, h⟩
  · exact ⟨_, h⟩
  · refine ⟨(env.execute w op).calls ++ [.applyResult op result (env.now (env.executed w op))], ?_⟩
    rw [h, Run.exec_append]
    rfl

theorem FlushEnv.Ran.exec (h : env.Ran w claims calls world) :
    ∃ done, world = Run.exec (World.step env.host) w done := by
  induction h with
  | start => exact ⟨[], rfl⟩
  | page before page ih =>
    obtain ⟨done, rfl⟩ := ih
    exact ⟨done ++ [_], by rw [Run.exec_append]; rfl⟩
  | @attempt claims calls world op before mem held ih =>
    obtain ⟨done, rfl⟩ := ih
    obtain ⟨more, hmore⟩ := settled_exec env (Run.exec (World.step env.host) w done) op
    exact ⟨done ++ more, by rw [Run.exec_append, hmore]⟩
  | release before mem ih =>
    obtain ⟨done, rfl⟩ := ih
    exact ⟨done ++ [_], by rw [Run.exec_append]; rfl⟩

theorem FlushEnv.Ran.held (h : env.Ran w claims calls world) :
    ∀ a ∈ calls, a.world.store.holds a.operation = true := by
  induction h with
  | start => exact List.forall_mem_nil _
  | page before page ih => exact ih
  | @attempt claims calls world op before mem held ih =>
    intro a ha
    rcases List.mem_append.mp ha with ha | ha
    · exact ih a ha
    · rw [List.mem_singleton.mp ha]
      exact held
  | release before mem ih => exact ih

/-- The state behind an attempt that returns. -/
def FlushState.after (env : FlushEnv) (st : FlushState) (op : ClaimedOperation)
    (result : AttemptResult) : FlushState :=
  FlushState.count
    { st with
      world := World.step env.host (env.executed st.world op)
        (.applyResult op result (env.now (env.executed st.world op))),
      claimed := st.claimed + 1,
      attempts := st.attempts ++ [⟨st.world, op⟩] }
    result.action

theorem after_settled (hresult : (env.execute st.world op).result = .ok r) (hb : r.Bound) :
    (st.after env op r.stored).world = env.settled st.world op := by
  simp only [FlushEnv.settled, hresult, applyReturned_bound hb]
  rfl

/-- What an attempt leaves of the state, whatever comes of it. -/
theorem attempt_state (env : FlushEnv) (st : FlushState) (op : ClaimedOperation) :
    (attemptOperation env st op).2.world = env.settled st.world op ∧
      (attemptOperation env st op).2.claims = st.claims ∧
      (attemptOperation env st op).2.attempts = st.attempts ++ [⟨st.world, op⟩] := by
  unfold attemptOperation FlushEnv.settled
  cases hresult : (env.execute st.world op).result with
  | error e => exact ⟨rfl, rfl, rfl⟩
  | ok r =>
    dsimp only
    cases happly : applyReturned env.host op r (env.now (env.executed st.world op))
        (env.executed st.world op) with
    | mk out world => cases out <;> exact ⟨rfl, rfl, rfl⟩

theorem attempt_unstorable (h : ¬ (env.execute st.world op).Storable) :
    ∃ e, (attemptOperation env st op).1 = .error e := by
  unfold attemptOperation
  cases hresult : (env.execute st.world op).result with
  | error e => exact ⟨e, rfl⟩
  | ok r =>
    have hb : ¬ r.Bound := fun hb => h ⟨r, hresult, hb⟩
    obtain ⟨e, he⟩ := applyReturned_unbound env.host op (env.now (env.executed st.world op))
      (env.executed st.world op) hb
    exact ⟨e, by simp only [he]⟩

end Ran

/-! ### The invariant -/

def totalOutcomes (outcomes : ResultAction → Nat) : Nat :=
  outcomes .succeed + outcomes .retry + outcomes .blockAuth + outcomes .deadLetter +
    outcomes .recover + outcomes .reconcileRevision + outcomes .obsolete + outcomes .superseded

theorem totalOutcomes_update (outcomes : ResultAction → Nat) (action : ResultAction) :
    totalOutcomes (Function.update outcomes action (outcomes action + 1)) =
      totalOutcomes outcomes + 1 := by
  cases action <;> simp [totalOutcomes] <;> omega

/-- What holds of the account of a flush whose claims in `pend` were not attempted. -/
structure FlushAccount (env : FlushEnv) (w : World) (pend : List ClaimedOperation)
    (st : FlushState) : Prop where
  claims : st.claims = st.attempts.map ExecutorCall.operation ++ pend
  nodup : (st.claims.map ClaimedOperation.operationId).Nodup
  reached : ∀ c ∈ st.claims, Reached w.store st.world.store c.operationId
  claimed : st.claimed = st.attempts.length
  counted : st.claimed = totalOutcomes st.outcomes
  ran : env.Ran w st.claims st.attempts st.world
  storable : ∀ a ∈ st.attempts, (a.execution env).Storable

section FlushAccount
variable {env : FlushEnv} {w : World} {pend : List ClaimedOperation} {st : FlushState} {i : String}

theorem FlushAccount.ids (h : FlushAccount env w pend st) :
    st.claims.map ClaimedOperation.operationId =
      st.attempted ++ pend.map ClaimedOperation.operationId := by
  rw [h.claims, List.map_append, List.map_map]
  rfl

theorem FlushAccount.settled_ids (h : FlushAccount env w [] st) :
    st.claims.map ClaimedOperation.operationId = st.attempted := by
  rw [h.ids, List.map_nil, List.append_nil]

theorem FlushAccount.ids_nodup (h : FlushAccount env w pend st) :
    (st.attempted ++ pend.map ClaimedOperation.operationId).Nodup := by
  rw [← h.ids]
  exact h.nodup

theorem FlushAccount.attempted_nodup (h : FlushAccount env w pend st) : st.attempted.Nodup :=
  (List.nodup_append'.mp h.ids_nodup).1

theorem FlushAccount.not_pending (h : FlushAccount env w pend st) (hi : i ∈ st.attempted) :
    i ∉ pend.map ClaimedOperation.operationId :=
  (List.nodup_append'.mp h.ids_nodup).2.2 hi

theorem FlushAccount.attempted_reached (h : FlushAccount env w pend st) (hi : i ∈ st.attempted) :
    Reached w.store st.world.store i := by
  have hclaimed : i ∈ st.claims.map ClaimedOperation.operationId := by
    rw [h.ids]
    exact List.mem_append_left _ hi
  obtain ⟨c, hc, rfl⟩ := List.mem_map.mp hclaimed
  exact h.reached c hc

theorem FlushAccount.pending_of_claimed (h : FlushAccount env w pend st)
    (hclaimed : i ∈ st.claims.map ClaimedOperation.operationId) (hnot : i ∉ st.attempted) :
    ∃ c ∈ pend, c.operationId = i := by
  rw [h.ids, List.mem_append] at hclaimed
  exact List.mem_map.mp (hclaimed.resolve_left hnot)

end FlushAccount

/-- What holds of the outbox inside a flush. -/
structure FlushInv (env : FlushEnv) (w : World) (pend : List ClaimedOperation) (st : FlushState) :
    Prop where
  account : FlushAccount env w pend st
  disjoint : st.world.store.Disjoint
  clock : env.now w ≤ env.now st.world
  untouched : ∀ i row, w.store.operations.find i = some row →
    i ∉ st.claims.map ClaimedOperation.operationId → st.world.store.operations.find i = some row
  pending : ∀ c ∈ pend, ∃ row now, w.store.operations.find c.operationId = some row ∧
    st.world.store.operations.find c.operationId =
      some (row.claim c.claimToken env.workerId c.leaseExpiresAt now)
  stamped : ∀ i row, st.world.store.operations.find i = some row →
    (w.store.operations.find i = some row ∧ i ∉ st.claims.map ClaimedOperation.operationId) ∨
      env.now w ≤ row.updatedAt
  archived : ∀ i h, st.world.store.history.find i = some h →
    w.store.history.find i = some h ∨ i ∈ st.claims.map ClaimedOperation.operationId
  history : ∀ i h, w.store.history.find i = some h → st.world.store.history.find i = some h

section Steps
variable {env : FlushEnv} {w : World} {pend : List ClaimedOperation} {st : FlushState}
  {readyBefore : Instant} {P : FlushState → Prop}

theorem start_lapsed (hs : w.store.Lapsed (env.now w)) : FlushInv env w [] { world := w } where
  account :=
    { claims := rfl
      nodup := List.nodup_nil
      reached := fun c hc => by cases hc
      claimed := rfl
      counted := rfl
      ran := .start
      storable := List.forall_mem_nil _ }
  disjoint := hs.disjoint
  clock := le_refl _
  untouched := fun i row hrow _ => hrow
  pending := fun c hc => by cases hc
  stamped := fun i row hrow => .inl ⟨hrow, by simp⟩
  archived := fun i h hrow => .inl hrow
  history := fun i h hrow => hrow

/-- A page selects only what is as it was when the flush began, and has its dependency met. -/
theorem selected_reached (hinv : FlushInv env w [] st) {now : Instant} {n : Nat} {row : OperationRow}
    (h : row ∈ st.world.store.selected (env.now w) now n) :
    w.store.operations.find row.operationId = some row ∧
    row.operationId ∉ st.claims.map ClaimedOperation.operationId ∧
    Reached w.store st.world.store row.operationId := by
  obtain ⟨hrow, hsel⟩ := mem_selected h
  simp only [Store.selectable, Bool.and_eq_true, decide_eq_true_eq] at hsel
  obtain ⟨⟨⟨hclaimable, hstamp⟩, -⟩, hmet⟩ := hsel
  have hold : w.store.operations.find row.operationId = some row ∧
      row.operationId ∉ st.claims.map ClaimedOperation.operationId := by
    rcases hinv.stamped _ row hrow with hold | hlate
    · exact hold
    · exact absurd hlate (not_le.mpr hstamp)
  refine ⟨hold.1, hold.2, ?_⟩
  cases hdep : row.dependsOn with
  | none => exact .ready hold.1 hclaimable (by rw [hdep]; rfl)
  | some d =>
    rw [hdep, dependencyMet_some] at hmet
    cases hbefore : w.store.history.find d with
    | some h =>
      -- delivered before the flush
      refine .ready hold.1 hclaimable ?_
      rw [hdep, dependencyMet_some]
      unfold Store.delivered Store.historyOutcome at hmet ⊢
      rw [hinv.history d h hbefore] at hmet
      rw [hbefore]
      exact hmet
    | none =>
      -- delivered by an attempt
      obtain ⟨h, hh⟩ : ∃ h, st.world.store.history.find d = some h := by
        cases hf : st.world.store.history.find d with
        | none => simp [Store.delivered, Store.historyOutcome, hf] at hmet
        | some h => exact ⟨h, rfl⟩
      rcases hinv.archived d h hh with hold' | hclaimed
      · rw [hbefore] at hold'
        cases hold'
      · obtain ⟨c, hc, rfl⟩ := List.mem_map.mp hclaimed
        exact .unlocked hold.1 hclaimable hdep (hinv.account.reached c hc) hbefore hmet

/-- The executor attempts what is claimed, so the account of a page of claims is open. -/
theorem claim_account (h : FlushAccount env w [] st) {claims : List ClaimedOperation} (world : World)
    (hran : env.Ran w (st.claims ++ claims) st.attempts world)
    (hhistory : world.store.history = st.world.store.history)
    (hnodup : (claims.map ClaimedOperation.operationId).Nodup)
    (hnew : ∀ c ∈ claims, c.operationId ∉ st.claims.map ClaimedOperation.operationId ∧
      Reached w.store st.world.store c.operationId) :
    FlushAccount env w claims ({ st with world }.grant claims) := by
  have hmono : ∀ {i}, Reached w.store st.world.store i → Reached w.store world.store i :=
    Reached.mono fun j row hrow => by rw [hhistory]; exact hrow
  refine ⟨?_, ?_, fun c hc => ?_, h.claimed, h.counted, hran, h.storable⟩
  · have hclaims := h.claims
    rw [List.append_nil] at hclaims
    simp only [FlushState.grant, hclaims]
  · simp only [FlushState.grant, List.map_append]
    refine List.nodup_append'.mpr ⟨h.nodup, hnodup, fun i hi hi' => ?_⟩
    obtain ⟨c, hc, rfl⟩ := List.mem_map.mp hi'
    exact (hnew c hc).1 hi
  · simp only [FlushState.grant] at hc
    rcases List.mem_append.mp hc with hc | hc
    · exact hmono (h.reached c hc)
    · exact hmono (hnew c hc).2

theorem claim_flush (hinv : FlushInv env w [] st) {claims : List ClaimedOperation} {s' : Store}
    (h : claimPage env.config (env.page (env.now w) st.world) st.world.store = (.ok claims, s'))
    (hclock : ∀ w calls, env.now w ≤ env.now (Run.exec (World.step env.host) w calls)) :
    FlushInv env w claims ((st.call env (.claimPage env.config
      (env.page (env.now w) st.world))).grant claims) := by
  have hstore : (World.step env.host st.world (.claimPage env.config
      (env.page (env.now w) st.world))).store = s' := by
    show (claimPage env.config (env.page (env.now w) st.world) st.world.store).2 = s'
    rw [h]
  have heff : Effect env.host _ _ _ s' := claimPage_effect h
  have hd := effect_disjoint heff hinv.disjoint
  cases heff with
  | @claim _ _ _ operations granted =>
    have hnew : ∀ c ∈ claims, ∃ row, row.operationId = c.operationId ∧
        row ∈ st.world.store.selected (env.now w) (env.now st.world) env.pageSize.toNat ∧
        operations.find c.operationId =
          some (row.claim c.claimToken env.workerId c.leaseExpiresAt (env.now st.world)) := by
      intro c hc
      obtain ⟨row, k, hfind, hsel, hcopy, htaken⟩ := granted.of_claim hc
      refine ⟨row, KeyedTable.find_key hfind, hsel, ?_⟩
      rw [htaken, (claimedFromRow_ok hcopy).2]
      rfl
    have hclaims : ∀ i, i ∉ claims.map ClaimedOperation.operationId →
        operations.find i = st.world.store.operations.find i := fun i hi => granted.not_claimed hi
    have haccount := claim_account hinv.account
      (World.step env.host st.world (.claimPage env.config (env.page (env.now w) st.world)))
      (hinv.account.ran.page h) (by rw [hstore]) granted.ids_nodup
      (fun c hc => by
        obtain ⟨row, hid, hsel, -⟩ := hnew c hc
        rw [← hid]
        exact (selected_reached hinv hsel).2)
    refine ⟨haccount, ?_, ?_, ?_, ?_, ?_, ?_, ?_⟩
    · rw [FlushState.grant, FlushState.call, hstore]
      exact hd
    · exact hinv.clock.trans (hclock st.world [_])
    · intro i row hrow hi
      simp only [FlushState.grant, FlushState.call, List.map_append, List.mem_append, not_or] at hi
      simp only [FlushState.grant, FlushState.call, hstore]
      rw [hclaims i hi.2]
      exact hinv.untouched i row hrow hi.1
    · intro c hc
      obtain ⟨row, hid, hsel, hfind⟩ := hnew c hc
      refine ⟨row, env.now st.world, ?_, ?_⟩
      · rw [← hid]
        exact (selected_reached hinv hsel).1
      · simp only [FlushState.grant, FlushState.call, hstore]
        exact hfind
    · intro i row hrow
      simp only [FlushState.grant, FlushState.call, hstore] at hrow
      simp only [FlushState.grant, FlushState.call, List.map_append, List.mem_append, not_or]
      by_cases hi : i ∈ claims.map ClaimedOperation.operationId
      · -- a row just claimed carries the reading of the page
        obtain ⟨c, hc, rfl⟩ := List.mem_map.mp hi
        obtain ⟨row', -, -, hfind⟩ := hnew c hc
        rw [hfind] at hrow
        cases hrow
        exact .inr hinv.clock
      · rw [hclaims i hi] at hrow
        rcases hinv.stamped i row hrow with ⟨hstart, hold⟩ | hlate
        · exact .inl ⟨hstart, hold, hi⟩
        · exact .inr hlate
    · intro i row hrow
      simp only [FlushState.grant, FlushState.call, hstore] at hrow
      simp only [FlushState.grant, FlushState.call, List.map_append, List.mem_append]
      rcases hinv.archived i row hrow with hold | hi
      · exact .inl hold
      · exact .inr (.inl hi)
    · intro i row hrow
      simp only [FlushState.grant, FlushState.call, hstore]
      exact hinv.history i row hrow

/-- What can be stored is: the claim is in force when the result is applied, or it was superseded
and there is nothing to apply. -/
theorem attempt_returns (hr : env.Regular) {world : World} {op : ClaimedOperation}
    (hd : world.store.Disjoint) (hheld : world.store.holds op = true) {r : ExecutorResult}
    (hresult : (env.execute world op).result = .ok r) :
    ∃ s', applyResult op r.stored (env.now (env.executed world op))
      (env.executed world op).store = (.ok (), s') := by
  have hfair := hr.executor world op hheld
  have hcalls : ∀ c ∈ (env.execute world op).calls, c.ByExecutor op := fun c hc =>
    (hfair.calls c hc).1
  rcases exec_heldOrClosed env.host hd hcalls (.inl hheld) with hheld' | ⟨hgone, -⟩
  · exact applyResult_total (exec_touches env.host (env.now world) hd hfair.calls).2 hheld' _ _
  · obtain ⟨result, hok, haction⟩ := hfair.superseded hgone
    rw [Execution.result, hok] at hresult
    cases hresult
    refine ⟨(env.executed world op).store, ?_⟩
    simp [applyResult, ExecutorResult.stored, ExecutorResult.read, haction]

section Attempts
variable {op : ClaimedOperation} {ops : List ClaimedOperation} {r : ExecutorResult}

/-- An attempt applies the result of its executor to a claim in force, and touches nothing else. -/
theorem attempt_filed (hr : env.Regular) (hinv : FlushInv env w (op :: ops) st)
    (hresult : (env.execute st.world op).result = .ok r) :
    st.world.store.holds op = true ∧
    applyResult op r.stored (env.now (env.executed st.world op)) (env.executed st.world op).store =
      (.ok (), (st.after env op r.stored).world.store) ∧
    Touches (env.now w) op.operationId st.world.store (st.after env op r.stored).world.store ∧
    (st.after env op r.stored).world.store.Disjoint := by
  obtain ⟨row, now, hstart, hfind⟩ := hinv.pending op List.mem_cons_self
  have hheld : st.world.store.holds op = true := (holds_iff _ op).mpr ⟨_, hfind, rfl⟩
  have hfair := hr.executor st.world op hheld
  obtain ⟨s', hs'⟩ := attempt_returns hr hinv.disjoint hheld hresult
  have hclock : env.now w ≤ env.now (env.executed st.world op) :=
    hinv.clock.trans (hr.clock st.world _)
  obtain ⟨htouch, hd⟩ := exec_touches env.host (env.now w) hinv.disjoint
    fun c hc => ⟨(hfair.calls c hc).1, fun t ht => hinv.clock.trans ((hfair.calls c hc).2 t ht)⟩
  obtain ⟨happly, hd'⟩ := step_touches env.host (env.now w)
    (w := env.executed st.world op) hd
    (c := .applyResult op r.stored (env.now (env.executed st.world op)))
    (.inr ⟨_, _, rfl⟩) (by simpa [Call.readings] using hclock)
  have hstore : (st.after env op r.stored).world.store = s' := by
    show (applyResult op _ _ (env.executed st.world op).store).2 = s'
    rw [hs']
  exact ⟨hheld, hs'.trans (by rw [hstore]), htouch.trans happly, hd'⟩

theorem attempt_flush (hr : env.Regular) (hinv : FlushInv env w (op :: ops) st)
    (hresult : (env.execute st.world op).result = .ok r) (hb : r.Bound) :
    attemptOperation env st op = (.ok (), st.after env op r.stored) ∧
      FlushInv env w ops (st.after env op r.stored) := by
  obtain ⟨hheld, hs', hall, hd'⟩ := attempt_filed hr hinv hresult
  have hclock : env.now w ≤ env.now (env.executed st.world op) :=
    hinv.clock.trans (hr.clock st.world _)
  have hclaims := hinv.account.claims
  have hmem : op ∈ st.claims := by
    rw [hclaims]
    simp
  have hop : op.operationId ∈ st.claims.map ClaimedOperation.operationId := List.mem_map_of_mem hmem
  refine ⟨?_, ?_⟩
  · simp only [attemptOperation, hresult, applyReturned_bound hb, hs']
    rfl
  refine ⟨⟨?_, hinv.account.nodup, fun c hc => (hinv.account.reached c hc).mono hall.history, ?_, ?_,
    ?_, ?_⟩, hd', hclock.trans (hr.clock _ [_]), ?_, ?_, ?_, ?_, ?_⟩
  · simp only [FlushState.after, FlushState.count, hclaims, List.map_append, List.map_cons,
      List.map_nil, List.append_assoc, List.singleton_append]
  · simp only [FlushState.after, FlushState.count, hinv.account.claimed, List.length_append,
      List.length_singleton]
  · simp only [FlushState.after, FlushState.count, totalOutcomes_update, hinv.account.counted]
  · have hran := hinv.account.ran.attempt hmem hheld
    rw [← after_settled hresult hb] at hran
    exact hran
  · intro a ha
    rcases List.mem_append.mp ha with ha | ha
    · exact hinv.account.storable a ha
    · rw [List.mem_singleton.mp ha]
      exact ⟨r, hresult, hb⟩
  · intro i row' hrow hi
    refine hall.others i row' (fun he => hi (he ▸ hop)) (hinv.untouched i row' hrow hi)
  · intro c hc
    obtain ⟨row', now', hrow', hfind'⟩ := hinv.pending c (List.mem_cons_of_mem _ hc)
    refine ⟨row', now', hrow', hall.others _ _ (fun he => ?_) hfind'⟩
    have hnotin := (List.nodup_cons.mp (List.nodup_append'.mp hinv.account.ids_nodup).2.1).1
    exact hnotin (he ▸ List.mem_map_of_mem hc)
  · intro i row' hrow
    rcases hall.stamped i row' hrow with hold | hlate
    · exact hinv.stamped i row' hold
    · exact .inr hlate
  · intro i h hh
    rcases hall.archived i h hh with hold | rfl
    · exact hinv.archived i h hold
    · exact .inr hop
  · exact fun i h hh => hall.history i h (hinv.history i h hh)

end Attempts

/-- A claim given back without an attempt: the row is as it was, with no claim. -/
def GivenUp (w : World) (st : FlushState) (c : ClaimedOperation) : Prop :=
  ∃ row now, w.store.operations.find c.operationId = some row ∧
    st.world.store.operations.find c.operationId = some { row with
      updatedAt := now, claimToken := none, claimedBy := none, leaseExpiresAt := none }

/-- A claim that was given back leaves the row as the flush found it, but for `updated_at`. -/
def Restored (w : World) (st : FlushState) (c : ClaimedOperation) : Prop :=
  ∃ row now, w.store.operations.find c.operationId = some row ∧
    st.world.store.operations.find c.operationId = some { row with updatedAt := now }

/-- The claims of an open account can be given back, whatever they were taken over from. -/
theorem release_lapsed (hinv : FlushInv env w pend st) :
    ∃ s', releaseUnattempted pend (env.now st.world) st.world.store = (.ok (), s') ∧
      FlushAccount env w pend (st.call env (.releaseUnattempted pend (env.now st.world))) ∧
      ∀ c ∈ pend, GivenUp w (st.call env (.releaseUnattempted pend (env.now st.world))) c := by
  generalize hnow : env.now st.world = now
  obtain ⟨s', hs'⟩ : ∃ s', releaseUnattempted pend now st.world.store = (.ok (), s') := by
    refine releaseUnattempted_total now fun r hr hheld => ?_
    obtain ⟨c, hc, hby⟩ := List.any_eq_true.mp hheld
    obtain ⟨row, at', -, hfind⟩ := hinv.pending c hc
    have hid := ((heldBy_iff c r).mp hby).1
    rw [← hid, KeyedTable.find_of_mem hr] at hfind
    cases hfind
    exact Nat.succ_ne_zero _
  have hstore : (World.step env.host st.world (.releaseUnattempted pend now)).store = s' := by
    show (releaseUnattempted pend now st.world.store).2 = s'
    rw [hs']
  have heff : Effect env.host _ _ _ s' := releaseUnattempted_effect hs'
  refine ⟨s', hs', ?_, fun c hc => ?_⟩
  · have hmem : ∀ op ∈ pend, op ∈ st.claims := by
      intro op hop
      rw [hinv.account.claims]
      exact List.mem_append_right _ hop
    refine { hinv.account with
      reached := fun c hc => (hinv.account.reached c hc).mono ?_
      ran := hnow ▸ hinv.account.ran.release hmem }
    rw [FlushState.call, hstore]
    exact fun j h hh => effect_history heff hinv.disjoint hh
  · obtain ⟨row, at', hstart, hfind⟩ := hinv.pending c hc
    have hheld : (row.claim c.claimToken env.workerId c.leaseExpiresAt at').heldByAny pend = true :=
      List.any_eq_true.mpr ⟨c, hc, (heldBy_iff _ _).mpr ⟨KeyedTable.find_key hfind, rfl⟩⟩
    refine ⟨row, now, hstart, ?_⟩
    rw [FlushState.call, hstore]
    cases heff with
    | release ops =>
      rw [ops, hfind, Option.map_some, if_pos hheld]
      simp [OperationRow.claim, OperationRow.released]

/-- When a page comes back empty, everything reached has been attempted. -/
theorem empty_lapsed (hr : env.Regular) (hs : w.store.Lapsed (env.now w))
    (hinv : FlushInv env w [] st) {s' : Store}
    (h : claimPage env.config (env.page (env.now w) st.world) st.world.store = (.ok [], s'))
    {i : String} (hi : Reached w.store s' i) : i ∈ st.attempted := by
  obtain ⟨hselected, hhistory⟩ : st.world.store.selected (env.now w) (env.now st.world)
      env.pageSize.toNat = [] ∧ s'.history = st.world.store.history := by
    have heff : Effect env.host _ _ _ s' := claimPage_effect h
    cases heff with
    | claim granted =>
      have hpairs : granted.pairs = [] := List.length_eq_zero_iff.mp granted.claimed.length_eq
      have hrows := granted.rows
      rw [hpairs] at hrows
      exact ⟨hrows.symm, rfl⟩
  have hi : Reached w.store st.world.store i := hi.mono fun j row hrow => hhistory ▸ hrow
  by_contra hnot
  -- the row is as the flush found it, so the page would have selected it
  obtain ⟨row, hrow⟩ := hi.present
  have hmem := KeyedTable.find_mem hrow
  have hfind := hinv.untouched i row hrow (by rw [hinv.account.settled_ids]; exact hnot)
  have hmet : row.state.claimable = true ∧ st.world.store.dependencyMet row.dependsOn = true := by
    cases hi with
    | ready find claimable met =>
      rw [hrow] at find
      cases find
      refine ⟨claimable, ?_⟩
      cases hdep : row.dependsOn with
      | none => rfl
      | some d =>
        rw [hdep, dependencyMet_some] at met
        rw [dependencyMet_some]
        exact delivered_mono hinv.history met
    | unlocked find claimable depends dependency before delivered =>
      rw [hrow] at find
      cases find
      rw [depends, dependencyMet_some]
      exact ⟨claimable, delivered⟩
  have hselectable : st.world.store.selectable (env.now w) (env.now st.world) row = true := by
    simp [Store.selectable, hmet.1, hmet.2, hs.passed row hmem,
      unleased_mono hinv.clock (hs.unleased row hmem)]
  have hfilter : row ∈ (st.world.store.operations.rows.filter
      (st.world.store.selectable (env.now w) (env.now st.world))).insertionSort claimOrder := by
    rw [List.mem_insertionSort, List.mem_filter]
    exact ⟨KeyedTable.find_mem hfind, hselectable⟩
  have hsize := hr.size
  rw [Store.selected, List.take_eq_nil_iff] at hselected
  rcases hselected with hzero | hnil
  · omega
  · rw [hnil] at hfilter
    cases hfilter

/-! ### The loops -/

theorem grant_nil (st : FlushState) : st.grant [] = st := by
  simp [FlushState.grant]

theorem attempts_le (h : FlushAccount env w pend st) :
    st.attempted.length ≤ w.store.operations.rows.length := by
  have hsub : st.attempted ⊆ w.store.operations.rows.map OperationRow.operationId := by
    intro i hi
    obtain ⟨row, hrow⟩ := (h.attempted_reached hi).present
    rw [← KeyedTable.find_key hrow]
    exact List.mem_map_of_mem (KeyedTable.find_mem hrow)
  have hle := (List.subperm_of_subset h.attempted_nodup hsub).length_le
  rw [List.length_map] at hle
  exact hle

theorem flushLoop_empty {deadline : Option Int} {s' : Store} (fuel : Nat)
    (hexpired : ¬ env.expired deadline st.world = true)
    (h : claimPage env.config (env.page readyBefore st.world) st.world.store = (.ok [], s')) :
    flushLoop env deadline readyBefore (fuel + 1) st =
      some (.ok false, st.call env (.claimPage env.config (env.page readyBefore st.world))) := by
  rw [flushLoop, if_neg hexpired]
  simp only [h]

theorem flushLoop_page {deadline : Option Int} {s' : Store} (fuel : Nat) {c : ClaimedOperation}
    {cs : List ClaimedOperation} {exhausted : Bool} {st' : FlushState}
    (hexpired : ¬ env.expired deadline st.world = true)
    (h : claimPage env.config (env.page readyBefore st.world) st.world.store = (.ok (c :: cs), s'))
    (hpage : flushPage env deadline (c :: cs) ((st.call env (.claimPage env.config
      (env.page readyBefore st.world))).grant (c :: cs)) = (.ok exhausted, st')) :
    flushLoop env deadline readyBefore (fuel + 1) st =
      if exhausted then some (.ok true, st') else flushLoop env deadline readyBefore fuel st' := by
  rw [flushLoop, if_neg hexpired]
  simp only [h, hpage]
  cases exhausted <;> rfl

/-- `P` is kept by every step of a flush that started from `w`. -/
structure FlushEnv.Keeps (env : FlushEnv) (w : World) (P : FlushState → Prop) : Prop where
  page : ∀ st claims, FlushInv env w [] st → P st →
    (claimPage env.config (env.page (env.now w) st.world) st.world.store).1 = .ok claims →
    P ((st.call env (.claimPage env.config (env.page (env.now w) st.world))).grant claims)
  attempt : ∀ st op ops r, FlushInv env w (op :: ops) st → P st →
    (env.execute st.world op).result = .ok r → r.Bound → P (st.after env op r.stored)
  release : ∀ st ops, FlushInv env w ops st → P st →
    P (st.call env (.releaseUnattempted ops (env.now st.world)))

/-- A call of the executor ended in what cannot be stored, and with it the flush. -/
structure Stopped (env : FlushEnv) (w : World) (st : FlushState) : Prop where
  ran : env.Ran w st.claims st.attempts st.world
  unstorable : ∃ a ∈ st.attempts, ¬ (a.execution env).Storable

/-- The deadline had passed when no more calls of the executor were to come. -/
def FlushEnv.Overdue (env : FlushEnv) (w : World) (st : FlushState) : Prop :=
  ∃ world, env.Ran w st.claims st.attempts world ∧ env.expired (env.deadline w) world = true

/-- What a flush that keeps `P` ends with. -/
structure FlushEnd (env : FlushEnv) (w : World) (P : FlushState → Prop) (exhausted : Bool)
    (st : FlushState) : Prop where
  kept : P st
  account : ∃ pend, FlushAccount env w pend st ∧ ∀ c ∈ pend, GivenUp w st c
  overdue : exhausted = true → env.Overdue w st
  complete : exhausted = false → FlushInv env w [] st ∧
    ∀ i, Reached w.store st.world.store i → i ∈ st.attempted

/-- What the attempts of the claims in `pend` end with. -/
structure PageEnd (env : FlushEnv) (w : World) (P : FlushState → Prop) (attempted : List String)
    (exhausted : Bool) (st : FlushState) : Prop where
  kept : P st
  opened : exhausted = false → FlushInv env w [] st ∧ st.attempted = attempted
  closed : exhausted = true → env.Overdue w st ∧
    ∃ rest, FlushAccount env w rest st ∧ ∀ c ∈ rest, GivenUp w st c

theorem attempt_stopped {op : ClaimedOperation} {ops : List ClaimedOperation}
    (hinv : FlushInv env w (op :: ops) st) (h : ¬ (env.execute st.world op).Storable) :
    (∃ e, (attemptOperation env st op).1 = .error e) ∧
      Stopped env w (attemptOperation env st op).2 := by
  obtain ⟨row, now, hstart, hfind⟩ := hinv.pending op List.mem_cons_self
  have hheld : st.world.store.holds op = true := (holds_iff _ op).mpr ⟨_, hfind, rfl⟩
  have hmem : op ∈ st.claims := by
    rw [hinv.account.claims]
    simp
  obtain ⟨hworld, hclaims, hattempts⟩ := attempt_state env st op
  refine ⟨attempt_unstorable h, ⟨?_, ⟨st.world, op⟩, ?_, h⟩⟩
  · rw [hworld, hclaims, hattempts]
    exact hinv.account.ran.attempt hmem hheld
  · rw [hattempts]
    simp

theorem page_keeps (hr : env.Regular) (hk : env.Keeps w P) (hinv : FlushInv env w pend st)
    (hp : P st) : ∃ out st', flushPage env (env.deadline w) pend st = (out, st') ∧
      ((∃ e, out = .error e) ∧ Stopped env w st' ∨ ∃ exhausted, out = .ok exhausted ∧
        PageEnd env w P (st.attempted ++ pend.map ClaimedOperation.operationId) exhausted st') := by
  induction pend generalizing st with
  | nil => exact ⟨.ok false, st, rfl, .inr ⟨false, rfl, hp, fun _ => ⟨hinv, by simp⟩, nofun⟩⟩
  | cons op ops ih =>
    rw [flushPage]
    split
    · rename_i hexpired
      obtain ⟨s', hs', haccount, hgiven⟩ := release_lapsed hinv
      exact ⟨.ok true, _, by simp only [hs']; rfl, .inr ⟨true, rfl, hk.release st _ hinv hp, nofun,
        fun _ => ⟨⟨st.world, hinv.account.ran, hexpired⟩, op :: ops, haccount, hgiven⟩⟩⟩
    · by_cases hstorable : (env.execute st.world op).Storable
      · obtain ⟨r, hresult, hb⟩ := hstorable
        obtain ⟨hattempt, hinv'⟩ := attempt_flush hr hinv hresult hb
        obtain ⟨out, st', hpage, hend⟩ := ih hinv' (hk.attempt st op ops r hinv hp hresult hb)
        have hattempted : (st.after env op r.stored).attempted ++
            ops.map ClaimedOperation.operationId =
              st.attempted ++ (op :: ops).map ClaimedOperation.operationId := by
          simp [FlushState.attempted, FlushState.after, FlushState.count]
        rw [hattempt]
        rw [hattempted] at hend
        exact ⟨out, st', hpage, hend⟩
      · obtain ⟨⟨e, he⟩, hstopped⟩ := attempt_stopped hinv hstorable
        refine ⟨.error e, (attemptOperation env st op).2, ?_, .inl ⟨⟨e, rfl⟩, hstopped⟩⟩
        cases hattempt : attemptOperation env st op with
        | mk out st' =>
          rw [hattempt] at he
          cases he
          rfl

/-- The rule of a flush: what its steps keep it keeps, it ends, and it leaves nothing it reached
without an attempt unless its deadline passed. Only a result that cannot be stored stops it. -/
theorem loop_keeps (hr : env.Regular) (hs : w.store.Lapsed (env.now w)) (hk : env.Keeps w P)
    (fuel : Nat) (hinv : FlushInv env w [] st) (hp : P st)
    (hfuel : w.store.operations.rows.length < fuel + st.attempted.length) :
    ∃ out st', flushLoop env (env.deadline w) (env.now w) fuel st = some (out, st') ∧
      ((∃ e, out = .error e) ∧ Stopped env w st' ∨ ∃ exhausted, out = .ok exhausted ∧
        FlushEnd env w P exhausted st') := by
  induction fuel generalizing st with
  | zero =>
    have hle := attempts_le hinv.account
    omega
  | succ fuel ih =>
    by_cases hexpired : env.expired (env.deadline w) st.world = true
    · refine ⟨.ok true, st, ?_, .inr ⟨true, rfl, hp, ⟨[], hinv.account, List.forall_mem_nil _⟩,
        fun _ => ⟨st.world, hinv.account.ran, hexpired⟩, nofun⟩⟩
      rw [flushLoop, if_pos hexpired]
    · obtain ⟨claims, s', hclaim⟩ := claimPage_total (s := st.world.store) env.config
        (show (env.page (env.now w) st.world).workerId ≠ "" from hr.worker) hr.size rfl
        fun row hrow => hs.objects row (KeyedTable.find_mem (selected_reached hinv hrow).1)
      have hinv' := claim_flush hinv hclaim hr.clock
      have hp' := hk.page st claims hinv hp (by rw [hclaim])
      cases claims with
      | nil =>
        have hstore : (st.call env (.claimPage env.config
            (env.page (env.now w) st.world))).world.store = s' := by
          show (claimPage env.config (env.page (env.now w) st.world) st.world.store).2 = s'
          rw [hclaim]
        rw [grant_nil] at hinv' hp'
        refine ⟨.ok false, _, flushLoop_empty fuel hexpired hclaim, .inr ⟨false, rfl, hp',
          ⟨[], hinv'.account, List.forall_mem_nil _⟩, nofun, fun _ => ⟨hinv', fun i hi => ?_⟩⟩⟩
        rw [hstore] at hi
        exact empty_lapsed hr hs hinv hclaim hi
      | cons c cs =>
        obtain ⟨out, st', hpage, ⟨⟨e, rfl⟩, hstopped⟩ | ⟨exhausted, rfl, hend⟩⟩ :=
          page_keeps hr hk hinv' hp'
        · refine ⟨.error e, st', ?_, .inl ⟨⟨e, rfl⟩, hstopped⟩⟩
          rw [flushLoop, if_neg hexpired]
          simp only [hclaim, hpage]
        · have hnext := flushLoop_page fuel hexpired hclaim hpage
          cases exhausted with
          | true =>
            obtain ⟨hoverdue, haccount⟩ := hend.closed rfl
            exact ⟨.ok true, st', hnext, .inr ⟨true, rfl, hend.kept, haccount, fun _ => hoverdue,
              nofun⟩⟩
          | false =>
            obtain ⟨hinv'', hattempted⟩ := hend.opened rfl
            have hlonger : st'.attempted.length = st.attempted.length + (cs.length + 1) := by
              rw [hattempted, List.length_append, List.length_map]
              rfl
            obtain ⟨out, st'', hloop, hend'⟩ := ih hinv'' hend.kept (by omega)
            exact ⟨out, st'', hnext.trans hloop, hend'⟩

theorem flushLoop_mono {deadline : Option Int} {fuel : Nat}
    {out : Except OutboxException Bool × FlushState}
    (h : flushLoop env deadline readyBefore fuel st = some out) (more : Nat) :
    flushLoop env deadline readyBefore (fuel + more) st = some out := by
  induction fuel generalizing st with
  | zero => cases h
  | succ fuel ih =>
    rw [Nat.add_right_comm]
    rw [flushLoop] at h ⊢
    split at h
    · rename_i hexpired
      rw [if_pos hexpired]
      exact h
    · rename_i hexpired
      rw [if_neg hexpired]
      -- only a page that was attempted to its end looks at the fuel
      cases hclaim : (claimPage env.config (env.page readyBefore st.world) st.world.store).1 with
      | error e =>
        simp only [hclaim] at h ⊢
        exact h
      | ok claims =>
        cases claims with
        | nil =>
          simp only [hclaim] at h ⊢
          exact h
        | cons c cs =>
          cases hpage : flushPage env deadline (c :: cs) ((st.call env (.claimPage env.config
              (env.page readyBefore st.world))).grant (c :: cs)) with
          | mk result st' =>
            simp only [hclaim, hpage] at h ⊢
            match result with
            | .error e => exact h
            | .ok true => exact h
            | .ok false => exact ih h

end Steps

/-! ### Requests that are objects -/

/-- A `NewOperation` carries a `JSONObject`. -/
def Call.Objects : Call → Prop
  | .enqueue op _ => ∃ request, op.request = .dict request
  | .enqueueTurn _ factory _ _ =>
    ∀ n t, factory n = .ok t → ∃ request, t.operation.request = .dict request
  | .supersede _ replacement _ => ∃ request, replacement.request = .dict request
  | _ => True

theorem offered_object {c : Call} {r : Reply} {op : NewOperation} (hc : c.Objects)
    (h : offered (c, .ok r) = some op) : ∃ request, op.request = .dict request := by
  cases c with
  | enqueue op' now =>
    cases r with
    | accepted created =>
      cases created with
      | true =>
        cases h
        exact hc
      | false => cases h
    | _ => cases h
  | enqueueTurn sid factory parent now =>
    cases r with
    | turn t =>
      simp only [offered] at h
      split at h
      · rename_i turn hturn
        cases h
        exact hc _ turn hturn
      · cases h
    | _ => cases h
  | supersede claim replacement now =>
    cases r with
    | done =>
      cases h
      exact hc
    | _ => cases h
  | _ => cases h

theorem run_objects (host : Host) (calls : List Call) (h : ∀ c ∈ calls, c.Objects) :
    ∀ row ∈ (World.run host calls).store.operations.rows, ∃ request, row.request = .dict request := by
  induction calls using List.reverseRecOn with
  | nil =>
    intro row hrow
    cases hrow
  | append_singleton calls c ih =>
    have hcalls := ih fun c' hc' => h c' (List.mem_append_left _ hc')
    have hc := h c (List.mem_append_right _ (List.mem_singleton.mpr rfl))
    rw [run_append, Run.exec_cons, Run.exec_nil]
    intro row hrow
    rcases step_cases host (World.run host calls) c with ⟨e, he⟩ | ⟨r, s', heff, he⟩
    · rw [he] at hrow
      exact hcalls row hrow
    · rw [he] at hrow
      have hch := effect_row heff row.operationId
      rw [KeyedTable.find_of_mem hrow] at hch
      generalize hold : (World.run host calls).store.operations.find row.operationId = old at hch
      have hprior : ∀ row, old = some row → ∃ request, row.request = .dict request := by
        rintro row rfl
        exact hcalls row (KeyedTable.find_mem hold)
      cases hch with
      | same => exact hprior row rfl
      | born offer id valid canonical fresh =>
        obtain ⟨request, hrequest⟩ := offered_object hc offer
        have hjson := canonicalRequest_canonical canonical
        rw [hrequest] at hjson
        exact PyValue.canonical_dict_shape hjson
      | claimed mem id selected copy =>
        obtain ⟨request, hrequest⟩ := hprior _ rfl
        exact ⟨request, hrequest⟩
      | renewed =>
        obtain ⟨request, hrequest⟩ := hprior _ rfl
        exact ⟨request, hrequest⟩
      | settled =>
        obtain ⟨request, hrequest⟩ := hprior _ rfl
        exact ⟨request, hrequest⟩
      | unblocked =>
        obtain ⟨request, hrequest⟩ := hprior _ rfl
        exact ⟨request, hrequest⟩
      | released =>
        obtain ⟨request, hrequest⟩ := hprior _ rfl
        exact ⟨request, hrequest⟩

/-! ### Results -/

theorem exec_offers (host : Host) {w : World} (hd : w.store.Disjoint) (calls : List Call) :
    ∃ later, (Run.exec (World.step host) w calls).trace = w.trace ++ later ∧
      ∀ e ∈ later, ∀ op, offered e = some op → w.store.known op.operationId = none := by
  induction calls generalizing w with
  | nil => exact ⟨[], by simp, by simp⟩
  | cons c calls ih =>
    rcases step_cases host w c with ⟨e, he⟩ | ⟨r, s', heff, he⟩
    · obtain ⟨later, htrace, hnew⟩ := ih (w := ⟨w.store, w.trace ++ [(c, .error e)]⟩) hd
      refine ⟨(c, .error e) :: later, by rw [Run.exec_cons, he, htrace]; simp, fun x hx op hop => ?_⟩
      rcases List.mem_cons.mp hx with rfl | hx
      · cases c <;> cases hop
      · exact hnew x hx op hop
    · obtain ⟨later, htrace, hnew⟩ := ih (w := ⟨s', w.trace ++ [(c, .ok r)]⟩) (effect_disjoint heff hd)
      refine ⟨(c, .ok r) :: later, by rw [Run.exec_cons, he, htrace]; simp, fun x hx op hop => ?_⟩
      rcases List.mem_cons.mp hx with rfl | hx
      · obtain ⟨json, hash, now, -, -, hfresh, -⟩ := effect_offers heff hop
        exact hfresh
      · cases hknown : w.store.known op.operationId with
        | none => rfl
        | some m =>
          -- a known operation stays known
          have hlater := hnew x hx op hop
          rw [effect_known heff hd hknown] at hlater
          cases hlater

/-- A flush ends, and it raises only when a result of its executor cannot be stored. -/
theorem flush_ends {env : FlushEnv} {w : World} {P : FlushState → Prop} (hr : env.Regular)
    (hs : w.store.Lapsed (env.now w)) (hk : env.Keeps w P) (hp : P { world := w }) :
    ∃ out st, (∀ fuel, w.store.operations.rows.length < fuel → flush env fuel w = some (out, st)) ∧
      ((∃ e, out = .error e) ∧ Stopped env w st ∨ ∃ exhausted,
        out = .ok ⟨st.claimed, st.outcomes, exhausted⟩ ∧ FlushEnd env w P exhausted st) := by
  obtain ⟨out, st, hloop, hend⟩ :=
    loop_keeps hr hs hk (w.store.operations.rows.length + 1) (start_lapsed hs) hp
      (Nat.lt_succ_self _)
  refine ⟨out.map fun exhausted => ⟨st.claimed, st.outcomes, exhausted⟩, st, fun fuel hfuel => ?_, ?_⟩
  · obtain ⟨more, rfl⟩ :=
      Nat.exists_eq_add_of_le (show w.store.operations.rows.length + 1 ≤ fuel by omega)
    rw [flush, if_neg, flushLoop_mono hloop more]
    · rfl
    · rintro ⟨t, ht, hneg⟩
      have hpos := hr.timeout t ht
      omega
  · rcases hend with ⟨⟨e, rfl⟩, hstopped⟩ | ⟨exhausted, rfl, hend⟩
    · exact .inl ⟨⟨e, rfl⟩, hstopped⟩
    · exact .inr ⟨exhausted, rfl, hend⟩

theorem overdue_timeout {env : FlushEnv} {w : World} {st : FlushState} (h : env.Overdue w st) :
    env.timeoutSeconds ≠ none := by
  intro hnone
  obtain ⟨world, -, hexpired⟩ := h
  rw [FlushEnv.deadline, hnone] at hexpired
  cases hexpired

theorem FlushEnd.undated {env : FlushEnv} {w : World} {P : FlushState → Prop} {exhausted : Bool}
    {st : FlushState} (h : FlushEnd env w P exhausted st) (hnone : env.timeoutSeconds = none) :
    FlushInv env w [] st ∧ ∀ i, Reached w.store st.world.store i → i ∈ st.attempted := by
  refine h.complete ?_
  cases exhausted with
  | false => rfl
  | true => exact absurd hnone (overdue_timeout (h.overdue rfl))

/-- What one flush does. It attempts no operation twice and none that came into the outbox
meanwhile; unless its deadline passed it attempts exactly what it reaches, its report counts its
attempts, and what it claims without an attempt is given back as it was. -/
structure OneFlush (env : FlushEnv) (w : World) (report : FlushReport) (st : FlushState) : Prop where
  nodup : st.attempted.Nodup
  newcomers : ∃ later, st.world.trace = w.trace ++ later ∧
    ∀ e ∈ later, ∀ op, offered e = some op → op.operationId ∉ st.attempted
  timeout : env.timeoutSeconds = none → report.deadlineExhausted = false
  overdue : report.deadlineExhausted = true → env.Overdue w st
  reached : report.deadlineExhausted = false →
    ∀ i, i ∈ st.attempted ↔ Reached w.store st.world.store i
  claimed : report.claimed = st.attempts.length
  counted : report.claimed = totalOutcomes report.outcomes
  restored : ∀ c ∈ st.claims, c.operationId ∉ st.attempted → Restored w st c

theorem FlushEnd.oneFlush {env : FlushEnv} {w : World} {P : FlushState → Prop} {exhausted : Bool}
    {st : FlushState} (hs : w.store.Idle (env.now w)) (h : FlushEnd env w P exhausted st) :
    OneFlush env w ⟨st.claimed, st.outcomes, exhausted⟩ st ∧
      ∀ a ∈ st.attempts, (a.execution env).Storable := by
  obtain ⟨pend, haccount, hgiven⟩ := h.account
  obtain ⟨calls, hcalls⟩ := haccount.ran.exec
  obtain ⟨later, htrace, hnew⟩ := exec_offers env.host hs.disjoint calls
  refine ⟨⟨haccount.attempted_nodup,
    ⟨later, by rw [hcalls, htrace], fun e he op hop hattempted => ?_⟩, fun hnone => ?_, h.overdue,
    fun he i => ⟨haccount.attempted_reached, (h.complete he).2 i⟩, haccount.claimed,
    haccount.counted, fun c hc hnot => ?_⟩, haccount.storable⟩
  · obtain ⟨row, hrow⟩ := (haccount.attempted_reached hattempted).present
    have hfresh := hnew e he op hop
    rw [((known_eq_none_iff w.store _).mp hfresh).1] at hrow
    cases hrow
  · cases exhausted with
    | false => rfl
    | true => exact absurd hnone (overdue_timeout (h.overdue rfl))
  · obtain ⟨c', hc', hid⟩ := haccount.pending_of_claimed (List.mem_map_of_mem hc) hnot
    obtain ⟨row, now, hrow, hfind⟩ := hgiven c' hc'
    rw [hid] at hrow hfind
    obtain ⟨htoken, hworker, hlease⟩ := hs.free row (KeyedTable.find_mem hrow)
    refine ⟨row, now, hrow, hfind.trans ?_⟩
    simp [htoken, hworker, hlease]

/-- A flush ends, and its calls of the executor are its attempts. It does what one flush should if
and only if the results of all of them can be stored. -/
theorem flush_attempts {env : FlushEnv} {w : World} (hr : env.Regular)
    (hs : w.store.Idle (env.now w)) :
    ∃ out st,
      (∀ fuel, w.store.operations.rows.length < fuel → flush env fuel w = some (out, st)) ∧
      env.Ran w st.claims st.attempts st.world ∧
      ((∃ report, out = .ok report ∧ OneFlush env w report st) ↔
        ∀ a ∈ st.attempts, (a.execution env).Storable) := by
  have hk : env.Keeps w fun _ => True :=
    ⟨fun _ _ _ _ _ => trivial, fun _ _ _ _ _ _ _ _ => trivial, fun _ _ _ _ => trivial⟩
  obtain ⟨out, st, hflush, ⟨⟨e, rfl⟩, hstopped⟩ | ⟨exhausted, rfl, hend⟩⟩ :=
    flush_ends hr hs.lapsed hk trivial
  · refine ⟨.error e, st, hflush, hstopped.ran, iff_of_false nofun fun hall => ?_⟩
    obtain ⟨a, ha, hnot⟩ := hstopped.unstorable
    exact hnot (hall a ha)
  · obtain ⟨hone, hstorable⟩ := hend.oneFlush hs
    obtain ⟨pend, haccount, -⟩ := hend.account
    exact ⟨_, st, hflush, haccount.ran, iff_of_true ⟨_, rfl, hone⟩ hstorable⟩

/-! ### A flush -/

def sampleFlush : FlushEnv where
  host := Host.plain
  config := sampleConfig
  workerId := "worker"
  pageSize := 1
  timeoutSeconds := none
  now := fun _ => 10
  stamp := fun _ => 10
  monotonic := fun _ => 0
  uuids := fun _ _ => "token"
  execute := fun _ _ => ⟨[], .ok (AttemptResult.success false (some 200)).returned⟩

/-- An executor that leaves the outbox alone. -/
theorem sampleFlush_regular (outcome : World → ClaimedOperation → Except ExecutorError ExecutorResult) :
    { sampleFlush with execute := fun w op => ⟨[], outcome w op⟩ }.Regular where
  worker := show "worker" ≠ "" by decide
  size := le_refl 1
  timeout := nofun
  clock := fun _ _ => le_refl _
  executor := by
    intro w op hheld
    refine ⟨List.forall_mem_nil _, fun hgone => ?_⟩
    obtain ⟨row, hrow, -⟩ := (holds_iff _ _).mp hheld
    rw [show w.store.operations.find op.operationId = none from hgone] at hrow
    cases hrow

/-- Two operations, of which the second waits for the first, and a third. -/
def queuedSample : World :=
  World.run Host.plain [.enqueue sampleOperation 0,
    .enqueue { sampleOperation with
      operationId := "b", idempotencyKey := "l", dependsOn := some "a" } 1,
    .enqueue { sampleOperation with operationId := "c", idempotencyKey := "m" } 2]

theorem queuedSample_idle : queuedSample.store.Idle 10 where
  disjoint := (run_sound Host.plain _).disjoint
  objects := by
    refine run_objects Host.plain _ ?_
    simpa [Call.Objects] using ⟨[], rfl⟩
  free := by decide +kernel
  passed := by decide +kernel

/-- The executor fails on the third operation, with an exception. -/
def mixedFlush : FlushEnv :=
  { sampleFlush with
    execute := fun _ op => ⟨[], if op.operationId = "c" then .error (.exception (points "refused"))
      else .ok (AttemptResult.success false (some 200)).returned⟩ }

theorem mixed_storable (a : ExecutorCall) : (a.execution mixedFlush).Storable := by
  by_cases h : a.operation.operationId = "c"
  · refine ⟨(AttemptResult.failure .retry none (some "refused")).returned, ?_, returned_bound nofun⟩
    simp [ExecutorCall.execution, mixedFlush, h, Execution.result, AttemptResult.returned,
      AttemptResult.failure]
  · refine ⟨(AttemptResult.success false (some 200)).returned, ?_, returned_bound ?_⟩
    · simp [ExecutorCall.execution, mixedFlush, h, Execution.result]
    · simp [AttemptResult.success, INT64_END]

theorem flush_attempts_sample : ∃ report st,
    flush mixedFlush 4 queuedSample = some (.ok report, st) ∧
    OneFlush mixedFlush queuedSample report st ∧ st.attempted = ["a", "b", "c"] ∧
    report.claimed = 3 ∧ report.outcomes .succeed = 2 ∧ report.outcomes .retry = 1 := by
  have hruns : (flush mixedFlush 4 queuedSample).map (fun out => (out.2.attempted,
      out.1.toOption.map fun report => (report.claimed, report.outcomes .succeed,
        report.outcomes .retry))) = some (["a", "b", "c"], some (3, 2, 1)) := by decide +kernel
  have hr : mixedFlush.Regular := sampleFlush_regular _
  obtain ⟨out, st, hflush, -, hiff⟩ := flush_attempts hr queuedSample_idle
  have hended := hflush 4 (by decide)
  obtain ⟨report, rfl, hone⟩ := hiff.mpr fun a _ => mixed_storable a
  rw [hended] at hruns
  simp only [Option.map_some, Except.toOption, Option.some.injEq, Prod.mk.injEq] at hruns
  exact ⟨report, st, hended, hone, hruns⟩

/-- A lone surrogate in the text of an exception, as a file name of undecodable bytes has one. -/
def surrogateFlush : FlushEnv :=
  { sampleFlush with execute := fun _ _ => ⟨[], .error (.exception [0xDC80])⟩ }

/-- The flush raises, and the other operation that it would reach is not attempted. -/
theorem surrogate_stops_flush : surrogateFlush.Regular ∧
    queuedSample.store.Idle (surrogateFlush.now queuedSample) ∧
    ∃ st, flush surrogateFlush 4 queuedSample = some (.error .unicodeEncodeError, st) ∧
      st.attempted = ["a"] ∧ Reached queuedSample.store st.world.store "c" := by
  have hruns : (flush surrogateFlush 4 queuedSample).map (fun out => (out.2.attempted,
      match out.1 with | .ok _ => none | .error e => some e)) =
        some (["a"], some .unicodeEncodeError) := by decide +kernel
  refine ⟨sampleFlush_regular _, queuedSample_idle, ?_⟩
  obtain ⟨⟨out, st⟩, hflush, hfacts⟩ := Option.map_eq_some_iff.mp hruns
  obtain ⟨hattempted, hout⟩ := Prod.mk.inj hfacts
  obtain ⟨row, hrow, hstate, hdepends⟩ : ∃ row, queuedSample.store.operations.find "c" = some row ∧
      row.state.claimable = true ∧ row.dependsOn = none := ⟨_, rfl, rfl, rfl⟩
  refine ⟨st, ?_, hattempted, .ready hrow hstate (by rw [hdepends]; rfl)⟩
  cases out with
  | ok report => cases hout
  | error e =>
    cases hout
    exact hflush

end SibylMemory.Outbox
