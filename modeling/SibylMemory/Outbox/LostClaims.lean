import SibylMemory.Outbox.ClaimColumns
import SibylMemory.Outbox.FlushRuns

/-!
# Claims that are lost while a flush runs (`outbox.py:939-976`, `1185-1255`)

The executor of a flush is guarded, the application of its result is not. What a flush should do is
the same flush with whatever an attempt raises (`ClaimLostError`, an error text that cannot be
stored) taken as the end of one operation; the two agree as long as nothing is raised, and the first
attempt that raises ends the flush that is written.
-/

namespace SibylMemory.Outbox

section Definitions
variable (env : FlushEnv)

/-- `flushPage` with an attempt that raises taken as the end of its operation. -/
def sparingPage (deadline : Option Int) :
    List ClaimedOperation → FlushState → Except OutboxException Bool × FlushState
  | [], st => (.ok false, st)
  | op :: ops, st =>
    if env.expired deadline st.world then
      let now := env.now st.world
      ((releaseUnattempted (op :: ops) now st.world.store).1.map fun _ => true,
        st.call env (.releaseUnattempted (op :: ops) now))
    else sparingPage deadline ops (attemptOperation env st op).2

def sparingLoop (deadline : Option Int) (readyBefore : Instant) :
    Nat → FlushState → Option (Except OutboxException Bool × FlushState)
  | 0, _ => none
  | fuel + 1, st =>
    if env.expired deadline st.world then some (.ok true, st)
    else
      let page := env.page readyBefore st.world
      match (claimPage env.config page st.world.store).1, st.call env (.claimPage env.config page) with
      | .error e, st => some (.error e, st)
      | .ok [], st => some (.ok false, st)
      | .ok claims, st =>
        match sparingPage env deadline claims (st.grant claims) with
        | (.error e, st) => some (.error e, st)
        | (.ok true, st) => some (.ok true, st)
        | (.ok false, st) => sparingLoop deadline readyBefore fuel st

def sparingFlush (fuel : Nat) (w : World) : Option (Except OutboxException Bool × FlushState) :=
  sparingLoop env (env.deadline w) (env.now w) fuel { world := w }

/-- The executor ends in a result, and when it is applied the claim is in force and the result can
be stored, or there is nothing to apply. -/
def Kept (st : FlushState) (op : ClaimedOperation) : Prop :=
  ∃ r, (env.execute st.world op).result = .ok r ∧
    (r.action = .superseded ∨ (env.executed st.world op).store.holds op = true ∧ r.fault = none)

def PageKept (deadline : Option Int) : List ClaimedOperation → FlushState → Prop
  | [], _ => True
  | op :: ops, st => env.expired deadline st.world = true ∨
      Kept env st op ∧ PageKept deadline ops (attemptOperation env st op).2

def LoopKept (deadline : Option Int) (readyBefore : Instant) : Nat → FlushState → Prop
  | 0, _ => True
  | fuel + 1, st => env.expired deadline st.world = true ∨
      let page := env.page readyBefore st.world
      match (claimPage env.config page st.world.store).1 with
      | .error _ => True
      | .ok [] => True
      | .ok claims =>
        let st := (st.call env (.claimPage env.config page)).grant claims
        PageKept env deadline claims st ∧
          match sparingPage env deadline claims st with
          | (.ok false, st) => LoopKept deadline readyBefore fuel st
          | _ => True

/-- No attempt of the flush loses its claim, or ends in what cannot be stored. -/
def ClaimsKept (fuel : Nat) (w : World) : Prop :=
  LoopKept env (env.deadline w) (env.now w) fuel { world := w }

/-- `DurableOutbox.shutdown` (`outbox.py:1240-1255`); the flag is `_closed` when it is left. -/
def shutdown (fuel : Nat) (w : World) :
    Option (Except OutboxException FlushReport × FlushState × Bool) :=
  (flush env fuel w).map fun out =>
    match out with
    | (.ok report, st) => (.ok report, st, true)
    | (.error e, st) => (.error e, st, false)

end Definitions

/-! ### One attempt -/

theorem applyResult_lost {s : Store} {op : ClaimedOperation} {result : AttemptResult}
    (hlost : s.holds op = false) (haction : result.action ≠ .superseded) (now : Instant) :
    applyResult op result now s = (.error (lostClaim op), s) := by
  have hrow : s.heldRow op = none := by
    rw [Store.holds, List.any_eq_false] at hlost
    exact List.find?_eq_none.mpr hlost
  have hsettle : ∀ state, settle op state result now s = (.error (lostClaim op), s) := by
    intro state
    simp [settle, transact, hlost, throw, throwThe, MonadExceptOf.throw, bind, Except.bind]
  have harchive : ∀ outcome, archiveAndDelete op outcome result now s
      = (.error (lostClaim op), s) := by
    intro outcome
    simp [archiveAndDelete, transact, hrow]
  unfold applyResult
  split
  · contradiction
  · exact harchive _
  · exact harchive _
  all_goals exact hsettle _

/-- The outbox was reached by calls whose requests are objects. -/
def Grown (env : FlushEnv) (w : World) : Prop :=
  ∃ calls, w = World.run env.host calls ∧ ∀ c ∈ calls, c.Objects

/-- Valid arguments, and an executor that enqueues objects only. -/
structure FlushEnv.Admissible (env : FlushEnv) : Prop where
  worker : env.workerId ≠ ""
  size : 1 ≤ env.pageSize
  timeout : ∀ t, env.timeoutSeconds = some t → 0 ≤ t
  objects : ∀ w op, ∀ c ∈ (env.execute w op).calls, c.Objects

section Attempts
variable {env : FlushEnv} {w : World} {st : FlushState} {op : ClaimedOperation}

theorem Grown.exec (h : Grown env w) (calls : List Call) (hc : ∀ c ∈ calls, c.Objects) :
    Grown env (Run.exec (World.step env.host) w calls) := by
  obtain ⟨before, rfl, hbefore⟩ := h
  refine ⟨before ++ calls, (run_append _ _ _).symm, fun c hmem => ?_⟩
  rcases List.mem_append.mp hmem with hmem | hmem
  · exact hbefore c hmem
  · exact hc c hmem

theorem Grown.step (h : Grown env w) {c : Call} (hc : c.Objects) :
    Grown env (World.step env.host w c) :=
  h.exec [c] fun c' hc' => by rw [List.mem_singleton.mp hc']; exact hc

theorem Grown.disjoint (h : Grown env w) : w.store.Disjoint := by
  obtain ⟨calls, rfl, -⟩ := h
  exact (run_sound env.host calls).disjoint

theorem Grown.objects (h : Grown env w) :
    ∀ row ∈ w.store.operations.rows, ∃ request, row.request = .dict request := by
  obtain ⟨calls, rfl, hc⟩ := h
  exact run_objects env.host calls hc

theorem Grown.release_total (h : Grown env w) (ops : List ClaimedOperation) (now : Instant) :
    ∃ s', releaseUnattempted ops now w.store = (.ok (), s') := by
  obtain ⟨calls, rfl, -⟩ := h
  have hb := bookkept_run env.host calls
  have hrows := hb.rows
  rw [tally_run_world] at hrows
  refine releaseUnattempted_total now fun row hrow hheld => ?_
  obtain ⟨op, -, hop⟩ := List.any_eq_true.mp hheld
  have hpos := (hrows _ row (KeyedTable.find_of_mem hrow)).claimed
    (by rw [((heldBy_iff op row).mp hop).2]; rfl)
  omega

theorem Grown.attempt (ha : env.Admissible) (h : Grown env st.world) (op : ClaimedOperation) :
    Grown env (attemptOperation env st op).2.world := by
  have hexecuted : Grown env (env.executed st.world op) := h.exec _ (ha.objects st.world op)
  rw [(attempt_state env st op).1]
  rcases settled_cases env st.world op with he | ⟨result, he⟩
  · rw [he]
    exact hexecuted
  · rw [he]
    exact hexecuted.step trivial

theorem attempt_counts (env : FlushEnv) (st : FlushState) (op : ClaimedOperation) :
    (attemptOperation env st op).2.claims = st.claims ∧
      (attemptOperation env st op).2.attempted = st.attempted ++ [op.operationId] := by
  obtain ⟨-, hclaims, hattempts⟩ := attempt_state env st op
  refine ⟨hclaims, ?_⟩
  rw [FlushState.attempted, hattempts, List.map_append]
  rfl

theorem attempt_kept (ha : env.Admissible) (h : Grown env st.world) (hk : Kept env st op) :
    (attemptOperation env st op).1 = .ok () := by
  have hd := (h.exec _ (ha.objects st.world op)).disjoint
  obtain ⟨r, hresult, hr⟩ := hk
  have hb : r.Bound := hr.imp_right And.right
  have happly : ∃ s', applyResult op r.stored (env.now (env.executed st.world op))
      (env.executed st.world op).store = (.ok (), s') := by
    rcases hr with hsuper | ⟨hheld, -⟩
    · exact ⟨(env.executed st.world op).store, by
        rw [applyResult, show r.stored.action = .superseded from hsuper]⟩
    · exact applyResult_total hd hheld _ _
  obtain ⟨s', hs'⟩ := happly
  simp only [attemptOperation, hresult, applyReturned_bound hb, hs']

theorem attempt_lost (hk : ¬ Kept env st op) :
    ∃ e, (attemptOperation env st op).1 = .error e := by
  by_cases hstorable : (env.execute st.world op).Storable
  · obtain ⟨r, hresult, hb⟩ := hstorable
    have haction : r.action ≠ .superseded := fun h => hk ⟨r, hresult, .inl h⟩
    have hlost : (env.executed st.world op).store.holds op = false :=
      Bool.eq_false_of_not_eq_true fun hheld =>
        hk ⟨r, hresult, .inr ⟨hheld, hb.resolve_left haction⟩⟩
    refine ⟨lostClaim op, ?_⟩
    simp only [attemptOperation, hresult, applyReturned_bound hb,
      applyResult_lost hlost (show r.stored.action ≠ .superseded from haction)]
  · exact attempt_unstorable hstorable

/-! ### The loops, with and without a loss -/

theorem page_kept (ha : env.Admissible) {deadline : Option Int} {ops : List ClaimedOperation}
    (hg : Grown env st.world) (h : PageKept env deadline ops st) :
    flushPage env deadline ops st = sparingPage env deadline ops st := by
  induction ops generalizing st with
  | nil => rfl
  | cons op ops ih =>
    rw [flushPage, sparingPage]
    split
    · rfl
    · rename_i hexpired
      obtain ⟨hkept, hrest⟩ := h.resolve_left hexpired
      rw [← ih (hg.attempt ha op) hrest]
      have hok := attempt_kept ha hg hkept
      cases hattempt : attemptOperation env st op with
      | mk out st' =>
        rw [hattempt] at hok
        cases hok
        rfl

theorem page_lost (ha : env.Admissible) {deadline : Option Int} {ops : List ClaimedOperation}
    (hg : Grown env st.world) (h : ¬ PageKept env deadline ops st) :
    ∃ e st', flushPage env deadline ops st = (.error e, st') := by
  induction ops generalizing st with
  | nil => exact absurd trivial h
  | cons op ops ih =>
    obtain ⟨hexpired, hrest⟩ := not_or.mp h
    rw [flushPage, if_neg hexpired]
    by_cases hkept : Kept env st op
    · have hok := attempt_kept ha hg hkept
      obtain ⟨lost, st', hlost⟩ := ih (hg.attempt ha op) fun hp => hrest ⟨hkept, hp⟩
      refine ⟨lost, st', ?_⟩
      rw [← hlost]
      cases hattempt : attemptOperation env st op with
      | mk out st' =>
        rw [hattempt] at hok
        cases hok
        rfl
    · obtain ⟨e, herror⟩ := attempt_lost hkept
      cases hattempt : attemptOperation env st op with
      | mk out st' =>
        rw [hattempt] at herror
        cases herror
        exact ⟨e, st', rfl⟩

/-- The claims of a flush are those it attempted and those in `pend`. -/
def Pending (pend : List ClaimedOperation) (st : FlushState) : Prop :=
  ∃ done, st.claims = done ++ pend ∧ st.attempted = done.map ClaimedOperation.operationId

def GivenBack (st : FlushState) : Prop :=
  ∃ pend, Pending pend st ∧ ∀ c ∈ pend, st.world.store.holds c = false

theorem released_holds (host : Host) {s s' : Store} {ops : List ClaimedOperation} {now : Instant}
    (h : Effect host s (.releaseUnattempted ops now) .done s') {op : ClaimedOperation}
    (hop : op ∈ ops) : s'.holds op = false := by
  cases hheld : s'.holds op with
  | false => rfl
  | true =>
    obtain ⟨row, hrow, htoken⟩ := (holds_iff s' op).mp hheld
    cases h with
    | release hops =>
      rw [hops, Option.map_eq_some_iff] at hrow
      obtain ⟨row₀, hrow₀, rfl⟩ := hrow
      split at htoken
      · cases htoken
      · rename_i hnot
        have hby : row₀.heldByAny ops = true :=
          List.any_eq_true.mpr ⟨op, hop, (heldBy_iff op row₀).mpr ⟨KeyedTable.find_key hrow₀, htoken⟩⟩
        exact absurd hby hnot

theorem sparing_page (ha : env.Admissible) (deadline : Option Int) {ops : List ClaimedOperation}
    (hg : Grown env st.world) (hp : Pending ops st) :
    ∃ exhausted st', sparingPage env deadline ops st = (.ok exhausted, st') ∧
      Grown env st'.world ∧ GivenBack st' ∧ (exhausted = false → Pending [] st') := by
  induction ops generalizing st with
  | nil => exact ⟨false, st, rfl, hg, ⟨[], hp, List.forall_mem_nil _⟩, fun _ => hp⟩
  | cons op ops ih =>
    rw [sparingPage]
    split
    · obtain ⟨s', hs'⟩ := hg.release_total (op :: ops) (env.now st.world)
      have hstore : (World.step env.host st.world
          (.releaseUnattempted (op :: ops) (env.now st.world))).store = s' := by
        show (releaseUnattempted (op :: ops) (env.now st.world) st.world.store).2 = s'
        rw [hs']
      refine ⟨true, st.call env (.releaseUnattempted (op :: ops) (env.now st.world)),
        by simp only [hs']; rfl, hg.step trivial, ⟨op :: ops, hp, fun c hc => ?_⟩, nofun⟩
      rw [FlushState.call, hstore]
      exact released_holds env.host (releaseUnattempted_effect hs') hc
    · refine ih (hg.attempt ha op) ?_
      obtain ⟨done, hclaims, hattempted⟩ := hp
      obtain ⟨hc, hat⟩ := attempt_counts env st op
      refine ⟨done ++ [op], ?_, ?_⟩
      · rw [hc, hclaims, List.append_assoc, List.singleton_append]
      · rw [hat, hattempted, List.map_append]
        rfl

theorem pending_grant (hp : Pending [] st) (claims : List ClaimedOperation) (world : World) :
    Pending claims ({ st with world }.grant claims) := by
  obtain ⟨done, hclaims, hattempted⟩ := hp
  rw [List.append_nil] at hclaims
  exact ⟨done, by rw [FlushState.grant, hclaims], hattempted⟩

theorem page_total (ha : env.Admissible) (hg : Grown env w) (readyBefore : Instant) :
    ∃ claims s', claimPage env.config (env.page readyBefore w) w.store = (.ok claims, s') :=
  claimPage_total env.config (show (env.page readyBefore w).workerId ≠ "" from ha.worker) ha.size rfl
    fun row hrow => hg.objects row (KeyedTable.find_mem (mem_selected hrow).1)

theorem sparing_granted (ha : env.Admissible) (deadline : Option Int) (readyBefore : Instant)
    (ops : List ClaimedOperation) (hg : Grown env st.world) (hp : Pending [] st) :
    Grown env ((st.call env (.claimPage env.config
        (env.page readyBefore st.world))).grant ops).world ∧
      ∃ exhausted st', sparingPage env deadline ops ((st.call env (.claimPage env.config
          (env.page readyBefore st.world))).grant ops) = (.ok exhausted, st') ∧
        Grown env st'.world ∧ GivenBack st' ∧ (exhausted = false → Pending [] st') := by
  have hg' : Grown env ((st.call env (.claimPage env.config
      (env.page readyBefore st.world))).grant ops).world := hg.step trivial
  exact ⟨hg', sparing_page ha deadline hg' (pending_grant hp ops _)⟩

theorem sparing_loop (ha : env.Admissible) {deadline : Option Int} {readyBefore : Instant}
    {fuel : Nat} {out : Except OutboxException Bool × FlushState} (hg : Grown env st.world)
    (hp : Pending [] st) (h : sparingLoop env deadline readyBefore fuel st = some out) :
    (∃ exhausted, out.1 = .ok exhausted) ∧ GivenBack out.2 := by
  induction fuel generalizing st with
  | zero => cases h
  | succ fuel ih =>
    rw [sparingLoop] at h
    split at h
    · cases h
      exact ⟨⟨true, rfl⟩, [], hp, List.forall_mem_nil _⟩
    · obtain ⟨claims, s', hclaim⟩ := page_total ha hg readyBefore
      simp only [hclaim] at h
      cases claims with
      | nil =>
        cases h
        exact ⟨⟨false, rfl⟩, [], hp, List.forall_mem_nil _⟩
      | cons c cs =>
        obtain ⟨-, exhausted, st', hpage, hgrown, hback, hopen⟩ :=
          sparing_granted ha deadline readyBefore (c :: cs) hg hp
        simp only [hpage] at h
        cases exhausted with
        | true =>
          cases h
          exact ⟨⟨true, rfl⟩, hback⟩
        | false => exact ih hgrown (hopen rfl) h

theorem loop_kept (ha : env.Admissible) {deadline : Option Int} {readyBefore : Instant} {fuel : Nat}
    (hg : Grown env st.world) (hp : Pending [] st) (h : LoopKept env deadline readyBefore fuel st) :
    flushLoop env deadline readyBefore fuel st = sparingLoop env deadline readyBefore fuel st := by
  induction fuel generalizing st with
  | zero => rfl
  | succ fuel ih =>
    rw [flushLoop, sparingLoop]
    split
    · rfl
    · rename_i hexpired
      obtain ⟨claims, s', hclaim⟩ := page_total ha hg readyBefore
      have hkept := h.resolve_left hexpired
      simp only [hclaim] at hkept ⊢
      cases claims with
      | nil => rfl
      | cons c cs =>
        obtain ⟨hg', exhausted, st', hpage, hgrown, -, hopen⟩ :=
          sparing_granted ha deadline readyBefore (c :: cs) hg hp
        dsimp only at hkept ⊢
        generalize (st.call env (.claimPage env.config
          (env.page readyBefore st.world))).grant (c :: cs) = granted at hg' hpage hkept ⊢
        obtain ⟨hpagekept, hrest⟩ := hkept
        simp only [page_kept ha hg' hpagekept, hpage] at hrest ⊢
        cases exhausted with
        | true => rfl
        | false => exact ih hgrown (hopen rfl) hrest

theorem loop_lost (ha : env.Admissible) {deadline : Option Int} {readyBefore : Instant} {fuel : Nat}
    (hg : Grown env st.world) (hp : Pending [] st)
    (h : ¬ LoopKept env deadline readyBefore fuel st) :
    ∃ e st', flushLoop env deadline readyBefore fuel st = some (.error e, st') := by
  induction fuel generalizing st with
  | zero => exact absurd trivial h
  | succ fuel ih =>
    obtain ⟨hexpired, hkept⟩ := not_or.mp h
    obtain ⟨claims, s', hclaim⟩ := page_total ha hg readyBefore
    rw [flushLoop, if_neg hexpired]
    simp only [hclaim] at hkept ⊢
    cases claims with
    | nil => exact absurd trivial hkept
    | cons c cs =>
      obtain ⟨hg', exhausted, st', hpage, hgrown, -, hopen⟩ :=
        sparing_granted ha deadline readyBefore (c :: cs) hg hp
      dsimp only at hkept ⊢
      generalize (st.call env (.claimPage env.config
        (env.page readyBefore st.world))).grant (c :: cs) = granted at hg' hpage hkept ⊢
      by_cases hpagekept : PageKept env deadline (c :: cs) granted
      · have hrest := fun hl => hkept ⟨hpagekept, hl⟩
        simp only [page_kept ha hg' hpagekept, hpage] at hrest ⊢
        cases exhausted with
        | true => exact absurd trivial hrest
        | false => exact ih hgrown (hopen rfl) hrest
      · obtain ⟨e, st'', hlost⟩ := page_lost ha hg' hpagekept
        exact ⟨e, st'', by simp only [hlost]⟩

/-! ### The loop ends -/

/-- A clock that does not go back, shared by all who act while the flush runs. -/
structure FlushEnv.Ticking (env : FlushEnv) : Prop where
  clock : ∀ w calls, env.now w ≤ env.now (Run.exec (World.step env.host) w calls)
  readings : ∀ w op, ∀ c ∈ (env.execute w op).calls, ∀ t ∈ c.readings, env.now w ≤ t

def Store.staleIds (s : Store) (cutoff : Instant) : List String :=
  (s.operations.rows.filter fun row => row.updatedAt < cutoff).map OperationRow.operationId

theorem mem_staleIds {s : Store} {cutoff : Instant} {i : String} :
    i ∈ s.staleIds cutoff ↔ ∃ row, s.operations.find i = some row ∧ row.updatedAt < cutoff := by
  simp only [Store.staleIds, List.mem_map, List.mem_filter, decide_eq_true_eq,
    KeyedTable.find_eq_some_iff]
  constructor
  · rintro ⟨row, ⟨hrow, hstale⟩, hid⟩
    exact ⟨row, ⟨hrow, hid⟩, hstale⟩
  · rintro ⟨row, ⟨hrow, hid⟩, hstale⟩
    exact ⟨row, ⟨hrow, hstale⟩, hid⟩

theorem staleIds_nodup (s : Store) (cutoff : Instant) : (s.staleIds cutoff).Nodup :=
  s.operations.nodup.sublist (List.filter_sublist.map _)

theorem step_stale {cutoff : Instant} {c : Call} (hc : ∀ t ∈ c.readings, cutoff ≤ t) :
    (World.step env.host w c).store.staleIds cutoff ⊆ w.store.staleIds cutoff := by
  intro i hi
  rcases step_cases env.host w c with ⟨e, he⟩ | ⟨r, s', heff, he⟩
  · rw [he] at hi
    exact hi
  · rw [he] at hi
    obtain ⟨row, hrow, hstale⟩ := mem_staleIds.mp hi
    rcases effect_stamp heff hrow with hold | hstamp
    · exact mem_staleIds.mpr ⟨row, hold, hstale⟩
    · exact absurd hstale (not_lt.mpr (hc _ hstamp))

theorem exec_stale {cutoff : Instant} {calls : List Call}
    (hc : ∀ c ∈ calls, ∀ t ∈ c.readings, cutoff ≤ t) :
    (Run.exec (World.step env.host) w calls).store.staleIds cutoff ⊆ w.store.staleIds cutoff := by
  induction calls generalizing w with
  | nil => exact List.Subset.refl _
  | cons c calls ih =>
    exact List.Subset.trans (ih fun c' hc' => hc c' (List.mem_cons_of_mem _ hc'))
      (step_stale (hc c List.mem_cons_self))

theorem attempt_stale (ht : env.Ticking) {cutoff : Instant} (hclock : cutoff ≤ env.now st.world)
    (op : ClaimedOperation) :
    (attemptOperation env st op).2.world.store.staleIds cutoff ⊆ st.world.store.staleIds cutoff ∧
      cutoff ≤ env.now (attemptOperation env st op).2.world := by
  have hexecuted : cutoff ≤ env.now (env.executed st.world op) := hclock.trans (ht.clock _ _)
  have hstale : (env.executed st.world op).store.staleIds cutoff ⊆ st.world.store.staleIds cutoff :=
    exec_stale fun c hc t hmem => hclock.trans (ht.readings st.world op c hc t hmem)
  rw [(attempt_state env st op).1]
  rcases settled_cases env st.world op with he | ⟨result, he⟩
  · rw [he]
    exact ⟨hstale, hexecuted⟩
  · rw [he]
    refine ⟨List.Subset.trans (step_stale fun t hmem => ?_) hstale, hexecuted.trans (ht.clock _ [_])⟩
    rw [List.mem_singleton.mp hmem]
    exact hexecuted

theorem sparing_page_stale (ht : env.Ticking) (deadline : Option Int)
    (ops : List ClaimedOperation) {cutoff : Instant} (hclock : cutoff ≤ env.now st.world) :
    (sparingPage env deadline ops st).2.world.store.staleIds cutoff ⊆ st.world.store.staleIds cutoff ∧
      cutoff ≤ env.now (sparingPage env deadline ops st).2.world := by
  induction ops generalizing st with
  | nil => exact ⟨List.Subset.refl _, hclock⟩
  | cons op ops ih =>
    rw [sparingPage]
    split
    · refine ⟨step_stale fun t hmem => ?_, hclock.trans (ht.clock st.world [_])⟩
      rw [List.mem_singleton.mp hmem]
      exact hclock
    · obtain ⟨hattempt, hlater⟩ := attempt_stale ht hclock op
      obtain ⟨hrest, hend⟩ := ih hlater
      exact ⟨List.Subset.trans hrest hattempt, hend⟩

/-- A page that claims something writes an operation that was not written since the cut-off. -/
theorem claim_stale {cutoff : Instant} (hclock : cutoff ≤ env.now w) {c : ClaimedOperation}
    {cs : List ClaimedOperation} {s' : Store}
    (h : claimPage env.config (env.page cutoff w) w.store = (.ok (c :: cs), s')) :
    (s'.staleIds cutoff).length < (w.store.staleIds cutoff).length := by
  have heff : Effect env.host w.store _ _ s' := claimPage_effect h
  cases heff with
  | @claim _ _ _ operations granted =>
    -- what is claimed carries the reading of the page
    have hclaimed : ∀ claim ∈ c :: cs, claim.operationId ∉
        Store.staleIds { w.store with operations } cutoff := by
      intro claim hmem hstale
      obtain ⟨row, k, -, -, -, htaken⟩ := granted.of_claim hmem
      obtain ⟨row', hrow', hbefore⟩ := mem_staleIds.mp hstale
      rw [htaken] at hrow'
      cases hrow'
      exact absurd hbefore (not_lt.mpr hclock)
    have hsub : Store.staleIds { w.store with operations } cutoff ⊆
        (w.store.staleIds cutoff).erase c.operationId := by
      intro i hi
      have hnot : i ∉ (c :: cs).map ClaimedOperation.operationId := by
        intro hmem
        obtain ⟨claim, hclaim, rfl⟩ := List.mem_map.mp hmem
        exact hclaimed claim hclaim hi
      obtain ⟨row, hrow, hbefore⟩ := mem_staleIds.mp hi
      rw [granted.not_claimed hnot] at hrow
      refine (List.mem_erase_of_ne ?_).mpr (mem_staleIds.mpr ⟨row, hrow, hbefore⟩)
      rintro rfl
      exact hnot List.mem_cons_self
    have hmem : c.operationId ∈ w.store.staleIds cutoff := by
      obtain ⟨row, k, hrow, hsel, -, -⟩ := granted.of_claim List.mem_cons_self
      have hselectable := (mem_selected hsel).2
      simp only [Store.selectable, Bool.and_eq_true, decide_eq_true_eq] at hselectable
      exact mem_staleIds.mpr ⟨row, hrow, hselectable.1.1.2⟩
    have hle := (List.subperm_of_subset (staleIds_nodup _ cutoff) hsub).length_le
    rw [List.length_erase_of_mem hmem] at hle
    have hpos := List.length_pos_of_mem hmem
    exact lt_of_le_of_lt hle (Nat.sub_one_lt_of_lt hpos)

theorem sparing_ends (ha : env.Admissible) (ht : env.Ticking) {deadline : Option Int}
    {cutoff : Instant} {fuel : Nat} (hg : Grown env st.world) (hp : Pending [] st)
    (hclock : cutoff ≤ env.now st.world)
    (hfuel : (st.world.store.staleIds cutoff).length < fuel) :
    (sparingLoop env deadline cutoff fuel st).isSome := by
  induction fuel generalizing st with
  | zero => omega
  | succ fuel ih =>
    rw [sparingLoop]
    split
    · rfl
    · obtain ⟨claims, s', hclaim⟩ := page_total ha hg cutoff
      simp only [hclaim]
      cases claims with
      | nil => rfl
      | cons c cs =>
        have hstore : (st.call env (.claimPage env.config (env.page cutoff st.world))).world.store
            = s' := by
          show (claimPage env.config (env.page cutoff st.world) st.world.store).2 = s'
          rw [hclaim]
        have hless := claim_stale hclock hclaim
        rw [← hstore] at hless
        have hclock' : cutoff ≤ env.now ((st.call env (.claimPage env.config
            (env.page cutoff st.world))).grant (c :: cs)).world := hclock.trans (ht.clock st.world [_])
        obtain ⟨-, exhausted, st', hpage, hgrown, -, hopen⟩ :=
          sparing_granted ha deadline cutoff (c :: cs) hg hp
        obtain ⟨hsub, hlater⟩ := sparing_page_stale ht deadline (c :: cs) hclock'
        dsimp only
        rw [hpage] at hsub hlater ⊢
        cases exhausted with
        | true => rfl
        | false =>
          have hle := (List.subperm_of_subset (staleIds_nodup _ cutoff) hsub).length_le
          exact ih hgrown (hopen rfl) hlater
            (lt_of_lt_of_le (lt_of_le_of_lt hle hless) (Nat.lt_succ_iff.mp hfuel))

end Attempts

/-! ### Results -/

/-- A flush returns, attempts what it would attempt if a loss were spared, and leaves nothing under
a claim that it did not attempt. -/
structure CostsOnlyThat (out : Except OutboxException FlushReport × FlushState)
    (spared : FlushState) : Prop where
  returns : ∃ report, out.1 = .ok report
  attempts : out.2.attempted = spared.attempted
  givenBack : GivenBack out.2

/-- A flush that spares what it lost returns and gives back the rest, whatever happens while it
runs, and on a shared clock it ends. The flush that is written does the same, and a shutdown closes
the outbox, exactly when no attempt loses its claim or ends in what cannot be stored. -/
theorem lost_claims {env : FlushEnv} {w : World} (ha : env.Admissible) (hg : Grown env w) :
    (env.Ticking → ∀ fuel, w.store.operations.rows.length < fuel →
      (sparingFlush env fuel w).isSome) ∧
    ∀ fuel spared, sparingFlush env fuel w = some spared →
      ((∃ exhausted, spared.1 = .ok exhausted) ∧ GivenBack spared.2) ∧
      ∃ out closed, flush env fuel w = some out ∧
        shutdown env fuel w = some (out.1, out.2, closed) ∧
        (CostsOnlyThat out spared.2 ↔ ClaimsKept env fuel w) ∧
        (closed = true ↔ ClaimsKept env fuel w) := by
  have hp : Pending [] (FlushState.mk w 0 (fun _ => 0) [] []) := ⟨[], rfl, rfl⟩
  refine ⟨fun ht fuel hfuel => ?_, fun fuel spared hspared => ?_⟩
  · refine sparing_ends ha ht hg hp (le_refl _) (lt_of_le_of_lt ?_ hfuel)
    rw [Store.staleIds, List.length_map]
    exact List.length_filter_le _ _
  have htimeout : ¬ ∃ t, env.timeoutSeconds = some t ∧ t < 0 := by
    rintro ⟨t, ht, hneg⟩
    have hpos := ha.timeout t ht
    omega
  obtain ⟨⟨exhausted, hok⟩, hback⟩ := sparing_loop ha hg hp hspared
  refine ⟨⟨⟨exhausted, hok⟩, hback⟩, ?_⟩
  by_cases hkept : ClaimsKept env fuel w
  · have hsame := loop_kept ha hg hp hkept
    have hflush : flush env fuel w = some
        (.ok ⟨spared.2.claimed, spared.2.outcomes, exhausted⟩, spared.2) := by
      rw [flush, if_neg htimeout, hsame, show sparingLoop env _ _ fuel _ = some spared from hspared,
        Option.map_some, hok]
      rfl
    refine ⟨_, true, hflush, by rw [shutdown, hflush]; rfl, ?_, ?_⟩
    · exact iff_of_true ⟨⟨_, rfl⟩, rfl, hback⟩ hkept
    · exact iff_of_true rfl hkept
  · obtain ⟨e, st, hlost⟩ := loop_lost ha hg hp hkept
    have hflush : flush env fuel w = some (.error e, st) := by
      rw [flush, if_neg htimeout, hlost]
      rfl
    refine ⟨_, false, hflush, by rw [shutdown, hflush]; rfl, ?_, ?_⟩
    · refine iff_of_false (fun h => ?_) hkept
      obtain ⟨report, hreport⟩ := h.returns
      cases hreport
    · exact iff_of_false Bool.false_ne_true hkept

/-! ### A claim that is taken over -/

/-- While an operation is executed its lease runs out, and another worker claims it. -/
def overtakenFlush : FlushEnv where
  host := Host.plain
  config := sampleConfig
  workerId := "worker"
  pageSize := 2
  timeoutSeconds := none
  now := fun _ => 10
  stamp := fun _ => 10
  monotonic := fun _ => 0
  uuids := fun _ k => if k = 0 then "first" else "second"
  execute := fun _ _ => ⟨[.claimPage sampleConfig (samplePage "other" "taken" 1000)],
    .ok (AttemptResult.success false (some 200)).returned⟩

theorem overtakenFlush_admissible : overtakenFlush.Admissible where
  worker := by decide
  size := by decide
  timeout := nofun
  objects := by
    intro w op c hc
    rw [List.mem_singleton.mp hc]
    trivial

theorem overtakenFlush_ticking : overtakenFlush.Ticking where
  clock := fun _ _ => le_refl _
  readings := by
    intro w op c hc t ht
    rw [List.mem_singleton.mp hc] at ht
    have hreadings : ∀ t ∈ (Call.claimPage sampleConfig (samplePage "other" "taken" 1000)).readings,
        (10 : Instant) ≤ t := by decide
    exact hreadings t ht

theorem queuedSample_grown (env : FlushEnv) (h : env.host = Host.plain) : Grown env queuedSample := by
  refine ⟨_, by rw [h]; rfl, ?_⟩
  simpa [Call.Objects] using ⟨[], rfl⟩

/-- The claims of the first page are lost: the flush that spares them attempts all operations, the
one that is written raises, and the outbox stays open. -/
theorem lost_claims_sample : ∃ out spared, flush overtakenFlush 4 queuedSample = some out ∧
    sparingFlush overtakenFlush 4 queuedSample = some spared ∧
    shutdown overtakenFlush 4 queuedSample = some (out.1, out.2, false) ∧
    (spared.2.attempted = ["a", "c"] ∧ GivenBack spared.2) ∧ ¬ ClaimsKept overtakenFlush 4 queuedSample ∧
    ¬ CostsOnlyThat out spared.2 := by
  have hfacts : (flush overtakenFlush 4 queuedSample).map (fun out => out.1.isOk) = some false := by
    decide +kernel
  have hattempts : (sparingFlush overtakenFlush 4 queuedSample).map (fun out => out.2.attempted) =
      some ["a", "c"] := by decide +kernel
  obtain ⟨hends, hall⟩ := lost_claims overtakenFlush_admissible (queuedSample_grown _ rfl)
  obtain ⟨spared, hspared⟩ := Option.isSome_iff_exists.mp
    (hends overtakenFlush_ticking 4 (by decide))
  obtain ⟨⟨-, hback⟩, out, closed, hflush, hshutdown, hcosts, hclosed⟩ := hall 4 spared hspared
  rw [hflush, Option.map_some, Option.some.injEq] at hfacts
  rw [hspared, Option.map_some, Option.some.injEq] at hattempts
  have hnot : ¬ CostsOnlyThat out spared.2 := by
    intro h
    obtain ⟨report, hreport⟩ := h.returns
    rw [hreport] at hfacts
    cases hfacts
  have hkept : ¬ ClaimsKept overtakenFlush 4 queuedSample := fun h => hnot (hcosts.mpr h)
  cases closed with
  | true => exact absurd (hclosed.mp rfl) hkept
  | false => exact ⟨out, spared, hflush, hspared, hshutdown, ⟨hattempts, hback⟩, hkept, hnot⟩

/-- The flush raises, the other operation of the page is not attempted, and the outbox stays open. -/
theorem lost_claim_ends_flush : ∃ out spared, flush overtakenFlush 4 queuedSample = some out ∧
    sparingFlush overtakenFlush 4 queuedSample = some spared ∧ ¬ CostsOnlyThat out spared.2 ∧
    spared.2.attempted = ["a", "c"] ∧ out.2.attempted = ["a"] ∧
    (shutdown overtakenFlush 4 queuedSample).map (fun left => left.2.2) = some false := by
  have hflush : (flush overtakenFlush 4 queuedSample).map
      (fun out => (out.1.isOk, out.2.attempted)) = some (false, ["a"]) := by decide +kernel
  have hspared : (sparingFlush overtakenFlush 4 queuedSample).map (fun out => out.2.attempted) =
      some ["a", "c"] := by decide +kernel
  have hclosed : (shutdown overtakenFlush 4 queuedSample).map (fun left => left.2.2) = some false := by
    decide +kernel
  obtain ⟨out, hout, hfacts⟩ := Option.map_eq_some_iff.mp hflush
  obtain ⟨spared, hspared, hattempted⟩ := Option.map_eq_some_iff.mp hspared
  obtain ⟨hraised, hfirst⟩ := Prod.mk.inj hfacts
  refine ⟨out, spared, hout, hspared, fun h => ?_, hattempted, hfirst, hclosed⟩
  obtain ⟨report, hreport⟩ := h.returns
  rw [hreport] at hraised
  cases hraised

end SibylMemory.Outbox
