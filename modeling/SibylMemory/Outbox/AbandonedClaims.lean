import SibylMemory.Outbox.LostClaims
import SibylMemory.Outbox.Settlements

/-!
# Claims that a dead worker left (`outbox.py:843-887`, `1169-1217`)

A process that stops between `claim_page` and `apply_result` leaves its rows under a claim. The
calls that were made until then are any run of the outbox; the next flush begins once the leases
are over.
-/

namespace SibylMemory.Outbox

/-- What is under a claim had its dependency delivered. -/
def Store.ClaimedMet (s : Store) : Prop :=
  ∀ i row, s.operations.find i = some row → row.claimToken.isSome →
    s.dependencyMet row.dependsOn = true

section ClaimedMet
variable {host : Host} {s s' : Store} {c : Call} {r : Reply}

theorem effect_dependencyMet (h : Effect host s c r s') (hd : s.Disjoint) {dependsOn : Option String}
    (hmet : s.dependencyMet dependsOn = true) : s'.dependencyMet dependsOn = true := by
  cases dependsOn with
  | none => rfl
  | some d =>
    rw [dependencyMet_some] at hmet ⊢
    exact delivered_mono (fun j row hrow => effect_history h hd hrow) hmet

theorem effect_claimedMet (h : Effect host s c r s') (hd : s.Disjoint)
    (hbooked : ∀ i row, s.operations.find i = some row → row.state.claimable = false →
      row.claimToken = none) (hs : s.ClaimedMet) : s'.ClaimedMet := by
  intro i row hrow hclaimed
  have hch := effect_row h i
  rw [hrow] at hch
  generalize hold : s.operations.find i = old at hch
  -- it is the claim of this call, or it was there before
  suffices hmet : s.dependencyMet row.dependsOn = true from effect_dependencyMet h hd hmet
  cases hch with
  | same => exact hs i row hold hclaimed
  | born => cases hclaimed
  | claimed mem id selected copy =>
    have hselectable := (mem_selected selected).2
    simp only [Store.selectable, Bool.and_eq_true] at hselectable
    exact hselectable.2
  | @renewed config op lease now stamp row expires id token =>
    exact hs i row hold (by rw [token]; rfl)
  | settled => cases hclaimed
  | @unblocked now n row blocked =>
    have hfree := hbooked i row hold (by
      rw [show row.state = .blockedAuth by simpa [OperationRow.isBlocked] using blocked]
      rfl)
    have hclaimed : row.claimToken.isSome := hclaimed
    rw [hfree] at hclaimed
    cases hclaimed
  | released => cases hclaimed

theorem run_claimedMet (host : Host) (calls : List Call) : (World.run host calls).store.ClaimedMet := by
  induction calls using List.reverseRecOn with
  | nil => exact fun i row hrow => by cases hrow
  | append_singleton calls c ih =>
    have hbookkept := bookkept_run host calls
    have hrows := hbookkept.rows
    rw [tally_run_world] at hrows
    rw [run_append, Run.exec_cons, Run.exec_nil]
    rcases step_cases host (World.run host calls) c with ⟨e, he⟩ | ⟨r, s', heff, he⟩
    · rw [he]
      exact ih
    · rw [he]
      exact effect_claimedMet heff (run_sound host calls).disjoint
        (fun i row hrow hstate => (blocked_free (hrows i row hrow) hstate).1) ih

end ClaimedMet

/-- The leases are over at `now`, and nothing was written at or after it. -/
def Store.Quiet (s : Store) (now : Instant) : Prop :=
  ∀ row ∈ s.operations.rows, row.updatedAt < now ∧ ∀ e, row.leaseExpiresAt = some e → e ≤ now

instance (s : Store) (now : Instant) : Decidable (s.Quiet now) := by
  unfold Store.Quiet
  have : ∀ row : OperationRow, Decidable (∀ e, row.leaseExpiresAt = some e → e ≤ now) := fun row =>
    match row.leaseExpiresAt with
    | none => .isTrue nofun
    | some e => decidable_of_iff (e ≤ now) (by simp)
  infer_instance

theorem Grown.lapsed {env : FlushEnv} {w : World} (hg : Grown env w) {now : Instant}
    (hq : w.store.Quiet now) : w.store.Lapsed now where
  disjoint := hg.disjoint
  objects := hg.objects
  passed := fun row hrow => (hq row hrow).1
  unleased := by
    intro row hrow
    obtain ⟨calls, rfl, -⟩ := hg
    have hrows := (bookkept_run env.host calls).rows
    rw [tally_run_world] at hrows
    unfold OperationRow.unleased
    rcases (hrows _ row (KeyedTable.find_of_mem hrow)).whole with ⟨htoken, -, -⟩ | ⟨htoken, -, hlease⟩
    · rw [htoken]
    · obtain ⟨token, htoken⟩ := Option.isSome_iff_exists.mp htoken
      obtain ⟨e, hlease⟩ := Option.isSome_iff_exists.mp hlease
      rw [htoken, hlease]
      exact decide_eq_true ((hq row hrow).2 e hlease)

/-- Wherever the workers of an outbox stopped, a flush that begins when their leases are over takes
up what they left: it calls the executor on every operation under a claim, once, with everything
else that it reaches. No row it found is under a claim afterwards, unless the executor called on it
returned that it was superseded. -/
theorem abandoned_claims {env : FlushEnv} {w : World} (hr : env.Regular) (hg : Grown env w)
    (hq : w.store.Quiet (env.now w)) (hnone : env.timeoutSeconds = none) (hstoring : env.Storing) :
    ∃ report st, ∃ results : Results,
      (∀ fuel, w.store.operations.rows.length < fuel → flush env fuel w = some (.ok report, st)) ∧
      (env.Ran w st.claims st.attempts st.world ∧ results.map Prod.fst = st.attempts ∧
        st.attempted.Nodup) ∧
      (∀ p ∈ results, ReturnedBy env p ∧ Filed st.world.store p.1.operation.operationId p.2) ∧
      (∀ i, i ∈ st.attempted ↔ Reached w.store st.world.store i) ∧
      (∀ row ∈ w.store.operations.rows, row.claimToken.isSome → row.operationId ∈ st.attempted) ∧
      ∀ i row, st.world.store.operations.find i = some row → row.claimToken.isSome →
        w.store.known i ≠ none →
        ∃ p ∈ results, p.1.operation.operationId = i ∧ p.2.action = .superseded := by
  have hs := hg.lapsed hq
  obtain ⟨exhausted, st, results, hsettled, hend, hflush⟩ := flush_settles hr hs hstoring
  obtain ⟨hinv, hreached⟩ := hend.undated hnone
  have hmet : w.store.ClaimedMet := by
    obtain ⟨calls, rfl, -⟩ := hg
    exact run_claimedMet env.host calls
  have hbooked : ∀ i row, w.store.operations.find i = some row → row.claimToken.isSome →
      row.state.claimable = true := by
    obtain ⟨calls, rfl, -⟩ := hg
    have hrows := (bookkept_run env.host calls).rows
    rw [tally_run_world] at hrows
    exact fun i row hrow => (hrows i row hrow).claimable
  have hleft : ∀ i row, w.store.operations.find i = some row → row.claimToken.isSome →
      i ∈ st.attempted := fun i row hrow hclaimed =>
    hreached i (.ready hrow (hbooked i row hrow hclaimed) (hmet i row hrow hclaimed))
  refine ⟨_, st, results, hflush,
    ⟨hinv.account.ran, hsettled.attempted, hinv.account.attempted_nodup⟩,
    fun p hp => ⟨hsettled.returned p hp, hsettled.filed p hp⟩,
    fun i => ⟨hinv.account.attempted_reached, hreached i⟩,
    fun row hrow => hleft _ row (KeyedTable.find_of_mem hrow), fun i row hrow hclaimed hknown => ?_⟩
  by_cases hi : i ∈ st.attempted
  · obtain ⟨p, hp, rfl⟩ := hsettled.mem_attempted.mp hi
    exact ⟨p, hp, rfl, filed_claimed (hsettled.filed p hp) hrow hclaimed⟩
  · -- what was not attempted is as it was found, without a claim
    cases hstart : w.store.operations.find i with
    | none => exact absurd (newcomer_unknown hinv hstart hrow) hknown
    | some row' =>
      have hkept := hinv.untouched i row' hstart (by rw [hinv.account.settled_ids]; exact hi)
      rw [hrow] at hkept
      cases hkept
      exact absurd (hleft i row hstart hclaimed) hi

/-! ### A worker that died -/

/-- The worker had claimed the first operation. -/
def abandonedSample : World :=
  Run.exec (World.step Host.plain) queuedSample [.claimPage sampleConfig (samplePage "dead" "t" 3)]

def lateFlush : FlushEnv := { mixedFlush with now := fun _ => 1000 }

theorem lateFlush_regular : lateFlush.Regular where
  worker := by decide
  size := by decide
  timeout := nofun
  clock := fun _ _ => le_refl _
  executor := fun w op hheld => by
    have hr : mixedFlush.Regular := sampleFlush_regular _
    exact ⟨List.forall_mem_nil _, (hr.executor w op hheld).superseded⟩

theorem abandoned_claims_sample : ∃ report st,
    flush lateFlush 4 abandonedSample = some (.ok report, st) ∧
    (∃ row ∈ abandonedSample.store.operations.rows, row.operationId = "a" ∧ row.claimToken.isSome) ∧
    ∀ i ∈ ["a", "b", "c"], i ∈ st.attempted := by
  have hg : Grown lateFlush abandonedSample :=
    (queuedSample_grown lateFlush rfl).exec _ (List.forall_mem_singleton.mpr trivial)
  have hclaimed : ∃ row ∈ abandonedSample.store.operations.rows, row.operationId = "a" ∧
      row.claimToken.isSome := by decide +kernel
  have hruns : (flush lateFlush 4 abandonedSample).map (fun out => out.2.attempted) =
      some ["a", "b", "c"] := by decide +kernel
  obtain ⟨report, st, results, hflush, -⟩ :=
    abandoned_claims lateFlush_regular hg (by decide +kernel) rfl fun w op _ => mixed_storable ⟨w, op⟩
  have hended := hflush 4 (by decide)
  rw [hended, Option.map_some, Option.some.injEq] at hruns
  refine ⟨report, st, hended, hclaimed, fun i hi => ?_⟩
  rw [show st.attempted = ["a", "b", "c"] from hruns]
  exact hi

end SibylMemory.Outbox
