import SibylMemory.Sessions

/-!
# Rewind plans as multiset differences (`sessions.py:89-107`)

The plan marks the indexed turns that the transcript does not account for: of every fingerprint
the latest ones, as many as the index has too many.
-/

namespace SibylMemory

def earlierIndexed (a b : IndexedTurn) : Prop := a.localSequence ≤ b.localSequence

instance : DecidableRel earlierIndexed := fun a b => by unfold earlierIndexed; infer_instance

instance : Std.Total earlierIndexed := ⟨fun a b => Nat.le_total a.localSequence b.localSequence⟩

instance : IsTrans IndexedTurn earlierIndexed := ⟨fun _ _ _ => Nat.le_trans⟩

/-- The correction is the one of the turn. -/
structure StaleCorrectionIntent.Marks (correction : StaleCorrectionIntent) (turn : IndexedTurn) :
    Prop where
  operation : correction.operationId = "rewind-stale-" ++ turn.operationId
  source : correction.sourceId = turn.sourceId
  revision : correction.expectedRevision = turn.revision
  dependency : ∀ i, correction.dependsOnOperationId = some i ↔
    turn.queued = true ∧ i = turn.operationId

theorem staleIntent_marks (turn : IndexedTurn) : (staleIntent turn).Marks turn := by
  refine ⟨rfl, rfl, rfl, fun i => ?_⟩
  rw [staleIntent]
  cases turn.queued <;> simp [eq_comm]

/-- The plan corrects the turns `corrected`. -/
structure ExactPlan (turns : List IndexedTurn) (fingerprints : List String)
    (plan : List StaleCorrectionIntent) (corrected : List IndexedTurn) : Prop where
  marks : List.Forall₂ StaleCorrectionIntent.Marks plan corrected
  indexed : ∀ t ∈ corrected, t ∈ turns
  increasing : (corrected.map IndexedTurn.localSequence).Pairwise (· < ·)
  counts : ∀ h, (corrected.map IndexedTurn.turnHash).count h
    = (turns.map IndexedTurn.turnHash).count h - fingerprints.count h
  latest : ∀ t ∈ corrected, ∀ t' ∈ turns, t'.turnHash = t.turnHash → t' ∉ corrected →
    t'.localSequence < t.localSequence

section Plans
variable {turns : List IndexedTurn}

theorem sorted_strictly (hd : (turns.map IndexedTurn.localSequence).Nodup) :
    (turns.insertionSort earlierIndexed).Pairwise fun a b => a.localSequence < b.localSequence := by
  have hle := List.pairwise_insertionSort earlierIndexed turns
  have hperm := (List.perm_insertionSort earlierIndexed turns).map IndexedTurn.localSequence
  have hne := List.pairwise_map.mp (hperm.nodup_iff.mpr hd)
  refine (hle.and hne).imp fun {a b} h => ?_
  obtain ⟨hab, hnab⟩ := h
  unfold earlierIndexed at hab
  omega

theorem sorted_unique (hd : (turns.map IndexedTurn.localSequence).Nodup) {turns' : List IndexedTurn}
    (hp : turns.Perm turns') :
    turns'.insertionSort earlierIndexed = turns.insertionSort earlierIndexed := by
  have hd' : (turns'.map IndexedTurn.localSequence).Nodup := (hp.map _).nodup_iff.mp hd
  refine List.Perm.eq_of_pairwise (fun a b _ _ hab hba => ?_) (sorted_strictly hd')
    (sorted_strictly hd) ?_
  · omega
  · exact (List.perm_insertionSort _ _).trans (hp.symm.trans (List.perm_insertionSort _ _).symm)

theorem planRewindCorrections_eq (turns : List IndexedTurn) (fingerprints : List String) :
    planRewindCorrections turns fingerprints = (surplus IndexedTurn.turnHash
      (counter fingerprints) (turns.insertionSort earlierIndexed)).map staleIntent :=
  planFrom_eq _ _

theorem plan_corrects (fingerprints : List String)
    (hd : (turns.map IndexedTurn.localSequence).Nodup) :
    ExactPlan turns fingerprints (planRewindCorrections turns fingerprints)
      (surplus IndexedTurn.turnHash (counter fingerprints)
        (turns.insertionSort earlierIndexed)) where
  marks := by
    rw [planRewindCorrections_eq, List.forall₂_map_left_iff]
    exact List.forall₂_same.mpr fun t _ => staleIntent_marks t
  indexed := fun t ht => (List.mem_insertionSort _).mp ((surplus_sublist _ _ _).subset ht)
  increasing := List.pairwise_map.mpr ((sorted_strictly hd).sublist (surplus_sublist _ _ _))
  counts := by
    intro h
    rw [surplus_count, ((List.perm_insertionSort _ turns).map _).count_eq]
    rfl
  latest := fun t ht t' ht' hk hn =>
    covered_before_surplus _ (sorted_strictly hd) ht ((List.mem_insertionSort _).mpr ht') hk hn

end Plans

/-- The plan is the multiset difference of the index and the transcript, made of the latest turns,
in increasing order, and no matter how the two lists are ordered. -/
theorem rewind_plan_exact {turns : List IndexedTurn} (fingerprints : List String)
    (hd : (turns.map IndexedTurn.localSequence).Nodup) :
    (∃ corrected, ExactPlan turns fingerprints (planRewindCorrections turns fingerprints)
      corrected) ∧
    ∀ turns' fingerprints', turns.Perm turns' → fingerprints.Perm fingerprints' →
      planRewindCorrections turns' fingerprints' = planRewindCorrections turns fingerprints := by
  refine ⟨⟨_, plan_corrects fingerprints hd⟩, fun turns' fingerprints' hturns hprints => ?_⟩
  have hcounter : counter fingerprints' = counter fingerprints :=
    funext fun h => (hprints.count_eq h).symm
  rw [planRewindCorrections_eq, planRewindCorrections_eq, hcounter, sorted_unique hd hturns]

def repeatedTurns : List IndexedTurn :=
  [⟨"o2", "s2", "h", 2, none, true⟩, ⟨"o1", "s1", "h", 1, some 1, false⟩]

/-- Of two equal turns the later one is corrected. -/
theorem rewind_plan_exact_sample :
    (∃ corrected, ExactPlan repeatedTurns ["h"] (planRewindCorrections repeatedTurns ["h"])
      corrected) ∧
    ∀ turns' fingerprints', repeatedTurns.Perm turns' → ["h"].Perm fingerprints' →
      planRewindCorrections turns' fingerprints' = planRewindCorrections repeatedTurns ["h"] :=
  rewind_plan_exact ["h"] (by decide)

end SibylMemory
