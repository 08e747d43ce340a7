import SibylMemory.Outbox.Conservation

/-!
# Delivery order within a session (`outbox.py:532-633`, `822-887`, `1169-1217`)

`claim_page` orders candidates by creation time and looks at no other row, so an
earlier turn of the session that went back to a claimable state does not hold a
later one back. The order is kept by the runs in which no later turn is claimed
while an earlier one is still claimable.
-/

namespace SibylMemory.Outbox

def Earlier (t t' : TurnRow) : Prop :=
  t.sessionId = t'.sessionId ∧ t.localSequence < t'.localSequence

/-- Live and in one of the states that `claim_page` selects. -/
def Store.outstanding (s : Store) (i : String) : Prop :=
  ∃ row, s.operations.find i = some row ∧ row.state.claimable = true

def Store.claimed (s : Store) (i : String) : Prop :=
  ∃ row, s.operations.find i = some row ∧ row.claimToken.isSome

def Store.delivered (s : Store) (i : String) : Prop :=
  s.historyOutcome i = some .succeeded ∨ s.historyOutcome i = some .replayed

/-- A step archives a turn as delivered only when no earlier turn of its session is claimable. -/
def InOrder (host : Host) (w : World) (c : Call) : Prop :=
  ∀ t ∈ w.store.turns.rows, ∀ t' ∈ w.store.turns.rows, Earlier t t' →
    ¬ w.store.delivered t'.operationId → (World.step host w c).store.delivered t'.operationId →
    ¬ w.store.outstanding t.operationId ∧ ¬ (World.step host w c).store.outstanding t.operationId

/-- A page selects no turn while an earlier one of its session is claimable, and blocked turns
are unblocked only when no later one is claimed. Turns are indexed by `enqueue_turn` alone. -/
def Unhurried (w : World) : Call → Prop
  | .claimPage _ page =>
    ∀ row ∈ w.store.selected (page.readyBefore.getD (farFuture page.now)) page.now
        page.pageSize.toNat,
      ∀ t ∈ w.store.turns.rows, ∀ t' ∈ w.store.turns.rows, Earlier t t' →
        t'.operationId = row.operationId → ¬ w.store.outstanding t.operationId
  | .unblockAuth _ =>
    ∀ t ∈ w.store.turns.rows, ∀ t' ∈ w.store.turns.rows, Earlier t t' →
      w.store.claimed t'.operationId →
      ∀ row, w.store.operations.find t.operationId = some row → row.isBlocked = false
  | .indexTurn _ _ _ _ _ _ => False
  | _ => True

/-! ### What a call does to the turns -/

section Effects
variable {host : Host} {c : Call} {s s' : Store} {r : Reply}

theorem effect_nextSequence (h : Effect host s c r s') (hc : ∀ sid n oid src digest now,
    c ≠ .indexTurn sid n oid src digest now) (sid : String) :
    s.nextSequence sid ≤ s'.nextSequence sid := by
  have raise : ∀ {sessions : KeyedTable SessionRow.sessionId} {k : String} {row : SessionRow},
      (∀ j, sessions.find j = if j = k then some row else s.sessions.find j) →
      s.nextSequence k ≤ row.nextSequence →
      s.nextSequence sid ≤ Store.nextSequence { s with sessions } sid := by
    intro sessions k row hs hle
    unfold Store.nextSequence at hle ⊢
    simp only [hs]
    by_cases hk : sid = k
    · subst hk
      simpa using hle
    · simp [hk]
  cases h with
  | reserve nonempty session => exact raise session (by simp [SessionRow.advance])
  | turn nonempty made valid canonical named fresh insert index session =>
    exact raise session (by simp [SessionRow.advance])
  | @mark k parent required now sessions nonempty session =>
    have hkeep : ((s.session k now).mark parent required now).nextSequence = s.nextSequence k :=
      session_nextSequence s k now
    exact raise session (le_of_eq hkeep.symm)
  | index => exact absurd rfl (hc _ _ _ _ _ _)
  | _ => exact le_refl _

theorem effect_turn_row (h : Effect host s c r s')
    (hc : ∀ sid n oid src digest now, c ≠ .indexTurn sid n oid src digest now) {t : TurnRow}
    (ht : t ∈ s'.turns.rows) :
    (∃ t₀ ∈ s.turns.rows, t₀.sessionId = t.sessionId ∧ t₀.localSequence = t.localSequence ∧
      t₀.operationId = t.operationId ∧ t₀.sourceId = t.sourceId ∧ t₀.turnHash = t.turnHash) ∨
    (∃ factory parent now made, c = .enqueueTurn t.sessionId factory parent now ∧
      factory (s.nextSequence t.sessionId) = .ok made ∧ t.localSequence = s.nextSequence t.sessionId ∧
      t.operationId = made.operation.operationId ∧ t.sourceId = made.sourceId ∧
      t.turnHash = made.turnHash) := by
  cases h with
  | record positive =>
    obtain ⟨t₀, ht₀, rfl⟩ := (TurnTable.mem_setRevision _ _ _ _).mp ht
    exact .inl ⟨t₀, ht₀, by split <;> exact ⟨rfl, rfl, rfl, rfl, rfl⟩⟩
  | turn nonempty made valid canonical named fresh insert index session =>
    rcases (TurnTable.mem_insertTurn index t).mp ht with ht | rfl
    · exact .inl ⟨t, ht, rfl, rfl, rfl, rfl, rfl⟩
    · exact .inr ⟨_, _, _, _, rfl, made, rfl, rfl, rfl, rfl⟩
  | index => exact absurd rfl (hc _ _ _ _ _ _)
  | _ => exact .inl ⟨t, ht, rfl, rfl, rfl, rfl, rfl⟩

/-- A turn just enqueued has the session's next number, and its operation waits unclaimed. -/
theorem effect_turn_origin (h : Effect host s c r s') (hc : ∀ sid n oid src digest now,
    c ≠ .indexTurn sid n oid src digest now) {t : TurnRow} (ht : t ∈ s'.turns.rows) :
    (∃ t₀ ∈ s.turns.rows, t₀.sessionId = t.sessionId ∧ t₀.localSequence = t.localSequence ∧
      t₀.operationId = t.operationId) ∨
    (t.localSequence = s.nextSequence t.sessionId ∧
      s'.nextSequence t.sessionId = s.nextSequence t.sessionId + 1 ∧
      s.known t.operationId = none ∧ ∃ row, s'.operations.find t.operationId = some row ∧
        row.claimToken = none) := by
  rcases effect_turn_row h hc ht with ⟨t₀, ht₀, hsid, hseq, hop, -⟩ |
    ⟨factory, parent, now, made, rfl, hmade, hseq, hop, -⟩
  · exact .inl ⟨t₀, ht₀, hsid, hseq, hop⟩
  · right
    cases h with
    | @turn _ _ _ _ made' json hash operations sessions turns nonempty hmade' valid canonical named
        fresh insert index session =>
      cases hmade.symm.trans hmade'
      have hrow : operations.find made.operation.operationId
          = some (pendingRow made.operation json hash now) := by
        rw [KeyedTable.find_insert insert]
        exact if_pos rfl
      rw [hop]
      refine ⟨hseq, ?_, fresh, _, hrow, rfl⟩
      simp [Store.nextSequence, session, SessionRow.advance]

theorem effect_turn_known (h : Effect host s c r s') (hc : ∀ sid n oid src digest now,
    c ≠ .indexTurn sid n oid src digest now) (hd : s.Disjoint)
    (hs : ∀ t ∈ s.turns.rows, (s.known t.operationId).isSome) {t : TurnRow}
    (ht : t ∈ s'.turns.rows) : (s'.known t.operationId).isSome := by
  rcases effect_turn_origin h hc ht with ⟨t₀, ht₀, -, -, hop⟩ | ⟨-, -, -, row, hrow, -⟩
  · obtain ⟨m, hm⟩ := Option.isSome_iff_exists.mp (hs t₀ ht₀)
    rw [← hop, effect_known h hd hm]
    rfl
  · simp [Store.known, hrow]

theorem effect_turn_below (h : Effect host s c r s') (hc : ∀ sid n oid src digest now,
    c ≠ .indexTurn sid n oid src digest now)
    (hs : ∀ t ∈ s.turns.rows, t.localSequence < s.nextSequence t.sessionId) {t : TurnRow}
    (ht : t ∈ s'.turns.rows) : t.localSequence < s'.nextSequence t.sessionId := by
  rcases effect_turn_origin h hc ht with ⟨t₀, ht₀, hsid, hseq, -⟩ | ⟨hseq, hnext, -, -⟩
  · have hlt := hs t₀ ht₀
    have hle := effect_nextSequence h hc t₀.sessionId
    rw [← hsid, ← hseq]
    omega
  · omega

theorem effect_delivers (h : Effect host s c r s') {i : String} (hn : ¬ s.delivered i)
    (hd : s'.delivered i) : s.claimed i ∧ ∀ j, j ≠ i → s'.operations.find j = s.operations.find j := by
  cases h with
  | @archive op now row outcome history result action held token insert =>
    have hid := KeyedTable.find_key held
    have hkey : (row.archived outcome now none result.status
        (redactError MAX_ERROR_LENGTH result.error)).operationId = op.operationId := hid
    by_cases hi : i = op.operationId
    · subst hi
      exact ⟨⟨row, held, by simp [token]⟩, fun j hj => by simp [KeyedTable.find_delete, hj]⟩
    · refine absurd ?_ hn
      simpa [Store.delivered, Store.historyOutcome, KeyedTable.find_insert insert, hkey, hi] using hd
  | @supersede op now row json hash operations history replacement valid canonical held token fresh
      insert archive =>
    refine absurd ?_ hn
    by_cases hi : i = (row.archived .superseded now (some replacement.operationId) row.lastStatus
        row.lastError).operationId
    · simp [Store.delivered, Store.historyOutcome, KeyedTable.find_insert archive, hi,
        OperationRow.archived] at hd
    · simpa [Store.delivered, Store.historyOutcome, KeyedTable.find_insert archive, hi] using hd
  | _ => exact absurd hd hn

end Effects

/-! ### The invariant -/

structure Ordered (s : Store) : Prop where
  known : ∀ t ∈ s.turns.rows, (s.known t.operationId).isSome
  below : ∀ t ∈ s.turns.rows, t.localSequence < s.nextSequence t.sessionId
  claimable : ∀ i row, s.operations.find i = some row → row.claimToken.isSome →
    row.state.claimable = true
  order : ∀ t ∈ s.turns.rows, ∀ t' ∈ s.turns.rows, Earlier t t' → s.claimed t'.operationId →
    ¬ s.outstanding t.operationId

theorem ordered_empty : Ordered Store.empty where
  known := by simp [Store.empty, TurnTable.empty, KeyedTable.empty]
  below := by simp [Store.empty, TurnTable.empty, KeyedTable.empty]
  claimable := fun i row h => by simp [Store.empty] at h
  order := by simp [Store.empty, TurnTable.empty, KeyedTable.empty]

theorem selected_claimable {s : Store} {cutoff now : Instant} {n : Nat} {row : OperationRow}
    (h : row ∈ s.selected cutoff now n) : row.state.claimable = true := by
  have hsel := (mem_selected h).2
  simp only [Store.selectable, Bool.and_eq_true] at hsel
  exact hsel.1.1.1

section Step
variable {host : Host} {c : Call} {s s' : Store} {r : Reply}

theorem effect_claimable (h : Effect host s c r s')
    (hs : ∀ i row, s.operations.find i = some row → row.claimToken.isSome →
      row.state.claimable = true) :
    ∀ i row, s'.operations.find i = some row → row.claimToken.isSome →
      row.state.claimable = true := by
  intro i row' hrow' htok
  have hch := effect_row h i
  rw [hrow'] at hch
  generalize ho : s.operations.find i = o at hch
  cases hch with
  | same => exact hs i row' ho htok
  | born => cases htok
  | claimed mem id selected copy =>
    have hcl := selected_claimable selected
    exact hcl
  | renewed =>
    have hcl := hs i _ ho htok
    exact hcl
  | settled => cases htok
  | unblocked => rfl
  | released => cases htok

/-- Where a claimable row comes from: it was claimable, it is new, or it was unblocked. -/
theorem effect_outstanding (h : Effect host s c r s')
    (hs : ∀ i row, s.operations.find i = some row → row.claimToken.isSome →
      row.state.claimable = true) {i : String} (ho : s'.outstanding i) :
    s.outstanding i ∨ s.known i = none ∨
      ∃ now row, c = .unblockAuth now ∧ s.operations.find i = some row ∧ row.isBlocked = true := by
  obtain ⟨row', hrow', hcl⟩ := ho
  have hch := effect_row h i
  rw [hrow'] at hch
  generalize hb : s.operations.find i = o at hch
  cases hch with
  | same => exact .inl ⟨row', hb, hcl⟩
  | born offer id valid canonical fresh => exact .inr (.inl fresh)
  | claimed => exact .inl ⟨_, hb, hcl⟩
  | renewed => exact .inl ⟨_, hb, hcl⟩
  | settled id action token => exact .inl ⟨_, hb, hs i _ hb (by simp [token])⟩
  | unblocked blocked => exact .inr (.inr ⟨_, _, rfl, rfl, blocked⟩)
  | released => exact .inl ⟨_, hb, hcl⟩

theorem effect_claimed (h : Effect host s c r s') {i : String} (hc : s'.claimed i) :
    s.claimed i ∨ ∃ config page row, c = .claimPage config page ∧ row.operationId = i ∧
      row ∈ s.selected (page.readyBefore.getD (farFuture page.now)) page.now
        page.pageSize.toNat := by
  obtain ⟨row', hrow', htok⟩ := hc
  have hch := effect_row h i
  rw [hrow'] at hch
  generalize hb : s.operations.find i = o at hch
  cases hch with
  | same => exact .inl ⟨row', hb, htok⟩
  | born => cases htok
  | claimed mem id selected copy =>
    exact .inr ⟨_, _, _, rfl, KeyedTable.find_key hb, selected⟩
  | renewed => exact .inl ⟨_, hb, htok⟩
  | settled => cases htok
  | unblocked => exact .inl ⟨_, hb, htok⟩
  | released => cases htok

end Step

theorem unhurried_not_index {w : World} {c : Call} (h : Unhurried w c) :
    ∀ sid n oid src digest now, c ≠ .indexTurn sid n oid src digest now := by
  rintro sid n oid src digest now rfl
  exact h

theorem effect_ordered {host : Host} {w : World} {c : Call} {s' : Store} {r : Reply}
    (h : Effect host w.store c r s') (hd : w.store.Disjoint) (hs : Ordered w.store)
    (hu : Unhurried w c) : Ordered s' := by
  have hni := unhurried_not_index hu
  have horigin := fun t ht => effect_turn_origin (t := t) h hni ht
  refine ⟨fun t ht => effect_turn_known h hni hd hs.known ht,
    fun t ht => effect_turn_below h hni hs.below ht, effect_claimable h hs.claimable,
    fun t ht t' ht' he hcl => ?_⟩
  · -- the later turn is old, for a turn just enqueued is not claimed
    rcases horigin t' ht' with ⟨t₀', ht₀', hsid', hseq', hop'⟩ | ⟨-, -, -, row, hrow, htok⟩
    swap
    · obtain ⟨row', hrow', htok'⟩ := hcl
      rw [hrow] at hrow'
      cases hrow'
      simp [htok] at htok'
    -- so is the earlier one, for its number is smaller
    rcases horigin t ht with ⟨t₀, ht₀, hsid, hseq, hop⟩ | ⟨hseq, -, -, -⟩
    swap
    · have hlt := hs.below t₀' ht₀'
      have hsame : t.sessionId = t₀'.sessionId := he.1.trans hsid'.symm
      have := he.2
      rw [← hsame] at hlt
      omega
    have he₀ : Earlier t₀ t₀' := ⟨hsid.trans (he.1.trans hsid'.symm), by
      have := he.2
      omega⟩
    have hbefore : ¬ w.store.outstanding t₀.operationId := by
      rcases effect_claimed h hcl with hc | ⟨config, page, row, rfl, hid, hsel⟩
      · exact hs.order t₀ ht₀ t₀' ht₀' he₀ (hop'.symm ▸ hc)
      · exact hu row hsel t₀ ht₀ t₀' ht₀' he₀ (hop'.trans hid.symm)
    intro hout
    rw [← hop] at hout
    rcases effect_outstanding h hs.claimable hout with ho | hn | ⟨now, row, rfl, hrow, hb⟩
    · exact hbefore ho
    · have := hs.known t₀ ht₀
      rw [hn] at this
      cases this
    · rcases effect_claimed h hcl with hc | ⟨config, page, row', hpage, -, -⟩
      · have := hu t₀ ht₀ t₀' ht₀' he₀ (hop'.symm ▸ hc) row hrow
        rw [hb] at this
        cases this
      · cases hpage

theorem step_ordered (host : Host) (w : World) (c : Call) (hw : w.Sound host ∧ Ordered w.store)
    (hu : Unhurried w c) :
    (World.step host w c).Sound host ∧ Ordered (World.step host w c).store := by
  refine ⟨step_sound host w c hw.1, ?_⟩
  rcases step_cases host w c with ⟨e, he⟩ | ⟨r, s', heff, he⟩ <;> rw [he]
  · exact hw.2
  · exact effect_ordered heff hw.1.disjoint hw.2 hu

theorem step_inOrder (host : Host) (w : World) (c : Call) (hs : Ordered w.store) :
    InOrder host w c := by
  intro t ht t' ht' he hn hd
  rcases step_cases host w c with ⟨e, hstep⟩ | ⟨r, s', heff, hstep⟩ <;> rw [hstep] at hd ⊢
  · exact absurd hd hn
  · obtain ⟨hcl, hothers⟩ := effect_delivers heff hn hd
    have hbefore := hs.order t ht t' ht' he hcl
    refine ⟨hbefore, fun hout => hbefore ?_⟩
    have hne : t.operationId ≠ t'.operationId := by
      intro hop
      have := w.store.turns.operation_inj ht ht' hop
      subst this
      exact absurd he.2 (lt_irrefl _)
    obtain ⟨row, hrow, hcla⟩ := hout
    exact ⟨row, (hothers _ hne) ▸ hrow, hcla⟩

/-- Per-session delivery order: in every run of any workers whose claims and unblockings are
unhurried, whatever the outcomes, a turn is archived as delivered only after every earlier
turn of its session has left the claimable states. -/
theorem delivered_in_order (host : Host) (calls : List Call)
    (h : Run.Always (World.step host) Unhurried World.start calls) :
    Run.Always (World.step host) (InOrder host) World.start calls :=
  Run.always_of_invariant (step_ordered host) (fun w c hw _ => step_inOrder host w c hw.2)
    ⟨start_sound host, ordered_empty⟩ h

/-! ### A flush that overtakes -/

theorem outstanding_iff (s : Store) (i : String) :
    s.outstanding i ↔ (s.operations.find i).any (fun row => row.state.claimable) = true := by
  unfold Store.outstanding
  cases s.operations.find i <;> simp

instance (t t' : TurnRow) : Decidable (Earlier t t') := inferInstanceAs (Decidable (_ ∧ _))

instance (s : Store) (i : String) : Decidable (s.outstanding i) :=
  decidable_of_iff _ (outstanding_iff s i).symm

def turnOperation (n : Nat) : NewOperation :=
  { sampleOperation with
    operationId := "turn" ++ toString n, idempotencyKey := "hermes-turn-" ++ toString n }

def turnFactory (n : Nat) : Except OutboxException NewTurnOperation :=
  .ok { operation := turnOperation n, sourceId := "source" ++ toString n, turnHash := "hash" }

/-- Two turns, then one flush that began at time 10: the first attempt is answered 503 and
goes back to `pending`, the second succeeds. -/
def overtakingFlush : List Call :=
  [.enqueueTurn "session" turnFactory "" 1, .enqueueTurn "session" turnFactory "" 2,
    .claimPage sampleConfig { samplePage "worker" "t1" 10 with readyBefore := some 10 },
    .applyResult (sampleClaim (turnOperation 1) "worker" "t1" 10)
      (AttemptResult.failure .retry (some 503)) 11,
    .claimPage sampleConfig { samplePage "worker" "t2" 12 with readyBefore := some 10 }]

def overtakingSuccess : Call :=
  .applyResult (sampleClaim (turnOperation 2) "worker" "t2" 12) (AttemptResult.success false (some 200)) 13

/-- The later turn is archived as succeeded while the earlier one is pending. -/
theorem flush_overtakes : ¬ Run.Always (World.step Host.plain) (InOrder Host.plain) World.start
    (overtakingFlush ++ [overtakingSuccess]) := by
  intro h
  have hlast := (Run.always_iff_forall _ _).mp h overtakingFlush overtakingSuccess [] rfl
  have hout := (hlast ⟨"session", 1, "turn1", "source1", "hash", none⟩ (by decide)
    ⟨"session", 2, "turn2", "source2", "hash", none⟩ (by decide) ⟨rfl, by decide⟩
    (by unfold Store.delivered; decide) (by unfold Store.delivered; decide)).1
  rw [outstanding_iff] at hout
  exact hout (by decide)

/-- A worker that finishes one turn before it claims the next. -/
def orderlyFlush : List Call :=
  [.enqueueTurn "session" turnFactory "" 1, .enqueueTurn "session" turnFactory "" 2,
    .claimPage sampleConfig { samplePage "worker" "t1" 10 with readyBefore := some 10 },
    .applyResult (sampleClaim (turnOperation 1) "worker" "t1" 10)
      (AttemptResult.success false (some 200)) 11,
    .claimPage sampleConfig { samplePage "worker" "t2" 12 with readyBefore := some 10 },
    overtakingSuccess]

/-- Two turns of one session, the second claimed after the first was delivered. -/
theorem delivered_in_order_flush :
    Run.Always (World.step Host.plain) Unhurried World.start orderlyFlush ∧
    Run.Always (World.step Host.plain) (InOrder Host.plain) World.start orderlyFlush ∧
    (World.run Host.plain orderlyFlush).store.turns.rows.map
      (fun t => (t.sessionId, t.localSequence, t.operationId))
        = [("session", 1, "turn1"), ("session", 2, "turn2")] ∧
    (World.run Host.plain orderlyFlush).store.delivered "turn1" ∧
    (World.run Host.plain orderlyFlush).store.delivered "turn2" := by
  have hunhurried : Run.Always (World.step Host.plain) Unhurried World.start orderlyFlush := by
    refine ⟨trivial, trivial, ?_, trivial, ?_, trivial, trivial⟩
    · unfold Unhurried
      decide +kernel
    · unfold Unhurried
      decide +kernel
  refine ⟨hunhurried, delivered_in_order Host.plain orderlyFlush hunhurried, by decide +kernel, ?_, ?_⟩
  · unfold Store.delivered
    decide +kernel
  · unfold Store.delivered
    decide +kernel

end SibylMemory.Outbox
