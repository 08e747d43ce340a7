import SibylMemory.Provider

/-!
# What a completed turn does to the session index (`runtime.py:141-189`, `533-651`)

The captures of a session are its turn rows in order, some of them with a rewind correction.
Recovery appends the turns that the index lacks, the plan corrects the surplus over the
transcript, and the capture of the completed turn is appended last.
-/

namespace SibylMemory
open Outbox

/-! ### The index of a session -/

def earlierTurn (a b : TurnRow) : Prop := a.localSequence ≤ b.localSequence

instance : DecidableRel earlierTurn := fun a b => by unfold earlierTurn; infer_instance

instance : Std.Total earlierTurn := ⟨fun a b => Nat.le_total a.localSequence b.localSequence⟩

instance : IsTrans TurnRow earlierTurn := ⟨fun _ _ _ => Nat.le_trans⟩

def Outbox.Store.turnsOf (s : Store) (sid : String) : List TurnRow :=
  (s.turns.rows.filter fun t => t.sessionId = sid).insertionSort earlierTurn

def Outbox.Store.queued (s : Store) (t : TurnRow) : Bool := (s.operations.find t.operationId).isSome

/-- A rewind correction was enqueued for the turn. -/
def Outbox.Store.staled (host : Host) (agentId : String) (s : Store) (t : TurnRow) : Bool :=
  (s.known (rewindId host agentId t.operationId)).isSome

theorem mem_turnsOf {s : Store} {sid : String} {t : TurnRow} :
    t ∈ s.turnsOf sid ↔ t ∈ s.turns.rows ∧ t.sessionId = sid := by
  simp [Store.turnsOf, List.mem_insertionSort]

theorem turnsOf_nodup (s : Store) (sid : String) :
    ((s.turnsOf sid).map TurnRow.operationId).Nodup := by
  have hp := (List.perm_insertionSort earlierTurn
    (s.turns.rows.filter fun t => t.sessionId = sid)).map TurnRow.operationId
  rw [Store.turnsOf, hp.nodup_iff]
  exact s.turns.operationUnique.sublist (List.filter_sublist.map _)

theorem rewindPlan_eq (host : Host) (sid : String) (messages : List Message) (s : Store) :
    rewindPlan host sid messages s
      = (surplus TurnRow.turnHash (counter (committedTurnFingerprints host messages))
          (s.turnsOf sid)).map fun t => correctionOf t t.revision (s.queued t) := by
  have hmap : (s.indexedTurns sid).map IndexedTurn.ofRecord
      = (s.turnsOf sid).map fun t => IndexedTurn.ofRecord
        { sessionId := t.sessionId, localSequence := t.localSequence, operationId := t.operationId,
          sourceId := t.sourceId, turnHash := t.turnHash, revision := t.revision,
          queued := s.queued t } := by
    rw [Store.indexedTurns, List.map_map]
    rfl
  have hsorted := List.pairwise_insertionSort earlierTurn
    (s.turns.rows.filter fun t => t.sessionId = sid)
  rw [rewindPlan, hmap, plan_eq _ (List.pairwise_map.mpr hsorted), surplus_map, List.map_map]
  rfl

theorem indexedCounts_eq (sid : String) (s : Store) :
    (s.indexedTurns sid).map IndexedTurnRecord.turnHash = (s.turnsOf sid).map TurnRow.turnHash := by
  rw [Store.indexedTurns, List.map_map]
  rfl

theorem insertionSort_append_last {α : Type} {r : α → α → Prop} [DecidableRel r] {l : List α} {x : α}
    (h : ∀ y ∈ l, r y x) : (l ++ [x]).insertionSort r = l.insertionSort r ++ [x] := by
  have hinsert : ∀ (a : α) (m : List α), r a x →
      List.orderedInsert r a (m ++ [x]) = List.orderedInsert r a m ++ [x] := by
    intro a m ha
    induction m with
    | nil => simp [ha]
    | cons b m ih =>
      rw [List.cons_append, List.orderedInsert, List.orderedInsert]
      split
      · rfl
      · rw [ih, List.cons_append]
  induction l with
  | nil => rfl
  | cons a l ih =>
    rw [List.cons_append, List.insertionSort_cons, List.insertionSort_cons,
      ih fun y hy => h y (List.mem_cons_of_mem _ hy), hinsert a _ (h a List.mem_cons_self)]

/-! ### Frames -/

def Kept (s s' : Store) : Prop :=
  ∀ i, (s.known i).isSome → s'.known i = s.known i ∧ s'.operations.find i = s.operations.find i

theorem Kept.refl (s : Store) : Kept s s := fun _ _ => ⟨rfl, rfl⟩

theorem Kept.trans {s s' s'' : Store} (h : Kept s s') (h' : Kept s' s'') : Kept s s'' := by
  intro i hi
  obtain ⟨h1, h2⟩ := h i hi
  obtain ⟨h3, h4⟩ := h' i (by rw [h1]; exact hi)
  exact ⟨h3.trans h1, h4.trans h2⟩

section Calls
variable {host : Host} {agentId : String} {s s' : Store}

theorem exec_provenance {c : Call} (hi : Issued host agentId s c) (hs : Provenance host agentId s) :
    Provenance host agentId (c.exec host s).2 := by
  cases h : c.exec host s with
  | mk out s' =>
    cases out with
    | error e => rw [exec_error h]; exact hs
    | ok r => exact effect_provenance (exec_effect h) hi hs

/-! ### Capturing a turn -/

/-- A turn was indexed at the end of its session and its operation enqueued. -/
structure Appended (s s' : Store) (sid digest : String) (t : TurnRow) : Prop where
  rows : s'.turns.rows = s.turns.rows ++ [t]
  session : t.sessionId = sid
  sequence : t.localSequence = s.nextSequence sid
  hash : t.turnHash = digest
  fresh : s.known t.operationId = none
  known : ∀ i, (s'.known i).isSome ↔ (s.known i).isSome ∨ i = t.operationId
  kept : Kept s s'

theorem enqueueCapture_ok {c : RuntimeContext} {sid userContent assistantContent : String}
    {turnNumber : Option Int} {now : Instant} {record : IndexedTurnRecord}
    (h : enqueueCapture host c sid userContent assistantContent turnNumber now s = (.ok record, s')) :
    ∃ t, Appended s s' sid (turnHash host userContent assistantContent) t := by
  have heff := enqueueTurn_effect h
  have hknown := effect_known_eq heff
  cases heff with
  | @turn _ _ _ _ made json hash operations sessions turns nonempty built valid canonical named fresh
      insert index session =>
    simp only [offered, built] at hknown
    refine ⟨_, (TurnTable.insertTurn_ok index).1, rfl, rfl, (captureFactory_captured built).digest,
      fresh, fun i => ?_, fun i hi => ⟨?_, ?_⟩⟩
    · rw [hknown]
      by_cases hi : i = made.operation.operationId <;> simp [hi]
    · rw [hknown]
      split
      · rename_i he
        rw [he, fresh] at hi
        cases hi
      · rfl
    · rw [KeyedTable.find_insert insert]
      split
      · rename_i he
        rw [he, pendingRow_id, fresh] at hi
        cases hi
      · rfl

theorem enqueueCapture_provenance {c : RuntimeContext} (agent : c.agentId = agentId)
    (sid userContent assistantContent : String) (turnNumber : Option Int) (now : Instant)
    (hs : Provenance host agentId s) : Provenance host agentId
      (enqueueCapture host c sid userContent assistantContent turnNumber now s).2 :=
  exec_provenance (.capture c agent sid _ turnNumber userContent assistantContent now) hs

theorem Provenance.next_fresh (hcf : host.CollisionFree) {name : String}
    (ha : agentId = "hermes:" ++ name) (hs : Provenance host agentId s) {sid u a : String}
    {t : NewTurnOperation} (ht : Captured host agentId sid (s.nextSequence sid) u a t) :
    s.known t.operation.operationId = none ∧ ∀ x ∈ s.turns.rows,
      x.position ≠ (sid, s.nextSequence sid) ∧ x.operationId ≠ t.operation.operationId ∧
      x.sourceId ≠ t.sourceId := by
  obtain ⟨turn, hid, hsrc⟩ := ht.ids
  have hold : ∀ x ∈ s.turns.rows, ¬ (x.sessionId = sid ∧ x.localSequence = s.nextSequence sid) := by
    rintro x hx ⟨rfl, hseq⟩
    have := hs.below x hx
    omega
  have hop : ∀ x ∈ s.turns.rows, x.operationId ≠ t.operation.operationId := by
    intro x hx he
    obtain ⟨turn', hid', -⟩ := hs.ids x hx
    rw [hid, hid'] at he
    exact hold x hx (turnOperationId_inj hcf (hs.digest x hx) (turnHash_digest host u a) he)
  refine ⟨?_, fun x hx => ⟨?_, hop x hx, ?_⟩⟩
  · cases hk : s.known t.operation.operationId with
    | none => rfl
    | some m =>
      exfalso
      cases hs.origin _ m hk with
      | turn x indexed id => exact hop x indexed id
      | rewind x indexed revision queued id =>
        rw [hid] at id
        exact turn_ne_rewind hcf (hs.turn_digest indexed) id
      | replacement j action revision digest id =>
        rw [hid] at id
        exact replacement_ne_agent hcf ha digest id.symm
  · intro hp
    exact hold x hx (Prod.mk.inj hp)
  · intro he
    obtain ⟨turn', -, hsrc'⟩ := hs.ids x hx
    rw [hsrc, hsrc'] at he
    obtain ⟨-, hsid, hn, -⟩ := turnSourceId_inj he
    exact hold x hx ⟨hsid, hn⟩

theorem insertTurn_total (turns : TurnTable) {t : TurnRow} (h : ∀ x ∈ turns.rows,
    x.position ≠ t.position ∧ x.operationId ≠ t.operationId ∧ x.sourceId ≠ t.sourceId) :
    ∃ turns', turns.insertTurn t = .ok turns' := by
  have hp : t.position ∉ turns.rows.map TurnRow.position := by
    intro hm
    obtain ⟨x, hx, he⟩ := List.mem_map.mp hm
    exact (h x hx).1 he
  have ho : t.operationId ∉ turns.rows.map TurnRow.operationId := by
    intro hm
    obtain ⟨x, hx, he⟩ := List.mem_map.mp hm
    exact (h x hx).2.1 he
  have hsrc : t.sourceId ∉ turns.rows.map TurnRow.sourceId := by
    intro hm
    obtain ⟨x, hx, he⟩ := List.mem_map.mp hm
    exact (h x hx).2.2 he
  exact ⟨_, by rw [TurnTable.insertTurn, dif_neg hp, dif_neg ho, dif_neg hsrc]⟩

theorem enqueueCapture_total (hcf : host.CollisionFree) {c : RuntimeContext} {name : String}
    (ha : c.agentId = "hermes:" ++ name) (hs : Provenance host c.agentId s) {sid : String}
    (hsid : sid ≠ "") (u a : String) (now : Instant) :
    ∃ record s', enqueueCapture host c sid u a none now s = (.ok record, s') := by
  obtain ⟨⟨sessions, n⟩, hup⟩ := upsertSession_total s.sessions sid
    ((s.sessionParentId sid).getD "") now
  obtain ⟨rfl, -⟩ := upsertSession_ok hup
  obtain ⟨t, ht⟩ := captureFactory_total host c sid ((s.sessionParentId sid).getD "") u a
    (hs.positive sid)
  have hcap := captureFactory_captured ht
  obtain ⟨hfresh, hrows⟩ := hs.next_fresh hcf ha hcap
  obtain ⟨json, hj⟩ := hcap.storable.accepted host
  obtain ⟨operations, hop, -⟩ := s.operations.insert_isSome
    (pendingRow t.operation json (host.sha256 (json.render true)) now)
    ((known_eq_none_iff s _).mp hfresh).1
  obtain ⟨turns, hturns⟩ := insertTurn_total s.turns
    (t := { sessionId := sid, localSequence := s.nextSequence sid,
            operationId := t.operation.operationId, sourceId := t.sourceId,
            turnHash := t.turnHash, revision := none }) hrows
  obtain ⟨hsrc, hhash⟩ := hcap.named
  refine ⟨{ sessionId := sid, localSequence := s.nextSequence sid,
            operationId := t.operation.operationId, sourceId := t.sourceId, turnHash := t.turnHash,
            revision := none, queued := true },
    { s with operations, turns,
             sessions := setNextSequence sessions sid (s.nextSequence sid + 1) now }, ?_⟩
  rw [enqueueCapture, enqueueTurn, transact_ok]
  simp only [guard_ok, bind_ok, insertRow_ok]
  exact ⟨hsid, _, hup, t, ht, (), hcap.valid, not_or.mpr ⟨hsrc, hhash⟩, _, hj, by simp [hfresh], _,
    hop, _, hturns, rfl⟩

theorem Appended.turnsOf (hs : Provenance host agentId s) {sid digest : String} {t : TurnRow}
    (h : Appended s s' sid digest t) : s'.turnsOf sid = s.turnsOf sid ++ [t] := by
  have hlast : ∀ y ∈ s.turns.rows.filter (fun x => x.sessionId = sid), earlierTurn y t := by
    intro y hy
    obtain ⟨hy, hsid⟩ := List.mem_filter.mp hy
    have hb := hs.below y hy
    have hys : y.sessionId = sid := by simpa using hsid
    have hseq := h.sequence
    rw [hys] at hb
    unfold earlierTurn
    omega
  rw [Store.turnsOf, h.rows, List.filter_append, List.filter_cons_of_pos (by simp [h.session]),
    List.filter_nil, insertionSort_append_last hlast]
  rfl

/-! ### Staled turns -/

theorem Provenance.staled_indexed (hcf : host.CollisionFree) {name : String}
    (ha : agentId = "hermes:" ++ name) (hs : Provenance host agentId s) {i : String}
    (hi : Digest i) (h : (s.known (rewindId host agentId i)).isSome) :
    ∃ t ∈ s.turns.rows, t.operationId = i := by
  obtain ⟨m, hm⟩ := Option.isSome_iff_exists.mp h
  cases hs.origin _ m hm with
  | turn t indexed id =>
    exfalso
    obtain ⟨turn, hid, -⟩ := hs.ids t indexed
    rw [hid] at id
    exact turn_ne_rewind hcf hi id
  | rewind t indexed revision queued id => exact ⟨t, indexed, (rewindOperationId_inj hcf id).symm⟩
  | replacement j action revision digest id =>
    exact absurd id.symm (replacement_ne_agent hcf ha digest)

/-- What is known of a rewind correction is what some plan made of it. -/
theorem Provenance.staled_mutation (hcf : host.CollisionFree) {name : String}
    (ha : agentId = "hermes:" ++ name) (hs : Provenance host agentId s) {t : TurnRow}
    (ht : t ∈ s.turns.rows) {m : Mutation}
    (h : s.known (rewindId host agentId t.operationId) = some m) :
    ∃ revision queued, m = rewindMutation host agentId t revision queued := by
  cases hs.origin _ m h with
  | turn x indexed id =>
    exfalso
    obtain ⟨turn, hid, -⟩ := hs.ids x indexed
    rw [hid] at id
    exact turn_ne_rewind hcf (hs.turn_digest ht) id
  | rewind x indexed revision queued id intent =>
    have hx := s.turns.operation_inj indexed ht (rewindOperationId_inj hcf id).symm
    exact ⟨revision, queued, hx ▸ intent⟩
  | replacement j action revision digest id =>
    exact absurd id.symm (replacement_ne_agent hcf ha digest)

/-! ### Recovery -/

/-- Turns were indexed at the end of a session, with nothing else changed. -/
structure Extended (s s' : Store) (sid : String) (turns : List TurnRow) : Prop where
  index : s'.turnsOf sid = s.turnsOf sid ++ turns
  fresh : ∀ t ∈ turns, s.known t.operationId = none
  known : ∀ i, (s'.known i).isSome ↔ (s.known i).isSome ∨ i ∈ turns.map TurnRow.operationId
  kept : Kept s s'

theorem Extended.refl (s : Store) (sid : String) : Extended s s sid [] :=
  ⟨by simp, by simp, by simp, Kept.refl s⟩

theorem Extended.cons {s₁ : Store} {sid digest : String} {t : TurnRow} {turns : List TurnRow}
    (hs : Provenance host agentId s) (h : Appended s s₁ sid digest t)
    (h' : Extended s₁ s' sid turns) : Extended s s' sid (t :: turns) where
  index := by rw [h'.index, h.turnsOf hs, List.append_assoc, List.singleton_append]
  fresh := by
    intro x hx
    rcases List.mem_cons.mp hx with rfl | hx
    · exact h.fresh
    · have hn := h'.fresh x hx
      cases hk : s.known x.operationId with
      | none => rfl
      | some m => rw [(h.kept _ (by simp [hk])).1, hk] at hn; exact absurd hn (by simp)
  known := by
    intro i
    rw [h'.known, h.known, List.map_cons, List.mem_cons, or_assoc]
  kept := h.kept.trans h'.kept

theorem recoverTurns_spec (hcf : host.CollisionFree) {c : RuntimeContext} {name : String}
    (ha : c.agentId = "hermes:" ++ name) (hs : Provenance host c.agentId s) {sid : String}
    (hsid : sid ≠ "") (counts : String → Nat) (clock : Nat → Instant) (seen : String → Nat)
    (transcript : List (String × String)) :
    ∃ s' turns, recoverTurns host c sid counts clock seen transcript s = (.ok (), s') ∧
      Provenance host c.agentId s' ∧ Extended s s' sid turns ∧
      turns.map TurnRow.turnHash
        = surplus id (fun h => counts h - seen h)
          (transcript.map fun turn => turnHash host turn.1 turn.2) := by
  induction transcript generalizing s seen with
  | nil => exact ⟨s, [], rfl, hs, Extended.refl s sid, rfl⟩
  | cons turn transcript ih =>
    obtain ⟨u, a⟩ := turn
    rw [recoverTurns, List.map_cons, surplus_counted]
    by_cases hc : counts (turnHash host u a) < seen (turnHash host u a) + 1
    · obtain ⟨record, s₁, hcap⟩ := enqueueCapture_total hcf ha hs hsid u a
        (clock transcript.length)
      obtain ⟨t, ht⟩ := enqueueCapture_ok hcap
      have hs₁ : Provenance host c.agentId s₁ := by
        have := enqueueCapture_provenance rfl sid u a none (clock transcript.length) hs
        rwa [hcap] at this
      obtain ⟨s', turns, hrun, hs', hext, hhash⟩ := ih hs₁
        (Function.update seen (turnHash host u a) (seen (turnHash host u a) + 1))
      refine ⟨s', t :: turns, ?_, hs', hext.cons hs ht, ?_⟩
      · simp only [Function.update_self, hc, if_true, hcap]
        exact hrun
      · simp only [id, hc, if_true, List.map_cons, ht.hash, hhash]
    · obtain ⟨s', turns, hrun, hs', hext, hhash⟩ := ih hs
        (Function.update seen (turnHash host u a) (seen (turnHash host u a) + 1))
      refine ⟨s', turns, ?_, hs', hext, ?_⟩
      · simp only [Function.update_self, hc, if_false]
        exact hrun
      · simp only [id, hc, if_false, hhash]

/-! ### Corrections -/

/-- Every planned correction that is already known is the one planned now. -/
def Replanned (host : Host) (agentId : String) (s : Store) (queued : TurnRow → Bool)
    (turns : List TurnRow) : Prop :=
  ∀ t ∈ turns, ∀ m, s.known (rewindId host agentId t.operationId) = some m →
    m = rewindMutation host agentId t t.revision (queued t)

theorem enqueue_rewind (hcf : host.CollisionFree) (hs : Provenance host agentId s) {t : TurnRow}
    (ht : t ∈ s.turns.rows) (revision : Option Int) (queued : Bool) (now : Instant) :
    (∀ m, s.known (rewindId host agentId t.operationId) = some m →
      m = rewindMutation host agentId t revision queued →
      enqueue host (rewindOperation host agentId (correctionOf t revision queued)) now s
        = (.ok false, s)) ∧
    (∀ m, s.known (rewindId host agentId t.operationId) = some m →
      m ≠ rewindMutation host agentId t revision queued → ∃ message,
      enqueue host (rewindOperation host agentId (correctionOf t revision queued)) now s
        = (.error (.operationConflict message), s)) ∧
    (s.known (rewindId host agentId t.operationId) = none → ∃ s',
      enqueue host (rewindOperation host agentId (correctionOf t revision queued)) now s
        = (.ok true, s')) := by
  have hdep : (correctionOf t revision queued).dependsOnOperationId
      ≠ some (rewindOperationId host agentId (correctionOf t revision queued).operationId) := by
    unfold correctionOf
    split
    · intro he
      obtain ⟨turn, hid, -⟩ := hs.ids t ht
      exact turn_ne_rewind hcf (hs.turn_digest ht) (hid.symm.trans (Option.some.inj he))
    · exact fun he => by cases he
  have hv := rewindOperation_valid host agentId (correctionOf t revision queued) hdep
  obtain ⟨json, hj⟩ := (rewindRequest_storable (rewindId host agentId t.operationId)
    revision).accepted host
  have hc : canonicalRequest host
      (rewindOperation host agentId (correctionOf t revision queued)).request
        = .ok (json, host.sha256 (json.render true)) := hj
  have hm : rewindMutation host agentId t revision queued
      = (rewindOperation host agentId (correctionOf t revision queued)).mutation
        (host.sha256 (json.render true)) := by
    rw [rewindMutation, requestHash_eq hc]
  refine ⟨fun m hk he => ?_, fun m hk hne => ?_, fun hk => ?_⟩
  · have hk' : s.known (rewindOperation host agentId (correctionOf t revision queued)).operationId
        = some m := hk
    simp [enqueue, transact, hv, hc, hk', assertSameOperation, ← hm, he, bind, Except.bind, pure,
      Except.pure]
  · have hk' : s.known (rewindOperation host agentId (correctionOf t revision queued)).operationId
        = some m := hk
    refine ⟨"operation " ++ (rewindOperation host agentId
      (correctionOf t revision queued)).operationId ++ " already exists with a different mutation", ?_⟩
    simp [enqueue, transact, hv, hc, hk', assertSameOperation, ← hm, hne, bind, Except.bind]
  · have hk' : s.known (rewindOperation host agentId (correctionOf t revision queued)).operationId
        = none := hk
    obtain ⟨operations, hop, -⟩ := s.operations.insert_isSome
      (pendingRow (rewindOperation host agentId (correctionOf t revision queued)) json
        (host.sha256 (json.render true)) now) ((known_eq_none_iff s _).mp hk').1
    refine ⟨{ s with operations }, ?_⟩
    simp [enqueue, transact, hv, hc, hk', insertRow_ok.mpr hop, bind, Except.bind, pure, Except.pure]

theorem enqueue_ok {op : NewOperation} {now : Instant} {b : Bool}
    (h : enqueue host op now s = (.ok b, s')) :
    s'.turns = s.turns ∧ (∀ i, (s'.known i).isSome ↔ (s.known i).isSome ∨ i = op.operationId) ∧
    (∀ i, i ≠ op.operationId → s'.known i = s.known i) ∧ Kept s s' := by
  have heff := enqueue_effect h
  have hknown := effect_known_eq heff
  cases heff with
  | known valid canonical same =>
    refine ⟨rfl, fun i => ⟨.inl, ?_⟩, fun _ _ => rfl, Kept.refl s⟩
    rintro (h | rfl)
    · exact h
    · simp [same]
  | @accept _ _ json hash operations valid canonical fresh insert =>
    simp only [offered] at hknown
    refine ⟨rfl, fun i => ?_, fun i hi => ?_, fun i hi => ?_⟩
    · rw [hknown]
      by_cases hi : i = op.operationId <;> simp [hi]
    · rw [hknown, if_neg hi]
    · have hne : i ≠ op.operationId := by
        rintro rfl
        rw [fresh] at hi
        cases hi
      refine ⟨by rw [hknown, if_neg hne], ?_⟩
      rw [KeyedTable.find_insert insert, pendingRow_id, if_neg hne]

structure Corrected (host : Host) (agentId : String) (s s' : Store) (turns : List TurnRow) : Prop where
  index : s'.turns = s.turns
  known : ∀ i, (s'.known i).isSome ↔
    (s.known i).isSome ∨ ∃ t ∈ turns, i = rewindId host agentId t.operationId
  kept : Kept s s'

/-- The loop over the plan raises exactly when some known correction is planned otherwise now. -/
theorem enqueueCorrections_spec (hcf : host.CollisionFree) (hs : Provenance host agentId s)
    (queued : TurnRow → Bool) (clock : Nat → Instant) {turns : List TurnRow}
    (indexed : ∀ t ∈ turns, t ∈ s.turns.rows) (nodup : (turns.map TurnRow.operationId).Nodup) :
    ∃ out s', enqueueCorrections host agentId clock
        (turns.map fun t => correctionOf t t.revision (queued t)) s = (out, s') ∧
      Provenance host agentId s' ∧
      (Replanned host agentId s queued turns → out = .ok () ∧ Corrected host agentId s s' turns) ∧
      (¬ Replanned host agentId s queued turns →
        ∃ message, out = .error (.operationConflict message)) := by
  induction turns generalizing s with
  | nil =>
    refine ⟨.ok (), s, rfl, hs, fun _ => ⟨rfl, rfl, by simp, Kept.refl s⟩, fun h => ?_⟩
    exact absurd (fun t ht => by cases ht) h
  | cons t turns ih =>
    rw [List.map_cons, List.nodup_cons] at nodup
    obtain ⟨hsame, hother, hnew⟩ := enqueue_rewind hcf hs (indexed t List.mem_cons_self) t.revision
      (queued t) (clock turns.length)
    have hprov := exec_provenance
      (.rewind t (indexed t List.mem_cons_self) t.revision (queued t) (clock turns.length)) hs
    have hlen : (turns.map fun t => correctionOf t t.revision (queued t)).length = turns.length :=
      List.length_map _
    -- the loop goes on from a store in which the other corrections are known as before
    have hrest : ∀ b s₁, enqueue host (rewindOperation host agentId
        (correctionOf t t.revision (queued t))) (clock turns.length) s = (.ok b, s₁) →
        (∀ m, s.known (rewindId host agentId t.operationId) = some m →
          m = rewindMutation host agentId t t.revision (queued t)) →
        ∃ out s', enqueueCorrections host agentId clock
            ((t :: turns).map fun t => correctionOf t t.revision (queued t)) s = (out, s') ∧
          Provenance host agentId s' ∧
          (Replanned host agentId s queued (t :: turns) →
            out = .ok () ∧ Corrected host agentId s s' (t :: turns)) ∧
          (¬ Replanned host agentId s queued (t :: turns) →
            ∃ message, out = .error (.operationConflict message)) := by
      intro b s₁ hrun hhead
      obtain ⟨hturns, hknown, hothers, hkept⟩ := enqueue_ok hrun
      have hs₁ : Provenance host agentId s₁ := by
        have := hprov
        simp only [Call.exec, replyWith, hrun] at this
        exact this
      have hcongr : Replanned host agentId s₁ queued turns ↔
          Replanned host agentId s queued (t :: turns) := by
        have hiff : ∀ x ∈ turns, s₁.known (rewindId host agentId x.operationId)
            = s.known (rewindId host agentId x.operationId) := by
          intro x hx
          refine hothers _ fun he => nodup.1 ?_
          rw [← rewindOperationId_inj hcf he]
          exact List.mem_map_of_mem hx
        constructor
        · intro h x hx
          rcases List.mem_cons.mp hx with rfl | hx
          · exact hhead
          · rw [← hiff x hx]
            exact h x hx
        · intro h x hx
          rw [hiff x hx]
          exact h x (List.mem_cons_of_mem _ hx)
      obtain ⟨out, s', hloop, hs', hok, herr⟩ := ih hs₁
        (fun x hx => by rw [hturns]; exact indexed x (List.mem_cons_of_mem _ hx)) nodup.2
      refine ⟨out, s', ?_, hs', fun h => ?_, fun h => herr fun hr => h (hcongr.mp hr)⟩
      · rw [List.map_cons, enqueueCorrections, hlen, hrun]
        exact hloop
      · obtain ⟨hout, hcor⟩ := hok (hcongr.mpr h)
        refine ⟨hout, hcor.index.trans hturns, fun i => ?_, hkept.trans hcor.kept⟩
        rw [hcor.known, hknown, or_assoc, List.exists_mem_cons_iff]
        exact Iff.rfl
    cases hk : s.known (rewindId host agentId t.operationId) with
    | none =>
      obtain ⟨s₁, hrun⟩ := hnew hk
      exact hrest true s₁ hrun fun m hm => by rw [hk] at hm; cases hm
    | some m =>
      by_cases hm : m = rewindMutation host agentId t t.revision (queued t)
      · exact hrest false s (hsame m hk hm) fun m' hm' => by rw [hk] at hm'; cases hm'; exact hm
      · obtain ⟨message, hrun⟩ := hother m hk hm
        refine ⟨.error (.operationConflict message), s, ?_, hs, fun h => ?_, fun _ => ⟨message, rfl⟩⟩
        · rw [List.map_cons, enqueueCorrections, hlen, hrun]
        · exact absurd (h t List.mem_cons_self m hk) hm

/-! ### The whole reconciliation -/

theorem turn_ne_correction (hcf : host.CollisionFree) (hs : Provenance host agentId s) {t : TurnRow}
    (ht : t ∈ s.turns.rows) {i : String} (hi : Digest i) : t.operationId ≠ rewindId host agentId i := by
  obtain ⟨turn, hid, -⟩ := hs.ids t ht
  rw [hid]
  exact turn_ne_rewind hcf hi

theorem Extended.staled (hcf : host.CollisionFree) {name : String} (ha : agentId = "hermes:" ++ name)
    (hs : Provenance host agentId s) (hs' : Provenance host agentId s') {sid : String}
    {turns : List TurnRow} (h : Extended s s' sid turns) :
    (∀ t ∈ s'.turnsOf sid, s'.staled host agentId t = s.staled host agentId t) ∧
    ∀ t ∈ turns, s.staled host agentId t = false := by
  have hmem : ∀ t ∈ turns, t ∈ s'.turns.rows := fun t ht =>
    (mem_turnsOf.mp (h.index ▸ List.mem_append_right _ ht)).1
  constructor
  · intro t ht
    have hd := hs'.turn_digest (mem_turnsOf.mp ht).1
    have hn : rewindId host agentId t.operationId ∉ turns.map TurnRow.operationId := by
      intro hm
      obtain ⟨x, hx, he⟩ := List.mem_map.mp hm
      exact turn_ne_correction hcf hs' (hmem x hx) hd he
    have := h.known (rewindId host agentId t.operationId)
    simp only [hn, or_false] at this
    exact Bool.eq_iff_iff.mpr this
  · intro t ht
    by_contra hst
    rw [Bool.not_eq_false] at hst
    obtain ⟨x, hx, he⟩ := hs.staled_indexed hcf ha (hs'.turn_digest (hmem t ht)) hst
    have hk := hs.known x hx
    rw [he, h.fresh t ht] at hk
    cases hk

theorem Extended.replanned (hcf : host.CollisionFree) {name : String}
    (ha : agentId = "hermes:" ++ name) (hs : Provenance host agentId s)
    (hs' : Provenance host agentId s') {sid : String} {turns : List TurnRow}
    (h : Extended s s' sid turns) (budget : String → Nat) :
    Replanned host agentId s' s'.queued (surplus TurnRow.turnHash budget (s'.turnsOf sid)) ↔
      Replanned host agentId s s.queued (surplus TurnRow.turnHash budget (s.turnsOf sid)) := by
  obtain ⟨hstaled, hnew⟩ := h.staled hcf ha hs hs'
  have hold : ∀ t ∈ s.turnsOf sid, s'.queued t = s.queued t := by
    intro t ht
    have := (h.kept t.operationId (hs.known t (mem_turnsOf.mp ht).1)).2
    simp [Store.queued, this]
  have hkeep : ∀ i m, s.known i = some m → s'.known i = some m := fun i m hm => by
    rw [(h.kept i (by simp [hm])).1, hm]
  constructor
  · intro hr t ht m hm
    have htm := (surplus_sublist _ _ _).subset ht
    have ht' : t ∈ surplus TurnRow.turnHash budget (s'.turnsOf sid) := by
      rw [h.index, surplus_append]
      exact List.mem_append_left _ ht
    rw [← hold t htm]
    exact hr t ht' m (hkeep _ m hm)
  · intro hr t ht m hm
    have htm := (surplus_sublist _ _ _).subset ht
    -- a correction known after the recovery was known before
    have hst : s.staled host agentId t = true := by
      rw [← hstaled t htm, Store.staled, hm]
      rfl
    have ht0 : t ∈ surplus TurnRow.turnHash budget (s.turnsOf sid) := by
      rw [h.index, surplus_append] at ht
      rcases List.mem_append.mp ht with ht | ht
      · exact ht
      · rw [hnew t ((surplus_sublist _ _ _).subset ht)] at hst
        cases hst
    obtain ⟨m', hm'⟩ := Option.isSome_iff_exists.mp hst
    rw [hkeep _ m' hm'] at hm
    cases hm
    rw [hold t ((surplus_sublist _ _ _).subset ht0)]
    exact hr t ht0 m hm'

theorem Corrected.staled (hcf : host.CollisionFree) {turns : List TurnRow}
    (h : Corrected host agentId s s' turns) (indexed : ∀ t ∈ turns, t ∈ s.turns.rows) {t : TurnRow}
    (ht : t ∈ s.turns.rows) :
    s'.staled host agentId t = (s.staled host agentId t || decide (t ∈ turns)) := by
  have hiff := h.known (rewindId host agentId t.operationId)
  have hin : (∃ x ∈ turns, rewindId host agentId t.operationId = rewindId host agentId x.operationId) ↔
      t ∈ turns := by
    constructor
    · rintro ⟨x, hx, he⟩
      have := s.turns.operation_inj ht (indexed x hx) (rewindOperationId_inj hcf he)
      exact this ▸ hx
    · exact fun hm => ⟨t, hm, rfl⟩
  rw [hin] at hiff
  exact Bool.eq_iff_iff.mpr (by simpa [Store.staled] using hiff)

theorem markSessionReconcile_total {sid : String} (parent : String) (hsid : sid ≠ "") (required : Bool)
    (now : Instant) : ∃ s', markSessionReconcile sid parent required now s = (.ok (), s') ∧
      s'.turns = s.turns ∧ s'.operations = s.operations ∧ s'.history = s.history := by
  obtain ⟨sessions, hm⟩ : ∃ sessions, markSession s.sessions sid parent required now = .ok sessions := by
    unfold markSession
    split
    · exact ⟨_, rfl⟩
    · rename_i hn
      obtain ⟨t, ht, -⟩ := s.sessions.insert_isSome
        { sessionId := sid, parentSessionId := parent, nextSequence := 1,
          reconcileRequired := required, updatedAt := now } hn
      exact ⟨_, insertRow_ok.mpr ht⟩
  refine ⟨{ s with sessions }, ?_, rfl, rfl, rfl⟩
  rw [markSessionReconcile, transact_ok]
  simp only [guard_ok, bind_ok]
  exact ⟨hsid, sessions, hm, rfl⟩

/-- A session was reconciled with a transcript: the turns that the index lacked were indexed, and
the surplus was corrected. -/
structure Reconciled (host : Host) (agentId : String) (s s' : Store) (sid : String)
    (fingerprints prior : List String) (recovered : List TurnRow) : Prop where
  index : s'.turnsOf sid = s.turnsOf sid ++ recovered
  hashes : recovered.map TurnRow.turnHash
    = surplus id (counter ((s.turnsOf sid).map TurnRow.turnHash)) prior
  unstaled : ∀ t ∈ recovered, s.staled host agentId t = false
  staled : ∀ t ∈ s'.turnsOf sid, s'.staled host agentId t = (s.staled host agentId t ||
    decide (t ∈ surplus TurnRow.turnHash (counter fingerprints) (s'.turnsOf sid)))

theorem turnsOf_congr (h : s'.turns = s.turns) (sid : String) : s'.turnsOf sid = s.turnsOf sid := by
  rw [Store.turnsOf, Store.turnsOf, h]

theorem reconcileSession_spec (hcf : host.CollisionFree) {c : RuntimeContext}
    (hs : Provenance host c.agentId s) {sid : String} (hsid : sid ≠ "") (messages : List Message)
    (current : String × String) (clock : ReconcileClock) :
    ∃ out s', reconcileSession host c sid messages current clock s = (out, s') ∧
      Provenance host c.agentId s' ∧
      (Replanned host c.agentId s s.queued (surplus TurnRow.turnHash
          (counter (committedTurnFingerprints host messages)) (s.turnsOf sid)) →
        out = .ok () ∧ ∃ recovered, Reconciled host c.agentId s s' sid
          (committedTurnFingerprints host messages)
          ((priorTurns (committedTurns host messages) current).map fun turn =>
            turnHash host turn.1 turn.2) recovered) ∧
      (¬ Replanned host c.agentId s s.queued (surplus TurnRow.turnHash
          (counter (committedTurnFingerprints host messages)) (s.turnsOf sid)) →
        ∃ message, out = .error (.operationConflict message)) := by
  obtain ⟨name, ha⟩ := c.agentId_prefix
  obtain ⟨s₁, recovered, hrec, hs₁, hext, hhash⟩ := recoverTurns_spec hcf ha hs hsid
    (counter ((s.indexedTurns sid).map IndexedTurnRecord.turnHash)) clock.recover (fun _ => 0)
    (priorTurns (committedTurns host messages) current)
  have hsub : ∀ t ∈ surplus TurnRow.turnHash
      (counter (committedTurnFingerprints host messages)) (s₁.turnsOf sid), t ∈ s₁.turns.rows :=
    fun t ht => (mem_turnsOf.mp ((surplus_sublist _ _ _).subset ht)).1
  have hnodup : ((surplus TurnRow.turnHash (counter (committedTurnFingerprints host messages))
      (s₁.turnsOf sid)).map TurnRow.operationId).Nodup :=
    (turnsOf_nodup s₁ sid).sublist ((surplus_sublist _ _ _).map _)
  obtain ⟨out, s₂, hcor, hs₂, hok, herr⟩ := enqueueCorrections_spec hcf hs₁ s₁.queued clock.correct
    hsub hnodup
  rw [← hext.replanned hcf ha hs hs₁]
  by_cases hr : Replanned host c.agentId s₁ s₁.queued (surplus TurnRow.turnHash
      (counter (committedTurnFingerprints host messages)) (s₁.turnsOf sid))
  · obtain ⟨rfl, hcorrected⟩ := hok hr
    obtain ⟨s₃, hmark, hturns, hops, hhist⟩ := markSessionReconcile_total (s := s₂) ""
      hsid false clock.mark
    have hknown : ∀ i, s₃.known i = s₂.known i := fun i => by simp [Store.known, hops, hhist]
    have hs₃ : Provenance host c.agentId s₃ := by
      have := exec_provenance (.mark sid "" false clock.mark) hs₂
      simp only [Call.exec, replyWith, hmark] at this
      exact this
    have hidx : s₃.turnsOf sid = s₁.turnsOf sid :=
      turnsOf_congr (hturns.trans hcorrected.index) sid
    obtain ⟨hst, hnew⟩ := hext.staled hcf ha hs hs₁
    refine ⟨.ok (), s₃, ?_, hs₃, fun _ => ⟨rfl, recovered, ?_, ?_, hnew, fun t ht => ?_⟩,
      fun h => absurd hr h⟩
    · simp only [reconcileSession, hrec, rewindPlan_eq, hcor, hmark]
    · rw [hidx, hext.index]
    · rw [hhash, indexedCounts_eq]
      rfl
    · rw [hidx] at ht ⊢
      have hlift : s₃.staled host c.agentId t = s₂.staled host c.agentId t := by
        simp [Store.staled, hknown]
      rw [hlift, hcorrected.staled hcf hsub (mem_turnsOf.mp ht).1, hst t ht]
  · obtain ⟨message, rfl⟩ := herr hr
    refine ⟨.error (.operationConflict message), s₂, ?_, hs₂, fun h => absurd h hr,
      fun _ => ⟨message, rfl⟩⟩
    simp only [reconcileSession, hrec, rewindPlan_eq, hcor]

end Calls

end SibylMemory
