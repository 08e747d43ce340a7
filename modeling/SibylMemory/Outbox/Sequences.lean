import SibylMemory.Outbox.SessionOrder

/-!
# Sequence numbers (`outbox.py:497-714`)

Three methods move the counter of a session: `reserve_sequence` and `enqueue_turn` hand out its
value and step over it, `index_turn` raises it above the turn it indexes. It stays above
whatever was handed out or indexed.
-/

namespace SibylMemory.Outbox

/-- The number that a call handed out for a session. -/
def allocated (sid : String) (e : Call × Except OutboxException Reply) : Option Nat :=
  match e with
  | (.reserveSequence sid' _ _, .ok (.sequence n)) => if sid' = sid then some n else none
  | (.enqueueTurn sid' _ _ _, .ok (.turn t)) => if sid' = sid then some t.localSequence else none
  | _ => none

/-- The numbers handed out for a session, in commit order. -/
def World.allocated (w : World) (sid : String) : List Nat :=
  w.trace.filterMap (Outbox.allocated sid)

/-! ### One call -/

section Calls
variable {host : Host} {c : Call} {s s' : Store} {r : Reply} {sid : String}

theorem allocated_error (sid : String) (c : Call) (e : OutboxException) :
    allocated sid (c, .error e) = none := by cases c <;> rfl

theorem indexTurn_ok {oid src digest : String} {n : Int} {now : Instant} {b : Bool}
    (h : indexTurn sid n oid src digest now s = (.ok b, s')) :
    (∀ k, s'.nextSequence k
      = if k = sid then max (s.nextSequence sid) (n.toNat + 1) else s.nextSequence k) ∧
    ∀ t ∈ s'.turns.rows, t ∈ s.turns.rows ∨
      (t.sessionId = sid ∧ t.localSequence = n.toNat ∧ t.sourceId = src) := by
  rw [indexTurn, transact_ok] at h
  simp only [guard_ok, bind_ok] at h
  obtain ⟨-, sessions, hraise, h⟩ := h
  have hnext : ∀ (turns : TurnTable) k, Store.nextSequence { s with sessions, turns } k
      = if k = sid then max (s.nextSequence sid) (n.toNat + 1) else s.nextSequence k := by
    intro turns k
    rw [Store.nextSequence, raiseSequence_ok (by omega) hraise k]
    by_cases hk : k = sid
    · rw [if_pos hk, if_pos hk]
      rfl
    · rw [if_neg hk, if_neg hk]
      rfl
  split at h
  · simp only [guard_ok] at h
    cases h.2
    exact ⟨hnext s.turns, fun t ht => .inl ht⟩
  · simp only [bind_ok] at h
    obtain ⟨turns, hinsert, he⟩ := h
    cases he
    refine ⟨hnext turns, fun t ht => ?_⟩
    rcases (TurnTable.mem_insertTurn hinsert t).mp ht with ht | rfl
    · exact .inl ht
    · exact .inr ⟨rfl, rfl, rfl⟩

/-- What a call does to the counters. -/
structure Advances (c : Call) (r : Reply) (s s' : Store) : Prop where
  grows : ∀ sid, s.nextSequence sid ≤ s'.nextSequence sid
  turns : ∀ t ∈ s'.turns.rows,
    (∃ t₀ ∈ s.turns.rows, t₀.sessionId = t.sessionId ∧ t₀.localSequence = t.localSequence) ∨
    t.localSequence < s'.nextSequence t.sessionId
  allocated : ∀ sid n, allocated sid (c, .ok r) = some n →
    n = s.nextSequence sid ∧ s'.nextSequence sid = n + 1

theorem effect_allocated (h : Effect host s c r s') {n : Nat}
    (ha : allocated sid (c, .ok r) = some n) :
    n = s.nextSequence sid ∧ s'.nextSequence sid = n + 1 := by
  cases h with
  | @reserve k parent now sessions nonempty session =>
    simp only [allocated, Option.ite_none_right_eq_some, Option.some.injEq] at ha
    obtain ⟨rfl, rfl⟩ := ha
    refine ⟨rfl, ?_⟩
    simp [Store.nextSequence, session, SessionRow.advance]
  | @turn k factory parent now t json hash operations sessions turns nonempty made valid canonical
      named fresh insert index session =>
    simp only [allocated, Option.ite_none_right_eq_some, Option.some.injEq] at ha
    obtain ⟨rfl, rfl⟩ := ha
    refine ⟨rfl, ?_⟩
    simp [Store.nextSequence, session, SessionRow.advance]
  | _ => cases ha

theorem exec_advances (h : c.exec host s = (.ok r, s')) : Advances c r s s' := by
  have heff := exec_effect h
  by_cases hindex : ∃ sid n oid src digest now, c = .indexTurn sid n oid src digest now
  · obtain ⟨sid, n, oid, src, digest, now, rfl⟩ := hindex
    obtain ⟨b, hb, rfl⟩ := replyWith_ok h
    obtain ⟨hnext, hturns⟩ := indexTurn_ok hb
    refine ⟨fun k => ?_, fun t ht => ?_, fun k n ha => by cases ha⟩
    · rw [hnext]
      split
      · rename_i hk
        subst hk
        exact le_max_left _ _
      · exact le_refl _
    · rcases hturns t ht with ht | ⟨rfl, hseq, -⟩
      · exact .inl ⟨t, ht, rfl, rfl⟩
      · right
        rw [hnext, if_pos rfl, hseq]
        omega
  · have hni : ∀ sid n oid src digest now, c ≠ .indexTurn sid n oid src digest now :=
      fun sid n oid src digest now he => hindex ⟨sid, n, oid, src, digest, now, he⟩
    refine ⟨effect_nextSequence heff hni, fun t ht => ?_, fun k n ha => effect_allocated heff ha⟩
    rcases effect_turn_origin heff hni ht with ⟨t₀, ht₀, hid, hseq, -⟩ | ⟨hseq, hnext, -⟩
    · exact .inl ⟨t₀, ht₀, hid, hseq⟩
    · right
      omega

theorem insertRow_error {ρ : Type} {key : ρ → String} {name : String} {t : KeyedTable key}
    {row : ρ} {e : OutboxException} (h : insertRow name t row = .error e) :
    e = .integrityError name := by
  unfold insertRow at h
  split at h
  · cases h
  · cases h
    rfl

theorem upsertSession_error {sessions : KeyedTable SessionRow.sessionId} {parent : String}
    {now : Instant} {e : OutboxException} (h : upsertSession sessions sid parent now = .error e) :
    e = .integrityError "session_state.session_id" := by
  unfold upsertSession at h
  cases hf : sessions.find sid with
  | some row => rw [hf] at h; cases h
  | none =>
    rw [hf] at h
    dsimp only at h
    rw [bind_error] at h
    rcases h with h | ⟨inserted, -, h⟩
    · exact insertRow_error h
    · cases h

theorem insertTurn_error {turns : TurnTable} {t : TurnRow} {e : OutboxException}
    (h : turns.insertTurn t = .error e) :
    (e = .integrityError "session_turns.session_id, session_turns.local_sequence" ∧
      ∃ x ∈ turns.rows, x.position = t.position) ∨
    (e = .integrityError "session_turns.operation_id" ∧
      ∃ x ∈ turns.rows, x.operationId = t.operationId) ∨
    (e = .integrityError "session_turns.source_id" ∧ ∃ x ∈ turns.rows, x.sourceId = t.sourceId) := by
  unfold TurnTable.insertTurn at h
  split_ifs at h with hp ho hs
  · cases h
    exact .inl ⟨rfl, List.mem_map.mp hp⟩
  · cases h
    exact .inr (.inl ⟨rfl, List.mem_map.mp ho⟩)
  · cases h
    exact .inr (.inr ⟨rfl, List.mem_map.mp hs⟩)

/-- A constraint on the turn rows that `enqueue_turn` violates: its factory raised the same error,
or the row that it built is refused. -/
theorem enqueueTurn_integrity {parent name : String}
    {factory : Nat → Except OutboxException NewTurnOperation} {now : Instant}
    (hname : name ≠ "session_state.session_id" ∧ name ≠ "operations.operation_id")
    (h : enqueueTurn host sid factory parent now s = (.error (.integrityError name), s')) :
    factory (s.nextSequence sid) = .error (.integrityError name) ∨
    ∃ made, factory (s.nextSequence sid) = .ok made ∧ s.turns.insertTurn
      { sessionId := sid, localSequence := s.nextSequence sid,
        operationId := made.operation.operationId, sourceId := made.sourceId,
        turnHash := made.turnHash, revision := none } = .error (.integrityError name) := by
  obtain ⟨-, h⟩ := transact_error h
  simp only [throw_error, bind_error] at h
  rcases h with ⟨-, h⟩ | ⟨-, h | ⟨⟨sessions, n⟩, hup, h⟩⟩
  · cases h
  · cases upsertSession_error h
    exact absurd rfl hname.1
  obtain ⟨rfl, -⟩ := upsertSession_ok hup
  rcases h with h | ⟨made, hmade, h | ⟨-, -, ⟨-, h⟩ | ⟨-, h | ⟨⟨json, hash⟩, -, h⟩⟩⟩⟩
  · exact .inl h
  · obtain ⟨message, h⟩ := validateOperation_error h
    cases h
  · cases h
  · obtain ⟨message, h⟩ := canonicalRequest_error h
    cases h
  rcases h with ⟨-, h⟩ | ⟨-, h | ⟨operations, -, h | ⟨turns, -, h⟩⟩⟩
  · cases h
  · cases insertRow_error h
    exact absurd rfl hname.2
  · exact .inr ⟨made, hmade, h⟩
  · cases h

theorem enqueueTurn_position {parent : String}
    {factory : Nat → Except OutboxException NewTurnOperation} {now : Instant}
    (hbelow : ∀ t ∈ s.turns.rows, t.sessionId = sid → t.localSequence < s.nextSequence sid)
    (h : enqueueTurn host sid factory parent now s
      = (.error (.integrityError "session_turns.session_id, session_turns.local_sequence"), s')) :
    factory (s.nextSequence sid)
      = .error (.integrityError "session_turns.session_id, session_turns.local_sequence") := by
  rcases enqueueTurn_integrity (by decide) h with h | ⟨made, -, h⟩
  · exact h
  rcases insertTurn_error h with ⟨-, x, hx, hpos⟩ | ⟨h, -⟩ | ⟨h, -⟩
  · -- the position is above all that are taken
    have hid : x.sessionId = sid := congrArg Prod.fst hpos
    have hseq : x.localSequence = s.nextSequence sid := congrArg Prod.snd hpos
    have hlt := hbelow x hx hid
    omega
  · simp at h
  · simp at h

end Calls

/-! ### Runs -/

structure Sequenced (w : World) (sid : String) : Prop where
  indexed : ∀ t ∈ w.store.turns.rows, t.sessionId = sid →
    t.localSequence < w.store.nextSequence sid
  below : ∀ n ∈ w.allocated sid, n < w.store.nextSequence sid
  increasing : (w.allocated sid).Pairwise (· < ·)

theorem start_sequenced (sid : String) : Sequenced World.start sid where
  indexed := fun t h => by cases h
  below := fun n h => by cases h
  increasing := List.Pairwise.nil

theorem step_sequenced (host : Host) (w : World) (c : Call) (h : ∀ sid, Sequenced w sid)
    (sid : String) : Sequenced (World.step host w c) sid := by
  obtain ⟨hindexed, hbelow, hincreasing⟩ := h sid
  cases hexec : c.exec host w.store with
  | mk out s' =>
    have hstep : World.step host w c = ⟨s', w.trace ++ [(c, out)]⟩ := by rw [World.step, hexec]
    have hlist : (World.step host w c).allocated sid
        = w.allocated sid ++ (allocated sid (c, out)).toList := by
      rw [hstep, World.allocated, List.filterMap_append]
      cases ha : allocated sid (c, out) <;> simp [ha, World.allocated]
    rw [hstep] at hlist ⊢
    cases out with
    | error e =>
      rw [allocated_error, Option.toList_none, List.append_nil] at hlist
      have hs : s' = w.store := exec_error hexec
      subst hs
      exact ⟨hindexed, by rw [hlist]; exact hbelow, by rw [hlist]; exact hincreasing⟩
    | ok r =>
      obtain ⟨hgrows, hturns, hallocated⟩ := exec_advances hexec
      have hold : ∀ n ∈ w.allocated sid, n < s'.nextSequence sid := fun n hn =>
        lt_of_lt_of_le (hbelow n hn) (hgrows sid)
      refine ⟨fun t ht hid => ?_, ?_, ?_⟩
      · rcases hturns t ht with ⟨t₀, ht₀, hid₀, hseq⟩ | hlt
        · have hlt := hindexed t₀ ht₀ (hid₀.trans hid)
          have hle := hgrows sid
          show t.localSequence < s'.nextSequence sid
          omega
        · exact hid ▸ hlt
      · rw [hlist]
        intro n hn
        rcases List.mem_append.mp hn with hn | hn
        · exact hold n hn
        · obtain ⟨-, hnext⟩ := hallocated sid n (Option.mem_toList.mp hn)
          show n < s'.nextSequence sid
          omega
      · rw [hlist, List.pairwise_append]
        refine ⟨hincreasing, ?_, fun m hm n hn => ?_⟩
        · cases allocated sid (c, .ok r) <;> simp
        · obtain ⟨hn, -⟩ := hallocated sid n (Option.mem_toList.mp hn)
          have hlt := hbelow m hm
          omega

theorem run_sequenced (host : Host) (calls : List Call) (sid : String) :
    Sequenced (World.run host calls) sid :=
  @Run.exec_invariant_of_step _ _ (World.step host) (fun w => ∀ sid, Sequenced w sid)
    (fun w c h => step_sequenced host w c h) _ calls start_sequenced sid

/-- In every interleaving the counter of a session is above all numbers that are indexed or were
handed out, these strictly increase, `enqueue_turn` does not find its position taken, and a call
that raises changes nothing. -/
theorem sequence_allocation (host : Host) :
    (∀ calls sid, Sequenced (World.run host calls) sid) ∧
    (∀ calls sid factory parent now s',
      enqueueTurn host sid factory parent now (World.run host calls).store
        = (.error (.integrityError "session_turns.session_id, session_turns.local_sequence"), s') →
      factory ((World.run host calls).store.nextSequence sid)
        = .error (.integrityError "session_turns.session_id, session_turns.local_sequence")) ∧
    ∀ (c : Call) (s s' : Store) e, c.exec host s = (.error e, s') → s' = s := by
  refine ⟨run_sequenced host, fun calls sid factory parent now s' h => ?_,
    fun c s s' e h => exec_error h⟩
  exact enqueueTurn_position (run_sequenced host calls sid).indexed h

end SibylMemory.Outbox
