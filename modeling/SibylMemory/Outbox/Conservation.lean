import SibylMemory.Outbox.Calls
import SibylMemory.Library.Ledger
import SibylMemory.Library.Runs

/-!
# No operation is lost or duplicated

The two operation tables are a ledger: live operations and archived ones, keyed
by operation id. Every call of the outbox is a sequence of ledger steps, so what
the ledger keeps (payloads, closed items) the database keeps.
-/

namespace SibylMemory.Outbox

/-! ### Runs of calls -/

/-- The database with the calls made so far and what they returned or raised. -/
structure World where
  store : Store
  trace : List (Call × Except OutboxException Reply)

def World.start : World := ⟨Store.empty, []⟩

def World.step (host : Host) (w : World) (c : Call) : World :=
  ⟨(c.exec host w.store).2, w.trace ++ [(c, (c.exec host w.store).1)]⟩

/-- Calls of any number of processes, in the order in which their transactions commit. -/
def World.run (host : Host) (calls : List Call) : World := Run.exec (World.step host) World.start calls

theorem run_append (host : Host) (calls later : List Call) :
    World.run host (calls ++ later) = Run.exec (World.step host) (World.run host calls) later :=
  Run.exec_append _ _ _ _

/-- A step either raises and keeps the store, or has an effect. -/
theorem step_cases (host : Host) (w : World) (c : Call) :
    (∃ e, World.step host w c = ⟨w.store, w.trace ++ [(c, .error e)]⟩) ∨
    (∃ r s', Effect host w.store c r s' ∧ World.step host w c = ⟨s', w.trace ++ [(c, .ok r)]⟩) := by
  unfold World.step
  cases h : c.exec host w.store with
  | mk out s' =>
    cases out with
    | error e => exact .inl ⟨e, by rw [exec_error h]⟩
    | ok r => exact .inr ⟨r, s', exec_effect h, rfl⟩

/-! ### The store as a ledger -/

/-- No operation is both live and archived. -/
def Store.Disjoint (s : Store) : Prop :=
  ∀ i, s.operations.find i = none ∨ s.history.find i = none

theorem disjoint_empty : Store.empty.Disjoint := fun _ => .inl rfl

def ledger (s : Store) (h : s.Disjoint) : Ledger String Mutation HistoryRow where
  live i := (s.operations.find i).map OperationRow.mutation
  closed i := (s.history.find i).map fun r => (r.mutation, r)
  exclusive i := by simpa using h i

theorem ledger_payload (s : Store) (h : s.Disjoint) (i : String) :
    (ledger s h).payload i = s.known i := by
  unfold Store.known Ledger.payload ledger
  cases hf : s.operations.find i <;> simp [hf, Option.map_map, Function.comp_def]

theorem ledger_rewrite {s : Store} {operations : KeyedTable OperationRow.operationId}
    (hm : ∀ i, (operations.find i).map OperationRow.mutation
      = (s.operations.find i).map OperationRow.mutation) (hd : s.Disjoint) :
    ∃ hd' : Store.Disjoint { s with operations },
      Ledger.Steps (ledger s hd) (ledger { s with operations } hd') := by
  have hd' : Store.Disjoint { s with operations } := by
    intro i
    refine (hd i).imp_left fun hn => ?_
    simpa [hn] using hm i
  refine ⟨hd', ?_⟩
  have he : ledger s hd = ledger { s with operations } hd' := by
    ext i : 2
    · exact (hm i).symm
    · rfl
  rw [he]

theorem ledger_accept {s : Store} {row : OperationRow}
    {operations : KeyedTable OperationRow.operationId}
    (fresh : s.known row.operationId = none) (insert : s.operations.insert row = some operations)
    (sessions : KeyedTable SessionRow.sessionId) (turns : TurnTable) (hd : s.Disjoint) :
    ∃ hd' : Store.Disjoint ⟨operations, s.history, sessions, turns⟩,
      Ledger.Step (ledger s hd) (ledger ⟨operations, s.history, sessions, turns⟩ hd') := by
  obtain ⟨-, hn⟩ := (known_eq_none_iff s _).mp fresh
  have hd' : Store.Disjoint ⟨operations, s.history, sessions, turns⟩ := by
    intro i
    simp only [KeyedTable.find_insert insert]
    by_cases hi : i = row.operationId
    · exact .inr (hi ▸ hn)
    · simpa [hi] using hd i
  refine ⟨hd', .accept row.operationId row.mutation ?_ (fun j => ?_) (fun _ => rfl)⟩
  · rw [ledger_payload, fresh]
  · simp only [ledger, KeyedTable.find_insert insert]
    split <;> simp

theorem ledger_close {s : Store} {i : String} {row : OperationRow} {h : HistoryRow}
    {history : KeyedTable HistoryRow.operationId} (live : s.operations.find i = some row)
    (hid : h.operationId = i) (hm : h.mutation = row.mutation)
    (insert : s.history.insert h = some history) (hd : s.Disjoint) :
    ∃ hd' : Store.Disjoint ⟨s.operations.delete i, history, s.sessions, s.turns⟩,
      Ledger.Step (ledger s hd)
        (ledger ⟨s.operations.delete i, history, s.sessions, s.turns⟩ hd') := by
  have hd' : Store.Disjoint ⟨s.operations.delete i, history, s.sessions, s.turns⟩ := by
    intro j
    simp only [KeyedTable.find_delete, KeyedTable.find_insert insert, hid]
    by_cases hj : j = i
    · simp [hj]
    · simpa [hj] using hd j
  refine ⟨hd', .close i row.mutation h ?_ (fun j => ?_) (fun j => ?_)⟩
  · simp [ledger, live]
  · simp only [ledger, KeyedTable.find_delete]
    split <;> simp
  · simp only [ledger, KeyedTable.find_insert insert, hid]
    split <;> simp [hm]

theorem effect_refines {host : Host} {c : Call} {s s' : Store} {r : Reply}
    (h : Effect host s c r s') (hd : s.Disjoint) :
    ∃ hd' : s'.Disjoint, Ledger.Steps (ledger s hd) (ledger s' hd') := by
  cases h with
  | known => exact ⟨hd, .refl⟩
  | skip => exact ⟨hd, .refl⟩
  | reserve => exact ⟨hd, .refl⟩
  | index => exact ⟨hd, .refl⟩
  | mark => exact ⟨hd, .refl⟩
  | record => exact ⟨hd, .refl⟩
  | accept valid canonical fresh insert =>
    obtain ⟨hd', step⟩ := ledger_accept fresh insert s.sessions s.turns hd
    exact ⟨hd', .single step⟩
  | turn nonempty made valid canonical named fresh insert index session =>
    obtain ⟨hd', step⟩ := ledger_accept fresh insert _ _ hd
    exact ⟨hd', .single step⟩
  | claim granted =>
    exact ledger_rewrite (granted_intent granted OperationRow.mutation fun _ _ _ _ _ => rfl) hd
  | renew positive held token ops =>
    exact ledger_rewrite (held_intent held ops OperationRow.mutation rfl) hd
  | settle action held token ops =>
    exact ledger_rewrite (held_intent held ops OperationRow.mutation rfl) hd
  | unblock ops =>
    exact ledger_rewrite (map_intent ops OperationRow.mutation fun r => by split <;> rfl) hd
  | release ops =>
    exact ledger_rewrite (map_intent ops OperationRow.mutation fun r => by split <;> rfl) hd
  | archive action held token insert =>
    have hid := KeyedTable.find_key held
    obtain ⟨hd', step⟩ := ledger_close held hid rfl insert hd
    exact ⟨hd', .single step⟩
  | @supersede op now row json hash operations history replacement valid canonical held token fresh
      insert archive =>
    obtain ⟨hd', first⟩ := ledger_accept fresh insert s.sessions s.turns hd
    have hid := KeyedTable.find_key held
    have hne : op.operationId ≠ replacement.operationId := by
      intro he
      rw [known_eq_none_iff, ← he, held] at fresh
      cases fresh.1
    have hlive : operations.find op.operationId = some row := by
      rw [KeyedTable.find_insert insert, pendingRow_id, if_neg hne, held]
    obtain ⟨hd'', second⟩ := ledger_close (s := ⟨operations, s.history, s.sessions, s.turns⟩)
      hlive hid rfl archive hd'
    exact ⟨hd'', .tail (.single first) second⟩

/-! ### What every run keeps -/

section Effects
variable {host : Host} {c : Call} {s s' : Store} {r : Reply}

theorem effect_disjoint (h : Effect host s c r s') (hd : s.Disjoint) : s'.Disjoint :=
  (effect_refines h hd).1

theorem effect_known (h : Effect host s c r s') (hd : s.Disjoint) {i : String} {m : Mutation}
    (hm : s.known i = some m) : s'.known i = some m := by
  obtain ⟨hd', steps⟩ := effect_refines h hd
  rw [← ledger_payload s hd] at hm
  rw [← ledger_payload s' hd']
  exact Ledger.payload_persists steps hm

theorem effect_history (h : Effect host s c r s') (hd : s.Disjoint) {i : String} {row : HistoryRow}
    (hr : s.history.find i = some row) : s'.history.find i = some row := by
  obtain ⟨hd', steps⟩ := effect_refines h hd
  have hc : (ledger s hd).closed i = some (row.mutation, row) := by simp [ledger, hr]
  have hc' := Ledger.closed_persists steps hc
  simp only [ledger, Option.map_eq_some_iff, Prod.mk.injEq] at hc'
  obtain ⟨row', hr', -, rfl⟩ := hc'
  exact hr'

theorem effect_turns_keep (h : Effect host s c r s') {t : TurnRow} (ht : t ∈ s.turns.rows) :
    ∃ t' ∈ s'.turns.rows, t'.sessionId = t.sessionId ∧ t'.localSequence = t.localSequence ∧
      t'.operationId = t.operationId ∧ t'.sourceId = t.sourceId ∧ t'.turnHash = t.turnHash := by
  cases h with
  | record positive =>
    refine ⟨_, (TurnTable.mem_setRevision _ _ _ _).mpr ⟨t, ht, rfl⟩, ?_⟩
    split <;> exact ⟨rfl, rfl, rfl, rfl, rfl⟩
  | turn nonempty made valid canonical named fresh insert index session =>
    exact ⟨t, (TurnTable.mem_insertTurn index t).mpr (.inl ht), rfl, rfl, rfl, rfl, rfl⟩
  | index kept => exact ⟨t, kept t ht, rfl, rfl, rfl, rfl, rfl⟩
  | _ => exact ⟨t, ht, rfl, rfl, rfl, rfl, rfl⟩

end Effects

/-- How many rows of the two tables carry an operation id. -/
def Store.copies (s : Store) (i : String) : Nat :=
  (s.operations.rows.map OperationRow.operationId).count i
    + (s.history.rows.map HistoryRow.operationId).count i

theorem count_key {ρ : Type} {key : ρ → String} (t : KeyedTable key) (i : String) :
    (t.rows.map key).count i = if (t.find i).isSome then 1 else 0 := by
  rw [List.Nodup.count t.nodup]
  congr 1
  cases hf : t.find i with
  | none =>
    have := (t.find_eq_none_iff i).mp hf
    simpa using this
  | some r =>
    have := (t.find_eq_some_iff i r).mp hf
    simpa using ⟨r, this⟩

theorem copies_of_known {s : Store} (hd : s.Disjoint) {i : String} {m : Mutation}
    (hm : s.known i = some m) : s.copies i = 1 := by
  unfold Store.copies
  rw [count_key, count_key]
  unfold Store.known at hm
  rcases hd i with h | h <;> rw [h] at hm ⊢
  · cases hh : s.history.find i <;> simp_all
  · cases ho : s.operations.find i <;> simp_all

def requestHash (host : Host) (request : PyValue) : String :=
  match canonicalRequest host request with
  | .ok (_, hash) => hash
  | .error _ => ""

theorem requestHash_eq {host : Host} {request json : PyValue} {hash : String}
    (h : canonicalRequest host request = .ok (json, hash)) : requestHash host request = hash := by
  simp [requestHash, h]

/-- The operation that a call accepted, with the columns it was accepted with. -/
def accepted (host : Host) (e : Call × Except OutboxException Reply) : Option (String × Mutation) :=
  (offered e).map fun op => (op.operationId, op.mutation (requestHash host op.request))

/-- The turn that a call enqueued. -/
def enqueuedTurn : Call × Except OutboxException Reply → Option IndexedTurnRecord
  | (.enqueueTurn _ _ _ _, .ok (.turn t)) => some t
  | _ => none

theorem effect_offers {host : Host} {c : Call} {s s' : Store} {r : Reply}
    (h : Effect host s c r s') {op : NewOperation} (ho : offered (c, .ok r) = some op) :
    ∃ json hash now, validateOperation op = .ok () ∧
      canonicalRequest host op.request = .ok (json, hash) ∧ s.known op.operationId = none ∧
      s'.operations.find op.operationId = some (pendingRow op json hash now) := by
  have find_new : ∀ {json hash now} {operations : KeyedTable OperationRow.operationId},
      s.operations.insert (pendingRow op json hash now) = some operations →
      operations.find op.operationId = some (pendingRow op json hash now) := by
    intro json hash now operations hi
    rw [KeyedTable.find_insert hi, pendingRow_id, if_pos rfl]
  cases h with
  | accept valid canonical fresh insert =>
    cases ho
    exact ⟨_, _, _, valid, canonical, fresh, find_new insert⟩
  | turn nonempty made valid canonical named fresh insert index session =>
    simp only [offered, made] at ho
    cases ho
    exact ⟨_, _, _, valid, canonical, fresh, find_new insert⟩
  | @supersede cop now row json hash operations history _ valid canonical held token fresh insert
      archive =>
    cases ho
    have hne : op.operationId ≠ cop.operationId := by
      intro he
      rw [known_eq_none_iff, he, held] at fresh
      cases fresh.1
    exact ⟨json, hash, now, valid, canonical, fresh, by
      rw [KeyedTable.find_delete, if_neg hne, find_new insert]⟩
  | _ => cases ho

theorem effect_accepts {host : Host} {c : Call} {s s' : Store} {r : Reply}
    (h : Effect host s c r s') {i : String} {m : Mutation}
    (ha : accepted host (c, .ok r) = some (i, m)) : s'.known i = some m := by
  simp only [accepted, Option.map_eq_some_iff, Prod.mk.injEq] at ha
  obtain ⟨op, ho, rfl, rfl⟩ := ha
  obtain ⟨json, hash, now, -, hc, -, hrow⟩ := effect_offers h ho
  rw [requestHash_eq hc, Store.known, hrow]
  rfl

theorem known_rewrite {s : Store} {operations : KeyedTable OperationRow.operationId}
    (hm : ∀ i, (operations.find i).map OperationRow.mutation
      = (s.operations.find i).map OperationRow.mutation) (i : String) :
    Store.known { s with operations } i = s.known i := by
  have h := hm i
  unfold Store.known
  cases hf : s.operations.find i <;> cases hg : operations.find i <;> simp_all

theorem known_insert {s : Store} {row : OperationRow}
    {operations : KeyedTable OperationRow.operationId} (insert : s.operations.insert row = some operations)
    (sessions : KeyedTable SessionRow.sessionId) (turns : TurnTable) (i : String) :
    Store.known ⟨operations, s.history, sessions, turns⟩ i
      = if i = row.operationId then some row.mutation else s.known i := by
  unfold Store.known
  rw [KeyedTable.find_insert insert]
  by_cases hi : i = row.operationId <;> simp [hi]

theorem known_close {s : Store} {row : OperationRow} {h : HistoryRow}
    {history : KeyedTable HistoryRow.operationId} (live : s.operations.find row.operationId = some row)
    (hid : h.operationId = row.operationId) (hm : h.mutation = row.mutation)
    (insert : s.history.insert h = some history) (i : String) :
    Store.known ⟨s.operations.delete row.operationId, history, s.sessions, s.turns⟩ i = s.known i := by
  unfold Store.known
  rw [KeyedTable.find_delete, KeyedTable.find_insert insert, hid]
  by_cases hi : i = row.operationId
  · simp [hi, live, hm]
  · simp [hi]

theorem effect_known_eq {host : Host} {c : Call} {s s' : Store} {r : Reply}
    (h : Effect host s c r s') (i : String) :
    s'.known i = match offered (c, .ok r) with
      | some op =>
        if i = op.operationId then some (op.mutation (requestHash host op.request)) else s.known i
      | none => s.known i := by
  cases h with
  | accept valid canonical fresh insert =>
    simp only [offered, requestHash_eq canonical]
    exact known_insert insert s.sessions s.turns i
  | turn nonempty made valid canonical named fresh insert index session =>
    simp only [offered, made, requestHash_eq canonical]
    exact known_insert insert _ _ i
  | claim granted =>
    exact known_rewrite (granted_intent granted OperationRow.mutation fun _ _ _ _ _ => rfl) i
  | renew positive held token ops => exact known_rewrite (held_intent held ops OperationRow.mutation rfl) i
  | settle action held token ops => exact known_rewrite (held_intent held ops OperationRow.mutation rfl) i
  | unblock ops => exact known_rewrite (map_intent ops OperationRow.mutation fun r => by split <;> rfl) i
  | release ops => exact known_rewrite (map_intent ops OperationRow.mutation fun r => by split <;> rfl) i
  | archive action held token insert =>
    have hid := KeyedTable.find_key held
    rw [← hid] at held ⊢
    exact known_close held rfl rfl insert i
  | @supersede op now row json hash operations history replacement valid canonical held token fresh
      insert archive =>
    have hid := KeyedTable.find_key held
    rw [← hid] at held ⊢
    have hne : row.operationId ≠ replacement.operationId := by
      intro he
      rw [known_eq_none_iff, ← he, held] at fresh
      cases fresh.1
    have hlive : operations.find row.operationId = some row := by
      rw [KeyedTable.find_insert insert, pendingRow_id, if_neg hne, held]
    simp only [offered, requestHash_eq canonical]
    rw [known_close (s := ⟨operations, s.history, s.sessions, s.turns⟩) hlive rfl rfl archive,
      known_insert insert]
    rfl
  | _ => rfl

/-- What the trace and the store have in common. -/
structure World.Sound (host : Host) (w : World) : Prop where
  disjoint : w.store.Disjoint
  accepted : ∀ e ∈ w.trace, ∀ i m, accepted host e = some (i, m) → w.store.known i = some m
  turns : ∀ e ∈ w.trace, ∀ t, enqueuedTurn e = some t → (w.store.known t.operationId).isSome ∧
    ∃ row ∈ w.store.turns.rows,
      row.position = (t.sessionId, t.localSequence) ∧ row.operationId = t.operationId

theorem start_sound (host : Host) : World.start.Sound host :=
  ⟨disjoint_empty, by simp [World.start], by simp [World.start]⟩

theorem effect_enqueues {host : Host} {c : Call} {s s' : Store} {r : Reply}
    (h : Effect host s c r s') {t : IndexedTurnRecord} (ht : enqueuedTurn (c, .ok r) = some t) :
    (s'.known t.operationId).isSome ∧ ∃ row ∈ s'.turns.rows,
      row.position = (t.sessionId, t.localSequence) ∧ row.operationId = t.operationId := by
  cases h <;> simp only [enqueuedTurn] at ht <;> cases ht
  case turn nonempty made valid canonical named fresh insert index session =>
    refine ⟨?_, _, (TurnTable.mem_insertTurn index _).mpr (.inr rfl), rfl, rfl⟩
    simp [Store.known, KeyedTable.find_insert insert]

theorem step_sound (host : Host) (w : World) (c : Call) (hw : w.Sound host) :
    (World.step host w c).Sound host := by
  rcases step_cases host w c with ⟨e, he⟩ | ⟨r, s', heff, he⟩ <;> rw [he]
  · refine ⟨hw.disjoint, fun x hx => ?_, fun x hx => ?_⟩ <;>
      rcases List.mem_append.mp hx with hx | hx
    · exact hw.accepted x hx
    · cases List.mem_singleton.mp hx
      cases c <;> simp [accepted, offered]
    · exact hw.turns x hx
    · cases List.mem_singleton.mp hx
      cases c <;> simp [enqueuedTurn]
  · refine ⟨effect_disjoint heff hw.disjoint, fun x hx i m ha => ?_, fun x hx t ht => ?_⟩ <;>
      rcases List.mem_append.mp hx with hx | hx
    · exact effect_known heff hw.disjoint (hw.accepted x hx i m ha)
    · cases List.mem_singleton.mp hx
      exact effect_accepts heff ha
    · obtain ⟨hk, row, hrow, hpos, hid⟩ := hw.turns x hx t ht
      obtain ⟨m, hm⟩ := Option.isSome_iff_exists.mp hk
      obtain ⟨row', hrow', hsid', hseq', hid', -⟩ := effect_turns_keep heff hrow
      have hpos' : row'.position = row.position := by simp [TurnRow.position, hsid', hseq']
      exact ⟨by rw [effect_known heff hw.disjoint hm]; rfl, row', hrow', hpos'.trans hpos,
        hid'.trans hid⟩
    · cases List.mem_singleton.mp hx
      exact effect_enqueues heff ht

theorem exec_sound (host : Host) {w : World} (hw : w.Sound host) (calls : List Call) :
    (Run.exec (World.step host) w calls).Sound host :=
  Run.exec_invariant_of_step (step_sound host) hw

theorem run_sound (host : Host) (calls : List Call) : (World.run host calls).Sound host :=
  exec_sound host (start_sound host) calls

theorem exec_history (host : Host) {w : World} (hw : w.Sound host) (calls : List Call)
    {row : HistoryRow} (hr : row ∈ w.store.history.rows) :
    row ∈ (Run.exec (World.step host) w calls).store.history.rows := by
  induction calls generalizing w with
  | nil => exact hr
  | cons c calls ih =>
    refine ih (step_sound host w c hw) ?_
    rcases step_cases host w c with ⟨e, he⟩ | ⟨r, s', heff, he⟩ <;> rw [he]
    · exact hr
    · exact KeyedTable.find_mem (effect_history heff hw.disjoint (KeyedTable.find_of_mem hr))

/-! ### Enqueueing a known operation -/

theorem validateOperation_error {op : NewOperation} {e : OutboxException}
    (h : validateOperation op = .error e) : ∃ message, e = .valueError message := by
  unfold validateOperation at h
  simp only [throw_error] at h
  rcases h with ⟨-, rfl⟩ | ⟨-, ⟨-, rfl⟩ | ⟨-, ⟨-, rfl⟩ | ⟨-, ⟨-, rfl⟩ | ⟨-, h⟩⟩⟩⟩
  iterate 4 exact ⟨_, rfl⟩
  split at h
  · cases h
    exact ⟨_, rfl⟩
  · cases h

mutual
theorem rejectSecrets_error (path : String) (v : PyValue) (e : OutboxException)
    (h : rejectSecrets path v = .error e) : ∃ message, e = .valueError message := by
  cases v with
  | dict es =>
    rw [rejectSecrets.eq_def] at h
    exact rejectSecretEntries_error path es e h
  | list xs =>
    rw [rejectSecrets.eq_def] at h
    exact rejectSecretItems_error path 0 xs e h
  | _ =>
    rw [rejectSecrets.eq_def] at h
    cases h

theorem rejectSecretEntries_error (path : String) (es : List (String × PyValue))
    (e : OutboxException) (h : rejectSecretEntries path es = .error e) :
    ∃ message, e = .valueError message := by
  match es with
  | [] =>
    rw [rejectSecretEntries.eq_def] at h
    cases h
  | (key, nested) :: es =>
    rw [rejectSecretEntries.eq_def] at h
    simp only [throw_error, bind_error] at h
    rcases h with ⟨-, rfl⟩ | ⟨-, h | ⟨-, -, h⟩⟩
    · exact ⟨_, rfl⟩
    · exact rejectSecrets_error _ nested e h
    · exact rejectSecretEntries_error path es e h

theorem rejectSecretItems_error (path : String) (index : Nat) (xs : List PyValue)
    (e : OutboxException) (h : rejectSecretItems path index xs = .error e) :
    ∃ message, e = .valueError message := by
  match xs with
  | [] =>
    rw [rejectSecretItems.eq_def] at h
    cases h
  | nested :: xs =>
    rw [rejectSecretItems.eq_def] at h
    simp only [bind_error] at h
    rcases h with h | ⟨-, -, h⟩
    · exact rejectSecrets_error _ nested e h
    · exact rejectSecretItems_error path (index + 1) xs e h
end

theorem canonicalRequest_error {host : Host} {request : PyValue} {e : OutboxException}
    (h : canonicalRequest host request = .error e) : ∃ message, e = .valueError message := by
  unfold canonicalRequest at h
  rw [bind_error] at h
  rcases h with h | ⟨-, -, h⟩
  · exact rejectSecrets_error _ _ _ h
  · split at h
    · cases h
    · cases h
      exact ⟨_, rfl⟩

theorem canonicalRequest_canonical {host : Host} {request json : PyValue} {hash : String}
    (h : canonicalRequest host request = .ok (json, hash)) : request.canonical = some json := by
  unfold canonicalRequest at h
  simp only [bind_ok] at h
  obtain ⟨-, -, h⟩ := h
  split at h
  · rename_i json' hj
    cases h
    exact hj
  · cases h

theorem enqueue_of_known (host : Host) (op : NewOperation) (now : Instant) {s : Store} {m : Mutation}
    (hk : s.known op.operationId = some m) :
    (enqueue host op now s).2 = s ∧
    (∀ json hash, validateOperation op = .ok () →
      canonicalRequest host op.request = .ok (json, hash) →
      (enqueue host op now s).1 = if m = op.mutation hash then .ok false else
        .error (.operationConflict
          ("operation " ++ op.operationId ++ " already exists with a different mutation"))) ∧
    (validateOperation op ≠ .ok () ∨ (∃ e, canonicalRequest host op.request = .error e) →
      ∃ message, (enqueue host op now s).1 = .error (.valueError message)) := by
  cases hv : validateOperation op with
  | error e =>
    obtain ⟨message, rfl⟩ := validateOperation_error hv
    have he : enqueue host op now s = (.error (.valueError message), s) := by
      simp [enqueue, transact, hv, bind, Except.bind]
    rw [he]
    exact ⟨rfl, by simp, fun _ => ⟨message, rfl⟩⟩
  | ok u =>
    cases hc : canonicalRequest host op.request with
    | error e =>
      obtain ⟨message, rfl⟩ := canonicalRequest_error hc
      have he : enqueue host op now s = (.error (.valueError message), s) := by
        simp [enqueue, transact, hv, hc, bind, Except.bind]
      rw [he]
      exact ⟨rfl, by simp, fun _ => ⟨message, rfl⟩⟩
    | ok p =>
      obtain ⟨json, hash⟩ := p
      by_cases hm : m = op.mutation hash
      · have he : enqueue host op now s = (.ok false, s) := by
          simp [enqueue, transact, hv, hc, hk, hm, assertSameOperation, bind, Except.bind, pure,
            Except.pure]
        rw [he]
        refine ⟨rfl, ?_, by simp⟩
        rintro json' hash' - heq
        cases heq
        simp [hm]
      · have he : enqueue host op now s = (.error (.operationConflict ("operation "
            ++ op.operationId ++ " already exists with a different mutation")), s) := by
          simp [enqueue, transact, hv, hc, hk, hm, assertSameOperation, bind, Except.bind]
        rw [he]
        refine ⟨rfl, ?_, by simp⟩
        rintro json' hash' - heq
        cases heq
        simp [hm]

/-- No loss, no duplication, and a stable identity, after any calls of any processes: an
accepted operation is in exactly one table, once, with the columns it was accepted with; a
history row is never changed or removed; a turn that was enqueued keeps its index row and has
its operation in exactly one table; and a known operation is never enqueued again. -/
theorem outbox_conservation (host : Host) (calls : List Call) :
    (∀ e ∈ (World.run host calls).trace, ∀ i m, accepted host e = some (i, m) →
      (World.run host calls).store.copies i = 1 ∧ (World.run host calls).store.known i = some m) ∧
    (∀ row ∈ (World.run host calls).store.history.rows, ∀ later,
      row ∈ (World.run host (calls ++ later)).store.history.rows) ∧
    (∀ e ∈ (World.run host calls).trace, ∀ t, enqueuedTurn e = some t →
      (World.run host calls).store.copies t.operationId = 1 ∧
      ∃ row ∈ (World.run host calls).store.turns.rows,
        row.position = (t.sessionId, t.localSequence) ∧ row.operationId = t.operationId) ∧
    (∀ op now m, (World.run host calls).store.known op.operationId = some m →
      (enqueue host op now (World.run host calls).store).2 = (World.run host calls).store ∧
      (∀ json hash, validateOperation op = .ok () →
        canonicalRequest host op.request = .ok (json, hash) →
        (enqueue host op now (World.run host calls).store).1 =
          if m = op.mutation hash then .ok false else .error (.operationConflict
            ("operation " ++ op.operationId ++ " already exists with a different mutation"))) ∧
      (validateOperation op ≠ .ok () ∨ (∃ e, canonicalRequest host op.request = .error e) →
        ∃ message,
          (enqueue host op now (World.run host calls).store).1 = .error (.valueError message))) := by
  have hs := run_sound host calls
  refine ⟨fun e he i m ha => ?_, fun row hrow later => ?_, fun e he t ht => ?_,
    fun op now m hk => enqueue_of_known host op now hk⟩
  · have hk := hs.accepted e he i m ha
    exact ⟨copies_of_known hs.disjoint hk, hk⟩
  · rw [run_append]
    exact exec_history host hs later hrow
  · obtain ⟨hk, hrow⟩ := hs.turns e he t ht
    obtain ⟨m, hm⟩ := Option.isSome_iff_exists.mp hk
    exact ⟨copies_of_known hs.disjoint hm, hrow⟩

def sampleOperation : NewOperation where
  operationId := "a"
  kind := "raw_capture"
  endpoint := "/api/memory/raw"
  request := .dict []
  idempotencyKey := "k"

def sampleConfig : OutboxConfig := ⟨30, by decide⟩

def samplePage (worker token : String) (now : Instant) : ClaimPage where
  workerId := worker
  pageSize := 1
  leaseSeconds := none
  readyBefore := none
  now := now
  stamp := now
  uuids := fun _ => token

/-- The first claim of an operation enqueued at time 0 with the default lease. -/
def sampleClaim (op : NewOperation) (worker token : String) (now : Instant) : ClaimedOperation where
  operationId := op.operationId
  dependsOn := none
  kind := op.kind
  endpoint := op.endpoint
  request := []
  idempotencyKey := op.idempotencyKey
  state := .pending
  createdAt := 0
  updatedAt := now
  attempts := 1
  lastStatus := none
  lastError := none
  httpMethod := "POST"
  claimToken := token
  claimedBy := worker
  leaseExpiresAt := now + 30
  recoveryKind := .rawCapture

/-- A known id with an invalid operation: neither `False` nor a conflict, but `ValueError`. -/
theorem enqueue_known_invalid :
    (World.run Host.plain [.enqueue sampleOperation 0]).store.known "a" ≠ none ∧
    (enqueue Host.plain { sampleOperation with endpoint := "api/memory/raw" } 1
      (World.run Host.plain [.enqueue sampleOperation 0]).store).1 ≠ .ok false ∧
    ∀ message, (enqueue Host.plain { sampleOperation with endpoint := "api/memory/raw" } 1
      (World.run Host.plain [.enqueue sampleOperation 0]).store).1
        ≠ .error (.operationConflict message) := by
  have h : (enqueue Host.plain { sampleOperation with endpoint := "api/memory/raw" } 1
      (World.run Host.plain [.enqueue sampleOperation 0]).store).1
        = .error (.valueError "endpoint must be an absolute path, not a URL") := by decide
  refine ⟨by decide, ?_, fun message => ?_⟩ <;> rw [h] <;> simp

end SibylMemory.Outbox
