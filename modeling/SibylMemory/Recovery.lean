import SibylMemory.Rewinds
import SibylMemory.Outbox.Sequences

/-!
# Recovery of lost captures (`runtime.py:141-189`, `536-608`)

A reconciliation that returns has captured every turn of the transcript that the index lacked,
whatever the index was. No assumption on digests is needed: a fingerprint that two turns share
counts for both.
-/

namespace SibylMemory
open Outbox

def fingerprint (host : Host) (turn : String × String) : String := turnHash host turn.1 turn.2

theorem fingerprint_mk (host : Host) (u a : String) : fingerprint host (u, a) = turnHash host u a := rfl

/-! ### Captures of turns -/

/-- The row indexes a capture of the turn that is queued as its factory built it. -/
structure CaptureRow (host : Host) (c : RuntimeContext) (sid : String) (turnNumber : Option Int)
    (s : Store) (turn : String × String) (t : TurnRow) : Prop where
  session : t.sessionId = sid
  hash : t.turnHash = fingerprint host turn
  queued : ∃ parent made json hash now, captureFactory host c sid parent turnNumber turn.1 turn.2
      t.localSequence = .ok made ∧ made.operation.operationId = t.operationId ∧
    made.sourceId = t.sourceId ∧ canonicalRequest host made.operation.request = .ok (json, hash) ∧
    s.operations.find t.operationId = some (pendingRow made.operation json hash now)

/-- Captures were indexed behind the rows of a store, at the next numbers of their session. -/
structure Lengthened (host : Host) (c : RuntimeContext) (sid : String) (s s' : Store)
    (turns : List (String × String)) (rows : List TurnRow) : Prop where
  index : s'.turns.rows = s.turns.rows ++ rows
  captures : List.Forall₂ (CaptureRow host c sid none s') turns rows
  sequences : rows.map TurnRow.localSequence = List.range' (s.nextSequence sid) rows.length
  next : s'.nextSequence sid = s.nextSequence sid + rows.length
  kept : Kept s s'

section Recovery
variable {host : Host} {c : RuntimeContext} {sid : String} {s s' s'' : Store}

theorem CaptureRow.keep {turnNumber : Option Int} {turn : String × String} {t : TurnRow}
    (h : CaptureRow host c sid turnNumber s turn t) (hk : Kept s s') :
    CaptureRow host c sid turnNumber s' turn t := by
  obtain ⟨parent, made, json, hash, now, hmade, hid, hsrc, hjson, hfind⟩ := h.queued
  have hknown : (s.known t.operationId).isSome := by simp [Store.known, hfind]
  exact ⟨h.session, h.hash, parent, made, json, hash, now, hmade, hid, hsrc, hjson, by
    rw [(hk _ hknown).2, hfind]⟩

theorem enqueueCapture_row (turn : String × String) {turnNumber : Option Int} {now : Instant}
    {record : IndexedTurnRecord}
    (h : enqueueCapture host c sid turn.1 turn.2 turnNumber now s = (.ok record, s')) :
    ∃ t, s'.turns.rows = s.turns.rows ++ [t] ∧ t.localSequence = s.nextSequence sid ∧
      s'.nextSequence sid = s.nextSequence sid + 1 ∧
      CaptureRow host c sid turnNumber s' turn t ∧ Kept s s' := by
  obtain ⟨t, ht⟩ := enqueueCapture_ok h
  have heff := enqueueTurn_effect h
  have hnext : s'.nextSequence sid = record.localSequence + 1 :=
    (effect_allocated heff (by simp [allocated])).2
  have hrecord : record.localSequence = s.nextSequence sid := by cases heff; rfl
  refine ⟨t, ht.rows, ht.sequence, by rw [hnext, hrecord], ?_, ht.kept⟩
  refine ⟨ht.session, ht.hash, ?_⟩
  have hrows := ht.rows
  cases heff with
  | @turn _ _ _ _ made json hash operations sessions turns nonempty built valid canonical named fresh
      insert index session =>
    obtain rfl : t = _ := by
      have hnew := (TurnTable.insertTurn_ok index).1.symm.trans hrows
      simpa using (List.append_cancel_left hnew).symm
    refine ⟨_, made, json, hash, now, built, rfl, rfl, canonical, ?_⟩
    rw [KeyedTable.find_insert insert]
    exact if_pos rfl

theorem Lengthened.refl (host : Host) (c : RuntimeContext) (sid : String) (s : Store) :
    Lengthened host c sid s s [] [] :=
  ⟨(List.append_nil _).symm, .nil, rfl, rfl, Kept.refl s⟩

theorem Lengthened.cons {turn : String × String} {turns : List (String × String)} {t : TurnRow}
    {rows : List TurnRow} (hrows : s'.turns.rows = s.turns.rows ++ [t])
    (hseq : t.localSequence = s.nextSequence sid)
    (hnext : s'.nextSequence sid = s.nextSequence sid + 1)
    (hcap : CaptureRow host c sid none s' turn t) (hk : Kept s s')
    (h : Lengthened host c sid s' s'' turns rows) :
    Lengthened host c sid s s'' (turn :: turns) (t :: rows) where
  index := by rw [h.index, hrows, List.append_assoc, List.singleton_append]
  captures := .cons (hcap.keep h.kept) h.captures
  sequences := by
    rw [List.map_cons, h.sequences, hseq, hnext, List.length_cons, List.range'_succ]
  next := by
    rw [h.next, hnext, List.length_cons]
    omega
  kept := hk.trans h.kept

/-! ### The loop over the transcript -/

theorem recoverTurns_lengthens {counts : String → Nat} {clock : Nat → Instant} {seen : String → Nat}
    {transcript : List (String × String)}
    (h : recoverTurns host c sid counts clock seen transcript s = (.ok (), s')) :
    ∃ rows, Lengthened host c sid s s'
      (surplus (fingerprint host) (fun h => counts h - seen h) transcript) rows := by
  induction transcript generalizing s seen with
  | nil =>
    cases h
    exact ⟨[], Lengthened.refl host c sid _⟩
  | cons turn transcript ih =>
    obtain ⟨u, a⟩ := turn
    simp only [recoverTurns, Function.update_self] at h
    rw [surplus_counted, fingerprint_mk]
    split at h
    · rename_i hlack
      rw [if_pos hlack]
      cases hcap : enqueueCapture host c sid u a none (clock transcript.length) s with
      | mk out s₁ =>
        rw [hcap] at h
        cases out with
        | error e => cases h
        | ok record =>
          obtain ⟨t, hrows, hseq, hnext, hrow, hk⟩ := enqueueCapture_row (u, a) hcap
          obtain ⟨rows, hrest⟩ := ih h
          exact ⟨t :: rows, Lengthened.cons hrows hseq hnext hrow hk hrest⟩
    · rename_i hcovered
      rw [if_neg hcovered]
      exact ih h

theorem recoverTurns_covered {counts : String → Nat} (clock : Nat → Instant) {seen : String → Nat}
    {transcript : List (String × String)}
    (h : ∀ k, seen k + (transcript.map (fingerprint host)).count k ≤ counts k) (s : Store) :
    recoverTurns host c sid counts clock seen transcript s = (.ok (), s) := by
  induction transcript generalizing seen with
  | nil => rfl
  | cons turn transcript ih =>
    obtain ⟨u, a⟩ := turn
    have hhead := h (turnHash host u a)
    rw [List.map_cons, fingerprint_mk,
      List.count_cons_self] at hhead
    simp only [recoverTurns, Function.update_self]
    rw [if_neg (by omega)]
    refine ih fun k => ?_
    have hk := h k
    rw [List.map_cons, fingerprint_mk] at hk
    by_cases he : k = turnHash host u a
    · subst he
      rw [Function.update_self]
      omega
    · rw [Function.update_of_ne he]
      rw [List.count_cons_of_ne (Ne.symm he)] at hk
      exact hk

/-! ### What the reconciliation leaves to the index -/

structure SameIndex (s s' : Store) : Prop where
  turns : s'.turns = s.turns
  next : ∀ sid, s'.nextSequence sid = s.nextSequence sid
  kept : Kept s s'

theorem SameIndex.refl (s : Store) : SameIndex s s := ⟨rfl, fun _ => rfl, Kept.refl s⟩

theorem SameIndex.trans (h : SameIndex s s') (h' : SameIndex s' s'') : SameIndex s s'' :=
  ⟨h'.turns.trans h.turns, fun sid => (h'.next sid).trans (h.next sid), h.kept.trans h'.kept⟩

theorem enqueue_index (host : Host) (op : NewOperation) (now : Instant) (s : Store) :
    SameIndex s (enqueue host op now s).2 := by
  cases h : enqueue host op now s with
  | mk out s' =>
    cases out with
    | error e => exact (transact_error h).1 ▸ SameIndex.refl s
    | ok b =>
      obtain ⟨hturns, -, -, hkept⟩ := enqueue_ok h
      refine ⟨hturns, fun sid => ?_, hkept⟩
      cases enqueue_effect h <;> rfl

theorem enqueueCorrections_index (host : Host) (agentId : String) (clock : Nat → Instant)
    (plan : List StaleCorrectionIntent) (s : Store) :
    SameIndex s (enqueueCorrections host agentId clock plan s).2 := by
  induction plan generalizing s with
  | nil => exact SameIndex.refl s
  | cons correction plan ih =>
    rw [enqueueCorrections]
    have hone := enqueue_index host (rewindOperation host agentId correction) (clock plan.length) s
    cases h : enqueue host (rewindOperation host agentId correction) (clock plan.length) s with
    | mk out s₁ =>
      rw [h] at hone
      cases out with
      | error e => exact hone
      | ok b => exact hone.trans (ih s₁)

theorem markSessionReconcile_index (sid parent : String) (required : Bool) (now : Instant)
    (s : Store) : SameIndex s (markSessionReconcile sid parent required now s).2 := by
  cases h : markSessionReconcile sid parent required now s with
  | mk out s' =>
    cases out with
    | error e => exact (transact_error h).1 ▸ SameIndex.refl s
    | ok u =>
      rw [markSessionReconcile, transact_ok] at h
      simp only [guard_ok, bind_ok] at h
      obtain ⟨-, sessions, hmark, he⟩ := h
      cases he
      refine ⟨rfl, fun k => ?_, fun _ _ => ⟨rfl, rfl⟩⟩
      have hsame := session_nextSequence s sid now
      by_cases hk : k = sid
      · subst hk
        simp only [Store.nextSequence, markSession_ok hmark, if_pos]
        exact hsame
      · simp only [Store.nextSequence, markSession_ok hmark, if_neg hk]

/-! ### The index of the session -/

theorem insertionSort_append_sorted {α : Type} {r : α → α → Prop} [DecidableRel r] {l m : List α}
    (h : ∀ y ∈ l, ∀ x ∈ m, r y x) (hm : m.Pairwise r) :
    (l ++ m).insertionSort r = l.insertionSort r ++ m := by
  induction m using List.reverseRecOn with
  | nil => rw [List.append_nil, List.append_nil]
  | append_singleton m x ih =>
    obtain ⟨hpair, -, hlast⟩ := List.pairwise_append.mp hm
    rw [← List.append_assoc, insertionSort_append_last, ih, List.append_assoc]
    · exact fun y hy z hz => h y hy z (List.mem_append_left _ hz)
    · exact hpair
    · intro y hy
      rcases List.mem_append.mp hy with hy | hy
      · exact h y hy x (by simp)
      · exact hlast y hy x (by simp)

/-- Rows behind all of their session end its index. -/
theorem turnsOf_append {rows : List TurnRow}
    (hbelow : ∀ t ∈ s.turns.rows, t.sessionId = sid → t.localSequence < s.nextSequence sid)
    (hrows : s'.turns.rows = s.turns.rows ++ rows) (hsession : ∀ t ∈ rows, t.sessionId = sid)
    (hseq : rows.map TurnRow.localSequence = List.range' (s.nextSequence sid) rows.length) :
    s'.turnsOf sid = s.turnsOf sid ++ rows := by
  have hnew : ∀ t ∈ rows, s.nextSequence sid ≤ t.localSequence := by
    intro t ht
    have hm := List.mem_map_of_mem (f := TurnRow.localSequence) ht
    rw [hseq, List.mem_range'_1] at hm
    exact hm.1
  have hsorted : rows.Pairwise earlierTurn := by
    have hlt : (rows.map TurnRow.localSequence).Pairwise (· ≤ ·) := by
      rw [hseq]
      exact List.pairwise_le_range'
    exact (List.pairwise_map (R := (· ≤ ·))).mp hlt
  have hfilter : rows.filter (fun t => decide (t.sessionId = sid)) = rows :=
    List.filter_eq_self.mpr fun t ht => decide_eq_true (hsession t ht)
  rw [Store.turnsOf, hrows, List.filter_append, hfilter, insertionSort_append_sorted _ hsorted]
  · rfl
  · intro y hy x hx
    obtain ⟨hy, hid⟩ := List.mem_filter.mp hy
    have hlt := hbelow y hy (of_decide_eq_true hid)
    have hle := hnew x hx
    show y.localSequence ≤ x.localSequence
    omega

def indexedCount (s : Store) (sid digest : String) : Nat :=
  counter ((s.indexedTurns sid).map IndexedTurnRecord.turnHash) digest

/-- What a reconciliation and the capture behind it made of the index of a session: the turns that
were `missing` have the rows `recovered`, the current turn has the row `last`. -/
structure Recovered (host : Host) (c : RuntimeContext) (sid : String)
    (prior : List (String × String)) (current : String × String) (turnNumber : Option Int)
    (s s' : Store) (missing : List (String × String)) (recovered : List TurnRow)
    (last : TurnRow) : Prop where
  counts : ∀ h, indexedCount s' sid h
    = max (indexedCount s sid h) ((prior.map (fingerprint host)).count h)
      + if fingerprint host current = h then 1 else 0
  table : s'.turns.rows = s.turns.rows ++ (recovered ++ [last])
  index : s'.turnsOf sid = s.turnsOf sid ++ (recovered ++ [last])
  order : missing.Sublist prior
  captures : List.Forall₂ (CaptureRow host c sid none s') missing recovered
  current : CaptureRow host c sid turnNumber s' current last
  sequences : (recovered ++ [last]).map TurnRow.localSequence
    = List.range' (s.nextSequence sid) (recovered.length + 1)

theorem reconcileSession_lengthens {messages : List Message} {current : String × String}
    {clock : ReconcileClock}
    (h : reconcileSession host c sid messages current clock s = (.ok (), s')) :
    ∃ rows, Lengthened host c sid s s' (surplus (fingerprint host) (indexedCount s sid)
      (priorTurns (committedTurns host messages) current)) rows := by
  rw [reconcileSession] at h
  cases hrec : recoverTurns host c sid
      (counter ((s.indexedTurns sid).map IndexedTurnRecord.turnHash)) clock.recover (fun _ => 0)
      (priorTurns (committedTurns host messages) current) s with
  | mk out s₁ =>
    rw [hrec] at h
    cases out with
    | error e => cases h
    | ok u =>
      obtain ⟨rows, hrows⟩ := recoverTurns_lengthens hrec
      have hcorrect := enqueueCorrections_index host c.agentId clock.correct
        (rewindPlan host sid messages s₁) s₁
      dsimp only at h
      cases hcor : enqueueCorrections host c.agentId clock.correct
          (rewindPlan host sid messages s₁) s₁ with
      | mk out s₂ =>
        rw [hcor] at h hcorrect
        cases out with
        | error e => cases h
        | ok u =>
          have hmark := markSessionReconcile_index sid "" false clock.mark s₂
          dsimp only at h
          rw [h] at hmark
          have hsame := hcorrect.trans hmark
          refine ⟨rows, ?_, ?_, hrows.sequences, ?_, hrows.kept.trans hsame.kept⟩
          · rw [hsame.turns, hrows.index]
          · exact hrows.captures.imp fun turn t ht => ht.keep hsame.kept
          · rw [hsame.next, hrows.next]

theorem reconcileSession_covered {messages : List Message} {current : String × String}
    (clock : ReconcileClock) (h : ∀ k, ((priorTurns (committedTurns host messages) current).map
      (fingerprint host)).count k ≤ indexedCount s sid k) :
    (reconcileSession host c sid messages current clock s).2.turns = s.turns := by
  have hnone : recoverTurns host c sid (indexedCount s sid) clock.recover (fun _ => 0)
      (priorTurns (committedTurns host messages) current) s = (.ok (), s) :=
    recoverTurns_covered clock.recover (fun k => by rw [Nat.zero_add]; exact h k) s
  have hcorrect := enqueueCorrections_index host c.agentId clock.correct
    (rewindPlan host sid messages s) s
  rw [reconcileSession]
  simp only [show counter ((s.indexedTurns sid).map IndexedTurnRecord.turnHash)
    = indexedCount s sid from rfl, hnone]
  cases hcor : enqueueCorrections host c.agentId clock.correct (rewindPlan host sid messages s) s with
  | mk out s₁ =>
    rw [hcor] at hcorrect
    cases out with
    | error e => exact hcorrect.turns
    | ok u => exact (markSessionReconcile_index sid "" false clock.mark s₁).turns.trans hcorrect.turns

theorem indexedCount_eq (s : Store) (sid digest : String) :
    indexedCount s sid digest = ((s.turnsOf sid).map TurnRow.turnHash).count digest := by
  rw [indexedCount, counter, indexedCounts_eq]

theorem captured_hashes {turns : List (String × String)} {rows : List TurnRow}
    (h : List.Forall₂ (CaptureRow host c sid none s) turns rows) :
    rows.map TurnRow.turnHash = turns.map (fingerprint host) ∧ ∀ t ∈ rows, t.sessionId = sid := by
  induction h with
  | nil => exact ⟨rfl, fun t ht => by cases ht⟩
  | @cons turn t turns rows hrow _ ih =>
    refine ⟨by rw [List.map_cons, List.map_cons, hrow.hash, ih.1], fun x hx => ?_⟩
    rcases List.mem_cons.mp hx with rfl | hx
    · exact hrow.session
    · exact ih.2 x hx

theorem recovered_of_below
    (hbelow : ∀ t ∈ s.turns.rows, t.sessionId = sid → t.localSequence < s.nextSequence sid)
    {messages : List Message} {current : String × String} {turnNumber : Option Int}
    {clock : ReconcileClock} {now : Instant} {record : IndexedTurnRecord}
    (hrec : reconcileSession host c sid messages current clock s = (.ok (), s'))
    (hcap : enqueueCapture host c sid current.1 current.2 turnNumber now s' = (.ok record, s'')) :
    (∃ missing recovered last, Recovered host c sid
      (priorTurns (committedTurns host messages) current) current turnNumber s s''
      missing recovered last) ∧
    (∀ k, ((priorTurns (committedTurns host messages) current).map (fingerprint host)).count k
      ≤ indexedCount s' sid k) := by
  obtain ⟨rows, hlong⟩ := reconcileSession_lengthens hrec
  obtain ⟨last, htable, hseq, -, hlast, hk⟩ := enqueueCapture_row _ hcap
  obtain ⟨hhashes, hsessions⟩ := captured_hashes hlong.captures
  have hindex := turnsOf_append hbelow hlong.index hsessions hlong.sequences
  have hcount : ∀ k, indexedCount s' sid k = max (indexedCount s sid k)
      (((priorTurns (committedTurns host messages) current).map (fingerprint host)).count k) := by
    intro k
    rw [indexedCount_eq s', hindex, List.map_append, List.count_append, hhashes, surplus_count,
      ← indexedCount_eq]
    omega
  have hrows : s''.turns.rows = s.turns.rows ++ (rows ++ [last]) := by
    rw [htable, hlong.index, List.append_assoc]
  have hsequences : (rows ++ [last]).map TurnRow.localSequence
      = List.range' (s.nextSequence sid) (rows.length + 1) := by
    rw [List.map_append, hlong.sequences, List.map_singleton, hseq, hlong.next,
      List.range'_concat]
    simp
  have hlasts : ∀ t ∈ rows ++ [last], t.sessionId = sid := by
    intro t ht
    rcases List.mem_append.mp ht with ht | ht
    · exact hsessions t ht
    · rw [List.mem_singleton.mp ht]
      exact hlast.session
  have hindex' : s''.turnsOf sid = s.turnsOf sid ++ (rows ++ [last]) :=
    turnsOf_append hbelow hrows hlasts (by rw [hsequences, List.length_append, List.length_singleton])
  refine ⟨⟨_, rows, last, ?_, hrows, hindex', surplus_sublist _ _ _,
    hlong.captures.imp fun turn t ht => ht.keep hk, hlast, hsequences⟩, fun k => ?_⟩
  · intro k
    rw [← hcount, indexedCount_eq s'', indexedCount_eq s', hindex', hindex, ← List.append_assoc,
      List.map_append, List.count_append, List.map_singleton, List.count_singleton, hlast.hash]
    simp only [beq_iff_eq]
  · rw [hcount]
    exact le_max_right _ _

end Recovery

theorem syncTurn_recovers (host : Host) (calls : List Call) {rt rt' : Runtime} {t : SyncTurn}
    {messages : List Message} {operationId : String} {s'' : Store} (hm : t.messages = some messages)
    (hreq : (World.run host calls).store.sessionReconcileRequired (rt.activeSession t) = true)
    (h : rt.syncTurn host t (World.run host calls).store = (.ok (some operationId), rt', s'')) :
    ∃ missing recovered last, Recovered host rt.context (rt.activeSession t)
      (priorTurns (committedTurns host messages) (t.current host)) (t.current host)
      (rt.consumed host t).1 (World.run host calls).store s'' missing recovered last := by
  rw [Runtime.syncTurn] at h
  cases hskip : rt.skips host t with
  | true =>
    rw [hskip] at h
    cases h
  | false =>
    rw [hskip, if_neg (by decide), Runtime.reconcile, hm] at h
    simp only [hreq, if_true] at h
    cases hrec : reconcileSession host rt.context (rt.activeSession t) messages (t.current host)
        t.clock (World.run host calls).store with
    | mk out s' =>
      rw [hrec] at h
      cases out with
      | error e => cases h
      | ok u =>
        dsimp only at h
        cases hcap : enqueueCapture host rt.context (rt.activeSession t) (t.current host).1
            t.assistantContent (rt.consumed host t).1 t.now s' with
        | mk out s₂ =>
          rw [hcap] at h
          cases out with
          | error e => cases h
          | ok record =>
            cases h
            exact (recovered_of_below (run_sequenced host calls _).indexed hrec hcap).1

theorem isOk_iff {ε α σ : Type} {x : Except ε α × σ} :
    x.1.isOk = true ↔ ∃ a, x = (.ok a, x.2) := by
  obtain ⟨out, s⟩ := x
  cases out with
  | error e => simp [Except.isOk, Except.toBool]
  | ok a => simp [Except.isOk, Except.toBool]

/-- Whatever the index of a session is and whatever the transcript, a reconciliation and a capture
that return have captured every missing turn once, in order, and then the current one. The same
reconciliation again indexes nothing. -/
theorem recovery_exact (host : Host) (calls : List Call) {c : RuntimeContext} {sid : String}
    {messages : List Message} {current : String × String} {turnNumber : Option Int}
    {clock : ReconcileClock} {now : Instant} {record : IndexedTurnRecord} {s' s'' : Store}
    (hrec : reconcileSession host c sid messages current clock (World.run host calls).store
      = (.ok (), s'))
    (hcap : enqueueCapture host c sid current.1 current.2 turnNumber now s' = (.ok record, s'')) :
    (∃ missing recovered last, Recovered host c sid
      (priorTurns (committedTurns host messages) current) current turnNumber
      (World.run host calls).store s'' missing recovered last) ∧
    ∀ clock', (reconcileSession host c sid messages current clock' s').2.turns = s'.turns ∧
      (reconcileSession host c sid messages current clock' s'').2.turns = s''.turns := by
  have hbelow := (run_sequenced host calls sid).indexed
  obtain ⟨⟨missing, recovered, last, hall⟩, hcovered⟩ := recovered_of_below hbelow hrec hcap
  refine ⟨⟨missing, recovered, last, hall⟩, fun clock' => ⟨?_, ?_⟩⟩
  · exact reconcileSession_covered clock' hcovered
  · refine reconcileSession_covered clock' fun k => ?_
    have hk := hall.counts k
    omega

/-- A turn that was lost before the current one. -/
theorem recovery_exact_sample : ∃ s'' missing recovered last,
    Recovered Host.plain sampleAgent "s" [("a", "ok")] ("b", "ok") none
      (World.run Host.plain [.reserveSequence "s" "" 0]).store s'' missing recovered last := by
  have hprior : priorTurns (committedTurns Host.plain (transcript ["a", "b"])) ("b", "ok")
      = [("a", "ok")] := by decide +kernel
  have hboth : (reconcileSession Host.plain sampleAgent "s" (transcript ["a", "b"]) ("b", "ok")
        (completedTurn "b" []).clock
        (World.run Host.plain [.reserveSequence "s" "" 0]).store).1.isOk = true ∧
      (enqueueCapture Host.plain sampleAgent "s" "b" "ok" none 1
        (reconcileSession Host.plain sampleAgent "s" (transcript ["a", "b"]) ("b", "ok")
          (completedTurn "b" []).clock
          (World.run Host.plain [.reserveSequence "s" "" 0]).store).2).1.isOk = true := by
    decide +kernel
  obtain ⟨⟨u, hrec⟩, record, hcap⟩ := And.imp isOk_iff.mp isOk_iff.mp hboth
  rw [← hprior]
  exact ⟨_, (recovery_exact Host.plain _ hrec hcap).1⟩

end SibylMemory
