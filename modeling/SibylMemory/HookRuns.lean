import SibylMemory.Delivery.AgentRuns
import SibylMemory.Hooks

/-!
# The runtime's thread among the others

While a method of the runtime runs, workers deliver, the server acts and tools enqueue between any
two of its transactions. None of that changes what the method has read of its session: its
captures in order, and which of them have a rewind correction.
-/

namespace SibylMemory
open Outbox Idempotency

/-! ### Captures -/

/-- A capture of a session, and whether it has a rewind correction. -/
structure SessionCapture where
  operationId : String
  turnHash : String
  staled : Bool
  deriving DecidableEq

def Outbox.TurnRow.capture (host : Host) (agentId : String) (s : Store) (t : TurnRow) : SessionCapture :=
  ⟨t.operationId, t.turnHash, s.staled host agentId t⟩

def Outbox.Store.captures (host : Host) (agentId : String) (s : Store) (sid : String) :
    List SessionCapture :=
  (s.turnsOf sid).map fun t => t.capture host agentId s

/-- The captures with those under the ids staled. -/
def stale (ids : List String) (captures : List SessionCapture) : List SessionCapture :=
  captures.map fun x => { x with staled := x.staled || decide (x.operationId ∈ ids) }

theorem stale_nil (captures : List SessionCapture) : stale [] captures = captures := by
  simp [stale]

theorem stale_stale (ids ids' : List String) (captures : List SessionCapture) :
    stale ids' (stale ids captures) = stale (ids ++ ids') captures := by
  simp [stale, Bool.or_assoc]

section Captures
variable {host : Host} {agentId sid : String} {s s' : Store}

theorem captures_hashes (host : Host) (agentId sid : String) (s : Store) :
    (s.captures host agentId sid).map SessionCapture.turnHash = (s.turnsOf sid).map TurnRow.turnHash := by
  rw [Store.captures, List.map_map]
  rfl

theorem captures_ids (host : Host) (agentId sid : String) (s : Store) :
    (s.captures host agentId sid).map SessionCapture.operationId
      = (s.turnsOf sid).map TurnRow.operationId := by
  rw [Store.captures, List.map_map]
  rfl

theorem turnsOf_unrevised (s : Store) (sid : String) : (s.turnsOf sid).map TurnRow.unrevised
    = ((s.turns.rows.map TurnRow.unrevised).filter fun t => t.sessionId = sid).insertionSort
        earlierTurn := by
  have hsort := List.map_insertionSort earlierTurn earlierTurn TurnRow.unrevised
    (s.turns.rows.filter fun t => t.sessionId = sid) fun a _ b _ => Iff.rfl
  rw [Store.turnsOf, hsort, List.filter_map]
  rfl

/-- The captures say what the index says but for its revisions. -/
theorem captures_congr (hrows : s'.turns.rows.map TurnRow.unrevised = s.turns.rows.map TurnRow.unrevised)
    (hstaled : ∀ t ∈ s.turnsOf sid, s'.staled host agentId t = s.staled host agentId t) :
    s'.captures host agentId sid = s.captures host agentId sid := by
  have hturns : (s'.turnsOf sid).map TurnRow.unrevised = (s.turnsOf sid).map TurnRow.unrevised := by
    rw [turnsOf_unrevised, turnsOf_unrevised, hrows]
  have hview : ∀ u : Store, u.captures host agentId sid
      = ((u.turnsOf sid).map TurnRow.unrevised).map fun t => t.capture host agentId u := by
    intro u
    rw [Store.captures, List.map_map]
    rfl
  rw [hview, hturns, hview, List.map_map, List.map_map]
  refine List.map_congr_left fun t ht => ?_
  simp only [Function.comp_apply, TurnRow.capture, TurnRow.unrevised, SessionCapture.mk.injEq, true_and]
  exact hstaled t ht

end Captures

section Calls
variable {host : Host} {agentId sid : String} {sys sys' : System}

theorem System.Sound.turn_digest (h : sys.Sound host) {t : TurnRow} (ht : t ∈ sys.store.turns.rows) :
    Digest t.operationId := by
  obtain ⟨c, hc, -⟩ := h.catalogued.turns t ht
  exact (h.catalogued.formed _ c hc).1

theorem System.Sound.turn_known (h : sys.Sound host) {t : TurnRow} (ht : t ∈ sys.store.turns.rows) :
    (sys.store.known t.operationId).isSome := by
  obtain ⟨c, hc, -⟩ := h.catalogued.turns t ht
  exact h.booked.known _ (by rw [hc]; rfl)

theorem known_booked (hb : Booked sys) {i : String} (hi : (sys.store.known i).isSome) :
    (sys.book i).isSome := by
  cases hrow : sys.store.operations.find i with
  | some row => rw [hb.row i row hrow]; rfl
  | none =>
    cases hhist : sys.store.history.find i with
    | some row =>
      obtain ⟨c, hc, -⟩ := hb.archived i row hhist
      rw [hc]
      rfl
    | none =>
      rw [(known_eq_none_iff sys.store i).mpr ⟨hrow, hhist⟩] at hi
      cases hi

theorem framed_captures (h : sys.Sound host) (hf : Framed host agentId sys sys') :
    sys'.store.captures host agentId sid = sys.store.captures host agentId sid :=
  captures_congr hf.rows fun _ ht => hf.staled _ (h.turn_digest (mem_turnsOf.mp ht).1)

/-- A capture is appended to its session. -/
theorem enqueueTurn_captures (hcf : host.CollisionFree) (h : sys.Sound host)
    (hr : Rewound host agentId sys) {c : RuntimeContext} (hc : c.agentId = agentId)
    {parent parent' u a : String} {turnNumber : Option Int} {now : Instant} {record : IndexedTurnRecord}
    {s' : Store} (hrun : enqueueTurn host sid (captureFactory host c sid parent' turnNumber u a) parent
      now sys.store = (.ok record, s')) : s'.captures host agentId sid
      = sys.store.captures host agentId sid ++ [⟨record.operationId, turnHash host u a, false⟩] := by
  have heff := enqueueTurn_effect hrun
  have hknown := effect_known_eq heff
  cases heff with
  | @turn _ _ _ _ made json hash operations sessions turns nonempty built valid canonical named fresh
      insert index session =>
    have hcap := captureFactory_captured built
    obtain ⟨n, hid, -⟩ := hcap.ids
    simp only [offered, built] at hknown
    have hturns := @turnsOf_append sid sys.store { sys.store with operations, sessions, turns } _
      (fun t ht hsid => hsid ▸ hr.below t ht) (TurnTable.insertTurn_ok index).1
      (fun t ht => by rw [List.mem_singleton.mp ht]) rfl
    have hsame : ∀ i, Digest i → Store.known { sys.store with operations, sessions, turns }
        (rewindId host agentId i) = sys.store.known (rewindId host agentId i) := by
      intro i hi
      rw [hknown, if_neg]
      rw [hid, hc]
      exact (turn_ne_rewind hcf hi).symm
    -- a correction of the new turn would be one of an indexed turn, but the id is fresh
    have hnew : sys.store.known (rewindId host agentId made.operation.operationId) = none := by
      refine Option.eq_none_iff_forall_ne_some.mpr fun m hm => ?_
      obtain ⟨content, hbook⟩ := Option.isSome_iff_exists.mp (known_booked h.booked (by rw [hm]; rfl))
      obtain ⟨-, t, ht, htid, -⟩ := hr.rewinds _ content hcap.operationId_digest hbook
      have hturn := h.turn_known ht
      rw [htid, fresh] at hturn
      cases hturn
    rw [Store.captures, hturns, List.map_append, List.map_singleton]
    congr 1
    · refine List.map_congr_left fun t ht => ?_
      simp only [TurnRow.capture, Store.staled, hsame _ (h.turn_digest (mem_turnsOf.mp ht).1)]
    · simp only [TurnRow.capture, Store.staled, hsame _ hcap.operationId_digest, hnew, hcap.digest]
      rfl

/-- The capture of a corrected turn is staled. -/
theorem enqueue_captures (hcf : host.CollisionFree) {t : TurnRow} {revision : Option Int} {queued : Bool}
    {now : Instant} {accepted : Bool} {s s' : Store} (hrun : enqueue host (rewindOperation host agentId
      (correctionOf t revision queued)) now s = (.ok accepted, s')) :
    s'.captures host agentId sid = stale [t.operationId] (s.captures host agentId sid) := by
  obtain ⟨hturns, hknown, -, -⟩ := enqueue_ok hrun
  rw [Store.captures, turnsOf_congr hturns, Store.captures, stale, List.map_map]
  refine List.map_congr_left fun x _ => ?_
  have hstaled := hknown (rewindId host agentId x.operationId)
  have hsame : rewindId host agentId x.operationId = (rewindOperation host agentId
      (correctionOf t revision queued)).operationId ↔ x.operationId = t.operationId :=
    ⟨fun he => rewindOperationId_inj hcf he, fun he => by rw [he]; rfl⟩
  rw [hsame] at hstaled
  simp only [Function.comp_apply, TurnRow.capture, Store.staled, List.mem_singleton,
    SessionCapture.mk.injEq, true_and]
  rw [Bool.eq_iff_iff, hstaled, Bool.or_eq_true, decide_eq_true_iff]

theorem markSessionReconcile_captures (sid' parent : String) (required : Bool) (now : Instant)
    (s : Store) : (markSessionReconcile sid' parent required now s).2.captures host agentId sid
      = s.captures host agentId sid := by
  have hturns := (markSessionReconcile_index sid' parent required now s).turns
  refine captures_congr (by rw [hturns]) fun t _ => ?_
  cases hrun : markSessionReconcile sid' parent required now s with
  | mk out s' =>
    cases out with
    | error e => rw [(transact_error hrun).1]
    | ok u => rw [Store.staled, @effect_known_eq host _ _ _ _ (markSessionReconcile_effect hrun)]; rfl

end Calls

/-! ### The thread and the others -/

/-- A runtime over the outbox that it shares with the others. -/
structure Shared where
  runtime : Runtime
  sys : System

def Shared.provider (x : Shared) : Provider := ⟨x.runtime, x.sys.store⟩

def Shared.answer (host : Host) (x : Shared) (c : HookCall) : c.Reply × Shared :=
  let (reply, p) := c.answer host x.provider
  (reply, { runtime := p.runtime, sys := match c.call with
    | some call => x.sys.exec host call
    | none => x.sys })

/-- A call does to the outbox what it does alone. -/
theorem answer_provider (host : Host) (x : Shared) (c : HookCall) :
    (x.answer host c).2.provider = (c.answer host x.provider).2 := by
  cases c <;> rfl

theorem answer_context (host : Host) (x : Shared) (c : HookCall) :
    (x.answer host c).2.runtime.context = x.runtime.context := by
  cases c with
  | consume t => exact consumed_context host x.runtime t
  | _ => rfl

def Shared.Answers (host : Host) (x : Shared) (c : HookCall) (reply : c.Reply) (x' : Shared) : Prop :=
  (reply, x') = x.answer host c

/-- What the others do. -/
structure Rely (host : Host) (agentId : String) (x x' : Shared) : Prop where
  runtime : x'.runtime = x.runtime
  others : x.sys.Ours host agentId → x'.sys.Ours host agentId ∧ Framed host agentId x.sys x'.sys

/-- What the thread does. -/
def Guarantee (host : Host) (agentId : String) (x x' : Shared) : Prop :=
  x.sys.Ours host agentId → x'.sys.Ours host agentId

theorem Rely.refl (host : Host) (agentId : String) (x : Shared) : Rely host agentId x x :=
  ⟨rfl, fun h => ⟨h, Framed.refl host agentId x.sys⟩⟩

theorem Rely.trans {host : Host} {agentId : String} {x x' x'' : Shared} (h : Rely host agentId x x')
    (h' : Rely host agentId x' x'') : Rely host agentId x x'' := by
  refine ⟨h'.runtime.trans h.runtime, fun hx => ?_⟩
  obtain ⟨hx', hf⟩ := h.others hx
  obtain ⟨hx'', hf'⟩ := h'.others hx'
  exact ⟨hx'', hf.trans hf'⟩

/-- The method keeps its part, and what it returns comes with the property. -/
def Hook.Keeps {α : Type} (host : Host) (agentId : String) (Q : α → Shared → Prop) (h : Hook α)
    (x : Shared) : Prop :=
  h.Holds (Shared.Answers host) (Rely host agentId) (Guarantee host agentId) (Dialogue.Returns Q) x

/-- The others leave the property alone. -/
def Stable (host : Host) (agentId : String) (P : Shared → Prop) : Prop :=
  ∀ x x', P x → Rely host agentId x x' → P x'

section Rules
variable {host : Host} {agentId : String} {α β : Type} {P : Shared → Prop} {x : Shared}

theorem keeps_done {Q : α → Shared → Prop} {result : Except OutboxException α}
    (hstable : ∀ a, Stable host agentId (Q a)) (hx : ∀ a, result = .ok a → Q a x) :
    Hook.Keeps host agentId Q (.done result) x := by
  intro x' hr
  cases result with
  | ok a => exact hstable a x x' (hx a rfl) hr
  | error e => trivial

theorem keeps_pure {Q : α → Shared → Prop} {a : α} (hstable : Stable host agentId (Q a)) (hx : Q a x) :
    Hook.Keeps host agentId Q (pure a) x :=
  fun x' hr => hstable x x' hx hr

theorem keeps_ask {Q : α → Shared → Prop} {c : HookCall} {next : c.Reply → Hook α}
    (hstable : Stable host agentId P) (hx : P x)
    (h : ∀ x, P x → Guarantee host agentId x (x.answer host c).2 ∧
      Hook.Keeps host agentId Q (next (x.answer host c).1) (x.answer host c).2) :
    Hook.Keeps host agentId Q (.ask c next) x := by
  intro x' hr reply x'' ha
  obtain ⟨hg, hnext⟩ := h x' (hstable x x' hx hr)
  cases ha
  exact ⟨hg, hnext⟩

theorem keeps_mono {Q R : α → Shared → Prop} {h : Hook α} (hqr : ∀ a x, Q a x → R a x)
    (hq : Hook.Keeps host agentId Q h x) : Hook.Keeps host agentId R h x :=
  hq.mono fun result x hx => by
    cases result with
    | ok a => exact hqr a x hx
    | error e => trivial

theorem keeps_bind {Q : α → Shared → Prop} {R : β → Shared → Prop} {h : Hook α} {f : α → Hook β}
    (hq : Hook.Keeps host agentId Q h x) (hf : ∀ a x, Q a x → Hook.Keeps host agentId R (f a) x) :
    Hook.Keeps host agentId R (h >>= f) x :=
  Dialogue.Holds.bind (Rely.refl host agentId) hq hf

end Rules

/-! ### What the thread sees -/

/-- The captures of the session as the thread has read them. -/
structure Sees (host : Host) (agentId sid : String) (captures : List SessionCapture) (x : Shared) : Prop where
  ours : x.sys.Ours host agentId
  captures : x.sys.store.captures host agentId sid = captures

section Sees
variable {host : Host} {agentId sid : String} {L : List SessionCapture} {x : Shared}

theorem sees_stable (host : Host) (agentId sid : String) (L : List SessionCapture) :
    Stable host agentId (Sees host agentId sid L) := by
  intro x x' h hr
  obtain ⟨hours, hf⟩ := hr.others h.ours
  exact ⟨hours, (framed_captures h.ours.sound hf).trans h.captures⟩

theorem found_stable (host : Host) (agentId sid : String) (A : List SessionCapture → Prop)
    (f : List SessionCapture → List SessionCapture) :
    Stable host agentId fun x => ∃ L', A L' ∧ Sees host agentId sid (f L') x := by
  intro x x' h hr
  obtain ⟨L', hA, hx⟩ := h
  exact ⟨L', hA, sees_stable host agentId sid _ x x' hx hr⟩

theorem own_ours {sys : System} (h : sys.Ours host agentId) {o : OwnAct} (ho : o.Guarded agentId sys)
    {c : Call} (hc : o.call host sys.store = some c) : (sys.exec host c).Ours host agentId := by
  have hstep := h.step (a := .own o) ho
  simp only [System.step, hc] at hstep
  exact hstep

theorem capture_ours {sys : System} (h : sys.Ours host agentId) {c : RuntimeContext}
    (hc : c.agentId = agentId) (parent : String) (turnNumber : Option Int) (u a : String) (now : Instant) :
    (sys.exec host (.enqueueTurn sid (captureFactory host c sid parent turnNumber u a) parent now)).Ours
      host agentId :=
  own_ours h (o := .capture c sid parent turnNumber u a now) ⟨hc, fun _ _ _ _ _ he => by cases he⟩ rfl

theorem mark_ours {sys : System} (h : sys.Ours host agentId) (parent : String) (required : Bool)
    (now : Instant) : (sys.exec host (.markSessionReconcile sid parent required now)).Ours host agentId :=
  own_ours h (o := .mark sid parent required now) ⟨trivial, fun _ _ _ _ _ he => by cases he⟩ rfl

/-! ### Captures of turns -/

theorem enqueueCapture_keeps (hcf : host.CollisionFree) {name : String} (ha : agentId = "hermes:" ++ name)
    {c : RuntimeContext} (hc : c.agentId = agentId) (u a : String) (turnNumber : Option Int)
    (now : Instant) (h : Sees host agentId sid L x) :
    Hook.Keeps host agentId (fun record => Sees host agentId sid
        (L ++ [⟨record.operationId, turnHash host u a, false⟩]))
      (Hook.enqueueCapture host c sid u a turnNumber now) x := by
  refine keeps_ask (sees_stable host agentId sid L) h fun x h => ⟨id, ?_⟩
  refine keeps_ask (sees_stable host agentId sid L) ⟨h.ours, h.captures⟩ fun x h => ?_
  refine ⟨fun hours => capture_ours hours hc _ _ _ _ _, keeps_done (fun _ => sees_stable _ _ _ _) ?_⟩
  intro record hreply
  refine ⟨capture_ours h.ours hc _ _ _ _ _, ?_⟩
  have hrun := enqueueTurn_captures hcf h.ours.sound (h.ours.rewound hcf ha) hc (Prod.ext hreply rfl)
  rw [h.captures] at hrun
  exact hrun

/-- What the recovery appends: the captures of the turns that the index lacks, none of them corrected. -/
structure Recovers (host : Host) (counts : String → Nat) (turns : List (String × String))
    (recovered : List SessionCapture) : Prop where
  hashes : recovered.map SessionCapture.turnHash
    = surplus id counts (turns.map (fingerprint host))
  unstaled : ∀ y ∈ recovered, y.staled = false

theorem recoverTurns_keeps (hcf : host.CollisionFree) {name : String} (ha : agentId = "hermes:" ++ name)
    {c : RuntimeContext} (hc : c.agentId = agentId) (counts : String → Nat) (clock : Nat → Instant)
    (seen : String → Nat) (turns : List (String × String)) (h : Sees host agentId sid L x) :
    Hook.Keeps host agentId (fun _ x => ∃ R, Recovers host (fun d => counts d - seen d) turns R ∧
        Sees host agentId sid (L ++ R) x)
      (Hook.recoverTurns host c sid counts clock seen turns) x := by
  induction turns generalizing seen L x with
  | nil =>
    refine keeps_pure (found_stable _ _ _ _ fun R => L ++ R) ⟨[], ⟨rfl, fun y hy => by cases hy⟩, ?_⟩
    rw [List.append_nil]
    exact h
  | cons turn turns ih =>
    obtain ⟨u, a⟩ := turn
    rw [Hook.recoverTurns]
    simp only [Function.update_self]
    have hsurplus := surplus_counted id counts seen (turnHash host u a) (turns.map (fingerprint host))
    simp only [id_eq] at hsurplus
    split
    · rename_i hlack
      rw [if_pos hlack] at hsurplus
      refine keeps_bind (enqueueCapture_keeps hcf ha hc u a none (clock turns.length) h) fun record x h => ?_
      refine keeps_mono (fun _ x hx => ?_) (ih _ h)
      obtain ⟨R, hR, hx⟩ := hx
      rw [List.append_assoc] at hx
      refine ⟨⟨record.operationId, turnHash host u a, false⟩ :: R, ⟨?_, fun y hy => ?_⟩, hx⟩
      · rw [List.map_cons, List.map_cons, fingerprint_mk, hsurplus, hR.hashes]
      · rcases List.mem_cons.mp hy with rfl | hy
        · rfl
        · exact hR.unstaled y hy
    · rename_i hcovered
      rw [if_neg hcovered] at hsurplus
      refine keeps_mono (fun _ x hx => ?_) (ih _ h)
      obtain ⟨R, hR, hx⟩ := hx
      refine ⟨R, ⟨?_, hR.unstaled⟩, hx⟩
      rw [List.map_cons, fingerprint_mk, hsurplus, hR.hashes]

/-! ### Planned corrections -/

/-- The correction is planned for the turn under the id, which has taken effect unless the correction
waits for it. -/
def Planned (sys : System) (correction : StaleCorrectionIntent) (i : String) : Prop :=
  ∃ t revision queued, t ∈ sys.store.turns.rows ∧ t.operationId = i ∧
    correction = correctionOf t revision queued ∧ (queued = false → sys.Took i)

theorem Planned.keep {sys sys' : System} {correction : StaleCorrectionIntent} {i : String}
    (hrows : ∀ t ∈ sys.store.turns.rows, ∃ t' ∈ sys'.store.turns.rows,
      t'.operationId = t.operationId ∧ t'.sourceId = t.sourceId)
    (htook : ∀ i, sys.Took i → sys'.Took i) (h : Planned sys correction i) :
    Planned sys' correction i := by
  obtain ⟨t, revision, queued, ht, rfl, rfl, hafter⟩ := h
  obtain ⟨t', ht', hid, hsource⟩ := hrows t ht
  exact ⟨t', revision, queued, ht', hid, (correctionOf_congr hid hsource revision queued).symm,
    fun hq => htook _ (hafter hq)⟩

theorem Planned.framed {sys sys' : System} {correction : StaleCorrectionIntent} {i : String}
    (hf : Framed host agentId sys sys') (h : Planned sys correction i) : Planned sys' correction i := by
  refine h.keep (fun t ht => ?_) hf.took
  have hmem := List.mem_map_of_mem (f := TurnRow.unrevised) ht
  rw [← hf.rows] at hmem
  obtain ⟨t', ht', hsame⟩ := List.mem_map.mp hmem
  exact ⟨t', ht', (congrArg TurnRow.operationId hsame :), (congrArg TurnRow.sourceId hsame :)⟩

theorem Planned.exec {sys : System} {correction : StaleCorrectionIntent} {i : String} (c : Call)
    (h : Planned sys correction i) : Planned (sys.exec host c) correction i := by
  have hrows : ∀ t ∈ sys.store.turns.rows, ∃ t' ∈ (sys.exec host c).store.turns.rows,
      t'.operationId = t.operationId ∧ t'.sourceId = t.sourceId := by
    intro t ht
    rcases exec_cases host sys c with he | ⟨r, heff, -⟩
    · rw [he]
      exact ⟨t, ht, rfl, rfl⟩
    · obtain ⟨t', ht', -, -, hid, hsource, -⟩ := effect_turns_keep heff ht
      exact ⟨t', ht', hid, hsource⟩
  exact h.keep hrows fun _ hi => hi

theorem Planned.ours {sys : System} {correction : StaleCorrectionIntent} {i : String}
    (h : sys.Ours host agentId) (hplan : Planned sys correction i) (now : Instant) :
    (sys.exec host (.enqueue (rewindOperation host agentId correction) now)).Ours host agentId := by
  obtain ⟨t, revision, queued, ht, rfl, rfl, hafter⟩ := hplan
  obtain ⟨index, hindex⟩ := List.mem_iff_getElem?.mp ht
  refine own_ours h (o := .rewind agentId index revision queued now) ⟨rfl, ?_⟩ ?_
  · intro a index' revision' now' t' he ht'
    cases he
    cases hindex.symm.trans ht'
    exact hafter rfl
  · rw [OwnAct.call, hindex]
    rfl

/-- A capture that the outbox no longer has took effect. -/
theorem System.Ours.took {sys : System} (h : sys.Ours host agentId) {t : TurnRow}
    (ht : t ∈ sys.store.turns.rows) (hq : sys.store.queued t = false) : sys.Took t.operationId := by
  obtain ⟨c, hc, hend, hkey⟩ := h.sound.catalogued.turns t ht
  have hnone : sys.store.operations.find t.operationId = none := by
    simpa [Store.queued] using hq
  have hland := uncorrected_landed h.sound h.chained h.waited h.ended hc (by rw [hend]; decide) hnone
  obtain ⟨e, -, heffect, -⟩ := hland.request
  exact ⟨e, by rw [← hkey]; exact heffect⟩

/-- The captures beyond those that the transcript covers are staled. -/
def trimmed (fingerprints : List String) (captures : List SessionCapture) : List SessionCapture :=
  stale ((surplus SessionCapture.turnHash (counter fingerprints) captures).map SessionCapture.operationId)
    captures

/-- The turns beyond those that the transcript covers. -/
def Outbox.Store.beyond (s : Store) (sid : String) (fingerprints : List String) : List TurnRow :=
  surplus TurnRow.turnHash (counter fingerprints) (s.turnsOf sid)

theorem beyond_trimmed (host : Host) (agentId : String) (s : Store) (sid : String)
    (fingerprints : List String) :
    stale ((s.beyond sid fingerprints).map TurnRow.operationId) (s.captures host agentId sid)
      = trimmed fingerprints (s.captures host agentId sid) := by
  have hbeyond : surplus SessionCapture.turnHash (counter fingerprints) (s.captures host agentId sid)
      = (s.beyond sid fingerprints).map fun t => t.capture host agentId s := surplus_map _ _ _ _
  rw [trimmed, hbeyond, List.map_map]
  rfl

theorem plan_planned (h : Sees host agentId sid L x) (messages : List Message) :
    List.Forall₂ (Planned x.sys) (rewindPlan host sid messages x.sys.store)
      ((x.sys.store.beyond sid (committedTurnFingerprints host messages)).map TurnRow.operationId) := by
  rw [rewindPlan_eq, List.forall₂_map_left_iff, List.forall₂_map_right_iff]
  refine List.forall₂_same.mpr fun t ht => ?_
  have hrow := (mem_turnsOf.mp ((surplus_sublist _ _ _).subset ht)).1
  exact ⟨t, t.revision, x.sys.store.queued t, hrow, rfl, rfl, fun hq => h.ours.took hrow hq⟩

theorem planned_stable (host : Host) (agentId sid : String) (L : List SessionCapture)
    (plan : List StaleCorrectionIntent) (ids : List String) :
    Stable host agentId fun x => Sees host agentId sid L x ∧ List.Forall₂ (Planned x.sys) plan ids := by
  intro x x' h hr
  obtain ⟨hsees, hplan⟩ := h
  exact ⟨sees_stable _ _ _ _ x x' hsees hr,
    hplan.imp fun _ _ hp => hp.framed (hr.others hsees.ours).2⟩

theorem enqueueCorrections_keeps (hcf : host.CollisionFree) (clock : Nat → Instant)
    {plan : List StaleCorrectionIntent} {ids : List String} (h : Sees host agentId sid L x)
    (hplan : List.Forall₂ (Planned x.sys) plan ids) :
    Hook.Keeps host agentId (fun _ => Sees host agentId sid (stale ids L))
      (Hook.enqueueCorrections host agentId clock plan) x := by
  induction plan generalizing ids L x with
  | nil =>
    cases hplan
    rw [stale_nil]
    exact keeps_pure (sees_stable host agentId sid L) h
  | cons correction plan ih =>
    obtain ⟨i, ids', hp, hplan', rfl⟩ := List.forall₂_cons_left_iff.mp hplan
    -- the others run between the plan and its corrections, so the rest of the plan is carried along
    have hone : Hook.Keeps host agentId (fun _ x => Sees host agentId sid (stale [i] L) x ∧
        List.Forall₂ (Planned x.sys) plan ids')
        (Hook.enqueue (rewindOperation host agentId correction) (clock plan.length)) x := by
      refine keeps_ask (planned_stable host agentId sid L _ _) ⟨h, hplan⟩ fun x hx => ?_
      obtain ⟨h, hplan⟩ := hx
      obtain ⟨hp, hplan'⟩ := List.forall₂_cons.mp hplan
      refine ⟨fun hours => hp.ours hours _, keeps_done (fun _ => planned_stable _ _ _ _ _ _) ?_⟩
      intro accepted hreply
      refine ⟨⟨hp.ours h.ours _, ?_⟩, hplan'.imp fun _ _ hq => hq.exec _⟩
      obtain ⟨t, revision, queued, ht, rfl, rfl, -⟩ := hp
      rw [← h.captures]
      exact enqueue_captures hcf (Prod.ext hreply rfl)
    refine keeps_bind hone fun accepted x hx => ?_
    rw [← List.singleton_append, ← stale_stale]
    exact ih hx.1 hx.2

/-- The captures of a session before and after a reconciliation. -/
def Settles (host : Host) (messages : List Message) (current : String × String)
    (L L' : List SessionCapture) : Prop :=
  ∃ R, Recovers host (counter (L.map SessionCapture.turnHash))
      (priorTurns (committedTurns host messages) current) R ∧
    L' = trimmed (committedTurnFingerprints host messages) (L ++ R)

theorem reconcileSession_keeps (hcf : host.CollisionFree) {name : String} (ha : agentId = "hermes:" ++ name)
    {c : RuntimeContext} (hc : c.agentId = agentId) (messages : List Message) (current : String × String)
    (clock : ReconcileClock) (h : Sees host agentId sid L x) :
    Hook.Keeps host agentId (fun _ x => ∃ L', Settles host messages current L L' ∧
        Sees host agentId sid L' x)
      (Hook.reconcileSession host c sid messages current clock) x := by
  subst hc
  refine keeps_ask (sees_stable host _ sid L) h fun x h => ⟨id, ?_⟩
  have hcounts : counter ((x.sys.store.indexedTurns sid).map IndexedTurnRecord.turnHash)
      = counter (L.map SessionCapture.turnHash) := by
    rw [indexedCounts_eq, ← h.captures, captures_hashes]
  refine keeps_bind (recoverTurns_keeps hcf ha rfl _ clock.recover (fun _ => 0) _ h) fun _ x hx => ?_
  obtain ⟨R, hR, hread⟩ := hx
  simp only [Nat.sub_zero] at hR
  -- the plan is made of what the index says after the recovery, not of what it says at its corrections
  refine keeps_ask (sees_stable host _ sid (L ++ R)) hread fun x hread => ⟨id, ?_⟩
  have hsettle : stale ((x.sys.store.beyond sid (committedTurnFingerprints host messages)).map
      TurnRow.operationId) (L ++ R) = trimmed (committedTurnFingerprints host messages) (L ++ R) := by
    rw [← hread.captures]
    exact beyond_trimmed host c.agentId x.sys.store sid _
  refine keeps_bind (enqueueCorrections_keeps hcf clock.correct hread (plan_planned hread messages))
    fun _ x hx => ?_
  rw [hsettle] at hx
  refine keeps_ask (sees_stable host _ sid _) hx fun x hx => ?_
  refine ⟨fun hours => mark_ours hours _ _ _, keeps_done (fun _ => found_stable _ _ _ _ id) fun _ _ => ?_⟩
  refine ⟨_, ⟨R, hcounts ▸ hR, rfl⟩, mark_ours hx.ours _ _ _, ?_⟩
  exact (markSessionReconcile_captures sid "" false clock.mark x.sys.store).trans hx.captures

/-! ### Completed turns -/

section Completed
variable {rt : Runtime} {t : SyncTurn}

theorem reconcile_keeps (hcf : host.CollisionFree) {name : String} (ha : agentId = "hermes:" ++ name)
    (hc : rt.context.agentId = agentId) {required : Prop} (h : Sees host agentId (rt.activeSession t) L x)
    (hflag : required → x.sys.store.flag (rt.activeSession t) = some true) :
    Hook.Keeps host agentId (fun _ x => ∃ L',
        (∀ messages, t.messages = some messages → required → Settles host messages (t.current host) L L') ∧
        Sees host agentId (rt.activeSession t) L' x)
      (Hook.reconcile host rt t) x := by
  have hstable : Stable host agentId fun x => Sees host agentId (rt.activeSession t) L x ∧
      (required → x.sys.store.flag (rt.activeSession t) = some true) := by
    intro x x' h hr
    exact ⟨sees_stable _ _ _ _ x x' h.1 hr, fun hreq => (hr.others h.1.ours).2.required _ (h.2 hreq)⟩
  unfold Hook.reconcile
  split
  · rename_i hnone
    refine keeps_pure (found_stable _ _ _ _ id) ⟨L, fun messages hm => ?_, h⟩
    cases hnone.symm.trans hm
  · rename_i messages hmessages
    refine keeps_ask hstable ⟨h, hflag⟩ fun x hx => ⟨id, ?_⟩
    obtain ⟨h, hflag⟩ := hx
    dsimp only [Shared.answer, HookCall.answer, Shared.provider]
    cases hb : x.sys.store.sessionReconcileRequired (rt.activeSession t) with
    | true =>
      refine keeps_mono (fun _ x hx => ?_)
        (reconcileSession_keeps hcf ha hc messages (t.current host) t.clock h)
      obtain ⟨L', hL, hx⟩ := hx
      refine ⟨L', fun messages' hm _ => ?_, hx⟩
      cases hmessages.symm.trans hm
      exact hL
    | false =>
      -- the others never clear the flag
      refine keeps_pure (found_stable _ _ _ _ id) ⟨L, fun messages' hm hreq => ?_, h⟩
      rw [(required_iff _ _).mpr (hflag hreq)] at hb
      cases hb

/-- Whatever the others do in between, a completed turn leaves its session as it would alone: the
missing turns recovered, the surplus corrected if a reconciliation was due, and its capture behind. -/
theorem syncTurn_keeps (hcf : host.CollisionFree) {name : String} (ha : agentId = "hermes:" ++ name)
    (hc : rt.context.agentId = agentId) (required : Prop) (h : Sees host agentId (rt.activeSession t) L x)
    (hflag : required → x.sys.store.flag (rt.activeSession t) = some true) :
    Hook.Keeps host agentId (fun r x => ∀ operationId, r = some operationId → ∃ L',
        (∀ messages, t.messages = some messages → required → Settles host messages (t.current host) L L') ∧
        Sees host agentId (rt.activeSession t) (L' ++ [⟨operationId, t.digest host, false⟩]) x)
      (Hook.syncTurn host rt t) x := by
  unfold Hook.syncTurn
  split
  · exact keeps_pure (fun _ _ _ _ _ hr => by cases hr) fun _ hr => by cases hr
  · refine keeps_bind (reconcile_keeps hcf ha hc h hflag) fun _ x hx => ?_
    obtain ⟨L', hL, hx⟩ := hx
    refine keeps_ask (sees_stable host agentId _ L') hx fun x hx => ⟨id, ?_⟩
    have hconsumed : Sees host agentId (rt.activeSession t) L' (x.answer host (.consume t)).2 :=
      ⟨hx.ours, hx.captures⟩
    refine keeps_bind (enqueueCapture_keeps hcf ha hc _ _ _ t.now hconsumed) fun record x hx => ?_
    refine keeps_pure (fun x x' hx hr operationId hid => ?_) fun operationId hid => ?_
    · exact found_stable host agentId _ _ _ x x' (hx operationId hid) hr
    · cases hid
      exact ⟨L', hL, hx⟩

theorem ours_stable (host : Host) (agentId : String) : Stable host agentId fun x => x.sys.Ours host agentId :=
  fun _ _ h hr => (hr.others h).1

theorem mark_keeps (sid parent : String) (now : Instant) (h : x.sys.Ours host agentId) :
    Hook.Keeps host agentId (fun _ _ => True) (Hook.mark sid parent now) x := by
  refine keeps_ask (ours_stable host agentId) h fun x h => ⟨fun hours => mark_ours hours _ _ _, ?_⟩
  exact keeps_done (fun _ _ _ _ _ => trivial) fun _ _ => trivial

theorem begin_keeps (hcf : host.CollisionFree) {name : String} (ha : agentId = "hermes:" ++ name)
    {p : Provider} (hc : p.runtime.context.agentId = agentId) (e : Event) (h : x.sys.Ours host agentId) :
    Hook.Keeps host agentId (fun _ _ => True) (p.begin host e).2 x := by
  cases e with
  | restart c sid parent now => exact mark_keeps sid parent now h
  | switch sid parent reset rewound now => exact mark_keeps sid _ now h
  | turnStart n message => exact keeps_pure (fun _ _ _ _ => trivial) trivial
  | deliver d => exact keeps_pure (fun _ _ _ _ => trivial) trivial
  | sync t =>
    refine keeps_mono (fun _ _ _ => trivial)
      (syncTurn_keeps hcf ha hc False ⟨h, rfl⟩ fun hf => hf.elim)

end Completed

end Sees

end SibylMemory
