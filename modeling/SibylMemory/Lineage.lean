import SibylMemory.RuntimeRuns

/-!
# Parents of sessions

A session's parent is written by the same upsert from restarts, session switches and
completed turns: a parent that is not empty replaces the stored one. All but a restart look
the stored parent up first, so that it stays once it is not empty.
-/

namespace SibylMemory
open Outbox

/-! ### What a call does to a parent -/

/-- The parent that a call would store for a session. -/
def Outbox.Call.adopts (sid : String) : Call → Option String
  | .reserveSequence sid' parent _ => if sid' = sid then some parent else none
  | .enqueueTurn sid' _ parent _ => if sid' = sid then some parent else none
  | .markSessionReconcile sid' parent _ _ => if sid' = sid then some parent else none
  | _ => none

theorem adopt_parent (row : SessionRow) (parent : String) (now : Instant) :
    (row.adopt parent now).parentSessionId = if parent = "" then row.parentSessionId else parent := by
  unfold SessionRow.adopt
  split <;> simp_all

section Calls
variable {host : Host} {s s' : Store} {c : Call} {sid p : String}

theorem session_parent (hp : s.sessionParentId sid = some p) (now : Instant) :
    (s.session sid now).parentSessionId = p := by
  unfold Store.sessionParentId at hp
  unfold Store.session
  cases hf : s.sessions.find sid with
  | none =>
    rw [hf] at hp
    cases hp
  | some row =>
    rw [hf] at hp
    exact Option.some.inj hp

theorem adopted_parent (hp : s.sessionParentId sid = some p) {parent : String}
    (hparent : parent = "" ∨ parent = p) (now : Instant) :
    ((s.session sid now).adopt parent now).parentSessionId = p := by
  rw [adopt_parent, session_parent hp]
  rcases hparent with rfl | rfl
  · exact if_pos rfl
  · split <;> rfl

theorem effect_parent {r : Reply} (h : Effect host s c r s')
    (hi : ∀ sid n oid src digest now, c ≠ .indexTurn sid n oid src digest now)
    (hp : s.sessionParentId sid = some p)
    (hc : ∀ parent, c.adopts sid = some parent → parent = "" ∨ parent = p) :
    s'.sessionParentId sid = some p := by
  have hsession : ∀ (k parent : String) (now : Instant) (row : SessionRow)
      (sessions : KeyedTable SessionRow.sessionId),
      (∀ i, sessions.find i = if i = k then some row else s.sessions.find i) →
      row.parentSessionId = ((s.session k now).adopt parent now).parentSessionId →
      (k = sid → parent = "" ∨ parent = p) →
      (sessions.find sid).map SessionRow.parentSessionId = some p := by
    intro k parent now row sessions hs hrow hparent
    rw [hs]
    split
    · rename_i hk
      rw [Option.map_some, hrow, ← hk, adopted_parent hp (hparent hk.symm)]
    · exact hp
  cases h with
  | reserve nonempty session =>
    exact hsession _ _ _ _ _ session rfl fun hk => hc _ (if_pos hk)
  | turn nonempty made valid canonical named fresh insert index session =>
    exact hsession _ _ _ _ _ session rfl fun hk => hc _ (if_pos hk)
  | mark nonempty session => exact hsession _ _ _ _ _ session rfl fun hk => hc _ (if_pos hk)
  | index => exact absurd rfl (hi _ _ _ _ _ _)
  | _ => exact hp

end Calls

/-! ### What a method does to a parent -/

/-- `request["metadata"]["parent_session_id"]` -/
def parentIn : PyValue → Option PyValue
  | .dict es =>
    match PyValue.lookup "metadata" es with
    | some (.dict metadata) => PyValue.lookup "parent_session_id" metadata
    | _ => none
  | _ => none

/-- The parent in the queued request of an operation. -/
def Outbox.Store.queuedParent (s : Store) (operationId : String) : Option PyValue :=
  (s.operations.find operationId).bind fun row => parentIn row.request

/-- The parent of the session stays, and the captures of the session that are new carry it. -/
structure KeepsParent (s s' : Store) (sid p : String) : Prop where
  parent : s'.sessionParentId sid = some p
  captures : ∀ t ∈ s'.turns.rows, t.sessionId = sid →
    (∃ t₀ ∈ s.turns.rows, t₀.sessionId = t.sessionId ∧ t₀.operationId = t.operationId) ∨
    s'.queuedParent t.operationId = some (.str p)

/-- The same, and no live operation is touched. -/
structure AddsCaptures (s s' : Store) (sid p : String) : Prop extends KeepsParent s s' sid p where
  live : ∀ i row, s.operations.find i = some row → s'.operations.find i = some row

section Methods
variable {host : Host} {s s' : Store} {sid p : String}

theorem AddsCaptures.refl (hp : s.sessionParentId sid = some p) : AddsCaptures s s sid p where
  parent := hp
  captures := fun t ht _ => .inl ⟨t, ht, rfl, rfl⟩
  live := fun _ _ h => h

theorem AddsCaptures.trans {s'' : Store} (h : AddsCaptures s s' sid p)
    (h' : AddsCaptures s' s'' sid p) : AddsCaptures s s'' sid p where
  parent := h'.parent
  captures := by
    intro t ht hid
    rcases h'.captures t ht hid with ⟨t₁, ht₁, hsid, hop⟩ | hcarries
    · rcases h.captures t₁ ht₁ (hsid.trans hid) with ⟨t₀, ht₀, hsid₀, hop₀⟩ | hcarries
      · exact .inl ⟨t₀, ht₀, hsid₀.trans hsid, hop₀.trans hop⟩
      · refine .inr ?_
        unfold Store.queuedParent at hcarries ⊢
        rw [Option.bind_eq_some_iff] at hcarries
        obtain ⟨row, hrow, hparent⟩ := hcarries
        rw [← hop, h'.live _ _ hrow]
        exact hparent
    · exact .inr hcarries
  live := fun i row hrow => h'.live i row (h.live i row hrow)

theorem captureFactory_parent {c : RuntimeContext} {parent u a : String} {turnNumber : Option Int}
    {n : Nat} {t : NewTurnOperation} (h : captureFactory host c sid parent turnNumber u a n = .ok t)
    {json : PyValue} (hjson : t.operation.request.canonical = some json) :
    parentIn json = some (.str parent) := by
  obtain ⟨identity, hash, -, -, rfl⟩ := captureFactory_ok h
  obtain ⟨es, rfl⟩ := PyValue.canonical_dict_shape hjson
  obtain ⟨w, hw, hlookup⟩ := PyValue.canonical_dict_some hjson
    (show PyValue.lookup "metadata" _ = some _ from rfl)
  obtain ⟨ms, rfl⟩ := PyValue.canonical_dict_shape hw
  rw [parentIn, hlookup]
  dsimp only
  rw [PyValue.canonical_dict hw, PyValue.lookup_assign]
  rfl

theorem exec_addsCaptures {c : Call}
    (hc : ∀ sid n oid src digest now, c ≠ .indexTurn sid n oid src digest now)
    (ht : ∀ sid factory parent now, c ≠ .enqueueTurn sid factory parent now)
    (hsame : ∀ parent, c.adopts sid = some parent → parent = "" ∨ parent = p)
    (hlive : ∀ i row, s.operations.find i = some row →
      (c.exec host s).2.operations.find i = some row)
    (hp : s.sessionParentId sid = some p) : AddsCaptures s (c.exec host s).2 sid p := by
  cases hexec : c.exec host s with
  | mk out s' =>
    rw [hexec] at hlive
    cases out with
    | error e =>
      rw [exec_error hexec]
      exact .refl hp
    | ok r =>
      have heff := exec_effect hexec
      refine ⟨⟨effect_parent heff hc hp hsame, fun t htmem _ => ?_⟩, hlive⟩
      rcases effect_turn_row heff hc htmem with ⟨t₀, ht₀, hsid, -, hop, -⟩ |
        ⟨factory, parent, now, -, rfl, -⟩
      · exact .inl ⟨t₀, ht₀, hsid, hop⟩
      · exact absurd rfl (ht _ _ _ _)

theorem enqueueCapture_addsCaptures (host : Host) (c : RuntimeContext) (sid' u a : String)
    (turnNumber : Option Int) (now : Instant) (hp : s.sessionParentId sid = some p) :
    AddsCaptures s (enqueueCapture host c sid' u a turnNumber now s).2 sid p := by
  unfold enqueueCapture
  dsimp only
  cases hrun : enqueueTurn host sid' (captureFactory host c sid' ((s.sessionParentId sid').getD "")
      turnNumber u a) ((s.sessionParentId sid').getD "") now s with
  | mk out s' =>
    cases out with
    | error e =>
      have hexec : (Call.enqueueTurn sid' (captureFactory host c sid'
          ((s.sessionParentId sid').getD "") turnNumber u a) ((s.sessionParentId sid').getD "")
          now).exec host s = (.error e, s') := by
        simp only [Call.exec, replyWith, hrun]
        rfl
      rw [exec_error hexec]
      exact .refl hp
    | ok record =>
      have heff := enqueueTurn_effect hrun
      have hparent := effect_parent heff (by simp) hp fun parent hadopts => by
        simp only [Call.adopts] at hadopts
        split at hadopts
        · rename_i hs
          subst hs
          cases hadopts
          exact .inr (by rw [hp]; rfl)
        · cases hadopts
      cases heff with
      | @turn _ _ _ _ made json hash operations sessions turns nonempty built valid canonical named
          fresh insert index session =>
        have hlive : ∀ i row, s.operations.find i = some row → operations.find i = some row :=
          fun i row hrow => KeyedTable.find_insert_kept insert hrow
        refine ⟨⟨hparent, fun t ht hid => ?_⟩, hlive⟩
        rcases (TurnTable.mem_insertTurn index t).mp ht with ht | rfl
        · exact .inl ⟨t, ht, rfl, rfl⟩
        · -- the new turn is of this session, whose stored parent its factory was given
          refine .inr ?_
          have hrow : operations.find made.operation.operationId
              = some (pendingRow made.operation json hash now) := by
            rw [KeyedTable.find_insert insert, pendingRow_id, if_pos rfl]
          have hsid : sid' = sid := hid
          subst hsid
          rw [hp] at built
          simp only [Store.queuedParent, hrow, Option.bind_some]
          exact captureFactory_parent built (canonicalRequest_canonical canonical)

theorem recoverTurns_addsCaptures (host : Host) (c : RuntimeContext) (sid' : String)
    (counts seen : String → Nat) (clock : Nat → Instant) (turns : List (String × String))
    (hp : s.sessionParentId sid = some p) :
    AddsCaptures s (recoverTurns host c sid' counts clock seen turns s).2 sid p := by
  induction turns generalizing s seen with
  | nil => exact .refl hp
  | cons turn turns ih =>
    obtain ⟨u, a⟩ := turn
    rw [recoverTurns]
    split
    · have hcap := enqueueCapture_addsCaptures host c sid' u a none (clock turns.length) hp
      split <;> rename_i hrun <;> rw [hrun] at hcap
      · exact hcap.trans (ih _ hcap.parent)
      · exact hcap
    · exact ih _ hp

theorem enqueue_addsCaptures (host : Host) (op : NewOperation) (now : Instant)
    (hp : s.sessionParentId sid = some p) :
    AddsCaptures s (enqueue host op now s).2 sid p := by
  have hadds := @exec_addsCaptures host s sid p (.enqueue op now) (by simp) (by simp)
    (by simp [Call.adopts]) ?_ hp
  · exact hadds
  · intro i row hrow
    cases hexec : (Call.enqueue op now).exec host s with
    | mk out s' =>
      cases out with
      | error e =>
        rw [exec_error hexec]
        exact hrow
      | ok r =>
        have heff := exec_effect hexec
        cases heff with
        | known => exact hrow
        | accept valid canonical fresh insert => exact KeyedTable.find_insert_kept insert hrow

theorem enqueueCorrections_addsCaptures (host : Host) (agentId : String) (clock : Nat → Instant)
    (corrections : List StaleCorrectionIntent) (hp : s.sessionParentId sid = some p) :
    AddsCaptures s (enqueueCorrections host agentId clock corrections s).2 sid p := by
  induction corrections generalizing s with
  | nil => exact .refl hp
  | cons correction corrections ih =>
    have hcall := enqueue_addsCaptures host (rewindOperation host agentId correction)
      (clock corrections.length) hp
    rw [enqueueCorrections]
    split <;> rename_i hrun <;> rw [hrun] at hcall
    · exact hcall.trans (ih hcall.parent)
    · exact hcall

theorem mark_addsCaptures {sid' parent : String} {required : Bool} {now : Instant}
    (hsame : sid' = sid → parent = "" ∨ parent = p) (hp : s.sessionParentId sid = some p) :
    AddsCaptures s (markSessionReconcile sid' parent required now s).2 sid p := by
  refine @exec_addsCaptures Host.plain s sid p (.markSessionReconcile sid' parent required now)
    (by simp) (by simp) ?_ ?_ hp
  · intro parent' hadopts
    simp only [Call.adopts] at hadopts
    split at hadopts
    · rename_i hs
      cases hadopts
      exact hsame hs
    · cases hadopts
  · intro i row hrow
    cases hexec : (Call.markSessionReconcile sid' parent required now).exec Host.plain s with
    | mk out s' =>
      cases out with
      | error e =>
        rw [exec_error hexec]
        exact hrow
      | ok r =>
        cases exec_effect hexec with
        | mark => exact hrow

theorem reconcileSession_addsCaptures (host : Host) (c : RuntimeContext) (sid' : String)
    (messages : List Message) (current : String × String) (clock : ReconcileClock)
    (hp : s.sessionParentId sid = some p) :
    AddsCaptures s (reconcileSession host c sid' messages current clock s).2 sid p := by
  unfold reconcileSession
  dsimp only
  have hrec := recoverTurns_addsCaptures host c sid'
    (counter ((s.indexedTurns sid').map IndexedTurnRecord.turnHash)) (fun _ => 0) clock.recover
    (priorTurns (committedTurns host messages) current) hp
  split <;> rename_i hr <;> rw [hr] at hrec
  · exact hrec
  · rename_i s₁
    have hcor := enqueueCorrections_addsCaptures host c.agentId clock.correct
      (rewindPlan host sid' messages s₁) hrec.parent
    split <;> rename_i hk <;> rw [hk] at hcor
    · exact hrec.trans hcor
    · exact (hrec.trans hcor).trans (mark_addsCaptures (fun _ => .inl rfl) hcor.parent)

theorem syncTurn_addsCaptures (host : Host) (rt : Runtime) (t : SyncTurn)
    (hp : s.sessionParentId sid = some p) :
    AddsCaptures s (rt.syncTurn host t s).2.2 sid p := by
  have hreconcile : AddsCaptures s (rt.reconcile host t s).2 sid p := by
    unfold Runtime.reconcile
    split
    · exact .refl hp
    · split
      · exact reconcileSession_addsCaptures host _ _ _ _ _ hp
      · exact .refl hp
  unfold Runtime.syncTurn
  split
  · exact .refl hp
  · split <;> rename_i hrun <;> rw [hrun] at hreconcile
    · exact hreconcile
    · have hcap := enqueueCapture_addsCaptures host rt.context (rt.activeSession t)
        (t.current host).1 t.assistantContent (rt.consumed host t).1 t.now hreconcile.parent
      dsimp only
      split <;> rename_i hc <;> rw [hc] at hcap <;> exact hreconcile.trans hcap

theorem delivery_keepsParent (host : Host) (d : Delivery) (hp : s.sessionParentId sid = some p) :
    KeepsParent s (d.exec host s) sid p := by
  have hsame : KeepsParent s s sid p := (AddsCaptures.refl hp).toKeepsParent
  rcases delivery_cases host s d with h | ⟨c, hc, h⟩ <;> rw [h]
  · exact hsame
  · cases hexec : c.exec host s with
    | mk out s' =>
      cases out with
      | error e =>
        rw [exec_error hexec]
        exact hsame
      | ok r =>
        have heff := exec_effect hexec
        have hni : ∀ sid n oid src digest now, c ≠ .indexTurn sid n oid src digest now := by
          rintro sid n oid src digest now rfl
          exact hc
        refine ⟨effect_parent heff hni hp fun parent hadopts => ?_, fun t ht _ => ?_⟩
        · cases c <;> first | exact hc.elim | cases hadopts
        · rcases effect_turn_row heff hni ht with
            ⟨t₀, ht₀, hsid, -, hop, -⟩ | ⟨factory, parent, now, -, rfl, -⟩
          · exact .inl ⟨t₀, ht₀, hsid, hop⟩
          · exact hc.elim

end Methods

/-! ### Runs -/

/-- An event with the runtime it happens to: any process, started in any context. -/
structure Visit where
  runtime : Runtime
  event : Event

def visit (host : Host) (s : Store) (v : Visit) : Store :=
  (Provider.step host ⟨v.runtime, s⟩ v.event).store

/-- The events of one provider, each with the runtime that it happens to. -/
def Provider.visits (host : Host) : Provider → List Event → List Visit
  | _, [] => []
  | p, e :: events => ⟨p.runtime, e⟩ :: Provider.visits host (p.step host e) events

theorem exec_visits (host : Host) (p : Provider) (events : List Event) :
    Run.exec (visit host) p.store (p.visits host events)
      = (Run.exec (Provider.step host) p events).store := by
  induction events generalizing p with
  | nil => rfl
  | cons e events ih => exact ih (p.step host e)

/-- Parents that are not empty stay, and the captures that the visit enqueues carry them. -/
def LineageKept (host : Host) (s : Store) (v : Visit) : Prop :=
  ∀ sid p, p ≠ "" → s.sessionParentId sid = some p → KeepsParent s (visit host s v) sid p

/-- A restart brings no parent, or finds none, or finds the one it brings. -/
def SameParent (s : Store) (v : Visit) : Prop :=
  match v.event with
  | .restart _ sid parent _ =>
    sid = "" ∨ parent = "" ∨ ∀ p, s.sessionParentId sid = some p → p = "" ∨ p = parent
  | _ => True

theorem switched_parent (rt : Runtime) {s : Store} {sid p : String}
    (hp : s.sessionParentId sid = some p) (parent : String) (reset : Bool) :
    (rt.switched s sid parent reset).parentSessionId = p := by
  simp only [Runtime.switched, hp]

theorem lineageKept_of_same (host : Host) (s : Store) (v : Visit) (hsame : SameParent s v) :
    LineageKept host s v := by
  intro sid p hne hp
  obtain ⟨rt, e⟩ := v
  cases e with
  | restart c sid' parent now =>
    rcases hsame with rfl | hparent | hstored
    · -- `mark_session_reconcile` refuses the empty session id
      exact (AddsCaptures.refl hp).toKeepsParent
    · exact (mark_addsCaptures (fun _ => .inl hparent) hp).toKeepsParent
    · refine (mark_addsCaptures (fun hs => .inr ?_) hp).toKeepsParent
      subst hs
      rcases hstored p hp with he | he
      · exact absurd he hne
      · exact he.symm
  | turnStart n message => exact (AddsCaptures.refl hp).toKeepsParent
  | switch sid' parent reset rewound now =>
    refine (mark_addsCaptures (fun hs => .inr ?_) hp).toKeepsParent
    subst hs
    exact switched_parent rt hp parent reset
  | sync t => exact (syncTurn_addsCaptures host rt t hp).toKeepsParent
  | deliver d => exact delivery_keepsParent host d hp

theorem same_of_lineageKept (host : Host) (s : Store) (v : Visit) (hkept : LineageKept host s v) :
    SameParent s v := by
  obtain ⟨rt, e⟩ := v
  cases e with
  | restart c sid parent now =>
    refine or_iff_not_imp_left.mpr fun hsid => or_iff_not_imp_left.mpr fun hparent p hp =>
      or_iff_not_imp_left.mpr fun hne => ?_
    have hstays := (hkept sid p hne hp).parent
    obtain ⟨s', hmark, -⟩ := markSessionReconcile_total (s := s) parent hsid true now
    have hstore : visit host s ⟨rt, .restart c sid parent now⟩ = s' := congrArg Prod.snd hmark
    rw [hstore] at hstays
    cases @markSessionReconcile_effect host s s' _ _ _ _ () hmark with
    | mark nonempty session =>
      rw [Store.sessionParentId, session, if_pos rfl, Option.map_some] at hstays
      have hadopts := Option.some.inj hstays
      rw [SessionRow.mark, adopt_parent, if_neg hparent] at hadopts
      exact hadopts.symm
  | _ => trivial

/-- For any order of restarts, session switches, completed turns and deliveries of any
processes: parents stay once they are not empty, and later captures carry them, exactly when
no restart brings another parent than the stored one. -/
theorem lineage_permanent (host : Host) (s : Store) (visits : List Visit) :
    (Run.Always (visit host) (LineageKept host) s visits ↔
      Run.Always (visit host) SameParent s visits) ∧
    (Run.Always (visit host) SameParent s visits →
      ∀ earlier later, visits = earlier ++ later → ∀ sid p, p ≠ "" →
        (Run.exec (visit host) s earlier).sessionParentId sid = some p →
        (Run.exec (visit host) s visits).sessionParentId sid = some p) := by
  have hstep : ∀ s v, LineageKept host s v ↔ SameParent s v := fun s v =>
    ⟨same_of_lineageKept host s v, lineageKept_of_same host s v⟩
  refine ⟨?_, fun hall earlier later he sid p hne hp => ?_⟩
  · simp only [Run.always_iff_forall, hstep]
  · subst he
    rw [Run.exec_append]
    have hlater := ((Run.always_append s earlier later).mp hall).2
    exact @Run.exec_invariant _ _ (visit host) SameParent
      (fun s => s.sessionParentId sid = some p)
      (fun s v hinv hsame => (lineageKept_of_same host s v hsame sid p hne hinv).parent) _ _ hp hlater

def sampleRestart (parent : String) : Visit where
  runtime := Runtime.new sampleAgent "s" ""
  event := .restart sampleAgent "s" parent 0

/-- A restart replaces the stored parent. -/
theorem restart_replaces_parent :
    (Run.exec (visit Host.plain) Store.empty [sampleRestart "p"]).sessionParentId "s" = some "p" ∧
    (Run.exec (visit Host.plain) Store.empty
      [sampleRestart "p", sampleRestart "q"]).sessionParentId "s" = some "q" := by
  decide

end SibylMemory
