import SibylMemory.Library.Dialogues
import SibylMemory.RuntimeRuns

/-!
# The runtime's methods, one transaction at a time (`runtime.py:111-215`, `536-651`)

A method of the runtime is a program over the outbox: what it reads, and the transactions that it
makes. Other threads work on the outbox between its calls. Answered by the outbox alone, it does
what the method does as a whole (`begin_run`).
-/

namespace SibylMemory
open Outbox

inductive HookCall where
  | reconcileRequired (sid : String)
  | parentId (sid : String)
  | indexedTurns (sid : String)
  /-- `self._turns.consume`, with its `TurnReconciliationError` handled -/
  | consume (t : SyncTurn)
  | enqueueTurn (sid : String) (factory : Nat → Except OutboxException NewTurnOperation)
      (parent : String) (now : Instant)
  | enqueue (op : NewOperation) (now : Instant)
  | markReconcile (sid parent : String) (required : Bool) (now : Instant)

@[reducible] def HookCall.Reply : HookCall → Type
  | .reconcileRequired _ => Bool
  | .parentId _ => Option String
  | .indexedTurns _ => List IndexedTurnRecord
  | .consume _ => Option Int
  | .enqueueTurn _ _ _ _ => Except OutboxException IndexedTurnRecord
  | .enqueue _ _ => Except OutboxException Bool
  | .markReconcile _ _ _ _ => Except OutboxException Unit

def HookCall.answer (host : Host) (p : Provider) : (c : HookCall) → c.Reply × Provider
  | .reconcileRequired sid => (p.store.sessionReconcileRequired sid, p)
  | .parentId sid => (p.store.sessionParentId sid, p)
  | .indexedTurns sid => (p.store.indexedTurns sid, p)
  | .consume t => ((p.runtime.consumed host t).1, { p with runtime := (p.runtime.consumed host t).2 })
  | .enqueueTurn sid factory parent now =>
    let (out, store) := Outbox.enqueueTurn host sid factory parent now p.store
    (out, { p with store })
  | .enqueue op now =>
    let (out, store) := Outbox.enqueue host op now p.store
    (out, { p with store })
  | .markReconcile sid parent required now =>
    let (out, store) := markSessionReconcile sid parent required now p.store
    (out, { p with store })

/-- The transaction of a call that makes one. -/
def HookCall.call : HookCall → Option Call
  | .enqueueTurn sid factory parent now => some (.enqueueTurn sid factory parent now)
  | .enqueue op now => some (.enqueue op now)
  | .markReconcile sid parent required now => some (.markSessionReconcile sid parent required now)
  | _ => none

/-! ### Programs -/

abbrev Hook (α : Type) : Type := Dialogue HookCall HookCall.Reply OutboxException α

namespace Hook

def enqueueCapture (host : Host) (c : RuntimeContext) (sid userContent assistantContent : String)
    (turnNumber : Option Int) (now : Instant) : Hook IndexedTurnRecord :=
  .ask (.parentId sid) fun parentSessionId =>
    let parentSessionId := Option.getD parentSessionId ""
    .ask (.enqueueTurn sid
      (captureFactory host c sid parentSessionId turnNumber userContent assistantContent)
      parentSessionId now) .done

/-- The loop over the prior turns. -/
def recoverTurns (host : Host) (c : RuntimeContext) (sid : String) (indexedCounts : String → Nat)
    (clock : Nat → Instant) : (String → Nat) → List (String × String) → Hook Unit
  | _, [] => pure ()
  | seen, (userContent, assistantContent) :: turns =>
    let digest := turnHash host userContent assistantContent
    let seen := Function.update seen digest (seen digest + 1)
    if indexedCounts digest < seen digest then do
      let _ ← enqueueCapture host c sid userContent assistantContent none (clock turns.length)
      recoverTurns host c sid indexedCounts clock seen turns
    else recoverTurns host c sid indexedCounts clock seen turns

def enqueue (op : NewOperation) (now : Instant) : Hook Bool := .ask (.enqueue op now) .done

/-- The loop over the planned corrections. -/
def enqueueCorrections (host : Host) (agentId : String) (clock : Nat → Instant) :
    List StaleCorrectionIntent → Hook Unit
  | [] => pure ()
  | correction :: corrections => do
    let _ ← enqueue (rewindOperation host agentId correction) (clock corrections.length)
    enqueueCorrections host agentId clock corrections

def reconcileSession (host : Host) (c : RuntimeContext) (sid : String) (messages : List Message)
    (currentTurn : String × String) (clock : ReconcileClock) : Hook Unit :=
  let prior := priorTurns (committedTurns host messages) currentTurn
  .ask (.indexedTurns sid) fun records => do
    let indexedCounts := counter (List.map IndexedTurnRecord.turnHash records)
    recoverTurns host c sid indexedCounts clock.recover (fun _ => 0) prior
    .ask (.indexedTurns sid) fun records => do
      let indexed := List.map IndexedTurn.ofRecord records
      enqueueCorrections host c.agentId clock.correct
        (planRewindCorrections indexed (committedTurnFingerprints host messages))
      .ask (.markReconcile sid "" false clock.mark) .done

def reconcile (host : Host) (rt : Runtime) (t : SyncTurn) : Hook Unit :=
  match t.messages with
  | none => pure ()
  | some messages => .ask (.reconcileRequired (rt.activeSession t)) fun (required : Bool) =>
    bif required then
      reconcileSession host rt.context (rt.activeSession t) messages (t.current host) t.clock
    else pure ()

def syncTurn (host : Host) (rt : Runtime) (t : SyncTurn) : Hook (Option String) :=
  if rt.skips host t then pure none
  else do
    reconcile host rt t
    .ask (.consume t) fun turnNumber => do
      let record ← enqueueCapture host rt.context (rt.activeSession t) (t.current host).1
        t.assistantContent turnNumber t.now
      return some record.operationId

def mark (sid parent : String) (now : Instant) : Hook (Option String) :=
  .ask (.markReconcile sid parent true now) fun out => .done (Except.map (fun _ => none) out)

end Hook

/-- Hermes calls a method: what it does before its first transaction, but for the parent that a
switch reads. Deliveries are the work of other threads. -/
def Provider.begin (host : Host) (p : Provider) : Event → Runtime × Hook (Option String)
  | .restart c sid parent now =>
    (Runtime.new (c.ofAgent p.runtime.context) sid parent, Hook.mark sid parent now)
  | .turnStart n message => (p.runtime.onTurnStart host n message, pure none)
  | .switch sid parent reset _ now =>
    let rt := p.runtime.switched p.store sid parent reset
    (rt, Hook.mark sid rt.parentSessionId now)
  | .sync t => (p.runtime, Hook.syncTurn host p.runtime t)
  | .deliver _ => (p.runtime, pure none)

/-! ### Alone -/

namespace Hook
variable {host : Host} {α β : Type}

def alone (host : Host) (h : Hook α) (p : Provider) : Except OutboxException α × Provider :=
  h.run (HookCall.answer host) p

theorem alone_ask (c : HookCall) (next : c.Reply → Hook α) (p : Provider) :
    alone host (.ask c next) p = alone host (next (c.answer host p).1) (c.answer host p).2 := rfl

theorem alone_bind (h : Hook α) (f : α → Hook β) (p : Provider) :
    alone host (h >>= f) p = match alone host h p with
      | (.ok a, p') => alone host (f a) p'
      | (.error e, p') => (.error e, p') := by
  refine (Dialogue.run_bind (HookCall.answer host) h f p).trans ?_
  unfold alone
  split <;> rename_i hrun <;> rw [hrun]

theorem enqueueCapture_alone (c : RuntimeContext) (sid u a : String) (turnNumber : Option Int)
    (now : Instant) (rt : Runtime) (s : Store) :
    alone host (enqueueCapture host c sid u a turnNumber now) ⟨rt, s⟩
      = ((SibylMemory.enqueueCapture host c sid u a turnNumber now s).1,
        ⟨rt, (SibylMemory.enqueueCapture host c sid u a turnNumber now s).2⟩) := rfl

theorem recoverTurns_alone (c : RuntimeContext) (sid : String) (counts : String → Nat)
    (clock : Nat → Instant) (seen : String → Nat) (turns : List (String × String)) (rt : Runtime)
    (s : Store) : alone host (recoverTurns host c sid counts clock seen turns) ⟨rt, s⟩
      = ((SibylMemory.recoverTurns host c sid counts clock seen turns s).1,
        ⟨rt, (SibylMemory.recoverTurns host c sid counts clock seen turns s).2⟩) := by
  induction turns generalizing seen s with
  | nil => rfl
  | cons turn turns ih =>
    obtain ⟨u, a⟩ := turn
    rw [recoverTurns, SibylMemory.recoverTurns]
    split
    · rw [alone_bind, enqueueCapture_alone]
      cases hcap : SibylMemory.enqueueCapture host c sid u a none (clock turns.length) s with
      | mk out s₁ =>
        cases out with
        | error e => rfl
        | ok record => exact ih _ s₁
    · exact ih _ s

theorem enqueue_alone (op : NewOperation) (now : Instant) (rt : Runtime) (s : Store) :
    alone host (enqueue op now) ⟨rt, s⟩
      = ((Outbox.enqueue host op now s).1, ⟨rt, (Outbox.enqueue host op now s).2⟩) := rfl

theorem enqueueCorrections_alone (agentId : String) (clock : Nat → Instant)
    (corrections : List StaleCorrectionIntent) (rt : Runtime) (s : Store) :
    alone host (enqueueCorrections host agentId clock corrections) ⟨rt, s⟩
      = ((SibylMemory.enqueueCorrections host agentId clock corrections s).1,
        ⟨rt, (SibylMemory.enqueueCorrections host agentId clock corrections s).2⟩) := by
  induction corrections generalizing s with
  | nil => rfl
  | cons correction corrections ih =>
    rw [enqueueCorrections, SibylMemory.enqueueCorrections, alone_bind, enqueue_alone]
    cases hrun : Outbox.enqueue host (rewindOperation host agentId correction)
        (clock corrections.length) s with
    | mk out s₁ =>
      cases out with
      | error e => rfl
      | ok accepted => exact ih s₁

theorem reconcileSession_alone (c : RuntimeContext) (sid : String) (messages : List Message)
    (current : String × String) (clock : ReconcileClock) (rt : Runtime) (s : Store) :
    alone host (reconcileSession host c sid messages current clock) ⟨rt, s⟩
      = ((SibylMemory.reconcileSession host c sid messages current clock s).1,
        ⟨rt, (SibylMemory.reconcileSession host c sid messages current clock s).2⟩) := by
  rw [reconcileSession, SibylMemory.reconcileSession, alone_ask]
  simp only [HookCall.answer, alone_bind, recoverTurns_alone]
  cases hrec : SibylMemory.recoverTurns host c sid
      (counter ((s.indexedTurns sid).map IndexedTurnRecord.turnHash)) clock.recover (fun _ => 0)
      (priorTurns (committedTurns host messages) current) s with
  | mk out s₁ =>
    cases out with
    | error e => rfl
    | ok u =>
      simp only [alone_ask, HookCall.answer, alone_bind, enqueueCorrections_alone, rewindPlan]
      cases hcor : SibylMemory.enqueueCorrections host c.agentId clock.correct
          (planRewindCorrections ((s₁.indexedTurns sid).map IndexedTurn.ofRecord)
            (committedTurnFingerprints host messages)) s₁ with
      | mk out s₂ =>
        cases out with
        | error e => rfl
        | ok u => rfl

theorem reconcile_alone (rt : Runtime) (t : SyncTurn) (s : Store) :
    alone host (reconcile host rt t) ⟨rt, s⟩
      = ((rt.reconcile host t s).1, ⟨rt, (rt.reconcile host t s).2⟩) := by
  unfold reconcile Runtime.reconcile
  cases t.messages with
  | none => rfl
  | some messages =>
    dsimp only
    rw [alone_ask]
    simp only [HookCall.answer]
    cases s.sessionReconcileRequired (rt.activeSession t) with
    | true => exact reconcileSession_alone _ _ _ _ _ rt s
    | false => rfl

theorem syncTurn_alone (rt : Runtime) (t : SyncTurn) (s : Store) :
    alone host (syncTurn host rt t) ⟨rt, s⟩
      = ((rt.syncTurn host t s).1, ⟨(rt.syncTurn host t s).2.1, (rt.syncTurn host t s).2.2⟩) := by
  unfold syncTurn Runtime.syncTurn
  split
  · rfl
  · rw [alone_bind, reconcile_alone]
    cases hrec : rt.reconcile host t s with
    | mk out s₁ =>
      cases out with
      | error e => rfl
      | ok u =>
        simp only [alone_ask, HookCall.answer, alone_bind, enqueueCapture_alone]
        cases hcap : SibylMemory.enqueueCapture host rt.context (rt.activeSession t) (t.current host).1
            t.assistantContent (rt.consumed host t).1 t.now s₁ with
        | mk out s₂ =>
          cases out with
          | error e => rfl
          | ok record => rfl

end Hook

/-- A method that runs alone does what the provider's step does. -/
theorem begin_run (host : Host) (p : Provider) (e : Event) (hooked : ∀ d, e ≠ .deliver d) :
    (Hook.alone host (p.begin host e).2 ⟨(p.begin host e).1, p.store⟩).2 = p.step host e := by
  cases e with
  | restart c sid parent now => rfl
  | turnStart n message => rfl
  | switch sid parent reset rewound now => rfl
  | sync t => exact congrArg Prod.snd (Hook.syncTurn_alone p.runtime t p.store)
  | deliver d => exact absurd rfl (hooked d)

end SibylMemory
