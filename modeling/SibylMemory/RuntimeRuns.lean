import SibylMemory.Reconcile
import SibylMemory.Library.Runs

/-!
# Runs of the provider

A provider is a runtime over its outbox. A run is any order of restarts, turn starts, session
switches, completed turns and steps of the workers that deliver; every state it reaches keeps
the provenance of the operations.
-/

namespace SibylMemory
open Outbox

structure Provider where
  runtime : Runtime
  store : Store

inductive Delivery where
  | claim (config : OutboxConfig) (page : ClaimPage)
  | renew (config : OutboxConfig) (op : ClaimedOperation) (leaseSeconds : Option Int)
      (now stamp : Instant)
  | record (operationId : String) (revision : Int)
  | apply (op : ClaimedOperation) (result : AttemptResult) (now : Instant)
  /-- `_reconcile_correction` with the answer to its preview -/
  | preview (op : ClaimedOperation) (r : CorrectionRequest) (answer : CorrectionResponse)
      (now : Instant)
  | unblock (now : Instant)
  | release (ops : List ClaimedOperation) (now : Instant)

def Delivery.exec (host : Host) (s : Store) : Delivery → Store
  | .claim config page => (claimPage config page s).2
  | .renew config op lease now stamp => (renewClaim config op lease now stamp s).2
  | .record operationId revision => (recordTurnRevision operationId revision s).2
  | .apply op result now => (applyResult op result now s).2
  | .preview op r answer now => (previewDone host op r answer now s).2
  | .unblock now => (unblockAuth now s).2
  | .release ops now => (releaseUnattempted ops now s).2

def Outbox.Call.Delivers : Call → Prop
  | .claimPage _ _ | .renewClaim _ _ _ _ _ | .recordTurnRevision _ _ | .applyResult _ _ _
  | .supersede _ _ _ | .unblockAuth _ | .releaseUnattempted _ _ => True
  | _ => False

theorem delivery_cases (host : Host) (s : Store) (d : Delivery) :
    d.exec host s = s ∨ ∃ c : Call, c.Delivers ∧ d.exec host s = (c.exec host s).2 := by
  cases d with
  | claim config page => exact .inr ⟨.claimPage config page, trivial, rfl⟩
  | renew config op lease now stamp => exact .inr ⟨.renewClaim config op lease now stamp, trivial, rfl⟩
  | record operationId revision => exact .inr ⟨.recordTurnRevision operationId revision, trivial, rfl⟩
  | apply op result now => exact .inr ⟨.applyResult op result now, trivial, rfl⟩
  | unblock now => exact .inr ⟨.unblockAuth now, trivial, rfl⟩
  | release ops now => exact .inr ⟨.releaseUnattempted ops now, trivial, rfl⟩
  | preview op r answer now =>
    change (previewDone host op r answer now s).2 = s ∨
      ∃ c : Call, c.Delivers ∧ (previewDone host op r answer now s).2 = (c.exec host s).2
    unfold previewDone
    split
    · exact .inl rfl
    · exact .inl rfl
    · rename_i replacement _
      refine .inr ⟨.supersede op replacement now, trivial, ?_⟩
      simp only [Call.exec, replyWith]
      split <;> rename_i hrun <;> rw [hrun]

inductive Event where
  /-- a new process or `SibylMemoryProvider.initialize`, for the same agent -/
  | restart (c : RuntimeContext) (sessionId parentSessionId : String) (now : Instant)
  | turnStart (turnNumber : Int) (message : String)
  | switch (newSessionId parentSessionId : String) (reset rewound : Bool) (now : Instant)
  | sync (t : SyncTurn)
  | deliver (d : Delivery)

/-- The context of a restart, under the agent id that the provider has. -/
def RuntimeContext.ofAgent (c old : RuntimeContext) : RuntimeContext :=
  { c with agentId := old.agentId, agentId_prefix := old.agentId_prefix }

def Provider.step (host : Host) (p : Provider) : Event → Provider
  | .restart c sid parent now =>
    let runtime := Runtime.new (c.ofAgent p.runtime.context) sid parent
    ⟨runtime, ( Runtime.initialize runtime now p.store).2⟩
  | .turnStart n message => { p with runtime := p.runtime.onTurnStart host n message }
  | .switch sid parent reset _ now =>
    let (_, runtime, store) := p.runtime.onSessionSwitch sid parent reset now p.store
    ⟨runtime, store⟩
  | .sync t =>
    let (_, runtime, store) := p.runtime.syncTurn host t p.store
    ⟨runtime, store⟩
  | .deliver d => { p with store := d.exec host p.store }

/-- A runtime over a fresh outbox, before `initialize`. -/
def Provider.start (c : RuntimeContext) (sessionId parentSessionId : String) : Provider :=
  ⟨Runtime.new c sessionId parentSessionId, Store.empty⟩

/-! ### Provenance along runs -/

section Steps
variable {host : Host} {agentId : String} {s : Store}

theorem delivery_provenance (d : Delivery) (hs : Provenance host agentId s) :
    Provenance host agentId (d.exec host s) := by
  cases d with
  | claim config page => exact exec_provenance (.claim config page) hs
  | renew config op lease now stamp => exact exec_provenance (.renew config op lease now stamp) hs
  | record operationId revision => exact exec_provenance (.record operationId revision) hs
  | apply op result now => exact exec_provenance (.apply op result now) hs
  | unblock now => exact exec_provenance (.unblock now) hs
  | release ops now => exact exec_provenance (.release ops now) hs
  | preview op r answer now =>
    have hkeep : Provenance host agentId (previewDone host op r answer now s).2 := by
      unfold previewDone
      split
      · exact hs
      · exact hs
      · rename_i replacement hr
        have hp := exec_provenance (.replace op replacement now ⟨r, answer, hr⟩) hs
        have hstore : (Call.supersede op replacement now).exec host s
            = replyWith (fun _ => .done) (supersede host op replacement now s) := rfl
        rw [hstore] at hp
        cases hsup : supersede host op replacement now s with
        | mk out s' =>
          rw [hsup] at hp
          cases out <;> exact hp
    exact hkeep

theorem required_ne_empty (hs : Provenance host agentId s) {sid : String}
    (h : s.sessionReconcileRequired sid = true) : sid ≠ "" := by
  rintro rfl
  rw [Store.sessionReconcileRequired, hs.named] at h
  cases h

theorem reconcile_provenance (hcf : host.CollisionFree) {rt : Runtime}
    (hs : Provenance host rt.context.agentId s) (t : SyncTurn) :
    Provenance host rt.context.agentId (rt.reconcile host t s).2 := by
  unfold Runtime.reconcile
  split
  · exact hs
  · rename_i messages _
    split
    · rename_i hreq
      obtain ⟨out, s', hrun, hs', -, -⟩ := reconcileSession_spec hcf hs (required_ne_empty hs hreq)
        messages (t.current host) t.clock
      rw [hrun]
      exact hs'
    · exact hs

theorem consumed_context (host : Host) (rt : Runtime) (t : SyncTurn) :
    (rt.consumed host t).2.context = rt.context := by
  unfold Runtime.consumed
  split <;> rfl

theorem syncTurn_provenance (hcf : host.CollisionFree) {rt : Runtime}
    (hs : Provenance host rt.context.agentId s) (t : SyncTurn) :
    Provenance host rt.context.agentId (rt.syncTurn host t s).2.2 ∧
      (rt.syncTurn host t s).2.1.context = rt.context := by
  have hrec := reconcile_provenance hcf hs t
  unfold Runtime.syncTurn
  split
  · exact ⟨hs, rfl⟩
  · split
    · rename_i s' hr
      rw [hr] at hrec
      exact ⟨hrec, rfl⟩
    · rename_i s' hr
      rw [hr] at hrec
      have hcap := enqueueCapture_provenance rfl (rt.activeSession t) (t.current host).1
        t.assistantContent (rt.consumed host t).1 t.now hrec
      dsimp only
      split <;> rename_i hc <;> rw [hc] at hcap <;> exact ⟨hcap, consumed_context host rt t⟩

def Provider.Sound (host : Host) (agentId : String) (p : Provider) : Prop :=
  p.runtime.context.agentId = agentId ∧ Provenance host agentId p.store

theorem Provider.step_sound (hcf : host.CollisionFree) (p : Provider) (e : Event)
    (hp : p.Sound host agentId) : (p.step host e).Sound host agentId := by
  obtain ⟨ha, hs⟩ := hp
  cases e with
  | restart c sid parent now => exact ⟨ha, exec_provenance (.mark sid parent true now) hs⟩
  | turnStart n message =>
    refine ⟨?_, hs⟩
    simp only [Provider.step, Runtime.onTurnStart]
    split <;> exact ha
  | switch sid parent reset rewound now => exact ⟨ha, exec_provenance (.mark sid _ true now) hs⟩
  | sync t =>
    subst ha
    obtain ⟨hprov, hctx⟩ := syncTurn_provenance hcf hs t
    exact ⟨by rw [Provider.step]; exact congrArg RuntimeContext.agentId hctx, hprov⟩
  | deliver d => exact ⟨ha, delivery_provenance d hs⟩

end Steps

theorem Provider.start_sound (host : Host) (c : RuntimeContext) (sid parent : String) :
    (Provider.start c sid parent).Sound host c.agentId := ⟨rfl, provenance_empty host c.agentId⟩

/-- Properties of an event that agree under the provenance of the store hold on the same runs. -/
theorem Provider.always_congr {host : Host} (hcf : host.CollisionFree)
    {P Q : Provider → Event → Prop}
    (h : ∀ p e, Provenance host p.runtime.context.agentId p.store → (P p e ↔ Q p e))
    (c : RuntimeContext) (sid parent : String) (events : List Event) :
    Run.Always (Provider.step host) P (Provider.start c sid parent) events ↔
      Run.Always (Provider.step host) Q (Provider.start c sid parent) events := by
  have hstep : ∀ (p : Provider) (e : Event), p.Sound host c.agentId → True →
      (p.step host e).Sound host c.agentId := fun p e hp _ => Provider.step_sound hcf p e hp
  have hagree : ∀ (p : Provider) (e : Event), p.Sound host c.agentId → True → (P p e ↔ Q p e) :=
    fun p e hp _ => h p e (hp.1.symm ▸ hp.2)
  exact Run.always_congr_of_invariant hstep hagree (Provider.start_sound host c sid parent)
    (Run.always_of_forall (fun _ _ => trivial) _ _)

end SibylMemory
