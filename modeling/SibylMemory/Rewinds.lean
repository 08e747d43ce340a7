import SibylMemory.RuntimeRuns
import SibylMemory.Library.Runs

/-!
# Repeated reconciliations

A rewind correction keeps its id from one reconciliation to the next, but its dependency and
its expected revision are those of the moment it is planned. Planned again after a delivery it
is another mutation under a known id, which `enqueue` refuses.
-/

namespace SibylMemory
open Outbox

/-- `sync_turn` reconciles its session with a transcript. -/
structure Provider.Reconciles (host : Host) (p : Provider) (t : SyncTurn) (messages : List Message) :
    Prop where
  runs : p.runtime.skips host t = false
  messages : t.messages = some messages
  required : p.store.sessionReconcileRequired (p.runtime.activeSession t) = true

/-- A property of every reconciliation of a run. -/
def OnReconcile (host : Host) (P : Provider → SyncTurn → List Message → Prop) (p : Provider) :
    Event → Prop
  | .sync t => ∀ messages, p.Reconciles host t messages → P p t messages
  | _ => True

def Provider.leftOver (host : Host) (p : Provider) (t : SyncTurn) (messages : List Message) :
    List TurnRow :=
  surplus TurnRow.turnHash (counter (committedTurnFingerprints host messages))
    (p.store.turnsOf (p.runtime.activeSession t))

/-- A correction that is planned again finds the turn's revision, and whether the turn is queued,
as they were when the correction was enqueued. -/
def Unmoved (host : Host) (p : Provider) (t : SyncTurn) (messages : List Message) : Prop :=
  ∀ x ∈ p.leftOver host t messages, ∀ revision queued,
    p.store.known (rewindId host p.runtime.context.agentId x.operationId)
      = some (rewindMutation host p.runtime.context.agentId x revision queued) →
    x.revision = revision ∧ p.store.queued x = queued

/-- Besides the replacements of revision reconciliation, a turn has one rewind correction. -/
def SingleRewind (host : Host) (agentId : String) (s : Store) : Prop :=
  ∀ x ∈ s.turns.rows, s.copies (rewindId host agentId x.operationId) ≤ 1 ∧
    ∀ i m, s.known i = some m → m.kind = "rewind_correction" →
      m.endpoint = correctionEndpoint x.sourceId →
      i = rewindId host agentId x.operationId ∨
        ∃ j revision action, i = replacementId host j revision action

/-- A reconciliation that does not conflict with an earlier one. -/
structure Undisturbed (host : Host) (p : Provider) (t : SyncTurn) (messages : List Message) :
    Prop where
  quiet : ∀ message,
    (p.runtime.reconcile host t p.store).1 ≠ .error (.operationConflict message)
  noop : ∀ x ∈ p.leftOver host t messages, p.store.staled host p.runtime.context.agentId x = true →
    ∀ now, enqueue host (rewindOperation host p.runtime.context.agentId
      (correctionOf x x.revision (p.store.queued x))) now p.store = (.ok false, p.store)
  single : SingleRewind host p.runtime.context.agentId (p.step host (.sync t)).store
  proceeds : ∃ s turnNumber, p.runtime.reconcile host t p.store = (.ok (), s) ∧
    (p.step host (.sync t)).store = (enqueueCapture host p.runtime.context
      (p.runtime.activeSession t) (t.current host).1 t.assistantContent turnNumber t.now s).2

section Reconciliation
variable {host : Host} {p : Provider} {t : SyncTurn} {messages : List Message}

theorem reconcile_eq (h : p.Reconciles host t messages) :
    p.runtime.reconcile host t p.store = reconcileSession host p.runtime.context
      (p.runtime.activeSession t) messages (t.current host) t.clock p.store := by
  simp [Runtime.reconcile, h.messages, h.required]

theorem sync_store (hruns : p.runtime.skips host t = false) {s : Store}
    (hr : p.runtime.reconcile host t p.store = (.ok (), s)) :
    (p.step host (.sync t)).store = (enqueueCapture host p.runtime.context
      (p.runtime.activeSession t) (t.current host).1 t.assistantContent
      (p.runtime.consumed host t).1 t.now s).2 := by
  simp only [Provider.step, Runtime.syncTurn, hruns, Bool.false_eq_true, if_false, hr]
  split <;> rename_i hc <;> rw [hc]

theorem rewind_kind (host : Host) (agentId : String) (x : TurnRow) (revision : Option Int)
    (queued : Bool) : (rewindMutation host agentId x revision queued).endpoint
      = correctionEndpoint x.sourceId := rfl

theorem correctionEndpoint_inj {a b : String} (h : correctionEndpoint a = correctionEndpoint b) :
    a = b := by
  unfold correctionEndpoint at h
  have hl := congrArg String.toList h
  simp only [String.toList_append, List.append_assoc] at hl
  have hq := List.append_cancel_right (List.append_cancel_left hl)
  exact PercentEncoding.quote_injective (String.toList_inj.mp hq)

theorem single_rewind {agentId : String} {s : Store} (hs : Provenance host agentId s) :
    SingleRewind host agentId s := by
  intro x hx
  refine ⟨?_, fun i m hm hkind hend => ?_⟩
  · cases hk : s.known (rewindId host agentId x.operationId) with
    | none =>
      obtain ⟨ho, hh⟩ := (known_eq_none_iff s _).mp hk
      rw [Store.copies, count_key, count_key, ho, hh]
      decide
    | some m => exact le_of_eq (copies_of_known hs.disjoint hk)
  · cases hs.origin i m hm with
    | turn y indexed id kind =>
      rw [kind] at hkind
      exact absurd hkind (by decide)
    | rewind y indexed revision queued id intent =>
      rw [intent, rewind_kind] at hend
      have hxy := List.inj_on_of_nodup_map s.turns.sourceUnique indexed hx
        (correctionEndpoint_inj hend)
      exact .inl (hxy ▸ id)
    | replacement j action revision digest id => exact .inr ⟨j, revision, action, id⟩

theorem rewindRequest_hash (host : Host) (operationId : String) (revision : Option Int) :
    requestHash host (correctionJson (rewindRequest operationId revision))
      = host.sha256 ((PyValue.dict (rewindEntries operationId revision)).render true) :=
  requestHash_eq (canonicalRequest_ok ((rewindRequest_storable operationId revision).secrets _)
    (rewindRequest_canonical operationId revision))

theorem rewindMutation_inj (hcf : host.CollisionFree) {agentId : String} {x : TurnRow}
    {revision revision' : Option Int} {queued queued' : Bool}
    (h : rewindMutation host agentId x revision queued
      = rewindMutation host agentId x revision' queued') :
    revision = revision' ∧ queued = queued' := by
  constructor
  · have hhash := congrArg Mutation.requestHash h
    simp only [rewindMutation, rewindOperation, NewOperation.mutation, correctionOf,
      rewindRequest_hash] at hhash
    exact rewindEntries_inj (hcf hhash)
  · have hdep := congrArg Mutation.dependsOn h
    cases queued <;> cases queued' <;>
      simp [rewindMutation, rewindOperation, NewOperation.mutation, correctionOf] at hdep ⊢

theorem unmoved_iff (hcf : host.CollisionFree)
    (hs : Provenance host p.runtime.context.agentId p.store) :
    Unmoved host p t messages ↔ Replanned host p.runtime.context.agentId p.store p.store.queued
      (p.leftOver host t messages) := by
  obtain ⟨name, ha⟩ := p.runtime.context.agentId_prefix
  constructor
  · intro h x hx m hm
    have hxm := (mem_turnsOf.mp ((surplus_sublist _ _ _).subset hx)).1
    obtain ⟨revision, queued, rfl⟩ := hs.staled_mutation hcf ha hxm hm
    obtain ⟨hrevision, hqueued⟩ := h x hx revision queued hm
    rw [hrevision, hqueued]
  · intro h x hx revision queued hm
    obtain ⟨hrevision, hqueued⟩ := rewindMutation_inj hcf (h x hx _ hm)
    exact ⟨hrevision.symm, hqueued.symm⟩

theorem undisturbed_iff (hcf : host.CollisionFree)
    (hs : Provenance host p.runtime.context.agentId p.store) (h : p.Reconciles host t messages) :
    Undisturbed host p t messages ↔ Unmoved host p t messages := by
  rw [unmoved_iff hcf hs]
  obtain ⟨out, s', hrun, hs', hok, herr⟩ := reconcileSession_spec hcf hs
    (required_ne_empty hs h.required) messages (t.current host) t.clock
  rw [← reconcile_eq h] at hrun
  constructor
  · intro hu
    by_contra hr
    obtain ⟨message, rfl⟩ := herr hr
    exact hu.quiet message (by rw [hrun])
  · intro hr
    obtain ⟨rfl, -⟩ := hok hr
    refine ⟨fun message => by rw [hrun]; simp, fun x hx hst now => ?_,
      single_rewind (syncTurn_provenance hcf hs t).1, ⟨s', _, hrun, sync_store h.runs hrun⟩⟩
    obtain ⟨m, hm⟩ := Option.isSome_iff_exists.mp hst
    have hxm := (mem_turnsOf.mp ((surplus_sublist _ _ _).subset hx)).1
    exact (enqueue_rewind hcf hs hxm x.revision (p.store.queued x) now).1 m hm (hr x hx m hm)

end Reconciliation

/-- In every run of a provider over a fresh outbox, every reconciliation goes through exactly
when in every reconciliation no turn moved since its correction. -/
theorem reconciliations_undisturbed (host : Host) (hcf : host.CollisionFree) (c : RuntimeContext)
    (sid parent : String) (events : List Event) :
    Run.Always (Provider.step host) (OnReconcile host (Undisturbed host))
        (Provider.start c sid parent) events ↔
      Run.Always (Provider.step host) (OnReconcile host (Unmoved host))
        (Provider.start c sid parent) events := by
  refine Provider.always_congr hcf (fun p e hs => ?_) c sid parent events
  cases e with
  | sync t =>
    refine forall_congr' fun messages => ?_
    exact ⟨fun hu h => (undisturbed_iff hcf hs h).mp (hu h),
      fun hr h => (undisturbed_iff hcf hs h).mpr (hr h)⟩
  | _ => exact Iff.rfl

/-! ### A correction planned again after its turn was delivered -/

def transcript (texts : List String) : List Message :=
  texts.flatMap fun text => [[("role", .str "user"), ("content", .str text)],
    [("role", .str "assistant"), ("content", .str "ok")]]

def completedTurn (text : String) (texts : List String) : SyncTurn where
  userContent := text
  assistantContent := "ok"
  sessionId := "s"
  messages := some (transcript texts)
  clock := ⟨fun _ => 1, fun _ => 1, 1⟩
  now := 1

def completed (text : String) (texts : List String) : Event := .sync (completedTurn text texts)

def sampleTurnId (n : Nat) (text : String) : String :=
  turnOperationId Host.plain "hermes:w:i" "s" n n (turnHash Host.plain text "ok")

def delivered (operationId : String) : List Event :=
  [.deliver (.claim sampleConfig (samplePage "worker" "token" 2)),
    .deliver (.record operationId 1),
    .deliver (.apply { sampleClaim sampleOperation "worker" "token" 2 with operationId }
      (.success false (some 200)) 3)]

def rewound : Event := .switch "s" "" false true 1

def restarted : Event := .restart sampleAgent "s" "" 0

/-- Turn `a` is rewound while it is queued, and corrected; then it is delivered, and the provider
restarts. -/
def correctedThenDelivered : List Event :=
  [restarted, completed "a" ["a"], rewound, completed "b" ["b"]]
    ++ delivered (sampleTurnId 1 "a") ++ [restarted]

def sampleReplan : Provider :=
  Run.exec (Provider.step Host.plain) (Provider.start sampleAgent "s" "") correctedThenDelivered

/-- A known correction is planned with another dependency than it was enqueued with. -/
def Provider.redirects (host : Host) (p : Provider) (t : SyncTurn) (messages : List Message) :
    Bool :=
  (p.leftOver host t messages).any fun x =>
    match p.store.known (rewindId host p.runtime.context.agentId x.operationId) with
    | none => false
    | some m => decide (m.dependsOn ≠ if p.store.queued x then some x.operationId else none)

theorem redirects_moved {host : Host} (hcf : host.CollisionFree) {p : Provider} {t : SyncTurn}
    {messages : List Message} (hs : Provenance host p.runtime.context.agentId p.store)
    (h : p.redirects host t messages = true) : ¬ Unmoved host p t messages := by
  rw [unmoved_iff hcf hs]
  intro hr
  obtain ⟨x, hx, hm⟩ := List.any_eq_true.mp h
  split at hm
  · cases hm
  · rename_i m hk
    rw [hr x hx m hk] at hm
    simp [rewindMutation, rewindOperation, correctionOf, NewOperation.mutation] at hm

/-- The next reconciliation plans the correction without the dependency on the archived turn. -/
theorem replanned_correction_conflicts :
    ¬ Run.Always (Provider.step Host.plain) (OnReconcile Host.plain (Undisturbed Host.plain))
      (Provider.start sampleAgent "s" "") (correctedThenDelivered ++ [completed "c" ["c"]]) := by
  intro h
  have hsync : ∀ messages, sampleReplan.Reconciles Host.plain (completedTurn "c" ["c"]) messages →
      Undisturbed Host.plain sampleReplan (completedTurn "c" ["c"]) messages :=
    ((Run.always_append _ _ _).mp h).2.1
  -- one evaluation, so that the run is computed once
  obtain ⟨hrequired, hruns, hother⟩ :
      sampleReplan.store.sessionReconcileRequired
          (sampleReplan.runtime.activeSession (completedTurn "c" ["c"])) = true ∧
        sampleReplan.runtime.skips Host.plain (completedTurn "c" ["c"]) = false ∧
        sampleReplan.redirects Host.plain (completedTurn "c" ["c"]) (transcript ["c"]) = true := by
    decide +kernel
  obtain ⟨ha, hs⟩ : sampleReplan.Sound Host.plain sampleAgent.agentId :=
    Run.exec_invariant_of_step (fun p e hp => Provider.step_sound plain_collisionFree p e hp)
      (Provider.start_sound Host.plain sampleAgent "s" "")
  rw [← ha] at hs
  have hrec : sampleReplan.Reconciles Host.plain (completedTurn "c" ["c"]) (transcript ["c"]) :=
    ⟨hruns, rfl, hrequired⟩
  exact redirects_moved plain_collisionFree hs hother
    ((undisturbed_iff plain_collisionFree hs hrec).mp (hsync (transcript ["c"]) hrec))

theorem reconciliations_undisturbed_plain :
    Run.Always (Provider.step Host.plain) (OnReconcile Host.plain (Undisturbed Host.plain))
        (Provider.start sampleAgent "s" "") (correctedThenDelivered ++ [completed "c" ["c"]]) ↔
      Run.Always (Provider.step Host.plain) (OnReconcile Host.plain (Unmoved Host.plain))
        (Provider.start sampleAgent "s" "") (correctedThenDelivered ++ [completed "c" ["c"]]) :=
  reconciliations_undisturbed Host.plain plain_collisionFree sampleAgent "s" "" _

end SibylMemory
