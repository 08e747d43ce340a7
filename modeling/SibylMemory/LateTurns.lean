import SibylMemory.LiveCaptures

/-!
# Rewinds and turns that arrive late

The reconcile flag of a session does not say which transcript it waits for: a turn completed
before a rewind may arrive after it, and reconciles with the transcript of before.
-/

namespace SibylMemory
open Outbox

/-! ### The reconcile flag -/

/-- The reconcile flag of a session that is known. -/
def Outbox.Store.flag (s : Store) (sid : String) : Option Bool :=
  (s.sessions.find sid).map SessionRow.reconcileRequired

theorem required_iff (s : Store) (sid : String) :
    s.sessionReconcileRequired sid = true ↔ s.flag sid = some true := by
  unfold Store.sessionReconcileRequired Store.flag
  cases s.sessions.find sid <;> simp

section Flags
variable {host : Host} {s s' : Store} {sid : String} {b : Bool}

/-- The call sets the reconcile flag of the session. -/
def Outbox.Call.Flags (sid : String) : Call → Prop
  | .markSessionReconcile sid' _ _ _ => sid' = sid
  | .indexTurn _ _ _ _ _ _ => True
  | _ => False

theorem effect_flag {c : Call} {r : Reply} (h : Effect host s c r s') (hc : ¬ c.Flags sid)
    (hb : s.flag sid = some b) : s'.flag sid = some b := by
  have hsession : ∀ k now parent n (sessions : KeyedTable SessionRow.sessionId),
      (∀ i, sessions.find i = if i = k then some (((s.session k now).adopt parent now).advance n now)
        else s.sessions.find i) → (sessions.find sid).map SessionRow.reconcileRequired = some b := by
    intro k now parent n sessions hs
    rw [hs]
    split
    · rename_i hk
      subst hk
      unfold Store.flag at hb
      unfold Store.session
      cases hf : s.sessions.find sid with
      | none => rw [hf] at hb; cases hb
      | some row => rw [hf] at hb; exact hb
    · exact hb
  cases h with
  | reserve nonempty session => exact hsession _ _ _ _ _ session
  | turn nonempty made valid canonical named fresh insert index session =>
    exact hsession _ _ _ _ _ session
  | index => exact absurd trivial hc
  | mark nonempty session =>
    rw [Store.flag, session, if_neg (fun h => hc h.symm)]
    exact hb
  | _ => exact hb

theorem exec_flag (host : Host) (c : Call) (hc : ¬ c.Flags sid) (hb : s.flag sid = some b) :
    (c.exec host s).2.flag sid = some b := by
  cases h : c.exec host s with
  | mk out s' =>
    cases out with
    | error e => rw [exec_error h]; exact hb
    | ok r => exact effect_flag (exec_effect h) hc hb

theorem enqueueCapture_flag (host : Host) (c : RuntimeContext) (sid' u a : String)
    (turnNumber : Option Int) (now : Instant) (hb : s.flag sid = some b) :
    (enqueueCapture host c sid' u a turnNumber now s).2.flag sid = some b :=
  exec_flag host (.enqueueTurn sid' _ _ now) (fun h => h) hb

theorem recoverTurns_flag (host : Host) (c : RuntimeContext) (sid' : String)
    (counts seen : String → Nat) (clock : Nat → Instant) (turns : List (String × String))
    (hb : s.flag sid = some b) :
    (recoverTurns host c sid' counts clock seen turns s).2.flag sid = some b := by
  induction turns generalizing s seen with
  | nil => exact hb
  | cons turn turns ih =>
    obtain ⟨u, a⟩ := turn
    rw [recoverTurns]
    split
    · have hcap := enqueueCapture_flag host c sid' u a none (clock turns.length) hb
      split <;> rename_i hrun <;> rw [hrun] at hcap
      · exact ih _ hcap
      · exact hcap
    · exact ih _ hb

theorem enqueueCorrections_flag (host : Host) (agentId : String) (clock : Nat → Instant)
    (corrections : List StaleCorrectionIntent) (hb : s.flag sid = some b) :
    (enqueueCorrections host agentId clock corrections s).2.flag sid = some b := by
  induction corrections generalizing s with
  | nil => exact hb
  | cons correction corrections ih =>
    have hcall := exec_flag host
      (.enqueue (rewindOperation host agentId correction) (clock corrections.length))
      (fun h => h) hb
    rw [enqueueCorrections]
    cases hrun : enqueue host (rewindOperation host agentId correction) (clock corrections.length) s with
    | mk out s₁ =>
      simp only [Call.exec, hrun] at hcall
      cases out with
      | error e => exact hcall
      | ok accepted => exact ih hcall

theorem markSessionReconcile_flag {parent : String} {required : Bool} {now : Instant}
    (h : markSessionReconcile sid parent required now s = (.ok (), s')) :
    s'.flag sid = some required := by
  rw [markSessionReconcile, transact_ok] at h
  simp only [guard_ok, bind_ok] at h
  obtain ⟨-, sessions, hm, he⟩ := h
  cases he
  rw [Store.flag, markSession_ok hm, if_pos rfl]
  rfl

theorem reconcileSession_clears {c : RuntimeContext} {messages : List Message}
    {current : String × String} {clock : ReconcileClock}
    (h : reconcileSession host c sid messages current clock s = (.ok (), s')) :
    s'.flag sid = some false := by
  unfold reconcileSession at h
  dsimp only at h
  split at h
  · cases h
  · split at h
    · cases h
    · exact markSessionReconcile_flag h

theorem reconcileSession_flag {c : RuntimeContext} {sid' : String} {messages : List Message}
    {current : String × String} {clock : ReconcileClock} {out : Except OutboxException Unit}
    (h : reconcileSession host c sid' messages current clock s = (out, s'))
    (hc : sid' ≠ sid ∨ ∃ e, out = .error e) (hb : s.flag sid = some b) : s'.flag sid = some b := by
  unfold reconcileSession at h
  dsimp only at h
  have hrec := recoverTurns_flag host c sid'
    (counter ((s.indexedTurns sid').map IndexedTurnRecord.turnHash)) (fun _ => 0) clock.recover
    (priorTurns (committedTurns host messages) current) hb
  split at h
  · rename_i hr
    rw [hr] at hrec
    cases h
    exact hrec
  · rename_i s₁ hr
    rw [hr] at hrec
    have hcor := enqueueCorrections_flag host c.agentId clock.correct
      (rewindPlan host sid' messages s₁) hrec
    split at h
    · rename_i hk
      rw [hk] at hcor
      cases h
      exact hcor
    · rename_i s₂ hk
      rw [hk] at hcor
      cases out with
      | error e =>
        have hexec : (Call.markSessionReconcile sid' "" false clock.mark).exec host s₂
            = (.error e, s') := by
          simp only [Call.exec, replyWith, h]
          rfl
        have hmark := exec_error hexec
        rw [hmark]
        exact hcor
      | ok u =>
        have hne : sid' ≠ sid := by
          rcases hc with hc | ⟨e, he⟩
          · exact hc
          · cases he
        have hmark := exec_flag host (.markSessionReconcile sid' "" false clock.mark) hne hcor
        simp only [Call.exec, replyWith, h] at hmark
        exact hmark

theorem mark_required {sid' parent : String} {now : Instant} (hb : s.flag sid = some true) :
    (markSessionReconcile sid' parent true now s).2.flag sid = some true := by
  cases hrun : markSessionReconcile sid' parent true now s with
  | mk out s' =>
    cases out with
    | error e =>
      have hexec : (Call.markSessionReconcile sid' parent true now).exec Host.plain s
          = (.error e, s') := by
        simp only [Call.exec, replyWith, hrun]
        rfl
      have hsame := exec_error hexec
      rw [hsame]
      exact hb
    | ok u =>
      by_cases hs : sid' = sid
      · exact hs ▸ markSessionReconcile_flag hrun
      · have hother := exec_flag Host.plain (.markSessionReconcile sid' parent true now) hs hb
        simp only [Call.exec, replyWith, hrun] at hother
        exact hother

theorem delivery_flag (d : Delivery) (hb : s.flag sid = some b) :
    (d.exec host s).flag sid = some b := by
  rcases delivery_cases host s d with h | ⟨c, hc, h⟩ <;> rw [h]
  · exact hb
  · refine exec_flag host c (fun hflags => ?_) hb
    cases c <;> first | exact hc | exact hflags

end Flags

section Steps
variable {host : Host} {p : Provider} {t : SyncTurn} {messages : List Message}

theorem Provider.Reconciles.outcome (hcf : host.CollisionFree)
    (hs : Provenance host p.runtime.context.agentId p.store) (h : p.Reconciles host t messages) :
    ∃ out s', reconcileSession host p.runtime.context (p.runtime.activeSession t) messages
        (t.current host) t.clock p.store = (out, s') ∧
      p.runtime.reconcile host t p.store = (out, s') ∧
      (Unmoved host p t messages → out = .ok ()) ∧
      (¬ Unmoved host p t messages → ∃ e, out = .error e) := by
  obtain ⟨out, s', hrun, -, hok, herr⟩ := reconcileSession_spec hcf hs
    (required_ne_empty hs h.required) messages (t.current host) t.clock
  refine ⟨out, s', hrun, by rw [reconcile_eq h, hrun], fun hu => (hok ((unmoved_iff hcf hs).mp hu)).1,
    fun hu => ?_⟩
  obtain ⟨message, hm⟩ := herr fun hr => hu ((unmoved_iff hcf hs).mpr hr)
  exact ⟨_, hm⟩

theorem Provider.Reconciles.clears (hcf : host.CollisionFree)
    (hs : Provenance host p.runtime.context.agentId p.store) (h : p.Reconciles host t messages)
    (hu : Unmoved host p t messages) :
    (p.step host (.sync t)).store.flag (p.runtime.activeSession t) = some false := by
  obtain ⟨out, s', hsession, hrun, hok, -⟩ := h.outcome hcf hs
  obtain rfl := hok hu
  rw [sync_store h.runs hrun]
  exact enqueueCapture_flag _ _ _ _ _ _ _ (reconcileSession_clears hsession)

theorem Provider.step_flag (hcf : host.CollisionFree)
    (hs : Provenance host p.runtime.context.agentId p.store) {e : Event} {sid : String}
    (hb : p.store.flag sid = some true)
    (hn : ∀ t messages, e = .sync t → p.Reconciles host t messages →
      p.runtime.activeSession t = sid → ¬ Unmoved host p t messages) :
    (p.step host e).store.flag sid = some true := by
  cases e with
  | restart c sid' parent now => exact mark_required hb
  | turnStart n message => exact hb
  | switch sid' parent reset rewound now => exact mark_required hb
  | deliver d => exact delivery_flag d hb
  | sync t =>
    by_cases hskip : p.runtime.skips host t = true
    · have hsame : (p.step host (.sync t)).store = p.store := by
        simp only [Provider.step, Runtime.syncTurn, hskip, if_true]
      rw [hsame]
      exact hb
    rw [Bool.not_eq_true] at hskip
    have hreconcile : (p.runtime.reconcile host t p.store).2.flag sid = some true := by
      unfold Runtime.reconcile
      split
      · exact hb
      · rename_i messages hmessages
        split
        · rename_i hreq
          have hrec : p.Reconciles host t messages := ⟨hskip, hmessages, hreq⟩
          obtain ⟨out, s', hsession, -, -, herr⟩ := hrec.outcome hcf hs
          rw [hsession]
          refine reconcileSession_flag hsession ?_ hb
          by_cases he : p.runtime.activeSession t = sid
          · exact .inr (herr (hn t messages rfl hrec he))
          · exact .inl he
        · exact hb
    simp only [Provider.step, Runtime.syncTurn, hskip, Bool.false_eq_true, if_false]
    split
    · rename_i hrun
      rw [hrun] at hreconcile
      exact hreconcile
    · rename_i hrun
      rw [hrun] at hreconcile
      have hcap := enqueueCapture_flag host p.runtime.context (p.runtime.activeSession t)
        (t.current host).1 t.assistantContent (p.runtime.consumed host t).1 t.now hreconcile
      split <;> rename_i hc <;> rw [hc] at hcap <;> exact hcap

end Steps

/-! ### Rewinds in a run -/

/-- An event with the number of rewinds behind the transcript that a completed turn carries. -/
structure Dated where
  event : Event
  epoch : Nat

/-- A provider with the number of rewinds of each session so far, and the last of them whose
request to reconcile still stands. -/
structure Timeline where
  provider : Provider
  rewinds : String → Nat
  outstanding : String → Nat

def Timeline.start (c : RuntimeContext) (sid parent : String) : Timeline where
  provider := Provider.start c sid parent
  rewinds _ := 0
  outstanding _ := 0

def rewoundSession : Event → Option String
  | .switch sid _ _ true _ => some sid
  | _ => none

def Timeline.step (host : Host) (l : Timeline) (d : Dated) : Timeline :=
  let provider := l.provider.step host d.event
  let rewinds := fun sid => if rewoundSession d.event = some sid then l.rewinds sid + 1 else l.rewinds sid
  { provider, rewinds
    outstanding := fun sid =>
      if provider.store.sessionReconcileRequired sid = false then 0
      else if rewoundSession d.event = some sid then rewinds sid else l.outstanding sid }

/-- A completed turn arrives with a transcript of after a rewind, and of after all that were
announced, and `sync_turn` returns. -/
structure Timeline.Returns (host : Host) (l : Timeline) (d : Dated) (t : SyncTurn)
    (messages : List Message) : Prop where
  event : d.event = .sync t
  messages : t.messages = some messages
  rewound : 0 < d.epoch
  latest : l.rewinds (l.provider.runtime.activeSession t) ≤ d.epoch
  returns : ∃ r, (l.provider.runtime.syncTurn host t l.provider.store).1 = .ok r

/-- Every capture of a session that a transcript lacks has its correction. -/
def Settled (host : Host) (agentId : String) (s : Store) (sid : String) (messages : List Message) :
    Prop :=
  ∀ x ∈ s.turnsOf sid, x.turnHash ∉ committedTurnFingerprints host messages →
    s.staled host agentId x = true

structure Remembered (host : Host) (l : Timeline) (d : Dated) : Prop where
  settled : ∀ t messages, l.Returns host d t messages →
    Settled host l.provider.runtime.context.agentId (l.step host d).provider.store
      (l.provider.runtime.activeSession t) messages
  cleared : ∀ sid, l.provider.store.sessionReconcileRequired sid = true →
    (l.step host d).provider.store.sessionReconcileRequired sid = false →
    ∃ t messages, d.event = .sync t ∧ l.provider.Reconciles host t messages ∧
      l.provider.runtime.activeSession t = sid ∧ l.outstanding sid ≤ d.epoch

/-- No late turn meets the request of a rewind, and a turn of after it still meets the request or
finds nothing to correct. -/
structure InTime (host : Host) (l : Timeline) (d : Dated) : Prop where
  due : ∀ t messages, l.Returns host d t messages →
    (l.provider.Reconciles host t messages ∨ Settled host l.provider.runtime.context.agentId
      l.provider.store (l.provider.runtime.activeSession t) messages) ∧
    (l.provider.runtime.skips host t = false →
      t.digest host ∈ committedTurnFingerprints host messages)
  timely : ∀ t messages, d.event = .sync t → l.provider.Reconciles host t messages →
    Unmoved host l.provider t messages →
    l.outstanding (l.provider.runtime.activeSession t) ≤ d.epoch

section Settling
variable {host : Host} {agentId : String} {p : Provider} {t : SyncTurn} {messages : List Message}
  {s s' : Store} {sid : String}

theorem Reconciled.settled {fingerprints : List String} {prior : List String}
    {recovered : List TurnRow} (hf : fingerprints = committedTurnFingerprints host messages)
    (h : Reconciled host agentId s s' sid fingerprints prior recovered) :
    Settled host agentId s' sid messages := by
  intro x hx habsent
  rw [← hf] at habsent
  have hs := mem_surplus_of_zero TurnRow.turnHash (b := counter fingerprints) hx
    (List.count_eq_zero.mpr habsent)
  rw [h.staled x hx, decide_eq_true hs, Bool.or_true]

theorem Appended.settled_iff (hcf : host.CollisionFree) {name : String}
    (ha : agentId = "hermes:" ++ name) (hs : Provenance host agentId s)
    (hs' : Provenance host agentId s') {digest : String} {x : TurnRow}
    (h : Appended s s' sid digest x) : Settled host agentId s' sid messages ↔
      Settled host agentId s sid messages ∧ digest ∈ committedTurnFingerprints host messages := by
  obtain ⟨hstaled, hnew⟩ := (Extended.cons hs h (Extended.refl s' sid)).staled hcf ha hs hs'
  have hindex := h.turnsOf hs
  have hx : s'.staled host agentId x = false := by
    rw [hstaled x (by rw [hindex]; simp)]
    exact hnew x List.mem_cons_self
  constructor
  · intro hset
    constructor
    · intro y hy habsent
      have hy' : y ∈ s'.turnsOf sid := by
        rw [hindex]
        exact List.mem_append_left _ hy
      rw [← hstaled y hy']
      exact hset y hy' habsent
    · by_contra habsent
      have hcontra := hset x (by rw [hindex]; simp) (by rw [h.hash]; exact habsent)
      rw [hx] at hcontra
      cases hcontra
  · rintro ⟨hset, hin⟩ y hy habsent
    rw [hstaled y hy]
    rw [hindex] at hy
    rcases List.mem_append.mp hy with hy | hy
    · exact hset y hy habsent
    · rw [List.mem_singleton.mp hy, h.hash] at habsent
      exact absurd hin habsent

/-- After a `sync_turn` that returns, the session is settled exactly when it was, or was reconciled,
and the transcript has the completed turn. -/
theorem settled_after_iff (hcf : host.CollisionFree)
    (hs : Provenance host p.runtime.context.agentId p.store) (hm : t.messages = some messages)
    {r : Option String} (hret : (p.runtime.syncTurn host t p.store).1 = .ok r) :
    Settled host p.runtime.context.agentId (p.step host (.sync t)).store
        (p.runtime.activeSession t) messages ↔
      (p.Reconciles host t messages ∨ Settled host p.runtime.context.agentId p.store
        (p.runtime.activeSession t) messages) ∧
      (p.runtime.skips host t = false →
        t.digest host ∈ committedTurnFingerprints host messages) := by
  obtain ⟨name, ha⟩ := p.runtime.context.agentId_prefix
  have hs₂ : Provenance host p.runtime.context.agentId (p.step host (.sync t)).store :=
    (syncTurn_provenance hcf hs t).1
  by_cases hskip : p.runtime.skips host t = true
  · have hsame : (p.step host (.sync t)).store = p.store := by
      simp only [Provider.step, Runtime.syncTurn, hskip, if_true]
    have hnot : ¬ p.Reconciles host t messages := fun h => by
      have hruns := h.runs
      rw [hskip] at hruns
      cases hruns
    rw [hsame, hskip]
    simp [hnot]
  rw [Bool.not_eq_true] at hskip
  by_cases hreq : p.store.sessionReconcileRequired (p.runtime.activeSession t) = true
  · have hrec : p.Reconciles host t messages := ⟨hskip, hm, hreq⟩
    obtain ⟨s₁, recovered, x, hs₁, hreconciled, happ⟩ := hrec.run hcf hs hret
    rw [happ.settled_iff hcf ha hs₁ hs₂]
    simp [hrec, hreconciled.settled rfl, hskip]
  · have hnot : ¬ p.Reconciles host t messages := fun h => hreq h.required
    have hrun : p.runtime.reconcile host t p.store = (.ok (), p.store) := by
      simp [Runtime.reconcile, hm, hreq]
    have hsync := hret
    simp only [Runtime.syncTurn, hskip, Bool.false_eq_true, if_false, hrun] at hsync
    have happ : ∃ x, Appended p.store (p.step host (.sync t)).store (p.runtime.activeSession t)
        (t.digest host) x := by
      have hstore := sync_store hskip hrun
      cases hcap : enqueueCapture host p.runtime.context (p.runtime.activeSession t)
          (t.current host).1 t.assistantContent (p.runtime.consumed host t).1 t.now p.store with
      | mk result s₂ =>
        rw [hcap] at hsync hstore
        cases result with
        | error e => cases hsync
        | ok record =>
          rw [hstore]
          exact enqueueCapture_ok hcap
    obtain ⟨x, happ⟩ := happ
    rw [happ.settled_iff hcf ha hs hs₂]
    simp [hnot, hskip]

theorem remembered_iff (hcf : host.CollisionFree) {l : Timeline} {d : Dated}
    (hs : Provenance host l.provider.runtime.context.agentId l.provider.store) :
    Remembered host l d ↔ InTime host l d := by
  constructor
  · intro h
    refine ⟨fun t messages hr => ?_, fun t messages he hrec hu => ?_⟩
    · obtain ⟨r, hret⟩ := hr.returns
      have hset := h.settled t messages hr
      simp only [Timeline.step, hr.event] at hset
      exact (settled_after_iff hcf hs hr.messages hret).mp hset
    · have hclear : (l.step host d).provider.store.sessionReconcileRequired
          (l.provider.runtime.activeSession t) = false := by
        rw [← Bool.not_eq_true, required_iff]
        simp only [Timeline.step, he, hrec.clears hcf hs hu]
        decide
      obtain ⟨t', messages', he', -, hsid, hle⟩ := h.cleared _ hrec.required hclear
      exact hle
  · intro h
    refine ⟨fun t messages hr => ?_, fun sid hreq hclear => ?_⟩
    · obtain ⟨r, hret⟩ := hr.returns
      simp only [Timeline.step, hr.event]
      exact (settled_after_iff hcf hs hr.messages hret).mpr (h.due t messages hr)
    · by_contra hn
      have hkept := Provider.step_flag hcf hs (e := d.event) ((required_iff _ _).mp hreq)
        (fun t messages he hrec hsid hu => hn ⟨t, messages, he, hrec, hsid,
          hsid ▸ h.timely t messages he hrec hu⟩)
      rw [← required_iff] at hkept
      simp only [Timeline.step, hkept] at hclear
      cases hclear

end Settling

/-- In every run, no rewind is forgotten exactly when its request meets no late turn, and every
turn of after it meets the request or finds nothing to correct. -/
theorem rewinds_remembered (host : Host) (hcf : host.CollisionFree) (c : RuntimeContext)
    (sid parent : String) (events : List Dated) :
    Run.Always (Timeline.step host) (Remembered host) (Timeline.start c sid parent) events ↔
      Run.Always (Timeline.step host) (InTime host) (Timeline.start c sid parent) events := by
  refine Run.always_congr_of_invariant (A := fun _ _ => True)
    (I := fun l => l.provider.Sound host c.agentId)
    (fun l d hl _ => Provider.step_sound hcf l.provider d.event hl)
    (fun l d hl _ => ?_) (Provider.start_sound host c sid parent)
    (Run.always_of_forall (fun _ _ => trivial) _ _)
  obtain ⟨ha, hs⟩ := hl
  rw [← ha] at hs
  exact remembered_iff hcf hs

/-! ### A late turn between a rewind and the next turn -/

def beforeNext : List Dated :=
  [⟨restarted, 0⟩, ⟨completed "a" ["a"], 0⟩, ⟨rewound, 0⟩, ⟨completed "b" ["a", "b"], 0⟩]

def sampleLate : Timeline :=
  Run.exec (Timeline.step Host.plain) (Timeline.start sampleAgent "s" "") beforeNext

def nextTurn : Dated := ⟨completed "c" ["c"], 1⟩

def leaves (host : Host) (agentId : String) (s : Store) (sid : String) (messages : List Message) :
    Bool :=
  (s.turnsOf sid).any fun x =>
    decide (x.turnHash ∉ committedTurnFingerprints host messages) && !s.staled host agentId x

theorem leaves_not_settled {host : Host} {agentId : String} {s : Store} {sid : String}
    {messages : List Message} (h : leaves host agentId s sid messages = true) :
    ¬ Settled host agentId s sid messages := by
  intro hset
  obtain ⟨x, hx, hl⟩ := List.any_eq_true.mp h
  simp only [Bool.and_eq_true, Bool.not_eq_true', decide_eq_true_eq] at hl
  have hs := hset x hx hl.1
  rw [hl.2] at hs
  cases hs

/-- The late turn clears the request, and the turns before the rewind stay live. -/
theorem late_turn_forgets_rewind :
    ¬ Run.Always (Timeline.step Host.plain) (Remembered Host.plain)
      (Timeline.start sampleAgent "s" "") (beforeNext ++ [nextTurn]) := by
  intro h
  have hnext : Remembered Host.plain sampleLate nextTurn := ((Run.always_append _ _ _).mp h).2.1
  -- one evaluation, so that the run is computed once
  obtain ⟨hlatest, hreturns, hleaves⟩ :
      sampleLate.rewinds (sampleLate.provider.runtime.activeSession
          (completedTurn "c" ["c"])) ≤ 1 ∧
        returned (sampleLate.provider.runtime.syncTurn Host.plain
          (completedTurn "c" ["c"]) sampleLate.provider.store).1 = true ∧
        leaves Host.plain sampleLate.provider.runtime.context.agentId
          (sampleLate.step Host.plain nextTurn).provider.store
          (sampleLate.provider.runtime.activeSession (completedTurn "c" ["c"]))
          (transcript ["c"]) = true := by
    decide +kernel
  obtain ⟨operationId, hret⟩ := (returned_iff _).mp hreturns
  exact leaves_not_settled hleaves (hnext.settled (completedTurn "c" ["c"]) (transcript ["c"])
    ⟨rfl, rfl, by decide, hlatest, _, hret⟩)

theorem rewinds_remembered_plain :
    Run.Always (Timeline.step Host.plain) (Remembered Host.plain)
        (Timeline.start sampleAgent "s" "") (beforeNext ++ [nextTurn]) ↔
      Run.Always (Timeline.step Host.plain) (InTime Host.plain)
        (Timeline.start sampleAgent "s" "") (beforeNext ++ [nextTurn]) :=
  rewinds_remembered Host.plain plain_collisionFree sampleAgent "s" "" _

end SibylMemory
