import SibylMemory.Rewinds

/-!
# Live captures and the transcript

A capture is live until its rewind correction is enqueued. The completed turn counts in the
budget of the plan before it is indexed, so that the budget covers one capture of its
fingerprint too many when an earlier one is still indexed.
-/

namespace SibylMemory
open Outbox

/-- The indexed captures of a fingerprint, in order. -/
def Outbox.Store.capturesOf (s : Store) (sid digest : String) : List TurnRow :=
  (s.turnsOf sid).filter fun x => x.turnHash = digest

def Outbox.Store.live (host : Host) (agentId : String) (s : Store) (sid digest : String) : Nat :=
  (s.capturesOf sid digest).countP fun x => !s.staled host agentId x

/-- The fingerprint of the turn that is being completed. -/
def SyncTurn.digest (host : Host) (t : SyncTurn) : String :=
  turnHash host (t.current host).1 (t.current host).2

/-- `sync_turn` reconciles with a transcript that ends with its turn, and returns. -/
structure Provider.Completes (host : Host) (p : Provider) (t : SyncTurn) (messages : List Message) :
    Prop where
  reconciles : p.Reconciles host t messages
  last : (committedTurns host messages).getLast? = some (t.current host)
  returns : ∃ operationId, (p.runtime.syncTurn host t p.store).1 = .ok (some operationId)

/-- The live captures are the transcript, and those that the transcript keeps stay live. -/
structure Mirrors (host : Host) (p : Provider) (t : SyncTurn) (messages : List Message) : Prop where
  counts : ∀ digest, (p.step host (.sync t)).store.live host p.runtime.context.agentId
      (p.runtime.activeSession t) digest = (committedTurnFingerprints host messages).count digest
  keeps : ∀ x ∈ p.store.turnsOf (p.runtime.activeSession t),
    p.store.staled host p.runtime.context.agentId x = false →
    p.store.live host p.runtime.context.agentId (p.runtime.activeSession t) x.turnHash
        + (if x.turnHash = t.digest host then 1 else 0)
      ≤ (committedTurnFingerprints host messages).count x.turnHash →
    (p.step host (.sync t)).store.staled host p.runtime.context.agentId x = false

/-- Of the captures that the transcript covers none is staled, but for one of the completed
turn's fingerprint when the transcript covers no more than are indexed. -/
def CoversLive (host : Host) (p : Provider) (t : SyncTurn) (messages : List Message) : Prop :=
  ∀ digest,
    ((p.store.capturesOf (p.runtime.activeSession t) digest).take
        ((committedTurnFingerprints host messages).count digest)).countP
      (fun x => p.store.staled host p.runtime.context.agentId x)
    = if digest = t.digest host ∧ (committedTurnFingerprints host messages).count digest
          ≤ (p.store.capturesOf (p.runtime.activeSession t) digest).length then 1 else 0

/-! ### One reconciling call -/

section Completion
variable {host : Host} {agentId : String} {p : Provider} {t : SyncTurn} {messages : List Message}
  {s s' : Store}

theorem capturesOf_length (s : Store) (sid digest : String) :
    (s.capturesOf sid digest).length = ((s.turnsOf sid).map TurnRow.turnHash).count digest := by
  rw [Store.capturesOf, ← List.countP_eq_length_filter, List.count, List.countP_map]
  rfl

theorem count_last {current : String × String}
    (h : (committedTurns host messages).getLast? = some current) (digest : String) :
    (committedTurnFingerprints host messages).count digest
      = ((priorTurns (committedTurns host messages) current).map
          fun turn => turnHash host turn.1 turn.2).count digest
        + if digest = turnHash host current.1 current.2 then 1 else 0 := by
  obtain ⟨init, hinit⟩ := List.getLast?_eq_some_iff.mp h
  rw [committedTurnFingerprints, priorTurns, if_pos h, hinit, List.dropLast_concat, List.map_append,
    List.count_append, List.map_singleton]
  congr 1
  by_cases hd : digest = turnHash host current.1 current.2
  · rw [if_pos hd, hd, List.count_singleton_self]
  · rw [if_neg hd, List.count_eq_zero]
    simpa using hd

theorem Reconciled.live {sid : String} {fingerprints prior : List String} {recovered : List TurnRow}
    (h : Reconciled host agentId s s' sid fingerprints prior recovered) (digest : String) :
    s'.live host agentId sid digest
      = ((s.capturesOf sid digest).take (fingerprints.count digest)).countP
          (fun x => !s.staled host agentId x)
        + min (fingerprints.count digest - (s.capturesOf sid digest).length)
            (prior.count digest - (s.capturesOf sid digest).length) := by
  have hnd : (s'.turnsOf sid).Nodup := (turnsOf_nodup s' sid).of_map
  have hcongr : s'.live host agentId sid digest
      = (s'.capturesOf sid digest).countP (fun x => !(s.staled host agentId x ||
          decide (x ∈ surplus TurnRow.turnHash (counter fingerprints) (s'.turnsOf sid)))) := by
    refine List.countP_congr fun x hx => ?_
    rw [h.staled x (List.mem_filter.mp hx).1]
  have hnew : (recovered.filter fun x => x.turnHash = digest).length
      = prior.count digest - (s.capturesOf sid digest).length := by
    have hcount := surplus_count id (counter ((s.turnsOf sid).map TurnRow.turnHash)) prior digest
    rw [← h.hashes, List.map_id, List.map_id, List.count, List.countP_map,
      List.countP_eq_length_filter] at hcount
    rw [capturesOf_length]
    exact hcount
  have hunstaled : ∀ n, ((recovered.filter fun x => x.turnHash = digest).take n).countP
      (fun x => !s.staled host agentId x)
      = ((recovered.filter fun x => x.turnHash = digest).take n).length := by
    intro n
    refine List.countP_eq_length.mpr fun x hx => ?_
    rw [h.unstaled x (List.mem_filter.mp (List.mem_of_mem_take hx)).1]
    rfl
  rw [hcongr, Store.capturesOf, countP_covered _ _ hnd, h.index, List.filter_append, List.take_append,
    List.countP_append, hunstaled, List.length_take, hnew]
  rfl

theorem Appended.live (hcf : host.CollisionFree) {name : String} (ha : agentId = "hermes:" ++ name)
    (hs : Provenance host agentId s) (hs' : Provenance host agentId s') {sid digest : String}
    {x : TurnRow} (h : Appended s s' sid digest x) :
    (∀ d, s'.live host agentId sid d
      = s.live host agentId sid d + if d = digest then 1 else 0) ∧
    ∀ y ∈ s.turnsOf sid, s'.staled host agentId y = s.staled host agentId y := by
  obtain ⟨hstaled, hnew⟩ := (Extended.cons hs h (Extended.refl s' sid)).staled hcf ha hs hs'
  have hx : s'.staled host agentId x = false := by
    rw [hstaled x (by rw [h.turnsOf hs]; simp)]
    exact hnew x List.mem_cons_self
  have hold : ∀ y ∈ s.turnsOf sid, s'.staled host agentId y = s.staled host agentId y :=
    fun y hy => hstaled y (by rw [h.turnsOf hs]; exact List.mem_append_left _ hy)
  refine ⟨fun d => ?_, hold⟩
  have hcongr : (s.capturesOf sid d).countP (fun y => !s'.staled host agentId y)
      = s.live host agentId sid d :=
    List.countP_congr fun y hy => by rw [hold y (List.mem_filter.mp hy).1]
  rw [Store.live, Store.capturesOf, h.turnsOf hs, List.filter_append, List.countP_append,
    ← Store.capturesOf, hcongr]
  by_cases hd : d = digest
  · rw [List.filter_cons_of_pos (by rw [h.hash, hd]; simp), List.filter_nil, if_pos hd]
    simp [hx]
  · rw [List.filter_cons_of_neg (by rw [h.hash]; simpa using Ne.symm hd), List.filter_nil, if_neg hd]
    rfl

theorem Provider.Reconciles.run (hcf : host.CollisionFree)
    (hs : Provenance host p.runtime.context.agentId p.store) (h : p.Reconciles host t messages)
    {r : Option String} (hret : (p.runtime.syncTurn host t p.store).1 = .ok r) :
    ∃ s₁ recovered x,
      Provenance host p.runtime.context.agentId s₁ ∧
      Reconciled host p.runtime.context.agentId p.store s₁ (p.runtime.activeSession t)
        (committedTurnFingerprints host messages)
        ((priorTurns (committedTurns host messages) (t.current host)).map fun turn =>
          turnHash host turn.1 turn.2) recovered ∧
      Appended s₁ (p.step host (.sync t)).store (p.runtime.activeSession t) (t.digest host) x := by
  obtain ⟨out, s₁, hrun, hs₁, hok, herr⟩ := reconcileSession_spec hcf hs
    (required_ne_empty hs h.required) messages (t.current host) t.clock
  rw [← reconcile_eq h] at hrun
  have hout : out = .ok () := by
    cases out with
    | ok u => rfl
    | error e =>
      exfalso
      simp only [Runtime.syncTurn, h.runs, Bool.false_eq_true, if_false, hrun] at hret
      cases hret
  subst hout
  have hstore := sync_store h.runs hrun
  obtain ⟨-, recovered, hrec⟩ := hok (by
    by_contra hn
    obtain ⟨message, hm⟩ := herr hn
    cases hm)
  simp only [Runtime.syncTurn, h.runs, Bool.false_eq_true, if_false, hrun] at hret
  cases hcap : enqueueCapture host p.runtime.context (p.runtime.activeSession t) (t.current host).1
      t.assistantContent (p.runtime.consumed host t).1 t.now s₁ with
  | mk result s₂ =>
    rw [hcap] at hret hstore
    cases result with
    | error e => cases hret
    | ok record =>
      obtain ⟨x, hx⟩ := enqueueCapture_ok hcap
      exact ⟨s₁, recovered, x, hs₁, hrec, hstore ▸ hx⟩

theorem covered_split (host : Host) (agentId : String) (s : Store) (sid digest : String) (n : Nat) :
    ((s.capturesOf sid digest).take n).countP (fun x => s.staled host agentId x)
      + ((s.capturesOf sid digest).take n).countP (fun x => !s.staled host agentId x)
      = min n (s.capturesOf sid digest).length := by
  rw [← List.length_take]
  have h := List.length_eq_countP_add_countP (l := (s.capturesOf sid digest).take n)
    (fun x => s.staled host agentId x)
  simpa using h.symm

theorem live_beyond {sid : String} {x : TurnRow} {n : Nat} (hx : s.staled host agentId x = false)
    (h : x ∈ (s.capturesOf sid x.turnHash).drop n) :
    ((s.capturesOf sid x.turnHash).take n).countP (fun y => !s.staled host agentId y)
      < s.live host agentId sid x.turnHash := by
  have hpos : 0 < ((s.capturesOf sid x.turnHash).drop n).countP
      (fun y => !s.staled host agentId y) :=
    List.countP_pos_iff.mpr ⟨x, h, by simp [hx]⟩
  have hsplit := congrArg (List.countP fun y => !s.staled host agentId y)
    (List.take_append_drop n (s.capturesOf sid x.turnHash))
  rw [List.countP_append] at hsplit
  rw [Store.live]
  omega

theorem Reconciled.staled_beyond {sid : String} {fingerprints prior : List String}
    {recovered : List TurnRow}
    (h : Reconciled host agentId s s' sid fingerprints prior recovered) {x : TurnRow}
    (hx : x ∈ s.turnsOf sid) (hlive : s.staled host agentId x = false)
    (hst : s'.staled host agentId x = true) :
    x ∈ (s.capturesOf sid x.turnHash).drop (fingerprints.count x.turnHash) := by
  have hnd : (s'.turnsOf sid).Nodup := (turnsOf_nodup s' sid).of_map
  rw [h.index] at hnd
  have hmem := h.staled x (by rw [h.index]; exact List.mem_append_left _ hx)
  rw [hst, hlive, Bool.false_or, eq_comm, decide_eq_true_eq, h.index, surplus_append] at hmem
  rcases List.mem_append.mp hmem with hmem | hmem
  · exact (mem_surplus_iff _ _ _ _).mp hmem
  · have hrec := (surplus_sublist _ _ _).subset hmem
    exact absurd rfl ((List.nodup_append.mp hnd).2.2 x hx x hrec)

/-- Of `n` captures, `budget` are covered, of which `stale` are staled and `live` are not; those of
the `prior` turns beyond the index are recovered, and the completed turn is captured last. -/
theorem live_eq_budget_iff {budget prior n stale live : Nat} {completed : Prop}
    [Decidable completed] (hb : budget = prior + if completed then 1 else 0)
    (hs : stale + live = min budget n) :
    live + min (budget - n) (prior - n) + (if completed then 1 else 0) = budget ↔
      stale = if completed ∧ budget ≤ n then 1 else 0 := by
  by_cases hc : completed
  · simp only [hc, if_true, true_and] at hb ⊢
    split <;> omega
  · simp only [hc, if_false, false_and] at hb ⊢
    omega

theorem mirrors_iff (hcf : host.CollisionFree)
    (hs : Provenance host p.runtime.context.agentId p.store) (h : p.Completes host t messages) :
    Mirrors host p t messages ↔ CoversLive host p t messages := by
  obtain ⟨operationId, hret⟩ := h.returns
  obtain ⟨s₁, recovered, x, hs₁, hrec, happ⟩ := h.reconciles.run hcf hs hret
  obtain ⟨name, ha⟩ := p.runtime.context.agentId_prefix
  have hs₂ : Provenance host p.runtime.context.agentId (p.step host (.sync t)).store :=
    (syncTurn_provenance hcf hs t).1
  obtain ⟨hlive, hstaled⟩ := happ.live hcf ha hs₁ hs₂
  have hcounts : ∀ digest, (p.step host (.sync t)).store.live host p.runtime.context.agentId
      (p.runtime.activeSession t) digest = (committedTurnFingerprints host messages).count digest ↔
      ((p.store.capturesOf (p.runtime.activeSession t) digest).take
          ((committedTurnFingerprints host messages).count digest)).countP
        (fun x => p.store.staled host p.runtime.context.agentId x)
      = if digest = t.digest host ∧ (committedTurnFingerprints host messages).count digest
          ≤ (p.store.capturesOf (p.runtime.activeSession t) digest).length then 1 else 0 := by
    intro digest
    rw [hlive, hrec.live]
    exact live_eq_budget_iff (count_last h.last digest) (covered_split _ _ p.store _ digest _)
  refine ⟨fun hm digest => (hcounts digest).mp (hm.counts digest),
    fun hc => ⟨fun digest => (hcounts digest).mpr (hc digest), fun y hy hl hroom => ?_⟩⟩
  have hy₁ : y ∈ s₁.turnsOf (p.runtime.activeSession t) := by
    rw [hrec.index]
    exact List.mem_append_left _ hy
  rw [hstaled y hy₁, ← Bool.not_eq_true]
  intro hst
  -- the capture would be live beyond as many covered ones as are staled or kept
  have hbeyond := hrec.staled_beyond hy hl hst
  have hlt := live_beyond hl hbeyond
  have hlen := List.length_pos_of_mem hbeyond
  rw [List.length_drop] at hlen
  have hsplit := covered_split host p.runtime.context.agentId p.store
    (p.runtime.activeSession t) y.turnHash
    ((committedTurnFingerprints host messages).count y.turnHash)
  have hcov := hc y.turnHash
  by_cases hd : y.turnHash = t.digest host
  · rw [if_pos ⟨hd, by omega⟩] at hcov
    rw [if_pos hd] at hroom
    omega
  · rw [if_neg (fun he => hd he.1)] at hcov
    rw [if_neg hd] at hroom
    omega

end Completion

/-- A property of every `sync_turn` of a run that reconciles and returns. -/
def OnCompletion (host : Host) (P : Provider → SyncTurn → List Message → Prop) (p : Provider) :
    Event → Prop
  | .sync t => ∀ messages, p.Completes host t messages → P p t messages
  | _ => True

/-- In every run, the live captures are the transcript after every completed turn that reconciles,
exactly when each of these reconciliations covers live captures only. -/
theorem live_captures_mirror (host : Host) (hcf : host.CollisionFree) (c : RuntimeContext)
    (sid parent : String) (events : List Event) :
    Run.Always (Provider.step host) (OnCompletion host (Mirrors host))
        (Provider.start c sid parent) events ↔
      Run.Always (Provider.step host) (OnCompletion host (CoversLive host))
        (Provider.start c sid parent) events := by
  refine Provider.always_congr hcf (fun p e hs => ?_) c sid parent events
  cases e with
  | sync t =>
    refine forall_congr' fun messages => ?_
    exact ⟨fun hm h => (mirrors_iff hcf hs h).mp (hm h),
      fun hc h => (mirrors_iff hcf hs h).mpr (hc h)⟩
  | _ => exact Iff.rfl

/-! ### A turn rewound and repeated verbatim -/

def beforeRepeat : List Event := [restarted, completed "a" ["a"], rewound]

def sampleRepeat : Provider :=
  Run.exec (Provider.step Host.plain) (Provider.start sampleAgent "s" "") beforeRepeat

def returned (out : Except OutboxException (Option String)) : Bool :=
  match out with
  | .ok (some _) => true
  | _ => false

theorem returned_iff (out : Except OutboxException (Option String)) :
    returned out = true ↔ ∃ operationId, out = .ok (some operationId) := by
  unfold returned
  split
  · rename_i operationId
    exact ⟨fun _ => ⟨operationId, rfl⟩, fun _ => rfl⟩
  · rename_i hn
    exact ⟨fun h => Bool.noConfusion h, fun ⟨operationId, h⟩ => absurd h (hn operationId)⟩

/-- Both captures of the repeated turn stay live. -/
theorem repeated_turn_doubles :
    ¬ Run.Always (Provider.step Host.plain) (OnCompletion Host.plain (Mirrors Host.plain))
      (Provider.start sampleAgent "s" "") (beforeRepeat ++ [completed "a" ["a"]]) := by
  intro h
  have hsync : ∀ messages, sampleRepeat.Completes Host.plain (completedTurn "a" ["a"]) messages →
      Mirrors Host.plain sampleRepeat (completedTurn "a" ["a"]) messages :=
    ((Run.always_append _ _ _).mp h).2.1
  -- one evaluation, so that the run is computed once
  obtain ⟨hrequired, hruns, hreturns, htwice⟩ :
      sampleRepeat.store.sessionReconcileRequired
          (sampleRepeat.runtime.activeSession (completedTurn "a" ["a"])) = true ∧
        sampleRepeat.runtime.skips Host.plain (completedTurn "a" ["a"]) = false ∧
        returned (sampleRepeat.runtime.syncTurn Host.plain (completedTurn "a" ["a"])
          sampleRepeat.store).1 = true ∧
        (sampleRepeat.step Host.plain (completed "a" ["a"])).store.live Host.plain
          sampleRepeat.runtime.context.agentId (sampleRepeat.runtime.activeSession
            (completedTurn "a" ["a"])) (turnHash Host.plain "a" "ok") = 2 := by
    decide +kernel
  have hlast : (committedTurns Host.plain (transcript ["a"])).getLast?
      = some ((completedTurn "a" ["a"]).current Host.plain) := by decide +kernel
  have honce : (committedTurnFingerprints Host.plain (transcript ["a"])).count
      (turnHash Host.plain "a" "ok") = 1 := by decide +kernel
  have hm := hsync (transcript ["a"])
    ⟨⟨hruns, rfl, hrequired⟩, hlast, (returned_iff _).mp hreturns⟩
  have hcount := hm.counts (turnHash Host.plain "a" "ok")
  rw [honce] at hcount
  exact absurd (htwice.symm.trans hcount) (by decide)

theorem live_captures_mirror_plain :
    Run.Always (Provider.step Host.plain) (OnCompletion Host.plain (Mirrors Host.plain))
        (Provider.start sampleAgent "s" "") (beforeRepeat ++ [completed "a" ["a"]]) ↔
      Run.Always (Provider.step Host.plain) (OnCompletion Host.plain (CoversLive Host.plain))
        (Provider.start sampleAgent "s" "") (beforeRepeat ++ [completed "a" ["a"]]) :=
  live_captures_mirror Host.plain plain_collisionFree sampleAgent "s" "" _

end SibylMemory
