import SibylMemory.Recall
import SibylMemory.Library.Runs

/-!
# Accounts of delivered context

Over every run of the coordinator: which fetch a `prefetch` is handed, what it returns, and for
which of them `record_delivery` is called. The accounts speak of the steps of the run only.
-/

namespace SibylMemory
open Text RecallCoordinator

/-! ### What a step changes -/

/-- Observations and callbacks apart, nothing changed. -/
structure SameRecall (s s' : RecallCoordinator) : Prop where
  futures : s'.futures = s.futures
  fetches : s'.fetches = s.fetches
  calls : s'.calls = s.calls
  delivered : s'.delivered = s.delivered

/-- What came of a fetch, once it is done. -/
def RecallCoordinator.outcome (s : RecallCoordinator) (f : Nat) : Option (Except Raised RecallResult) :=
  s.fetches[f]?.bind fun x => x.state.outcome

def FuturesKept (s s' : RecallCoordinator) : Prop := ∀ f o, s.outcome f = some o → s'.outcome f = some o

theorem SameRecall.refl (s : RecallCoordinator) : SameRecall s s := ⟨rfl, rfl, rfl, rfl⟩

theorem SameRecall.trans {s s' s'' : RecallCoordinator} (h : SameRecall s s')
    (h' : SameRecall s' s'') : SameRecall s s'' :=
  ⟨h'.futures.trans h.futures, h'.fetches.trans h.fetches, h'.calls.trans h.calls,
    h'.delivered.trans h.delivered⟩

theorem FuturesKept.of_eq {s s' : RecallCoordinator} (h : s'.fetches = s.fetches) : FuturesKept s s' := by
  intro f o ho
  rw [RecallCoordinator.outcome, h]
  exact ho

section Frames
variable {host : Host} {s : RecallCoordinator} {sessionId queryHash : String}

theorem observe_same (o : RecallObservation) : SameRecall s (s.observe o) := ⟨rfl, rfl, rfl, rfl⟩

theorem observeLateResult_same (host : Host) (s : RecallCoordinator) (sessionId queryHash : String)
    (outcome : Except Raised RecallResult) :
    SameRecall s (observeLateResult host s sessionId queryHash outcome).2 := by
  unfold observeLateResult
  split
  · exact observe_same _
  · exact observe_same _
  · exact observe_same _
  · exact .refl s

theorem invokeCallbacks_same (host : Host) (s : RecallCoordinator) (future : Nat)
    (outcome : Except Raised RecallResult) :
    SameRecall s (invokeCallbacks host s future outcome) := by
  have hfold : ∀ (l : List LateObserver) (s : RecallCoordinator), SameRecall s (l.foldl
      (fun s c => if c.future = future then (observeLateResult host s c.sessionId c.queryHash outcome).2
        else s) s) := by
    intro l
    induction l with
    | nil => exact fun s => .refl s
    | cons c l ih =>
      intro s
      rw [List.foldl_cons]
      refine SameRecall.trans ?_ (ih _)
      split
      · exact observeLateResult_same ..
      · exact .refl s
  have hcallbacks : SameRecall s
      { s with callbacks := s.callbacks.filter fun c => c.future ≠ future } := ⟨rfl, rfl, rfl, rfl⟩
  exact hcallbacks.trans (hfold _ _)

theorem advance_frame (host : Host) (s : RecallCoordinator) (future : Nat)
    (f : FutureState → FutureState) :
    (advance host s future f).futures = s.futures ∧ (advance host s future f).calls = s.calls ∧
      (advance host s future f).delivered = s.delivered ∧
      (advance host s future f).fetches = s.fetches.modify future fun x => { x with state := f x.state } := by
  unfold advance
  split
  · rename_i hnone
    refine ⟨rfl, rfl, rfl, ?_⟩
    rw [List.modify_eq_self (List.getElem?_eq_none_iff.mp hnone)]
  · split
    · have hsame := invokeCallbacks_same host (s.setState future f) future
      exact ⟨(hsame _).futures, (hsame _).calls, (hsame _).delivered, (hsame _).fetches⟩
    · exact ⟨rfl, rfl, rfl, rfl⟩

theorem advance_settled {future : Nat} {f : FutureState → FutureState}
    (h : ∀ x o, s.fetches[future]? = some x → x.state.outcome = some o →
      (f x.state).outcome = some o) : FuturesKept s (advance host s future f) := by
  intro i o ho
  obtain ⟨x, hx, hxo⟩ := Option.bind_eq_some_iff.mp ho
  rw [RecallCoordinator.outcome, (advance_frame host s future f).2.2.2, List.getElem?_modify, hx]
  by_cases hi : future = i
  · subst hi
    simpa using h x o hx hxo
  · simpa [hi] using hxo

theorem cancel_outcome {state : FutureState} {o : Except Raised RecallResult}
    (h : state.outcome = some o) : state.cancel.outcome = some o := by
  cases state with
  | pending => cases h
  | running => cases h
  | cancelled => exact h
  | finished outcome => exact h

end Frames

/-! ### Effects -/

def RecallAct.isFuture : RecallAct → Bool
  | .cancel _ => true
  | .revoke _ => true
  | .start _ => true
  | .complete _ _ => true
  | _ => false

/-- A call that has been handed a fetch, and where it is. -/
structure Handed (s : RecallCoordinator) (call : Nat) (c : PrefetchCall) (future : Nat) : Prop where
  call : s.calls[call]? = some c
  future : c.future = some future

def RecallResult.Nonblank (r : RecallResult) : Prop := strip r.markdown ≠ ""

/-- Everything that a step can do to what is scheduled, called and delivered. -/
inductive RecallEffect (host : Host) (s s' : RecallCoordinator) : RecallAct → Prop where
  | blank {query sessionId : String} {submitted : Bool} (empty : query = "") (same : s' = s) :
      RecallEffect host s s' (.schedule query sessionId submitted)
  | scheduled {query sessionId : String} {submitted : Bool} (text : query ≠ "")
      (futures : s'.futures = (s.pop (sessionId, queryDigest host query)).2.futures ++
        if submitted then [((sessionId, queryDigest host query), s.fetches.length)] else [])
      (length : s'.fetches.length = s.fetches.length + if submitted then 1 else 0)
      (settled : FuturesKept s s') (calls : s'.calls = s.calls) (delivered : s'.delivered = s.delivered) :
      RecallEffect host s s' (.schedule query sessionId submitted)
  | prefetched {query sessionId : String} {phase : PrefetchPhase}
      (futures : s'.futures = (s.pop (sessionId, queryDigest host query)).2.futures)
      (fetches : s'.fetches = s.fetches)
      (calls : s'.calls = s.calls ++
        [⟨query, sessionId, (s.pop (sessionId, queryDigest host query)).1, phase⟩])
      (quiet : ∀ text, phase = .returned (.ok text) → text = "")
      (delivered : s'.delivered = s.delivered) : RecallEffect host s s' (.prefetch query sessionId)
  | discarded {sessionId : String}
      (futures : s'.futures = s.futures.filter fun e => e.1.1 ≠ sessionId)
      (fetches : s'.fetches = s.fetches) (calls : s'.calls = s.calls)
      (delivered : s'.delivered = s.delivered) : RecallEffect host s s' (.discardSession sessionId)
  | moved {act : RecallAct} (isFuture : act.isFuture = true) (futures : s'.futures = s.futures)
      (length : s'.fetches.length = s.fetches.length) (settled : FuturesKept s s')
      (calls : s'.calls = s.calls) (delivered : s'.delivered = s.delivered) :
      RecallEffect host s s' act
  | delivered {call future : Nat} {c : PrefetchCall} {r : RecallResult}
      {recorded : Except Raised Unit} (handed : Handed s call c future) (waiting : c.phase = .waiting)
      (outcome : s.outcome future = some (.ok r)) (nonblank : r.Nonblank)
      (futures : s'.futures = s.futures) (fetches : s'.fetches = s.fetches)
      (calls : s'.calls = s.calls.modify call
        fun c => { c with phase := .returned (recorded.map fun _ => r.markdown) })
      (delivered : s'.delivered = s.delivered ++
        [⟨call, c.sessionId, queryDigest host c.query, r⟩]) :
      RecallEffect host s s' (.result call recorded)
  | undelivered {call future : Nat} {c : PrefetchCall} {o : Except Raised RecallResult}
      {recorded : Except Raised Unit} {phase : PrefetchPhase} (handed : Handed s call c future)
      (waiting : c.phase = .waiting) (outcome : s.outcome future = some o)
      (blank : ∀ r, o = .ok r → ¬ r.Nonblank) (left : phase ≠ .waiting)
      (quiet : ∀ text, phase = .returned (.ok text) → text = "")
      (futures : s'.futures = s.futures) (fetches : s'.fetches = s.fetches)
      (calls : s'.calls = s.calls.modify call fun c => { c with phase })
      (delivered : s'.delivered = s.delivered) : RecallEffect host s s' (.result call recorded)
  | missed {call future : Nat} {c : PrefetchCall} (handed : Handed s call c future)
      (waiting : c.phase = .waiting) (futures : s'.futures = s.futures)
      (fetches : s'.fetches = s.fetches)
      (calls : s'.calls = s.calls.modify call fun c => { c with phase := .missed })
      (delivered : s'.delivered = s.delivered) : RecallEffect host s s' (.hotWaitMissed call)
  | late {call future : Nat} {c : PrefetchCall} {phase : PrefetchPhase}
      (handed : Handed s call c future) (missed : c.phase = .missed) (left : phase ≠ .waiting)
      (quiet : ∀ text, phase = .returned (.ok text) → text = "")
      (futures : s'.futures = s.futures) (fetches : s'.fetches = s.fetches)
      (calls : s'.calls = s.calls.modify call fun c => { c with phase })
      (delivered : s'.delivered = s.delivered) : RecallEffect host s s' (.addDoneCallback call)

section Effects
variable {host : Host} {s s' : RecallCoordinator}

theorem schedule_effect (query sessionId : String) (submitted : Bool) :
    RecallEffect host s (s.schedule host query sessionId submitted)
      (.schedule query sessionId submitted) := by
  by_cases hq : query = ""
  · exact .blank hq (by rw [schedule, if_pos hq])
  -- the future that is replaced is cancelled
  obtain ⟨t, ht, hfutures, hlength, hsettled, hcalls, hdelivered⟩ : ∃ t : RecallCoordinator,
      s.schedule host query sessionId submitted = (if submitted then
        { t with
          futures := t.futures ++ [((sessionId, queryDigest host query), t.fetches.length)],
          fetches := t.fetches ++ [ContextFetch.mk query sessionId .pending] } else t) ∧
      t.futures = (s.pop (sessionId, queryDigest host query)).2.futures ∧
      t.fetches.length = s.fetches.length ∧ FuturesKept s t ∧ t.calls = s.calls ∧
      t.delivered = s.delivered := by
    rw [schedule, if_neg hq]
    dsimp only
    cases hp : (s.pop (sessionId, queryDigest host query)).1 with
    | none => exact ⟨_, rfl, rfl, rfl, .of_eq rfl, rfl, rfl⟩
    | some future =>
      have hframe := advance_frame host (s.pop (sessionId, queryDigest host query)).2 future FutureState.cancel
      refine ⟨_, rfl, hframe.1, ?_, ?_, hframe.2.1, hframe.2.2.1⟩
      · rw [hframe.2.2.2, List.length_modify]
        rfl
      · exact advance_settled (s := (s.pop (sessionId, queryDigest host query)).2)
          fun x o _ ho => cancel_outcome ho
  rw [ht]
  cases submitted with
  | false => exact .scheduled hq (by simp [hfutures]) (by simp [hlength]) hsettled hcalls hdelivered
  | true =>
    refine .scheduled hq (by simp [hfutures, hlength]) (by simp [hlength]) (fun f o ho => ?_) hcalls
      hdelivered
    obtain ⟨x, hx, hxo⟩ := Option.bind_eq_some_iff.mp (hsettled f o ho)
    have hlt := (List.getElem?_eq_some_iff.mp hx).1
    rw [RecallCoordinator.outcome, if_pos rfl, List.getElem?_append_left hlt, hx]
    exact hxo

theorem prefetch_effect (query sessionId : String) :
    RecallEffect host s (s.prefetch host query sessionId) (.prefetch query sessionId) := by
  refine .prefetched rfl rfl rfl (fun text htext => ?_) rfl
  split at htext
  · cases htext
  · cases htext
    rfl

theorem advance_effect {t : RecallCoordinator} {act : RecallAct} {future : Nat}
    {f : FutureState → FutureState} (isFuture : act.isFuture = true) (ht : SameRecall s t)
    (h : ∀ x o, s.fetches[future]? = some x → x.state.outcome = some o →
      (f x.state).outcome = some o) : RecallEffect host s (advance host t future f) act := by
  obtain ⟨hfutures, hcalls, hdelivered, hfetches⟩ := advance_frame host t future f
  refine .moved isFuture (hfutures.trans ht.futures) ?_ ?_ (hcalls.trans ht.calls)
    (hdelivered.trans ht.delivered)
  · rw [hfetches, List.length_modify, ht.fetches]
  · intro i o ho
    refine advance_settled (ht.fetches ▸ h) i o ?_
    rw [RecallCoordinator.outcome, ht.fetches]
    exact ho

theorem result_effect {call future : Nat} {c : PrefetchCall} {o : Except Raised RecallResult}
    {recorded : Except Raised Unit} (handed : Handed s call c future) (waiting : c.phase = .waiting)
    (ho : s.outcome future = some o) :
    RecallEffect host s (s.prefetchResult host call c.sessionId (queryDigest host c.query) recorded o)
      (.result call recorded) := by
  have hquiet : ∀ text, PrefetchPhase.returned (.ok "") = .returned (.ok text) → text = "" := by
    intro text h
    cases h
    rfl
  cases o with
  | ok r =>
    by_cases hr : strip r.markdown = ""
    · rw [prefetchResult, if_pos hr]
      refine .undelivered handed waiting ho (fun r' h => ?_) (by simp) hquiet rfl rfl rfl rfl
      cases h
      exact not_not.mpr hr
    · rw [prefetchResult, if_neg hr]
      exact .delivered handed waiting ho hr rfl rfl rfl rfl
  | error e =>
    have hblank : ∀ r : RecallResult, Except.error e = .ok r → ¬ r.Nonblank := fun r h => by cases h
    cases e with
    | timeoutError className =>
      exact .undelivered handed waiting ho hblank (by simp) (by simp) rfl rfl rfl rfl
    | exception className =>
      exact .undelivered handed waiting ho hblank (by simp) hquiet rfl rfl rfl rfl
    | baseException className =>
      exact .undelivered handed waiting ho hblank (by simp) (by simp) rfl rfl rfl rfl

theorem late_effect {call future : Nat} {c : PrefetchCall} {o : Option (Except Raised RecallResult)}
    (handed : Handed s call c future) (missed : c.phase = .missed) :
    RecallEffect host s (s.addDoneCallback host call future c.sessionId (queryDigest host c.query) o)
      (.addDoneCallback call) := by
  cases o with
  | none =>
    refine .late handed missed (by simp) (fun text h => ?_) rfl rfl rfl rfl
    cases h
    rfl
  | some outcome =>
    have hsame := observeLateResult_same host s c.sessionId (queryDigest host c.query) outcome
    refine .late handed missed (by simp) (fun text h => ?_) hsame.futures hsame.fetches
      (congrArg (List.modify · call _) hsame.calls) hsame.delivered
    split at h
    · cases h
      rfl
    · cases h

theorem recall_effect {act : RecallAct} (h : recallStep host s act = some s') :
    RecallEffect host s s' act := by
  cases act with
  | schedule query sessionId submitted =>
    cases h
    exact schedule_effect query sessionId submitted
  | prefetch query sessionId =>
    cases h
    exact prefetch_effect query sessionId
  | discardSession sessionId =>
    cases h
    exact .discarded rfl rfl rfl rfl
  | cancel future =>
    simp only [recallStep] at h
    split at h
    · cases h
      exact advance_effect rfl ⟨rfl, rfl, rfl, rfl⟩ fun x o _ ho => cancel_outcome ho
    · cases h
  | revoke future =>
    cases h
    exact advance_effect rfl (.refl s) fun x o _ ho => cancel_outcome ho
  | start future =>
    simp only [recallStep] at h
    split at h
    · rename_i hx
      cases h
      refine advance_effect rfl (.refl s) fun x o hx' ho => ?_
      rw [hx] at hx'
      cases hx'
      cases ho
    · cases h
  | complete future outcome =>
    simp only [recallStep] at h
    split at h
    · rename_i hx
      cases h
      refine advance_effect rfl (.refl s) fun x o hx' ho => ?_
      rw [hx] at hx'
      cases hx'
      cases ho
    · cases h
  | result call recorded =>
    simp only [recallStep, Option.bind_eq_bind, Option.bind_eq_some_iff] at h
    obtain ⟨c, hc, future, hf, fetch, hx, h⟩ := h
    split at h
    · rename_i o hwaiting ho
      cases h
      exact result_effect ⟨hc, hf⟩ hwaiting (by rw [RecallCoordinator.outcome, hx]; exact ho)
    · cases h
  | hotWaitMissed call =>
    simp only [recallStep, Option.bind_eq_bind, Option.bind_eq_some_iff] at h
    obtain ⟨c, hc, future, hf, fetch, hx, h⟩ := h
    split at h
    · rename_i hwaiting ho
      cases h
      exact .missed ⟨hc, hf⟩ hwaiting rfl rfl rfl rfl
    · cases h
  | addDoneCallback call =>
    simp only [recallStep, Option.bind_eq_bind, Option.bind_eq_some_iff] at h
    obtain ⟨c, hc, future, hf, fetch, hx, h⟩ := h
    split at h
    · rename_i hmissed
      cases h
      exact late_effect ⟨hc, hf⟩ hmissed
    · cases h

end Effects

/-! ### What a run says -/

def RecallAct.submits : RecallAct → Bool
  | .schedule query _ submitted => submitted && decide (query ≠ "")
  | _ => false

def RecallAct.asks : RecallAct → Bool
  | .prefetch _ _ => true
  | _ => false

/-- The step replaces or discards what was scheduled for a session and a query. -/
def RecallAct.Displaces (act : RecallAct) (sessionId query : String) : Prop :=
  (∃ submitted, act = .schedule query sessionId submitted) ∨ act = .discardSession sessionId

/-- The last fetch scheduled for a session and a query, unless it was discarded or asked for since.
Fetches are numbered as they are made. -/
def Current (acts : List RecallAct) (sessionId query : String) (fetch : Nat) : Prop :=
  ∃ before after, acts = before ++ .schedule query sessionId true :: after ∧ query ≠ "" ∧
    before.countP RecallAct.submits = fetch ∧
    ∀ act ∈ after, ¬ act.Displaces sessionId query ∧ act ≠ .prefetch query sessionId

section Histories
variable {acts : List RecallAct} {act : RecallAct} {sessionId query : String} {f : Nat}

theorem current_snoc : Current (acts ++ [act]) sessionId query f ↔
    (query ≠ "" ∧ act = .schedule query sessionId true ∧ acts.countP RecallAct.submits = f) ∨
      (Current acts sessionId query f ∧ ¬ act.Displaces sessionId query ∧
        act ≠ .prefetch query sessionId) := by
  constructor
  · rintro ⟨before, after, hacts, hq, hf, hafter⟩
    rcases Run.cut_snoc hacts with ⟨rfl, hact, -⟩ | ⟨after, rfl, rfl⟩
    · exact .inl ⟨hq, hact.symm, hf⟩
    · exact .inr ⟨⟨before, after, rfl, hq, hf, fun x hx => hafter x (List.mem_append_left _ hx)⟩,
        hafter _ (List.mem_append_right _ List.mem_cons_self)⟩
  · rintro (⟨hq, rfl, hf⟩ | ⟨⟨before, after, rfl, hq, hf, hafter⟩, hlast⟩)
    · exact ⟨acts, [], rfl, hq, hf, by simp⟩
    · refine ⟨before, after ++ [act], by simp, hq, hf, fun x hx => ?_⟩
      rcases List.mem_append.mp hx with hx | hx
      · exact hafter x hx
      · rw [List.mem_singleton.mp hx]
        exact hlast

theorem split_order {α : Type} {l₁ l₂ r₁ r₂ : List α} {x₁ x₂ : α}
    (h : l₁ ++ x₁ :: r₁ = l₂ ++ x₂ :: r₂) :
    (l₁ = l₂ ∧ x₁ = x₂ ∧ r₁ = r₂) ∨ (∃ m, l₂ = l₁ ++ x₁ :: m) ∨ ∃ m, l₁ = l₂ ++ x₂ :: m := by
  rcases List.append_eq_append_iff.mp h with ⟨m, hl, hm⟩ | ⟨m, hl, hm⟩
  · cases m with
    | nil =>
      rw [List.append_nil] at hl
      exact .inl ⟨hl.symm, List.cons.inj hm⟩
    | cons y m =>
      obtain ⟨rfl, -⟩ := List.cons.inj hm
      exact .inr (.inl ⟨m, hl⟩)
  · cases m with
    | nil =>
      rw [List.append_nil] at hl
      have hm' := List.cons.inj hm
      exact .inl ⟨hl, hm'.1.symm, hm'.2.symm⟩
    | cons y m =>
      obtain ⟨rfl, -⟩ := List.cons.inj hm
      exact .inr (.inr ⟨m, hl⟩)

/-- A counted step is found by its number. -/
theorem split_unique {α : Type} {p : α → Bool} {l l₁ l₂ r₁ r₂ : List α} {x₁ x₂ : α}
    (h₁ : l = l₁ ++ x₁ :: r₁) (h₂ : l = l₂ ++ x₂ :: r₂) (hx₁ : p x₁ = true) (hx₂ : p x₂ = true)
    (hcount : l₁.countP p = l₂.countP p) : l₁ = l₂ ∧ x₁ = x₂ ∧ r₁ = r₂ := by
  rcases split_order (h₁.symm.trans h₂) with heq | ⟨m, rfl⟩ | ⟨m, rfl⟩
  · exact heq
  · rw [List.countP_append, List.countP_cons_of_pos hx₁] at hcount
    omega
  · rw [List.countP_append, List.countP_cons_of_pos hx₂] at hcount
    omega

end Histories

/-! ### The scheduled fetches -/

/-- The dict holds the current fetches. -/
structure Scheduled (host : Host) (acts : List RecallAct) (s : RecallCoordinator) : Prop where
  length : s.fetches.length = acts.countP RecallAct.submits
  keys : (s.futures.map Prod.fst).Nodup
  current : ∀ sessionId query f,
    ((sessionId, queryDigest host query), f) ∈ s.futures ↔ Current acts sessionId query f

section Schedules
variable {host : Host} {acts : List RecallAct} {act : RecallAct} {s s' : RecallCoordinator}

theorem mem_popped {key key' : String × String} {f : Nat} :
    (key', f) ∈ (s.pop key).2.futures ↔ (key', f) ∈ s.futures ∧ key' ≠ key := by
  simp [RecallCoordinator.pop]

theorem popped_keys (h : (s.futures.map Prod.fst).Nodup) (key : String × String) :
    ((s.pop key).2.futures.map Prod.fst).Nodup := h.sublist (List.filter_sublist.map _)

theorem pop_some (h : (s.futures.map Prod.fst).Nodup) {key : String × String} {f : Nat} :
    (s.pop key).1 = some f ↔ (key, f) ∈ s.futures := by
  constructor
  · intro hp
    obtain ⟨e, he, rfl⟩ := Option.map_eq_some_iff.mp hp
    have hkey : e.1 = key := by simpa using List.find?_some he
    rw [← hkey]
    exact List.mem_of_find?_eq_some he
  · intro hmem
    cases hfind : s.futures.find? fun e => e.1 = key with
    | none =>
      have hnone := List.find?_eq_none.mp hfind _ hmem
      simp at hnone
    | some e =>
      have hkey : e.1 = key := by simpa using List.find?_some hfind
      have he := List.inj_on_of_nodup_map h (List.mem_of_find?_eq_some hfind) hmem hkey
      rw [RecallCoordinator.pop, hfind, he]
      rfl

theorem current_silent (hd : ∀ sessionId query, ¬ act.Displaces sessionId query)
    (ha : act.asks = false) (hs : act.submits = false) {sessionId query : String} {f : Nat} :
    Current (acts ++ [act]) sessionId query f ↔ Current acts sessionId query f := by
  rw [current_snoc]
  constructor
  · rintro (⟨hq, rfl, -⟩ | ⟨hc, -⟩)
    · exact absurd (.inl ⟨true, rfl⟩) (hd sessionId query)
    · exact hc
  · intro hc
    refine .inr ⟨hc, hd _ _, ?_⟩
    rintro rfl
    cases ha

theorem Scheduled.silent (h : Scheduled host acts s)
    (hd : ∀ sessionId query, ¬ act.Displaces sessionId query)
    (ha : act.asks = false) (hs : act.submits = false) (hf : s'.futures = s.futures)
    (hl : s'.fetches.length = s.fetches.length) : Scheduled host (acts ++ [act]) s' where
  length := by rw [hl, h.length, List.countP_append, List.countP_singleton, hs]; rfl
  keys := hf ▸ h.keys
  current := fun sessionId query f => by rw [hf, h.current, current_silent hd ha hs]

theorem RecallAct.isFuture_silent (h : act.isFuture = true) :
    (∀ sessionId query, ¬ act.Displaces sessionId query) ∧ act.asks = false ∧ act.submits = false := by
  cases act with
  | cancel future => exact ⟨fun _ _ => by simp [Displaces], rfl, rfl⟩
  | revoke future => exact ⟨fun _ _ => by simp [Displaces], rfl, rfl⟩
  | start future => exact ⟨fun _ _ => by simp [Displaces], rfl, rfl⟩
  | complete future outcome => exact ⟨fun _ _ => by simp [Displaces], rfl, rfl⟩
  | _ => cases h

theorem schedule_displaces {query sessionId : String} {submitted : Bool} {sid q : String} :
    (RecallAct.schedule query sessionId submitted).Displaces sid q ↔ sid = sessionId ∧ q = query := by
  constructor
  · rintro (⟨b, hb⟩ | hb)
    · injection hb with hq hsid
      exact ⟨hsid.symm, hq.symm⟩
    · cases hb
  · rintro ⟨rfl, rfl⟩
    exact .inl ⟨submitted, rfl⟩

theorem scheduled_step (hcf : host.CollisionFree) (h : Scheduled host acts s)
    (heff : RecallEffect host s s' act) : Scheduled host (acts ++ [act]) s' := by
  -- keys of other sessions or queries are other keys
  have hkey : ∀ {sid sid' q q' : String}, (sid, queryDigest host q) = (sid', queryDigest host q') ↔
      sid = sid' ∧ q = q' := fun {sid sid' q q'} => by
    rw [Prod.mk.injEq, queryDigest, queryDigest, hcf.eq_iff]
  cases heff with
  | blank empty same =>
    subst same empty
    refine ⟨by rw [h.length, List.countP_append]; simp [RecallAct.submits], h.keys,
      fun sid q f => ?_⟩
    rw [h.current, current_snoc]
    constructor
    · intro hc
      obtain ⟨-, -, -, hq, -⟩ := id hc
      exact .inr ⟨hc, by simp [RecallAct.Displaces, Ne.symm hq], by simp⟩
    · rintro (⟨hq, hact, -⟩ | ⟨hc, -⟩)
      · injection hact with hq'
        exact absurd hq'.symm hq
      · exact hc
  | @scheduled query sessionId submitted text futures length settled calls delivered =>
    refine ⟨?_, ?_, fun sid q f => ?_⟩
    · rw [length, h.length, List.countP_append]
      cases submitted <;> simp [RecallAct.submits, text]
    · rw [futures]
      cases submitted with
      | false => simpa using popped_keys h.keys _
      | true =>
        rw [if_pos rfl, List.map_append, List.nodup_append]
        refine ⟨popped_keys h.keys _, by simp, ?_⟩
        intro k hk k' hk' he
        obtain ⟨⟨k, f⟩, hmem, rfl⟩ := List.mem_map.mp hk
        have hk' : k' = (sessionId, queryDigest host query) := by simpa using hk'
        exact (mem_popped.mp hmem).2 (he.trans hk')
    · rw [futures, List.mem_append, mem_popped, h.current, current_snoc, ne_eq, hkey,
        schedule_displaces]
      have hother : RecallAct.schedule query sessionId submitted ≠ .prefetch q sid := by simp
      cases submitted with
      | false =>
        have hnew : RecallAct.schedule query sessionId false ≠ .schedule q sid true := by simp
        simp [hnew]
      | true =>
        have hnew : RecallAct.schedule query sessionId true = .schedule q sid true ↔
            sid = sessionId ∧ q = query := by simp [eq_comm, and_comm]
        have hlast : ((sid, queryDigest host q), f) ∈ (if true then
            [((sessionId, queryDigest host query), s.fetches.length)] else []) ↔
            (sid = sessionId ∧ q = query) ∧ f = s.fetches.length := by
          rw [if_pos rfl, List.mem_singleton, Prod.mk.injEq, hkey]
        rw [hnew, hlast, h.length, or_comm]
        constructor
        · rintro (⟨⟨rfl, rfl⟩, rfl⟩ | ⟨hc, hne⟩)
          · exact .inl ⟨text, ⟨rfl, rfl⟩, rfl⟩
          · exact .inr ⟨hc, hne, hother⟩
        · rintro (⟨-, he, rfl⟩ | ⟨hc, hne, -⟩)
          · exact .inl ⟨he, rfl⟩
          · exact .inr ⟨hc, hne⟩
  | @prefetched query sessionId phase futures fetches calls quiet delivered =>
    refine ⟨?_, ?_, fun sid q f => ?_⟩
    · rw [fetches, h.length, List.countP_append]
      rfl
    · rw [futures]
      exact popped_keys h.keys _
    · rw [futures, mem_popped, h.current, current_snoc, ne_eq, hkey]
      have hnew : RecallAct.prefetch query sessionId ≠ .schedule q sid true := by simp
      have hother : ¬ (RecallAct.prefetch query sessionId).Displaces sid q := by
        simp [RecallAct.Displaces]
      have hsame : RecallAct.prefetch query sessionId = .prefetch q sid ↔
          sid = sessionId ∧ q = query := by simp [eq_comm, and_comm]
      simp [hnew, hother, hsame]
  | @discarded sessionId futures fetches calls delivered =>
    refine ⟨?_, ?_, fun sid q f => ?_⟩
    · rw [fetches, h.length, List.countP_append]
      rfl
    · rw [futures]
      exact h.keys.sublist (List.filter_sublist.map _)
    · rw [futures, List.mem_filter, h.current, current_snoc]
      have hdisplaces : (RecallAct.discardSession sessionId).Displaces sid q ↔ sid = sessionId := by
        simp [RecallAct.Displaces, eq_comm]
      simp [hdisplaces]
  | moved isFuture futures length settled calls delivered =>
    obtain ⟨hd, ha, hs⟩ := RecallAct.isFuture_silent isFuture
    exact h.silent hd ha hs futures length
  | delivered handed waiting outcome nonblank futures fetches calls delivered =>
    exact h.silent (fun _ _ => by simp [RecallAct.Displaces]) rfl rfl futures (by rw [fetches])
  | undelivered handed waiting outcome blank left quiet futures fetches calls delivered =>
    exact h.silent (fun _ _ => by simp [RecallAct.Displaces]) rfl rfl futures (by rw [fetches])
  | missed handed waiting futures fetches calls delivered =>
    exact h.silent (fun _ _ => by simp [RecallAct.Displaces]) rfl rfl futures (by rw [fetches])
  | late handed missed left quiet futures fetches calls delivered =>
    exact h.silent (fun _ _ => by simp [RecallAct.Displaces]) rfl rfl futures (by rw [fetches])

end Schedules

/-! ### The calls -/

/-- A call was handed what was current when it began. Calls are numbered as they begin. -/
def Begun (acts : List RecallAct) (call : Nat) (c : PrefetchCall) : Prop :=
  ∃ before after, acts = before ++ .prefetch c.query c.sessionId :: after ∧
    before.countP RecallAct.asks = call ∧
    ∀ f, c.future = some f ↔ Current before c.sessionId c.query f

structure Asked (acts : List RecallAct) (s : RecallCoordinator) : Prop where
  length : s.calls.length = acts.countP RecallAct.asks
  begun : ∀ p c, s.calls[p]? = some c → Begun acts p c

structure Continues (c c' : PrefetchCall) : Prop where
  query : c'.query = c.query
  sessionId : c'.sessionId = c.sessionId
  future : c'.future = c.future
  left : c.phase ≠ .waiting → c'.phase ≠ .waiting

section Calls
variable {host : Host} {acts : List RecallAct} {act : RecallAct} {s s' : RecallCoordinator}

theorem Begun.snoc {p : Nat} {c : PrefetchCall} (h : Begun acts p c) : Begun (acts ++ [act]) p c := by
  obtain ⟨before, after, rfl, hp, hf⟩ := h
  exact ⟨before, after ++ [act], by simp, hp, hf⟩

theorem getElem?_snoc {α : Type} {l : List α} {x y : α} {i : Nat}
    (h : (l ++ [x])[i]? = some y) : l[i]? = some y ∨ (i = l.length ∧ y = x) := by
  rcases Nat.lt_trichotomy i l.length with hi | hi | hi
  · rw [List.getElem?_append_left hi] at h
    exact .inl h
  · subst hi
    rw [List.getElem?_concat_length] at h
    cases h
    exact .inr ⟨rfl, rfl⟩
  · rw [List.getElem?_eq_none (by simp only [List.length_append, List.length_singleton]; omega)] at h
    cases h

theorem effect_settled (heff : RecallEffect host s s' act) : FuturesKept s s' := by
  cases heff with
  | blank empty same => exact .of_eq (by rw [same])
  | scheduled text futures length settled => exact settled
  | prefetched futures fetches => exact .of_eq fetches
  | discarded futures fetches => exact .of_eq fetches
  | moved isFuture futures length settled => exact settled
  | delivered handed waiting outcome nonblank futures fetches => exact .of_eq fetches
  | undelivered handed waiting outcome blank left quiet futures fetches => exact .of_eq fetches
  | missed handed waiting futures fetches => exact .of_eq fetches
  | late handed missed left quiet futures fetches => exact .of_eq fetches

inductive CallsMove (host : Host) (s s' : RecallCoordinator) : RecallAct → Prop where
  | same {act : RecallAct} (asks : act.asks = false) (calls : s'.calls = s.calls) : CallsMove host s s' act
  | begun {query sessionId : String} {phase : PrefetchPhase}
      (calls : s'.calls = s.calls ++
        [⟨query, sessionId, (s.pop (sessionId, queryDigest host query)).1, phase⟩]) :
      CallsMove host s s' (.prefetch query sessionId)
  | moved {act : RecallAct} {call : Nat} {phase : PrefetchPhase} (asks : act.asks = false)
      (left : phase ≠ .waiting)
      (calls : s'.calls = s.calls.modify call fun c => { c with phase }) : CallsMove host s s' act

theorem calls_move (heff : RecallEffect host s s' act) : CallsMove host s s' act := by
  cases heff with
  | blank empty same => exact .same rfl (by rw [same])
  | scheduled text futures length settled calls => exact .same rfl calls
  | prefetched futures fetches calls => exact .begun calls
  | discarded futures fetches calls => exact .same rfl calls
  | moved isFuture futures length settled calls =>
    exact .same (RecallAct.isFuture_silent isFuture).2.1 calls
  | delivered handed waiting outcome nonblank futures fetches calls => exact .moved rfl (by simp) calls
  | undelivered handed waiting outcome blank left quiet futures fetches calls =>
    exact .moved rfl left calls
  | missed handed waiting futures fetches calls => exact .moved rfl (by simp) calls
  | late handed missed left quiet futures fetches calls => exact .moved rfl left calls

theorem call_continues (heff : RecallEffect host s s' act) {p : Nat} {c : PrefetchCall}
    (hc : s.calls[p]? = some c) : ∃ c', s'.calls[p]? = some c' ∧ Continues c c' := by
  cases calls_move heff with
  | same asks calls => exact ⟨c, by rw [calls, hc], rfl, rfl, rfl, id⟩
  | begun calls =>
    refine ⟨c, ?_, rfl, rfl, rfl, id⟩
    rw [calls, List.getElem?_append_left (List.getElem?_eq_some_iff.mp hc).1, hc]
  | @moved _ call phase asks left calls =>
    rw [calls, List.getElem?_modify, hc, Option.map_eq_map, Option.map_some]
    split
    · exact ⟨_, rfl, rfl, rfl, rfl, fun _ => left⟩
    · exact ⟨_, rfl, rfl, rfl, rfl, id⟩

theorem modified_call {call p : Nat} {phase : PrefetchPhase} {c' : PrefetchCall}
    (calls : s'.calls = s.calls.modify call fun c => { c with phase })
    (hc' : s'.calls[p]? = some c') :
    ∃ c, s.calls[p]? = some c ∧ (c' = c ∨ call = p ∧ c' = { c with phase }) := by
  rw [calls, List.getElem?_modify, Option.map_eq_map, Option.map_eq_some_iff] at hc'
  obtain ⟨c, hc, rfl⟩ := hc'
  refine ⟨c, hc, ?_⟩
  split
  · rename_i hp
    exact .inr ⟨hp, rfl⟩
  · exact .inl rfl

theorem asked_step (hs : Scheduled host acts s) (h : Asked acts s)
    (heff : RecallEffect host s s' act) : Asked (acts ++ [act]) s' := by
  cases calls_move heff with
  | same asks calls =>
    refine ⟨?_, fun p c hc => ?_⟩
    · rw [calls, h.length, List.countP_append, List.countP_singleton, asks]
      rfl
    · rw [calls] at hc
      exact (h.begun p c hc).snoc
  | begun calls =>
    refine ⟨?_, fun p c hc => ?_⟩
    · rw [calls, List.length_append, h.length, List.countP_append]
      rfl
    · rw [calls] at hc
      rcases getElem?_snoc hc with hc | ⟨rfl, rfl⟩
      · exact (h.begun p c hc).snoc
      · refine ⟨acts, [], rfl, h.length.symm, fun f => ?_⟩
        rw [pop_some hs.keys, hs.current]
  | moved asks left calls =>
    refine ⟨?_, fun p c hc => ?_⟩
    · rw [calls, List.length_modify, h.length, List.countP_append, List.countP_singleton, asks]
      rfl
    · obtain ⟨c₀, hc₀, rfl | ⟨-, rfl⟩⟩ := modified_call calls hc
      · exact (h.begun p _ hc₀).snoc
      · exact (h.begun p _ hc₀).snoc

end Calls

/-! ### The deliveries -/

/-- `record_delivery` is due: the call was handed a fetch, whose result came in time and is not
blank. -/
def Recorded (host : Host) (acts : List RecallAct) (s : RecallCoordinator) (d : ContextDelivery) : Prop :=
  ∃ c f recorded, Handed s d.call c f ∧ .result d.call recorded ∈ acts ∧
    s.outcome f = some (.ok d.result) ∧ d.result.Nonblank ∧ d.sessionId = c.sessionId ∧
    d.queryHash = queryDigest host c.query

structure Reckoned (host : Host) (acts : List RecallAct) (s : RecallCoordinator) : Prop where
  resolved : ∀ p recorded, .result p recorded ∈ acts →
    ∃ c f, Handed s p c f ∧ c.phase ≠ .waiting ∧ (s.outcome f).isSome
  missed : ∀ p, .hotWaitMissed p ∈ acts →
    ∃ c f, Handed s p c f ∧ c.phase ≠ .waiting ∧ ∀ recorded, .result p recorded ∉ acts
  returned : ∀ p c text, s.calls[p]? = some c → c.phase = .returned (.ok text) → strip text ≠ "" →
    ∃ recorded f r, .result p recorded ∈ acts ∧ c.future = some f ∧ s.outcome f = some (.ok r) ∧
      r.markdown = text
  recorded : ∀ d, d ∈ s.delivered ↔ Recorded host acts s d
  once : (s.delivered.map ContextDelivery.call).Nodup

section Deliveries
variable {host : Host} {acts : List RecallAct} {act : RecallAct} {s s' : RecallCoordinator}

theorem Handed.step (heff : RecallEffect host s s' act) {p f : Nat} {c : PrefetchCall}
    (h : Handed s p c f) : ∃ c', Handed s' p c' f ∧ Continues c c' := by
  obtain ⟨c', hc', hcont⟩ := call_continues heff h.call
  exact ⟨c', ⟨hc', hcont.future.trans h.future⟩, hcont⟩

theorem Handed.unique {p f f' : Nat} {c c' : PrefetchCall} (h : Handed s p c f)
    (h' : Handed s p c' f') : c = c' ∧ f = f' := by
  obtain rfl := Option.some.inj (h.call.symm.trans h'.call)
  exact ⟨rfl, Option.some.inj (h.future.symm.trans h'.future)⟩

theorem Recorded.step (heff : RecallEffect host s s' act) {d : ContextDelivery}
    (h : Recorded host acts s d) : Recorded host (acts ++ [act]) s' d := by
  obtain ⟨c, f, recorded, hc, hact, ho, hr, hsid, hq⟩ := h
  obtain ⟨c', hc', hcont⟩ := hc.step heff
  exact ⟨c', f, recorded, hc', List.mem_append_left _ hact, effect_settled heff f _ ho, hr,
    hsid.trans hcont.sessionId.symm, by rw [hq, hcont.query]⟩

theorem Recorded.of_step (h : Reckoned host acts s) (heff : RecallEffect host s s' act)
    {d : ContextDelivery}
    {recorded : Except Raised Unit} (hact : .result d.call recorded ∈ acts)
    (hd : Recorded host (acts ++ [act]) s' d) : Recorded host acts s d := by
  obtain ⟨c, f, hc, -, ho⟩ := h.resolved _ _ hact
  obtain ⟨o, ho⟩ := Option.isSome_iff_exists.mp ho
  obtain ⟨c', hc', hcont⟩ := hc.step heff
  obtain ⟨c₁, f₁, recorded₁, hc₁, -, ho₁, hr, hsid, hq⟩ := hd
  obtain ⟨rfl, rfl⟩ := hc'.unique hc₁
  rw [effect_settled heff _ _ ho, Option.some.injEq] at ho₁
  rw [ho₁] at ho
  exact ⟨c, f, recorded, hc, hact, ho, hr, hsid.trans hcont.sessionId, by rw [hq, hcont.query]⟩

theorem recorded_silent (h : Reckoned host acts s) (heff : RecallEffect host s s' act)
    (hact : ∀ p recorded, act ≠ .result p recorded) (d : ContextDelivery) :
    Recorded host (acts ++ [act]) s' d ↔ Recorded host acts s d := by
  constructor
  · intro hd
    obtain ⟨-, -, recorded, -, hmem, -⟩ := id hd
    rcases List.mem_append.mp hmem with hmem | hmem
    · exact hd.of_step h heff hmem
    · exact absurd (List.mem_singleton.mp hmem).symm (hact _ _)
  · exact fun hd => hd.step heff

theorem Handed.modified {call f : Nat} {c : PrefetchCall} {phase : PrefetchPhase}
    (h : Handed s call c f) (calls : s'.calls = s.calls.modify call fun c => { c with phase }) :
    Handed s' call { c with phase } f := by
  refine ⟨?_, h.future⟩
  rw [calls, List.getElem?_modify, h.call]
  simp

theorem result_handed (heff : RecallEffect host s s' act) {call : Nat} {recorded : Except Raised Unit}
    (hact : act = .result call recorded) :
    (∃ c f, Handed s call c f ∧ c.phase = .waiting) ∧
      ∃ c f, Handed s' call c f ∧ c.phase ≠ .waiting ∧ (s'.outcome f).isSome := by
  have hset := effect_settled heff
  subst hact
  cases heff with
  | delivered handed waiting outcome nonblank futures fetches calls =>
    refine ⟨⟨_, _, handed, waiting⟩, _, _, handed.modified calls, by simp, ?_⟩
    rw [hset _ _ outcome]
    rfl
  | undelivered handed waiting outcome blank left quiet futures fetches calls =>
    refine ⟨⟨_, _, handed, waiting⟩, _, _, handed.modified calls, left, ?_⟩
    rw [hset _ _ outcome]
    rfl
  | moved isFuture => cases isFuture

theorem missed_handed (heff : RecallEffect host s s' act) {call : Nat} (hact : act = .hotWaitMissed call) :
    (∃ c f, Handed s call c f ∧ c.phase = .waiting) ∧
      ∃ c f, Handed s' call c f ∧ c.phase ≠ .waiting := by
  subst hact
  cases heff with
  | missed handed waiting futures fetches calls =>
    exact ⟨⟨_, _, handed, waiting⟩, _, _, handed.modified calls, by simp⟩
  | moved isFuture => cases isFuture

theorem resolved_step (h : Reckoned host acts s) (heff : RecallEffect host s s' act) {p : Nat}
    {recorded : Except Raised Unit} (hmem : .result p recorded ∈ acts ++ [act]) :
    ∃ c f, Handed s' p c f ∧ c.phase ≠ .waiting ∧ (s'.outcome f).isSome := by
  rcases List.mem_append.mp hmem with hmem | hmem
  · obtain ⟨c, f, hc, hleft, ho⟩ := h.resolved _ _ hmem
    obtain ⟨c', hc', hcont⟩ := hc.step heff
    obtain ⟨o, ho⟩ := Option.isSome_iff_exists.mp ho
    exact ⟨c', f, hc', hcont.left hleft, by rw [effect_settled heff _ _ ho]; rfl⟩
  · exact (result_handed heff (List.mem_singleton.mp hmem).symm).2

theorem missed_step (h : Reckoned host acts s) (heff : RecallEffect host s s' act) {p : Nat}
    (hmem : .hotWaitMissed p ∈ acts ++ [act]) :
    ∃ c f, Handed s' p c f ∧ c.phase ≠ .waiting ∧ ∀ recorded, .result p recorded ∉ acts ++ [act] := by
  rcases List.mem_append.mp hmem with hmem | hmem
  · obtain ⟨c, f, hc, hleft, hnone⟩ := h.missed _ hmem
    obtain ⟨c', hc', hcont⟩ := hc.step heff
    refine ⟨c', f, hc', hcont.left hleft, fun recorded hr => ?_⟩
    rcases List.mem_append.mp hr with hr | hr
    · exact hnone recorded hr
    · obtain ⟨⟨c₁, f₁, hc₁, hwaiting⟩, -⟩ := result_handed heff (List.mem_singleton.mp hr).symm
      obtain ⟨rfl, -⟩ := hc.unique hc₁
      exact hleft hwaiting
  · have hact := (List.mem_singleton.mp hmem).symm
    obtain ⟨⟨c, f, hc, hwaiting⟩, c', f', hc', hleft⟩ := missed_handed heff hact
    refine ⟨c', f', hc', hleft, fun recorded hr => ?_⟩
    rcases List.mem_append.mp hr with hr | hr
    · obtain ⟨c₁, f₁, hc₁, hleft₁, -⟩ := h.resolved _ _ hr
      obtain ⟨rfl, -⟩ := hc.unique hc₁
      exact hleft₁ hwaiting
    · rw [hact] at hr
      cases List.mem_singleton.mp hr

/-- What a call returns after a step: what it returned before, no text, or a delivered result. -/
theorem returned_cases (heff : RecallEffect host s s' act) {p : Nat} {c : PrefetchCall} {text : String}
    (hc : s'.calls[p]? = some c) (hphase : c.phase = .returned (.ok text)) (htext : strip text ≠ "") :
    s.calls[p]? = some c ∨ ∃ recorded f r, act = .result p recorded ∧ c.future = some f ∧
      s.outcome f = some (.ok r) ∧ r.markdown = text := by
  have hempty : ∀ phase, (∀ text, phase = PrefetchPhase.returned (.ok text) → text = "") →
      phase ≠ .returned (.ok text) := by
    intro phase hq hp
    rw [hq text hp] at htext
    exact htext (by decide)
  have hmodified : ∀ {call : Nat} {phase : PrefetchPhase},
      s'.calls = s.calls.modify call (fun c => { c with phase }) → phase ≠ .returned (.ok text) →
      s.calls[p]? = some c := by
    intro call phase calls hne
    obtain ⟨c₀, hc₀, rfl | ⟨-, rfl⟩⟩ := modified_call calls hc
    · exact hc₀
    · exact absurd hphase hne
  cases heff with
  | blank empty same => exact .inl (by rw [← same, hc])
  | scheduled t futures length settled calls => exact .inl (by rw [← calls, hc])
  | prefetched futures fetches calls quiet =>
    rw [calls] at hc
    rcases getElem?_snoc hc with hc | ⟨-, rfl⟩
    · exact .inl hc
    · exact absurd hphase (hempty _ quiet)
  | discarded futures fetches calls => exact .inl (by rw [← calls, hc])
  | moved isFuture futures length settled calls => exact .inl (by rw [← calls, hc])
  | @delivered call future c₁ r recorded handed waiting outcome nonblank futures fetches calls =>
    obtain ⟨c₀, hc₀, rfl | ⟨rfl, rfl⟩⟩ := modified_call calls hc
    · exact .inl hc₀
    · obtain rfl := Option.some.inj (handed.call.symm.trans hc₀)
      refine .inr ⟨recorded, future, r, rfl, handed.future, outcome, ?_⟩
      cases recorded with
      | error e => cases hphase
      | ok u =>
        cases hphase
        rfl
  | undelivered handed waiting outcome blank left quiet futures fetches calls =>
    exact .inl (hmodified calls (hempty _ quiet))
  | missed handed waiting futures fetches calls => exact .inl (hmodified calls (by simp))
  | late handed missed left quiet futures fetches calls =>
    exact .inl (hmodified calls (hempty _ quiet))

theorem returned_step (h : Reckoned host acts s) (heff : RecallEffect host s s' act) {p : Nat}
    {c : PrefetchCall} {text : String} (hc : s'.calls[p]? = some c)
    (hphase : c.phase = .returned (.ok text)) (htext : strip text ≠ "") :
    ∃ recorded f r, .result p recorded ∈ acts ++ [act] ∧ c.future = some f ∧
      s'.outcome f = some (.ok r) ∧ r.markdown = text := by
  rcases returned_cases heff hc hphase htext with hc | ⟨recorded, f, r, hact, hf, ho, hr⟩
  · obtain ⟨recorded, f, r, hmem, hf, ho, hr⟩ := h.returned p c text hc hphase htext
    exact ⟨recorded, f, r, List.mem_append_left _ hmem, hf, effect_settled heff _ _ ho, hr⟩
  · exact ⟨recorded, f, r, List.mem_append_right _ (List.mem_singleton.mpr hact.symm), hf,
      effect_settled heff _ _ ho, hr⟩

theorem recorded_result (h : Reckoned host acts s) {call f : Nat} {c : PrefetchCall}
    {o : Except Raised RecallResult} {recorded : Except Raised Unit}
    (heff : RecallEffect host s s' (.result call recorded)) (handed : Handed s call c f)
    (outcome : s.outcome f = some o) (d : ContextDelivery) :
    Recorded host (acts ++ [.result call recorded]) s' d ↔ Recorded host acts s d ∨
      (o = .ok d.result ∧ d.result.Nonblank ∧
        d = ⟨call, c.sessionId, queryDigest host c.query, d.result⟩) := by
  obtain ⟨c', hc', hcont⟩ := handed.step heff
  have ho := effect_settled heff _ _ outcome
  constructor
  · intro hd
    obtain ⟨c₁, f₁, recorded₁, hc₁, hmem, ho₁, hr, hsid, hq⟩ := id hd
    rcases List.mem_append.mp hmem with hmem | hmem
    · exact .inl (hd.of_step h heff hmem)
    · cases List.mem_singleton.mp hmem
      obtain ⟨rfl, rfl⟩ := hc₁.unique hc'
      rw [ho, Option.some.injEq] at ho₁
      refine .inr ⟨ho₁, hr, ?_⟩
      rw [← hcont.sessionId, ← hcont.query, ← hsid, ← hq]
  · rintro (hd | ⟨rfl, hr, hd⟩)
    · exact hd.step heff
    · rw [hd]
      exact ⟨c', f, recorded, hc', List.mem_append_right _ List.mem_cons_self, ho, hr,
        hcont.sessionId.symm, by rw [hcont.query]⟩

theorem reckoned_silent (h : Reckoned host acts s) (heff : RecallEffect host s s' act)
    (hact : ∀ p recorded, act ≠ .result p recorded) (hd : s'.delivered = s.delivered) :
    Reckoned host (acts ++ [act]) s' where
  resolved := fun p recorded hmem => resolved_step h heff hmem
  missed := fun p hmem => missed_step h heff hmem
  returned := fun p c text hc hphase htext => returned_step h heff hc hphase htext
  recorded := fun d => by rw [hd, h.recorded, recorded_silent h heff hact]
  once := hd ▸ h.once

theorem reckoned_step (h : Reckoned host acts s) (heff : RecallEffect host s s' act) :
    Reckoned host (acts ++ [act]) s' := by
  cases id heff with
  | blank empty same => exact reckoned_silent h heff (by simp) (by rw [same])
  | scheduled text futures length settled calls delivered =>
    exact reckoned_silent h heff (by simp) delivered
  | prefetched futures fetches calls quiet delivered => exact reckoned_silent h heff (by simp) delivered
  | discarded futures fetches calls delivered => exact reckoned_silent h heff (by simp) delivered
  | moved isFuture futures length settled calls delivered =>
    refine reckoned_silent h heff ?_ delivered
    rintro p recorded rfl
    cases isFuture
  | missed handed waiting futures fetches calls delivered =>
    exact reckoned_silent h heff (by simp) delivered
  | late handed missed left quiet futures fetches calls delivered =>
    exact reckoned_silent h heff (by simp) delivered
  | @undelivered call future c o recorded phase handed waiting outcome blank left quiet futures fetches
      calls delivered =>
    refine ⟨fun p recorded hmem => resolved_step h heff hmem, fun p hmem => missed_step h heff hmem,
      fun p c text hc hphase htext => returned_step h heff hc hphase htext, fun d => ?_,
      delivered ▸ h.once⟩
    rw [delivered, h.recorded, recorded_result h heff handed outcome]
    constructor
    · exact .inl
    · rintro (hd | ⟨ho, hr, -⟩)
      · exact hd
      · exact absurd hr (blank _ ho)
  | @delivered call future c r recorded handed waiting outcome nonblank futures fetches calls
      delivered =>
    refine ⟨fun p recorded hmem => resolved_step h heff hmem, fun p hmem => missed_step h heff hmem,
      fun p c text hc hphase htext => returned_step h heff hc hphase htext, fun d => ?_, ?_⟩
    · rw [delivered, List.mem_append, h.recorded, recorded_result h heff handed outcome]
      refine or_congr_right ⟨fun hd => ?_, fun hd => ?_⟩
      · rw [List.mem_singleton.mp hd]
        exact ⟨rfl, nonblank, rfl⟩
      · obtain ⟨ho, -, hd⟩ := hd
        cases ho
        exact List.mem_singleton.mpr hd
    · rw [delivered, List.map_append, List.map_singleton, List.nodup_append]
      refine ⟨h.once, List.nodup_singleton _, fun i hi j hj hij => ?_⟩
      -- a call that waits has delivered nothing
      obtain ⟨d, hd, rfl⟩ := List.mem_map.mp hi
      have hcall : d.call = call := hij.trans (List.mem_singleton.mp hj)
      obtain ⟨-, -, recorded₁, -, hmem, -⟩ := (h.recorded d).mp hd
      rw [hcall] at hmem
      obtain ⟨c₁, f₁, hc₁, hleft, -⟩ := h.resolved _ _ hmem
      obtain ⟨rfl, -⟩ := hc₁.unique handed
      exact hleft waiting

end Deliveries

/-! ### Runs -/

section Runs
variable {host : Host} {acts : List RecallAct} {s : RecallCoordinator}

structure RunAccounts (host : Host) (acts : List RecallAct) (s : RecallCoordinator) : Prop where
  scheduled : Scheduled host acts s
  asked : Asked acts s
  reckoned : Reckoned host acts s

theorem start_accounts (host : Host) : RunAccounts host [] {} := by
  have hcurrent : ∀ sid q f, ¬ Current [] sid q f := by
    rintro sid q f ⟨before, after, hacts, -⟩
    simp at hacts
  have hrecorded : ∀ d, ¬ Recorded host [] {} d := by
    rintro d ⟨-, -, recorded, -, hmem, -⟩
    cases hmem
  refine ⟨⟨rfl, List.nodup_nil, fun sid q f => ?_⟩, ⟨rfl, ?_⟩, ?_, ?_, ?_, fun d => ?_, List.nodup_nil⟩
  · exact iff_of_false (by simp) (hcurrent sid q f)
  · intro p c hc
    cases hc
  · intro p recorded hmem
    cases hmem
  · intro p hmem
    cases hmem
  · intro p c text hc
    cases hc
  · exact iff_of_false (by simp) (hrecorded d)

theorem run_accounts (hcf : host.CollisionFree) (h : recallRun host acts = some s) :
    RunAccounts host acts s := by
  refine Run.foldlM_invariant (I := RunAccounts host) (start_accounts host) ?_ h
  rintro acts s₀ act s - ⟨hs, ha, hd⟩ hstep
  have heff := recall_effect hstep
  exact ⟨scheduled_step hcf hs heff, asked_step hs ha heff, reckoned_step hd heff⟩

/-! ### Handing out -/

theorem current_fetch {before : List RecallAct} {after : List RecallAct}
    {sessionId query : String} {f : Nat} (hacts : acts = before ++ after)
    (h : Current before sessionId query f) : ∃ b m, before = b ++ .schedule query sessionId true :: m ∧
      acts = b ++ .schedule query sessionId true :: (m ++ after) ∧ b.countP RecallAct.submits = f ∧
      (RecallAct.schedule query sessionId true).submits = true ∧
      ∀ act ∈ m, ¬ act.Displaces sessionId query ∧ act ≠ .prefetch query sessionId := by
  obtain ⟨b, m, rfl, hq, hf, hm⟩ := h
  exact ⟨b, m, rfl, by simp [hacts], hf, by simp [RecallAct.submits, hq], hm⟩

theorem handed_once {p p' f : Nat} {c c' : PrefetchCall} (h : Begun acts p c) (h' : Begun acts p' c')
    (hf : c.future = some f) (hf' : c'.future = some f) : p = p' := by
  obtain ⟨before, after, hacts, hp, hcur⟩ := h
  obtain ⟨before', after', hacts', hp', hcur'⟩ := h'
  obtain ⟨b, m, hb, hsplit, hcount, hsub, hm⟩ := current_fetch hacts ((hcur f).mp hf)
  obtain ⟨b', m', hb', hsplit', hcount', hsub', hm'⟩ := current_fetch hacts' ((hcur' f).mp hf')
  obtain ⟨rfl, hact, hrest⟩ := split_unique hsplit hsplit' hsub hsub' (hcount.trans hcount'.symm)
  injection hact with hquery hsession
  -- the earlier of the two calls would lie after the fetch was made
  rcases split_order hrest with ⟨hmid, -, -⟩ | ⟨n, hn⟩ | ⟨n, hn⟩
  · rw [← hp, ← hp', hb, hb', hmid, hquery, hsession]
  · have hmem := hm' (.prefetch c.query c.sessionId) (by simp [hn])
    exact absurd (by rw [hquery, hsession]) hmem.2
  · have hmem := hm (.prefetch c'.query c'.sessionId) (by simp [hn])
    exact absurd (by rw [hquery, hsession]) hmem.2

/-- A fetch that was replaced or discarded before it was asked for is handed to no call. -/
theorem displaced_not_handed {before mid after : List RecallAct} {act : RecallAct}
    {sessionId query : String} (hq : query ≠ "")
    (hacts : acts = before ++ .schedule query sessionId true :: (mid ++ act :: after))
    (hact : act.Displaces sessionId query) (hmid : .prefetch query sessionId ∉ mid) {p : Nat}
    {c : PrefetchCall} (h : Begun acts p c) :
    c.future ≠ some (before.countP RecallAct.submits) := by
  intro hf
  obtain ⟨before', after', hacts', -, hcur⟩ := h
  obtain ⟨b, m, -, hsplit, hcount, hsub, hm⟩ := current_fetch hacts' ((hcur _).mp hf)
  obtain ⟨-, hact', hrest⟩ := split_unique hacts hsplit (by simp [RecallAct.submits, hq]) hsub
    hcount.symm
  injection hact' with hquery hsession
  rcases split_order hrest with ⟨-, rfl, -⟩ | ⟨n, hn⟩ | ⟨n, hn⟩
  · rcases hact with ⟨b, hb⟩ | hb
    · cases hb
    · cases hb
  · rw [hquery, hsession] at hact
    exact (hm act (by simp [hn])).1 hact
  · rw [hquery, hsession] at hmid
    exact hmid (by simp [hn])

/-- What is handed out, returned and recorded in a run. -/
structure DeliveryAccounts (host : Host) (acts : List RecallAct) (s : RecallCoordinator) : Prop where
  /-- A call is handed the current fetch of its session and query. -/
  begun : ∀ p c, s.calls[p]? = some c → Begun acts p c
  handed : ∀ p p' c c' f, Handed s p c f → Handed s p' c' f → p = p'
  returned : ∀ p c text, s.calls[p]? = some c → c.phase = .returned (.ok text) → strip text ≠ "" →
    ∃ recorded f r, .result p recorded ∈ acts ∧ c.future = some f ∧ s.outcome f = some (.ok r) ∧
      r.markdown = text
  recorded : ∀ d, d ∈ s.delivered ↔ Recorded host acts s d
  once : (s.delivered.map ContextDelivery.call).Nodup
  /-- What missed the hot wait is not recorded. -/
  missed : ∀ p c f, .hotWaitMissed p ∈ acts → Handed s p c f →
    ∀ d ∈ s.delivered, ∀ c', ¬ Handed s d.call c' f
  failed : ∀ f, (∀ r, s.outcome f ≠ some (.ok r)) → ∀ d ∈ s.delivered, ∀ c, ¬ Handed s d.call c f
  displaced : ∀ before mid after act sessionId query, query ≠ "" →
    acts = before ++ .schedule query sessionId true :: (mid ++ act :: after) →
    act.Displaces sessionId query → .prefetch query sessionId ∉ mid →
    ∀ p c, ¬ Handed s p c (before.countP RecallAct.submits)

end Runs

def sampleRecall : List RecallAct :=
  [.schedule "deploy" "s1" true, .start 0, .schedule "deploy" "s1" true, .start 1,
    .complete 1 (.ok { markdown := "# Memory", renderedItemIds := [JsonText.points "decision_1"], totalItems := 1 }),
    .prefetch "deploy" "s1", .result 0 (.ok ()), .schedule "slow" "s1" true, .start 2,
    .prefetch "slow" "s1", .hotWaitMissed 1, .addDoneCallback 1,
    .complete 2 (.ok { markdown := "# Late", renderedItemIds := [], totalItems := 0 })]

end SibylMemory
