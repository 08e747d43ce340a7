import SibylMemory.HookRuns
import SibylMemory.LiveCaptures

/-!
# The whole deployment

Hermes calls the methods of one runtime after another, and each of them makes its transactions one
by one, while tools enqueue, workers deliver and the server acts. A completed turn that reconciles
leaves captures on the server that mirror the transcript, or have what is missing under way.
-/

namespace SibylMemory
open Outbox Idempotency

/-! ### States -/

def Hook.result {α : Type} : Hook α → Option (Except OutboxException α)
  | .done result => some result
  | .ask _ _ => none

/-- A runtime over the shared outbox, and what is left of the method that it runs. -/
structure Deployment extends Shared where
  hook : Hook (Option String)

def Deployment.start (c : RuntimeContext) (sid parent : String) : Deployment where
  runtime := Runtime.new c sid parent
  sys := System.start
  hook := .done (.ok none)

inductive DeploymentAct where
  /-- Hermes calls a method -/
  | begin (e : Event)
  /-- the method makes its next transaction -/
  | proceed
  /-- a step of a tool, a worker or the server -/
  | work (a : Act)

/-- A new process does not wait for the method that the old one ran. -/
def Event.restarts : Event → Bool
  | .restart _ _ _ _ => true
  | _ => false

/-- The act as one of another thread of the agent. Captures, rewinds and marks are the methods'. -/
def Act.elsewhere (old : RuntimeContext) : Act → Option Act
  | .own (.remember c sid callIdentity args now) =>
    some (.own (.remember (c.ofAgent old) sid callIdentity args now))
  | .own (.correct c sid callIdentity args currentRevision now) =>
    some (.own (.correct (c.ofAgent old) sid callIdentity args currentRevision now))
  | .own (.expose c sessionHash queryHash deliverySequence renderedItemIds automatic now) =>
    some (.own (.expose (c.ofAgent old) sessionHash queryHash deliverySequence renderedItemIds automatic
      now))
  | .own (.reserve sid parent now) => some (.own (.reserve sid parent now))
  | .own _ => none
  | a => some a

def Deployment.step (host : Host) (s : Deployment) : DeploymentAct → Deployment
  | .begin e =>
    if s.hook.result.isSome || e.restarts then
      let (runtime, hook) := s.provider.begin host e
      { s with runtime, hook }
    else s
  | .proceed => match s.hook with
    | .done _ => s
    | .ask c next =>
      let (reply, shared) := s.toShared.answer host c
      ⟨shared, next reply⟩
  | .work a => match a.elsewhere s.runtime.context with
    | some a => { s with sys := s.sys.step host a }
    | none => s

def Deployment.run (host : Host) (c : RuntimeContext) (sid parent : String)
    (acts : List DeploymentAct) : Deployment :=
  Run.exec (Deployment.step host) (Deployment.start c sid parent) acts

/-! ### One step -/

/-- The method keeps its part, in a stack that the agent's acts have reached. -/
structure Deployment.Keeps (host : Host) (agentId : String) (Q : Option String → Shared → Prop)
    (s : Deployment) : Prop where
  ours : s.sys.Ours host agentId
  agent : s.runtime.context.agentId = agentId
  hook : Hook.Keeps host agentId Q s.hook s.toShared

section Steps
variable {host : Host} {agentId : String} {Q : Option String → Shared → Prop} {s : Deployment}

theorem elsewhere_rely (hcf : host.CollisionFree) {name : String} (ha : agentId = "hermes:" ++ name)
    {old : RuntimeContext} (hold : old.agentId = agentId) {a a' : Act} (h : a.elsewhere old = some a')
    {sys : System} (hours : sys.Ours host agentId) :
    (sys.step host a').Ours host agentId ∧ Framed host agentId sys (sys.step host a') := by
  have hown : ∀ o : OwnAct, a' = .own o → o.aside = true → o.By agentId →
      (sys.step host a').Ours host agentId ∧ Framed host agentId sys (sys.step host a') := by
    rintro o rfl aside agent
    refine ⟨hours.step (a := .own o) ⟨agent, fun _ _ _ _ _ he => ?_⟩, aside_framed hcf aside agent⟩
    rw [he] at aside
    cases aside
  have hother : (∀ o, a' ≠ .own o) →
      (sys.step host a').Ours host agentId ∧ Framed host agentId sys (sys.step host a') := by
    intro hne
    refine ⟨hours.step ?_, worked_framed hcf ha hours.sound (step_worked host sys hne)⟩
    cases a' with
    | own o => exact absurd rfl (hne o)
    | _ => trivial
  cases a with
  | own o =>
    cases o with
    | remember => cases h; exact hown _ rfl rfl hold
    | correct => cases h; exact hown _ rfl rfl hold
    | expose => cases h; exact hown _ rfl rfl hold
    | reserve => cases h; exact hown _ rfl rfl trivial
    | _ => cases h
  | _ => cases h; exact hother fun o he => by cases he

theorem work_keeps (hcf : host.CollisionFree) {name : String} (ha : agentId = "hermes:" ++ name)
    (h : s.Keeps host agentId Q) (a : Act) : (s.step host (.work a)).Keeps host agentId Q := by
  simp only [Deployment.step]
  split
  · rename_i a' ha'
    have hothers := elsewhere_rely hcf ha h.agent ha' h.ours
    have hrely : Rely host agentId s.toShared ⟨s.runtime, s.sys.step host a'⟩ := ⟨rfl, fun _ => hothers⟩
    exact ⟨hothers.1, h.agent, h.hook.stable (fun _ _ _ hr hr' => hr.trans hr') hrely⟩
  · exact h

theorem proceed_keeps (h : s.Keeps host agentId Q) : (s.step host .proceed).Keeps host agentId Q := by
  simp only [Deployment.step]
  split
  · exact h
  · rename_i c next hhook
    have hask := h.hook
    rw [hhook] at hask
    obtain ⟨hg, hnext⟩ := hask _ (Rely.refl host agentId s.toShared) _ _ rfl
    exact ⟨hg h.ours, (congrArg RuntimeContext.agentId (answer_context host s.toShared c)).trans h.agent,
      hnext⟩

theorem begin_context (host : Host) (p : Provider) (e : Event) :
    (p.begin host e).1.context.agentId = p.runtime.context.agentId := by
  cases e with
  | turnStart n message =>
    simp only [Provider.begin, Runtime.onTurnStart]
    split <;> rfl
  | _ => rfl

theorem step_keeps (hcf : host.CollisionFree) {name : String} (ha : agentId = "hermes:" ++ name)
    (h : s.Keeps host agentId fun _ _ => True) (act : DeploymentAct) :
    (s.step host act).Keeps host agentId fun _ _ => True := by
  cases act with
  | begin e =>
    simp only [Deployment.step]
    split
    · exact ⟨h.ours, (begin_context host s.provider e).trans h.agent, begin_keeps hcf ha h.agent e h.ours⟩
    · exact h
  | proceed => exact proceed_keeps h
  | work a => exact work_keeps hcf ha h a

theorem start_keeps (host : Host) (c : RuntimeContext) (sid parent : String) :
    (Deployment.start c sid parent).Keeps host c.agentId fun _ _ => True :=
  ⟨start_ours host c.agentId, rfl, fun _ _ => trivial⟩

theorem run_split (host : Host) (c : RuntimeContext) (sid parent : String)
    (before after : List DeploymentAct) (act : DeploymentAct) :
    Deployment.run host c sid parent (before ++ act :: after) = Run.exec (Deployment.step host)
      ((Deployment.run host c sid parent before).step host act) after :=
  Run.exec_append _ _ _ _

theorem run_keeps (hcf : host.CollisionFree) (c : RuntimeContext) (sid parent : String)
    (acts : List DeploymentAct) :
    (Deployment.run host c sid parent acts).Keeps host c.agentId fun _ _ => True := by
  obtain ⟨name, ha⟩ := c.agentId_prefix
  exact Run.exec_invariant_of_step (I := fun s : Deployment => s.Keeps host c.agentId fun _ _ => True)
    (fun s a h => step_keeps hcf ha h a) (start_keeps host c sid parent)

/-- Until the next call of Hermes, the method keeps its part. -/
theorem exec_keeps (hcf : host.CollisionFree) {name : String} (ha : agentId = "hermes:" ++ name)
    (h : s.Keeps host agentId Q) {acts : List DeploymentAct} (hacts : ∀ e, .begin e ∉ acts) :
    (Run.exec (Deployment.step host) s acts).Keeps host agentId Q := by
  induction acts generalizing s with
  | nil => exact h
  | cons act acts ih =>
    refine ih ?_ fun e he => hacts e (List.mem_cons_of_mem _ he)
    cases act with
    | begin e => exact absurd List.mem_cons_self (hacts e)
    | proceed => exact proceed_keeps h
    | work a => exact work_keeps hcf ha h a

end Steps

/-! ### Undisturbed -/

section Undisturbed
variable {host : Host} {α : Type}

theorem run_shared (h : Hook α) (x : Shared) :
    (h.run (Shared.answer host) x).2.provider = (Hook.alone host h x.provider).2 := by
  induction h generalizing x with
  | done result => rfl
  | ask c next ih =>
    rw [Hook.alone_ask, ← answer_provider]
    exact ih _ _

theorem proceeds (host : Host) (h : Hook (Option String)) (x : Shared) : ∃ n,
    Run.exec (Deployment.step host) ⟨x, h⟩ (List.replicate n .proceed)
      = ⟨(h.run (Shared.answer host) x).2, .done (h.run (Shared.answer host) x).1⟩ := by
  induction h generalizing x with
  | done result => exact ⟨0, rfl⟩
  | ask c next ih =>
    obtain ⟨n, hn⟩ := ih (x.answer host c).1 (x.answer host c).2
    exact ⟨n + 1, hn⟩

/-- A method that no other thread comes in between does what the provider's step does. -/
theorem undisturbed_step {s : Deployment} (idle : s.hook.result.isSome = true) {e : Event}
    (hooked : ∀ d, e ≠ .deliver d) : ∃ n,
    (Run.exec (Deployment.step host) s (.begin e :: List.replicate n .proceed)).provider
      = s.provider.step host e := by
  obtain ⟨n, hn⟩ := proceeds host (s.provider.begin host e).2 ⟨(s.provider.begin host e).1, s.sys⟩
  have hbegun : s.step host (.begin e) = ⟨⟨(s.provider.begin host e).1, s.sys⟩,
      (s.provider.begin host e).2⟩ := by
    simp only [Deployment.step, idle, Bool.true_or, if_true]
  refine ⟨n, ?_⟩
  rw [Run.exec_cons, hbegun, hn, run_shared, ← begin_run host s.provider e hooked]
  rfl

end Undisturbed

/-! ### Live captures -/

def liveHashes (captures : List SessionCapture) : List String :=
  (captures.filter fun x => !x.staled).map SessionCapture.turnHash

section Live
variable {captures : List SessionCapture}

theorem liveHashes_count (captures : List SessionCapture) (d : String) : (liveHashes captures).count d
    = (captures.filter fun x => x.turnHash = d).countP fun x => !x.staled := by
  rw [liveHashes, List.count, List.countP_map, List.countP_filter, List.countP_filter]
  refine List.countP_congr fun x _ => ?_
  simp [and_comm]

theorem trimmed_count (fingerprints : List String)
    (hnd : (captures.map SessionCapture.operationId).Nodup) (d : String) :
    (liveHashes (trimmed fingerprints captures)).count d
      = ((captures.filter fun x => x.turnHash = d).take (fingerprints.count d)).countP
          fun x => !x.staled := by
  have hmem : ∀ x ∈ captures, x.operationId ∈ (surplus SessionCapture.turnHash (counter fingerprints)
        captures).map SessionCapture.operationId ↔
      x ∈ surplus SessionCapture.turnHash (counter fingerprints) captures := by
    intro x hx
    refine ⟨fun h => ?_, fun h => List.mem_map_of_mem h⟩
    obtain ⟨y, hy, hid⟩ := List.mem_map.mp h
    exact List.inj_on_of_nodup_map hnd ((surplus_sublist _ _ _).subset hy) hx hid ▸ hy
  have hcovered := countP_covered SessionCapture.turnHash (counter fingerprints) hnd.of_map
    SessionCapture.staled d
  rw [← show counter fingerprints d = fingerprints.count d from rfl, ← hcovered, liveHashes_count, trimmed,
    stale, List.filter_map, List.countP_map]
  refine List.countP_congr fun x hx => ?_
  simp only [Function.comp_apply, hmem x (List.mem_filter.mp hx).1]

theorem liveHashes_append (captures captures' : List SessionCapture) :
    liveHashes (captures ++ captures') = liveHashes captures ++ liveHashes captures' := by
  rw [liveHashes, List.filter_append, List.map_append]
  rfl

theorem liveHashes_singleton {x : SessionCapture} (hx : x.staled = false) (d : String) :
    (liveHashes [x]).count d = if d = x.turnHash then 1 else 0 := by
  rw [liveHashes, List.filter_cons_of_pos (by rw [hx]; rfl), List.filter_nil, List.map_singleton,
    List.count_singleton]
  exact if_congr (beq_iff_eq.trans eq_comm) rfl rfl

theorem filter_hash_length (captures : List SessionCapture) (d : String) :
    (captures.filter fun x => x.turnHash = d).length = (captures.map SessionCapture.turnHash).count d := by
  rw [← List.countP_eq_length_filter, List.count, List.countP_map]
  rfl

section Recovered
variable {host : Host} {prior : List (String × String)} {L R : List SessionCapture}

theorem Recovers.count (hR : Recovers host (counter (L.map SessionCapture.turnHash)) prior R) (d : String) :
    (R.filter fun x => x.turnHash = d).length
      = (prior.map (fingerprint host)).count d - (L.filter fun x => x.turnHash = d).length := by
  have hcount := surplus_count id (counter (L.map SessionCapture.turnHash)) (prior.map (fingerprint host)) d
  rw [List.map_id, List.map_id, ← hR.hashes] at hcount
  rw [filter_hash_length, filter_hash_length]
  exact hcount

theorem Recovers.live {counts : String → Nat} (hR : Recovers host counts prior R) (d : String) (n : Nat) :
    ((R.filter fun x => x.turnHash = d).take n).countP (fun x => !x.staled)
      = ((R.filter fun x => x.turnHash = d).take n).length := by
  refine List.countP_eq_length.mpr fun x hx => ?_
  rw [hR.unstaled x (List.mem_filter.mp (List.mem_of_mem_take hx)).1]
  rfl

end Recovered

/-- The live captures after a completed turn that reconciles, by fingerprint. -/
theorem settled_count {host : Host} {messages : List Message} {current : String × String}
    {L R : List SessionCapture} (hR : Recovers host (counter (L.map SessionCapture.turnHash))
      (priorTurns (committedTurns host messages) current) R) {last : SessionCapture}
    (hlast : last.staled = false) (hnd : ((trimmed (committedTurnFingerprints host messages) (L ++ R)
      ++ [last]).map SessionCapture.operationId).Nodup) (d : String) :
    (liveHashes (trimmed (committedTurnFingerprints host messages) (L ++ R) ++ [last])).count d
      = ((L.filter fun x => x.turnHash = d).take ((committedTurnFingerprints host messages).count d)).countP
          (fun x => !x.staled)
        + min ((committedTurnFingerprints host messages).count d - (L.filter fun x => x.turnHash = d).length)
          (((priorTurns (committedTurns host messages) current).map (fingerprint host)).count d
            - (L.filter fun x => x.turnHash = d).length)
        + if d = last.turnHash then 1 else 0 := by
  have hids : ((trimmed (committedTurnFingerprints host messages) (L ++ R)).map
      SessionCapture.operationId) = (L ++ R).map SessionCapture.operationId := by
    rw [trimmed, stale, List.map_map]
    rfl
  rw [List.map_append, hids] at hnd
  have hold := trimmed_count (committedTurnFingerprints host messages) (List.nodup_append.mp hnd).1 d
  -- the covered captures are old ones first, and recovered ones for the rest of the budget
  rw [List.filter_append, List.take_append, List.countP_append, hR.live, List.length_take, hR.count] at hold
  rw [liveHashes_append, List.count_append, liveHashes_singleton hlast, hold]

end Live

/-! ### What the server has of a session -/

/-- Nothing rewinds the capture of the turn, which waits in the outbox or took effect once. -/
structure Remembers (host : Host) (sys : System) (t : TurnRow) : Prop where
  standing : ∀ i c, sys.book i = some c → c.kind = "rewind_correction" →
    c.endpoint ≠ correctionEndpoint t.sourceId
  captured : ∃ c, sys.book t.operationId = some c ∧
    ((sys.store.operations.find t.operationId).isSome ∨ Landed host sys t.operationId c)

/-- A rewind correction of the turn was accepted. It, or what took its place, waits in the outbox, took
effect once and after the capture did, or the server has no use for it. -/
structure Withdrawn (host : Host) (agentId : String) (sys : System) (t : TurnRow) : Prop where
  accepted : (sys.book (rewindId host agentId t.operationId)).isSome
  stands : ∃ e d, Chain.Ends sys.store.next (rewindId host agentId t.operationId) e ∧
    sys.book e = some d ∧ d.kind = "rewind_correction" ∧ d.endpoint = correctionEndpoint t.sourceId ∧
    Stands host sys e d ∧ (Landed host sys e d → sys.effectsOf t.operationId = 1 ∧
      Follows sys.server d.idempotencyKey ("hermes-turn-" ++ t.operationId))

/-- Captures of the session that are the transcript, as often as each turn occurs in it, are remembered;
all others are withdrawn. -/
def Carries (host : Host) (agentId : String) (sys : System) (sid : String) (messages : List Message) :
    Prop :=
  ∃ kept : List TurnRow, kept.Sublist (sys.store.turnsOf sid) ∧
    (kept.map TurnRow.turnHash).Perm (committedTurnFingerprints host messages) ∧
    (∀ t ∈ kept, Remembers host sys t) ∧
    ∀ t ∈ sys.store.turnsOf sid, t ∉ kept → Withdrawn host agentId sys t

section Server
variable {host : Host} {agentId sid : String} {sys : System} {t : TurnRow}

theorem staled_iff_booked (hb : Booked sys) : sys.store.staled host agentId t = true ↔
    (sys.book (rewindId host agentId t.operationId)).isSome :=
  ⟨fun h => known_booked hb h, fun h => hb.known _ h⟩

theorem remembers_iff (hcf : host.CollisionFree) {name : String} (ha : agentId = "hermes:" ++ name)
    (h : sys.Ours host agentId) (ht : t ∈ sys.store.turns.rows) :
    Remembers host sys t ↔ sys.store.staled host agentId t = false := by
  have hr := h.rewound hcf ha
  rw [← Bool.not_eq_true, staled_iff_booked h.sound.booked]
  constructor
  · intro hrem hbooked
    obtain ⟨c, hc⟩ := Option.isSome_iff_exists.mp hbooked
    obtain ⟨hkind, t', ht', hid, hendpoint⟩ := hr.rewinds _ c (h.sound.turn_digest ht) hc
    have hsame := List.inj_on_of_nodup_map sys.store.turns.operationUnique ht' ht hid
    exact hrem.standing _ c hc hkind (hsame ▸ hendpoint)
  · intro hnone
    refine ⟨fun i c hi hkind hendpoint => hnone (hr.corrects_turn ht hi hkind hendpoint).rewound, ?_⟩
    obtain ⟨c, hc, hend, -⟩ := h.sound.catalogued.turns t ht
    refine ⟨c, hc, ?_⟩
    cases hrow : sys.store.operations.find t.operationId with
    | some row => exact .inl rfl
    | none =>
      exact .inr (uncorrected_landed h.sound h.chained h.waited h.ended hc (by rw [hend]; decide) hrow)

theorem withdrawn_of_staled (hcf : host.CollisionFree) {name : String} (ha : agentId = "hermes:" ++ name)
    (h : sys.Ours host agentId) (ht : t ∈ sys.store.turns.rows)
    (hst : sys.store.staled host agentId t = true) : Withdrawn host agentId sys t := by
  have hr := h.rewound hcf ha
  have hbooked := (staled_iff_booked h.sound.booked).mp hst
  refine ⟨hbooked, ?_⟩
  obtain ⟨c, hc⟩ := Option.isSome_iff_exists.mp hbooked
  obtain ⟨hkind, t', ht', hid, hendpoint⟩ := hr.rewinds _ c (h.sound.turn_digest ht) hc
  obtain rfl := List.inj_on_of_nodup_map sys.store.turns.operationUnique ht' ht hid
  obtain ⟨e, d, hends, hd, hsame, hstands⟩ := accepted_stands h.sound h.chained h.waited h.ended hc
  have hintent : d.kind = c.kind ∧ d.endpoint = c.endpoint := by
    rcases hsame with rfl | hsame
    · cases hc.symm.trans hd
      exact ⟨rfl, rfl⟩
    · exact ⟨hsame.kind, hsame.endpoint⟩
  have hcorrects := hr.corrects_turn ht hd (hintent.1.trans hkind) (hintent.2.trans hendpoint)
  refine ⟨e, d, hends, hd, hintent.1.trans hkind, hintent.2.trans hendpoint, hstands, fun hland => ?_⟩
  rcases hcorrects.after with hdep | ⟨⟨effect, heffect⟩, hfollows⟩
  · exact hland.after _ hdep
  · obtain ⟨content, hcontent, -, hkey⟩ := h.sound.catalogued.turns t' ht
    exact ⟨h.sound.effectsOf_eq_one hcontent (hkey ▸ heffect), hfollows⟩

theorem liveHashes_captures (host : Host) (agentId sid : String) (s : Store) :
    liveHashes (s.captures host agentId sid)
      = ((s.turnsOf sid).filter fun t => !s.staled host agentId t).map TurnRow.turnHash := by
  rw [liveHashes, Store.captures, List.filter_map, List.map_map]
  rfl

theorem carries_iff (hcf : host.CollisionFree) {name : String} (ha : agentId = "hermes:" ++ name)
    (h : sys.Ours host agentId) (sid : String) (messages : List Message) :
    Carries host agentId sys sid messages ↔ ∀ d, (liveHashes (sys.store.captures host agentId sid)).count d
      = (committedTurnFingerprints host messages).count d := by
  have hrow : ∀ t ∈ sys.store.turnsOf sid, t ∈ sys.store.turns.rows := fun t ht => (mem_turnsOf.mp ht).1
  rw [liveHashes_captures, ← List.perm_iff_count]
  constructor
  · rintro ⟨kept, hsub, hperm, hremembered, hwithdrawn⟩
    have hnd : (sys.store.turnsOf sid).Nodup := (turnsOf_nodup sys.store sid).of_map
    -- no capture is both remembered and withdrawn, so that there is no choice of what is kept
    have hsame : ((sys.store.turnsOf sid).filter fun t => !sys.store.staled host agentId t).Perm kept := by
      refine (List.perm_ext_iff_of_nodup (hnd.filter _) (hnd.sublist hsub)).mpr fun t => ?_
      rw [List.mem_filter, Bool.not_eq_true']
      constructor
      · rintro ⟨ht, hlive⟩
        by_contra hnot
        have hst := (staled_iff_booked h.sound.booked).mpr (hwithdrawn t ht hnot).accepted
        rw [hlive] at hst
        cases hst
      · intro ht
        have hmem := hsub.subset ht
        exact ⟨hmem, (remembers_iff hcf ha h (hrow t hmem)).mp (hremembered t ht)⟩
    exact (hsame.map TurnRow.turnHash).trans hperm
  · intro hperm
    refine ⟨_, List.filter_sublist, hperm, fun t ht => ?_, fun t ht hnot => ?_⟩
    · obtain ⟨hmem, hlive⟩ := List.mem_filter.mp ht
      exact (remembers_iff hcf ha h (hrow t hmem)).mpr (by simpa using hlive)
    · refine withdrawn_of_staled hcf ha h (hrow t ht) ?_
      by_contra hlive
      exact hnot (List.mem_filter.mpr ⟨ht, by simpa using hlive⟩)

theorem captures_filter (host : Host) (agentId sid : String) (s : Store) (d : String) :
    (s.captures host agentId sid).filter (fun x => x.turnHash = d)
      = (s.capturesOf sid d).map fun t => t.capture host agentId s := by
  rw [Store.captures, List.filter_map]
  rfl

theorem taken_captures (p : TurnRow → Bool) (q : SessionCapture → Bool) {s : Store}
    (hpq : ∀ t, q (t.capture host agentId s) = p t) (sid d : String) (n : Nat) :
    (((s.captures host agentId sid).filter fun x => x.turnHash = d).take n).countP q
      = ((s.capturesOf sid d).take n).countP p := by
  rw [captures_filter, ← List.map_take, List.countP_map]
  exact List.countP_congr fun t _ => by rw [Function.comp_apply, hpq]

end Server

section Completed
variable {host : Host} {agentId : String} {s : Deployment} {t : SyncTurn} {messages : List Message}

theorem result_keeps {Q : Option String → Shared → Prop} (h : s.Keeps host agentId Q) {r : Option String}
    (hresult : s.hook.result = some (.ok r)) : Q r s.toShared := by
  have hhook := h.hook
  cases hcase : s.hook with
  | ask call next =>
    rw [hcase] at hresult
    cases hresult
  | done result =>
    rw [hcase] at hresult hhook
    cases hresult
    exact hhook _ (Rely.refl host agentId s.toShared)

theorem begin_sync_keeps {Q : Option String → Shared → Prop} (hs : s.Keeps host agentId fun _ _ => True)
    (idle : s.hook.result.isSome = true)
    (hsync : Hook.Keeps host agentId Q (Hook.syncTurn host s.runtime t) s.toShared) :
    (s.step host (.begin (.sync t))).Keeps host agentId Q := by
  simp only [Deployment.step, idle, Bool.true_or, if_true]
  exact ⟨hs.ours, hs.agent, hsync⟩

theorem covers_iff (hlast : (committedTurns host messages).getLast? = some (t.current host))
    {p : Provider} {R : List SessionCapture} {operationId : String} {s' : Store}
    (hR : Recovers host (counter ((p.store.captures host p.runtime.context.agentId
      (p.runtime.activeSession t)).map SessionCapture.turnHash))
      (priorTurns (committedTurns host messages) (t.current host)) R)
    (hcaptures : s'.captures host p.runtime.context.agentId (p.runtime.activeSession t)
      = trimmed (committedTurnFingerprints host messages)
          (p.store.captures host p.runtime.context.agentId (p.runtime.activeSession t) ++ R)
        ++ [⟨operationId, t.digest host, false⟩]) :
    CoversLive host p t messages ↔ ∀ d, (liveHashes (s'.captures host p.runtime.context.agentId
        (p.runtime.activeSession t))).count d = (committedTurnFingerprints host messages).count d := by
  have hnd : ((s'.captures host p.runtime.context.agentId (p.runtime.activeSession t)).map
      SessionCapture.operationId).Nodup := by
    rw [captures_ids]
    exact turnsOf_nodup s' _
  rw [hcaptures] at hnd ⊢
  refine forall_congr' fun d => ?_
  have hlen : ((p.store.captures host p.runtime.context.agentId (p.runtime.activeSession t)).filter
      fun x => x.turnHash = d).length = (p.store.capturesOf (p.runtime.activeSession t) d).length := by
    rw [captures_filter, List.length_map]
  rw [settled_count hR rfl hnd d, hlen, taken_captures
    (fun x => !p.store.staled host p.runtime.context.agentId x) _ fun _ => rfl]
  exact (live_eq_budget_iff (count_last hlast d)
    (covered_split host p.runtime.context.agentId p.store (p.runtime.activeSession t) d _)).symm

theorem completed_carries (hcf : host.CollisionFree) (hs : s.Keeps host agentId fun _ _ => True)
    (idle : s.hook.result.isSome = true) (reconciles : s.provider.Reconciles host t messages)
    (last : (committedTurns host messages).getLast? = some (t.current host)) {after : List DeploymentAct}
    (quiet : ∀ e, .begin e ∉ after) {operationId : String}
    (returns : (Run.exec (Deployment.step host) (s.step host (.begin (.sync t))) after).hook.result
      = some (.ok (some operationId))) : CoversLive host s.provider t messages ↔
    Carries host agentId (Run.exec (Deployment.step host) (s.step host (.begin (.sync t))) after).sys
      (s.provider.runtime.activeSession t) messages := by
  obtain ⟨name, ha⟩ := s.runtime.context.agentId_prefix
  obtain rfl := hs.agent
  have hflag := (required_iff _ _).mp reconciles.required
  have hsync := syncTurn_keeps hcf ha rfl True (t := t) (x := s.toShared) ⟨hs.ours, rfl⟩ fun _ => hflag
  have hrun := exec_keeps hcf ha (begin_sync_keeps hs idle hsync) quiet
  obtain ⟨L', hsettles, hsees⟩ := result_keeps hrun returns operationId rfl
  obtain ⟨R, hR, rfl⟩ := hsettles messages reconciles.messages trivial
  rw [carries_iff hcf ha hsees.ours]
  exact covers_iff last (p := s.provider) hR hsees.captures

end Completed

/-! ### Runs -/

/-- However the transactions of a completed turn that reconciles interleave with the tools, the workers and
the server: once it has returned, what the server has of the session is the transcript or under way to it,
exactly when it covered live captures as the turn began, as it must alone. -/
theorem transcript_carried (host : Host) (hcf : host.CollisionFree) (c : RuntimeContext)
    (sid parent : String) (before after : List DeploymentAct) {t : SyncTurn} {messages : List Message}
    {operationId : String} (idle : (Deployment.run host c sid parent before).hook.result.isSome = true)
    (reconciles : (Deployment.run host c sid parent before).provider.Reconciles host t messages)
    (last : (committedTurns host messages).getLast? = some (t.current host))
    (quiet : ∀ e, .begin e ∉ after)
    (returns : (Deployment.run host c sid parent (before ++ .begin (.sync t) :: after)).hook.result
      = some (.ok (some operationId))) :
    CoversLive host (Deployment.run host c sid parent before).provider t messages ↔
      Carries host c.agentId (Deployment.run host c sid parent (before ++ .begin (.sync t) :: after)).sys
        ((Deployment.run host c sid parent before).provider.runtime.activeSession t) messages := by
  rw [run_split] at returns ⊢
  exact completed_carries hcf (run_keeps hcf c sid parent before) idle reconciles last quiet returns

/-! ### A worker between a plan and its correction -/

/-- Turn `a` is captured and rewound. -/
def beforeTurn : List DeploymentAct :=
  [.begin restarted, .proceed, .begin (completed "a" ["a"])] ++ List.replicate 7 .proceed
    ++ [.begin rewound, .proceed]

/-- Turn `b` reconciles. A worker claims the capture of `a` after its correction was planned. -/
def amidTurn : List DeploymentAct :=
  List.replicate 3 .proceed ++ [.work (.claim sampleConfig (samplePage "worker" "token" 2))]
    ++ List.replicate 5 .proceed

def sampleDeployment : Deployment := Deployment.run Host.plain sampleAgent "s" "" beforeTurn

theorem transcript_carried_sample : Carries Host.plain sampleAgent.agentId
    (Deployment.run Host.plain sampleAgent "s" ""
      (beforeTurn ++ .begin (.sync (completedTurn "b" ["b"])) :: amidTurn)).sys "s" (transcript ["b"]) := by
  have hsplit : Deployment.run Host.plain sampleAgent "s" ""
      (beforeTurn ++ .begin (.sync (completedTurn "b" ["b"])) :: amidTurn)
        = Run.exec (Deployment.step Host.plain)
          (sampleDeployment.step Host.plain (.begin (.sync (completedTurn "b" ["b"])))) amidTurn :=
    run_split Host.plain sampleAgent "s" "" beforeTurn amidTurn _
  -- one evaluation, so that the run is computed once
  obtain ⟨hidle, hactive, hrequired, hskips, hstaled, hnew, hreturned⟩ :
      sampleDeployment.hook.result.isSome = true ∧
        sampleDeployment.provider.runtime.activeSession (completedTurn "b" ["b"]) = "s" ∧
        sampleDeployment.provider.store.sessionReconcileRequired "s" = true ∧
        sampleDeployment.provider.runtime.skips Host.plain (completedTurn "b" ["b"]) = false ∧
        (sampleDeployment.provider.store.turnsOf "s").any (fun x => sampleDeployment.provider.store.staled
          Host.plain sampleDeployment.provider.runtime.context.agentId x) = false ∧
        (sampleDeployment.provider.store.capturesOf "s"
          ((completedTurn "b" ["b"]).digest Host.plain)).length = 0 ∧
        (Run.exec (Deployment.step Host.plain) (sampleDeployment.step Host.plain
          (.begin (.sync (completedTurn "b" ["b"])))) amidTurn).hook.result.map returned = some true := by
    decide +kernel
  have honce : 0 < (committedTurnFingerprints Host.plain (transcript ["b"])).count
      ((completedTurn "b" ["b"]).digest Host.plain) := by decide +kernel
  have hlast : (committedTurns Host.plain (transcript ["b"])).getLast?
      = some ((completedTurn "b" ["b"]).current Host.plain) := by decide +kernel
  have hcovers : CoversLive Host.plain sampleDeployment.provider (completedTurn "b" ["b"])
      (transcript ["b"]) := by
    intro digest
    rw [hactive, if_neg, List.countP_eq_zero]
    · intro x hx
      exact List.any_eq_false.mp hstaled x (List.mem_filter.mp (List.mem_of_mem_take hx)).1
    · rintro ⟨rfl, hle⟩
      exact absurd (hle.trans_eq hnew) (Nat.not_le.mpr honce)
  obtain ⟨result, hresult, hreturns⟩ := Option.map_eq_some_iff.mp hreturned
  obtain ⟨operationId, rfl⟩ := (returned_iff result).mp hreturns
  rw [← hsplit] at hresult
  rw [← hactive] at hrequired
  unfold sampleDeployment at hidle hactive hskips hrequired hcovers
  have hquiet : ∀ e, .begin e ∉ amidTurn := by simp [amidTurn]
  have hiff := transcript_carried Host.plain plain_collisionFree sampleAgent "s" "" beforeTurn amidTurn
    (t := completedTurn "b" ["b"]) hidle ⟨hskips, rfl, hrequired⟩ hlast hquiet hresult
  rw [hactive] at hiff
  exact hiff.mp hcovers

end SibylMemory
