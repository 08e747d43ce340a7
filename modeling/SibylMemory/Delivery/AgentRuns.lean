import SibylMemory.Delivery.Endings
import SibylMemory.LateTurns
import SibylMemory.Recovery

/-!
# The acts of one agent

All transactions of a runtime are made under one agent id. The rewind corrections among them are
then those of the indexed turns, and each one waits for its capture or was made after the capture
had taken effect. Whatever the other threads do, the index of the captures stays as it is.
-/

namespace SibylMemory
open Outbox Idempotency Text

def OwnAct.By (agentId : String) : OwnAct → Prop
  | .capture c _ _ _ _ _ _ => c.agentId = agentId
  | .rewind a _ _ _ _ => a = agentId
  | .remember c _ _ _ _ => c.agentId = agentId
  | .correct c _ _ _ _ _ => c.agentId = agentId
  | .expose c _ _ _ _ _ _ => c.agentId = agentId
  | .mark _ _ _ _ => True
  | .reserve _ _ _ => True

/-- The transactions of the tools and of what is handed to Hermes. -/
def OwnAct.aside : OwnAct → Bool
  | .remember _ _ _ _ _ => true
  | .correct _ _ _ _ _ _ => true
  | .expose _ _ _ _ _ _ _ => true
  | .reserve _ _ _ => true
  | _ => false

/-- The capture under the id has taken effect. -/
def System.Took (sys : System) (i : String) : Prop :=
  ∃ e, find sys.server ("hermes-turn-" ++ i) = some e

/-- The act is the agent's, and what it corrects without a dependency has taken effect. -/
structure OwnAct.Guarded (agentId : String) (sys : System) (o : OwnAct) : Prop where
  agent : o.By agentId
  grounded : ∀ a index revision now t, o = .rewind a index revision false now →
    sys.store.turns.rows[index]? = some t → sys.Took t.operationId

def Act.Guarded (agentId : String) (sys : System) : Act → Prop
  | .own o => o.Guarded agentId sys
  | _ => True

/-- Reached by acts of the agent. -/
def System.Ours (host : Host) (agentId : String) (sys : System) : Prop :=
  ∃ acts, Run.Always (System.step host) (Act.Guarded agentId) System.start acts ∧
    sys = System.run host acts

section Ours
variable {host : Host} {agentId : String} {sys : System}

theorem start_ours (host : Host) (agentId : String) : System.start.Ours host agentId :=
  ⟨[], trivial, rfl⟩

theorem System.Ours.step (h : sys.Ours host agentId) {a : Act} (ha : a.Guarded agentId sys) :
    (sys.step host a).Ours host agentId := by
  obtain ⟨acts, hacts, rfl⟩ := h
  refine ⟨acts ++ [a], (Run.always_append _ _ _).mpr ⟨hacts, ha, trivial⟩, ?_⟩
  rw [System.run, System.run, Run.exec_append]
  rfl

theorem System.Ours.sound (h : sys.Ours host agentId) : sys.Sound host := by
  obtain ⟨acts, -, rfl⟩ := h
  exact run_sound host acts

theorem System.Ours.waited (h : sys.Ours host agentId) : Waited host sys := by
  obtain ⟨acts, -, rfl⟩ := h
  exact run_waited host acts

theorem System.Ours.chained (h : sys.Ours host agentId) : Chained host sys := by
  obtain ⟨acts, -, rfl⟩ := h
  exact run_chained host acts

theorem System.Ours.ended (h : sys.Ours host agentId) : Ended host sys := by
  obtain ⟨acts, -, rfl⟩ := h
  exact run_ended host acts

end Ours

/-! ### Rewind corrections -/

/-- The content corrects the turn, and waits for its capture or comes after it. -/
structure Content.Corrects (host : Host) (agentId : String) (sys : System) (c : Content) (t : TurnRow) :
    Prop where
  indexed : t ∈ sys.store.turns.rows
  rewound : (sys.book (rewindId host agentId t.operationId)).isSome
  endpoint : c.endpoint = correctionEndpoint t.sourceId
  after : c.dependsOn = some t.operationId ∨ (sys.Took t.operationId ∧
    Follows sys.server c.idempotencyKey ("hermes-turn-" ++ t.operationId))

/-- What the agent's operations say of its turns. -/
structure Rewound (host : Host) (agentId : String) (sys : System) : Prop where
  below : ∀ t ∈ sys.store.turns.rows, t.localSequence < sys.store.nextSequence t.sessionId
  rewinds : ∀ i c, Digest i → sys.book (rewindId host agentId i) = some c →
    c.kind = "rewind_correction" ∧
      ∃ t ∈ sys.store.turns.rows, t.operationId = i ∧ c.endpoint = correctionEndpoint t.sourceId
  corrects : ∀ i c, sys.book i = some c → c.kind = "rewind_correction" →
    ∃ t, c.Corrects host agentId sys t

/-- An operation that is no rewind correction, or is one of an indexed turn. -/
structure Offers (host : Host) (agentId : String) (sys : System) (op : NewOperation) : Prop where
  rewinds : ∀ i, Digest i → op.operationId = rewindId host agentId i → op.kind = "rewind_correction" ∧
    ∃ t ∈ sys.store.turns.rows, t.operationId = i ∧ op.endpoint = correctionEndpoint t.sourceId
  corrects : op.kind = "rewind_correction" → ∃ t ∈ sys.store.turns.rows,
    op.endpoint = correctionEndpoint t.sourceId ∧
      (op.operationId = rewindId host agentId t.operationId ∨
        (sys.book (rewindId host agentId t.operationId)).isSome) ∧
      (op.dependsOn = some t.operationId ∨ sys.Took t.operationId)

theorem start_rewound (host : Host) (agentId : String) : Rewound host agentId System.start where
  below := fun t h => by cases h
  rewinds := fun i c hi h => by cases h
  corrects := fun i c h => by cases h

section Offers
variable {host : Host} {agentId : String} {sys : System}

theorem offers_other {op : NewOperation} (hid : ∀ i, Digest i → op.operationId ≠ rewindId host agentId i)
    (hkind : op.kind ≠ "rewind_correction") : Offers host agentId sys op where
  rewinds := fun i hi h => absurd h (hid i hi)
  corrects := fun h => absurd h hkind

theorem aside_offered (hcf : host.CollisionFree) {o : OwnAct} (aside : o.aside = true)
    (agent : o.By agentId) {s : Store} {c : Call} {r : Reply} {op : NewOperation}
    (hc : o.call host s = some c) (hoffer : offered (c, .ok r) = some op) :
    (∀ i, Digest i → op.operationId ≠ rewindId host agentId i) ∧ op.kind ≠ "rewind_correction" := by
  cases o with
  | capture => cases aside
  | rewind => cases aside
  | mark => cases aside
  | reserve sid parent now =>
    cases hc
    cases hoffer
  | remember context sid callIdentity args now =>
    obtain ⟨op', hop, rfl⟩ := Option.map_eq_some_iff.mp hc
    obtain rfl := enqueue_offered hoffer
    obtain rfl : context.agentId = agentId := agent
    cases hr : rememberOperation host context sid callIdentity args with
    | error e =>
      rw [hr] at hop
      cases hop
    | ok op'' =>
      rw [hr] at hop
      cases hop
      unfold rememberOperation at hr
      simp only [bind_ok] at hr
      obtain ⟨payload, -, hr⟩ := hr
      cases hr
      exact ⟨fun i hi => hashParts_ne_rewind hcf hi, (by decide : "manual_remember" ≠ "rewind_correction")⟩
  | correct context sid callIdentity args currentRevision now =>
    cases hc
    obtain rfl := enqueue_offered hoffer
    obtain rfl : context.agentId = agentId := agent
    exact ⟨fun i hi => hashParts_ne_rewind hcf hi, (by decide : "manual_correction" ≠ "rewind_correction")⟩
  | expose context sessionHash queryHash deliverySequence renderedItemIds automatic now =>
    cases hc
    obtain rfl := enqueue_offered hoffer
    obtain rfl : context.agentId = agentId := agent
    exact ⟨fun i hi => hashParts_ne_rewind hcf hi, (by decide : "context_exposure" ≠ "rewind_correction")⟩

theorem own_offers (hcf : host.CollisionFree) {o : OwnAct} (ho : o.Guarded agentId sys) {c : Call}
    {r : Reply} {op : NewOperation} (hc : o.call host sys.store = some c)
    (hoffer : offered (c, .ok r) = some op) : Offers host agentId sys op := by
  by_cases aside : o.aside = true
  · obtain ⟨hid, hkind⟩ := aside_offered hcf aside ho.agent hc hoffer
    exact offers_other hid hkind
  have hagent := ho.agent
  cases o with
  | capture context sid parent turnNumber u a now =>
    cases hc
    obtain rfl : context.agentId = agentId := hagent
    cases r with
    | turn record =>
      simp only [offered] at hoffer
      split at hoffer
      · rename_i turn hturn
        cases hoffer
        have hcap := captureFactory_captured hturn
        obtain ⟨n, hid, -⟩ := hcap.ids
        refine offers_other (fun i hi => ?_) (by rw [hcap.kind]; decide)
        rw [hid]
        exact turn_ne_rewind hcf hi
      · cases hoffer
    | _ => cases hoffer
  | rewind a index revision queued now =>
    obtain ⟨t, ht, rfl⟩ := Option.map_eq_some_iff.mp hc
    obtain rfl := enqueue_offered hoffer
    obtain rfl : a = agentId := hagent
    have hmem := List.mem_of_getElem? ht
    refine ⟨fun i hi h => ⟨rfl, t, hmem, rewindOperationId_inj hcf h, rfl⟩, fun _ => ?_⟩
    refine ⟨t, hmem, rfl, .inl rfl, ?_⟩
    cases queued with
    | true => exact .inl rfl
    | false => exact .inr (ho.grounded _ _ _ _ t rfl ht)
  | mark sid parent required now =>
    cases hc
    cases hoffer
  | _ => exact absurd rfl aside

theorem Rewound.replaced_offers (hcf : host.CollisionFree) {name : String}
    (ha : agentId = "hermes:" ++ name) (h : sys.Sound host) (hr : Rewound host agentId sys) {x : Sent}
    {exchange : Exchange} (hanswer : (x, exchange) ∈ sys.answers) {r : CorrectionRequest}
    {preview : CorrectionResponse} {op : NewOperation} {revision : Int} {action : String}
    {metadata json : JSONObject}
    (hrep : Replaced host x.op r preview op revision action metadata json) :
    Offers host agentId sys op := by
  have hbook := h.content (h.staged.answers _ hanswer)
  have hdigest := (h.catalogued.formed _ _ hbook).1
  rw [hrep.operation]
  refine ⟨fun i hi he => absurd he (replacement_ne_agent hcf ha hdigest), fun hkind => ?_⟩
  obtain ⟨t, ht⟩ := hr.corrects _ _ hbook hkind
  exact ⟨t, ht.indexed, ht.endpoint, .inr ht.rewound, ht.after.imp_right And.left⟩

end Offers

/-! ### One step -/

section Step
variable {host : Host} {agentId : String} {sys : System}

theorem exec_book_isSome (hb : Booked sys) (c : Call) {i : String} (h : (sys.book i).isSome) :
    ((sys.exec host c).book i).isSome := by
  obtain ⟨content, hi⟩ := Option.isSome_iff_exists.mp h
  rw [exec_book_keep hb c hi]
  rfl

theorem exec_corrects (hb : Booked sys) {c : Call} {content : Content} {t : TurnRow}
    (h : content.Corrects host agentId sys t) : ∃ t', content.Corrects host agentId (sys.exec host c) t' := by
  rcases exec_cases host sys c with he | ⟨r, heff, -⟩
  · rw [he]
    exact ⟨t, h⟩
  · obtain ⟨t', ht', -, -, hid, hsource, -⟩ := effect_turns_keep heff h.indexed
    refine ⟨t', ht', ?_, by rw [hsource]; exact h.endpoint, ?_⟩ <;> rw [hid]
    · exact exec_book_isSome hb c h.rewound
    · exact h.after

theorem exec_rewound (h : sys.Sound host) (hr : Rewound host agentId sys) {c : Call}
    (called : Called host sys c)
    (hoffers : ∀ r op, offered (c, .ok r) = some op → Offers host agentId sys op) :
    Rewound host agentId (sys.exec host c) := by
  rcases exec_cases host sys c with he | ⟨r, heff, hexec⟩
  · rw [he]
    exact hr
  have hkeep : ∀ t ∈ sys.store.turns.rows, ∃ t' ∈ (sys.exec host c).store.turns.rows,
      t'.operationId = t.operationId ∧ t'.sourceId = t.sourceId := by
    intro t ht
    obtain ⟨t', ht', -, -, hid, hsource, -⟩ := effect_turns_keep heff ht
    exact ⟨t', ht', hid, hsource⟩
  refine ⟨fun t ht => effect_turn_below heff (called_not_index called) hr.below ht,
    fun i content hi hc => ?_, fun i content hc hkind => ?_⟩
  · obtain ⟨hkind, t, ht, hid, hendpoint⟩ : content.kind = "rewind_correction" ∧
        ∃ t ∈ sys.store.turns.rows, t.operationId = i ∧
          content.endpoint = correctionEndpoint t.sourceId := by
      rcases exec_book_cases hexec hc with hold | ⟨op, hoffer, hid, rfl⟩
      · exact hr.rewinds i content hi hold
      · exact (hoffers r op hoffer).rewinds i hi hid
    obtain ⟨t', ht', hid', hsource⟩ := hkeep t ht
    exact ⟨hkind, t', ht', hid'.trans hid, by rw [hsource]; exact hendpoint⟩
  · cases hbook : sys.book i with
    | some old =>
      have hsame : (sys.exec host c).book i = some old := exec_book_keep h.booked c hbook
      rw [hc] at hsame
      cases hsame
      obtain ⟨t, ht⟩ := hr.corrects i content hbook hkind
      exact exec_corrects h.booked ht
    | none =>
      -- it was never sent, so that no effect of it comes before that of the capture
      have hunsent := exec_unsent h called hbook hc
      rcases exec_book_cases hexec hc with hold | ⟨op, hoffer, hid, rfl⟩
      · rw [hbook] at hold
        cases hold
      · obtain ⟨t, ht, hendpoint, hroot, hafter⟩ := (hoffers r op hoffer).corrects hkind
        obtain ⟨t', ht', hid', hsource⟩ := hkeep t ht
        refine ⟨t', ht', ?_, by rw [hsource]; exact hendpoint, ?_⟩ <;> rw [hid']
        · rcases hroot with hroot | hroot
          · rw [← hroot, hid, hc]
            rfl
          · exact exec_book_isSome h.booked c hroot
        · exact hafter.imp_right fun htook => ⟨htook, follows_absent hunsent⟩

/-- A rewind correction that a row is the target of corrects that row. -/
theorem Rewound.corrects_turn (hr : Rewound host agentId sys) {t : TurnRow}
    (ht : t ∈ sys.store.turns.rows) {i : String} {c : Content} (hi : sys.book i = some c)
    (hkind : c.kind = "rewind_correction") (hendpoint : c.endpoint = correctionEndpoint t.sourceId) :
    c.Corrects host agentId sys t := by
  obtain ⟨t', ht'⟩ := hr.corrects i c hi hkind
  have hsource : t'.sourceId = t.sourceId :=
    correctionEndpoint_inj (ht'.endpoint.symm.trans hendpoint)
  exact List.inj_on_of_nodup_map sys.store.turns.sourceUnique ht'.indexed ht hsource ▸ ht'

/-! ### The steps of others -/

/-- What a worker or the server does to the outbox, the book and the log. -/
inductive Worked (host : Host) (sys sys' : System) : Prop where
  | quiet (store : sys'.store = sys.store) (book : sys'.book = sys.book)
      (server : sys'.server = sys.server)
  | served {key : String} {body : String × String} {choice : Option Int}
      (store : sys'.store = sys.store) (book : sys'.book = sys.book)
      (server : sys'.server = (serve sys.server key body choice).2)
  | call {c : Call} (called : Called host sys c) (delivers : c.Delivers)
      (store : sys'.store = (sys.exec host c).store) (book : sys'.book = (sys.exec host c).book)
      (server : sys'.server = sys.server)

theorem concludes_delivers {x : Sent} {exchange : Exchange} {requestId : String} {now : Instant}
    {c : Call} (h : x.call host exchange requestId now = some c) : c.Delivers := by
  cases call_concludes h <;> trivial

theorem step_worked (host : Host) (sys : System) {a : Act} (ha : ∀ o, a ≠ .own o) :
    Worked host sys (sys.step host a) := by
  cases a with
  | own o => exact absurd rfl (ha o)
  | claim config page => exact .call (c := .claimPage config page) (.tend trivial) trivial rfl rfl rfl
  | renew config index lease now stamp =>
    simp only [System.step]
    split
    · rename_i op _
      exact .call (c := .renewClaim config op lease now stamp) (.tend trivial) trivial rfl rfl rfl
    · exact .quiet rfl rfl rfl
  | unblock now => exact .call (c := .unblockAuth now) (.tend trivial) trivial rfl rfl rfl
  | release indices now =>
    exact .call (c := .releaseUnattempted (indices.filterMap fun i => sys.claimed[i]?) now)
      (.tend trivial) trivial rfl rfl rfl
  | begin index =>
    simp only [System.step, System.begin]
    repeat' split
    all_goals exact .quiet rfl rfl rfl
  | send index =>
    simp only [System.step, System.send]
    repeat' split
    all_goals exact .quiet rfl rfl rfl
  | serve index choice exchange =>
    simp only [System.step, System.serve]
    repeat' split
    · exact .quiet rfl rfl rfl
    · exact .served rfl rfl rfl
    · exact .quiet rfl rfl rfl
    · exact .quiet rfl rfl rfl
  | answer index exchange =>
    simp only [System.step, System.answer]
    repeat' split
    all_goals exact .quiet rfl rfl rfl
  | finish index requestId now =>
    simp only [System.step]
    split
    · rename_i x exchange hx
      obtain ⟨sys₁, he, ⟨-, rfl⟩ | ⟨c, hc, rfl⟩⟩ := finish_system host sys x exchange requestId now <;>
        rw [he]
      · exact .quiet rfl rfl rfl
      · exact .call (.finish (List.mem_of_getElem? hx) hc) (concludes_delivers hc) rfl rfl rfl
    · exact .quiet rfl rfl rfl
  | apply index now =>
    simp only [System.step]
    split
    · rename_i op result hr
      exact .call (.apply (List.mem_of_getElem? hr)) trivial rfl rfl rfl
    · exact .quiet rfl rfl rfl

theorem delivers_offered {c : Call} {r : Reply} {op : NewOperation} (called : Called host sys c)
    (delivers : c.Delivers) (hoffer : offered (c, .ok r) = some op) :
    ∃ x exchange cr preview revision action metadata json, (x, exchange) ∈ sys.answers ∧
      Replaced host x.op cr preview op revision action metadata json := by
  cases c with
  | supersede claim replacement now =>
    obtain ⟨x, exchange, -, -, cr, preview, hanswer, -, -, -, hrec⟩ := called_supersede called
    obtain ⟨revision, action, metadata, json, hrep⟩ := reconcileCorrection_replaced hrec
    have hop : replacement = op := by
      cases r with
      | done => exact Option.some.inj hoffer
      | _ => cases hoffer
    exact ⟨x, exchange, cr, preview, revision, action, metadata, json, hanswer, hop ▸ hrep⟩
  | claimPage => cases hoffer
  | renewClaim => cases hoffer
  | recordTurnRevision => cases hoffer
  | applyResult => cases hoffer
  | unblockAuth => cases hoffer
  | releaseUnattempted => cases hoffer
  | _ => exact absurd delivers id

theorem Rewound.congr (hr : Rewound host agentId sys) {sys' : System} (store : sys'.store = sys.store)
    (book : sys'.book = sys.book) (server : sys'.server = sys.server) : Rewound host agentId sys' := by
  refine ⟨by rw [store]; exact hr.below, by rw [store, book]; exact hr.rewinds, fun i c hi hkind => ?_⟩
  rw [book] at hi
  obtain ⟨t, ht⟩ := hr.corrects i c hi hkind
  refine ⟨t, by rw [store]; exact ht.indexed, by rw [book]; exact ht.rewound, ht.endpoint, ?_⟩
  simp only [System.Took, server]
  exact ht.after

theorem serve_took {i key : String} {body : String × String} {choice : Option Int} {sys' : System}
    (server : sys'.server = (serve sys.server key body choice).2) (h : sys.Took i) : sys'.Took i := by
  obtain ⟨e, he⟩ := h
  exact ⟨e, by rw [server]; exact serve_find he⟩

theorem served_rewound (hr : Rewound host agentId sys) {sys' : System} {key : String}
    {body : String × String} {choice : Option Int} (store : sys'.store = sys.store)
    (book : sys'.book = sys.book) (server : sys'.server = (serve sys.server key body choice).2) :
    Rewound host agentId sys' := by
  refine ⟨by rw [store]; exact hr.below, by rw [store, book]; exact hr.rewinds, fun i c hi hkind => ?_⟩
  rw [book] at hi
  obtain ⟨t, ht⟩ := hr.corrects i c hi hkind
  refine ⟨t, by rw [store]; exact ht.indexed, by rw [book]; exact ht.rewound, ht.endpoint,
    ht.after.imp_right fun ⟨htook, hfollows⟩ => ?_⟩
  exact ⟨serve_took server htook, by rw [server]; exact serve_follows hfollows fun _ => htook⟩

theorem worked_rewound (hcf : host.CollisionFree) {name : String} (ha : agentId = "hermes:" ++ name)
    (h : sys.Sound host) (hr : Rewound host agentId sys) {sys' : System} (hw : Worked host sys sys') :
    Rewound host agentId sys' := by
  cases hw with
  | quiet store book server => exact hr.congr store book server
  | served store book server => exact served_rewound hr store book server
  | call called delivers store book server =>
    refine (exec_rewound h hr called fun r op hoffer => ?_).congr store book server
    obtain ⟨x, exchange, cr, preview, revision, action, metadata, json, hanswer, hrep⟩ :=
      delivers_offered called delivers hoffer
    exact hr.replaced_offers hcf ha h hanswer hrep

theorem step_rewound (hcf : host.CollisionFree) {name : String} (ha : agentId = "hermes:" ++ name)
    (h : sys.Sound host) (hr : Rewound host agentId sys) {a : Act} (guarded : a.Guarded agentId sys) :
    Rewound host agentId (sys.step host a) := by
  by_cases hown : ∃ o, a = .own o
  · obtain ⟨o, rfl⟩ := hown
    simp only [System.step]
    split
    · rename_i c hc
      exact exec_rewound h hr (.own hc) fun r op hoffer => own_offers hcf guarded hc hoffer
    · exact hr
  · exact worked_rewound hcf ha h hr (step_worked host sys fun o ho => hown ⟨o, ho⟩)

theorem System.Ours.rewound (hcf : host.CollisionFree) {name : String} (ha : agentId = "hermes:" ++ name)
    (h : sys.Ours host agentId) : Rewound host agentId sys := by
  obtain ⟨acts, hacts, rfl⟩ := h
  exact (@Run.exec_invariant _ _ (System.step host) (Act.Guarded agentId)
    (fun sys => sys.Sound host ∧ Rewound host agentId sys)
    (fun sys a hi hg => ⟨step_sound hi.1 a, step_rewound hcf ha hi.1 hi.2 hg⟩) _ acts
    ⟨start_sound host, start_rewound host agentId⟩ hacts).2

end Step

/-! ### What the runtime's thread reads stays -/

def Outbox.TurnRow.unrevised (t : TurnRow) : TurnRow := { t with revision := none }

/-- The index but for its revisions, the corrections that are accepted, the sessions that wait for a
reconciliation, and the effects. -/
structure Framed (host : Host) (agentId : String) (sys sys' : System) : Prop where
  rows : sys'.store.turns.rows.map TurnRow.unrevised = sys.store.turns.rows.map TurnRow.unrevised
  staled : ∀ i, Digest i → (sys'.store.known (rewindId host agentId i)).isSome
    = (sys.store.known (rewindId host agentId i)).isSome
  required : ∀ sid, sys.store.flag sid = some true → sys'.store.flag sid = some true
  took : ∀ i, sys.Took i → sys'.Took i

section Frames
variable {host : Host} {agentId : String} {sys sys' sys'' : System}

theorem Framed.refl (host : Host) (agentId : String) (sys : System) : Framed host agentId sys sys :=
  ⟨rfl, fun _ _ => rfl, fun _ h => h, fun _ h => h⟩

theorem Framed.trans (h : Framed host agentId sys sys') (h' : Framed host agentId sys' sys'') :
    Framed host agentId sys sys'' where
  rows := h'.rows.trans h.rows
  staled := fun i hi => (h'.staled i hi).trans (h.staled i hi)
  required := fun sid hs => h'.required sid (h.required sid hs)
  took := fun i hi => h'.took i (h.took i hi)

/-- The call leaves the index and the flags of the sessions alone. -/
def Outbox.Call.Aside : Call → Prop
  | .enqueueTurn _ _ _ _ => False
  | .indexTurn _ _ _ _ _ _ => False
  | .markSessionReconcile _ _ _ _ => False
  | _ => True

theorem setRevision_unrevised (turns : TurnTable) (i : String) (revision : Int) :
    (turns.setRevision i revision).rows.map TurnRow.unrevised = turns.rows.map TurnRow.unrevised := by
  simp only [TurnTable.setRevision, List.map_map]
  refine List.map_congr_left fun t _ => ?_
  simp only [Function.comp_apply]
  split <;> rfl

theorem exec_framed {c : Call} (aside : c.Aside) (hoffers : ∀ r op, offered (c, .ok r) = some op →
    ∀ i, Digest i → op.operationId ≠ rewindId host agentId i) :
    Framed host agentId sys (sys.exec host c) := by
  rcases exec_cases host sys c with he | ⟨r, heff, -⟩
  · rw [he]
    exact Framed.refl host agentId sys
  refine ⟨?_, fun i hi => ?_, fun sid hs => effect_flag heff (fun hf => ?_) hs, fun _ h => h⟩
  · generalize (sys.exec host c).store = s' at heff
    cases heff with
    | turn => exact absurd aside id
    | index => exact absurd aside id
    | record positive => exact setRevision_unrevised _ _ _
    | _ => rfl
  · rw [effect_known_eq heff]
    split
    · rename_i op hoffer
      rw [if_neg (hoffers r op hoffer i hi).symm]
    · rfl
  · cases c <;> first | exact aside | exact hf

theorem Framed.congr (h : Framed host agentId sys sys') (store : sys''.store = sys'.store)
    (server : sys''.server = sys'.server) : Framed host agentId sys sys'' := by
  refine ⟨by rw [store]; exact h.rows, by rw [store]; exact h.staled, by rw [store]; exact h.required, ?_⟩
  simp only [System.Took, server]
  exact h.took

theorem worked_framed (hcf : host.CollisionFree) {name : String} (ha : agentId = "hermes:" ++ name)
    (h : sys.Sound host) (hw : Worked host sys sys') : Framed host agentId sys sys' := by
  cases hw with
  | quiet store book server => exact (Framed.refl host agentId sys).congr store server
  | served store book server =>
    refine ⟨by rw [store], fun i _ => by rw [store], fun sid hs => by rw [store]; exact hs, fun i hi => ?_⟩
    exact serve_took server hi
  | @call c called delivers store book server =>
    refine (exec_framed (c := c) ?_ fun r op hoffer i hi => ?_).congr store server
    · cases c <;> trivial
    · obtain ⟨x, exchange, cr, preview, revision, action, metadata, json, hanswer, hrep⟩ :=
        delivers_offered called delivers hoffer
      have hdigest := (h.catalogued.formed _ _ (h.content (h.staged.answers _ hanswer))).1
      rw [hrep.operation]
      exact replacement_ne_agent hcf ha hdigest

theorem aside_call {o : OwnAct} (aside : o.aside = true) {s : Store} {c : Call}
    (hc : o.call host s = some c) : c.Aside := by
  cases o with
  | remember =>
    obtain ⟨op, -, rfl⟩ := Option.map_eq_some_iff.mp hc
    trivial
  | correct => cases hc; trivial
  | expose => cases hc; trivial
  | reserve => cases hc; trivial
  | _ => cases aside

theorem aside_framed (hcf : host.CollisionFree) {o : OwnAct} (aside : o.aside = true)
    (agent : o.By agentId) : Framed host agentId sys (sys.step host (.own o)) := by
  simp only [System.step]
  split
  · rename_i c hc
    exact exec_framed (aside_call aside hc) fun r op hoffer => (aside_offered hcf aside agent hc hoffer).1
  · exact Framed.refl host agentId sys

end Frames

end SibylMemory
