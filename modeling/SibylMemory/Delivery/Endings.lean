import SibylMemory.Delivery.ExactlyOnce
import SibylMemory.ErrorResponses
import SibylMemory.WireRequests

/-!
# What becomes of an accepted operation

The outbox archives an operation that took effect, one that another took the place of, and a
correction that the server has no use for. What an operation waited for took effect before it.
-/

namespace SibylMemory
open Outbox Idempotency Text

/-- The server has no use for a correction: it has no such memory, or it said in a preview that the
memory is erased or is as the correction would have it. -/
inductive Dismissed (host : Host) (sys : System) (i : String) : Prop where
  | missing {x : Sent} {r : Response} (answered : (x, .answered r) ∈ sys.answers)
      (id : x.op.operationId = i) (correction : isCorrection x.op = true) (status : r.status = 404)
  | needless {x : Sent} {exchange : Exchange} {requestId sourceId : String} {r : CorrectionRequest}
      {preview : CorrectionResponse} (answered : (x, exchange) ∈ sys.answers)
      (id : x.op.operationId = i) (attempt : x.attempt = .preview sourceId r)
      (read : request host (fun _ => exchange) requestId x.wire CorrectionResponse.fromJson
        (fun _ => .ok ()) = .ok preview)
      (needless : preview.targetLifecycleState = "erased" ∨ preview.intendedOutcomeSatisfied = true)

theorem Dismissed.mono {host : Host} {sys sys' : System} {i : String}
    (hm : ∀ y ∈ sys.answers, y ∈ sys'.answers) (h : Dismissed host sys i) : Dismissed host sys' i := by
  cases h with
  | missing answered id correction status => exact .missing (hm _ answered) id correction status
  | needless answered id attempt read needless => exact .needless (hm _ answered) id attempt read needless

/-! ### Results -/

theorem classify_obsolete {status : Nat} {code : Option String} {correction pending : Bool}
    (h : classifyHttpFailure (some status) code correction pending = .obsolete) :
    status = 404 ∧ correction = true := by
  unfold classifyHttpFailure at h
  dsimp only at h
  split_ifs at h with h₁ h₂ h₃
  · exact h₃

theorem failed_obsolete {op : ClaimedOperation} {e : ClientError}
    (h : (failedAttempt op e).action = .obsolete) :
    isCorrection op = true ∧ 404 ∈ e.statusCode := by
  cases e with
  | http data => exact (classify_obsolete h).symm.imp_right fun hs => congrArg some hs
  | conflict data => exact (classify_obsolete h).symm.imp_right fun hs => congrArg some hs
  | _ => cases h

section Finish
variable {host : Host} {sys : System} {x : Sent} {exchange : Exchange} {requestId : String}
  {now : Instant} {s : Store}

theorem failed_dismissed (hanswer : (x, exchange) ∈ sys.answers) {α : Type}
    {parser : PyValue → Except String α} {check : α → Except String Unit} {e : ClientError}
    (hr : request host (fun _ => exchange) requestId x.wire parser check = .error e)
    (h : (failedAttempt x.op e).action = .obsolete) : Dismissed host sys x.op.operationId := by
  obtain ⟨hcorrection, hstatus⟩ := failed_obsolete h
  obtain ⟨r, rfl, hsame⟩ := request_statusCode hr hstatus
  exact .missing hanswer rfl hcorrection hsame.symm

theorem reconcileCorrection_obsolete {op : ClaimedOperation} {r : CorrectionRequest}
    {preview : CorrectionResponse} {result : AttemptResult}
    (h : reconcileCorrection host op r preview = .ok (.finished result))
    (ho : result.action = .obsolete) :
    preview.targetLifecycleState = "erased" ∨ preview.intendedOutcomeSatisfied = true := by
  obtain ⟨-, hdead | ⟨-, hneedless⟩⟩ := reconcileCorrection_finished h
  · rw [hdead] at ho
    cases ho
  · exact hneedless

theorem previewDone_obsolete {op : ClaimedOperation} {r : CorrectionRequest}
    {preview : CorrectionResponse} (h : (previewDone host op r preview now s).1.action = .obsolete) :
    preview.targetLifecycleState = "erased" ∨ preview.intendedOutcomeSatisfied = true := by
  unfold previewDone at h
  split at h
  · cases h
  · rename_i result hresult
    exact reconcileCorrection_obsolete hresult h
  · split at h <;> cases h

theorem finish_obsolete (hmade : x.attempt.wire x.op.idempotencyKey = .ok x.wire)
    (hanswer : (x, exchange) ∈ sys.answers)
    (h : (x.finish host exchange requestId now s).1.action = .obsolete) :
    Dismissed host sys x.op.operationId := by
  unfold Sent.finish at h
  split at h <;> rename_i ha
  · rw [ha] at hmade
    cases hmade
  · split at h
    · unfold rememberDone at h
      split at h <;> cases h
    · rename_i hr
      exact failed_dismissed hanswer hr h
  · split at h
    · cases h
    · rename_i hr
      exact failed_dismissed hanswer hr h
  · split at h
    · cases h
    · rename_i hr
      exact failed_dismissed hanswer hr h
  · split at h
    · rename_i hr
      exact .needless hanswer rfl ha hr (previewDone_obsolete h)
    · rename_i hr
      exact failed_dismissed hanswer hr h

end Finish

/-- A result is an old one, or does not dismiss its operation, or concludes an answer. -/
theorem step_results {host : Host} {sys : System} (a : Act) {y : ClaimedOperation × AttemptResult}
    (hy : y ∈ (sys.step host a).results) :
    y ∈ sys.results ∨ y.2.action ≠ .obsolete ∨ ∃ x exchange requestId now,
      (x, exchange) ∈ sys.answers ∧ y = (x.op, (x.finish host exchange requestId now sys.store).1) := by
  cases a with
  | begin index =>
    simp only [System.step] at hy
    split at hy
    · unfold System.begin at hy
      split at hy
      · rcases List.mem_append.mp hy with hy | hy
        · exact .inl hy
        · rw [List.mem_singleton.mp hy]
          exact .inr (.inl (by simp [AttemptResult.failure]))
      · rename_i result hresult
        rcases List.mem_append.mp hy with hy | hy
        · exact .inl hy
        · rw [List.mem_singleton.mp hy]
          refine .inr (.inl ?_)
          rcases beginAttempt_finished hresult with ⟨-, rfl⟩ | rfl
          · simp [revisionMissing, AttemptResult.failure]
          · simp [AttemptResult.failure]
      · exact .inl hy
    · exact .inl hy
  | send index =>
    simp only [System.step] at hy
    split at hy
    · unfold System.send at hy
      split at hy
      · rename_i e he
        rcases List.mem_append.mp hy with hy | hy
        · exact .inl hy
        · obtain ⟨className, rfl⟩ := wire_error he
          rw [List.mem_singleton.mp hy]
          exact .inr (.inl (by simp [failedAttempt, AttemptResult.failure]))
      · exact .inl hy
    · exact .inl hy
  | finish index requestId now =>
    simp only [System.step] at hy
    split at hy
    · rename_i x exchange hx
      obtain ⟨sys₁, he, hcall⟩ := finish_system host sys x exchange requestId now
      have hresults : sys₁.results = sys.results := by
        rcases hcall with ⟨-, rfl⟩ | ⟨c, -, rfl⟩ <;> rfl
      rw [he] at hy
      rcases List.mem_append.mp hy with hy | hy
      · exact .inl (hresults ▸ hy)
      · exact .inr (.inr ⟨x, exchange, requestId, now, List.mem_of_getElem? hx, List.mem_singleton.mp hy⟩)
    · exact .inl hy
  | own o => simp only [System.step] at hy; split at hy <;> exact .inl hy
  | renew => simp only [System.step] at hy; split at hy <;> exact .inl hy
  | apply => simp only [System.step] at hy; split at hy <;> exact .inl hy
  | serve =>
    simp only [System.step] at hy
    split at hy
    · unfold System.serve at hy
      split at hy
      · exact .inl hy
      · dsimp only at hy
        split at hy <;> exact .inl hy
    · exact .inl hy
  | answer =>
    simp only [System.step] at hy
    split at hy
    · unfold System.answer at hy
      split at hy <;> exact .inl hy
    · exact .inl hy
  | claim => exact .inl hy
  | unblock => exact .inl hy
  | release => exact .inl hy

/-! ### The invariant -/

theorem effect_obsolete {host : Host} {c : Call} {r : Reply} {s s' : Store} (h : Effect host s c r s')
    {i : String} {row : HistoryRow} (hrow : s'.history.find i = some row)
    (ho : row.outcome = .obsolete) : s.history.find i = some row ∨ ∃ op result now,
      c = .applyResult op result now ∧ op.operationId = i ∧ result.action = .obsolete := by
  cases h with
  | @archive op now live outcome history result action held token insert =>
    rw [KeyedTable.find_insert insert] at hrow
    split at hrow
    · rename_i hi
      have hid : live.operationId = op.operationId := KeyedTable.find_key held
      cases hrow
      refine .inr ⟨op, result, now, rfl, hid.symm.trans hi.symm, ?_⟩
      rcases action with ⟨-, hact⟩ | ⟨-, houtcome⟩
      · exact hact
      · have hobsolete : outcome = .obsolete := ho
        rw [houtcome] at hobsolete
        split at hobsolete <;> cases hobsolete
    · exact .inl hrow
  | @supersede op now live json hash operations history replacement valid canonical held token fresh
      insert archive =>
    rw [KeyedTable.find_insert archive] at hrow
    split at hrow
    · cases hrow
      cases ho
    · exact .inl hrow
  | _ => exact .inl hrow

structure Ended (host : Host) (sys : System) : Prop where
  results : ∀ y ∈ sys.results, y.2.action = .obsolete → Dismissed host sys y.1.operationId
  history : ∀ i row, sys.store.history.find i = some row → row.outcome = .obsolete →
    Dismissed host sys i
  order : ∀ i c d, sys.book i = some c → c.dependsOn = some d →
    Follows sys.server c.idempotencyKey ("hermes-turn-" ++ d)

theorem start_ended (host : Host) : Ended host System.start where
  results := fun y h => by cases h
  history := fun i row h => by cases h
  order := fun i c d h => by cases h

section Step
variable {host : Host} {sys sys' : System}

theorem move_answers (h : Move host sys sys') : ∀ y ∈ sys.answers, y ∈ sys'.answers := by
  cases h with
  | served => exact fun y hy => List.mem_append_left _ hy
  | answered => exact fun y hy => List.mem_append_left _ hy
  | finished answered =>
    exact @finish_keeps host sys (fun s => ∀ y ∈ sys.answers, y ∈ s.answers) _ _ _ _ answered
      (fun y hy => hy) (fun c _ y hy => hy) fun _ _ h => h
  | _ => exact fun y hy => hy

/-- The capture that an operation under this content waits for has taken effect. -/
theorem System.Sound.turn_effect (h : sys.Sound host) {i d : String} {c : Content}
    (hi : sys.book i = some c) (hd : c.dependsOn = some d) (hdone : sys.store.done d) :
    ∃ e, find sys.server ("hermes-turn-" ++ d) = some e := by
  obtain ⟨row, hrow, hdel⟩ := hdone
  obtain ⟨e, he⟩ := (h.accounted.history d row hrow hdel).1
  obtain ⟨-, t, ht, rfl⟩ := h.catalogued.dependency i c d hi hd
  obtain ⟨content, hcontent, -, hkey⟩ := h.catalogued.turns t ht
  obtain ⟨content', hcontent', hkey'⟩ := h.booked.archived _ row hrow
  cases hcontent.symm.trans hcontent'
  exact ⟨e, by rw [← hkey, hkey']; exact he⟩

/-- What is new in the book has not been sent. -/
theorem exec_unsent (h : sys.Sound host) {c : Call} (called : Called host sys c) {i : String}
    {content : Content} (hold : sys.book i = none) (hnew : (sys.exec host c).book i = some content) :
    find sys.server content.idempotencyKey = none := by
  have hs' : (sys.exec host c).Sound host :=
    ⟨exec_booked h.booked c, exec_staged h.staged c, exec_catalogued h.booked h.staged h.catalogued called,
      exec_accounted h called⟩
  refine Option.eq_none_iff_forall_ne_some.mpr fun e heffect => ?_
  obtain ⟨hmem, hkey⟩ := find_some heffect
  obtain ⟨x, hx, hkx, -⟩ := h.accounted.effects e hmem
  have hop : x.op.idempotencyKey = e.key := (h.keyed hx hkx).2
  have hid : x.op.operationId = i := hs'.catalogued.key_inj (hs'.content hx) hnew (hop.trans hkey)
  have hbook := h.content hx
  rw [hid, hold] at hbook
  cases hbook

theorem exec_order (h : sys.Sound host) (he : Ended host sys) {c : Call} (called : Called host sys c) :
    ∀ i content d, (sys.exec host c).book i = some content → content.dependsOn = some d →
      Follows sys.server content.idempotencyKey ("hermes-turn-" ++ d) := by
  intro i content d hi hd
  cases hold : sys.book i with
  | some old =>
    have hkeep : (sys.exec host c).book i = some old := exec_book_keep h.booked c hold
    rw [hi] at hkeep
    cases hkeep
    exact he.order i content d hold hd
  | none => exact follows_absent (exec_unsent h called hold hi)

theorem serve_order (h : sys.Sound host) (hw : Waited host sys) (he : Ended host sys) {x : Sent}
    {key : String} {choice : Option Int} (sent : x ∈ sys.sent)
    (keyed : x.wire.idempotencyKey = some key) {i d : String} {c : Content} (hi : sys.book i = some c)
    (hd : c.dependsOn = some d) : Follows (serve sys.server key x.wire.body choice).2 c.idempotencyKey
      ("hermes-turn-" ++ d) := by
  refine serve_follows (he.order i c d hi hd) fun hkey => ?_
  have hop : x.op.idempotencyKey = c.idempotencyKey := (h.keyed sent keyed).2.trans hkey
  have hid := h.catalogued.key_inj (h.content sent) hi hop
  have hcontent := h.content sent
  rw [hid, hi] at hcontent
  cases hcontent
  exact h.turn_effect hi hd (hw.claimed x.op (h.staged.begun _ (h.staged.sent x sent).1) d hd)

theorem exec_dismissed (he : Ended host sys) {c : Call} (called : Called host sys c) :
    ∀ i row, (sys.exec host c).store.history.find i = some row → row.outcome = .obsolete →
      Dismissed host sys i := by
  intro i row hrow ho
  rcases exec_cases host sys c with hsame | ⟨r, heff, -⟩
  · rw [hsame] at hrow
    exact he.history i row hrow ho
  · rcases effect_obsolete heff hrow ho with hold | ⟨op, result, now, rfl, rfl, hact⟩
    · exact he.history i row hold ho
    · exact he.results _ (called_apply called) hact

theorem move_dismissed (he : Ended host sys) (hmove : Move host sys sys') :
    ∀ i row, sys'.store.history.find i = some row → row.outcome = .obsolete → Dismissed host sys i := by
  cases hmove with
  | call called => exact exec_dismissed he called
  | finished answered =>
    exact @finish_keeps host sys (fun s => ∀ i row, s.store.history.find i = some row →
      row.outcome = .obsolete → Dismissed host sys i) _ _ _ _ answered he.history
      (fun c called => exec_dismissed he called) fun _ _ h => h
  | _ => exact he.history

theorem move_order (h : sys.Sound host) (hw : Waited host sys) (he : Ended host sys)
    (hmove : Move host sys sys') : ∀ i c d, sys'.book i = some c → c.dependsOn = some d →
      Follows sys'.server c.idempotencyKey ("hermes-turn-" ++ d) := by
  cases hmove with
  | call called => exact exec_order h he called
  | finished answered =>
    exact @finish_keeps host sys (fun s => ∀ i c d, s.book i = some c → c.dependsOn = some d →
      Follows s.server c.idempotencyKey ("hermes-turn-" ++ d)) _ _ _ _ answered he.order
      (fun c called => exec_order h he called) fun _ _ h => h
  | served sent keyed => exact fun i c d hi hd => serve_order h hw he sent keyed hi hd
  | _ => exact he.order

theorem step_ended (h : sys.Sound host) (hw : Waited host sys) (he : Ended host sys) (a : Act) :
    Ended host (sys.step host a) := by
  have hmove := step_move host sys a
  have hm := move_answers hmove
  refine ⟨fun y hy ho => ?_, fun i row hrow ho => (move_dismissed he hmove i row hrow ho).mono hm,
    move_order h hw he hmove⟩
  rcases step_results a hy with hold | hn | ⟨x, exchange, requestId, now, hanswer, rfl⟩
  · exact (he.results y hold ho).mono hm
  · exact absurd ho hn
  · exact (finish_obsolete (h.staged.sent x (h.staged.answers _ hanswer)).2 hanswer ho).mono hm

theorem run_ended (host : Host) (acts : List Act) : Ended host (System.run host acts) :=
  (@Run.exec_invariant_of_step _ _ (System.step host)
    (fun sys => sys.Sound host ∧ Waited host sys ∧ Ended host sys)
    (fun sys a h => ⟨step_sound h.1 a, move_waited h.1 h.2.1 (step_move host sys a),
      step_ended h.1 h.2.1 h.2.2 a⟩) _ acts
    ⟨start_sound host, start_waited host, start_ended host⟩).2.2

end Step

/-! ### Runs -/

/-- What was accepted has taken effect: once, as a request made of it, and after the capture that it
waits for. -/
structure Landed (host : Host) (sys : System) (i : String) (c : Content) : Prop where
  once : sys.effectsOf i = 1
  request : ∃ e x, find sys.server c.idempotencyKey = some e ∧ x ∈ sys.sent ∧ x.op.operationId = i ∧
    x.op.content = c ∧ Prepared host sys.server x.op x.attempt ∧ x.wire.body = e.payload
  after : ∀ d, c.dependsOn = some d →
    sys.effectsOf d = 1 ∧ Follows sys.server c.idempotencyKey ("hermes-turn-" ++ d)

/-- How an operation that nothing took the place of stands. -/
inductive Stands (host : Host) (sys : System) (i : String) (c : Content) : Prop where
  | waits (live : (sys.store.operations.find i).isSome)
  | landed (landed : Landed host sys i c)
  | dismissed (dismissed : Dismissed host sys i)

section Endings
variable {host : Host} {sys : System} {i : String} {c : Content}

theorem previewed_correction (h : sys.Sound host) {x : Sent} {exchange : Exchange}
    (hanswer : (x, exchange) ∈ sys.answers) {sourceId : String} {r : CorrectionRequest}
    (ha : x.attempt = .preview sourceId r) : endsWith x.op.endpoint "/corrections" = true := by
  have hprep := h.accounted.begun _ (h.staged.sent x (h.staged.answers _ hanswer)).1
  dsimp only at hprep
  rw [ha] at hprep
  exact source_endsWith hprep.preview_decodes.1

/-- Only corrections are dismissed. -/
theorem Dismissed.correction (h : sys.Sound host) (hd : Dismissed host sys i)
    (hi : sys.book i = some c) : endsWith c.endpoint "/corrections" = true := by
  have hcontent : ∀ x exchange, (x, exchange) ∈ sys.answers → x.op.operationId = i →
      x.op.content = c := by
    intro x exchange hanswer hid
    have hbook := h.content (h.staged.answers _ hanswer)
    rw [hid, hi] at hbook
    exact (Option.some.inj hbook).symm
  cases hd with
  | missing answered id correction =>
    rw [← hcontent _ _ answered id]
    exact correction
  | needless answered id attempt =>
    rw [← hcontent _ _ answered id]
    exact previewed_correction h answered attempt

/-- Only corrections are replaced. -/
theorem replaced_correction (h : sys.Sound host) (hc : Chained host sys) {j : String}
    (hij : sys.store.next i = some j) (hi : sys.book i = some c) :
    endsWith c.endpoint "/corrections" = true := by
  obtain ⟨c', d, hl⟩ := hc.link i j hij
  obtain ⟨-, -, -, -, x, exchange, -, sourceId, r, preview, hanswer, hid, ha, -⟩ := hl.revision
  have hbook := h.content (h.staged.answers _ hanswer)
  rw [hid, hi] at hbook
  rw [Option.some.inj hbook]
  exact previewed_correction h hanswer ha

theorem delivered_landed (h : sys.Sound host) (hw : Waited host sys) (he : Ended host sys)
    (hi : sys.book i = some c) {row : HistoryRow} (hrow : sys.store.history.find i = some row)
    (hdel : row.delivered) : Landed host sys i c := by
  have honce : ∀ {j : String} {content : Content} {row : HistoryRow}, sys.book j = some content →
      sys.store.history.find j = some row → row.delivered →
      ∃ e, find sys.server content.idempotencyKey = some e ∧ sys.effectsOf j = 1 := by
    intro j content row hj hf hd
    obtain ⟨e, heffect⟩ := (h.accounted.history j row hf hd).1
    obtain ⟨content', hcontent', hkey⟩ := h.booked.archived j row hf
    cases hj.symm.trans hcontent'
    rw [← hkey] at heffect
    exact ⟨e, heffect, h.effectsOf_eq_one hj heffect⟩
  obtain ⟨e, heffect, hcount⟩ := honce hi hrow hdel
  obtain ⟨hmem, hkey⟩ := find_some heffect
  obtain ⟨x, hx, hkx, hbody⟩ := h.accounted.effects e hmem
  have hid : x.op.operationId = i :=
    h.catalogued.key_inj (h.content hx) hi ((h.keyed hx hkx).2.trans hkey)
  have hbegun := (h.staged.sent x hx).1
  have hcontent := h.content hx
  rw [hid, hi] at hcontent
  cases hcontent
  refine ⟨hcount, ⟨e, x, heffect, hx, hid, rfl, h.accounted.begun _ hbegun, hbody⟩, fun d hd => ?_⟩
  obtain ⟨row', hrow', hdel'⟩ := hw.claimed x.op (h.staged.begun _ hbegun) d hd
  obtain ⟨content, hbook, -⟩ := h.booked.archived d row' hrow'
  obtain ⟨-, -, hcount'⟩ := honce hbook hrow' hdel'
  exact ⟨hcount', he.order i x.op.content d hi hd⟩

theorem final_stands (h : sys.Sound host) (hw : Waited host sys) (he : Ended host sys)
    (hi : sys.book i = some c) (hfinal : sys.store.final i) : Stands host sys i c := by
  rcases hfinal with hlive | ⟨row, hrow, ho⟩
  · exact .waits hlive
  · cases hout : row.outcome with
    | succeeded => exact .landed (delivered_landed h hw he hi hrow (.inl hout))
    | replayed => exact .landed (delivered_landed h hw he hi hrow (.inr hout))
    | obsolete => exact .dismissed (he.history i row hrow hout)
    | superseded => exact absurd hout ho

theorem accepted_stands (h : sys.Sound host) (hc : Chained host sys) (hw : Waited host sys)
    (he : Ended host sys) (hi : sys.book i = some c) :
    ∃ e d, Chain.Ends sys.store.next i e ∧ sys.book e = some d ∧ (e = i ∨ SameIntent c d) ∧
      Stands host sys e d := by
  have hknown := h.booked.known i (by rw [hi]; rfl)
  obtain ⟨e, hends⟩ := Chain.exists_end hc.order (fun i j => chain_bounded) i
  have hfinal := (final_iff h hc (reaches_known h hc hends.1 hknown)).mpr hends.2
  by_cases hsame : i = e
  · subst hsame
    exact ⟨i, c, hends, hi, .inl rfl, final_stands h hw he hi hfinal⟩
  · obtain ⟨c', d, hi', hd, hintent⟩ := (sound_chains h hc).intent i e hends.1 hsame
    cases hi.symm.trans hi'
    exact ⟨e, d, hends, hd, .inr hintent, final_stands h hw he hd hfinal⟩

theorem uncorrected_unreplaced (h : sys.Sound host) (hc : Chained host sys) (hi : sys.book i = some c)
    (hother : endsWith c.endpoint "/corrections" = false) : sys.store.next i = none := by
  refine Option.eq_none_iff_forall_ne_some.mpr fun j hij => ?_
  exact Bool.false_ne_true (hother.symm.trans (replaced_correction h hc hij hi))

theorem uncorrected_landed (h : sys.Sound host) (hc : Chained host sys) (hw : Waited host sys)
    (he : Ended host sys) (hi : sys.book i = some c)
    (hother : endsWith c.endpoint "/corrections" = false) (hnone : sys.store.operations.find i = none) :
    Landed host sys i c := by
  have hknown := h.booked.known i (by rw [hi]; rfl)
  have hfinal := (final_iff h hc hknown).mpr (uncorrected_unreplaced h hc hi hother)
  cases final_stands h hw he hi hfinal with
  | waits live => rw [hnone] at live; cases live
  | landed landed => exact landed
  | dismissed dismissed =>
    exact absurd (hother.symm.trans (dismissed.correction h hi)) Bool.false_ne_true

end Endings

/-- In every run, nothing that was accepted is lost: it waits in the outbox, or it took effect once
and after what it waits for; a correction may also have been replaced by one of the same intent that
stands so, or the server has no use for it. -/
theorem accepted_endings (host : Host) (acts : List Act) {i : String} {c : Content}
    (hi : (System.run host acts).book i = some c) :
    (∃ e d, Chain.Ends (System.run host acts).store.next i e ∧
      (System.run host acts).book e = some d ∧ (e = i ∨ SameIntent c d) ∧
      Stands host (System.run host acts) e d) ∧
    (endsWith c.endpoint "/corrections" = false → (System.run host acts).store.next i = none ∧
      ((System.run host acts).store.operations.find i = none → Landed host (System.run host acts) i c)) := by
  have h := run_sound host acts
  have hc := run_chained host acts
  have hw := run_waited host acts
  have he := run_ended host acts
  refine ⟨accepted_stands h hc hw he hi, fun hother => ?_⟩
  exact ⟨uncorrected_unreplaced h hc hi hother, uncorrected_landed h hc hw he hi hother⟩

/-! ### A delivered turn -/

def deliveredAnswer : JSONObject :=
  [("id", .str "1"), ("organization_id", .str "o"), ("source_id", .str "s"), ("principal_id", .str "u"),
    ("memory_scope", .str "project"), ("title", .str "t"), ("raw_content", .str "c"), ("tags", .list []),
    ("revision", .int 1), ("mutation_receipt", .dict [("operation_id", .str "m"), ("applied", .bool true),
      ("revision", .int 1), ("affected_records", .list []), ("idempotency_key", .str "hermes-turn-0"),
      ("replayed", .bool false)])]

def deliveringHost : Host :=
  { Host.plain with
    sha256 := fun _ => "0"
    sha256_hex := fun _ c hc => by
      obtain rfl : c = '0' := by simpa using hc
      decide
    sha256_ne_empty := fun _ => by decide
    loads := fun _ => .ok (.dict deliveredAnswer) }

def deliveredResponse : Response := { conflictResponse with status := 200 }

def delivering : List Act :=
  [.own (.capture sampleAgent "s" "" (some 1) "u" "a" 0), .claim sampleConfig (samplePage "w" "k" 1),
    .begin 0, .send 0, .serve 0 (some 1) (.answered deliveredResponse), .finish 0 "r" 2, .apply 0 3]

theorem accepted_endings_sample : (System.run deliveringHost delivering).effectsOf "0" = 1 := by
  obtain ⟨hturn, hempty⟩ : (System.run deliveringHost delivering).store.turns.rows.map
        TurnRow.operationId = ["0"] ∧
      (System.run deliveringHost delivering).store.operations.rows = [] := by
    decide +kernel
  obtain ⟨t, ht, hid⟩ : ∃ t ∈ (System.run deliveringHost delivering).store.turns.rows,
      t.operationId = "0" := by
    simpa using List.mem_map.mp (by rw [hturn]; exact List.mem_cons_self)
  obtain ⟨c, hc, hend, -⟩ := (run_sound deliveringHost delivering).catalogued.turns t ht
  rw [hid] at hc
  refine ((accepted_endings deliveringHost delivering hc).2 (by rw [hend]; decide)).2 ?_ |>.once
  exact (KeyedTable.find_eq_none_iff _ _).mpr fun row hrow => by rw [hempty] at hrow; cases hrow

end SibylMemory
