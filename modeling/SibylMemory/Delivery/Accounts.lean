import SibylMemory.Delivery.Requests

/-!
# Effects, revisions and outcomes

What the server did is what was sent; the revision of an indexed turn is the server's; and an
operation that is archived as delivered has taken effect and, if it is a turn, has its revision.
-/

namespace SibylMemory
open Outbox Idempotency

/-- A success comes from an effect of the request's key, and carries its revision. -/
def Honest (host : Host) (server : ServerLog) (wire : WireRequest) (exchange : Exchange) : Prop :=
  ∀ key, wire.idempotencyKey = some key → ∀ r, exchange = .answered r → r.isError = false →
    ∃ e, find server key = some e ∧
      ∀ response, request host (fun _ => exchange) "" wire RawMemoryResponse.fromJson
        (fun _ => .ok ()) = .ok response → response.revision = e.receipt

def Outbox.Store.revised (s : Store) (i : String) : Prop :=
  ∀ t ∈ s.turns.rows, t.operationId = i → t.revision.isSome

def Outbox.HistoryRow.delivered (h : HistoryRow) : Prop :=
  h.outcome = .succeeded ∨ h.outcome = .replayed

structure Accounted (host : Host) (sys : System) : Prop where
  nodup : (sys.server.map Effect.key).Nodup
  effects : ∀ e ∈ sys.server, ∃ x ∈ sys.sent,
    x.wire.idempotencyKey = some e.key ∧ x.wire.body = e.payload
  answers : ∀ y ∈ sys.answers, Honest host sys.server y.1.wire y.2
  revisions : ∀ t ∈ sys.store.turns.rows, ∀ v, t.revision = some v →
    ∃ e, find sys.server ("hermes-turn-" ++ t.operationId) = some e ∧ e.receipt = v
  begun : ∀ y ∈ sys.begun, Prepared host sys.server y.1 y.2
  results : ∀ y ∈ sys.results, y.2.action = .succeed →
    (∃ e, find sys.server y.1.idempotencyKey = some e) ∧
      (isRaw y.1 = true → sys.store.revised y.1.operationId)
  history : ∀ i h, sys.store.history.find i = some h → h.delivered →
    (∃ e, find sys.server h.idempotencyKey = some e) ∧ sys.store.revised i

theorem start_accounted (host : Host) : Accounted host System.start where
  nodup := List.nodup_nil
  effects := fun e h => by cases h
  answers := fun y h => by cases h
  revisions := fun t h => by cases h
  begun := fun y h => by cases h
  results := fun y h => by cases h
  history := fun i h hf => by cases hf

/-! ### Turn rows under a call -/

section Turns
variable {host : Host} {c : Call} {r : Reply} {s s' : Store}

/-- A turn row is new and has no revision, or is an old one with a revision as before or as the
call records it. -/
theorem effect_turn_revision (h : Effect host s c r s')
    (hc : ∀ sid n oid src digest now, c ≠ .indexTurn sid n oid src digest now) {t : TurnRow}
    (ht : t ∈ s'.turns.rows) :
    (∃ t₀ ∈ s.turns.rows, t₀.operationId = t.operationId ∧ (t.revision = t₀.revision ∨
      ∃ v, c = .recordTurnRevision t.operationId v ∧ t.revision = some v)) ∨
    (t.revision = none ∧ s.known t.operationId = none) := by
  cases h with
  | @record oid revision positive =>
    obtain ⟨t₀, ht₀, rfl⟩ := (TurnTable.mem_setRevision _ _ _ _).mp ht
    refine .inl ⟨t₀, ht₀, ?_⟩
    by_cases ho : t₀.operationId = oid
    · rw [if_pos ho]
      exact ⟨rfl, .inr ⟨revision, by rw [ho], rfl⟩⟩
    · rw [if_neg ho]
      exact ⟨rfl, .inl rfl⟩
  | turn nonempty made valid canonical named fresh insert index session =>
    rcases (TurnTable.mem_insertTurn index t).mp ht with ht | rfl
    · exact .inl ⟨t, ht, rfl, .inl rfl⟩
    · exact .inr ⟨rfl, fresh⟩
  | index => exact absurd rfl (hc _ _ _ _ _ _)
  | _ => exact .inl ⟨t, ht, rfl, .inl rfl⟩

theorem effect_revised (h : Effect host s c r s')
    (hc : ∀ sid n oid src digest now, c ≠ .indexTurn sid n oid src digest now) {i : String}
    (hk : (s.known i).isSome) (hi : s.revised i) : s'.revised i := by
  intro t ht hid
  rcases effect_turn_revision h hc ht with ⟨t₀, ht₀, hid₀, hrev | ⟨v, -, hv⟩⟩ | ⟨-, hn⟩
  · rw [hrev]
    exact hi t₀ ht₀ (hid₀.trans hid)
  · rw [hv]
    rfl
  · rw [hid] at hn
    rw [hn] at hk
    cases hk

theorem record_revised {oid : String} {revision : Int}
    (h : Effect host s (.recordTurnRevision oid revision) r s') : s'.revised oid := by
  cases h with
  | record positive =>
    intro t ht hid
    obtain ⟨t₀, ht₀, rfl⟩ := (TurnTable.mem_setRevision _ _ _ _).mp ht
    by_cases ho : t₀.operationId = oid
    · rw [if_pos ho]
      rfl
    · rw [if_neg ho] at hid
      exact absurd hid ho

end Turns

/-! ### One step -/

structure System.Sound (host : Host) (sys : System) : Prop where
  booked : Booked sys
  staged : Staged sys
  catalogued : Catalogued sys
  accounted : Accounted host sys

theorem start_sound (host : Host) : System.start.Sound host :=
  ⟨start_booked, start_staged, start_catalogued, start_accounted host⟩

section Step
variable {host : Host} {sys : System} {c : Call}

theorem Booked.claim_known (hb : Booked sys) {op : ClaimedOperation} (h : op ∈ sys.claimed) :
    (sys.store.known op.operationId).isSome := hb.known _ (by rw [hb.claims op h]; rfl)

theorem known_of_history {s : Store} {i : String} {h : HistoryRow} (hf : s.history.find i = some h) :
    (s.known i).isSome := by
  unfold Store.known
  split <;> simp [hf]

theorem sent_key (hb : Booked sys) (hs : Staged sys) (hc : Catalogued sys) {x : Sent}
    (h : x ∈ sys.sent) : x.wire.idempotencyKey
      = if x.attempt.isPreview then none else some x.op.idempotencyKey := by
  obtain ⟨hbegun, hwire⟩ := hs.sent x h
  have hstrip := strip_key hc (hb.claims _ (hs.begun _ hbegun))
  rw [(wire_ok hwire).2]
  split
  · rfl
  · exact congrArg some hstrip

theorem answer_effect (h : sys.Sound host) {x : Sent} {exchange : Exchange} {requestId : String}
    {α : Type} {parser : PyValue → Except String α} {check : α → Except String Unit} {response : α}
    (ha : (x, exchange) ∈ sys.answers) (hp : x.attempt.isPreview = false)
    (hr : request host (fun _ => exchange) requestId x.wire parser check = .ok response) :
    ∃ e, find sys.server x.op.idempotencyKey = some e ∧
      ∀ response, request host (fun _ => exchange) "" x.wire RawMemoryResponse.fromJson
        (fun _ => .ok ()) = .ok response → response.revision = e.receipt := by
  obtain ⟨r, hex, herr⟩ := request_answered hr
  have hk := sent_key h.booked h.staged h.catalogued (h.staged.answers _ ha)
  rw [hp] at hk
  exact h.accounted.answers _ ha _ hk r hex herr

theorem exec_accounted (h : sys.Sound host) (called : Called host sys c) :
    Accounted host (sys.exec host c) := by
  obtain ⟨hb, hs, hc, ha⟩ := h
  rcases exec_cases host sys c with he | ⟨r, heff, hexec⟩
  · rw [he]
    exact ha
  have hni := called_not_index called
  refine ⟨ha.nodup, ha.effects, ha.answers, fun t ht v hv => ?_, ha.begun, fun y hy hsucc => ?_,
    fun i row hf hdel => ?_⟩
  · rcases effect_turn_revision heff hni ht with ⟨t₀, ht₀, hid, hrev | ⟨v', rfl, hv'⟩⟩ | ⟨hn, -⟩
    · rw [← hid]
      exact ha.revisions t₀ ht₀ v (hrev ▸ hv)
    · -- the recorded revision is that of the effect behind the answer
      rw [hv'] at hv
      cases hv
      obtain ⟨x, exchange, requestId, request, response, hanswer, hxid, hattempt, hread, hresp⟩ :=
        called_record called
      obtain ⟨e, he, hrevision⟩ := answer_effect ⟨hb, hs, hc, ha⟩ hanswer
        (by rw [hattempt]; rfl) hread
      have hclaim := hb.claims x.op (hs.begun _ (hs.sent x (hs.answers _ hanswer)).1)
      obtain ⟨content, hcontent, -, hkey⟩ := hc.turns t₀ ht₀
      rw [hid, hxid, hclaim] at hcontent
      cases hcontent
      refine ⟨e, ?_, by rw [hresp, hrevision _ (request_unchecked hread)]⟩
      rw [← hid, ← hkey]
      exact he
    · rw [hn] at hv
      cases hv
  · obtain ⟨heffect, hrevised⟩ := ha.results y hy hsucc
    exact ⟨heffect, fun hraw => effect_revised heff hni (hb.claim_known (hs.results y hy))
      (hrevised hraw)⟩
  · have hold : ∀ row, sys.store.history.find i = some row → row.delivered →
        (∃ e, find sys.server row.idempotencyKey = some e) ∧ (sys.exec host c).store.revised i := by
      intro row hf hdel
      obtain ⟨heffect, hrevised⟩ := ha.history i row hf hdel
      exact ⟨heffect, effect_revised heff hni (known_of_history hf) hrevised⟩
    rcases effect_archives heff with hsame | ⟨new, harch, hinsert⟩
    · rw [hsame] at hf
      exact hold row hf hdel
    rw [KeyedTable.find_insert hinsert] at hf
    split at hf
    · rename_i hi
      cases hf
      subst hi
      cases harch with
      | @result op result now live outcome id hlive action kept archived =>
        have hres := called_apply called
        have hact : result.action = .succeed := by
          rcases action with ho | hact
          · rw [archived] at hdel
            rcases hdel with hdel | hdel <;> exact absurd (ho.symm.trans hdel) (by decide)
          · exact hact
        obtain ⟨⟨e, he⟩, hrevised⟩ := ha.results _ hres hact
        -- claim and row have the content that the book has
        have hcontent : op.content = live.content := by
          have hclaim := hb.claims op (hs.results _ hres)
          rw [id, hb.row _ _ hlive] at hclaim
          exact (Option.some.inj hclaim).symm
        have hkey : op.idempotencyKey = live.idempotencyKey :=
          congrArg Content.idempotencyKey hcontent
        refine ⟨⟨e, ?_⟩, ?_⟩
        · have harchived : (live.archived outcome now none result.status
              (redactError MAX_ERROR_LENGTH result.error)).idempotencyKey = op.idempotencyKey :=
            hkey.symm
          rw [archived, harchived]
          exact he
        · refine effect_revised heff hni (id ▸ hb.claim_known (hs.results _ hres)) fun t ht hid => ?_
          obtain ⟨content, hbook, hend, -⟩ := hc.turns t ht
          rw [hid, hb.row _ _ hlive] at hbook
          cases hbook
          have hraw : isRaw op = true := by
            have hop : op.endpoint = "/api/memory/raw" :=
              (congrArg Content.endpoint hcontent).trans hend
            rw [isRaw, hop]
            decide
          exact hrevised hraw t ht (hid.trans id.symm)
      | replacement id hlive fresh archived =>
        rw [archived] at hdel
        rcases hdel with hdel | hdel <;> cases hdel
    · exact hold row hf hdel

end Step

/-! ### The other steps -/

theorem Honest.mono {host : Host} {server server' : ServerLog} {wire : WireRequest}
    {exchange : Exchange} (hm : ∀ k e, find server k = some e → find server' k = some e)
    (h : Honest host server wire exchange) : Honest host server' wire exchange := by
  intro key hkey r hr herr
  obtain ⟨e, he, hrevision⟩ := h key hkey r hr herr
  exact ⟨e, hm key e he, hrevision⟩

theorem conveys_honest {host : Host} {server : ServerLog} {wire : WireRequest} {key : String}
    {choice : Option Int} {exchange : Exchange} (hkey : wire.idempotencyKey = some key)
    (h : conveys host wire (serve server key wire.body choice).1 exchange = true) :
    Honest host (serve server key wire.body choice).2 wire exchange := by
  intro key' hkey' r hr herr
  rw [hkey] at hkey'
  cases hkey'
  subst hr
  cases hanswer : (serve server key wire.body choice).1 with
  | refused =>
    rw [hanswer] at h
    exact absurd (h.symm.trans herr) (by decide)
  | mismatch =>
    -- an answer with status 409 is an error
    rw [hanswer] at h
    have hstatus : r.status = 409 := of_decide_eq_true h
    simp [Response.isError, hstatus] at herr
  | receipt revision =>
    rw [hanswer] at h
    refine ⟨_, serve_receipt hanswer, fun response hresponse => ?_⟩
    simp only [conveys, herr, Bool.false_or] at h
    rw [hresponse] at h
    exact of_decide_eq_true h

theorem turnRevision_row {s : Store} {d : String} {v : Int} (h : s.turnRevision d = some v) :
    ∃ t ∈ s.turns.rows, t.operationId = d ∧ t.revision = some v := by
  obtain ⟨t, ht, hv⟩ := Option.bind_eq_some_iff.mp h
  exact ⟨t, List.mem_of_find?_eq_some ht, by simpa using List.find?_some ht, hv⟩

section Finish
variable {host : Host} {sys : System} {x : Sent} {exchange : Exchange} {requestId : String}
  {now : Instant}

theorem previewDone_unsuccessful {op : ClaimedOperation} {r : CorrectionRequest}
    {preview : CorrectionResponse} {s : Store} :
    (previewDone host op r preview now s).1.action ≠ .succeed := by
  unfold previewDone
  split
  · simp [AttemptResult.failure]
  · rename_i result hresult
    obtain ⟨-, hdead | ⟨hobsolete, -⟩⟩ := reconcileCorrection_finished hresult
    · simp [hdead]
    · simp [hobsolete]
  · split <;> simp [escaped, AttemptResult.failure]

/-- A finished attempt that is a success had a success for an answer, to a request that was no
preview; a capture has then recorded a revision. -/
theorem finish_succeeds {s : Store} (hmade : x.attempt.wire x.op.idempotencyKey = .ok x.wire)
    (h : (x.finish host exchange requestId now s).1.action = .succeed) :
    x.attempt.isPreview = false ∧ (∃ r, exchange = .answered r ∧ r.isError = false) ∧
      ((∃ r, x.attempt = .remember r) → ∃ revision,
        x.call host exchange requestId now = some (.recordTurnRevision x.op.operationId revision) ∧
        Effect host s (.recordTurnRevision x.op.operationId revision) .done
          ((Call.recordTurnRevision x.op.operationId revision).exec host s).2) := by
  unfold Sent.finish at h
  split at h <;> rename_i ha
  · rw [ha] at hmade
    cases hmade
  · split at h
    · rename_i response hr
      refine ⟨by rw [ha]; rfl, request_answered hr, fun _ => ?_⟩
      unfold rememberDone at h
      split at h
      · rename_i s' hs
        refine ⟨response.revision, by simp only [Sent.call, ha, hr], exec_effect ?_⟩
        simp only [Call.exec, replyWith, hs]
        rfl
      · exact absurd h (by simp [escaped, AttemptResult.failure])
    · exact absurd h (failedAttempt_unsuccessful _ _)
  · split at h
    · rename_i response hr
      refine ⟨by rw [ha]; rfl, request_answered hr, ?_⟩
      rintro ⟨r, hc⟩
      rw [ha] at hc
      cases hc
    · exact absurd h (failedAttempt_unsuccessful _ _)
  · split at h
    · rename_i response hr
      refine ⟨by rw [ha]; rfl, request_answered hr, ?_⟩
      rintro ⟨r, hc⟩
      rw [ha] at hc
      cases hc
    · exact absurd h (failedAttempt_unsuccessful _ _)
  · exfalso
    split at h
    · exact previewDone_unsuccessful h
    · exact failedAttempt_unsuccessful _ _ h

/-- Finishing keeps the accounts of the call it makes; a success is new among the results. -/
theorem finish_accounted (h : sys.Sound host) (hanswer : (x, exchange) ∈ sys.answers) :
    Accounted host (sys.finish host x exchange requestId now) := by
  obtain ⟨hbegun, hmade⟩ := h.staged.sent x (h.staged.answers _ hanswer)
  obtain ⟨sys₁, he, hcall⟩ := finish_system host sys x exchange requestId now
  have ha : Accounted host sys₁ := by
    rcases hcall with ⟨-, rfl⟩ | ⟨c, hc, rfl⟩
    · exact h.accounted
    · exact exec_accounted h (.finish hanswer hc)
  have hserver : sys₁.server = sys.server := by
    rcases hcall with ⟨-, rfl⟩ | ⟨c, -, rfl⟩ <;> rfl
  rw [he]
  refine ⟨ha.nodup, ha.effects, ha.answers, ha.revisions, ha.begun, fun y hy hsucc => ?_,
    ha.history⟩
  rcases List.mem_append.mp hy with hy | hy
  · exact ha.results y hy hsucc
  rw [List.mem_singleton.mp hy] at hsucc ⊢
  obtain ⟨hpreview, ⟨r, hr, herr⟩, hremember⟩ := finish_succeeds hmade hsucc
  constructor
  · have hkey := sent_key h.booked h.staged h.catalogued (h.staged.answers _ hanswer)
    rw [hpreview] at hkey
    obtain ⟨e, heffect, -⟩ := h.accounted.answers _ hanswer _ hkey r hr herr
    exact ⟨e, by rw [hserver]; exact heffect⟩
  · intro hraw
    obtain ⟨revision, hc, heff⟩ := hremember ((h.accounted.begun _ hbegun).of_raw hraw)
    rcases hcall with ⟨hnone, -⟩ | ⟨c, hc', rfl⟩
    · rw [hc] at hnone
      cases hnone
    · rw [hc] at hc'
      cases hc'
      exact record_revised heff

end Finish

section Moves
variable {host : Host} {sys sys' : System}

theorem serve_accounted (ha : Accounted host sys) {x : Sent} {key : String} {choice : Option Int}
    {exchange : Exchange} (hsent : x ∈ sys.sent) (hkey : x.wire.idempotencyKey = some key)
    (conveyed : conveys host x.wire (serve sys.server key x.wire.body choice).1 exchange = true) :
    Accounted host { sys with server := (serve sys.server key x.wire.body choice).2,
                              answers := sys.answers ++ [(x, exchange)] } := by
  have hm : ∀ k e, find sys.server k = some e →
      find (serve sys.server key x.wire.body choice).2 k = some e := fun k e h => serve_find h
  refine ⟨serve_nodup ha.nodup, fun e he => ?_, fun y hy => ?_, fun t ht v hv => ?_,
    fun y hy => (ha.begun y hy).mono hm, fun y hy hsucc => ?_, fun i row hf hdel => ?_⟩
  · rcases serve_log sys.server key x.wire.body choice with hl | ⟨r, -, hl⟩
    · exact ha.effects e (hl ▸ he)
    · rcases List.mem_append.mp (hl ▸ he) with he | he
      · exact ha.effects e he
      · rw [List.mem_singleton.mp he]
        exact ⟨x, hsent, hkey, rfl⟩
  · rcases List.mem_append.mp hy with hy | hy
    · exact (ha.answers y hy).mono hm
    · rw [List.mem_singleton.mp hy]
      exact conveys_honest hkey conveyed
  · obtain ⟨e, he, hrevision⟩ := ha.revisions t ht v hv
    exact ⟨e, hm _ e he, hrevision⟩
  · obtain ⟨⟨e, he⟩, hrevised⟩ := ha.results y hy hsucc
    exact ⟨⟨e, hm _ e he⟩, hrevised⟩
  · obtain ⟨⟨e, he⟩, hrevised⟩ := ha.history i row hf hdel
    exact ⟨⟨e, hm _ e he⟩, hrevised⟩

theorem move_accounted (h : sys.Sound host) (hmove : Move host sys sys') : Accounted host sys' := by
  have ha := h.accounted
  cases hmove with
  | idle => exact ha
  | call called => exact exec_accounted h called
  | @begun op attempt claimed prepared going =>
    refine ⟨ha.nodup, ha.effects, ha.answers, ha.revisions, fun y hy => ?_, ha.results, ha.history⟩
    rcases List.mem_append.mp hy with hy | hy
    · exact ha.begun y hy
    · rw [List.mem_singleton.mp hy]
      refine beginAttempt_prepared prepared going fun d v hv => ?_
      obtain ⟨t, ht, rfl, hrevision⟩ := turnRevision_row hv
      exact ha.revisions t ht v hrevision
  | @sent op attempt wire begun made =>
    refine ⟨ha.nodup, fun e he => ?_, ha.answers, ha.revisions, ha.begun, ha.results, ha.history⟩
    obtain ⟨x, hx, hkey, hbody⟩ := ha.effects e he
    exact ⟨x, List.mem_append_left _ hx, hkey, hbody⟩
  | served sent keyed conveyed => exact serve_accounted ha sent keyed conveyed
  | @answered x exchange sent effectless =>
    refine ⟨ha.nodup, ha.effects, fun y hy => ?_, ha.revisions, ha.begun, ha.results, ha.history⟩
    rcases List.mem_append.mp hy with hy | hy
    · exact ha.answers y hy
    · rw [List.mem_singleton.mp hy]
      intro key hkey r hr
      rcases effectless with hnone | ⟨errorType, hfailed⟩
      · rw [hnone] at hkey
        cases hkey
      · rw [hfailed] at hr
        cases hr
  | @concluded op result claimed unsuccessful =>
    refine ⟨ha.nodup, ha.effects, ha.answers, ha.revisions, ha.begun, fun y hy hsucc => ?_,
      ha.history⟩
    rcases List.mem_append.mp hy with hy | hy
    · exact ha.results y hy hsucc
    · rw [List.mem_singleton.mp hy] at hsucc
      exact absurd hsucc unsuccessful
  | finished answered => exact finish_accounted h answered

theorem step_sound (h : sys.Sound host) (a : Act) : (sys.step host a).Sound host := by
  have hmove := step_move host sys a
  exact ⟨move_booked h.booked hmove, move_staged h.staged hmove,
    move_catalogued h.booked h.staged h.catalogued hmove, move_accounted h hmove⟩

theorem run_sound (host : Host) (acts : List Act) : (System.run host acts).Sound host :=
  @Run.exec_invariant_of_step _ _ (System.step host) (System.Sound host)
    (fun _ a h => step_sound h a) _ acts (start_sound host)

theorem System.Sound.content (h : sys.Sound host) {x : Sent} (hx : x ∈ sys.sent) :
    sys.book x.op.operationId = some x.op.content :=
  h.booked.claims _ (h.staged.begun _ (h.staged.sent x hx).1)

end Moves

end SibylMemory
