import SibylMemory.Delivery.Accounts

/-!
# Corrections that wait for a turn

A claim waits until the history has the operation it depends on as delivered, a delivered turn has
its revision, and a correction without a revision of its own is sent with that one.
-/

namespace SibylMemory
open Outbox Idempotency

/-! ### Claims -/

def Outbox.Store.done (s : Store) (i : String) : Prop := ∃ h, s.history.find i = some h ∧ h.delivered

theorem dependencyMet_done {s : Store} {d : String} (h : s.dependencyMet (some d) = true) :
    s.done d := by
  unfold Store.dependencyMet at h
  dsimp only at h
  split at h
  · rename_i row hrow
    refine ⟨row, hrow, ?_⟩
    simpa [HistoryRow.delivered] using h
  · cases h

theorem claimsOf_done {host : Host} {c : Call} {r : Reply} {s s' : Store} (h : Effect host s c r s')
    {op : ClaimedOperation} (hop : op ∈ claimsOf (.ok r)) {d : String} (hd : op.dependsOn = some d) :
    s.done d := by
  cases h with
  | claim granted =>
    obtain ⟨row, k, -, hsel, hcopy, -⟩ := granted.of_claim hop
    have hdepends : op.dependsOn = row.dependsOn := by rw [(claimedFromRow_ok hcopy).2]
    have hmet : s.dependencyMet row.dependsOn = true := by
      have hselectable := (mem_selected hsel).2
      simp only [Store.selectable, Bool.and_eq_true] at hselectable
      exact hselectable.2
    rw [← hdepends, hd] at hmet
    exact dependencyMet_done hmet
  | _ => cases hop

/-! ### Revisions -/

def Returned (host : Host) (sys : System) (i : String) (revision : Int) : Prop :=
  ∃ x exchange requestId response, (x, exchange) ∈ sys.answers ∧ x.op.operationId = i ∧
    (∃ r, x.attempt = .remember r) ∧
    request host (fun _ => exchange) requestId x.wire RawMemoryResponse.fromJson
      (fun r => requireReceipt x.op r.mutationReceipt) = .ok response ∧ response.revision = revision

theorem Returned.mono {host : Host} {sys sys' : System} {i : String} {revision : Int}
    (hm : ∀ y ∈ sys.answers, y ∈ sys'.answers) (h : Returned host sys i revision) :
    Returned host sys' i revision := by
  obtain ⟨x, exchange, requestId, response, hanswer, hrest⟩ := h
  exact ⟨x, exchange, requestId, response, hm _ hanswer, hrest⟩

structure Waited (host : Host) (sys : System) : Prop where
  claimed : ∀ op ∈ sys.claimed, ∀ d, op.dependsOn = some d → sys.store.done d
  recorded : ∀ t ∈ sys.store.turns.rows, ∀ v, t.revision = some v →
    Returned host sys t.operationId v

theorem start_waited (host : Host) : Waited host System.start where
  claimed := fun op h => by cases h
  recorded := fun t h => by cases h

section Steps
variable {host : Host} {sys sys' : System}

theorem exec_waited (h : sys.Sound host) (hw : Waited host sys) {c : Call}
    (called : Called host sys c) : Waited host (sys.exec host c) := by
  rcases exec_cases host sys c with he | ⟨r, heff, hexec⟩
  · rw [he]
    exact hw
  have hdone : ∀ d, sys.store.done d → (sys.exec host c).store.done d := by
    rintro d ⟨row, hrow, hdel⟩
    exact ⟨row, effect_history heff h.booked.disjoint hrow, hdel⟩
  refine ⟨fun op hop d hd => ?_, fun t ht v hv => ?_⟩
  · have hclaimed : (sys.exec host c).claimed = sys.claimed ++ claimsOf (.ok r) := by
      rw [System.exec, hexec]
    rw [hclaimed] at hop
    rcases List.mem_append.mp hop with hop | hop
    · exact hdone d (hw.claimed op hop d hd)
    · exact hdone d (claimsOf_done heff hop hd)
  · rcases effect_turn_revision heff (called_not_index called) ht with
      ⟨t₀, ht₀, hid, hrev | ⟨v', rfl, hv'⟩⟩ | ⟨hn, -⟩
    · rw [← hid]
      exact hw.recorded t₀ ht₀ v (hrev ▸ hv)
    · obtain ⟨x, exchange, requestId, r, response, hanswer, hxid, hattempt, hread, hresp⟩ :=
        called_record called
      rw [hv'] at hv
      cases hv
      exact ⟨x, exchange, requestId, response, hanswer, hxid.symm, ⟨r, hattempt⟩, hread, hresp.symm⟩
    · rw [hn] at hv
      cases hv

theorem move_waited (h : sys.Sound host) (hw : Waited host sys) (hmove : Move host sys sys') :
    Waited host sys' := by
  have hgrown : ∀ {added : List (Sent × Exchange)} {t : TurnRow} {v : Int},
      Returned host sys t.operationId v →
      Returned host { sys with answers := sys.answers ++ added } t.operationId v :=
    fun hr => hr.mono fun y hy => List.mem_append_left _ hy
  cases hmove with
  | call called => exact exec_waited h hw called
  | finished answered =>
    exact finish_keeps answered hw (fun c called => exec_waited h hw called)
      fun _ _ hw' => ⟨hw'.claimed, hw'.recorded⟩
  | served => exact ⟨hw.claimed, fun t ht v hv => hgrown (hw.recorded t ht v hv)⟩
  | answered => exact ⟨hw.claimed, fun t ht v hv => hgrown (hw.recorded t ht v hv)⟩
  | _ => exact ⟨hw.claimed, hw.recorded⟩

theorem run_waited (host : Host) (acts : List Act) : Waited host (System.run host acts) :=
  (@Run.exec_invariant_of_step _ _ (System.step host) (fun sys => sys.Sound host ∧ Waited host sys)
    (fun sys a h => ⟨step_sound h.1 a, move_waited h.1 h.2 (step_move host sys a)⟩) _ acts
    ⟨start_sound host, start_waited host⟩).2

/-! ### What a dependency gives -/

theorem turnRevision_isSome {s : Store} {d : String} (ht : ∃ t ∈ s.turns.rows, t.operationId = d)
    (hr : s.revised d) : (s.turnRevision d).isSome := by
  have hfound : (s.turns.byOperation d).isSome := by
    obtain ⟨t, ht, hid⟩ := ht
    exact List.find?_isSome.mpr ⟨t, ht, by simpa using hid⟩
  obtain ⟨t, ht⟩ := Option.isSome_iff_exists.mp hfound
  have hrevision := hr t (List.mem_of_find?_eq_some ht) (by simpa using List.find?_some ht)
  rw [Store.turnRevision, ht]
  exact hrevision

theorem System.Sound.revision (h : sys.Sound host) {i d : String} {c : Content}
    (hi : sys.book i = some c) (hd : c.dependsOn = some d) (hdone : sys.store.done d) :
    (sys.store.turnRevision d).isSome := by
  obtain ⟨row, hrow, hdel⟩ := hdone
  exact turnRevision_isSome (h.catalogued.dependency i c d hi hd).2
    (h.accounted.history d row hrow hdel).2

/-- The revision that a dependent correction was completed with is one that the server returned. -/
theorem System.Sound.returned (h : sys.Sound host) (hw : Waited host sys) {d : String}
    (hd : (sys.store.turnRevision d).isSome) {e : Effect String (String × String) Int}
    (he : find sys.server ("hermes-turn-" ++ d) = some e) : Returned host sys d e.receipt := by
  obtain ⟨v, hv⟩ := Option.isSome_iff_exists.mp hd
  obtain ⟨t, ht, rfl, hrevision⟩ := turnRevision_row hv
  obtain ⟨e', he', hreceipt⟩ := h.accounted.revisions t ht v hrevision
  rw [he] at he'
  cases he'
  rw [hreceipt]
  exact hw.recorded t ht v hrevision

end Steps

/-! ### Sends -/

theorem rewind_not_raw {op : ClaimedOperation} (h : op.content.IsRewind) :
    isRaw op = false ∧ op.kind ≠ "context_exposure" := by
  obtain ⟨hkind, sourceId, hend⟩ := h
  have hop : op.endpoint = correctionEndpoint sourceId := hend
  have hk : op.kind = "rewind_correction" := hkind
  refine ⟨?_, by rw [hk]; decide⟩
  rw [isRaw, hop]
  exact correctionEndpoint_not_raw sourceId

theorem Prepared.hydrated {host : Host} {server : ServerLog} {op : ClaimedOperation} {a : Attempt}
    (h : Prepared host server op a) (hraw : isRaw op = false) (hkind : op.kind ≠ "context_exposure") :
    ∃ data r, Hydrated server op data ∧ correctionRequest host data = .ok r ∧
      a.payload = r.toJson := by
  cases h with
  | remember raw => rw [hraw] at raw; cases raw
  | expose raw kind => exact absurd kind hkind
  | correct raw kind source hydrated made => exact ⟨_, _, hydrated, made, rfl⟩
  | preview raw kind source hydrated made => exact ⟨_, _, hydrated, made, rfl⟩

/-- The revision that is sent for a dependent correction is its own or one that the server returned
for the turn it depends on. -/
theorem System.Sound.sent_revision {host : Host} {sys : System} (h : sys.Sound host)
    (hw : Waited host sys) {x : Sent} (hx : x ∈ sys.sent) {d : String}
    (hd : x.op.dependsOn = some d) : ∃ v, PyValue.lookup "expected_revision" x.wire.payload = some v ∧
      (PyValue.lookup "expected_revision" x.op.request = some v ∨
        ∃ revision, v = .int revision ∧ Returned host sys d revision) := by
  obtain ⟨hbegun, hwire⟩ := h.staged.sent x hx
  have hclaimed : x.op ∈ sys.claimed := h.staged.begun _ hbegun
  have hbook := h.booked.claims _ hclaimed
  have hrevision := h.revision hbook hd (hw.claimed _ hclaimed d hd)
  obtain ⟨hraw, hkind⟩ := rewind_not_raw (h.catalogued.dependency _ _ d hbook hd).1
  obtain ⟨data, r, hhydrated, hmade, hpayload⟩ :=
    Prepared.hydrated (h.accounted.begun _ hbegun) hraw hkind
  have hjson : r.toJson = some x.wire.payload := hpayload.symm.trans (wire_ok hwire).1
  rw [(CorrectionRequest.toJson_encodes hjson).expectedRevision,
    (correctionRequest_decodes hmade).expectedRevision]
  cases hhydrated with
  | explicit own =>
    have hown : optionalItem x.op.request "expected_revision" ≠ none := by
      rcases own with own | own
      · exact own
      · rw [own] at hd
        cases hd
    obtain ⟨v, hv⟩ := Option.ne_none_iff_exists'.mp hown
    exact ⟨v, hv, .inl (optionalItem_some hv)⟩
  | @dependent d' e missing waits effect =>
    have hsame : d' = d := Option.some.inj (waits.symm.trans hd)
    subst hsame
    refine ⟨.int e.receipt, ?_, .inr ⟨_, rfl, h.returned hw hrevision effect⟩⟩
    rw [optionalItem, PyValue.lookup_assign, if_pos rfl]

theorem beginAttempt_missing {host : Host} {s : Store} {op : ClaimedOperation}
    (h : beginAttempt host s op = .ok (.finished revisionMissing)) :
    ∃ d, op.dependsOn = some d ∧ s.turnRevision d = none := by
  rcases beginAttempt_finished h with ⟨hnone, -⟩ | hunsupported
  · unfold hydrate at hnone
    split at hnone
    · rename_i d _ hd
      split at hnone
      · rename_i hv
        exact ⟨d, hd, hv⟩
      · cases hnone
    · cases hnone
  · cases hunsupported

/-! ### Runs -/

/-- How corrections wait for the turns they depend on. -/
structure WaitsForRevision (host : Host) (sys : System) : Prop where
  claim : ∀ config page op d, op ∈ claimsOf ((Call.claimPage config page).exec host sys.store).1 →
    op.dependsOn = some d → sys.store.done d ∧ (sys.store.turnRevision d).isSome
  rewind : ∀ op ∈ sys.claimed, ∀ d, op.dependsOn = some d → op.content.IsRewind ∧
    sys.store.done d ∧ (sys.store.turnRevision d).isSome
  available : ∀ op ∈ sys.claimed, beginAttempt host sys.store op ≠ .ok (.finished revisionMissing)
  sent : ∀ x ∈ sys.sent, ∀ d, x.op.dependsOn = some d →
    ∃ v, PyValue.lookup "expected_revision" x.wire.payload = some v ∧
      (PyValue.lookup "expected_revision" x.op.request = some v ∨
        ∃ revision, v = .int revision ∧ Returned host sys d revision)

/-- In every run, a correction that depends on a turn is claimed once that turn is delivered, and
sent with its revision. -/
theorem corrections_wait (host : Host) (acts : List Act) :
    WaitsForRevision host (System.run host acts) := by
  have h := run_sound host acts
  have hw := run_waited host acts
  have hrewind : ∀ op ∈ (System.run host acts).claimed, ∀ d, op.dependsOn = some d →
      op.content.IsRewind ∧ (System.run host acts).store.done d ∧
        ((System.run host acts).store.turnRevision d).isSome := by
    intro op hop d hd
    have hbook := h.booked.claims op hop
    have hdone := hw.claimed op hop d hd
    exact ⟨(h.catalogued.dependency _ _ d hbook hd).1, hdone, h.revision hbook hd hdone⟩
  refine ⟨fun config page op d hop hd => ?_, hrewind, fun op hop hmissing => ?_,
    fun x hx d hd => h.sent_revision hw hx hd⟩
  · cases hexec : (Call.claimPage config page).exec host (System.run host acts).store with
    | mk out s' =>
      rw [hexec] at hop
      cases out with
      | error e => cases hop
      | ok r =>
        have heff := exec_effect hexec
        obtain ⟨-, row, hrow, hcontent⟩ := claimsOf_content heff hop
        have hdone := claimsOf_done heff hop hd
        have hbook := h.booked.row _ row hrow
        rw [← hcontent] at hbook
        exact ⟨hdone, h.revision hbook hd hdone⟩
  · obtain ⟨d, hd, hnone⟩ := beginAttempt_missing hmissing
    have hsome := (hrewind op hop d hd).2.2
    rw [hnone] at hsome
    cases hsome

end SibylMemory
