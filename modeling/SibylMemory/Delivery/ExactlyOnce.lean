import SibylMemory.Delivery.Accounts

/-!
# Every operation takes effect at most once

Whatever the workers, the network and the server do, one operation is always sent as the same
request. A preview repeats its payload without a key, so that it cannot take effect.
-/

namespace SibylMemory
open Outbox Idempotency

/-- How often the server applied what was sent for an operation. -/
def System.effectsOf (sys : System) (i : String) : Nat :=
  sys.server.countP fun e => sys.sent.any fun x =>
    decide (x.op.operationId = i ∧ x.wire.idempotencyKey = some e.key)

/-! ### Sends of one operation -/

section Sends
variable {host : Host} {sys : System} {x y : Sent}

theorem System.Sound.same_content (h : sys.Sound host) (hx : x ∈ sys.sent) (hy : y ∈ sys.sent)
    (hid : x.op.operationId = y.op.operationId) : x.op.content = y.op.content := by
  have hc := h.content hx
  rw [hid, h.content hy] at hc
  exact (Option.some.inj hc).symm

theorem System.Sound.same_request (h : sys.Sound host) (hx : x ∈ sys.sent) (hy : y ∈ sys.sent)
    (hid : x.op.operationId = y.op.operationId) :
    x.wire.payload = y.wire.payload ∧
      (x.attempt.isPreview = false → y.attempt.isPreview = false → x.wire = y.wire) := by
  obtain ⟨hbx, hwx⟩ := h.staged.sent x hx
  obtain ⟨hby, hwy⟩ := h.staged.sent y hy
  have hc := h.same_content hx hy hid
  obtain ⟨hpayload, hsame⟩ :=
    Prepared.unique hc (h.accounted.begun _ hbx) (h.accounted.begun _ hby)
  constructor
  · have hp : x.attempt.payload = y.attempt.payload := hpayload
    rw [(wire_ok hwx).1, (wire_ok hwy).1] at hp
    exact Option.some.inj hp
  · intro hpx hpy
    have hattempt : x.attempt = y.attempt := hsame hpx hpy
    have hkey : x.op.idempotencyKey = y.op.idempotencyKey := congrArg Content.idempotencyKey hc
    rw [hattempt, hkey, hwy] at hwx
    exact (Except.ok.inj hwx).symm

/-- A request with a key is no preview, and has the key of its operation. -/
theorem System.Sound.keyed (h : sys.Sound host) (hx : x ∈ sys.sent) {key : String}
    (hk : x.wire.idempotencyKey = some key) :
    x.attempt.isPreview = false ∧ x.op.idempotencyKey = key := by
  have hkey := sent_key h.booked h.staged h.catalogued hx
  rw [hk] at hkey
  split at hkey
  · cases hkey
  · rename_i hp
    exact ⟨by simpa using hp, (Option.some.inj hkey).symm⟩

theorem System.Sound.same_operation (h : sys.Sound host) (hx : x ∈ sys.sent) (hy : y ∈ sys.sent)
    {key : String} (hkx : x.wire.idempotencyKey = some key)
    (hky : y.wire.idempotencyKey = some key) : x.op.operationId = y.op.operationId := by
  refine h.catalogued.key_inj (h.content hx) (h.content hy) ?_
  have hopx := (h.keyed hx hkx).2
  have hopy := (h.keyed hy hky).2
  exact hopx.trans hopy.symm

theorem System.Sound.effect_body (h : sys.Sound host) (hx : x ∈ sys.sent) {key : String}
    (hk : x.wire.idempotencyKey = some key) {e : Effect String (String × String) Int}
    (he : find sys.server key = some e) : e.payload = x.wire.body := by
  obtain ⟨hmem, hkey⟩ := find_some he
  obtain ⟨y, hy, hky, hbody⟩ := h.accounted.effects e hmem
  rw [hkey] at hky
  have hid := h.same_operation hx hy hk hky
  have hwire := (h.same_request hx hy hid).2 (h.keyed hx hk).1 (h.keyed hy hky).1
  rw [← hbody, hwire]

theorem System.Sound.effectsOf_le_one (h : sys.Sound host) (i : String) : sys.effectsOf i ≤ 1 := by
  rcases Nat.eq_zero_or_pos (sys.effectsOf i) with hzero | hpos
  · omega
  obtain ⟨e, -, hany⟩ := List.countP_pos_iff.mp hpos
  obtain ⟨x, hx, hxe⟩ := List.any_eq_true.mp hany
  obtain ⟨hid, hkey⟩ := of_decide_eq_true hxe
  -- all effects that are counted have the key of that send
  have hle : sys.effectsOf i ≤ effects sys.server e.key := by
    refine List.countP_mono_left fun e' _ he' => ?_
    obtain ⟨y, hy, hye⟩ := List.any_eq_true.mp he'
    obtain ⟨hidy, hkeyy⟩ := of_decide_eq_true hye
    have hc := h.same_content hx hy (hid.trans hidy.symm)
    have hsame : x.op.idempotencyKey = y.op.idempotencyKey := congrArg Content.idempotencyKey hc
    rw [(h.keyed hx hkey).2, (h.keyed hy hkeyy).2] at hsame
    simpa using hsame.symm
  exact hle.trans (effects_le_one h.accounted.nodup _)

theorem System.Sound.effectsOf_eq_one (h : sys.Sound host) {i : String} {c : Content}
    (hi : sys.book i = some c) {e : Effect String (String × String) Int}
    (he : find sys.server c.idempotencyKey = some e) : sys.effectsOf i = 1 := by
  obtain ⟨hmem, hkey⟩ := find_some he
  obtain ⟨x, hx, hkx, -⟩ := h.accounted.effects e hmem
  have hid : x.op.operationId = i :=
    h.catalogued.key_inj (h.content hx) hi ((h.keyed hx hkx).2.trans hkey)
  have hpos : 0 < sys.effectsOf i := by
    refine List.countP_pos_iff.mpr ⟨e, hmem, List.any_eq_true.mpr ⟨x, hx, ?_⟩⟩
    exact decide_eq_true ⟨hid, hkx⟩
  have hle := h.effectsOf_le_one i
  omega

end Sends

/-! ### Runs -/

structure ExactlyOnce (sys : System) : Prop where
  key : ∀ x ∈ sys.sent, x.wire.idempotencyKey
    = if x.attempt.isPreview then none else some x.op.idempotencyKey
  payload : ∀ x ∈ sys.sent, ∀ y ∈ sys.sent, x.op.operationId = y.op.operationId →
    x.op.idempotencyKey = y.op.idempotencyKey ∧ x.wire.payload = y.wire.payload
  request : ∀ x ∈ sys.sent, ∀ y ∈ sys.sent, x.op.operationId = y.op.operationId →
    x.attempt.isPreview = false → y.attempt.isPreview = false → x.wire = y.wire
  matching : ∀ x ∈ sys.sent, ∀ key, x.wire.idempotencyKey = some key → ∀ choice,
    (serve sys.server key x.wire.body choice).1 ≠ .mismatch
  sent : ∀ e ∈ sys.server, ∃ x ∈ sys.sent, x.wire.idempotencyKey = some e.key ∧
    x.wire.body = e.payload
  once : ∀ i, sys.effectsOf i ≤ 1
  delivered : ∀ i h, sys.store.history.find i = some h → h.delivered → sys.effectsOf i = 1

/-- In every run, every operation takes effect at most once, and exactly once if it is archived as
delivered. -/
theorem effects_exactly_once (host : Host) (acts : List Act) :
    ExactlyOnce (System.run host acts) := by
  have h := run_sound host acts
  refine ⟨fun x hx => sent_key h.booked h.staged h.catalogued hx, fun x hx y hy hid => ⟨?_, ?_⟩,
    fun x hx y hy hid => (h.same_request hx hy hid).2, fun x hx key hk choice => ?_,
    h.accounted.effects, h.effectsOf_le_one, fun i row hf hdel => ?_⟩
  · exact congrArg Content.idempotencyKey (h.same_content hx hy hid)
  · exact (h.same_request hx hy hid).1
  · exact serve_ne_mismatch fun e he => h.effect_body hx hk he
  · obtain ⟨⟨e, he⟩, -⟩ := h.accounted.history i row hf hdel
    obtain ⟨c, hbook, hkey⟩ := h.booked.archived i row hf
    rw [← hkey] at he
    exact h.effectsOf_eq_one hbook he

/-! ### A preview -/

def conflictHost : Host :=
  { Host.plain with
    loads := fun _ => .ok (.dict [("error", .str "revision_conflict"), ("message", .str "")]) }

def conflictResponse : Response := ⟨409, none, [], List.forall_mem_nil _, none⟩

def sampleCorrection : CorrectionToolArgs where
  sourceId := "m"
  apiAction := "mark_stale"
  reason := "old"

def previewed : List Act :=
  [.own (.correct sampleAgent "s" "c" sampleCorrection 1 0),
   .claim sampleConfig (samplePage "w" "k" 0), .begin 0, .send 0,
   .serve 0 none (.answered conflictResponse), .finish 0 "r" 0, .apply 0 0,
   .claim sampleConfig (samplePage "w" "l" 0), .begin 1, .send 1]

theorem preview_without_key : ¬ ∀ (host : Host) (acts : List Act),
    ∀ x ∈ (System.run host acts).sent, ∀ y ∈ (System.run host acts).sent,
      x.op.operationId = y.op.operationId → x.wire.idempotencyKey = y.wire.idempotencyKey := by
  intro h
  have hall : ((System.run conflictHost previewed).sent.all fun x =>
      (System.run conflictHost previewed).sent.all fun y => decide
        (x.op.operationId = y.op.operationId → x.wire.idempotencyKey = y.wire.idempotencyKey))
      = true := by
    simpa only [List.all_eq_true, decide_eq_true_eq] using h conflictHost previewed
  exact absurd hall (by decide +kernel)

end SibylMemory
