import SibylMemory.Acceptance
import SibylMemory.Execute
import SibylMemory.Outbox.SessionOrder

/-!
# The calls that captures, reconciliation and delivery make

`Issued` lists the outbox calls that the runtime's own thread makes for turns and sessions, and
those of the workers that deliver. Under them every operation of the outbox is a turn, the rewind
correction of an indexed turn, or a replacement that revision reconciliation made.
-/

namespace SibylMemory
open Outbox

/-- The intent that plans the correction of a turn, with the revision and the dependency that
were read. -/
def correctionOf (t : TurnRow) (revision : Option Int) (queued : Bool) : StaleCorrectionIntent where
  operationId := rewindIntentId t.operationId
  sourceId := t.sourceId
  expectedRevision := revision
  dependsOnOperationId := if queued then some t.operationId else none

/-- The replacement that `_reconcile_correction` makes for a claimed correction. -/
def Replaces (host : Host) (op : ClaimedOperation) (replacement : NewOperation) : Prop :=
  ∃ r preview, reconcileCorrection host op r preview = .ok (.replace replacement)

inductive Issued (host : Host) (agentId : String) (s : Store) : Call → Prop where
  | capture (c : RuntimeContext) (agent : c.agentId = agentId) (sid parent : String)
      (turnNumber : Option Int) (userContent assistantContent : String) (now : Instant) :
      Issued host agentId s (.enqueueTurn sid
        (captureFactory host c sid parent turnNumber userContent assistantContent) parent now)
  | rewind (t : TurnRow) (indexed : t ∈ s.turns.rows) (revision : Option Int) (queued : Bool)
      (now : Instant) :
      Issued host agentId s
        (.enqueue (rewindOperation host agentId (correctionOf t revision queued)) now)
  | mark (sid parent : String) (required : Bool) (now : Instant) :
      Issued host agentId s (.markSessionReconcile sid parent required now)
  | record (operationId : String) (revision : Int) :
      Issued host agentId s (.recordTurnRevision operationId revision)
  | claim (config : OutboxConfig) (page : ClaimPage) : Issued host agentId s (.claimPage config page)
  | renew (config : OutboxConfig) (op : ClaimedOperation) (lease : Option Int) (now stamp : Instant) :
      Issued host agentId s (.renewClaim config op lease now stamp)
  | apply (op : ClaimedOperation) (result : AttemptResult) (now : Instant) :
      Issued host agentId s (.applyResult op result now)
  | replace (op : ClaimedOperation) (replacement : NewOperation) (now : Instant)
      (made : Replaces host op replacement) : Issued host agentId s (.supersede op replacement now)
  | unblock (now : Instant) : Issued host agentId s (.unblockAuth now)
  | release (ops : List ClaimedOperation) (now : Instant) :
      Issued host agentId s (.releaseUnattempted ops now)

/-- The columns of a turn's rewind correction. -/
def rewindMutation (host : Host) (agentId : String) (t : TurnRow) (revision : Option Int)
    (queued : Bool) : Mutation :=
  (rewindOperation host agentId (correctionOf t revision queued)).mutation
    (requestHash host (rewindOperation host agentId (correctionOf t revision queued)).request)

def rewindId (host : Host) (agentId operationId : String) : String :=
  rewindOperationId host agentId (rewindIntentId operationId)

/-- Where an operation of the outbox comes from. -/
inductive Origin (host : Host) (agentId : String) (s : Store) (i : String) (m : Mutation) : Prop where
  | turn (t : TurnRow) (indexed : t ∈ s.turns.rows) (id : t.operationId = i)
      (kind : m.kind = "raw_capture")
  | rewind (t : TurnRow) (indexed : t ∈ s.turns.rows) (revision : Option Int) (queued : Bool)
      (id : i = rewindId host agentId t.operationId)
      (intent : m = rewindMutation host agentId t revision queued)
  | replacement (j action : String) (revision : Int) (digest : Digest j)
      (id : i = replacementId host j revision action)

structure Provenance (host : Host) (agentId : String) (s : Store) : Prop where
  disjoint : s.Disjoint
  origin : ∀ i m, s.known i = some m → Origin host agentId s i m
  known : ∀ t ∈ s.turns.rows, (s.known t.operationId).isSome
  ids : ∀ t ∈ s.turns.rows, ∃ turn, t.operationId
      = turnOperationId host agentId t.sessionId t.localSequence turn t.turnHash ∧
    t.sourceId = turnSourceId agentId t.sessionId t.localSequence turn t.turnHash
  digest : ∀ t ∈ s.turns.rows, Digest t.turnHash
  below : ∀ t ∈ s.turns.rows, t.localSequence < s.nextSequence t.sessionId
  positive : ∀ sid, 1 ≤ s.nextSequence sid
  named : s.sessions.find "" = none

theorem provenance_empty (host : Host) (agentId : String) : Provenance host agentId Store.empty where
  disjoint := disjoint_empty
  origin := fun i m h => by cases h
  known := by simp [Store.empty, TurnTable.empty, KeyedTable.empty]
  ids := by simp [Store.empty, TurnTable.empty, KeyedTable.empty]
  digest := by simp [Store.empty, TurnTable.empty, KeyedTable.empty]
  below := by simp [Store.empty, TurnTable.empty, KeyedTable.empty]
  positive := fun _ => le_refl _
  named := rfl

section Provenance
variable {host : Host} {agentId : String} {s s' : Store}

theorem Provenance.turn_digest (h : Provenance host agentId s) {t : TurnRow} (ht : t ∈ s.turns.rows) :
    Digest t.operationId := by
  obtain ⟨turn, hid, -⟩ := h.ids t ht
  rw [hid]
  exact hashParts_digest host _

theorem Provenance.known_digest (h : Provenance host agentId s) {i : String} {m : Mutation}
    (hi : s.known i = some m) : Digest i := by
  cases h.origin i m hi with
  | turn t indexed id => exact id ▸ h.turn_digest indexed
  | rewind t indexed revision queued id => exact id ▸ hashParts_digest host _
  | replacement j action revision digest id => exact id ▸ hashParts_digest host _

theorem correctionOf_congr {t t' : TurnRow} (ho : t'.operationId = t.operationId)
    (hs : t'.sourceId = t.sourceId) (revision : Option Int) (queued : Bool) :
    correctionOf t' revision queued = correctionOf t revision queued := by
  simp [correctionOf, ho, hs]

theorem effect_origin {c : Call} {r : Reply} (h : Effect host s c r s') {i : String} {m : Mutation}
    (ho : Origin host agentId s i m) : Origin host agentId s' i m := by
  cases ho with
  | turn t indexed id kind =>
    obtain ⟨t', ht', -, -, hop, -, -⟩ := effect_turns_keep h indexed
    exact .turn t' ht' (hop.trans id) kind
  | rewind t indexed revision queued id intent =>
    obtain ⟨t', ht', -, -, hop, hsrc, -⟩ := effect_turns_keep h indexed
    refine .rewind t' ht' revision queued (by rw [hop]; exact id) ?_
    rw [intent, rewindMutation, rewindMutation, correctionOf_congr hop hsrc]
  | replacement j action revision digest id => exact .replacement j action revision digest id

theorem Replaces.id {op : ClaimedOperation} {replacement : NewOperation}
    (h : Replaces host op replacement) : ∃ revision action,
      replacement.operationId = replacementId host op.operationId revision action := by
  obtain ⟨r, preview, h⟩ := h
  unfold reconcileCorrection at h
  split at h
  · cases h
  split at h
  · cases h
  split at h
  · cases h
  · rename_i revision _
    split at h
    · rename_i action metadata _ _
      dsimp only at h
      split at h
      · cases h
      · cases h
        exact ⟨revision, action, rfl⟩
    · cases h
    · cases h

/-! ### One call -/

theorem issued_not_index {c : Call} (h : Issued host agentId s c) :
    ∀ sid n oid src digest now, c ≠ .indexTurn sid n oid src digest now := by
  rintro sid n oid src digest now rfl
  cases h

theorem issued_origin {c : Call} {r : Reply} (h : Effect host s c r s')
    (hi : Issued host agentId s c) (hs : Provenance host agentId s) {op : NewOperation}
    (ho : offered (c, .ok r) = some op) :
    Origin host agentId s' op.operationId (op.mutation (requestHash host op.request)) := by
  cases hi with
  | capture c agent sid parent turnNumber userContent assistantContent now =>
    cases h with
    | @turn _ _ _ _ t json hash operations sessions turns nonempty made valid canonical named fresh
        insert index session =>
      simp only [offered, made] at ho
      cases ho
      have hk := (captureFactory_captured made).kind
      exact .turn _ ((TurnTable.mem_insertTurn index _).mpr (.inr rfl)) rfl hk
  | rewind t indexed revision queued now =>
    cases h with
    | known => cases ho
    | accept =>
      cases ho
      exact .rewind t indexed revision queued rfl rfl
  | replace op replacement now made =>
    cases h with
    | @supersede _ _ row _ _ _ _ _ valid canonical held token fresh insert archive =>
      cases ho
      obtain ⟨revision, action, hid⟩ := made.id
      have hknown : s.known op.operationId = some row.mutation := by rw [Store.known, held]
      exact .replacement _ action revision (hs.known_digest hknown) hid
  | mark => cases h with | mark => cases ho
  | record => cases h with | record => cases ho
  | claim => cases h with | claim => cases ho
  | renew => cases h with | renew => cases ho
  | apply => cases h <;> cases ho
  | unblock => cases h with | unblock => cases ho
  | release => cases h with | release => cases ho

theorem effect_named {c : Call} {r : Reply} (h : Effect host s c r s')
    (hc : ∀ sid n oid src digest now, c ≠ .indexTurn sid n oid src digest now)
    (hn : s.sessions.find "" = none) : s'.sessions.find "" = none := by
  cases h with
  | reserve nonempty session => rw [session, if_neg (Ne.symm nonempty), hn]
  | turn nonempty made valid canonical named fresh insert index session =>
    rw [session, if_neg (Ne.symm nonempty), hn]
  | mark nonempty session => rw [session, if_neg (Ne.symm nonempty), hn]
  | index => exact absurd rfl (hc _ _ _ _ _ _)
  | _ => exact hn

theorem effect_provenance {c : Call} {r : Reply} (h : Effect host s c r s')
    (hi : Issued host agentId s c) (hs : Provenance host agentId s) :
    Provenance host agentId s' := by
  have hni := issued_not_index hi
  refine ⟨effect_disjoint h hs.disjoint, fun i m hm => ?_,
    fun t ht => effect_turn_known h hni hs.disjoint hs.known ht, fun t ht => ?_, fun t ht => ?_,
    fun t ht => effect_turn_below h hni hs.below ht, fun sid => ?_, effect_named h hni hs.named⟩
  · rw [effect_known_eq h] at hm
    split at hm
    · rename_i op ho
      split at hm
      · rename_i he
        cases hm
        rw [he]
        exact issued_origin h hi hs ho
      · exact effect_origin h (hs.origin i m hm)
    · exact effect_origin h (hs.origin i m hm)
  · rcases effect_turn_row h hni ht with ⟨t₀, ht₀, h1, h2, h3, h4, h5⟩ |
      ⟨factory, parent, now, made, rfl, hmade, h2, h3, h4, h5⟩
    · rw [← h1, ← h2, ← h3, ← h4, ← h5]
      exact hs.ids t₀ ht₀
    · cases hi with
      | capture c agent sid parent turnNumber userContent assistantContent now =>
        have hcap := captureFactory_captured hmade
        rw [agent] at hcap
        obtain ⟨turn, hid, hsrc⟩ := hcap.ids
        exact ⟨turn, by rw [h3, h2, h5, hcap.digest, hid], by rw [h4, h2, h5, hcap.digest, hsrc]⟩
  · rcases effect_turn_row h hni ht with ⟨t₀, ht₀, h1, h2, h3, h4, h5⟩ |
      ⟨factory, parent, now, made, rfl, hmade, h2, h3, h4, h5⟩
    · exact h5 ▸ hs.digest t₀ ht₀
    · cases hi with
      | capture c agent sid parent turnNumber userContent assistantContent now =>
        rw [h5, (captureFactory_captured hmade).digest]
        exact turnHash_digest host _ _
  · exact le_trans (hs.positive sid) (effect_nextSequence h hni sid)

end Provenance

end SibylMemory
