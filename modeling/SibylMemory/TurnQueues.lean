import SibylMemory.Library.SkipQueue
import SibylMemory.Sessions

/-!
# Histories of turn starts (`sessions.py:25-69`)

Any history of `record`, `consume` and `clear`. A record is the object that its `record` call made,
so that it is named by the position of that call; the numbered queues of `SkipQueue` say which one
a `consume` returns.
-/

namespace SibylMemory
open SkipQueue

inductive TurnCall where
  | record (sessionId : String) (turnNumber : Int) (userContent : String)
  | consume (sessionId userContent : String)
  | clear (sessionId : String)

namespace TurnStartQueue

def pendingTurn (host : Host) (turnNumber : Int) (userContent : String) : PendingTurn where
  turnNumber := turnNumber
  userMessageHash := messageHash host userContent

/-- One call: what `consume` returns, if it does not raise, and the queue after it. -/
def call (host : Host) (q : TurnStartQueue) : TurnCall → Option PendingTurn × TurnStartQueue
  | .record sessionId turnNumber userContent => (none, q.record host sessionId turnNumber userContent)
  | .consume sessionId userContent =>
    match q.consume host sessionId userContent with
    | none => (none, q)
    | some (pending, q) => (some pending, q)
  | .clear sessionId => (none, q.clear sessionId)

def afterCalls (host : Host) (calls : List TurnCall) : TurnStartQueue :=
  calls.foldl (fun q c => (q.call host c).2) empty

/-- What the call at a position returns. -/
def consumedAt (host : Host) (calls : List TurnCall) (k : Nat) : Option PendingTurn :=
  calls[k]?.bind fun c => ((afterCalls host (calls.take k)).call host c).1

end TurnStartQueue
open TurnStartQueue

def TurnCall.sessionId : TurnCall → String
  | .record sessionId _ _ => sessionId
  | .consume sessionId _ => sessionId
  | .clear sessionId => sessionId

def TurnCall.labelled (host : Host) : TurnCall → SkipQueue.Call String PendingTurn String
  | .record sessionId turnNumber userContent =>
    .record sessionId (pendingTurn host turnNumber userContent)
  | .consume sessionId userContent => .consume sessionId (messageHash host userContent)
  | .clear sessionId => .clear sessionId

/-- The `record` call that made what the call at `k` returns. -/
def startOf (host : Host) (calls : List TurnCall) (k : Nat) : Option Nat :=
  origin PendingTurn.userMessageHash (calls.map (TurnCall.labelled host)) k

/-! ### The queues are those of `SkipQueue` -/

section Refinement
variable (host : Host)

theorem consume_read (q : TurnStartQueue) (sessionId userContent : String) :
    q.consume host sessionId userContent = (SkipQueue.read PendingTurn.userMessageHash
      (messageHash host userContent) (q.turns sessionId)).map fun r =>
        (r.1, ⟨Function.update q.turns sessionId r.2⟩) := by
  simp only [TurnStartQueue.consume, SkipQueue.read]
  cases (q.turns sessionId).dropWhile fun pending =>
    decide (pending.userMessageHash ≠ messageHash host userContent) <;> rfl

theorem call_step (q : TurnStartQueue) (c : TurnCall) :
    step PendingTurn.userMessageHash q.turns (c.labelled host)
      = ((q.call host c).1, (q.call host c).2.turns) := by
  cases c with
  | record sessionId turnNumber userContent => rfl
  | clear sessionId => rfl
  | consume sessionId userContent =>
    simp only [TurnCall.labelled, step, call, consume_read]
    cases SkipQueue.read PendingTurn.userMessageHash (messageHash host userContent)
      (q.turns sessionId) <;> rfl

theorem afterCalls_turns (calls : List TurnCall) :
    (afterCalls host calls).turns
      = after PendingTurn.userMessageHash (calls.map (TurnCall.labelled host)) := by
  induction calls using List.reverseRecOn with
  | nil => rfl
  | append_singleton calls c ih =>
    rw [List.map_append, List.map_cons, List.map_nil, after_snoc, ← ih, call_step, afterCalls,
      List.foldl_append]
    rfl

theorem consumedAt_eq (calls : List TurnCall) (k : Nat) :
    consumedAt host calls k
      = SkipQueue.returned PendingTurn.userMessageHash (calls.map (TurnCall.labelled host)) k := by
  rw [consumedAt, SkipQueue.returned, List.getElem?_map, ← List.map_take, ← afterCalls_turns]
  cases calls[k]? with
  | none => rfl
  | some c => exact (congrArg Prod.fst (call_step host _ c)).symm

theorem consumedAt_none (calls : List TurnCall) (k : Nat) :
    consumedAt host calls k = none ↔ startOf host calls k = none := by
  rw [consumedAt_eq, returned_eq, startOf, origin, Option.map_eq_none_iff, Option.map_eq_none_iff]

variable {host} {calls : List TurnCall}

theorem labelled_get {k : Nat} {c : TurnCall} (h : calls[k]? = some c) :
    (calls.map (TurnCall.labelled host))[k]? = some (c.labelled host) := by
  rw [List.getElem?_map, h]
  rfl

theorem labelled_record {i : Nat} {sessionId : String} {pending : PendingTurn}
    (h : (calls.map (TurnCall.labelled host))[i]? = some (.record sessionId pending)) :
    ∃ turnNumber userContent, calls[i]? = some (.record sessionId turnNumber userContent) ∧
      pending = pendingTurn host turnNumber userContent := by
  rw [List.getElem?_map] at h
  obtain ⟨c, hc, he⟩ := Option.map_eq_some_iff.mp h
  cases c with
  | record sessionId' turnNumber userContent =>
    cases he
    exact ⟨turnNumber, userContent, hc, rfl⟩
  | consume => cases he
  | clear => cases he

theorem labelled_consume {k : Nat} {sessionId label : String}
    (h : (calls.map (TurnCall.labelled host))[k]? = some (.consume sessionId label)) :
    ∃ userContent, calls[k]? = some (.consume sessionId userContent) := by
  rw [List.getElem?_map] at h
  obtain ⟨c, hc, he⟩ := Option.map_eq_some_iff.mp h
  cases c with
  | consume sessionId' userContent =>
    cases he
    exact ⟨userContent, hc⟩
  | record => cases he
  | clear => cases he

end Refinement

/-! ### The discipline -/

/-- Before the call `k` the record `i` of a session is neither consumed nor discarded: no `clear` of
the session came after it, and no `consume` of the session returned it or a later record. -/
structure Unconsumed (host : Host) (calls : List TurnCall) (k : Nat) (sessionId : String) (i : Nat) :
    Prop where
  before : i < k
  kept : ∀ j, i < j → j < k → calls[j]? ≠ some (.clear sessionId)
  unread : ∀ j i' userContent, i < j → j < k → calls[j]? = some (.consume sessionId userContent) →
    startOf host calls j = some i' → i' < i

theorem unconsumed_iff {host : Host} {calls : List TurnCall} {k : Nat} {sessionId : String} {i : Nat} :
    Unconsumed host calls k sessionId i ↔ Open PendingTurn.userMessageHash
      (calls.map (TurnCall.labelled host)) k sessionId i := by
  constructor
  · intro h
    refine ⟨h.before, fun j h1 h2 he => ?_, fun j i' label h1 h2 he ho => ?_⟩
    · rw [List.getElem?_map] at he
      obtain ⟨c, hc, he⟩ := Option.map_eq_some_iff.mp he
      cases c with
      | clear sessionId' =>
        cases he
        exact h.kept j h1 h2 hc
      | record => cases he
      | consume => cases he
    · obtain ⟨userContent, hc⟩ := labelled_consume he
      exact h.unread j i' userContent h1 h2 hc ho
  · intro h
    exact ⟨h.before, fun j h1 h2 hc => h.kept j h1 h2 (labelled_get hc),
      fun j i' userContent h1 h2 hc ho => h.unread j i' _ h1 h2 (labelled_get hc) ho⟩

/-- What a history of calls guarantees. -/
structure QueueDiscipline (host : Host) (calls : List TurnCall) : Prop where
  /-- what is returned is a record -/
  named : ∀ k, consumedAt host calls k = none ↔ startOf host calls k = none
  /-- a record is returned once -/
  once : ∀ k k' i, startOf host calls k = some i → startOf host calls k' = some i → k = k'
  /-- what is returned was recorded before for the session, with the hash of what is consumed, and
  the session was not cleared since -/
  recorded : ∀ k sessionId userContent i, calls[k]? = some (.consume sessionId userContent) →
    startOf host calls k = some i → i < k ∧
      (∀ j, i < j → j < k → calls[j]? ≠ some (.clear sessionId)) ∧
      ∃ turnNumber content, calls[i]? = some (.record sessionId turnNumber content) ∧
        messageHash host content = messageHash host userContent ∧
        consumedAt host calls k = some (pendingTurn host turnNumber content)
  /-- the records of a session are returned in the order in which they were recorded -/
  ordered : ∀ k k' sessionId userContent userContent' i i', k < k' →
    calls[k]? = some (.consume sessionId userContent) →
    calls[k']? = some (.consume sessionId userContent') →
    startOf host calls k = some i → startOf host calls k' = some i' → i < i'
  /-- a `consume` raises when no record of the session that is left has the hash -/
  fails : ∀ k sessionId userContent, calls[k]? = some (.consume sessionId userContent) →
    (consumedAt host calls k = none ↔ ¬ ∃ i turnNumber content,
      Unconsumed host calls k sessionId i ∧
      calls[i]? = some (.record sessionId turnNumber content) ∧
      messageHash host content = messageHash host userContent)
  /-- a `consume` that raises leaves the queues alone -/
  failed : ∀ k sessionId userContent, calls[k]? = some (.consume sessionId userContent) →
    consumedAt host calls k = none →
    afterCalls host (calls.take (k + 1)) = afterCalls host (calls.take k)
  /-- a call leaves the queues of other sessions alone -/
  others : ∀ k c sessionId, calls[k]? = some c → c.sessionId ≠ sessionId →
    (afterCalls host (calls.take (k + 1))).turns sessionId
      = (afterCalls host (calls.take k)).turns sessionId

theorem afterCalls_succ {host : Host} {calls : List TurnCall} {k : Nat} {c : TurnCall}
    (h : calls[k]? = some c) : afterCalls host (calls.take (k + 1))
      = ((afterCalls host (calls.take k)).call host c).2 := by
  rw [List.take_add_one, h, Option.toList_some, afterCalls, List.foldl_append]
  rfl

theorem call_others (host : Host) (q : TurnStartQueue) {c : TurnCall} {sessionId : String}
    (h : c.sessionId ≠ sessionId) : (q.call host c).2.turns sessionId = q.turns sessionId := by
  cases c with
  | record sid turnNumber userContent => exact Function.update_of_ne (Ne.symm h) _ _
  | clear sid => exact Function.update_of_ne (Ne.symm h) _ _
  | consume sid userContent =>
    simp only [call, consume_read]
    cases SkipQueue.read PendingTurn.userMessageHash (messageHash host userContent) (q.turns sid) with
    | none => rfl
    | some r => exact Function.update_of_ne (Ne.symm h) _ _

theorem queue_discipline (host : Host) (calls : List TurnCall) : QueueDiscipline host calls where
  named := consumedAt_none host calls
  once k k' i h h' := origin_injective h h'
  recorded k sessionId userContent i hc ho := by
    obtain ⟨hopen, pending, hrec, hlabel, hret⟩ := origin_consume (labelled_get hc) ho
    obtain ⟨turnNumber, content, hcall, rfl⟩ := labelled_record hrec
    have hleft := unconsumed_iff.mpr hopen
    exact ⟨hleft.before, hleft.kept, turnNumber, content, hcall, hlabel,
      by rw [consumedAt_eq, hret]⟩
  ordered k k' sessionId userContent userContent' i i' hlt hc hc' ho ho' :=
    origin_increasing (labelled_get hc) (labelled_get hc') ho ho' hlt
  fails k sessionId userContent hc := by
    rw [consumedAt_none, startOf, origin_none (labelled_get hc), not_iff_not]
    constructor
    · rintro ⟨i, pending, hopen, hrec, hlabel⟩
      obtain ⟨turnNumber, content, hcall, rfl⟩ := labelled_record hrec
      exact ⟨i, turnNumber, content, unconsumed_iff.mpr hopen, hcall, hlabel⟩
    · rintro ⟨i, turnNumber, content, hleft, hcall, hlabel⟩
      exact ⟨i, pendingTurn host turnNumber content, unconsumed_iff.mp hleft, labelled_get hcall,
        hlabel⟩
  failed k sessionId userContent hc hnone := by
    rw [consumedAt, hc] at hnone
    rw [afterCalls_succ hc]
    simp only [Option.bind_some, call] at hnone ⊢
    cases hconsume : (afterCalls host (calls.take k)).consume host sessionId userContent with
    | none => rfl
    | some r =>
      rw [hconsume] at hnone
      cases hnone
  others k c sessionId hc hne := by
    rw [afterCalls_succ hc]
    exact call_others host _ hne

end SibylMemory
