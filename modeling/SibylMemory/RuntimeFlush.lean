import SibylMemory.Outbox.FlushRuns
import SibylMemory.Delivery.Book

/-!
# The flush of the runtime (`runtime.py:270-301`, `626-739`)

`_execute_operation` as the executor of a flush.
-/

namespace SibylMemory
open Outbox

section Executor
variable (host : Host) (net : WireRequest → Exchange) (requestId : String) (op : ClaimedOperation)
  (now : Instant)

/-- The outbox calls of `_execute_operation`. -/
def executorCalls (s : Store) : List Call :=
  match beginAttempt host s op with
  | .error _ => []
  | .ok attempt =>
    match attempt.wire op.idempotencyKey with
    | .error _ => []
    | .ok wire => (Sent.call host ⟨op, attempt, wire⟩ (net wire) requestId now).toList

def runtimeExecution (w : World) : Execution :=
  ⟨executorCalls host net requestId op now w.store,
    .ok (executeOperation host net requestId op now w.store).1.returned⟩

end Executor

section Fair
variable {host : Host} {net : WireRequest → Exchange} {requestId : String} {op : ClaimedOperation}
  {now : Instant}

theorem sent_calls (x : Sent) (exchange : Exchange) (w : World) :
    (Run.exec (World.step host) w (x.call host exchange requestId now).toList).store =
      (x.finish host exchange requestId now w.store).2 := by
  rw [finish_eq]
  cases x.call host exchange requestId now <;> rfl

theorem executorCalls_store (w : World) :
    (Run.exec (World.step host) w (executorCalls host net requestId op now w.store)).store =
      (executeOperation host net requestId op now w.store).2 := by
  rw [executeOperation_eq, executorCalls]
  cases hbegin : beginAttempt host w.store op with
  | error className => rfl
  | ok attempt =>
    cases attempt with
    | finished result => rfl
    | _ =>
      dsimp only
      generalize Attempt.wire _ _ = wire
      cases wire with
      | error className => rfl
      | ok wire =>
        exact sent_calls ⟨op, _, wire⟩ (net wire) w

theorem sent_call {x : Sent} {exchange : Exchange} {c : Call}
    (h : x.call host exchange requestId now = some c) :
    (∃ revision, c = .recordTurnRevision x.op.operationId revision) ∨
      ∃ replacement, c = .supersede x.op replacement now := by
  unfold Sent.call at h
  split at h
  · split at h
    · cases h
      exact .inl ⟨_, rfl⟩
    · cases h
  · split at h
    · split at h
      · cases h
        exact .inr ⟨_, rfl⟩
      · cases h
    · cases h
  · cases h

theorem executorCalls_mem {s : Store} {c : Call} (h : c ∈ executorCalls host net requestId op now s) :
    (∃ revision, c = .recordTurnRevision op.operationId revision) ∨
      ∃ replacement, c = .supersede op replacement now := by
  unfold executorCalls at h
  split at h
  · cases h
  · split at h
    · cases h
    · exact sent_call (x := ⟨op, _, _⟩) (Option.mem_toList.mp h)

theorem recordTurnRevision_operations (oid : String) (revision : Int) (s : Store) :
    (recordTurnRevision oid revision s).2.operations = s.operations := by
  cases h : recordTurnRevision oid revision s with
  | mk out s' =>
    cases out with
    | error e => rw [(transact_error h).1]
    | ok u =>
      have heff : Effect Host.plain s _ _ s' := recordTurnRevision_effect h
      cases heff with
      | record positive => rfl

theorem finish_superseded {x : Sent} {exchange : Exchange} {s : Store}
    (hlive : s.operations.find x.op.operationId ≠ none)
    (hgone : (x.finish host exchange requestId now s).2.operations.find x.op.operationId = none) :
    (x.finish host exchange requestId now s).1.action = .superseded := by
  unfold Sent.finish at hgone ⊢
  split at hgone
  · exact absurd hgone hlive
  · split at hgone
    · rename_i response hresponse
      have hsame := recordTurnRevision_operations x.op.operationId response.revision s
      unfold rememberDone at hgone
      cases hrecord : recordTurnRevision x.op.operationId response.revision s with
      | mk out s' =>
        rw [hrecord] at hgone hsame
        rw [← hsame] at hlive
        cases out <;> exact absurd hgone hlive
    · exact absurd hgone hlive
  · split at hgone <;> exact absurd hgone hlive
  · split at hgone <;> exact absurd hgone hlive
  · split at hgone
    · unfold previewDone at hgone ⊢
      split at hgone
      · exact absurd hgone hlive
      · exact absurd hgone hlive
      · rename_i replacement hreplace
        cases hsupersede : supersede host x.op replacement now s with
        | mk out s' =>
          rw [hsupersede] at hgone
          cases out with
          | ok u => rfl
          | error e =>
            rw [(transact_error hsupersede).1] at hgone
            exact absurd hgone hlive
    · exact absurd hgone hlive

theorem executeOperation_superseded {s : Store} (hlive : s.operations.find op.operationId ≠ none)
    (hgone : (executeOperation host net requestId op now s).2.operations.find op.operationId = none) :
    (executeOperation host net requestId op now s).1.action = .superseded := by
  rw [executeOperation_eq] at hgone ⊢
  cases hbegin : beginAttempt host s op with
  | error className =>
    rw [hbegin] at hgone
    exact absurd hgone hlive
  | ok attempt =>
    rw [hbegin] at hgone
    cases attempt with
    | finished result => exact absurd hgone hlive
    | _ =>
      dsimp only at hgone ⊢
      split at hgone
      · exact absurd hgone hlive
      · rename_i wire hwire
        exact finish_superseded (x := ⟨op, _, wire⟩) hlive hgone

theorem runtimeExecution_fair {w : World} (hheld : w.store.holds op = true) :
    (runtimeExecution host net requestId op now w).Fair host now w op where
  calls := by
    intro c hc
    rcases executorCalls_mem hc with ⟨revision, rfl⟩ | ⟨replacement, rfl⟩
    · exact ⟨trivial, by simp [Call.readings]⟩
    · exact ⟨rfl, by simp [Call.readings]⟩
  superseded := by
    intro hgone
    obtain ⟨row, hrow, -⟩ := (holds_iff _ _).mp hheld
    refine ⟨_, rfl, executeOperation_superseded ?_ ?_⟩
    · rw [hrow]
      exact Option.some_ne_none row
    · rw [← executorCalls_store]
      exact hgone

end Fair

/-! ### What an attempt stores -/

section Stored
variable {host : Host} {net : WireRequest → Exchange} {requestId : String} {op : ClaimedOperation}
  {now : Instant} {s : Store}

theorem failed_status {e : ClientError} {n : Int} (hn : n ∈ (failedAttempt op e).status) :
    ∃ m ∈ e.statusCode, n = m := by
  cases e with
  | http data =>
    cases hn
    exact ⟨_, rfl, rfl⟩
  | conflict data =>
    cases hn
    exact ⟨_, rfl, rfl⟩
  | protocol message id statusCode preview =>
    obtain ⟨m, hm, rfl⟩ := Option.map_eq_some_iff.mp hn
    exact ⟨m, hm, rfl⟩
  | transport => cases hn
  | other => cases hn

/-- The status of a result is 200, or that of an answer. -/
def FromAnswer (net : WireRequest → Exchange) (result : AttemptResult) : Prop :=
  ∀ n ∈ result.status, n = 200 ∨ ∃ wire r, net wire = .answered r ∧ n = r.status

theorem silent_answer {result : AttemptResult} (h : result.status = none) : FromAnswer net result := by
  intro n hn
  rw [h] at hn
  cases hn

theorem answered_answer {result : AttemptResult} (h : result.status = some 200) :
    FromAnswer net result := by
  intro n hn
  rw [h] at hn
  cases hn
  exact .inl rfl

theorem finish_answer {x : Sent} (hx : ∀ result, x.attempt ≠ .finished result) :
    FromAnswer net (x.finish host (net x.wire) requestId now s).1 := by
  have hfailed : ∀ {α : Type} {parser : PyValue → Except String α} {check : α → Except String Unit}
      {e : ClientError}, request host (fun _ => net x.wire) requestId x.wire parser check = .error e →
      FromAnswer net (failedAttempt x.op e) := by
    intro α parser check e h n hn
    obtain ⟨m, hm, rfl⟩ := failed_status hn
    obtain ⟨r, hr, rfl⟩ := request_statusCode h hm
    exact .inr ⟨x.wire, r, hr, rfl⟩
  unfold Sent.finish
  split
  · rename_i result hresult
    exact absurd hresult (hx result)
  · split
    · unfold rememberDone
      split
      · exact answered_answer rfl
      · exact silent_answer rfl
    · rename_i e he
      exact hfailed he
  · split
    · exact answered_answer rfl
    · rename_i e he
      exact hfailed he
  · split
    · exact answered_answer rfl
    · rename_i e he
      exact hfailed he
  · split
    · unfold previewDone
      split
      · exact silent_answer rfl
      · rename_i result hresult
        exact fun n hn => .inl ((reconcileCorrection_finished hresult).1 n hn)
      · split
        · exact answered_answer rfl
        · exact silent_answer rfl
    · rename_i e he
      exact hfailed he

theorem executeOperation_answer :
    FromAnswer net (executeOperation host net requestId op now s).1 := by
  rw [executeOperation_eq]
  split
  · exact silent_answer rfl
  · rename_i result hbegin
    rcases beginAttempt_finished hbegin with ⟨-, rfl⟩ | rfl
    · exact silent_answer rfl
    · exact silent_answer rfl
  · rename_i attempt hgoing hbegin
    split
    · rename_i e he
      obtain ⟨className, rfl⟩ := wire_error he
      exact silent_answer rfl
    · rename_i wire hwire
      exact finish_answer (x := ⟨op, attempt, wire⟩) fun result he => hgoing result he

/-- What `_execute_operation` returns can be stored: its texts have no surrogates, and its status is
that of an answer. -/
theorem runtimeExecution_storable {w : World}
    (hstatus : ∀ wire r, net wire = .answered r → (r.status : Int) < INT64_END) :
    (runtimeExecution host net requestId op now w).Storable := by
  refine ⟨_, rfl, returned_bound fun n hn => ?_⟩
  rcases executeOperation_answer n hn with rfl | ⟨wire, r, hr, rfl⟩
  · decide
  · have hbound := hstatus wire r hr
    omega

end Stored

/-- `self._outbox.flush(f"runtime-{threading.get_ident()}", self._execute_operation)` -/
def runtimeFlush (host : Host) (config : OutboxConfig) (thread : Nat) (now stamp : World → Instant)
    (monotonic : World → Int) (uuids : World → Nat → String)
    (net : World → WireRequest → Exchange) (requestId : World → String) : FlushEnv where
  host
  config
  workerId := "runtime-" ++ toString thread
  pageSize := 1
  timeoutSeconds := none
  now
  stamp
  monotonic
  uuids
  execute w op := runtimeExecution host (net w) (requestId w) op (now w) w

section Regular
variable {host : Host} {now : World → Instant} (config : OutboxConfig) (thread : Nat)
  (stamp : World → Instant) (monotonic : World → Int) (uuids : World → Nat → String)
  (net : World → WireRequest → Exchange) (requestId : World → String)

theorem runtimeFlush_regular
    (hclock : ∀ w calls, now w ≤ now (Run.exec (World.step host) w calls)) :
    (runtimeFlush host config thread now stamp monotonic uuids net requestId).Regular where
  worker := by
    intro h
    have hlength := congrArg String.length h
    simp [runtimeFlush] at hlength
  size := le_refl _
  timeout := nofun
  clock := hclock
  executor := fun w op hheld => runtimeExecution_fair hheld

end Regular

end SibylMemory
