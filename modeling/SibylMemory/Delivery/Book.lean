import SibylMemory.Delivery.System

/-!
# What a step does, and what stays on record

`Move` lists what a step of the system can do. The first invariants are derived from it: the
content of an operation never changes from acceptance to its claims, and every stage of an
attempt goes on from the stage before.
-/

namespace SibylMemory
open Outbox Idempotency

/-! ### Moves -/

/-- A worker's call that takes no result. -/
def Outbox.Call.Tends : Call → Prop
  | .claimPage _ _ => True
  | .renewClaim _ _ _ _ _ => True
  | .unblockAuth _ => True
  | .releaseUnattempted _ _ => True
  | _ => False

inductive Called (host : Host) (sys : System) : Call → Prop where
  | own {o : OwnAct} {c : Call} (made : o.call host sys.store = some c) : Called host sys c
  | tend {c : Call} (tends : c.Tends) : Called host sys c
  | finish {x : Sent} {exchange : Exchange} {requestId : String} {now : Instant} {c : Call}
      (answered : (x, exchange) ∈ sys.answers)
      (made : x.call host exchange requestId now = some c) : Called host sys c
  | apply {op : ClaimedOperation} {result : AttemptResult} {now : Instant}
      (concluded : (op, result) ∈ sys.results) : Called host sys (.applyResult op result now)

/-- What a step can do. -/
inductive Move (host : Host) (sys : System) : System → Prop where
  | idle : Move host sys sys
  | call {c : Call} (called : Called host sys c) : Move host sys (sys.exec host c)
  | begun {op : ClaimedOperation} {attempt : Attempt} (claimed : op ∈ sys.claimed)
      (prepared : beginAttempt host sys.store op = .ok attempt)
      (going : ∀ result, attempt ≠ .finished result) :
      Move host sys { sys with begun := sys.begun ++ [(op, attempt)] }
  | sent {op : ClaimedOperation} {attempt : Attempt} {wire : WireRequest}
      (begun : (op, attempt) ∈ sys.begun) (made : attempt.wire op.idempotencyKey = .ok wire) :
      Move host sys { sys with sent := sys.sent ++ [⟨op, attempt, wire⟩] }
  | served {x : Sent} {key : String} {choice : Option Int} {exchange : Exchange}
      (sent : x ∈ sys.sent) (keyed : x.wire.idempotencyKey = some key)
      (conveyed : conveys host x.wire (serve sys.server key x.wire.body choice).1 exchange = true) :
      Move host sys { sys with server := (serve sys.server key x.wire.body choice).2,
                               answers := sys.answers ++ [(x, exchange)] }
  | answered {x : Sent} {exchange : Exchange} (sent : x ∈ sys.sent)
      (effectless : x.wire.idempotencyKey = none ∨ ∃ errorType, exchange = .failed errorType) :
      Move host sys { sys with answers := sys.answers ++ [(x, exchange)] }
  | concluded {op : ClaimedOperation} {result : AttemptResult}
      (claimed : op ∈ sys.claimed ∨ ∃ attempt, (op, attempt) ∈ sys.begun)
      (unsuccessful : result.action ≠ .succeed) :
      Move host sys { sys with results := sys.results ++ [(op, result)] }
  | finished {x : Sent} {exchange : Exchange} {requestId : String} {now : Instant}
      (answered : (x, exchange) ∈ sys.answers) :
      Move host sys (sys.finish host x exchange requestId now)

theorem classify_unsuccessful (status : Option Nat) (code : Option String) (correction pending : Bool) :
    classifyHttpFailure status code correction pending ≠ .succeed := by
  unfold classifyHttpFailure
  repeat' split
  all_goals simp

theorem failedAttempt_unsuccessful (op : ClaimedOperation) (e : ClientError) :
    (failedAttempt op e).action ≠ .succeed := by
  cases e with
  | http data =>
    exact classify_unsuccessful (some data.statusCode) (some data.error) (isCorrection op) false
  | conflict data =>
    exact classify_unsuccessful (some data.statusCode) (some data.error) (isCorrection op) false
  | _ => simp [failedAttempt, AttemptResult.failure]

theorem beginAttempt_finished {host : Host} {s : Store} {op : ClaimedOperation}
    {result : AttemptResult} (h : beginAttempt host s op = .ok (.finished result)) :
    hydrate s op = none ∧ result = revisionMissing ∨
      result = .failure .deadLetter none (some "unsupported outbox operation") := by
  unfold beginAttempt at h
  split at h
  · cases hr : rawRequest host op.request <;> rw [hr] at h <;> cases h
  split at h
  · cases hr : exposureRequest host op.request <;> rw [hr] at h <;> cases h
  split at h
  · unfold correctionAttempt at h
    simp only [bind_ok] at h
    obtain ⟨sourceId, -, h⟩ := h
    split at h
    · rename_i hnone
      cases h
      exact .inl ⟨hnone, rfl⟩
    · simp only [bind_ok] at h
      obtain ⟨request, -, h⟩ := h
      split at h <;> cases h
  · cases h
    exact .inr rfl

theorem beginAttempt_unsuccessful {host : Host} {s : Store} {op : ClaimedOperation}
    {result : AttemptResult} (h : beginAttempt host s op = .ok (.finished result)) :
    result.action ≠ .succeed := by
  rcases beginAttempt_finished h with ⟨-, rfl⟩ | rfl
  · simp [revisionMissing, AttemptResult.failure]
  · simp [AttemptResult.failure]

/-- What a reconciliation finishes with: the status of its preview or none, and no success. -/
theorem reconcileCorrection_finished {host : Host} {op : ClaimedOperation} {r : CorrectionRequest}
    {preview : CorrectionResponse} {result : AttemptResult}
    (h : reconcileCorrection host op r preview = .ok (.finished result)) :
    (∀ n ∈ result.status, n = 200) ∧ (result.action = .deadLetter ∨
      result.action = .obsolete ∧
        (preview.targetLifecycleState = "erased" ∨ preview.intendedOutcomeSatisfied = true)) := by
  unfold reconcileCorrection at h
  split at h
  · rename_i hneedless
    cases h
    exact ⟨by simp [AttemptResult.failure], .inr ⟨rfl, by simpa using hneedless⟩⟩
  split at h
  · cases h
    exact ⟨by simp [AttemptResult.failure], .inl rfl⟩
  split at h
  · cases h
    exact ⟨by simp [AttemptResult.failure], .inl rfl⟩
  · split at h
    · dsimp only at h
      split at h <;> cases h
    · cases h
    · cases h

/-! ### The errors of the client -/

/-- `status_code` of an exception of the client. -/
def ClientError.statusCode : ClientError → Option Nat
  | .http data => some data.statusCode
  | .conflict data => some data.statusCode
  | .protocol _ _ statusCode _ => statusCode
  | _ => none

theorem raise_status {host : Host} {requestId : String} {r : Response} {n : Nat}
    (h : n ∈ (raiseHttpError host requestId r).statusCode) : n = r.status := by
  unfold raiseHttpError at h
  dsimp only at h
  repeat' split at h
  all_goals cases h
  all_goals rfl

theorem parse_status {α : Type} {host : Host} {requestId : String} {r : Response}
    {parser : PyValue → Except String α} {check : α → Except String Unit} {e : ClientError} {n : Nat}
    (h : parseSuccess host requestId r parser check = .error e) (hn : n ∈ e.statusCode) :
    n = r.status := by
  unfold parseSuccess at h
  dsimp only at h
  repeat' split at h
  all_goals cases h
  all_goals cases hn
  all_goals rfl

/-- An error that names a status has it from an answer. -/
theorem request_statusCode {α : Type} {host : Host} {net : WireRequest → Exchange} {requestId : String}
    {wire : WireRequest} {parser : PyValue → Except String α} {check : α → Except String Unit}
    {e : ClientError} {n : Nat} (h : request host net requestId wire parser check = .error e)
    (hn : n ∈ e.statusCode) : ∃ r, net wire = .answered r ∧ n = r.status := by
  unfold request at h
  split at h
  · cases h
    cases hn
  · rename_i r hr
    split at h
    · cases h
      exact ⟨r, hr, raise_status hn⟩
    · exact ⟨r, hr, parse_status h hn⟩

theorem wire_error {a : Attempt} {key : String} {e : ClientError} (h : a.wire key = .error e) :
    ∃ className, e = .other className := by
  have hmutation : ∀ {path : String} {payload : Option JSONObject},
      mutationRequest path payload key = .error e → ∃ className, e = .other className := by
    intro path payload h
    cases payload with
    | none => cases h; exact ⟨_, rfl⟩
    | some payload =>
      unfold mutationRequest normalizeIdempotencyKey at h
      dsimp only at h
      split at h
      · cases h; exact ⟨_, rfl⟩
      · cases h
  have hpath : ∀ {sourceId : String} {preview : Bool} {e : ClientError},
      correctionPath sourceId preview = .error e → ∃ className, e = .other className := by
    intro sourceId preview e h
    unfold correctionPath at h
    split at h
    · cases h; exact ⟨_, rfl⟩
    · cases h
  cases a with
  | remember r =>
    rw [Attempt.wire] at h
    exact hmutation h
  | expose r =>
    rw [Attempt.wire] at h
    exact hmutation h
  | correct sourceId r =>
    simp only [Attempt.wire, bind_error] at h
    rcases h with h | ⟨path, -, h⟩
    · exact hpath h
    · exact hmutation h
  | preview sourceId r =>
    simp only [Attempt.wire, bind_error] at h
    rcases h with h | ⟨path, -, h⟩
    · exact hpath h
    · split at h
      · cases h; exact ⟨_, rfl⟩
      · cases h
  | finished result => cases h; exact ⟨_, rfl⟩

theorem step_move (host : Host) (sys : System) (a : Act) : Move host sys (sys.step host a) := by
  cases a with
  | own o =>
    simp only [System.step]
    split
    · rename_i c hc
      exact .call (.own hc)
    · exact .idle
  | claim config page => exact .call (.tend trivial)
  | renew config index lease now stamp =>
    simp only [System.step]
    split
    · exact .call (.tend trivial)
    · exact .idle
  | unblock now => exact .call (.tend trivial)
  | release indices now => exact .call (.tend trivial)
  | begin index =>
    simp only [System.step]
    split
    · rename_i op hop
      have hclaimed := List.mem_of_getElem? hop
      unfold System.begin
      split
      · exact .concluded (.inl hclaimed) (by simp [AttemptResult.failure])
      · rename_i result hr
        exact .concluded (.inl hclaimed) (beginAttempt_unsuccessful hr)
      · rename_i attempt hgoing hr
        exact .begun hclaimed hr fun result he => hgoing result (he ▸ rfl)
    · exact .idle
  | send index =>
    simp only [System.step]
    split
    · rename_i op attempt hb
      have hbegun := List.mem_of_getElem? hb
      unfold System.send
      split
      · exact .concluded (.inr ⟨attempt, hbegun⟩) (failedAttempt_unsuccessful _ _)
      · rename_i wire hw
        exact .sent hbegun hw
    · exact .idle
  | serve index choice exchange =>
    simp only [System.step]
    split
    · rename_i x hx
      unfold System.serve
      split
      · exact .idle
      · rename_i key hk
        dsimp only
        split
        · rename_i hc
          exact .served (List.mem_of_getElem? hx) hk hc
        · exact .idle
    · exact .idle
  | answer index exchange =>
    simp only [System.step]
    split
    · rename_i x hx
      have hsent := List.mem_of_getElem? hx
      unfold System.answer
      cases hk : x.wire.idempotencyKey with
      | none => exact .answered hsent (.inl hk)
      | some key =>
        cases exchange with
        | failed errorType => exact .answered hsent (.inr ⟨errorType, rfl⟩)
        | answered r => exact .idle
    · exact .idle
  | finish index requestId now =>
    simp only [System.step]
    split
    · rename_i x exchange hx
      exact .finished (List.mem_of_getElem? hx)
    · exact .idle
  | apply index now =>
    simp only [System.step]
    split
    · rename_i op result hr
      exact .call (.apply (List.mem_of_getElem? hr))
    · exact .idle

/-! ### The book -/

section Calls
variable {host : Host} {c : Call} {r : Reply} {s s' : Store}

theorem offered_fresh (h : Effect host s c r s') {op : NewOperation}
    (ho : offered (c, .ok r) = some op) : s.known op.operationId = none := by
  obtain ⟨json, hash, now, -, -, hf, -⟩ := effect_offers h ho
  exact hf

theorem pendingRow_content {op : NewOperation} {json : PyValue} {hash : String} {now : Instant}
    (h : canonicalRequest host op.request = .ok (json, hash)) :
    (pendingRow op json hash now).content = op.content := by
  simp [OperationRow.content, NewOperation.content, pendingRow, canonicalRequest_canonical h]

theorem rowChange_content {i : String} {before : Option OperationRow} {row : OperationRow}
    (h : RowChange host s i c r before (some row)) :
    (∃ old, before = some old ∧ row.content = old.content) ∨
    (before = none ∧ ∃ op, offered (c, .ok r) = some op ∧ op.operationId = i ∧
      row.content = op.content) := by
  cases h with
  | same => exact .inl ⟨row, rfl, rfl⟩
  | born offer id valid canonical fresh =>
    exact .inr ⟨rfl, _, offer, id, pendingRow_content canonical⟩
  | claimed => exact .inl ⟨_, rfl, rfl⟩
  | renewed => exact .inl ⟨_, rfl, rfl⟩
  | settled => exact .inl ⟨_, rfl, rfl⟩
  | unblocked => exact .inl ⟨_, rfl, rfl⟩
  | released => exact .inl ⟨_, rfl, rfl⟩

inductive Archives (s : Store) (i : String) (h : HistoryRow) : Call → Prop where
  | result {op : ClaimedOperation} {result : AttemptResult} {now : Instant} {row : OperationRow}
      {outcome : Outcome} (id : op.operationId = i) (live : s.operations.find i = some row)
      (action : outcome = .obsolete ∨ result.action = .succeed)
      (kept : outcome ≠ .superseded)
      (archived : h = row.archived outcome now none result.status
        (redactError MAX_ERROR_LENGTH result.error)) : Archives s i h (.applyResult op result now)
  | replacement {op : ClaimedOperation} {replacement : NewOperation} {now : Instant}
      {row : OperationRow} (id : op.operationId = i) (live : s.operations.find i = some row)
      (fresh : s.known replacement.operationId = none)
      (archived : h = row.archived .superseded now (some replacement.operationId) row.lastStatus
        row.lastError) : Archives s i h (.supersede op replacement now)

theorem effect_archives (h : Effect host s c r s') :
    s'.history = s.history ∨ ∃ row, Archives s row.operationId row c ∧
      s.history.insert row = some s'.history := by
  cases h with
  | @archive op now row outcome history result action held token insert =>
    have hid : row.operationId = op.operationId := KeyedTable.find_key held
    have hlive : s.operations.find row.operationId = some row := by rw [hid, held]
    refine .inr ⟨_, .result hid.symm hlive ?_ ?_ rfl, insert⟩
    · exact action.elim (fun h => .inl h.1) (fun h => .inr h.1)
    · rcases action with ⟨h, -⟩ | ⟨-, h⟩
      · rw [h]
        decide
      · rw [h]
        split <;> decide
  | @supersede op now row json hash operations history replacement valid canonical held token fresh
      insert archive =>
    have hid : row.operationId = op.operationId := KeyedTable.find_key held
    have hlive : s.operations.find row.operationId = some row := by rw [hid, held]
    exact .inr ⟨_, .replacement hid.symm hlive fresh rfl, archive⟩
  | _ => exact .inl rfl

theorem claimsOf_content {claim : ClaimedOperation} (h : Effect host s c r s')
    (hc : claim ∈ claimsOf (.ok r)) : offered (c, .ok r) = none ∧
      ∃ row, s.operations.find claim.operationId = some row ∧ claim.content = row.content := by
  cases h with
  | claim granted =>
    obtain ⟨row, k, hrow, -, hcopy, -⟩ := granted.of_claim hc
    obtain ⟨hrequest, hclaim⟩ := claimedFromRow_ok hcopy
    refine ⟨rfl, row, hrow, ?_⟩
    rw [hclaim]
    simp [ClaimedOperation.content, OperationRow.content, hrequest]
  | _ => cases hc

end Calls

structure Booked (sys : System) : Prop where
  disjoint : sys.store.Disjoint
  row : ∀ i row, sys.store.operations.find i = some row → sys.book i = some row.content
  archived : ∀ i h, sys.store.history.find i = some h →
    ∃ c, sys.book i = some c ∧ c.idempotencyKey = h.idempotencyKey
  known : ∀ i, (sys.book i).isSome → (sys.store.known i).isSome
  claims : ∀ op ∈ sys.claimed, sys.book op.operationId = some op.content

theorem start_booked : Booked System.start where
  disjoint := disjoint_empty
  row := fun i row h => by cases h
  archived := fun i h hf => by cases hf
  known := fun i h => by cases h
  claims := fun op h => by cases h

section Exec
variable {host : Host} {sys : System} {c : Call}

theorem exec_cases (host : Host) (sys : System) (c : Call) :
    sys.exec host c = sys ∨ ∃ r, Effect host sys.store c r (sys.exec host c).store ∧
      c.exec host sys.store = (.ok r, (sys.exec host c).store) := by
  cases h : c.exec host sys.store with
  | mk out s' =>
    cases out with
    | error e =>
      refine .inl ?_
      have hs := exec_error h
      have ho : offered (c, .error e) = none := by cases c <;> rfl
      simp only [System.exec, h, recordContent, ho, claimsOf, List.append_nil, hs]
    | ok r =>
      have hs : (sys.exec host c).store = s' := by simp only [System.exec, h]
      exact .inr ⟨r, by rw [hs]; exact exec_effect h, by rw [hs]⟩

theorem exec_book {r : Reply} {s' : Store} (h : c.exec host sys.store = (.ok r, s')) (i : String) :
    (sys.exec host c).book i = match offered (c, .ok r) with
      | some op => if i = op.operationId then some op.content else sys.book i
      | none => sys.book i := by
  simp only [System.exec, h, recordContent]
  cases offered (c, .ok r) with
  | none => rfl
  | some op =>
    by_cases hi : i = op.operationId
    · subst hi
      simp
    · simp [hi]

theorem exec_book_cases {r : Reply} {s' : Store} (h : c.exec host sys.store = (.ok r, s')) {i : String}
    {content : Content} (hi : (sys.exec host c).book i = some content) :
    sys.book i = some content ∨
      ∃ op, offered (c, .ok r) = some op ∧ op.operationId = i ∧ content = op.content := by
  rw [exec_book h] at hi
  cases ho : offered (c, .ok r) with
  | none =>
    rw [ho] at hi
    exact .inl hi
  | some op =>
    rw [ho] at hi
    dsimp only at hi
    by_cases he : i = op.operationId
    · rw [if_pos he] at hi
      exact .inr ⟨op, rfl, he.symm, (Option.some.inj hi).symm⟩
    · rw [if_neg he] at hi
      exact .inl hi

theorem exec_book_keep (hb : Booked sys) (c : Call) {i : String} {content : Content}
    (hi : sys.book i = some content) : (sys.exec host c).book i = some content := by
  rcases exec_cases host sys c with he | ⟨r, heff, hexec⟩
  · rw [he]
    exact hi
  · rw [exec_book hexec]
    split
    · rename_i op ho
      split
      · rename_i he
        have hfresh := offered_fresh heff ho
        have hknown := hb.known i (by simp [hi])
        rw [he, hfresh] at hknown
        cases hknown
      · exact hi
    · exact hi

theorem exec_booked (hb : Booked sys) (c : Call) : Booked (sys.exec host c) := by
  rcases exec_cases host sys c with he | ⟨r, heff, hexec⟩
  · rw [he]
    exact hb
  have hkeep := fun i content => @exec_book_keep host sys hb c i content
  have hrow : ∀ i row, sys.store.operations.find i = some row →
      (sys.exec host c).book i = some row.content := fun i row h => hkeep i _ (hb.row i row h)
  refine ⟨effect_disjoint heff hb.disjoint, fun i row h => ?_, fun i h hf => ?_, fun i hi => ?_,
    fun op hop => ?_⟩
  · have hchange := effect_row heff i
    rw [h] at hchange
    rcases rowChange_content hchange with ⟨old, hold, hcontent⟩ | ⟨-, op, hoffer, hid, hcontent⟩
    · rw [hcontent]
      exact hrow i old hold
    · rw [exec_book hexec, hoffer, hcontent]
      simp [hid]
  · rcases effect_archives heff with hsame | ⟨row, harch, hinsert⟩
    · rw [hsame] at hf
      obtain ⟨content, hcontent, hkey⟩ := hb.archived i h hf
      exact ⟨content, hkeep i _ hcontent, hkey⟩
    · rw [KeyedTable.find_insert hinsert] at hf
      split at hf
      · rename_i hi
        cases hf
        subst hi
        cases harch with
        | result id live action kept archived => exact ⟨_, hrow _ _ live, by rw [archived]; rfl⟩
        | replacement id live fresh archived => exact ⟨_, hrow _ _ live, by rw [archived]; rfl⟩
      · obtain ⟨content, hcontent, hkey⟩ := hb.archived i h hf
        exact ⟨content, hkeep i _ hcontent, hkey⟩
  · rw [effect_known_eq heff]
    rw [exec_book hexec] at hi
    cases ho : offered (c, .ok r) with
    | none =>
      rw [ho] at hi
      exact hb.known i hi
    | some op =>
      rw [ho] at hi
      dsimp only at hi ⊢
      by_cases he : i = op.operationId
      · rw [if_pos he]
        rfl
      · rw [if_neg he] at hi ⊢
        exact hb.known i hi
  · have hop' : op ∈ sys.claimed ++ claimsOf (.ok r) := by
      have hclaimed : (sys.exec host c).claimed = sys.claimed ++ claimsOf (c.exec host sys.store).1 :=
        rfl
      rw [hclaimed, hexec] at hop
      exact hop
    rcases List.mem_append.mp hop' with hop' | hop'
    · exact hkeep _ _ (hb.claims op hop')
    · obtain ⟨-, row, hfind, hcontent⟩ := claimsOf_content heff hop'
      rw [hcontent]
      exact hrow _ row hfind

end Exec

theorem finish_system (host : Host) (sys : System) (x : Sent) (exchange : Exchange)
    (requestId : String) (now : Instant) :
    ∃ sys₁, sys.finish host x exchange requestId now
        = { sys₁ with results := sys₁.results ++ [(x.op, (x.finish host exchange requestId now
            sys.store).1)] } ∧
      (x.call host exchange requestId now = none ∧ sys₁ = sys ∨
        ∃ c, x.call host exchange requestId now = some c ∧ sys₁ = sys.exec host c) := by
  unfold System.finish
  cases h : x.call host exchange requestId now with
  | none => exact ⟨sys, rfl, .inl ⟨rfl, rfl⟩⟩
  | some c => exact ⟨sys.exec host c, rfl, .inr ⟨c, rfl, rfl⟩⟩

theorem finish_keeps {host : Host} {sys : System} {inv : System → Prop} {x : Sent}
    {exchange : Exchange} {requestId : String} {now : Instant}
    (hanswer : (x, exchange) ∈ sys.answers) (hinv : inv sys)
    (hcall : ∀ c, Called host sys c → inv (sys.exec host c))
    (hresult : ∀ (sys₁ : System) results, inv sys₁ → inv { sys₁ with results }) :
    inv (sys.finish host x exchange requestId now) := by
  obtain ⟨sys₁, he, ⟨-, rfl⟩ | ⟨c, hc, rfl⟩⟩ := finish_system host sys x exchange requestId now <;> rw [he]
  · exact hresult _ _ hinv
  · exact hresult _ _ (hcall c (.finish hanswer hc))

theorem move_booked {host : Host} {sys sys' : System} (hb : Booked sys) (h : Move host sys sys') :
    Booked sys' := by
  cases h with
  | call called => exact exec_booked hb _
  | finished answered =>
    exact finish_keeps answered hb (fun c _ => exec_booked hb c)
      fun _ _ h => ⟨h.disjoint, h.row, h.archived, h.known, h.claims⟩
  | _ => exact ⟨hb.disjoint, hb.row, hb.archived, hb.known, hb.claims⟩

/-! ### Stages -/

/-- Every stage of an attempt goes on from the stage before. -/
structure Staged (sys : System) : Prop where
  begun : ∀ y ∈ sys.begun, y.1 ∈ sys.claimed
  sent : ∀ x ∈ sys.sent, (x.op, x.attempt) ∈ sys.begun ∧
    x.attempt.wire x.op.idempotencyKey = .ok x.wire
  answers : ∀ y ∈ sys.answers, y.1 ∈ sys.sent
  results : ∀ y ∈ sys.results, y.1 ∈ sys.claimed

theorem start_staged : Staged System.start := by
  constructor <;> intro y h <;> cases h

theorem exec_staged {host : Host} {sys : System} (hs : Staged sys) (c : Call) :
    Staged (sys.exec host c) where
  begun y h := List.mem_append_left _ (hs.begun y h)
  sent := hs.sent
  answers := hs.answers
  results y h := List.mem_append_left _ (hs.results y h)

theorem move_staged {host : Host} {sys sys' : System} (hs : Staged sys) (h : Move host sys sys') :
    Staged sys' := by
  cases h with
  | idle => exact hs
  | call called => exact exec_staged hs _
  | @begun op attempt claimed prepared going =>
    refine ⟨fun y hy => ?_, fun x hx => ?_, hs.answers, hs.results⟩
    · rcases List.mem_append.mp hy with hy | hy
      · exact hs.begun y hy
      · rw [List.mem_singleton.mp hy]
        exact claimed
    · exact ⟨List.mem_append_left _ (hs.sent x hx).1, (hs.sent x hx).2⟩
  | @sent op attempt wire begun made =>
    refine ⟨hs.begun, fun x hx => ?_, fun y hy => List.mem_append_left _ (hs.answers y hy),
      hs.results⟩
    rcases List.mem_append.mp hx with hx | hx
    · exact hs.sent x hx
    · rw [List.mem_singleton.mp hx]
      exact ⟨begun, made⟩
  | @served x key choice exchange sent keyed conveyed =>
    refine ⟨hs.begun, hs.sent, fun y hy => ?_, hs.results⟩
    rcases List.mem_append.mp hy with hy | hy
    · exact hs.answers y hy
    · rw [List.mem_singleton.mp hy]
      exact sent
  | @answered x exchange sent effectless =>
    refine ⟨hs.begun, hs.sent, fun y hy => ?_, hs.results⟩
    rcases List.mem_append.mp hy with hy | hy
    · exact hs.answers y hy
    · rw [List.mem_singleton.mp hy]
      exact sent
  | @concluded op result claimed unsuccessful =>
    refine ⟨hs.begun, hs.sent, hs.answers, fun y hy => ?_⟩
    rcases List.mem_append.mp hy with hy | hy
    · exact hs.results y hy
    · rw [List.mem_singleton.mp hy]
      rcases claimed with claimed | ⟨attempt, begun⟩
      · exact claimed
      · exact hs.begun _ begun
  | @finished x exchange requestId now answered =>
    obtain ⟨sys₁, he, hcall⟩ := finish_system host sys x exchange requestId now
    have hop : x.op ∈ sys.claimed := hs.begun _ (hs.sent x (hs.answers _ answered)).1
    have hs₁ : Staged sys₁ ∧ x.op ∈ sys₁.claimed := by
      rcases hcall with ⟨-, rfl⟩ | ⟨c, -, rfl⟩
      · exact ⟨hs, hop⟩
      · exact ⟨exec_staged hs c, List.mem_append_left _ hop⟩
    rw [he]
    refine ⟨hs₁.1.begun, hs₁.1.sent, hs₁.1.answers, fun y hy => ?_⟩
    rcases List.mem_append.mp hy with hy | hy
    · exact hs₁.1.results y hy
    · rw [List.mem_singleton.mp hy]
      exact hs₁.2

end SibylMemory
