import SibylMemory.Outbox.Transactions
import SibylMemory.Library.Fallible
import Mathlib.Data.List.Forall2

/-!
# What a call can do

`Call` lists the writing methods of `DurableOutbox` with their arguments, and
`Call.exec` runs one. `Effect` says, by lookups, everything a call that returns
can do to the store; a call that raises does nothing. Every invariant is derived
from these two facts.
-/

namespace SibylMemory.Outbox
export Fallible (bind_ok guard_ok throw_error bind_error)

/-! ### Transactions that raise and that return -/

section Transact
variable {α : Type} {tx : Store → Except OutboxException (α × Store)} {s s' : Store}

theorem transact_ok {a : α} : transact tx s = (.ok a, s') ↔ tx s = .ok (a, s') := by
  unfold transact
  split <;> rename_i h <;> simp [h]

theorem transact_error {e : OutboxException} (h : transact tx s = (.error e, s')) :
    s' = s ∧ tx s = .error e := by
  unfold transact at h
  split at h
  · cases h
  · rename_i hr
    cases h
    exact ⟨rfl, hr⟩

end Transact

theorem insertRow_ok {ρ : Type} {key : ρ → String} {constraint : String} {t t' : KeyedTable key}
    {r : ρ} : insertRow constraint t r = .ok t' ↔ t.insert r = some t' := by
  unfold insertRow
  split <;> rename_i h <;> simp [h]

theorem known_eq_none_iff (s : Store) (i : String) :
    s.known i = none ↔ s.operations.find i = none ∧ s.history.find i = none := by
  unfold Store.known
  split <;> rename_i h <;> simp [h]

/-! ### Calls -/

/-- The writing methods with their arguments; `config` is that of the calling process. -/
inductive Call where
  | enqueue (op : NewOperation) (now : Instant)
  | reserveSequence (sessionId parent : String) (now : Instant)
  | enqueueTurn (sessionId : String) (factory : Nat → Except OutboxException NewTurnOperation)
      (parent : String) (now : Instant)
  | indexTurn (sessionId : String) (localSequence : Int) (operationId sourceId turnHash : String)
      (now : Instant)
  | markSessionReconcile (sessionId parent : String) (required : Bool) (now : Instant)
  | recordTurnRevision (operationId : String) (revision : Int)
  | claimPage (config : OutboxConfig) (page : ClaimPage)
  | renewClaim (config : OutboxConfig) (op : ClaimedOperation) (leaseSeconds : Option Int)
      (now stamp : Instant)
  | applyResult (op : ClaimedOperation) (result : AttemptResult) (now : Instant)
  | supersede (op : ClaimedOperation) (replacement : NewOperation) (now : Instant)
  | unblockAuth (now : Instant)
  | releaseUnattempted (ops : List ClaimedOperation) (now : Instant)

/-- What a method returns. -/
inductive Reply where
  | accepted (created : Bool)
  | sequence (n : Nat)
  | turn (record : IndexedTurnRecord)
  | indexed (created : Bool)
  | claims (claims : List ClaimedOperation)
  | lease (expires : Instant)
  | count (changed : Nat)
  | done

def replyWith {α : Type} (f : α → Reply) (out : Except OutboxException α × Store) :
    Except OutboxException Reply × Store := (out.1.map f, out.2)

def Call.exec (host : Host) (s : Store) : Call → Except OutboxException Reply × Store
  | .enqueue op now => replyWith .accepted (Outbox.enqueue host op now s)
  | .reserveSequence sid parent now => replyWith .sequence (Outbox.reserveSequence sid parent now s)
  | .enqueueTurn sid factory parent now =>
    replyWith .turn (Outbox.enqueueTurn host sid factory parent now s)
  | .indexTurn sid n oid src digest now =>
    replyWith .indexed (Outbox.indexTurn sid n oid src digest now s)
  | .markSessionReconcile sid parent required now =>
    replyWith (fun _ => .done) (Outbox.markSessionReconcile sid parent required now s)
  | .recordTurnRevision oid revision =>
    replyWith (fun _ => .done) (Outbox.recordTurnRevision oid revision s)
  | .claimPage config page => replyWith .claims (Outbox.claimPage config page s)
  | .renewClaim config op lease now stamp =>
    replyWith .lease (Outbox.renewClaim config op lease now stamp s)
  | .applyResult op result now => replyWith (fun _ => .done) (Outbox.applyResult op result now s)
  | .supersede op replacement now =>
    replyWith (fun _ => .done) (Outbox.supersede host op replacement now s)
  | .unblockAuth now => replyWith .count (Outbox.unblockAuth now s)
  | .releaseUnattempted ops now => replyWith (fun _ => .done) (Outbox.releaseUnattempted ops now s)

theorem replyWith_ok {α : Type} {f : α → Reply} {out : Except OutboxException α × Store}
    {r : Reply} {s' : Store} (h : replyWith f out = (.ok r, s')) :
    ∃ a, out = (.ok a, s') ∧ f a = r := by
  obtain ⟨res, st⟩ := out
  cases res <;> simp_all [replyWith, Except.map]

theorem replyWith_error {α : Type} {f : α → Reply} {out : Except OutboxException α × Store}
    {e : OutboxException} {s' : Store} (h : replyWith f out = (.error e, s')) :
    out = (.error e, s') := by
  obtain ⟨res, st⟩ := out
  cases res <;> simp_all [replyWith, Except.map]

/-! ### Sessions by lookup -/

/-- A row as `INSERT INTO session_state` would make it. -/
def SessionRow.fresh (sessionId : String) (now : Instant) : SessionRow :=
  { sessionId, parentSessionId := "", nextSequence := 1, reconcileRequired := true, updatedAt := now }

/-- The row of a session, or the one an upsert would start from. -/
def Store.session (s : Store) (sessionId : String) (now : Instant) : SessionRow :=
  (s.sessions.find sessionId).getD (SessionRow.fresh sessionId now)

/-- The sequence number the next turn of the session gets. -/
def Store.nextSequence (s : Store) (sessionId : String) : Nat :=
  match s.sessions.find sessionId with
  | some row => row.nextSequence
  | none => 1

theorem session_nextSequence (s : Store) (sid : String) (now : Instant) :
    (s.session sid now).nextSequence = s.nextSequence sid := by
  unfold Store.session Store.nextSequence
  cases s.sessions.find sid <;> rfl

theorem adopt_fresh (sid parent : String) (now : Instant) :
    (SessionRow.fresh sid now).adopt parent now
      = { sessionId := sid, parentSessionId := parent, nextSequence := 1,
          reconcileRequired := true, updatedAt := now } := by
  unfold SessionRow.adopt SessionRow.fresh
  split <;> simp_all

theorem find_updateSession {sessions : KeyedTable SessionRow.sessionId} {sid : String}
    {row : SessionRow} (hrow : sessions.find sid = some row) (f : SessionRow → SessionRow)
    (hf : ∀ r, (f r).sessionId = r.sessionId) (k : String) :
    (sessions.update (isSession sid) f hf).find k = if k = sid then some (f row)
      else sessions.find k := by
  rw [KeyedTable.find_update]
  by_cases hk : k = sid
  · subst hk
    simp [hrow, isSession, KeyedTable.find_key hrow]
  · cases hfind : sessions.find k with
    | none => simp [hk]
    | some r => simp [hk, isSession, KeyedTable.find_key hfind]

theorem upsertSession_ok {s : Store} {sid parent : String} {now : Instant}
    {sessions : KeyedTable SessionRow.sessionId} {n : Nat}
    (h : upsertSession s.sessions sid parent now = .ok (sessions, n)) :
    n = s.nextSequence sid ∧ ∀ k, sessions.find k =
      if k = sid then some ((s.session sid now).adopt parent now) else s.sessions.find k := by
  unfold upsertSession at h
  split at h
  · rename_i row hrow
    cases h
    refine ⟨by simp [Store.nextSequence, hrow], fun k => ?_⟩
    rw [find_updateSession hrow, Store.session, hrow]
    rfl
  · rename_i hrow
    simp only [bind_ok, insertRow_ok] at h
    obtain ⟨t, ht, he⟩ := h
    cases he
    refine ⟨by simp [Store.nextSequence, hrow], fun k => ?_⟩
    rw [KeyedTable.find_insert ht, Store.session, hrow, Option.getD_none, adopt_fresh]

theorem upsertSession_total (sessions : KeyedTable SessionRow.sessionId) (sid parent : String)
    (now : Instant) : ∃ out, upsertSession sessions sid parent now = .ok out := by
  unfold upsertSession
  split
  · exact ⟨_, rfl⟩
  · rename_i hn
    obtain ⟨t, ht, -⟩ := sessions.insert_isSome
      { sessionId := sid, parentSessionId := parent, nextSequence := 1, reconcileRequired := true,
        updatedAt := now } hn
    exact ⟨_, by rw [insertRow_ok.mpr ht]; rfl⟩

theorem find_setNextSequence (sessions : KeyedTable SessionRow.sessionId) (sid : String) (n : Nat)
    (now : Instant) (k : String) :
    (setNextSequence sessions sid n now).find k =
      if k = sid then (sessions.find sid).map fun r => r.advance n now else sessions.find k := by
  rw [setNextSequence, KeyedTable.find_update]
  by_cases hk : k = sid
  · subst hk
    cases hf : sessions.find k with
    | none => simp
    | some r => simp [isSession, KeyedTable.find_key hf]
  · cases hf : sessions.find k with
    | none => simp [hk]
    | some r => simp [hk, isSession, KeyedTable.find_key hf]

theorem markSession_ok {s : Store} {sid parent : String} {required : Bool} {now : Instant}
    {sessions : KeyedTable SessionRow.sessionId}
    (h : markSession s.sessions sid parent required now = .ok sessions) (k : String) :
    sessions.find k =
      if k = sid then some ((s.session sid now).mark parent required now)
      else s.sessions.find k := by
  unfold markSession at h
  split at h
  · rename_i row hrow
    cases h
    rw [find_updateSession hrow, Store.session, hrow]
    rfl
  · rename_i hrow
    rw [insertRow_ok] at h
    rw [KeyedTable.find_insert h, Store.session, hrow, Option.getD_none, SessionRow.mark, adopt_fresh]

theorem raiseSequence_ok {s : Store} {sid : String} {n : Nat} {now : Instant}
    {sessions : KeyedTable SessionRow.sessionId} (hn : 1 ≤ n)
    (h : raiseSequence s.sessions sid n now = .ok sessions) (k : String) :
    sessions.find k =
      if k = sid then some ((s.session sid now).advance (max (s.nextSequence sid) n) now)
      else s.sessions.find k := by
  unfold raiseSequence at h
  split at h
  · rename_i row hrow
    cases h
    rw [find_updateSession hrow, Store.session, Store.nextSequence, hrow]
    rfl
  · rename_i hrow
    rw [insertRow_ok] at h
    rw [KeyedTable.find_insert h]
    simp [Store.session, Store.nextSequence, hrow, SessionRow.advance, SessionRow.fresh, hn]

/-! ### Rows held by a claim -/

theorem heldBy_iff (op : ClaimedOperation) (r : OperationRow) :
    r.heldBy op = true ↔ r.operationId = op.operationId ∧ r.claimToken = some op.claimToken := by
  simp [OperationRow.heldBy]

theorem heldRow_eq_some_iff (s : Store) (op : ClaimedOperation) (row : OperationRow) :
    s.heldRow op = some row ↔
      s.operations.find op.operationId = some row ∧ row.claimToken = some op.claimToken := by
  rw [KeyedTable.find_eq_some_iff]
  constructor
  · intro h
    have hk := (heldBy_iff op row).mp (by simpa using List.find?_some h)
    exact ⟨⟨List.mem_of_find?_eq_some h, hk.1⟩, hk.2⟩
  · rintro ⟨⟨hmem, hid⟩, htok⟩
    cases hf : s.heldRow op with
    | none =>
      have := List.find?_eq_none.mp hf row hmem
      exact absurd ((heldBy_iff op row).mpr ⟨hid, htok⟩) this
    | some row' =>
      have hk := (heldBy_iff op row').mp (by simpa using List.find?_some hf)
      rw [s.operations.key_inj (List.mem_of_find?_eq_some hf) hmem (hk.1.trans hid.symm)]

theorem holds_iff (s : Store) (op : ClaimedOperation) :
    s.holds op = true ↔ ∃ row, s.operations.find op.operationId = some row ∧
      row.claimToken = some op.claimToken := by
  simp only [← heldRow_eq_some_iff, Store.holds, Store.heldRow, List.any_eq_true,
    ← Option.isSome_iff_exists, List.find?_isSome]

theorem find_update_held {s : Store} {op : ClaimedOperation} {row : OperationRow}
    (h : s.operations.find op.operationId = some row) (ht : row.claimToken = some op.claimToken)
    (f : OperationRow → OperationRow) (hf : ∀ r, (f r).operationId = r.operationId) (i : String) :
    (s.operations.update (OperationRow.heldBy op) f hf).find i =
      if i = op.operationId then some (f row) else s.operations.find i := by
  rw [KeyedTable.find_update]
  by_cases hi : i = op.operationId
  · subst hi
    have hb := (heldBy_iff op row).mpr ⟨KeyedTable.find_key h, ht⟩
    simp [h, hb]
  · cases hfi : s.operations.find i with
    | none => simp [hi]
    | some r =>
      have hid := KeyedTable.find_key hfi
      simp [hi, OperationRow.heldBy, hid]

@[simp] theorem pendingRow_id (op : NewOperation) (json : PyValue) (hash : String) (now : Instant) :
    (pendingRow op json hash now).operationId = op.operationId := rfl

/-! ### The loop of `claim_page` -/

theorem mem_selected {s : Store} {cutoff now : Instant} {n : Nat} {row : OperationRow}
    (h : row ∈ s.selected cutoff now n) :
    s.operations.find row.operationId = some row ∧ s.selectable cutoff now row = true := by
  have hmem := List.mem_of_mem_take h
  rw [List.mem_insertionSort, List.mem_filter] at hmem
  exact ⟨KeyedTable.find_of_mem hmem.1, hmem.2⟩

theorem selected_nodup (s : Store) (cutoff now : Instant) (n : Nat) :
    ((s.selected cutoff now n).map OperationRow.operationId).Nodup := by
  have hf : ((s.operations.rows.filter (s.selectable cutoff now)).map
      OperationRow.operationId).Nodup := (s.operations.deleteWhere fun r => !s.selectable cutoff now r).nodup.sublist
        (by simp [KeyedTable.deleteWhere])
  have hp := (List.perm_insertionSort claimOrder
    (s.operations.rows.filter (s.selectable cutoff now))).map OperationRow.operationId
  exact (hp.nodup_iff.mpr hf).sublist ((List.take_sublist _ _).map _)

theorem selectable_unleased {s : Store} {cutoff now : Instant} {row : OperationRow}
    (h : s.selectable cutoff now row = true) : row.unleased now = true := by
  simp only [Store.selectable, Bool.and_eq_true] at h
  exact h.1.2

/-- Each row of the page is claimed, in order, under its own token; other rows stay. -/
theorem claimRows_ok {page : ClaimPage} {expires : Instant} {index : Nat} {rows : List OperationRow}
    {operations operations' : KeyedTable OperationRow.operationId} {claims : List ClaimedOperation}
    (hrows : ∀ row ∈ rows,
      operations.find row.operationId = some row ∧ row.unleased page.now = true)
    (hnd : (rows.map OperationRow.operationId).Nodup)
    (h : claimRows page expires index rows operations = .ok (claims, operations')) :
    List.Forall₂ (fun p claim =>
        claimedFromRow p.1 (page.uuids p.2) page.workerId expires page.stamp = .ok claim)
      (rows.zipIdx index) claims ∧
    (∀ p ∈ rows.zipIdx index, operations'.find p.1.operationId
      = some (p.1.claim (page.uuids p.2) page.workerId expires page.now)) ∧
    (∀ i, i ∉ rows.map OperationRow.operationId → operations'.find i = operations.find i) := by
  induction rows generalizing index operations claims with
  | nil =>
    cases h
    simp
  | cons row rows ih =>
    obtain ⟨hfind, hun⟩ := hrows row List.mem_cons_self
    rw [List.map_cons, List.nodup_cons] at hnd
    have hne : ∀ r ∈ rows, r.operationId ≠ row.operationId := by
      intro r hr he
      exact hnd.1 (List.mem_map.mpr ⟨r, hr, he⟩)
    have hchanged : operations.rows.any (fun r =>
        decide (r.operationId = row.operationId) && r.unleased page.now) = true :=
      List.any_eq_true.mpr ⟨row, KeyedTable.find_mem hfind, by simp [hun]⟩
    -- the store after the UPDATE for this row
    have hupd : ∀ i, (operations.update (fun r => decide (r.operationId = row.operationId)
        && r.unleased page.now) (fun r => r.claim (page.uuids index) page.workerId expires page.now)
        (fun r => r.claim_id (page.uuids index) page.workerId expires page.now)).find i =
        if i = row.operationId then
          some (row.claim (page.uuids index) page.workerId expires page.now)
        else operations.find i := by
      intro i
      rw [KeyedTable.find_update]
      by_cases hi : i = row.operationId
      · simp [hi, hfind, hun]
      · cases hf : operations.find i with
        | none => simp [hi]
        | some r => simp [hi, KeyedTable.find_key hf]
    rw [claimRows] at h
    simp only [hchanged, if_true, bind_ok] at h
    obtain ⟨claim, hclaim, ⟨claims', operations''⟩, hrest, he⟩ := h
    cases he
    obtain ⟨hall, htaken, hothers⟩ := ih
      (fun r hr => by
        rw [hupd, if_neg (hne r hr)]
        exact hrows r (List.mem_cons_of_mem _ hr))
      hnd.2 hrest
    refine ⟨?_, ?_, ?_⟩
    · rw [List.zipIdx_cons]
      exact .cons hclaim hall
    · intro p hp
      rw [List.zipIdx_cons, List.mem_cons] at hp
      rcases hp with rfl | hp
      · rw [hothers _ hnd.1, hupd, if_pos rfl]
      · exact htaken p hp
    · intro i hi
      rw [List.map_cons, List.mem_cons, not_or] at hi
      rw [hothers i hi.2, hupd, if_neg hi.1]

/-! ### The loop of `_release_unattempted` -/

/-- The claims named in a release. -/
def OperationRow.heldByAny (ops : List ClaimedOperation) (r : OperationRow) : Bool :=
  ops.any fun op => r.heldBy op

theorem released_heldByAny (ops : List ClaimedOperation) (r : OperationRow) (now : Instant) :
    (r.released now).heldByAny ops = false := by
  simp [OperationRow.heldByAny, OperationRow.heldBy, OperationRow.released]

theorem releaseRows_ok {now : Instant} {ops : List ClaimedOperation}
    {operations operations' : KeyedTable OperationRow.operationId}
    (h : releaseRows now ops operations = .ok operations') (i : String) :
    operations'.find i =
      (operations.find i).map fun r => if r.heldByAny ops then r.released now else r := by
  induction ops generalizing operations with
  | nil =>
    cases h
    simp [OperationRow.heldByAny]
  | cons op ops ih =>
    rw [releaseRows] at h
    split at h
    · cases h
    · rw [ih h, KeyedTable.find_update, Option.map_map]
      congr 1
      funext r
      by_cases hb : r.heldBy op = true
      · have hany : r.heldByAny (op :: ops) = true := by simp [OperationRow.heldByAny, hb]
        simp [hb, hany, released_heldByAny]
      · have hany : r.heldByAny (op :: ops) = r.heldByAny ops := by
          simp [OperationRow.heldByAny, hb]
        simp [hb, hany]

theorem releaseRows_total (now : Instant) {ops : List ClaimedOperation}
    {operations : KeyedTable OperationRow.operationId}
    (h : ∀ r ∈ operations.rows, r.heldByAny ops = true → r.attempts ≠ 0) :
    ∃ operations', releaseRows now ops operations = .ok operations' := by
  induction ops generalizing operations with
  | nil => exact ⟨operations, rfl⟩
  | cons op ops ih =>
    rw [releaseRows, if_neg]
    · refine ih fun r hr hheld => ?_
      rw [KeyedTable.mem_update] at hr
      obtain ⟨r₀, hr₀, rfl⟩ := hr
      split at hheld
      · -- a released row is held by nobody
        rw [released_heldByAny] at hheld
        cases hheld
      · rename_i hop
        rw [if_neg hop]
        refine h r₀ hr₀ ?_
        rw [OperationRow.heldByAny, List.any_cons, Bool.or_eq_true]
        exact .inr hheld
    · intro hany
      obtain ⟨r, hr, hbad⟩ := List.any_eq_true.mp hany
      rw [Bool.and_eq_true, decide_eq_true_eq] at hbad
      refine h r hr ?_ hbad.2
      rw [OperationRow.heldByAny, List.any_cons, hbad.1, Bool.true_or]

theorem releaseUnattempted_total {s : Store} (now : Instant) {ops : List ClaimedOperation}
    (h : ∀ r ∈ s.operations.rows, r.heldByAny ops = true → r.attempts ≠ 0) :
    ∃ s', releaseUnattempted ops now s = (.ok (), s') := by
  obtain ⟨operations, hout⟩ := releaseRows_total now h
  refine ⟨{ s with operations }, ?_⟩
  rw [releaseUnattempted, transact_ok]
  simp only [bind_ok]
  exact ⟨operations, hout, rfl⟩

/-! ### Effects -/

/-- What a page of claims does: `pairs` lists the rows selected, in order, with the
number of the token each one gets. -/
structure Granted (s : Store) (config : OutboxConfig) (page : ClaimPage)
    (claims : List ClaimedOperation) (operations : KeyedTable OperationRow.operationId) where
  pairs : List (OperationRow × Nat)
  expires : Instant
  lease : expires = page.now + page.leaseSeconds.getD config.leaseSeconds
  later : page.now < expires
  rows : pairs.map Prod.fst = s.selected (page.readyBefore.getD (farFuture page.now)) page.now
    page.pageSize.toNat
  nodup : (pairs.map fun p => p.1.operationId).Nodup
  tokens : (pairs.map Prod.snd).Nodup
  selected : ∀ p ∈ pairs, s.operations.find p.1.operationId = some p.1 ∧
    s.selectable (page.readyBefore.getD (farFuture page.now)) page.now p.1 = true
  claimed : List.Forall₂ (fun p claim =>
    claimedFromRow p.1 (page.uuids p.2) page.workerId expires page.stamp = .ok claim) pairs claims
  taken : ∀ p ∈ pairs, operations.find p.1.operationId
    = some (p.1.claim (page.uuids p.2) page.workerId expires page.now)
  others : ∀ i, i ∉ (pairs.map fun p => p.1.operationId) → operations.find i = s.operations.find i

theorem claimedFromRow_ok {row : OperationRow} {token worker : String} {expires stamp : Instant}
    {claim : ClaimedOperation} (h : claimedFromRow row token worker expires stamp = .ok claim) :
    row.request = .dict claim.request ∧ claim =
      { operationId := row.operationId, dependsOn := row.dependsOn, kind := row.kind,
        endpoint := row.endpoint, request := claim.request, idempotencyKey := row.idempotencyKey,
        state := row.state, createdAt := row.createdAt, updatedAt := stamp,
        attempts := row.attempts + 1, lastStatus := row.lastStatus, lastError := row.lastError,
        httpMethod := row.httpMethod, claimToken := token, claimedBy := worker,
        leaseExpiresAt := expires, recoveryKind := recoveryKindForEndpoint row.endpoint } := by
  unfold claimedFromRow at h
  split at h
  · rename_i request hr
    cases h
    exact ⟨hr, rfl⟩
  · cases h

namespace Granted
variable {s : Store} {config : OutboxConfig} {page : ClaimPage} {claims : List ClaimedOperation}
  {operations : KeyedTable OperationRow.operationId}

theorem ids (g : Granted s config page claims operations) :
    claims.map ClaimedOperation.operationId = g.pairs.map fun p => p.1.operationId := by
  have hall : List.Forall₂ (fun p claim => p.1.operationId = claim.operationId) g.pairs claims :=
    g.claimed.imp fun p claim h => by rw [(claimedFromRow_ok h).2]
  exact (List.forall₂_eq_eq_eq ▸ List.forall₂_map_left_iff.mpr
    (List.forall₂_map_right_iff.mpr hall)).symm

theorem ids_nodup (g : Granted s config page claims operations) :
    (claims.map ClaimedOperation.operationId).Nodup := g.ids ▸ g.nodup

theorem not_claimed (g : Granted s config page claims operations) {i : String}
    (h : i ∉ claims.map ClaimedOperation.operationId) :
    operations.find i = s.operations.find i := g.others i (g.ids ▸ h)

theorem of_claim (g : Granted s config page claims operations) {c : ClaimedOperation}
    (hc : c ∈ claims) : ∃ row k, s.operations.find c.operationId = some row ∧
      row ∈ s.selected (page.readyBefore.getD (farFuture page.now)) page.now
        page.pageSize.toNat ∧
      claimedFromRow row (page.uuids k) page.workerId g.expires page.stamp = .ok c ∧
      operations.find c.operationId
        = some (row.claim (page.uuids k) page.workerId g.expires page.now) := by
  obtain ⟨p, hp, hcl⟩ : ∃ p ∈ g.pairs,
      claimedFromRow p.1 (page.uuids p.2) page.workerId g.expires page.stamp = .ok c := by
    obtain ⟨k, hk, rfl⟩ := List.getElem_of_mem hc
    have hlen := g.claimed.length_eq
    exact ⟨g.pairs[k], List.getElem_mem _, g.claimed.get (by omega) hk⟩
  have hid : c.operationId = p.1.operationId := by rw [(claimedFromRow_ok hcl).2]
  refine ⟨p.1, p.2, ?_, g.rows ▸ List.mem_map_of_mem hp, hcl, ?_⟩
  · rw [hid]
    exact (g.selected p hp).1
  · rw [hid]
    exact g.taken p hp

end Granted

/-- What a call that returns does. -/
inductive Effect (host : Host) (s : Store) : Call → Reply → Store → Prop where
  | known {op now json hash} (valid : validateOperation op = .ok ())
      (canonical : canonicalRequest host op.request = .ok (json, hash))
      (same : s.known op.operationId = some (op.mutation hash)) :
      Effect host s (.enqueue op now) (.accepted false) s
  | accept {op now json hash operations} (valid : validateOperation op = .ok ())
      (canonical : canonicalRequest host op.request = .ok (json, hash))
      (fresh : s.known op.operationId = none)
      (insert : s.operations.insert (pendingRow op json hash now) = some operations) :
      Effect host s (.enqueue op now) (.accepted true) { s with operations }
  | reserve {sid parent now sessions} (nonempty : sid ≠ "")
      (session : ∀ k, sessions.find k = if k = sid then
        some (((s.session sid now).adopt parent now).advance (s.nextSequence sid + 1) now)
        else s.sessions.find k) :
      Effect host s (.reserveSequence sid parent now) (.sequence (s.nextSequence sid))
        { s with sessions }
  | turn {sid factory parent now} {t : NewTurnOperation} {json hash operations sessions turns}
      (nonempty : sid ≠ "")
      (made : factory (s.nextSequence sid) = .ok t)
      (valid : validateOperation t.operation = .ok ())
      (canonical : canonicalRequest host t.operation.request = .ok (json, hash))
      (named : t.sourceId ≠ "" ∧ t.turnHash ≠ "")
      (fresh : s.known t.operation.operationId = none)
      (insert : s.operations.insert (pendingRow t.operation json hash now) = some operations)
      (index : s.turns.insertTurn
        { sessionId := sid, localSequence := s.nextSequence sid,
          operationId := t.operation.operationId, sourceId := t.sourceId, turnHash := t.turnHash,
          revision := none } = .ok turns)
      (session : ∀ k, sessions.find k = if k = sid then
        some (((s.session sid now).adopt parent now).advance (s.nextSequence sid + 1) now)
        else s.sessions.find k) :
      Effect host s (.enqueueTurn sid factory parent now)
        (.turn { sessionId := sid, localSequence := s.nextSequence sid,
                 operationId := t.operation.operationId, sourceId := t.sourceId,
                 turnHash := t.turnHash, revision := none, queued := true })
        { s with operations, sessions, turns }
  | index {sid n oid src digest now created sessions turns}
      (kept : ∀ t ∈ s.turns.rows, t ∈ turns.rows) :
      Effect host s (.indexTurn sid n oid src digest now) (.indexed created)
        { s with sessions, turns }
  | mark {sid parent required now sessions} (nonempty : sid ≠ "")
      (session : ∀ k, sessions.find k = if k = sid then
        some ((s.session sid now).mark parent required now) else s.sessions.find k) :
      Effect host s (.markSessionReconcile sid parent required now) .done { s with sessions }
  | record {oid revision} (positive : 1 ≤ revision) :
      Effect host s (.recordTurnRevision oid revision) .done
        { s with turns := s.turns.setRevision oid revision }
  | claim {config page claims operations} (granted : Granted s config page claims operations) :
      Effect host s (.claimPage config page) (.claims claims) { s with operations }
  | renew {config op lease now stamp row operations}
      (positive : 0 < lease.getD config.leaseSeconds)
      (held : s.operations.find op.operationId = some row)
      (token : row.claimToken = some op.claimToken)
      (ops : ∀ i, operations.find i = if i = op.operationId then
        some (row.renewed (now + lease.getD config.leaseSeconds) stamp) else s.operations.find i) :
      Effect host s (.renewClaim config op lease now stamp)
        (.lease (now + lease.getD config.leaseSeconds)) { s with operations }
  | skip {op result now} (action : result.action = .superseded) :
      Effect host s (.applyResult op result now) .done s
  | archive {op now row outcome history} {result : AttemptResult}
      (action : outcome = .obsolete ∧ result.action = .obsolete ∨
        result.action = .succeed ∧ outcome = if result.replayed then .replayed else .succeeded)
      (held : s.operations.find op.operationId = some row)
      (token : row.claimToken = some op.claimToken)
      (insert : s.history.insert (row.archived outcome now none result.status
        (redactError MAX_ERROR_LENGTH result.error)) = some history) :
      Effect host s (.applyResult op result now) .done
        { s with history, operations := s.operations.delete op.operationId }
  | settle {op now row state operations} {result : AttemptResult}
      (action : (result.action, state) ∈ [(ResultAction.retry, OperationState.pending),
        (.blockAuth, .blockedAuth), (.deadLetter, .deadLetter), (.recover, .pendingRecovery),
        (.reconcileRevision, .reconcileRevision)])
      (held : s.operations.find op.operationId = some row)
      (token : row.claimToken = some op.claimToken)
      (ops : ∀ i, operations.find i = if i = op.operationId then
        some (row.settled state result now) else s.operations.find i) :
      Effect host s (.applyResult op result now) .done { s with operations }
  | supersede {op now row json hash operations history} {replacement : NewOperation}
      (valid : validateOperation replacement = .ok ())
      (canonical : canonicalRequest host replacement.request = .ok (json, hash))
      (held : s.operations.find op.operationId = some row)
      (token : row.claimToken = some op.claimToken)
      (fresh : s.known replacement.operationId = none)
      (insert : s.operations.insert (pendingRow replacement json hash now) = some operations)
      (archive : s.history.insert (row.archived .superseded now (some replacement.operationId)
        row.lastStatus row.lastError) = some history) :
      Effect host s (.supersede op replacement now) .done
        { s with history, operations := operations.delete op.operationId }
  | unblock {now n operations}
      (ops : ∀ i, operations.find i =
        (s.operations.find i).map fun r => if r.isBlocked then r.unblocked now else r) :
      Effect host s (.unblockAuth now) (.count n) { s with operations }
  | release {claims now operations}
      (ops : ∀ i, operations.find i =
        (s.operations.find i).map fun r => if r.heldByAny claims then r.released now else r) :
      Effect host s (.releaseUnattempted claims now) .done { s with operations }

/-! ### One lemma a method -/

section Methods
variable {host : Host} {s s' : Store}

theorem enqueue_effect {op : NewOperation} {now : Instant} {b : Bool}
    (h : enqueue host op now s = (.ok b, s')) : Effect host s (.enqueue op now) (.accepted b) s' := by
  rw [enqueue, transact_ok] at h
  simp only [bind_ok] at h
  obtain ⟨⟨⟩, hv, ⟨json, hash⟩, hc, h⟩ := h
  split at h
  · rename_i existing hk
    simp only [bind_ok] at h
    obtain ⟨⟨⟩, hs, he⟩ := h
    cases he
    unfold assertSameOperation at hs
    split at hs
    · rename_i heq
      exact .known hv hc (heq ▸ hk)
    · cases hs
  · rename_i hk
    simp only [bind_ok, insertRow_ok] at h
    obtain ⟨operations, hi, he⟩ := h
    cases he
    exact .accept hv hc hk hi

theorem reserveSequence_effect {sid parent : String} {now : Instant} {n : Nat}
    (h : reserveSequence sid parent now s = (.ok n, s')) :
    Effect host s (.reserveSequence sid parent now) (.sequence n) s' := by
  rw [reserveSequence, transact_ok] at h
  simp only [guard_ok, bind_ok] at h
  obtain ⟨hne, ⟨sessions, m⟩, hu, he⟩ := h
  cases he
  obtain ⟨rfl, hfind⟩ := upsertSession_ok hu
  refine .reserve hne fun k => ?_
  rw [find_setNextSequence]
  by_cases hk : k = sid <;> simp [hk, hfind]

theorem enqueueTurn_effect {sid parent : String} {now : Instant}
    {factory : Nat → Except OutboxException NewTurnOperation} {r : IndexedTurnRecord}
    (h : enqueueTurn host sid factory parent now s = (.ok r, s')) :
    Effect host s (.enqueueTurn sid factory parent now) (.turn r) s' := by
  rw [enqueueTurn, transact_ok] at h
  simp only [guard_ok, bind_ok, insertRow_ok] at h
  obtain ⟨hne, ⟨sessions, m⟩, hu, t, ht, ⟨⟩, hv, hnamed, ⟨json, hash⟩, hc, hfresh, operations, hi,
    turns, hturns, he⟩ := h
  cases he
  obtain ⟨rfl, hfind⟩ := upsertSession_ok hu
  rw [not_or] at hnamed
  have hk : s.known t.operation.operationId = none := by simpa using hfresh
  refine .turn hne ht hv hc hnamed hk hi hturns fun k => ?_
  rw [find_setNextSequence]
  by_cases hk : k = sid <;> simp [hk, hfind]

theorem indexTurn_effect {sid oid src digest : String} {n : Int} {now : Instant} {b : Bool}
    (h : indexTurn sid n oid src digest now s = (.ok b, s')) :
    Effect host s (.indexTurn sid n oid src digest now) (.indexed b) s' := by
  rw [indexTurn, transact_ok] at h
  simp only [guard_ok, bind_ok] at h
  obtain ⟨-, sessions, -, h⟩ := h
  split at h
  · simp only [guard_ok] at h
    cases h.2
    exact .index fun _ ht => ht
  · simp only [bind_ok] at h
    obtain ⟨turns, hi, he⟩ := h
    cases he
    exact .index fun t ht => by simp [(TurnTable.insertTurn_ok hi).1, ht]

theorem markSessionReconcile_effect {sid parent : String} {required : Bool} {now : Instant}
    {u : Unit} (h : markSessionReconcile sid parent required now s = (.ok u, s')) :
    Effect host s (.markSessionReconcile sid parent required now) .done s' := by
  rw [markSessionReconcile, transact_ok] at h
  simp only [guard_ok, bind_ok] at h
  obtain ⟨hne, sessions, hm, he⟩ := h
  cases he
  exact .mark hne (markSession_ok hm)

theorem recordTurnRevision_effect {oid : String} {revision : Int} {u : Unit}
    (h : recordTurnRevision oid revision s = (.ok u, s')) :
    Effect host s (.recordTurnRevision oid revision) .done s' := by
  rw [recordTurnRevision, transact_ok] at h
  simp only [guard_ok] at h
  cases h.2
  exact .record (by omega)

theorem claimPage_effect {config : OutboxConfig} {page : ClaimPage} {claims : List ClaimedOperation}
    (h : claimPage config page s = (.ok claims, s')) :
    Effect host s (.claimPage config page) (.claims claims) s' := by
  rw [claimPage, transact_ok] at h
  simp only [guard_ok, bind_ok] at h
  obtain ⟨-, -, hlease, ⟨claims', operations⟩, hrows, he⟩ := h
  cases he
  have hsel : ∀ row ∈ s.selected (page.readyBefore.getD (farFuture page.now)) page.now
      page.pageSize.toNat, s.operations.find row.operationId = some row ∧
      s.selectable (page.readyBefore.getD (farFuture page.now)) page.now row = true :=
    fun _ hr => mem_selected hr
  obtain ⟨hall, htaken, hothers⟩ := claimRows_ok
    (fun row hr => ⟨(hsel row hr).1, selectable_unleased (hsel row hr).2⟩)
    (selected_nodup _ _ _ _) hrows
  have hids : ∀ (l : List OperationRow) (k : Nat),
      ((l.zipIdx k).map fun p => p.1.operationId) = l.map OperationRow.operationId := by
    intro l k
    conv_rhs => rw [← List.zipIdx_map_fst k l, List.map_map]
    rfl
  refine .claim {
    pairs := _, expires := page.now + page.leaseSeconds.getD config.leaseSeconds, lease := rfl
    later := Int.lt_add_of_pos_right _ (by omega)
    rows := List.zipIdx_map_fst _ _
    nodup := by rw [hids]; exact selected_nodup _ _ _ _
    tokens := by rw [List.zipIdx_map_snd]; exact List.nodup_range'
    selected := fun p hp => hsel p.1 (List.fst_mem_of_mem_zipIdx hp)
    claimed := hall
    taken := htaken
    others := fun i hi => hothers i (by rwa [hids] at hi) }

theorem renewClaim_effect {config : OutboxConfig} {op : ClaimedOperation} {lease : Option Int}
    {now stamp expires : Instant} (h : renewClaim config op lease now stamp s = (.ok expires, s')) :
    Effect host s (.renewClaim config op lease now stamp) (.lease expires) s' := by
  rw [renewClaim, transact_ok] at h
  simp only [guard_ok] at h
  obtain ⟨hlease, hheld, he⟩ := h
  cases he
  obtain ⟨row, hrow, htok⟩ := (holds_iff s op).mp (by simpa using hheld)
  exact .renew (by omega) hrow htok (find_update_held hrow htok _ _)

theorem archiveAndDelete_effect {op : ClaimedOperation} {outcome : Outcome} {result : AttemptResult}
    {now : Instant} {u : Unit}
    (action : outcome = .obsolete ∧ result.action = .obsolete ∨
        result.action = .succeed ∧ outcome = if result.replayed then .replayed else .succeeded)
    (h : archiveAndDelete op outcome result now s = (.ok u, s')) :
    Effect host s (.applyResult op result now) .done s' := by
  rw [archiveAndDelete, transact_ok] at h
  split at h
  · cases h
  · rename_i row hrow
    simp only [bind_ok, insertRow_ok] at h
    obtain ⟨history, hi, he⟩ := h
    cases he
    obtain ⟨hfind, htok⟩ := (heldRow_eq_some_iff s op row).mp hrow
    exact .archive action hfind htok hi

theorem settle_effect {op : ClaimedOperation} {state : OperationState} {result : AttemptResult}
    {now : Instant} {u : Unit}
    (action : (result.action, state) ∈ [(ResultAction.retry, OperationState.pending),
        (.blockAuth, .blockedAuth), (.deadLetter, .deadLetter), (.recover, .pendingRecovery),
        (.reconcileRevision, .reconcileRevision)])
    (h : settle op state result now s = (.ok u, s')) :
    Effect host s (.applyResult op result now) .done s' := by
  rw [settle, transact_ok] at h
  simp only [guard_ok] at h
  obtain ⟨hheld, he⟩ := h
  cases he
  obtain ⟨row, hrow, htok⟩ := (holds_iff s op).mp (by simpa using hheld)
  exact .settle action hrow htok (find_update_held hrow htok _ _)

theorem applyResult_effect {op : ClaimedOperation} {result : AttemptResult} {now : Instant}
    {u : Unit} (h : applyResult op result now s = (.ok u, s')) :
    Effect host s (.applyResult op result now) .done s' := by
  unfold applyResult at h
  split at h <;> rename_i ha
  · cases h
    exact .skip ha
  · exact archiveAndDelete_effect (.inr ⟨ha, rfl⟩) h
  · exact archiveAndDelete_effect (.inl ⟨rfl, ha⟩) h
  all_goals exact settle_effect (by simp [ha]) h

theorem supersede_effect {op : ClaimedOperation} {replacement : NewOperation} {now : Instant}
    {u : Unit} (h : supersede host op replacement now s = (.ok u, s')) :
    Effect host s (.supersede op replacement now) .done s' := by
  rw [supersede, transact_ok] at h
  simp only [guard_ok, bind_ok] at h
  obtain ⟨⟨⟩, hv, -, ⟨json, hash⟩, hc, h⟩ := h
  split at h
  · cases h
  · rename_i row hrow
    simp only [guard_ok, bind_ok, insertRow_ok] at h
    obtain ⟨hfresh, operations, hi, history, ha, he⟩ := h
    cases he
    obtain ⟨hfind, htok⟩ := (heldRow_eq_some_iff s op row).mp hrow
    exact .supersede hv hc hfind htok (by simpa using hfresh) hi ha

theorem unblockAuth_effect {now : Instant} {n : Nat} (h : unblockAuth now s = (.ok n, s')) :
    Effect host s (.unblockAuth now) (.count n) s' := by
  rw [unblockAuth, transact_ok] at h
  cases h
  exact .unblock fun i => KeyedTable.find_update _ _ _ _ _

theorem releaseUnattempted_effect {ops : List ClaimedOperation} {now : Instant} {u : Unit}
    (h : releaseUnattempted ops now s = (.ok u, s')) :
    Effect host s (.releaseUnattempted ops now) .done s' := by
  rw [releaseUnattempted, transact_ok] at h
  simp only [bind_ok] at h
  obtain ⟨operations, hr, he⟩ := h
  cases he
  exact .release (releaseRows_ok hr)

end Methods

theorem exec_effect {host : Host} {c : Call} {s s' : Store} {r : Reply}
    (h : c.exec host s = (.ok r, s')) : Effect host s c r s' := by
  cases c <;> obtain ⟨a, ha, rfl⟩ := replyWith_ok h
  case enqueue => exact enqueue_effect ha
  case reserveSequence => exact reserveSequence_effect ha
  case enqueueTurn => exact enqueueTurn_effect ha
  case indexTurn => exact indexTurn_effect ha
  case markSessionReconcile => exact markSessionReconcile_effect ha
  case recordTurnRevision => exact recordTurnRevision_effect ha
  case claimPage => exact claimPage_effect ha
  case renewClaim => exact renewClaim_effect ha
  case applyResult => exact applyResult_effect ha
  case supersede => exact supersede_effect ha
  case unblockAuth => exact unblockAuth_effect ha
  case releaseUnattempted => exact releaseUnattempted_effect ha

theorem exec_error {host : Host} {c : Call} {s s' : Store} {e : OutboxException}
    (h : c.exec host s = (.error e, s')) : s' = s := by
  cases c <;> have hr := replyWith_error h
  case applyResult op result now =>
    unfold applyResult at hr
    split at hr
    · cases hr
    all_goals exact (transact_error hr).1
  all_goals exact (transact_error hr).1

/-! ### One row at a time -/

/-- The new operation that a call put into the outbox. -/
def offered : Call × Except OutboxException Reply → Option NewOperation
  | (.enqueue op _, .ok (.accepted true)) => some op
  | (.enqueueTurn _ factory _ _, .ok (.turn t)) =>
    match factory t.localSequence with
    | .ok turn => some turn.operation
    | .error _ => none
  | (.supersede _ op _, .ok .done) => some op
  | _ => none

/-- What a call that returns does to the row of operation `i`. -/
inductive RowChange (host : Host) (s : Store) (i : String) :
    Call → Reply → Option OperationRow → Option OperationRow → Prop where
  | same {c r row} : RowChange host s i c r row row
  | born {c r op json hash now} (offer : offered (c, .ok r) = some op) (id : op.operationId = i)
      (valid : validateOperation op = .ok ())
      (canonical : canonicalRequest host op.request = .ok (json, hash))
      (fresh : s.known i = none) :
      RowChange host s i c r none (some (pendingRow op json hash now))
  | claimed {config page claims claim row} (mem : claim ∈ claims) (id : claim.operationId = i)
      (selected : row ∈ s.selected (page.readyBefore.getD (farFuture page.now)) page.now
        page.pageSize.toNat)
      (copy : claimedFromRow row claim.claimToken page.workerId claim.leaseExpiresAt page.stamp
        = .ok claim) :
      RowChange host s i (.claimPage config page) (.claims claims) (some row)
        (some (row.claim claim.claimToken page.workerId claim.leaseExpiresAt page.now))
  | renewed {config op lease now stamp row expires} (id : op.operationId = i)
      (token : row.claimToken = some op.claimToken) :
      RowChange host s i (.renewClaim config op lease now stamp) (.lease expires) (some row)
        (some (row.renewed expires stamp))
  | settled {op now row state} {result : AttemptResult} (id : op.operationId = i)
      (action : (result.action, state) ∈ [(ResultAction.retry, OperationState.pending),
        (.blockAuth, .blockedAuth), (.deadLetter, .deadLetter), (.recover, .pendingRecovery),
        (.reconcileRevision, .reconcileRevision)])
      (token : row.claimToken = some op.claimToken) :
      RowChange host s i (.applyResult op result now) .done (some row)
        (some (row.settled state result now))
  | archived {op now row} {result : AttemptResult} (id : op.operationId = i)
      (action : result.action = .succeed ∨ result.action = .obsolete)
      (token : row.claimToken = some op.claimToken) :
      RowChange host s i (.applyResult op result now) .done (some row) none
  | superseded {op replacement now row} (id : op.operationId = i)
      (token : row.claimToken = some op.claimToken) :
      RowChange host s i (.supersede op replacement now) .done (some row) none
  | unblocked {now n row} (blocked : row.isBlocked = true) :
      RowChange host s i (.unblockAuth now) (.count n) (some row) (some (row.unblocked now))
  | released {claims now row} (held : row.heldByAny claims = true) :
      RowChange host s i (.releaseUnattempted claims now) .done (some row)
        (some (row.released now))

theorem effect_row {host : Host} {c : Call} {s s' : Store} {r : Reply} (h : Effect host s c r s')
    (i : String) : RowChange host s i c r (s.operations.find i) (s'.operations.find i) := by
  cases h with
  | known => exact .same
  | skip => exact .same
  | reserve => exact .same
  | index => exact .same
  | mark => exact .same
  | record => exact .same
  | accept valid canonical fresh insert =>
    rw [KeyedTable.find_insert insert]
    split
    · rename_i hi
      rw [hi, pendingRow_id, ((known_eq_none_iff s _).mp fresh).1]
      exact .born rfl rfl valid canonical fresh
    · exact .same
  | turn nonempty made valid canonical named fresh insert index session =>
    rw [KeyedTable.find_insert insert]
    split
    · rename_i hi
      rw [hi, pendingRow_id, ((known_eq_none_iff s _).mp fresh).1]
      exact .born (by simp [offered, made]) rfl valid canonical fresh
    · exact .same
  | @claim config page claims operations granted =>
    by_cases hi : i ∈ claims.map ClaimedOperation.operationId
    · obtain ⟨claim, hmem, rfl⟩ := List.mem_map.mp hi
      obtain ⟨row, k, hrow, hsel, hcopy, hafter⟩ := granted.of_claim hmem
      rw [hrow, hafter]
      have htok : claim.claimToken = page.uuids k := by rw [(claimedFromRow_ok hcopy).2]
      have hexp : claim.leaseExpiresAt = granted.expires := by rw [(claimedFromRow_ok hcopy).2]
      rw [← htok, ← hexp] at hcopy ⊢
      exact .claimed hmem rfl hsel hcopy
    · rw [granted.not_claimed hi]
      exact .same
  | renew positive held token ops =>
    rw [ops]
    split
    · rename_i hi
      rw [hi, held]
      exact .renewed rfl token
    · exact .same
  | archive action held token insert =>
    rw [KeyedTable.find_delete]
    split
    · rename_i hi
      rw [hi, held]
      exact .archived rfl (action.elim (fun h => .inr h.2) fun h => .inl h.1) token
    · exact .same
  | settle action held token ops =>
    rw [ops]
    split
    · rename_i hi
      rw [hi, held]
      exact .settled rfl action token
    · exact .same
  | supersede valid canonical held token fresh insert archive =>
    rw [KeyedTable.find_delete, KeyedTable.find_insert insert]
    split
    · rename_i hi
      rw [hi, held]
      exact .superseded rfl token
    · split
      · rename_i hi
        rw [hi, pendingRow_id, ((known_eq_none_iff s _).mp fresh).1]
        exact .born rfl rfl valid canonical fresh
      · exact .same
  | unblock ops =>
    rw [ops]
    cases hf : s.operations.find i with
    | none => exact .same
    | some row =>
      by_cases hb : row.isBlocked = true
      · simpa [hb] using .unblocked hb
      · simpa [hb] using .same
  | release ops =>
    rw [ops]
    cases hf : s.operations.find i with
    | none => exact .same
    | some row =>
      rw [Option.map_some]
      split
      · rename_i hb
        exact .released hb
      · exact .same

/-! ### Columns that an `UPDATE` leaves alone -/

section Intent
variable {s : Store} {operations : KeyedTable OperationRow.operationId} {β : Type}

theorem map_intent {f : OperationRow → OperationRow}
    (ops : ∀ i, operations.find i = (s.operations.find i).map f) (g : OperationRow → β)
    (hg : ∀ r, g (f r) = g r) (i : String) :
    (operations.find i).map g = (s.operations.find i).map g := by
  rw [ops, Option.map_map]
  congr 1
  funext r
  exact hg r

theorem held_intent {op : ClaimedOperation} {row row' : OperationRow}
    (held : s.operations.find op.operationId = some row)
    (ops : ∀ i, operations.find i = if i = op.operationId then some row' else s.operations.find i)
    (g : OperationRow → β) (hg : g row' = g row) (i : String) :
    (operations.find i).map g = (s.operations.find i).map g := by
  rw [ops]
  split
  · rename_i hi
    simp [hi, held, hg]
  · rfl

theorem granted_intent {config : OutboxConfig} {page : ClaimPage} {claims : List ClaimedOperation}
    (granted : Granted s config page claims operations) (g : OperationRow → β)
    (hg : ∀ (r : OperationRow) (token worker : String) (expires now : Instant),
      g (r.claim token worker expires now) = g r) (i : String) :
    (operations.find i).map g = (s.operations.find i).map g := by
  by_cases hi : i ∈ granted.pairs.map fun p => p.1.operationId
  · obtain ⟨p, hp, rfl⟩ := List.mem_map.mp hi
    simp [granted.taken p hp, (granted.selected p hp).1, hg]
  · rw [granted.others i hi]

end Intent

end SibylMemory.Outbox
