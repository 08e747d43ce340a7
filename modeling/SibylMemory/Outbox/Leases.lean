import SibylMemory.Outbox.Conservation
import SibylMemory.Library.Fencing

/-!
# Leases and fencing (`outbox.py:822-976`, `1219-1235`)

Workers share a clock and read it before they get the write lock, so the reading
a call carries may be older than the instant at which it commits. The claims of
the operations table form a board of leases, and every call is a step of it.
-/

namespace SibylMemory.Outbox

/-! ### What the workers were told -/

def grantedBy : Call × Except OutboxException Reply → List ClaimedOperation
  | (_, .ok (.claims claims)) => claims
  | _ => []

def granted (trace : List (Call × Except OutboxException Reply)) : List ClaimedOperation :=
  trace.flatMap grantedBy

/-- The claim is the one of operation `i` under token `t`. -/
def ClaimedOperation.named (i t : String) (c : ClaimedOperation) : Bool :=
  decide (c.operationId = i) && decide (c.claimToken = t)

theorem named_iff (i t : String) (c : ClaimedOperation) :
    c.named i t = true ↔ i = c.operationId ∧ t = c.claimToken := by
  simp only [ClaimedOperation.named, Bool.and_eq_true, decide_eq_true_eq, @eq_comm _ i,
    @eq_comm _ t]

/-- The deadline that the holder of token `t` was told for operation `i`: set by a claim and
by a renewal, gone once a result, a replacement or a release has been accepted from it. -/
def leaseAfter (i t : String) (before : Option Instant) :
    Call × Except OutboxException Reply → Option Instant
  | (.claimPage _ _, .ok (.claims claims)) =>
    match claims.find? (ClaimedOperation.named i t) with
    | some c => some c.leaseExpiresAt
    | none => before
  | (.renewClaim _ op _ _ _, .ok (.lease expires)) => if op.named i t then some expires else before
  | (.applyResult op result _, .ok .done) =>
    if op.named i t && decide (result.action ≠ .superseded) then none else before
  | (.supersede op _ _, .ok .done) => if op.named i t then none else before
  | (.releaseUnattempted ops _, .ok .done) =>
    if ops.any (ClaimedOperation.named i t) then none else before
  | _ => before

def lease (trace : List (Call × Except OutboxException Reply)) (i t : String) : Option Instant :=
  trace.foldl (leaseAfter i t) none

def issued (trace : List (Call × Except OutboxException Reply)) (i t : String) : Prop :=
  ∃ c ∈ granted trace, c.operationId = i ∧ c.claimToken = t

section Trace
variable (trace : List (Call × Except OutboxException Reply))
  (e : Call × Except OutboxException Reply) (i t : String)

theorem granted_snoc : granted (trace ++ [e]) = granted trace ++ grantedBy e := by simp [granted]

theorem lease_snoc : lease (trace ++ [e]) i t = leaseAfter i t (lease trace i t) e := by
  simp [lease, List.foldl_append]

theorem issued_snoc : issued (trace ++ [e]) i t ↔
    issued trace i t ∨ ∃ c ∈ grantedBy e, c.operationId = i ∧ c.claimToken = t := by
  simp only [issued, granted_snoc, List.mem_append, or_and_right, exists_or]

end Trace

/-! ### Runs on a shared clock -/

structure Clocked where
  world : World
  clock : Instant

/-- A call commits at an instant. -/
def Clocked.step (host : Host) (w : Clocked) (e : Instant × Call) : Clocked :=
  ⟨World.step host w.world e.2, e.1⟩

def Clocked.run (host : Host) (start : Instant) (events : List (Instant × Call)) : Clocked :=
  Run.exec (Clocked.step host) ⟨World.start, start⟩ events

theorem clocked_run_append (host : Host) (start : Instant) (l l' : List (Instant × Call)) :
    Clocked.run host start (l ++ l')
      = Run.exec (Clocked.step host) (Clocked.run host start l) l' := Run.exec_append _ _ _ _

/-- The readings of the clock that a call carries. -/
def Call.readings : Call → List Instant
  | .enqueue _ now => [now]
  | .reserveSequence _ _ now => [now]
  | .enqueueTurn _ _ _ now => [now]
  | .indexTurn _ _ _ _ _ now => [now]
  | .markSessionReconcile _ _ _ now => [now]
  | .recordTurnRevision _ _ => []
  | .claimPage _ page => [page.now, page.stamp]
  | .renewClaim _ _ _ now stamp => [now, stamp]
  | .applyResult _ _ now => [now]
  | .supersede _ _ now => [now]
  | .unblockAuth now => [now]
  | .releaseUnattempted _ now => [now]

/-- `uuid4` does not repeat a claim token. -/
def Call.drawsFresh (trace : List (Call × Except OutboxException Reply)) : Call → Prop
  | .claimPage _ page => ∀ k i, ¬ issued trace i (page.uuids k)
  | _ => True

/-- The clock does not go back, and no call carries a reading from the future. -/
def Clocked.allowed (w : Clocked) (e : Instant × Call) : Prop :=
  w.clock ≤ e.1 ∧ (∀ r ∈ e.2.readings, r ≤ e.1) ∧ e.2.drawsFresh w.world.trace

/-! ### The board of a database -/

/-- The claim recorded in a row. -/
def OperationRow.inForce (r : OperationRow) : Option (String × Instant) :=
  r.claimToken.bind fun t => r.leaseExpiresAt.map fun e => (t, e)

def board (w : Clocked) : Board String String where
  current i := (w.world.store.operations.find i).bind OperationRow.inForce
  lease := lease w.world.trace
  issued := issued w.world.trace
  clock := w.clock

/-- A row with a claim token has a deadline. -/
def Store.Leased (s : Store) : Prop :=
  ∀ i row, s.operations.find i = some row → row.claimToken.isSome → row.leaseExpiresAt.isSome

theorem inForce_eq_some_iff (r : OperationRow) (t : String) (e : Instant) :
    r.inForce = some (t, e) ↔ r.claimToken = some t ∧ r.leaseExpiresAt = some e := by
  simp [OperationRow.inForce, Option.bind_eq_some_iff]

theorem inForce_unclaimed {r : OperationRow} (h : r.claimToken = none) : r.inForce = none := by
  simp [OperationRow.inForce, h]

theorem inForce_insert {t t' : KeyedTable OperationRow.operationId} {row : OperationRow}
    (insert : t.insert row = some t') (hrow : row.inForce = none) (i : String) :
    (t'.find i).bind OperationRow.inForce = (t.find i).bind OperationRow.inForce := by
  rw [KeyedTable.find_insert insert]
  split
  · rename_i hi
    rw [hi, ((KeyedTable.insert_eq_some_iff _ _ _).mp insert).1]
    exact hrow
  · rfl

theorem effect_leased {host : Host} {c : Call} {s s' : Store} {r : Reply}
    (h : Effect host s c r s') (hs : s.Leased) : s'.Leased := by
  intro i row' hrow' htok
  have hch := effect_row h i
  rw [hrow'] at hch
  generalize ho : s.operations.find i = o at hch
  cases hch with
  | same => exact hs i row' ho htok
  | born => cases htok
  | claimed => rfl
  | renewed => rfl
  | settled => cases htok
  | @unblocked _ _ row => exact hs i row ho htok
  | released => cases htok

/-! ### Every call is a step of the board -/

section Steps
variable {w : Clocked} {s' : Store} {e : Call × Except OutboxException Reply} {T : Instant}

theorem keep_step (clock : w.clock ≤ T) (silent : grantedBy e = [])
    (quiet : ∀ i t before, leaseAfter i t before e = before)
    (rows : ∀ i, (s'.operations.find i).bind OperationRow.inForce
      = (w.world.store.operations.find i).bind OperationRow.inForce) :
    Board.Step (board w) (board ⟨⟨s', w.world.trace ++ [e]⟩, T⟩) :=
  .keep clock rows (fun i t => by simp [board, lease_snoc, quiet])
    (fun i t => by simp [board, issued_snoc, silent])

theorem free_step (p : String → String → Bool) (clock : w.clock ≤ T) (silent : grantedBy e = [])
    (told : ∀ i t before, leaseAfter i t before e = if p i t then none else before)
    (rows : ∀ i, (s'.operations.find i).bind OperationRow.inForce
      = ((w.world.store.operations.find i).bind OperationRow.inForce).filter fun c => !p i c.1) :
    Board.Step (board w) (board ⟨⟨s', w.world.trace ++ [e]⟩, T⟩) :=
  .free p clock rows (fun i t => by simp [board, lease_snoc, told])
    (fun i t => by simp [board, issued_snoc, silent])

theorem filter_named {op : ClaimedOperation} {row : OperationRow}
    (held : w.world.store.operations.find op.operationId = some row)
    (token : row.claimToken = some op.claimToken) {after : String → Option OperationRow}
    (cleared : (after op.operationId).bind OperationRow.inForce = none)
    (others : ∀ i, i ≠ op.operationId → after i = w.world.store.operations.find i) (i : String) :
    (after i).bind OperationRow.inForce
      = ((w.world.store.operations.find i).bind OperationRow.inForce).filter
          fun c => !op.named i c.1 := by
  by_cases hi : i = op.operationId
  · subst hi
    rw [cleared, held]
    symm
    rw [Option.filter_eq_none_iff]
    rintro ⟨t, d⟩ ht
    have hrow := ((inForce_eq_some_iff row t d).mp ht).1
    rw [token] at hrow
    cases hrow
    simp [ClaimedOperation.named]
  · rw [others i hi]
    cases (w.world.store.operations.find i).bind OperationRow.inForce with
    | none => rfl
    | some c =>
      have hne : op.operationId ≠ i := fun h => hi h.symm
      simp [ClaimedOperation.named, hne, Option.filter_some]

theorem find_named {claims : List ClaimedOperation}
    (hnd : (claims.map ClaimedOperation.operationId).Nodup) {c : ClaimedOperation}
    (hc : c ∈ claims) : claims.find? (fun c' => c'.operationId = c.operationId) = some c := by
  cases hf : claims.find? (fun c' => c'.operationId = c.operationId) with
  | none => simpa using List.find?_eq_none.mp hf c hc
  | some c' =>
    have hid : c'.operationId = c.operationId := by simpa using List.find?_some hf
    rw [List.inj_on_of_nodup_map hnd (List.mem_of_find?_eq_some hf) hc hid]

theorem find_named_token {claims : List ClaimedOperation}
    (hnd : (claims.map ClaimedOperation.operationId).Nodup) (i t : String) :
    claims.find? (ClaimedOperation.named i t)
      = (claims.find? fun c => c.operationId = i).filter fun c => c.claimToken = t := by
  cases hf : claims.find? (fun c => c.operationId = i) with
  | none =>
    rw [Option.filter_none, List.find?_eq_none]
    intro c hc
    have := List.find?_eq_none.mp hf c hc
    simp_all [ClaimedOperation.named]
  | some c =>
    have hid : c.operationId = i := by simpa using List.find?_some hf
    have hmem := List.mem_of_find?_eq_some hf
    have huniq : ∀ c' ∈ claims, c'.operationId = i → c' = c := fun c' hc' h =>
      List.inj_on_of_nodup_map hnd hc' hmem (h.trans hid.symm)
    by_cases ht : c.claimToken = t
    · rw [Option.filter_some, if_pos (by simpa using ht)]
      cases hg : claims.find? (ClaimedOperation.named i t) with
      | none => simpa [ClaimedOperation.named, hid, ht] using List.find?_eq_none.mp hg c hmem
      | some c' =>
        have hn := List.find?_some hg
        simp only [ClaimedOperation.named, Bool.and_eq_true, decide_eq_true_eq] at hn
        rw [huniq c' (List.mem_of_find?_eq_some hg) hn.1]
    · rw [Option.filter_some, if_neg (by simpa using ht), List.find?_eq_none]
      intro c' hc' hn
      simp only [ClaimedOperation.named, Bool.and_eq_true, decide_eq_true_eq] at hn
      rw [huniq c' hc' hn.1] at hn
      exact ht hn.2

end Steps

theorem claim_step {w : Clocked} {T : Instant} {config : OutboxConfig} {page : ClaimPage}
    {claims : List ClaimedOperation} {operations : KeyedTable OperationRow.operationId}
    (granted : Granted w.world.store config page claims operations)
    (allowed : w.allowed (T, .claimPage config page)) :
    Board.Step (board w) (board ⟨⟨{ w.world.store with operations },
      w.world.trace ++ [(.claimPage config page, .ok (.claims claims))]⟩, T⟩) := by
  obtain ⟨clock, reading, fresh⟩ := allowed
  have hnd := granted.ids_nodup
  have hfound : ∀ i c, claims.find? (fun c => c.operationId = i) = some c →
      c ∈ claims ∧ c.operationId = i := fun i c h =>
    ⟨List.mem_of_find?_eq_some h, by simpa using List.find?_some h⟩
  refine .grant (fun i => (claims.find? fun c => c.operationId = i).map fun c =>
    (c.claimToken, c.leaseExpiresAt)) page.now clock (reading _ (by simp [Call.readings]))
    (fun i hg t d hc => ?_) (fun i t d hg j => ?_) (fun i => ?_) (fun i t => ?_) (fun i t => ?_)
  · -- a selected row is unclaimed or past its deadline
    cases hf : claims.find? (fun c => c.operationId = i) with
    | none => simp [hf] at hg
    | some c =>
      obtain ⟨hmem, rfl⟩ := hfound i c hf
      obtain ⟨row, k, hrow, hsel, -, -⟩ := granted.of_claim hmem
      have hin : row.claimToken = some t ∧ row.leaseExpiresAt = some d := by
        simpa [board, hrow, inForce_eq_some_iff] using hc
      simpa [OperationRow.unleased, hin] using selectable_unleased (mem_selected hsel).2
  · cases hf : claims.find? (fun c => c.operationId = i) with
    | none => simp [hf] at hg
    | some c =>
      simp only [hf, Option.map_some, Option.some.injEq, Prod.mk.injEq] at hg
      obtain ⟨row, k, -, -, hcopy, -⟩ := granted.of_claim (hfound i c hf).1
      rw [← hg.1, (claimedFromRow_ok hcopy).2]
      exact fresh k j
  · cases hf : claims.find? (fun c => c.operationId = i) with
    | none =>
      have hni : i ∉ claims.map ClaimedOperation.operationId := by
        intro hi
        obtain ⟨c, hc, rfl⟩ := List.mem_map.mp hi
        rw [find_named hnd hc] at hf
        cases hf
      simp [board, granted.not_claimed hni]
    | some c =>
      obtain ⟨hmem, rfl⟩ := hfound i c hf
      obtain ⟨row, k, -, -, hcopy, hafter⟩ := granted.of_claim hmem
      have htok := congrArg ClaimedOperation.claimToken (claimedFromRow_ok hcopy).2
      have hexp := congrArg ClaimedOperation.leaseExpiresAt (claimedFromRow_ok hcopy).2
      simp [board, hafter, OperationRow.inForce, OperationRow.claim, htok, hexp]
  · simp only [board, lease_snoc, leaseAfter, find_named_token hnd]
    cases claims.find? (fun c => c.operationId = i) with
    | none => rfl
    | some c =>
      by_cases ht : c.claimToken = t
      · simp [ht, Option.filter_some]
      · have ht' : ¬t = c.claimToken := fun h => ht h.symm
        simp [ht, ht', Option.filter_some]
  · simp only [board, issued_snoc, grantedBy]
    refine or_congr_right ⟨?_, ?_⟩
    · rintro ⟨c, hc, rfl, rfl⟩
      exact ⟨c.leaseExpiresAt, by rw [find_named hnd hc]; rfl⟩
    · rintro ⟨d, hd⟩
      obtain ⟨c, hf, he⟩ := Option.map_eq_some_iff.mp hd
      obtain ⟨hmem, hid⟩ := hfound i c hf
      exact ⟨c, hmem, hid, congrArg Prod.fst he⟩

theorem heldByAny_named (ops : List ClaimedOperation) (r : OperationRow) (t : String)
    (ht : r.claimToken = some t) :
    r.heldByAny ops = ops.any (ClaimedOperation.named r.operationId t) := by
  unfold OperationRow.heldByAny
  congr 1
  funext op
  simp [OperationRow.heldBy, ClaimedOperation.named, ht, eq_comm]

theorem clocked_step (host : Host) (w : Clocked) (e : Instant × Call)
    (leased : w.world.store.Leased) (allowed : w.allowed e) :
    Board.Step (board w) (board (Clocked.step host w e)) := by
  obtain ⟨T, c⟩ := e
  have clock : w.clock ≤ T := allowed.1
  rcases step_cases host w.world c with ⟨x, he⟩ | ⟨r, s', heff, he⟩ <;>
    rw [Clocked.step, he]
  · exact keep_step clock (by cases c <;> rfl) (fun i t before => by cases c <;> rfl) fun _ => rfl
  cases heff with
  | known => exact keep_step clock rfl (fun _ _ _ => rfl) fun _ => rfl
  | reserve => exact keep_step clock rfl (fun _ _ _ => rfl) fun _ => rfl
  | index => exact keep_step clock rfl (fun _ _ _ => rfl) fun _ => rfl
  | mark => exact keep_step clock rfl (fun _ _ _ => rfl) fun _ => rfl
  | record => exact keep_step clock rfl (fun _ _ _ => rfl) fun _ => rfl
  | skip action =>
    exact keep_step clock rfl (fun i t before => by simp [leaseAfter, action]) fun _ => rfl
  | accept valid canonical fresh insert =>
    exact keep_step clock rfl (fun _ _ _ => rfl) (inForce_insert insert (inForce_unclaimed rfl))
  | turn nonempty made valid canonical named fresh insert index session =>
    exact keep_step clock rfl (fun _ _ _ => rfl) (inForce_insert insert (inForce_unclaimed rfl))
  | unblock ops =>
    refine keep_step clock rfl (fun _ _ _ => rfl) fun i => ?_
    rw [ops]
    cases w.world.store.operations.find i with
    | none => rfl
    | some row =>
      rw [Option.map_some, Option.bind_some, Option.bind_some]
      split <;> rfl
  | claim granted => exact claim_step granted allowed
  | @renew config op duration now stamp row operations positive held token ops =>
    obtain ⟨d, hd⟩ := Option.isSome_iff_exists.mp (leased _ _ held (by simp [token]))
    refine .renew op.operationId op.claimToken (now + duration.getD config.leaseSeconds) clock
      ⟨d, ?_⟩ (fun i => ?_) (fun i t => ?_) (fun i t => ?_)
    · simp [board, held, inForce_eq_some_iff, token, hd]
    · simp only [board, ops]
      split
      · simp [OperationRow.inForce, OperationRow.renewed, token]
      · rfl
    · simp only [board, lease_snoc, leaseAfter, named_iff]
    · simp [board, issued_snoc, grantedBy]
  | @archive op now row outcome history result action held token insert =>
    refine free_step (fun i t => op.named i t) clock rfl (fun i t before => ?_)
      (filter_named held token (by simp [KeyedTable.find_delete]) fun i hi => by
        simp [KeyedTable.find_delete, hi])
    have hne : result.action ≠ .superseded := by
      rcases action with h | h <;> simp [h]
    simp [leaseAfter, hne]
  | @settle op now row state operations result action held token ops =>
    refine free_step (fun i t => op.named i t) clock rfl (fun i t before => ?_)
      (filter_named held token (by simp [ops, inForce_unclaimed, OperationRow.settled])
        fun i hi => by simp [ops, hi])
    have hne : result.action ≠ .superseded := by
      intro h
      simp [h] at action
    simp [leaseAfter, hne]
  | @supersede op now row json hash operations history replacement valid canonical held token fresh
      insert archive =>
    have hnone := ((known_eq_none_iff _ _).mp fresh).1
    refine free_step (fun i t => op.named i t) clock rfl (fun i t before => rfl) fun i => ?_
    let kept := fun i => if i = op.operationId then none else w.world.store.operations.find i
    have hkept := filter_named held token (show (kept op.operationId).bind _ = none by
      simp [kept]) (fun i hi => if_neg hi) i
    rw [← hkept]
    simp only [kept]
    by_cases hi : i = op.operationId
    · simp [KeyedTable.find_delete, hi]
    · by_cases hr : i = replacement.operationId
      · subst hr
        simp [KeyedTable.find_delete, KeyedTable.find_insert insert, hi, hnone, inForce_unclaimed,
          pendingRow]
      · simp [KeyedTable.find_delete, KeyedTable.find_insert insert, hi, hr]
  | @release claims now operations ops =>
    refine free_step (fun i t => claims.any (ClaimedOperation.named i t)) clock rfl
      (fun i t before => rfl) fun i => ?_
    rw [ops]
    cases hf : w.world.store.operations.find i with
    | none => rfl
    | some row =>
      have hid := KeyedTable.find_key hf
      cases ht : row.claimToken with
      | none =>
        have : row.heldByAny claims = false := by
          simp [OperationRow.heldByAny, OperationRow.heldBy, ht]
        simp [this, inForce_unclaimed ht]
      | some t =>
        obtain ⟨d, hd⟩ := Option.isSome_iff_exists.mp (leased _ _ hf (by simp [ht]))
        have hin : row.inForce = some (t, d) := (inForce_eq_some_iff row t d).mpr ⟨ht, hd⟩
        have hany := heldByAny_named claims row t ht
        rw [hid] at hany
        rw [Option.map_some, Option.bind_some, Option.bind_some, hin, Option.filter_some]
        by_cases hb : claims.any (ClaimedOperation.named i t) = true
        · simp [hany, hb, OperationRow.released, inForce_unclaimed]
        · simp [hany, hb, hin]

/-! ### Calls with a token that is not in force -/

/-- What fencing does to a claim that is no longer in force: each call made with it raises
`ClaimLostError` or is ignored, and the database stays as it is. -/
structure Fenced (host : Host) (s : Store) (op : ClaimedOperation) : Prop where
  applyResult : ∀ result now, result.action ≠ .superseded →
    applyResult op result now s = (.error (lostClaim op), s)
  renewClaim : ∀ (config : OutboxConfig) duration now stamp,
    0 < duration.getD config.leaseSeconds →
    renewClaim config op duration now stamp s = (.error (lostClaim op), s)
  supersede : ∀ replacement now json hash, validateOperation replacement = .ok () →
    replacement.operationId ≠ op.operationId →
    canonicalRequest host replacement.request = .ok (json, hash) →
    supersede host op replacement now s = (.error (lostClaim op), s)
  release : ∀ before after now,
    releaseUnattempted (before ++ op :: after) now s = releaseUnattempted (before ++ after) now s
  releaseAlone : ∀ now, releaseUnattempted [op] now s = (.ok (), s)

theorem releaseRows_skip (op : ClaimedOperation) (before after : List ClaimedOperation)
    (now : Instant) (operations : KeyedTable OperationRow.operationId)
    (h : ∀ r ∈ operations.rows, r.heldBy op = false) :
    releaseRows now (before ++ op :: after) operations
      = releaseRows now (before ++ after) operations := by
  induction before generalizing operations with
  | nil =>
    have hany : (operations.rows.any fun r => r.heldBy op && decide (r.attempts = 0)) = false :=
      List.any_eq_false.mpr fun r hr => by simp [h r hr]
    rw [List.nil_append, releaseRows, if_neg (by rw [hany]; simp),
      KeyedTable.update_of_none _ _ _ h, List.nil_append]
  | cons b before ih =>
    rw [List.cons_append, List.cons_append, releaseRows, releaseRows]
    split
    · rfl
    · refine ih _ fun r hr => ?_
      obtain ⟨x, hx, rfl⟩ := (KeyedTable.mem_update _ _ _ _ _).mp hr
      split
      · simp [OperationRow.heldBy, OperationRow.released]
      · exact h x hx

theorem release_skip {s : Store} {op : ClaimedOperation} (before after : List ClaimedOperation)
    (now : Instant) (h : ∀ r ∈ s.operations.rows, r.heldBy op = false) :
    releaseUnattempted (before ++ op :: after) now s
      = releaseUnattempted (before ++ after) now s := by
  have hskip := releaseRows_skip op before after now s.operations h
  simp only [releaseUnattempted, transact, hskip]

theorem fenced_of_not_held (host : Host) {s : Store} {op : ClaimedOperation}
    (h : ∀ row, s.operations.find op.operationId = some row →
      row.claimToken ≠ some op.claimToken) : Fenced host s op := by
  have hheld : s.holds op = false := by
    rw [Bool.eq_false_iff]
    intro ht
    obtain ⟨row, hrow, htok⟩ := (holds_iff s op).mp ht
    exact h row hrow htok
  have hrow : s.heldRow op = none := by
    rw [Option.eq_none_iff_forall_ne_some]
    intro row hs
    obtain ⟨hf, htok⟩ := (heldRow_eq_some_iff s op row).mp hs
    exact h row hf htok
  have hnone : ∀ r ∈ s.operations.rows, r.heldBy op = false := by
    intro r hr
    rw [Bool.eq_false_iff, ne_eq, heldBy_iff]
    rintro ⟨hid, htok⟩
    exact h r (hid ▸ KeyedTable.find_of_mem hr) htok
  refine ⟨fun result now ha => ?_, fun config duration now stamp hd => ?_,
    fun replacement now json hash hv hne hc => ?_, fun before after now => ?_, fun now => ?_⟩
  · unfold applyResult
    split <;> first | contradiction | skip
    all_goals simp [archiveAndDelete, settle, transact, hrow, hheld, throw, throwThe,
      MonadExceptOf.throw, bind, Except.bind]
  · have hd' : ¬ duration.getD config.leaseSeconds ≤ 0 := by omega
    simp [renewClaim, transact, hheld, hd', throw, throwThe, MonadExceptOf.throw, bind, Except.bind]
  · simp [supersede, transact, hv, hne, hc, hrow, throw, throwThe, MonadExceptOf.throw, bind,
      Except.bind]
  · exact release_skip before after now hnone
  · exact release_skip [] [] now hnone

/-- A claim was issued and its token is not in force. -/
def Clocked.Spent (w : Clocked) (op : ClaimedOperation) : Prop :=
  issued w.world.trace op.operationId op.claimToken ∧
    ∀ row, w.world.store.operations.find op.operationId = some row →
      row.claimToken ≠ some op.claimToken

/-! ### Verdicts -/

/-- The call recorded a terminal outcome of operation `i`. -/
def closes (i : String) : Call × Except OutboxException Reply → Bool
  | (.applyResult op result _, .ok .done) => decide (op.operationId = i) &&
      (decide (result.action = .succeed) || decide (result.action = .obsolete))
  | (.supersede op _ _, .ok .done) => decide (op.operationId = i)
  | _ => false

theorem effect_closes {host : Host} {c : Call} {s s' : Store} {r : Reply}
    (h : Effect host s c r s') {i : String} (hc : closes i (c, .ok r) = true) :
    s.history.find i = none ∧ (s'.history.find i).isSome := by
  have close : ∀ {row : HistoryRow} {history : KeyedTable HistoryRow.operationId},
      row.operationId = i → s.history.insert row = some history →
      s.history.find i = none ∧ (history.find i).isSome := by
    rintro row history rfl hi
    exact ⟨((KeyedTable.insert_eq_some_iff _ _ _).mp hi).1, by simp [KeyedTable.find_insert hi]⟩
  cases h with
  | archive action held token insert =>
    simp only [closes, Bool.and_eq_true, decide_eq_true_eq] at hc
    exact close ((KeyedTable.find_key held).trans hc.1) insert
  | settle action held token ops =>
    simp only [closes, Bool.and_eq_true, Bool.or_eq_true, decide_eq_true_eq] at hc
    rcases hc.2 with h | h <;> simp [h] at action
  | skip action => simp [closes, action] at hc
  | supersede valid canonical held token fresh insert archive =>
    simp only [closes, decide_eq_true_eq] at hc
    exact close ((KeyedTable.find_key held).trans hc) archive
  | _ => simp [closes] at hc

/-- At most one terminal outcome for each operation, and none while it is not archived. -/
structure ClosedOnce (w : World) (i : String) : Prop where
  once : (w.trace.filter (closes i)).length ≤ 1
  archived : w.store.history.find i = none → (w.trace.filter (closes i)).length = 0

theorem step_closedOnce (host : Host) (w : World) (c : Call) (hw : w.Sound host) (i : String)
    (h : ClosedOnce w i) : ClosedOnce (World.step host w c) i := by
  rcases step_cases host w c with ⟨e, he⟩ | ⟨r, s', heff, he⟩ <;> rw [he]
  · have hno : closes i (c, .error e) = false := by cases c <;> rfl
    exact ⟨by simpa [List.filter_append, hno] using h.once,
      fun hn => by simpa [List.filter_append, hno] using h.archived hn⟩
  · cases hc : closes i (c, .ok r) with
    | true =>
      obtain ⟨hbefore, hafter⟩ := effect_closes heff hc
      have hzero := h.archived hbefore
      refine ⟨by simp [List.filter_append, hc, hzero], fun hn => ?_⟩
      simp [hn] at hafter
    | false =>
      refine ⟨by simpa [List.filter_append, hc] using h.once, fun hn => ?_⟩
      have hbefore : w.store.history.find i = none := by
        cases hf : w.store.history.find i with
        | none => rfl
        | some row =>
          have := effect_history heff hw.disjoint hf
          rw [hn] at this
          cases this
      simpa [List.filter_append, hc] using h.archived hbefore

/-! ### Runs -/

/-- What holds of every run on a shared clock. -/
structure Clocked.Safe (host : Host) (w : Clocked) : Prop where
  sound : w.world.Sound host
  leased : w.world.store.Leased
  board : (board w).Inv
  /-- no token was issued twice for one operation -/
  single : ∀ c ∈ granted w.world.trace, ∀ c' ∈ granted w.world.trace,
    c.operationId = c'.operationId → c.claimToken = c'.claimToken → c = c'
  closed : ∀ i, ClosedOnce w.world i

theorem start_safe (host : Host) (start : Instant) : Clocked.Safe host ⟨World.start, start⟩ where
  sound := start_sound host
  leased := fun i row h => by simp [World.start, Store.empty] at h
  board := ⟨by simp [Outbox.board, World.start, Store.empty],
    by simp [Outbox.board, World.start, lease], by simp [Outbox.board, World.start, lease]⟩
  single := by simp [World.start, granted]
  closed := fun i => ⟨by simp [World.start], by simp [World.start]⟩

theorem step_leased (host : Host) (w : World) (c : Call) (h : w.store.Leased) :
    (World.step host w c).store.Leased := by
  rcases step_cases host w c with ⟨e, he⟩ | ⟨r, s', heff, he⟩ <;> rw [he]
  · exact h
  · exact effect_leased heff h

theorem claims_distinct {host : Host} {c : Call} {s s' : Store} {r : Reply}
    (h : Effect host s c r s') :
    ((grantedBy (c, .ok r)).map ClaimedOperation.operationId).Nodup := by
  cases h with
  | claim g => exact g.ids_nodup
  | _ => exact List.nodup_nil

theorem claims_fresh {host : Host} {c : Call} {s s' : Store} {r : Reply}
    (h : Effect host s c r s') {trace : List (Call × Except OutboxException Reply)}
    (hf : c.drawsFresh trace) {claim : ClaimedOperation} (hc : claim ∈ grantedBy (c, .ok r))
    (i : String) : ¬ issued trace i claim.claimToken := by
  cases h with
  | claim g =>
    obtain ⟨row, k, -, -, hcopy, -⟩ := g.of_claim hc
    rw [(claimedFromRow_ok hcopy).2]
    exact hf k i
  | _ => cases hc

theorem step_single (host : Host) (w : Clocked) (e : Instant × Call) (allowed : w.allowed e)
    (h : ∀ c ∈ granted w.world.trace, ∀ c' ∈ granted w.world.trace,
      c.operationId = c'.operationId → c.claimToken = c'.claimToken → c = c') :
    ∀ c ∈ granted (Clocked.step host w e).world.trace,
      ∀ c' ∈ granted (Clocked.step host w e).world.trace,
        c.operationId = c'.operationId → c.claimToken = c'.claimToken → c = c' := by
  rcases step_cases host w.world e.2 with ⟨x, he⟩ | ⟨r, s', heff, he⟩ <;>
    simp only [Clocked.step, he, granted_snoc]
  · have hno : grantedBy (e.2, .error x) = [] := by cases e.2 <;> rfl
    simpa [hno] using h
  · have hold : ∀ c ∈ granted w.world.trace, ∀ c' ∈ grantedBy (e.2, .ok r),
        c.claimToken ≠ c'.claimToken := fun c hc c' hc' ht =>
      claims_fresh heff allowed.2.2 hc' c.operationId ⟨c, hc, rfl, ht⟩
    intro c hc c' hc' hid ht
    rcases List.mem_append.mp hc with hc | hc <;> rcases List.mem_append.mp hc' with hc' | hc'
    · exact h c hc c' hc' hid ht
    · exact absurd ht (hold c hc c' hc')
    · exact absurd ht.symm (hold c' hc' c hc)
    · exact List.inj_on_of_nodup_map (claims_distinct heff) hc hc' hid

theorem step_safe (host : Host) (w : Clocked) (e : Instant × Call) (hw : w.Safe host)
    (allowed : w.allowed e) : (Clocked.step host w e).Safe host where
  sound := step_sound host w.world e.2 hw.sound
  leased := step_leased host w.world e.2 hw.leased
  board := Board.inv_step hw.board (clocked_step host w e hw.leased allowed)
  single := step_single host w e allowed hw.single
  closed := fun i => step_closedOnce host w.world e.2 hw.sound i (hw.closed i)

theorem exec_safe (host : Host) {w : Clocked} {events : List (Instant × Call)} (hw : w.Safe host)
    (h : Run.Always (Clocked.step host) Clocked.allowed w events) :
    (Run.exec (Clocked.step host) w events).Safe host :=
  Run.exec_invariant (step_safe host) hw h

theorem spent_iff {w : Clocked} (leased : w.world.store.Leased) (op : ClaimedOperation) :
    w.Spent op ↔ (board w).Spent op.operationId op.claimToken := by
  refine and_congr_right fun _ => ⟨fun h d hd => ?_, fun h row hrow htok => ?_⟩
  · obtain ⟨row, hrow, hin⟩ := Option.bind_eq_some_iff.mp hd
    exact h row hrow ((inForce_eq_some_iff row _ d).mp hin).1
  · obtain ⟨d, hd⟩ := Option.isSome_iff_exists.mp (leased _ row hrow (by simp [htok]))
    exact h d (by simp [board, hrow, inForce_eq_some_iff, htok, hd])

/-- A claim that is out of force stays so, whatever happens next. -/
theorem exec_spent (host : Host) {w : Clocked} {events : List (Instant × Call)}
    {op : ClaimedOperation} (hw : w.Safe host)
    (h : Run.Always (Clocked.step host) Clocked.allowed w events) (hs : w.Spent op) :
    (Run.exec (Clocked.step host) w events).Spent op := by
  induction events generalizing w with
  | nil => exact hs
  | cons e events ih =>
    have hnext := step_safe host w e hw h.1
    refine ih hnext h.2 ((spent_iff hnext.leased op).mpr ?_)
    exact Board.spent_step (clocked_step host w e hw.leased h.1) ((spent_iff hw.leased op).mp hs)

/-- A holder that was told nothing, or nothing any more, has no claim in force. -/
theorem spent_of_given_back {host : Host} {w : Clocked} (hw : w.Safe host) {op : ClaimedOperation}
    (hi : issued w.world.trace op.operationId op.claimToken)
    (hl : lease w.world.trace op.operationId op.claimToken = none) : w.Spent op := by
  refine (spent_iff hw.leased op).mpr ⟨hi, fun d hd => ?_⟩
  have := hw.board.told _ _ _ hd
  rw [show (board w).lease = lease w.world.trace from rfl, hl] at this
  cases this

theorem spent_of_archived {host : Host} {w : Clocked} (hw : w.Safe host) {op : ClaimedOperation}
    (hi : issued w.world.trace op.operationId op.claimToken)
    (ha : (w.world.store.history.find op.operationId).isSome) : w.Spent op := by
  refine ⟨hi, fun row hrow => ?_⟩
  rcases hw.sound.disjoint op.operationId with h | h
  · rw [h] at hrow
    cases hrow
  · rw [h] at ha
    cases ha

/-- What a page of claims finds and leaves of the earlier claims of its operations. -/
theorem reclaim {host : Host} {w : Clocked} (hw : w.Safe host) {T : Instant}
    {config : OutboxConfig} {page : ClaimPage} (allowed : w.allowed (T, .claimPage config page))
    {claims : List ClaimedOperation} (hok : (claimPage config page w.world.store).1 = .ok claims)
    {c : ClaimedOperation} (hc : c ∈ claims) :
    (∀ t d, lease w.world.trace c.operationId t = some d → d ≤ T) ∧
    ∀ op, op.operationId = c.operationId → issued w.world.trace op.operationId op.claimToken →
      (Clocked.step host w (T, .claimPage config page)).Spent op := by
  obtain ⟨s', hs'⟩ : ∃ s', claimPage config page w.world.store = (.ok claims, s') :=
    ⟨_, Prod.ext hok rfl⟩
  have heff : Effect host w.world.store (.claimPage config page) (.claims claims) s' :=
    claimPage_effect hs'
  have hstep : World.step host w.world (.claimPage config page)
      = ⟨s', w.world.trace ++ [(.claimPage config page, .ok (.claims claims))]⟩ := by
    simp [World.step, Call.exec, replyWith, hs', Except.map]
  cases heff with
  | claim g =>
    obtain ⟨row, k, hrow, hsel, hcopy, hafter⟩ := g.of_claim hc
    refine ⟨fun t d hl => ?_, fun op hid hi => ⟨?_, fun row' hrow' htok => ?_⟩⟩
    · rcases hw.board.lapsed _ _ _ hl with hcur | hlate
      · obtain ⟨row', hrow', hin⟩ := Option.bind_eq_some_iff.mp hcur
        rw [hrow] at hrow'
        cases hrow'
        obtain ⟨ht, hd⟩ := (inForce_eq_some_iff row t d).mp hin
        have hun := selectable_unleased (mem_selected hsel).2
        simp only [OperationRow.unleased, ht, hd, decide_eq_true_eq] at hun
        exact Int.le_trans hun (allowed.2.1 page.now (by simp [Call.readings]))
      · exact Int.le_trans hlate allowed.1
    · rw [Clocked.step, hstep, issued_snoc]
      exact .inl hi
    · simp only [Clocked.step, hstep, hid, hafter, Option.some.injEq] at hrow'
      rw [← hrow'] at htok
      have huuid : page.uuids k = op.claimToken := Option.some.inj htok
      exact allowed.2.2 k op.operationId (huuid ▸ hi)

/-- Lease exclusion and fencing, for any workers on a shared clock, in any order of their calls:
at no instant do two claims of one operation run; an operation is reclaimed only after every
earlier deadline, and its earlier claims are then spent, as are those given back or archived;
a spent claim is fenced from then on; and an operation gets at most one terminal outcome. -/
theorem lease_exclusion_and_fencing (host : Host) (start : Instant)
    (events : List (Instant × Call))
    (h : Run.Always (Clocked.step host) Clocked.allowed ⟨World.start, start⟩ events) :
    (∀ c ∈ granted (Clocked.run host start events).world.trace,
      ∀ c' ∈ granted (Clocked.run host start events).world.trace,
      c.operationId = c'.operationId → ∀ x d d', (Clocked.run host start events).clock ≤ x →
      lease (Clocked.run host start events).world.trace c.operationId c.claimToken = some d →
      x < d →
      lease (Clocked.run host start events).world.trace c'.operationId c'.claimToken = some d' →
      x < d' → c = c') ∧
    (∀ before after T config page claims, events = before ++ (T, .claimPage config page) :: after →
      (claimPage config page (Clocked.run host start before).world.store).1 = .ok claims →
      ∀ c ∈ claims,
        (∀ t d, lease (Clocked.run host start before).world.trace c.operationId t = some d →
          d ≤ T) ∧
        ∀ op, op.operationId = c.operationId →
          issued (Clocked.run host start before).world.trace op.operationId op.claimToken →
          (Clocked.run host start (before ++ [(T, .claimPage config page)])).Spent op) ∧
    (∀ op, issued (Clocked.run host start events).world.trace op.operationId op.claimToken →
      lease (Clocked.run host start events).world.trace op.operationId op.claimToken = none ∨
        ((Clocked.run host start events).world.store.history.find op.operationId).isSome →
      (Clocked.run host start events).Spent op) ∧
    (∀ before after op, events = before ++ after → (Clocked.run host start before).Spent op →
      Fenced host (Clocked.run host start events).world.store op) ∧
    (∀ i, ((Clocked.run host start events).world.trace.filter (closes i)).length ≤ 1) := by
  have hrun : ∀ l₁ l₂, events = l₁ ++ l₂ → (Clocked.run host start l₁).Safe host ∧
      Run.Always (Clocked.step host) Clocked.allowed (Clocked.run host start l₁) l₂ := by
    rintro l₁ l₂ rfl
    obtain ⟨h₁, h₂⟩ := (Run.always_append _ l₁ l₂).mp h
    exact ⟨exec_safe host (start_safe host start) h₁, h₂⟩
  have hw : (Clocked.run host start events).Safe host := (hrun events [] (by simp)).1
  refine ⟨?_, ?_, ?_, ?_, fun i => (hw.closed i).once⟩
  · intro c hc c' hc' hid x d d' hx hd hxd hd' hxd'
    rw [← hid] at hd'
    exact hw.single c hc c' hc' hid (Board.exclusive hw.board hx hd hxd hd' hxd')
  · intro before after T config page claims he hok c hc
    obtain ⟨hsafe, hrest⟩ := hrun before _ he
    rw [clocked_run_append]
    exact reclaim hsafe hrest.1 hok hc
  · rintro op hi (hl | ha)
    · exact spent_of_given_back hw hi hl
    · exact spent_of_archived hw hi ha
  · rintro before after op rfl hs
    obtain ⟨hsafe, hrest⟩ := hrun before after rfl
    rw [clocked_run_append]
    exact fenced_of_not_held host (exec_spent host hsafe hrest hs).2

/-! ### One stale worker -/

/-- An operation is claimed, its lease expires, and another worker claims it. -/
def staleEvents : List (Instant × Call) :=
  [(0, .enqueue sampleOperation 0), (1, .claimPage sampleConfig (samplePage "first" "t1" 1)),
    (40, .claimPage sampleConfig (samplePage "second" "t2" 40))]

def staleClaim : ClaimedOperation := sampleClaim sampleOperation "first" "t1" 1

theorem staleEvents_allowed :
    Run.Always (Clocked.step Host.plain) Clocked.allowed ⟨World.start, 0⟩ staleEvents := by
  refine ⟨⟨by decide, by simp [Call.readings], trivial⟩, ⟨by decide, ?_, fun k i => ?_⟩,
    ⟨by decide, ?_, fun k i => ?_⟩, trivial⟩
  · simp [Call.readings, samplePage]
  · rintro ⟨c, hc, -⟩
    cases hc
  · simp [Call.readings, samplePage]
  · rintro ⟨c, hc, -, ht⟩
    have hg : granted (Clocked.step Host.plain (Clocked.step Host.plain ⟨World.start, 0⟩
        (0, .enqueue sampleOperation 0))
        (1, .claimPage sampleConfig (samplePage "first" "t1" 1))).world.trace = [staleClaim] := rfl
    rw [hg, List.mem_singleton] at hc
    subst hc
    exact absurd ht (by simp [staleClaim, sampleClaim, samplePage])

theorem staleClaim_spent : (Clocked.run Host.plain 0 staleEvents).Spent staleClaim := by
  refine ⟨⟨staleClaim, List.mem_cons_self, rfl, rfl⟩, fun row hrow => ?_⟩
  have htok : ((Clocked.run Host.plain 0 staleEvents).world.store.operations.find "a").map
      OperationRow.claimToken = some (some "t2") := by decide
  rw [show staleClaim.operationId = "a" from rfl] at hrow
  rw [hrow, Option.map_some, Option.some.injEq] at htok
  rw [htok]
  decide

theorem lease_exclusion_and_fencing_stale :
    Fenced Host.plain (Clocked.run Host.plain 0 staleEvents).world.store staleClaim :=
  (lease_exclusion_and_fencing Host.plain 0 staleEvents staleEvents_allowed).2.2.2.1
    staleEvents [] staleClaim (by simp) staleClaim_spent

/-- A spent claim with a replacement that is not valid: `ValueError`, not `ClaimLostError`. -/
theorem stale_supersede_invalid :
    (Clocked.run Host.plain 0 staleEvents).Spent staleClaim ∧
    (supersede Host.plain staleClaim { sampleOperation with operationId := "b", kind := "" } 50
      (Clocked.run Host.plain 0 staleEvents).world.store).1 ≠ .error (lostClaim staleClaim) := by
  refine ⟨staleClaim_spent, ?_⟩
  have h : (supersede Host.plain staleClaim { sampleOperation with operationId := "b", kind := "" }
      50 (Clocked.run Host.plain 0 staleEvents).world.store).1
        = .error (.valueError "kind is required") := by rfl
  rw [h]
  simp [lostClaim]

end SibylMemory.Outbox
