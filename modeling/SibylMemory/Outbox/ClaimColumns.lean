import SibylMemory.Outbox.Leases

/-!
# The claim columns of a row (`outbox.py:843-887`, `950-976`, `1103-1113`, `1219-1235`)

Six methods write `claim_token`, `claimed_by`, `lease_expires_at`, `state` and `attempts`. What they
keep is read off `RowChange`; the count of attempts relates a row to all claims that its operation
ever had.
-/

namespace SibylMemory.Outbox

/-! ### Counting -/

def World.claimsOf (w : World) (i : String) : Nat :=
  (granted w.trace).countP fun c => decide (c.operationId = i)

/-- The rows that `_release_unattempted` updates, for one operation. -/
def releasedBy (s : Store) (i : String) : Call × Except OutboxException Reply → Nat
  | (.releaseUnattempted ops _, .ok _) =>
    if (s.operations.find i).any fun row => row.heldByAny ops then 1 else 0
  | _ => 0

/-- `released` counts how often an operation was given back without an attempt. -/
structure Tally where
  world : World
  released : String → Nat

def Tally.start : Tally := ⟨World.start, fun _ => 0⟩

def Tally.step (host : Host) (t : Tally) (c : Call) : Tally :=
  ⟨World.step host t.world c, fun i =>
    t.released i + releasedBy t.world.store i (c, (c.exec host t.world.store).1)⟩

def Tally.run (host : Host) (calls : List Call) : Tally :=
  Run.exec (Tally.step host) Tally.start calls

theorem tally_exec_world (host : Host) (t : Tally) (calls : List Call) :
    (Run.exec (Tally.step host) t calls).world = Run.exec (World.step host) t.world calls := by
  induction calls generalizing t with
  | nil => rfl
  | cons c calls ih => exact ih (t.step host c)

theorem tally_run_world (host : Host) (calls : List Call) :
    (Tally.run host calls).world = World.run host calls := tally_exec_world host Tally.start calls

theorem claimsOf_snoc (s : Store) (w : World) (e : Call × Except OutboxException Reply) (i : String) :
    World.claimsOf ⟨s, w.trace ++ [e]⟩ i =
      w.claimsOf i + (grantedBy e).countP fun c => decide (c.operationId = i) := by
  simp only [World.claimsOf, granted_snoc, List.countP_append]

theorem count_claims {claims : List ClaimedOperation}
    (h : (claims.map ClaimedOperation.operationId).Nodup) (i : String) :
    (claims.countP fun c => decide (c.operationId = i)) =
      if i ∈ claims.map ClaimedOperation.operationId then 1 else 0 := by
  rw [← List.Nodup.count h, List.count_eq_countP, List.countP_map]
  rfl

/-! ### One row -/

/-- `claim_token`, `claimed_by` and `lease_expires_at` are all null or all set. -/
def OperationRow.ClaimWhole (row : OperationRow) : Prop :=
  (row.claimToken = none ∧ row.claimedBy = none ∧ row.leaseExpiresAt = none) ∨
    (row.claimToken.isSome ∧ row.claimedBy.isSome ∧ row.leaseExpiresAt.isSome)

/-- The columns of a row whose operation was claimed `claims` times and given back `released`
times. -/
structure OperationRow.Booked (claims released : Nat) (row : OperationRow) : Prop where
  whole : row.ClaimWhole
  claimable : row.claimToken.isSome → row.state.claimable = true
  attempts : row.attempts + released = claims
  claimed : row.claimToken.isSome → 1 ≤ row.attempts

section Row
variable {host : Host} {s : Store} {i : String} {c : Call} {r : Reply} {claims released : Nat}
  {row : OperationRow}

theorem OperationRow.Booked.claim (h : row.Booked claims released)
    (hstate : row.state.claimable = true) (token worker : String) (expires now : Instant) :
    (row.claim token worker expires now).Booked (claims + 1) released where
  whole := .inr ⟨rfl, rfl, rfl⟩
  claimable := fun _ => hstate
  attempts := by
    have hcount := h.attempts
    simp only [OperationRow.claim]
    omega
  claimed := fun _ => by
    simp only [OperationRow.claim]
    omega

theorem OperationRow.Booked.release (h : row.Booked claims released) (hheld : row.claimToken.isSome)
    (now : Instant) : (row.released now).Booked claims (released + 1) where
  whole := .inl ⟨rfl, rfl, rfl⟩
  claimable := nofun
  attempts := by
    have hcount := h.attempts
    have hpos := h.claimed hheld
    simp only [OperationRow.released]
    omega
  claimed := nofun

theorem OperationRow.Booked.free (h : row.Booked claims released) {row' : OperationRow}
    (hattempts : row'.attempts = row.attempts) (htoken : row'.claimToken = none)
    (hby : row'.claimedBy = none) (hlease : row'.leaseExpiresAt = none) :
    row'.Booked claims released where
  whole := .inl ⟨htoken, hby, hlease⟩
  claimable := by simp [htoken]
  attempts := by rw [hattempts]; exact h.attempts
  claimed := by simp [htoken]

theorem blocked_free (h : row.Booked claims released) (hstate : row.state.claimable = false) :
    row.claimToken = none ∧ row.claimedBy = none ∧ row.leaseExpiresAt = none := by
  rcases h.whole with hfree | ⟨htoken, -, -⟩
  · exact hfree
  · have hclaimable := h.claimable htoken
    rw [hstate] at hclaimable
    cases hclaimable

theorem rowChange_booked {old new : Option OperationRow} (h : RowChange host s i c r old new)
    (hclaim : ∀ config page, c ≠ .claimPage config page)
    (hrelease : ∀ ops now, c ≠ .releaseUnattempted ops now)
    (hold : ∀ row, old = some row → row.Booked claims released)
    (hfresh : s.known i = none → claims = 0 ∧ released = 0) :
    ∀ row, new = some row → row.Booked claims released := by
  intro row' hrow'
  cases h with
  | same => exact hold row' hrow'
  | born offer id valid canonical fresh =>
    cases hrow'
    obtain ⟨rfl, rfl⟩ := hfresh fresh
    exact ⟨.inl ⟨rfl, rfl, rfl⟩, nofun, rfl, nofun⟩
  | claimed => exact absurd rfl (hclaim _ _)
  | @renewed config op lease now stamp row expires id token =>
    cases hrow'
    have hb := hold row rfl
    refine ⟨?_, hb.claimable, hb.attempts, hb.claimed⟩
    rcases hb.whole with ⟨hnone, -, -⟩ | ⟨htoken, hby, -⟩
    · rw [hnone] at token
      cases token
    · exact .inr ⟨htoken, hby, rfl⟩
  | @settled op now row state result id action token =>
    cases hrow'
    exact (hold row rfl).free rfl rfl rfl rfl
  | archived => cases hrow'
  | superseded => cases hrow'
  | @unblocked now n row blocked =>
    cases hrow'
    have hb := hold row rfl
    obtain ⟨htoken, hby, hlease⟩ := blocked_free hb (by
      rw [show row.state = .blockedAuth by simpa [OperationRow.isBlocked] using blocked]
      rfl)
    exact hb.free rfl htoken hby hlease
  | released => exact absurd rfl (hrelease _ _)

end Row

/-! ### Every run -/

structure Bookkept (t : Tally) : Prop where
  disjoint : t.world.store.Disjoint
  rows : ∀ i row, t.world.store.operations.find i = some row →
    row.Booked (t.world.claimsOf i) (t.released i)
  fresh : ∀ i, t.world.store.known i = none → t.world.claimsOf i = 0 ∧ t.released i = 0

theorem bookkept_start : Bookkept Tally.start where
  disjoint := disjoint_empty
  rows := fun i row h => by cases h
  fresh := fun i _ => ⟨rfl, rfl⟩

section Step
variable {host : Host} {t : Tally} {c : Call} {r : Reply} {s' : Store}

/-- What a call that returns adds to the counts, and what it leaves of the rows. -/
theorem effect_booked (h : Effect host t.world.store c r s') (ht : Bookkept t) (i : String) :
    ∀ row, s'.operations.find i = some row → row.Booked
      (t.world.claimsOf i + (grantedBy (c, .ok r)).countP fun claim => decide (claim.operationId = i))
      (t.released i + releasedBy t.world.store i (c, .ok r)) := by
  have hold := ht.rows i
  by_cases hclaim : ∃ config page, c = .claimPage config page
  · obtain ⟨config, page, rfl⟩ := hclaim
    cases h with
    | @claim _ _ claims operations granted =>
      intro row hrow
      rw [show grantedBy (.claimPage config page, .ok (.claims claims)) = claims from rfl,
        count_claims granted.ids_nodup]
      by_cases hi : i ∈ claims.map ClaimedOperation.operationId
      · rw [if_pos hi]
        obtain ⟨claim, hmem, rfl⟩ := List.mem_map.mp hi
        obtain ⟨row₀, k, hrow₀, hsel, -, htaken⟩ := granted.of_claim hmem
        rw [htaken] at hrow
        cases hrow
        have hstate : row₀.state.claimable = true := by
          have hselectable := (mem_selected hsel).2
          simp only [Store.selectable, Bool.and_eq_true] at hselectable
          exact hselectable.1.1.1
        exact (hold row₀ hrow₀).claim hstate _ _ _ _
      · rw [if_neg hi]
        rw [granted.not_claimed hi] at hrow
        exact hold row hrow
  by_cases hrelease : ∃ ops now, c = .releaseUnattempted ops now
  · obtain ⟨ops, now, rfl⟩ := hrelease
    cases h with
    | @release _ _ operations ops' =>
      intro row hrow
      rw [ops', Option.map_eq_some_iff] at hrow
      obtain ⟨row₀, hrow₀, rfl⟩ := hrow
      rw [show grantedBy (.releaseUnattempted ops now, .ok Reply.done) = [] from rfl,
        show releasedBy t.world.store i (.releaseUnattempted ops now, .ok Reply.done) =
          if (t.world.store.operations.find i).any fun row => row.heldByAny ops then 1 else 0
          from rfl, hrow₀, Option.any_some]
      by_cases hheld : row₀.heldByAny ops = true
      · rw [if_pos hheld, if_pos hheld]
        have htoken : row₀.claimToken.isSome := by
          obtain ⟨op, -, hop⟩ := List.any_eq_true.mp hheld
          rw [((heldBy_iff op row₀).mp hop).2]
          rfl
        exact (hold row₀ hrow₀).release htoken now
      · rw [if_neg hheld, if_neg hheld]
        exact hold row₀ hrow₀
  · have hgranted : grantedBy (c, .ok r) = [] := by
      cases h <;> first | rfl | exact absurd ⟨_, _, rfl⟩ hclaim
    have hreleased : releasedBy t.world.store i (c, .ok r) = 0 := by
      cases h <;> first | rfl | exact absurd ⟨_, _, rfl⟩ hrelease
    rw [hgranted, hreleased]
    exact rowChange_booked (effect_row h i) (fun config page hc => hclaim ⟨config, page, hc⟩)
      (fun ops now hc => hrelease ⟨ops, now, hc⟩) hold (ht.fresh i)

theorem effect_unbooked (h : Effect host t.world.store c r s') (ht : Bookkept t) {i : String}
    (hi : s'.known i = none) :
    (t.world.claimsOf i + (grantedBy (c, .ok r)).countP fun claim => decide (claim.operationId = i)) = 0 ∧
      t.released i + releasedBy t.world.store i (c, .ok r) = 0 := by
  have hbefore : t.world.store.known i = none := by
    cases hk : t.world.store.known i with
    | none => rfl
    | some m =>
      rw [effect_known h ht.disjoint hk] at hi
      cases hi
  have hnone := ((known_eq_none_iff _ i).mp hbefore).1
  obtain ⟨hclaims, hreleased⟩ := ht.fresh i hbefore
  rw [hclaims, hreleased]
  constructor
  · cases h with
    | @claim _ _ claims operations granted =>
      rw [show grantedBy (.claimPage _ _, .ok (.claims claims)) = claims from rfl,
        count_claims granted.ids_nodup, if_neg]
      intro hmem
      obtain ⟨claim, hclaim, rfl⟩ := List.mem_map.mp hmem
      obtain ⟨row, k, hrow, -⟩ := granted.of_claim hclaim
      rw [hnone] at hrow
      cases hrow
    | _ => rfl
  · cases h with
    | release ops => simp [releasedBy, hnone]
    | _ => rfl

theorem bookkept_step (host : Host) (t : Tally) (c : Call) (ht : Bookkept t) :
    Bookkept (t.step host c) := by
  cases h : c.exec host t.world.store with
  | mk out s' =>
    cases out with
    | error e =>
      have hs := exec_error h
      subst hs
      have hstep : t.step host c = ⟨⟨t.world.store, t.world.trace ++ [(c, .error e)]⟩,
          fun i => t.released i + 0⟩ := by
        simp only [Tally.step, World.step, h]
        congr 1
        funext i
        cases c <;> rfl
      have hgranted : grantedBy (c, .error e) = [] := by cases c <;> rfl
      rw [hstep]
      refine ⟨ht.disjoint, fun i row hrow => ?_, fun i hi => ?_⟩
      · rw [claimsOf_snoc, hgranted]
        exact ht.rows i row hrow
      · rw [claimsOf_snoc, hgranted]
        exact ht.fresh i hi
    | ok r =>
      have heff := exec_effect h
      have hstep : t.step host c = ⟨⟨s', t.world.trace ++ [(c, .ok r)]⟩,
          fun i => t.released i + releasedBy t.world.store i (c, .ok r)⟩ := by
        simp only [Tally.step, World.step, h]
      rw [hstep]
      refine ⟨effect_disjoint heff ht.disjoint, fun i row hrow => ?_, fun i hi => ?_⟩
      · rw [claimsOf_snoc]
        exact effect_booked heff ht i row hrow
      · rw [claimsOf_snoc]
        exact effect_unbooked heff ht hi

end Step

theorem bookkept_run (host : Host) (calls : List Call) : Bookkept (Tally.run host calls) :=
  Run.exec_invariant_of_step (bookkept_step host) bookkept_start

/-! ### Dead letters -/

theorem deadLetter_step (host : Host) (t : Tally) (c : Call) (ht : Bookkept t) {row : OperationRow}
    (hrow : row ∈ t.world.store.operations.rows) (hstate : row.state = .deadLetter) :
    row ∈ (t.step host c).world.store.operations.rows := by
  have hfind := KeyedTable.find_of_mem hrow
  have hfree : row.claimToken = none := (blocked_free (ht.rows _ row hfind) (by rw [hstate]; rfl)).1
  rcases step_cases host t.world c with ⟨e, he⟩ | ⟨r, s', heff, he⟩
  · rw [Tally.step, he]
    exact hrow
  · rw [Tally.step, he]
    have hch := effect_row heff row.operationId
    rw [hfind] at hch
    generalize hnew : s'.operations.find row.operationId = new at hch
    cases hch with
    | same => exact KeyedTable.find_mem hnew
    | claimed mem id selected copy =>
      have hselectable := (mem_selected selected).2
      simp only [Store.selectable, hstate, OperationState.claimable, Bool.false_and,
        Bool.false_eq_true] at hselectable
    | renewed id token =>
      rw [hfree] at token
      cases token
    | settled id action token =>
      rw [hfree] at token
      cases token
    | archived id action token =>
      rw [hfree] at token
      cases token
    | superseded id token =>
      rw [hfree] at token
      cases token
    | unblocked blocked => simp [OperationRow.isBlocked, hstate] at blocked
    | released held =>
      obtain ⟨op, -, hop⟩ := List.any_eq_true.mp held
      have htoken := ((heldBy_iff op row).mp hop).2
      rw [hfree] at htoken
      cases htoken

theorem deadLetter_exec (host : Host) {t : Tally} (ht : Bookkept t) (calls : List Call)
    {row : OperationRow} (hrow : row ∈ t.world.store.operations.rows)
    (hstate : row.state = .deadLetter) :
    row ∈ (Run.exec (Tally.step host) t calls).world.store.operations.rows := by
  induction calls generalizing t with
  | nil => exact hrow
  | cons c calls ih =>
    exact ih (bookkept_step host t c ht) (deadLetter_step host t c ht hrow hstate)

/-! ### The updates of a page -/

/-- The `WHERE` clause of the `UPDATE` for a selected row (`outbox.py:872-873`). -/
def ClaimPage.hits (page : ClaimPage) (row r : OperationRow) : Bool :=
  decide (r.operationId = row.operationId) && r.unleased page.now

theorem ClaimPage.claim_id (page : ClaimPage) (expires : Instant) (index : Nat) (r : OperationRow) :
    (r.claim (page.uuids index) page.workerId expires page.now).operationId = r.operationId :=
  r.claim_id (page.uuids index) page.workerId expires page.now

/-- The table after the `UPDATE`s for `rows`; `index` counts them. -/
def claimUpdates (page : ClaimPage) (expires : Instant) :
    Nat → List OperationRow → KeyedTable OperationRow.operationId →
      KeyedTable OperationRow.operationId
  | _, [], operations => operations
  | index, row :: rows, operations =>
    claimUpdates page expires (index + 1) rows (operations.update (page.hits row)
      (fun r => r.claim (page.uuids index) page.workerId expires page.now)
      (page.claim_id expires index))

theorem claimRows_updates {page : ClaimPage} {expires : Instant} {index : Nat}
    {rows : List OperationRow} {operations operations' : KeyedTable OperationRow.operationId}
    {claims : List ClaimedOperation}
    (h : claimRows page expires index rows operations = .ok (claims, operations')) :
    operations' = claimUpdates page expires index rows operations := by
  induction rows generalizing index operations claims with
  | nil =>
    cases h
    rfl
  | cons row rows ih =>
    rw [claimRows] at h
    split at h
    · simp only [bind_ok] at h
      obtain ⟨claim, -, ⟨claims', operations''⟩, hrest, he⟩ := h
      cases he
      exact ih hrest
    · exact ih h

theorem claimUpdates_others (page : ClaimPage) (expires : Instant) (index : Nat)
    {rows : List OperationRow} (operations : KeyedTable OperationRow.operationId) {i : String}
    (hi : i ∉ rows.map OperationRow.operationId) :
    (claimUpdates page expires index rows operations).find i = operations.find i := by
  induction rows generalizing index operations with
  | nil => rfl
  | cons row rows ih =>
    rw [List.map_cons, List.mem_cons, not_or] at hi
    rw [claimUpdates, ih (index + 1) _ hi.2, KeyedTable.find_update]
    cases hf : operations.find i with
    | none => rfl
    | some r => simp [ClaimPage.hits, KeyedTable.find_key hf, hi.1]

/-- An `UPDATE` finds the row that was selected for it, whatever was updated before. -/
theorem claimUpdates_hits {s : Store} {page : ClaimPage} {cutoff expires : Instant} {n : Nat}
    {before after : List OperationRow} {row : OperationRow}
    (h : s.selected cutoff page.now n = before ++ row :: after) :
    (claimUpdates page expires 0 before s.operations).rows.filter (page.hits row) = [row] := by
  have hnodup := selected_nodup s cutoff page.now n
  have hmem : row ∈ s.selected cutoff page.now n := by simp [h]
  obtain ⟨hfind, hselectable⟩ := mem_selected hmem
  rw [h, List.map_append, List.map_cons] at hnodup
  have hbefore : row.operationId ∉ before.map OperationRow.operationId := by
    intro hin
    exact (List.nodup_append'.mp hnodup).2.2 hin List.mem_cons_self
  have hafter := claimUpdates_others page expires 0 s.operations hbefore
  rw [hfind] at hafter
  have hhit : page.hits row row = true := by
    simp [ClaimPage.hits, selectable_unleased hselectable]
  refine KeyedTable.filter_eq_singleton hafter hhit fun x hx => ?_
  simp only [ClaimPage.hits, Bool.and_eq_true, decide_eq_true_eq] at hx
  exact hx.1

/-! ### Results -/

/-- In every reachable state: the claim columns of a row are set together; a row that was blocked or
is a dead letter is not claimed, and a dead letter stays as it is; `attempts` counts the claims of
the operation that were not given back, and a claimed row has one; a release never breaks its
`CHECK`; and the `UPDATE`s of a page find the rows that were selected for them, and no others. -/
theorem claim_bookkeeping (host : Host) (calls : List Call) :
    let t := Tally.run host calls
    (∀ row ∈ t.world.store.operations.rows,
      row.ClaimWhole ∧
      (row.state = .blockedAuth ∨ row.state = .deadLetter → row.claimToken = none) ∧
      (row.attempts : Int) = t.world.claimsOf row.operationId - t.released row.operationId ∧
      (row.claimToken ≠ none → 1 ≤ row.attempts) ∧
      (row.state = .deadLetter → ∀ later,
        row ∈ (Tally.run host (calls ++ later)).world.store.operations.rows)) ∧
    (∀ ops now, (releaseUnattempted ops now t.world.store).1 = .ok ()) ∧
    (∀ (page : ClaimPage) (cutoff expires : Instant) (n : Nat) before row after,
      t.world.store.selected cutoff page.now n = before ++ row :: after →
      (claimUpdates page expires 0 before t.world.store.operations).rows.filter (page.hits row)
        = [row]) ∧
    (∀ config page claims s', claimPage config page t.world.store = (.ok claims, s') →
      claims.map ClaimedOperation.operationId =
        (t.world.store.selected (page.readyBefore.getD (farFuture page.now)) page.now
          page.pageSize.toNat).map OperationRow.operationId ∧
      s'.operations = claimUpdates page (page.now + page.leaseSeconds.getD config.leaseSeconds) 0
        (t.world.store.selected (page.readyBefore.getD (farFuture page.now)) page.now
          page.pageSize.toNat) t.world.store.operations) := by
  intro t
  have ht : Bookkept t := bookkept_run host calls
  refine ⟨fun row hrow => ?_, fun ops now => ?_, fun page cutoff expires n before row after h => ?_,
    fun config page claims s' h => ?_⟩
  · have hb := ht.rows _ row (KeyedTable.find_of_mem hrow)
    have hcount := hb.attempts
    refine ⟨hb.whole, fun hstate => ?_, by omega,
      fun hne => hb.claimed (Option.isSome_iff_ne_none.mpr hne), fun hstate later => ?_⟩
    · refine (blocked_free hb ?_).1
      rcases hstate with hstate | hstate <;> rw [hstate] <;> rfl
    · rw [Tally.run, Run.exec_append]
      exact deadLetter_exec host ht later hrow hstate
  · have hcounted : ∀ row ∈ t.world.store.operations.rows, row.heldByAny ops = true →
        row.attempts ≠ 0 := by
      intro row hrow hheld
      have hb := ht.rows _ row (KeyedTable.find_of_mem hrow)
      obtain ⟨op, -, hop⟩ := List.any_eq_true.mp hheld
      have hpos := hb.claimed (by rw [((heldBy_iff op row).mp hop).2]; rfl)
      omega
    obtain ⟨s', hs'⟩ := releaseUnattempted_total now hcounted
    rw [hs']
  · exact claimUpdates_hits h
  · have heff : Effect host t.world.store (.claimPage config page) (.claims claims) s' :=
      claimPage_effect h
    constructor
    · cases heff with
      | claim granted =>
        rw [granted.ids, ← granted.rows, List.map_map]
        rfl
    · rw [claimPage, transact_ok] at h
      simp only [guard_ok, bind_ok] at h
      obtain ⟨-, -, -, ⟨claims', operations⟩, hrows, he⟩ := h
      cases he
      exact claimRows_updates hrows

end SibylMemory.Outbox
