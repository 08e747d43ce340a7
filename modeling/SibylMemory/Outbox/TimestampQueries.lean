import Mathlib.Algebra.Order.Ring.Int
import Mathlib.Data.List.Sort
import SibylMemory.Outbox.Timestamps
import SibylMemory.Outbox.Transactions

/-!
# Queries over stored timestamps (`outbox.py:838-863`, `1115-1159`)

The rows of `operations` as the database has them, with texts in the columns for instants. What
`claim_page` and `snapshot` find by comparing these texts is what the instants decide.
-/

namespace SibylMemory.Outbox

/-- A row of `operations` with the `datetime` values whose texts it stores. -/
structure StampedRow where
  row : OperationRow
  created : DateTime
  updated : DateTime
  lease : Option DateTime
  created_instant : row.createdAt = created.instant
  updated_instant : row.updatedAt = updated.instant
  lease_instant : row.leaseExpiresAt = lease.map DateTime.instant

namespace StampedRow

def createdAt (r : StampedRow) : String := timestamp r.created
def updatedAt (r : StampedRow) : String := timestamp r.updated
def leaseExpiresAt (r : StampedRow) : Option String := r.lease.map timestamp

/-! ### `claim_page` -/

/-- `claim_token IS NULL OR lease_expires_at <= ?` -/
def unleased (r : StampedRow) (now : String) : Bool :=
  match r.row.claimToken, r.leaseExpiresAt with
  | none, _ => true
  | some _, some expires => textLe expires now
  | some _, none => false

def selectable (s : Store) (cutoff now : String) (r : StampedRow) : Bool :=
  r.row.state.claimable && textLt r.updatedAt cutoff && r.unleased now && s.dependencyMet r.row.dependsOn

/-- `ORDER BY created_at, operation_id` -/
def claimOrder (a b : StampedRow) : Prop :=
  textLt a.createdAt b.createdAt = true ∨
    (a.createdAt = b.createdAt ∧ a.row.operationId ≤ b.row.operationId)

instance : DecidableRel claimOrder := fun a b => by unfold claimOrder; infer_instance

def selected (s : Store) (rows : List StampedRow) (cutoff now : String) (pageSize : Nat) :
    List StampedRow :=
  ((rows.filter (selectable s cutoff now)).insertionSort claimOrder).take pageSize

end StampedRow

/-- `ready_before or _timestamp(now_value + timedelta(days=365_000))`, unless that overflows. -/
def readyCutoff (readyBefore : Option DateTime) (now : DateTime) : Option String :=
  match readyBefore with
  | some cutoff => some (timestamp cutoff)
  | none => (now.add (365000 * MICROSECONDS_PER_DAY)).map timestamp

/-! ### `snapshot` -/

structure OutboxSnapshot where
  total : Nat
  byState : OperationState → Nat
  oldestAge : Option Int
  activeClaims : Nat
  expiredClaims : Nat
  dependencyBlocked : Nat

def OperationState.all : List OperationState :=
  [.pending, .pendingRecovery, .blockedAuth, .deadLetter, .reconcileRevision]

/-- `MIN` of a column. -/
def least {τ : Type} (lt : τ → τ → Bool) : List τ → Option τ
  | [] => none
  | t :: ts => some (ts.foldl (fun m u => if lt u m then u else m) t)

/-- The counts and the age of a snapshot, given the two counts of claims and the oldest row. -/
def Store.snapshotWith (s : Store) (activeClaims expiredClaims : Nat) (oldest : Option Instant)
    (later : Instant) : OutboxSnapshot :=
  let byState := fun state => s.operations.rows.countP fun r => r.state = state
  { total := (OperationState.all.map byState).sum
    byState, activeClaims, expiredClaims
    oldestAge := oldest.map fun created => max 0 (later - created)
    dependencyBlocked := s.operations.rows.countP fun r =>
      r.dependsOn.isSome && !s.dependencyMet r.dependsOn }

/-- A claim whose lease the comparison accepts; a missing lease compares to nothing. -/
def claimedWhere {τ : Type} (claimToken : Option String) (lease : Option τ) (p : τ → Bool) : Bool :=
  claimToken.isSome && lease.any p

/-- `snapshot` by instants; `later` is the time of its second reading of the clock. -/
def Store.snapshot (s : Store) (now later : Instant) : OutboxSnapshot :=
  s.snapshotWith
    (s.operations.rows.countP fun r => claimedWhere r.claimToken r.leaseExpiresAt fun e => now < e)
    (s.operations.rows.countP fun r => claimedWhere r.claimToken r.leaseExpiresAt fun e => e ≤ now)
    (least (fun a b => decide (a < b)) (s.operations.rows.map OperationRow.createdAt)) later

/-- `snapshot` as it queries the texts. -/
def snapshotTexts (s : Store) (rows : List StampedRow) (now later : DateTime) : OutboxSnapshot :=
  s.snapshotWith
    (rows.countP fun r => claimedWhere r.row.claimToken r.leaseExpiresAt fun e =>
      textLt (timestamp now) e)
    (rows.countP fun r => claimedWhere r.row.claimToken r.leaseExpiresAt fun e =>
      textLe e (timestamp now))
    (((least textLt (rows.map StampedRow.createdAt)).bind fromisoformat).map DateTime.instant)
    later.instant

/-! ### Texts decide as instants do -/

section Rows
variable {s : Store} {rows : List StampedRow}

theorem unleased_timestamp (r : StampedRow) (now : DateTime) :
    r.unleased (timestamp now) = r.row.unleased now.instant := by
  rw [StampedRow.unleased, OperationRow.unleased, r.lease_instant, StampedRow.leaseExpiresAt]
  cases r.row.claimToken with
  | none => rfl
  | some token =>
    cases r.lease with
    | none => rfl
    | some expires =>
      rw [Option.map_some, Option.map_some, Bool.eq_iff_iff]
      simp only [textLe_timestamp, decide_eq_true_eq]

theorem selectable_timestamp (cutoff now : DateTime) (r : StampedRow) :
    r.selectable s (timestamp cutoff) (timestamp now) = s.selectable cutoff.instant now.instant r.row := by
  have hupdated : textLt r.updatedAt (timestamp cutoff) = decide (r.row.updatedAt < cutoff.instant) := by
    rw [StampedRow.updatedAt, r.updated_instant, Bool.eq_iff_iff]
    simp only [textLt_timestamp, decide_eq_true_eq]
  rw [StampedRow.selectable, Store.selectable, hupdated, unleased_timestamp]

theorem claimOrder_timestamp (a b : StampedRow) : a.claimOrder b ↔ claimOrder a.row b.row := by
  rw [StampedRow.claimOrder, claimOrder, StampedRow.createdAt, StampedRow.createdAt, textLt_timestamp,
    timestamp_inj, a.created_instant, b.created_instant]

theorem selected_timestamp (hrows : s.operations.rows = rows.map StampedRow.row)
    (cutoff now : DateTime) (pageSize : Nat) :
    (StampedRow.selected s rows (timestamp cutoff) (timestamp now) pageSize).map StampedRow.row =
      s.selected cutoff.instant now.instant pageSize := by
  have hselectable : StampedRow.selectable s (timestamp cutoff) (timestamp now) =
      s.selectable cutoff.instant now.instant ∘ StampedRow.row :=
    funext fun r => selectable_timestamp cutoff now r
  rw [StampedRow.selected, Store.selected, hrows, List.map_take,
    List.map_insertionSort _ (s := claimOrder) StampedRow.row _ fun a _ b _ => claimOrder_timestamp a b,
    List.filter_map, hselectable]

theorem readyCutoff_instant {readyBefore : Option DateTime} {now : DateTime} {text : String}
    (h : readyCutoff readyBefore now = some text) : ∃ cutoff, text = timestamp cutoff ∧
      cutoff.instant = (readyBefore.map DateTime.instant).getD (farFuture now.instant) := by
  cases readyBefore with
  | some cutoff => exact ⟨cutoff, (Option.some.inj h).symm, rfl⟩
  | none =>
    obtain ⟨cutoff, hadd, rfl⟩ := Option.map_eq_some_iff.mp h
    exact ⟨cutoff, rfl, add_eq.mp hadd⟩

theorem least_map {τ υ : Type} {p : τ → τ → Bool} {q : υ → υ → Bool} {f : τ → υ}
    (h : ∀ a b, q (f a) (f b) = p a b) (ts : List τ) :
    least q (ts.map f) = (least p ts).map f := by
  cases ts with
  | nil => rfl
  | cons t ts =>
    rw [List.map_cons, least, least, Option.map_some]
    congr 1
    induction ts generalizing t with
    | nil => rfl
    | cons u ts ih =>
      rw [List.map_cons, List.foldl_cons, List.foldl_cons, h]
      split <;> exact ih _

theorem snapshot_timestamp (hrows : s.operations.rows = rows.map StampedRow.row)
    (now later : DateTime) : snapshotTexts s rows now later = s.snapshot now.instant later.instant := by
  have hlt : ∀ a b : DateTime, textLt (timestamp a) (timestamp b) = decide (a.instant < b.instant) := by
    intro a b
    rw [Bool.eq_iff_iff, textLt_timestamp, decide_eq_true_eq]
  have hle : ∀ a b : DateTime, textLe (timestamp a) (timestamp b) = decide (a.instant ≤ b.instant) := by
    intro a b
    rw [Bool.eq_iff_iff, textLe_timestamp, decide_eq_true_eq]
  have holdest : ((least textLt (rows.map StampedRow.createdAt)).bind fromisoformat).map
      DateTime.instant =
        least (fun a b => decide (a < b)) (s.operations.rows.map OperationRow.createdAt) := by
    have htexts : rows.map StampedRow.createdAt = (rows.map StampedRow.created).map timestamp := by
      rw [List.map_map]
      rfl
    have hinstants : s.operations.rows.map OperationRow.createdAt =
        (rows.map StampedRow.created).map DateTime.instant := by
      rw [hrows, List.map_map, List.map_map]
      exact List.map_congr_left fun r _ => r.created_instant
    rw [htexts, hinstants]
    generalize rows.map StampedRow.created = ds
    rw [least_map hlt, least_map (f := DateTime.instant) (q := fun a b => decide (a < b))
      fun a b => rfl]
    cases least (fun a b : DateTime => decide (a.instant < b.instant)) ds with
    | none => rfl
    | some d => rw [Option.map_some, Option.bind_some, fromisoformat_timestamp]
  have hclaims : ∀ {p : String → Bool} {q : Instant → Bool},
      (∀ d : DateTime, p (timestamp d) = q d.instant) →
      (rows.countP fun r => claimedWhere r.row.claimToken r.leaseExpiresAt p) =
        s.operations.rows.countP fun r => claimedWhere r.claimToken r.leaseExpiresAt q := by
    intro p q hpq
    rw [hrows, List.countP_map]
    refine List.countP_congr fun r _ => ?_
    rw [Function.comp, claimedWhere, claimedWhere, r.lease_instant, StampedRow.leaseExpiresAt]
    cases r.lease with
    | none => rfl
    | some e => rw [Option.map_some, Option.map_some, Option.any_some, Option.any_some, hpq]
  have hactive := hclaims (p := fun e => textLt (timestamp now) e)
    (q := fun e => decide (now.instant < e)) (hlt now)
  have hexpired := hclaims (p := fun e => textLe e (timestamp now))
    (q := fun e => decide (e ≤ now.instant)) fun d => hle d now
  rw [snapshotTexts, Store.snapshot, holdest, hactive, hexpired]

/-- The texts of instants are compared as the instants are and read back as them, so the queries
over the stored texts decide what the instants decide. -/
theorem timestamps_decide :
    (∀ a b : DateTime, textLt (timestamp a) (timestamp b) = true ↔ a.instant < b.instant) ∧
    (∀ d : DateTime, fromisoformat (timestamp d) = some d) ∧
    ∀ (s : Store) (rows : List StampedRow), s.operations.rows = rows.map StampedRow.row →
      (∀ readyBefore now cutoff pageSize, readyCutoff readyBefore now = some cutoff →
        (StampedRow.selected s rows cutoff (timestamp now) pageSize).map StampedRow.row =
          s.selected ((readyBefore.map DateTime.instant).getD (farFuture now.instant)) now.instant
            pageSize) ∧
      (∀ (r : StampedRow) (now : DateTime),
        r.unleased (timestamp now) = r.row.unleased now.instant) ∧
      ∀ now later : DateTime, snapshotTexts s rows now later = s.snapshot now.instant later.instant := by
  refine ⟨fun a b => textLt_timestamp, fromisoformat_timestamp, fun s rows hrows =>
    ⟨fun readyBefore now cutoff pageSize hcutoff => ?_, unleased_timestamp, snapshot_timestamp hrows⟩⟩
  obtain ⟨d, rfl, hinstant⟩ := readyCutoff_instant hcutoff
  rw [selected_timestamp hrows, hinstant]

end Rows

end SibylMemory.Outbox
