import SibylMemory.RuntimeRuns
import SibylMemory.TurnQueues

/-!
# The turn number of a capture (`sessions.py:25-69`, `runtime.py:125-189`)

Turns of one session are started one at a time. A turn is completed by `sync_turn` with the text it
was started with, or it is interrupted and its record stays in the queue.
-/

namespace SibylMemory
open Outbox

/-- How a turn ends: what `sync_turn` gets, and what others did to the outbox before. -/
structure Completion where
  assistantContent : String
  named : Bool
  messages : Option (List Message)
  clock : ReconcileClock
  now : Instant
  meanwhile : Store → Store

structure Turn where
  turnNumber : Int
  message : String
  completion : Option Completion

def Completion.sync (c : Completion) (message sessionId : String) : SyncTurn where
  userContent := message
  assistantContent := c.assistantContent
  sessionId := if c.named then sessionId else ""
  messages := c.messages
  clock := c.clock
  now := c.now

/-- A turn from its start to its end. -/
def Provider.playTurn (host : Host) (p : Provider) (t : Turn) :
    Except OutboxException (Option String) × Provider :=
  let started := p.runtime.onTurnStart host t.turnNumber t.message
  match t.completion with
  | none => (.ok none, ⟨started, p.store⟩)
  | some c =>
    let (out, runtime, store) :=
      started.syncTurn host (c.sync t.message started.sessionId) (c.meanwhile p.store)
    (out, ⟨runtime, store⟩)

def Provider.afterTurn (host : Host) (p : Provider) (t : Turn) : Provider := (p.playTurn host t).2

/-- `metadata.turn_number` of the request that is stored for an operation. -/
def capturedNumber (s : Store) (operationId : String) : Option PyValue := do
  let row ← s.operations.find operationId
  match row.request with
  | .dict request =>
    match Schema.get request "metadata" with
    | .dict metadata => PyValue.lookup "turn_number" metadata
    | _ => none
  | _ => none

/-- `sync_turn` returns. -/
def Completes (host : Host) (p : Provider) (t : Turn) : Prop :=
  ∃ out, (p.playTurn host t).1 = .ok out

/-- The capture of a turn, if one is made, has the number of the turn. -/
def RightNumber (host : Host) (p : Provider) (t : Turn) : Prop :=
  ∀ operationId, (p.playTurn host t).1 = .ok (some operationId) →
    capturedNumber (p.playTurn host t).2.store operationId = some (.int t.turnNumber)

/-! ### The captured number -/

section Capture
variable {host : Host}

theorem captureFactory_number {c : RuntimeContext} {sid parent userContent assistantContent : String}
    {turnNumber : Option Int} {n : Nat} {t : NewTurnOperation}
    (h : captureFactory host c sid parent turnNumber userContent assistantContent n = .ok t) :
    ∃ request metadata, t.operation.request = .dict request ∧
      PyValue.lookup "metadata" request = some (.dict metadata) ∧
      PyValue.lookup "turn_number" metadata = some (.int (turnNumber.getD n)) := by
  obtain ⟨identity, hash, hi, -, rfl⟩ := captureFactory_ok h
  have hnumber : identity.turnNumber = turnNumber.getD n := by
    unfold deriveTurnIdentity at hi
    split at hi
    · cases hi
    dsimp only at hi
    split at hi
    · cases hi
    · cases hi
      rfl
  refine ⟨_, _, rfl, rfl, ?_⟩
  rw [PyValue.lookup_assign, if_neg (by decide), ← hnumber]
  rfl

theorem canonicalRequest_json {request json : PyValue} {hash : String}
    (h : canonicalRequest host request = .ok (json, hash)) : request.canonical = some json := by
  unfold canonicalRequest at h
  simp only [bind_ok] at h
  obtain ⟨⟨⟩, -, h⟩ := h
  split at h
  · cases h
    assumption
  · cases h

theorem enqueueCapture_number {c : RuntimeContext} {sid userContent assistantContent : String}
    {turnNumber : Option Int} {now : Instant} {s s' : Store} {record : IndexedTurnRecord}
    (h : enqueueCapture host c sid userContent assistantContent turnNumber now s
      = (.ok record, s')) :
    capturedNumber s' record.operationId
      = some (.int (turnNumber.getD (s.nextSequence sid))) := by
  have heffect := enqueueTurn_effect h
  cases heffect with
  | @turn _ _ _ _ t json hash operations sessions turns nonempty made valid canonical named fresh
      insert index session =>
    obtain ⟨request, metadata, hrequest, hmeta, hnumber⟩ := captureFactory_number made
    have hcanonical := canonicalRequest_json canonical
    rw [hrequest] at hcanonical
    obtain ⟨entries, rfl⟩ := PyValue.canonical_dict_shape hcanonical
    obtain ⟨stored, hstored, hfound⟩ := PyValue.canonical_dict_some hcanonical hmeta
    obtain ⟨entries', rfl⟩ := PyValue.canonical_dict_shape hstored
    obtain ⟨number, hint, hfound'⟩ := PyValue.canonical_dict_some hstored hnumber
    cases hint
    have hrow : operations.find t.operation.operationId
        = some (pendingRow t.operation (.dict entries) hash now) := by
      rw [KeyedTable.find_insert insert]
      exact if_pos rfl
    simp only [capturedNumber, hrow, Option.bind_eq_bind, Option.bind_some, pendingRow]
    rw [Schema.get, hfound]
    exact hfound'

end Capture

/-! ### One turn -/

def Turn.text (host : Host) (t : Turn) : String := host.extractUserInstruction t.message

def Turn.digest (host : Host) (t : Turn) : String := messageHash host (t.text host)

def Turn.pending (host : Host) (t : Turn) : PendingTurn := ⟨t.turnNumber, t.digest host⟩

def Runtime.Captures (rt : Runtime) : Prop :=
  rt.context.agentContext = "primary" ∧ rt.context.automaticCapture = true

/-- The queue of the runtime's session. -/
def Runtime.queue (rt : Runtime) : List PendingTurn := rt.turns.turns rt.sessionId

section OneTurn
variable {host : Host} {p : Provider} {t : Turn}

theorem onTurnStart_blank {rt : Runtime} (h : t.text host = "") :
    rt.onTurnStart host t.turnNumber t.message = rt := by
  unfold Runtime.onTurnStart
  exact if_pos h

theorem onTurnStart_queue {rt : Runtime} (h : t.text host ≠ "") :
    (rt.onTurnStart host t.turnNumber t.message).queue = rt.queue ++ [t.pending host] ∧
      (rt.onTurnStart host t.turnNumber t.message).context = rt.context ∧
      (rt.onTurnStart host t.turnNumber t.message).sessionId = rt.sessionId := by
  have hstart : rt.onTurnStart host t.turnNumber t.message
      = { rt with turns := rt.turns.record host rt.sessionId t.turnNumber (t.text host) } := if_neg h
  rw [hstart]
  refine ⟨?_, rfl, rfl⟩
  exact Function.update_self ..

theorem sync_active (c : Completion) (message : String) (rt : Runtime) :
    rt.activeSession (c.sync message rt.sessionId) = rt.sessionId := by
  unfold Runtime.activeSession Completion.sync
  cases c.named with
  | false => rfl
  | true =>
    by_cases hempty : rt.sessionId = ""
    · simp [hempty]
    · exact if_neg hempty

theorem syncTurn_skips {rt : Runtime} {y : SyncTurn} {s : Store} (h : rt.skips host y = true) :
    rt.syncTurn host y s = (.ok none, rt, s) := if_pos h

theorem syncTurn_ok {rt rt' : Runtime} {y : SyncTurn} {s s' : Store} {out : Option String}
    (hskips : rt.skips host y = false) (h : rt.syncTurn host y s = (.ok out, rt', s')) :
    ∃ s₁ record, enqueueCapture host rt.context (rt.activeSession y) (y.current host).1
        y.assistantContent (rt.consumed host y).1 y.now s₁ = (.ok record, s') ∧
      out = some record.operationId ∧ rt' = (rt.consumed host y).2 := by
  unfold Runtime.syncTurn at h
  rw [if_neg (by simp [hskips])] at h
  split at h
  · cases h
  · rename_i s₁ _
    dsimp only at h
    split at h
    · cases h
    · rename_i record s₂ hcapture
      cases h
      exact ⟨s₁, record, hcapture, rfl, rfl⟩

theorem playTurn_blank (h : t.text host = "") :
    (p.afterTurn host t).runtime = p.runtime ∧ (p.playTurn host t).1 = .ok none := by
  unfold Provider.afterTurn Provider.playTurn
  rw [onTurnStart_blank h]
  cases t.completion with
  | none => exact ⟨rfl, rfl⟩
  | some c =>
    have hskips : p.runtime.skips host (c.sync t.message p.runtime.sessionId) = true := by
      have htext : host.extractUserInstruction (c.sync t.message p.runtime.sessionId).userContent = "" := h
      simp [Runtime.skips, htext]
    simp [syncTurn_skips hskips]

theorem playTurn_uncaptured (h : ¬ p.runtime.Captures) :
    (p.playTurn host t).1 = .ok none ∧ ¬ (p.afterTurn host t).runtime.Captures := by
  have hcontext : (p.runtime.onTurnStart host t.turnNumber t.message).context = p.runtime.context := by
    unfold Runtime.onTurnStart
    dsimp only
    split <;> rfl
  unfold Provider.afterTurn Provider.playTurn
  generalize p.runtime.onTurnStart host t.turnNumber t.message = rt at *
  have hrt : ¬ rt.Captures := by rwa [Runtime.Captures, hcontext]
  cases t.completion with
  | none => exact ⟨rfl, hrt⟩
  | some c =>
    have hskips : rt.skips host (c.sync t.message rt.sessionId) = true := by
      rw [Runtime.Captures, not_and_or] at hrt
      rcases hrt with hrt | hrt <;> simp [Runtime.skips, hrt]
    simp only [syncTurn_skips hskips]
    exact ⟨trivial, hrt⟩

theorem playTurn_interrupted (hc : t.completion = none) :
    (p.afterTurn host t).runtime = p.runtime.onTurnStart host t.turnNumber t.message ∧
      (p.playTurn host t).1 = .ok none := by
  unfold Provider.afterTurn Provider.playTurn
  rw [hc]
  exact ⟨rfl, rfl⟩

theorem playTurn_completed (hcap : p.runtime.Captures) (h : t.text host ≠ "") {c : Completion}
    (hc : t.completion = some c) (hdone : Completes host p t) :
    ∃ taken rest operationId,
      SkipQueue.read PendingTurn.userMessageHash (t.digest host) (p.runtime.queue ++ [t.pending host])
        = some (taken, rest) ∧
      (p.playTurn host t).1 = .ok (some operationId) ∧
      capturedNumber (p.playTurn host t).2.store operationId = some (.int taken.turnNumber) ∧
      (p.afterTurn host t).runtime.queue = rest ∧
      (p.afterTurn host t).runtime.Captures := by
  obtain ⟨out, hout⟩ := hdone
  obtain ⟨hqueue, hcontext, -⟩ := @onTurnStart_queue host t p.runtime h
  unfold Provider.afterTurn
  unfold Provider.playTurn at hout ⊢
  rw [hc] at hout ⊢
  dsimp only at hout ⊢
  generalize p.runtime.onTurnStart host t.turnNumber t.message = rt at *
  have hcap' : rt.Captures := by rwa [Runtime.Captures, hcontext]
  have hskips : rt.skips host (c.sync t.message rt.sessionId) = false := by
    have htext : host.extractUserInstruction (c.sync t.message rt.sessionId).userContent ≠ "" := h
    simp [Runtime.skips, hcap'.1, hcap'.2, htext]
  -- the record of the turn itself is there to be found
  have hfound : ∃ r, SkipQueue.read PendingTurn.userMessageHash (t.digest host)
      (p.runtime.queue ++ [t.pending host]) = some r := by
    apply Option.ne_none_iff_exists'.mp
    intro hnone
    exact SkipQueue.read_none.mp hnone (t.pending host) (by simp) rfl
  obtain ⟨⟨taken, rest⟩, hread⟩ := hfound
  have hconsumed : rt.consumed host (c.sync t.message rt.sessionId) = (some taken.turnNumber,
      { rt with turns := ⟨Function.update rt.turns.turns rt.sessionId rest⟩ }) := by
    have htext : ((c.sync t.message rt.sessionId).current host).1 = t.text host := rfl
    have hdigest : messageHash host (t.text host) = t.digest host := rfl
    have hq : rt.turns.turns rt.sessionId = p.runtime.queue ++ [t.pending host] := hqueue
    simp only [Runtime.consumed, sync_active, htext, consume_read, hdigest, hq, hread,
      Option.map_some]
  cases hsync : rt.syncTurn host (c.sync t.message rt.sessionId) (c.meanwhile p.store) with
  | mk out' after =>
    obtain ⟨rt', s'⟩ := after
    rw [hsync] at hout
    cases hout
    obtain ⟨s₁, record, hcapture, rfl, rfl⟩ := syncTurn_ok hskips hsync
    rw [hconsumed] at hcapture ⊢
    refine ⟨taken, rest, record.operationId, hread, rfl, enqueueCapture_number hcapture, ?_, hcap'⟩
    exact Function.update_self ..

end OneTurn

/-! ### Runs of turns -/

theorem read_own {open_ : List PendingTurn} {own : PendingTurn} {taken : PendingTurn}
    {rest : List PendingTurn} (h : SkipQueue.read PendingTurn.userMessageHash own.userMessageHash
      (open_ ++ [own]) = some (taken, rest)) :
    (own.userMessageHash ∉ open_.map PendingTurn.userMessageHash → taken = own ∧ rest = []) ∧
    (own.userMessageHash ∈ open_.map PendingTurn.userMessageHash → taken ∈ open_) := by
  induction open_ with
  | nil =>
    constructor
    · intro _
      simp only [SkipQueue.read, List.nil_append, ne_eq, not_true_eq_false, decide_false,
        List.dropWhile_cons_of_neg, Bool.false_eq_true, not_false_eq_true, Option.some.injEq,
        Prod.mk.injEq] at h
      exact ⟨h.1.symm, h.2.symm⟩
    · intro hmem
      cases hmem
  | cons first others ih =>
    by_cases hfirst : first.userMessageHash = own.userMessageHash
    · simp only [SkipQueue.read, List.cons_append, hfirst, ne_eq, not_true_eq_false, decide_false,
        List.dropWhile_cons_of_neg, Bool.false_eq_true, not_false_eq_true, Option.some.injEq,
        Prod.mk.injEq] at h
      refine ⟨fun hmem => absurd ?_ hmem, fun _ => ?_⟩
      · rw [List.map_cons, hfirst]
        exact List.mem_cons_self
      · rw [← h.1]
        exact List.mem_cons_self
    · have hskip : SkipQueue.read PendingTurn.userMessageHash own.userMessageHash
          (others ++ [own]) = some (taken, rest) := by
        rw [← h]
        simp [SkipQueue.read, hfirst]
      obtain ⟨hout, hin⟩ := ih hskip
      simp only [List.map_cons, List.mem_cons, not_or]
      refine ⟨fun hmem => hout hmem.2, fun hmem => ?_⟩
      rcases hmem with he | hmem
      · exact absurd he.symm hfirst
      · exact .inr (hin hmem)

/-- No completed turn has the text of a turn that was interrupted since the last completed one;
`interrupted` has the digests of those before the list. -/
def Untangled (host : Host) : List String → List Turn → Prop
  | _, [] => True
  | interrupted, t :: turns =>
    if t.text host = "" then Untangled host interrupted turns
    else if t.completion.isNone then Untangled host (interrupted ++ [t.digest host]) turns
    else t.digest host ∉ interrupted ∧ Untangled host [] turns

theorem numbers_untangled {host : Host} {p : Provider} {turns : List Turn}
    (hcap : p.runtime.Captures)
    (hnumbers : turns.Pairwise fun a b => a.turnNumber < b.turnNumber)
    (hqueue : ∀ pending ∈ p.runtime.queue, ∀ t ∈ turns, pending.turnNumber < t.turnNumber)
    (hdone : Run.Always (Provider.afterTurn host) (Completes host) p turns) :
    Run.Always (Provider.afterTurn host) (RightNumber host) p turns ↔
      Untangled host (p.runtime.queue.map PendingTurn.userMessageHash) turns := by
  induction turns generalizing p with
  | nil => simp [Run.Always, Untangled]
  | cons t turns ih =>
    obtain ⟨hlater, hnumbers⟩ := List.pairwise_cons.mp hnumbers
    have hrest : ∀ pending ∈ p.runtime.queue, ∀ u ∈ turns, pending.turnNumber < u.turnNumber :=
      fun pending hp u hu => hqueue pending hp u (List.mem_cons_of_mem _ hu)
    rw [Run.Always, Untangled]
    by_cases hblank : t.text host = ""
    · obtain ⟨hruntime, hnone⟩ := playTurn_blank (p := p) hblank
      have hright : RightNumber host p t := by
        intro operationId hout
        rw [hnone] at hout
        cases hout
      rw [if_pos hblank, ← hruntime, ih (by rwa [hruntime]) hnumbers (by rwa [hruntime]) hdone.2]
      exact and_iff_right hright
    · rw [if_neg hblank]
      cases hc : t.completion with
      | none =>
        obtain ⟨hruntime, hnone⟩ : (p.afterTurn host t).runtime =
            p.runtime.onTurnStart host t.turnNumber t.message ∧ (p.playTurn host t).1 = .ok none :=
          playTurn_interrupted hc
        obtain ⟨hq, hcontext, -⟩ := @onTurnStart_queue host t p.runtime hblank
        rw [← hruntime] at hq hcontext
        have hright : RightNumber host p t := by
          intro operationId hout
          rw [hnone] at hout
          cases hout
        have hcap' : (p.afterTurn host t).runtime.Captures := by rwa [Runtime.Captures, hcontext]
        have hqueue' : ∀ pending ∈ (p.afterTurn host t).runtime.queue, ∀ u ∈ turns,
            pending.turnNumber < u.turnNumber := by
          intro pending hp u hu
          rw [hq, List.mem_append, List.mem_singleton] at hp
          rcases hp with hp | rfl
          · exact hrest pending hp u hu
          · exact hlater u hu
        rw [ih hcap' hnumbers hqueue' hdone.2, hq, List.map_append, Option.isNone_none, if_pos rfl]
        exact and_iff_right hright
      | some c =>
        obtain ⟨taken, rest, operationId, hread, hout, hnumber, hq, hcap'⟩ :=
          playTurn_completed hcap hblank hc hdone.1
        have hright : RightNumber host p t ↔ taken.turnNumber = t.turnNumber := by
          constructor
          · intro h
            have hsame := h operationId hout
            rw [hnumber] at hsame
            exact PyValue.int.inj (Option.some.inj hsame)
          · intro h operationId' hout'
            rw [hout] at hout'
            cases hout'
            rw [hnumber, h]
        have hread' : SkipQueue.read PendingTurn.userMessageHash (t.pending host).userMessageHash
            (p.runtime.queue ++ [t.pending host]) = some (taken, rest) := hread
        obtain ⟨hown, hother⟩ := read_own hread'
        rw [Option.isNone_some, if_neg (by decide)]
        by_cases hmem : t.digest host ∈ p.runtime.queue.map PendingTurn.userMessageHash
        · have hwrong : ¬ RightNumber host p t := by
            rw [hright]
            have hlt := hqueue taken (hother hmem) t List.mem_cons_self
            omega
          exact ⟨fun h => absurd h.1 hwrong, fun h => absurd hmem h.1⟩
        · obtain ⟨rfl, rfl⟩ := hown hmem
          have hempty : (p.afterTurn host t).runtime.queue = [] := hq
          rw [ih hcap' hnumbers (by simp [hempty]) hdone.2, hempty, hright]
          exact ⟨fun h => ⟨hmem, h.2⟩, fun h => ⟨rfl, h.2⟩⟩

/-! ### Interrupted turns with the text of the next completed one -/

def Turn.Interrupted (host : Host) (t : Turn) : Prop := t.text host ≠ "" ∧ t.completion = none

def Turn.Completed (host : Host) (t : Turn) : Prop := t.text host ≠ "" ∧ t.completion ≠ none

/-- The first completed turn of a list. -/
def NextCompleted (host : Host) (turns : List Turn) (b : Turn) : Prop :=
  ∃ between later, turns = between ++ b :: later ∧ b.Completed host ∧
    ∀ t ∈ between, ¬ t.Completed host

/-- An interrupted turn has the digest of the turn that is completed next. -/
def Repeats (host : Host) (turns : List Turn) : Prop :=
  ∃ earlier a later b, turns = earlier ++ a :: later ∧ a.Interrupted host ∧
    NextCompleted host later b ∧ a.digest host = b.digest host

section Repeats
variable {host : Host} {t b : Turn} {turns : List Turn}

theorem nextCompleted_cons : NextCompleted host (t :: turns) b ↔
    t.Completed host ∧ b = t ∨ ¬ t.Completed host ∧ NextCompleted host turns b := by
  constructor
  · rintro ⟨between, later, he, hb, hnone⟩
    cases between with
    | nil =>
      cases he
      exact .inl ⟨hb, rfl⟩
    | cons u between =>
      cases he
      exact .inr ⟨hnone _ List.mem_cons_self, between, later, rfl, hb,
        fun v hv => hnone v (List.mem_cons_of_mem _ hv)⟩
  · rintro (⟨ht, rfl⟩ | ⟨ht, between, later, rfl, hb, hnone⟩)
    · exact ⟨[], turns, rfl, ht, by simp⟩
    · refine ⟨t :: between, later, rfl, hb, fun v hv => ?_⟩
      rcases List.mem_cons.mp hv with rfl | hv
      · exact ht
      · exact hnone v hv

theorem repeats_cons : Repeats host (t :: turns) ↔
    (t.Interrupted host ∧ ∃ b, NextCompleted host turns b ∧ t.digest host = b.digest host) ∨
      Repeats host turns := by
  constructor
  · rintro ⟨earlier, a, later, b, he, ha, hb, hdigest⟩
    cases earlier with
    | nil =>
      cases he
      exact .inl ⟨ha, b, hb, hdigest⟩
    | cons u earlier =>
      cases he
      exact .inr ⟨earlier, a, later, b, rfl, ha, hb, hdigest⟩
  · rintro (⟨ht, b, hb, hdigest⟩ | ⟨earlier, a, later, b, rfl, ha, hb, hdigest⟩)
    · exact ⟨[], t, turns, b, rfl, ht, hb, hdigest⟩
    · exact ⟨t :: earlier, a, later, b, rfl, ha, hb, hdigest⟩

theorem untangled_iff (interrupted : List String) : Untangled host interrupted turns ↔
    (∀ b, NextCompleted host turns b → b.digest host ∉ interrupted) ∧ ¬ Repeats host turns := by
  induction turns generalizing interrupted with
  | nil => simp [Untangled, NextCompleted, Repeats]
  | cons t turns ih =>
    rw [Untangled]
    simp only [nextCompleted_cons, repeats_cons]
    by_cases hblank : t.text host = ""
    · have hnotCompleted : ¬ t.Completed host := fun h => h.1 hblank
      have hnotInterrupted : ¬ t.Interrupted host := fun h => h.1 hblank
      rw [if_pos hblank, ih]
      simp [hnotCompleted, hnotInterrupted]
    · rw [if_neg hblank]
      cases hc : t.completion with
      | none =>
        have hnotCompleted : ¬ t.Completed host := fun h => h.2 hc
        have hInterrupted : t.Interrupted host := ⟨hblank, hc⟩
        rw [Option.isNone_none, if_pos rfl, ih]
        simp only [hnotCompleted, hInterrupted, List.mem_append, List.mem_singleton, not_or,
          false_and, false_or, not_false_eq_true, true_and]
        constructor
        · rintro ⟨hnext, hrep⟩
          refine ⟨fun b hb => (hnext b hb).1, ?_, hrep⟩
          rintro ⟨b, hb, hdigest⟩
          exact (hnext b hb).2 hdigest.symm
        · rintro ⟨hnext, hother, hrep⟩
          exact ⟨fun b hb => ⟨hnext b hb, fun he => hother ⟨b, hb, he.symm⟩⟩, hrep⟩
      | some c =>
        have hCompleted : t.Completed host := ⟨hblank, by simp [hc]⟩
        have hnotInterrupted : ¬ t.Interrupted host := by
          rintro ⟨-, hnone⟩
          rw [hc] at hnone
          cases hnone
        rw [Option.isNone_some, if_neg (by decide), ih]
        simp [hCompleted, hnotInterrupted]

end Repeats

/-- In a run of one session whose turns are completed or interrupted, every capture has the number
of its turn unless captures are made and a turn was interrupted with the text of the turn that is
completed next. -/
theorem turn_numbers_right (host : Host) (c : RuntimeContext) (sid parent : String) (s : Store)
    (turns : List Turn) (hnumbers : turns.Pairwise fun a b => a.turnNumber < b.turnNumber)
    (hdone : Run.Always (Provider.afterTurn host) (Completes host)
      ⟨Runtime.new c sid parent, s⟩ turns) :
    Run.Always (Provider.afterTurn host) (RightNumber host) ⟨Runtime.new c sid parent, s⟩ turns ↔
      ¬ (c.agentContext = "primary" ∧ c.automaticCapture = true ∧ Repeats host turns) := by
  by_cases hcap : c.agentContext = "primary" ∧ c.automaticCapture = true
  · have hempty : (Runtime.new c sid parent).queue = [] := rfl
    have hrun := @numbers_untangled host ⟨Runtime.new c sid parent, s⟩ turns hcap hnumbers
      (by simp [hempty]) hdone
    rw [hrun, hempty, List.map_nil, untangled_iff]
    simp [hcap]
  · have hright : Run.Always (Provider.afterTurn host) (RightNumber host)
        ⟨Runtime.new c sid parent, s⟩ turns := by
      have hstep : ∀ (p : Provider) (t : Turn), ¬ p.runtime.Captures → Completes host p t →
          ¬ (p.afterTurn host t).runtime.Captures := fun p t h _ => (playTurn_uncaptured h).2
      refine Run.always_of_invariant hstep (fun p t h _ operationId hout => ?_) hcap hdone
      rw [(playTurn_uncaptured h).1] at hout
      cases hout
    exact iff_of_true hright fun h => hcap ⟨h.1, h.2.1⟩

/-! ### A turn that is started again after an interruption -/

def answered (assistantContent : String) : Completion where
  assistantContent := assistantContent
  named := false
  messages := none
  clock := ⟨fun _ => 0, fun _ => 0, 0⟩
  now := 0
  meanwhile := id

def sampleSession : Provider := ⟨Runtime.new sampleAgent "s" "", Store.empty⟩

def startedAgain : List Turn := [⟨1, "go on", none⟩, ⟨2, "go on", some (answered "done")⟩]

def startedAnew : List Turn :=
  [⟨1, "wait", none⟩, ⟨2, "go on", some (answered "done")⟩, ⟨3, "go on", some (answered "done")⟩]

/-- `sync_turn` returned. -/
def completes (host : Host) (p : Provider) (t : Turn) : Bool := (p.playTurn host t).1.isOk

theorem completes_iff {host : Host} {p : Provider} {t : Turn} :
    completes host p t = true ↔ Completes host p t := by
  unfold completes Completes
  cases (p.playTurn host t).1 with
  | ok out => exact iff_of_true rfl ⟨out, rfl⟩
  | error e => exact iff_of_false Bool.false_ne_true nofun

instance (host : Host) (p : Provider) (t : Turn) : Decidable (Completes host p t) :=
  decidable_of_iff _ completes_iff

theorem startedAgain_completes :
    Run.Always (Provider.afterTurn Host.plain) (Completes Host.plain) sampleSession startedAgain := by
  decide +kernel

/-- The capture of the second turn has the number of the first. -/
theorem repeated_text_takes_number :
    startedAgain.Pairwise (fun a b => a.turnNumber < b.turnNumber) ∧
    Run.Always (Provider.afterTurn Host.plain) (Completes Host.plain) sampleSession startedAgain ∧
    ¬ Run.Always (Provider.afterTurn Host.plain) (RightNumber Host.plain) sampleSession
      startedAgain := by
  have hnumbers : startedAgain.Pairwise fun a b => a.turnNumber < b.turnNumber := by decide
  refine ⟨hnumbers, startedAgain_completes, fun h => ?_⟩
  have hqueue : ∀ pending ∈ sampleSession.runtime.queue, ∀ t ∈ startedAgain,
      pending.turnNumber < t.turnNumber := fun _ hp => by cases hp
  have huntangled := (numbers_untangled ⟨rfl, rfl⟩ hnumbers hqueue startedAgain_completes).mp h
  exact huntangled.1 List.mem_cons_self

theorem turn_numbers_right_sample :
    Run.Always (Provider.afterTurn Host.plain) (RightNumber Host.plain) sampleSession startedAnew := by
  have hdone : Run.Always (Provider.afterTurn Host.plain) (Completes Host.plain) sampleSession
      startedAnew := by
    decide +kernel
  have huntangled : Untangled Host.plain [] startedAnew := by
    refine ⟨?_, ?_, trivial⟩ <;> decide +kernel
  exact (turn_numbers_right Host.plain sampleAgent "s" "" Store.empty startedAnew (by decide) hdone).mpr
    fun h => ((untangled_iff []).mp huntangled).2 h.2.2

end SibylMemory
