import SibylMemory.Acceptance
import SibylMemory.TurnIdentities
import SibylMemory.Outbox.Sequences

/-!
# Source ids of turns (`capture.py:76-118`, `outbox.py:532-633`)

The parts of a source id can be read back from it, so that turns at two positions have two ids
and the index takes every turn that a derived identity names.
-/

namespace SibylMemory
open Outbox

/-- The source id of an identity that was derived for the position. -/
def DerivedFor (host : Host) (sid : String) (n : Nat) (src : String) : Prop :=
  ∃ (x : TurnArguments) (i : TurnIdentity), x.identity host = .ok i ∧ x.sessionId = sid ∧
    x.localSequence = n ∧ i.sourceId = src

/-- The turns that the call indexes have derived source ids, of any agent and any texts. -/
def Derives (host : Host) : Call → Prop
  | .enqueueTurn sid factory _ _ =>
    ∀ n made, factory n = .ok made → DerivedFor host sid n made.sourceId
  | .indexTurn sid n _ src _ _ => DerivedFor host sid n.toNat src
  | _ => True

def DerivedIndex (host : Host) (s : Store) : Prop :=
  ∀ t ∈ s.turns.rows, DerivedFor host t.sessionId t.localSequence t.sourceId

section Index
variable {host : Host} {s s' : Store}

theorem DerivedFor.position {sid sid' : String} {n n' : Nat} {src : String}
    (h : DerivedFor host sid n src) (h' : DerivedFor host sid' n' src) : sid = sid' ∧ n = n' := by
  obtain ⟨x, i, hi, rfl, rfl, rfl⟩ := h
  obtain ⟨y, j, hj, rfl, rfl, he⟩ := h'
  obtain ⟨-, -, hsrc⟩ := identity_ok hi
  obtain ⟨-, -, hsrc'⟩ := identity_ok hj
  rw [hsrc, hsrc'] at he
  obtain ⟨-, hsid, hn, -⟩ := turnSourceId_inj he
  exact ⟨hsid.symm, hn.symm⟩

theorem capture_derives (host : Host) (c : RuntimeContext) (sid parent userContent
    assistantContent : String) (turnNumber : Option Int) (now : Instant) :
    Derives host (.enqueueTurn sid
      (captureFactory host c sid parent turnNumber userContent assistantContent) parent now) := by
  intro n made h
  obtain ⟨identity, hash, hi, -, rfl⟩ := captureFactory_ok h
  exact ⟨⟨c.agentId, sid, n, turnNumber, userContent, assistantContent⟩, identity, hi, rfl, rfl,
    rfl⟩

theorem exec_derivedIndex {c : Call} {r : Reply} (h : c.exec host s = (.ok r, s'))
    (hc : Derives host c) (hs : DerivedIndex host s) : DerivedIndex host s' := by
  intro t ht
  by_cases hindex : ∃ sid n oid src digest now, c = .indexTurn sid n oid src digest now
  · obtain ⟨sid, n, oid, src, digest, now, rfl⟩ := hindex
    obtain ⟨b, hb, rfl⟩ := replyWith_ok h
    obtain ⟨-, hturns⟩ := indexTurn_ok hb
    rcases hturns t ht with ht | ⟨rfl, hseq, rfl⟩
    · exact hs t ht
    · exact hseq ▸ hc
  · have hni : ∀ sid n oid src digest now, c ≠ .indexTurn sid n oid src digest now :=
      fun sid n oid src digest now he => hindex ⟨sid, n, oid, src, digest, now, he⟩
    rcases effect_turn_row (exec_effect h) hni ht with ⟨t₀, ht₀, hsid, hseq, -, hsrc, -⟩ |
      ⟨factory, parent, now, made, rfl, hmade, hseq, -, hsrc, -⟩
    · rw [← hsid, ← hseq, ← hsrc]
      exact hs t₀ ht₀
    · rw [hseq, hsrc]
      exact hc _ made hmade

theorem run_derivedIndex (host : Host) {calls : List Call} (h : ∀ c ∈ calls, Derives host c) :
    DerivedIndex host (World.run host calls).store := by
  have hguard : Run.Always (World.step host) (fun _ c => Derives host c) World.start calls :=
    (Run.always_iff_forall _ _).mpr fun l₁ c l₂ he => h c (by rw [he]; simp)
  refine Run.exec_invariant (I := fun w => DerivedIndex host w.store) (fun w c hw hc => ?_)
    (fun t ht => by cases ht) hguard
  unfold World.step
  cases hexec : c.exec host w.store with
  | mk out s' =>
    cases out with
    | error e =>
      rw [exec_error hexec]
      exact hw
    | ok r => exact exec_derivedIndex hexec hc hw

end Index

/-- A source id determines the turn up to its digest, and in every interleaving of calls whose turns
have derived source ids `enqueue_turn` does not find its source id taken. -/
theorem source_ids_decode (host : Host) :
    (∀ (x y : TurnArguments) i j, x.identity host = .ok i → y.identity host = .ok j →
      i.sourceId = j.sourceId → x.agentId = y.agentId ∧ x.sessionId = y.sessionId ∧
        x.localSequence = y.localSequence ∧ x.effectiveTurn = y.effectiveTurn ∧
        i.turnHash.toList.take 16 = j.turnHash.toList.take 16) ∧
    ∀ calls, (∀ c ∈ calls, Derives host c) → ∀ sid factory parent now s',
      Derives host (.enqueueTurn sid factory parent now) →
      enqueueTurn host sid factory parent now (World.run host calls).store
        = (.error (.integrityError "session_turns.source_id"), s') →
      factory ((World.run host calls).store.nextSequence sid)
        = .error (.integrityError "session_turns.source_id") := by
  refine ⟨fun x y i j hi hj he => ?_, fun calls hcalls sid factory parent now s' hderives h => ?_⟩
  · obtain ⟨-, -, hsrc⟩ := identity_ok hi
    obtain ⟨-, -, hsrc'⟩ := identity_ok hj
    rw [hsrc, hsrc'] at he
    exact turnSourceId_inj he
  · rcases enqueueTurn_integrity (by decide) h with h | ⟨made, hmade, h⟩
    · exact h
    rcases insertTurn_error h with ⟨h, -⟩ | ⟨h, -⟩ | ⟨-, t, ht, hsrc⟩
    · simp at h
    · simp at h
    · -- the row with this source id would stand at the session's next number
      have hold := run_derivedIndex host hcalls t ht
      rw [hsrc] at hold
      obtain ⟨hsid, hseq⟩ := hold.position (hderives _ made hmade)
      have hlt := (run_sequenced host calls sid).indexed t ht hsid
      omega

def repeatedTurn : Nat → Except OutboxException NewTurnOperation :=
  captureFactory Host.plain sampleAgent "s" "" none "a" "b"

/-- Two turns whose digests begin alike share their source id; the second turn of a session is not
refused, though it repeats the texts of the first. -/
theorem source_ids_decode_plain :
    (turnHash Host.plain "12345678" "a").toList.take 16
      = (turnHash Host.plain "12345678" "b").toList.take 16 ∧
    (World.run Host.plain [.enqueueTurn "s" repeatedTurn "" 0]).store.nextSequence "s" = 2 ∧
    ∀ s' : Store, enqueueTurn Host.plain "s" repeatedTurn "" 1
        (World.run Host.plain [.enqueueTurn "s" repeatedTurn "" 0]).store
      ≠ (.error (.integrityError "session_turns.source_id"), s') := by
  obtain ⟨hids, hruns⟩ := source_ids_decode Host.plain
  obtain ⟨-, -, -, -, hfirst⟩ := hids (firstTurn "12345678" "a") (firstTurn "12345678" "b") _ _ rfl
    rfl (by decide +kernel)
  have hderives (now : Instant) : Derives Host.plain (.enqueueTurn "s" repeatedTurn "" now) :=
    capture_derives Host.plain sampleAgent "s" "" "a" "b" none now
  have hnext : (World.run Host.plain [.enqueueTurn "s" repeatedTurn "" 0]).store.nextSequence "s" = 2 := by
    decide +kernel
  refine ⟨hfirst, hnext, fun s' h => ?_⟩
  have hfactory := hruns _ (List.forall_mem_singleton.mpr (hderives 0)) "s" _ "" 1 s' (hderives 1) h
  obtain ⟨made, hmade⟩ := captureFactory_total Host.plain sampleAgent "s" "" "a" "b" (n := 2) (by decide)
  rw [hnext] at hfactory
  cases hfactory.symm.trans hmade

end SibylMemory
