import SibylMemory.ToolArgs
import SibylMemory.TurnIdentities
import SibylMemory.Acceptance
import SibylMemory.Execute
import Mathlib.Data.List.TakeWhile

/-!
# Correction endpoints (`runtime.py:515-534`, `653-706`, `824-829`)

The source id is quoted into the endpoint when a correction is enqueued and read back from it
when it is executed. Between the two the endpoint is validated and classified as text.
-/

namespace SibylMemory
open PercentEncoding Outbox Text

/-! ### Reading the endpoint back -/

theorem toList_append_append (a b c : String) :
    (a ++ b ++ c).toList = a.toList ++ (b.toList ++ c.toList) := by
  rw [String.toList_append, String.toList_append, List.append_assoc]

theorem correctionEndpoint_toList (sourceId : String) : (correctionEndpoint sourceId).toList
    = correctionMarker.toList ++ ((quote sourceId).toList ++ "/corrections".toList) :=
  toList_append_append correctionMarker _ _

theorem correctionEndpoint_source (sourceId : String) :
    correctionSourceId (correctionEndpoint sourceId) = .ok sourceId := by
  have hstart : startsWith (correctionEndpoint sourceId) correctionMarker = true :=
    startsWith_append (startsWith_append (by decide))
  rw [correctionSourceId, hstart, correctionEndpoint_end, Bool.and_self, if_pos rfl,
    correctionEndpoint_toList, ← String.length_toList, ← String.length_toList]
  dsimp only
  rw [List.drop_left, List.length_append, Nat.add_sub_cancel, List.take_left, String.ofList_toList,
    unquote_quote]

theorem rstripSlash_eq {s : String} {c : Char} (hc : c ≠ '/') (h : s.toList.getLast? = some c) :
    rstripSlash s = s := by
  obtain ⟨l, hl⟩ := List.getLast?_eq_some_iff.mp h
  have hkeep : (s.toList.reverse.dropWhile (· = '/')) = s.toList.reverse := by
    rw [hl, List.reverse_append, List.reverse_singleton, List.singleton_append]
    exact List.dropWhile_cons_of_neg (by simpa using hc)
  rw [rstripSlash, hkeep, List.reverse_reverse, String.ofList_toList]

theorem correctionEndpoint_recovery (sourceId : String) :
    recoveryKindForEndpoint (correctionEndpoint sourceId) = .correction := by
  have hquery : (correctionEndpoint sourceId).toList.takeWhile (· ≠ '?')
      = (correctionEndpoint sourceId).toList := by
    refine List.takeWhile_eq_self_iff.mpr fun c hc => decide_eq_true fun he => ?_
    rw [he] at hc
    exact correctionEndpoint_avoids sourceId (by decide) (by decide) (by decide) (by decide) hc
  have hlast : (correctionEndpoint sourceId).toList.getLast? = some 's' := by
    have hs : "/corrections".toList.getLast? = some 's' := by decide
    rw [correctionEndpoint_toList, List.getLast?_append, List.getLast?_append, hs, Option.some_or,
      Option.some_or]
  have hexpose : endsWith (correctionEndpoint sourceId) "/memory/expose" = false :=
    endsWith_other (correctionEndpoint_end sourceId) (by decide) (by decide)
  rw [recoveryKindForEndpoint, hquery, String.ofList_toList, rstripSlash_eq (by decide) hlast,
    correctionEndpoint_not_raw, hexpose, correctionEndpoint_end]
  rfl

/-! ### The way of a correction -/

def correctionKinds : List String := ["manual_correction", "rewind_correction"]

/-- A source id makes its way through the outbox: its endpoint is accepted, classified, dispatched
and read back. -/
structure RoundTrip (host : Host) (sourceId : String) : Prop where
  accepted : ∀ op : NewOperation, op.endpoint = correctionEndpoint sourceId →
    op.operationId ≠ "" → op.idempotencyKey ≠ "" → op.kind ∈ correctionKinds →
    op.httpMethod = "POST" → op.dependsOn ≠ some op.operationId → validateOperation op = .ok ()
  recovery : recoveryKindForEndpoint (correctionEndpoint sourceId) = .correction
  decoded : correctionSourceId (correctionEndpoint sourceId) = .ok sourceId
  dispatched : ∀ (s : Store) (op : ClaimedOperation), op.endpoint = correctionEndpoint sourceId →
    op.kind ∈ correctionKinds → beginAttempt host s op = correctionAttempt host s op
  sent : ∀ (s : Store) (op : ClaimedOperation) (attempt : Attempt) (wire : WireRequest),
    op.endpoint = correctionEndpoint sourceId → op.kind ∈ correctionKinds →
    beginAttempt host s op = .ok attempt → attempt.wire op.idempotencyKey = .ok wire →
    correctionPath sourceId (decide (op.state = .reconcileRevision)) = .ok wire.path

section RoundTrips
variable {host : Host} {s : Store} {op : ClaimedOperation} {sourceId : String}

theorem correctionKinds_facts {kind : String} (h : kind ∈ correctionKinds) :
    kind ≠ "" ∧ kind ≠ "context_exposure" := by
  simp only [correctionKinds, List.mem_cons, List.not_mem_nil, or_false] at h
  rcases h with rfl | rfl <;> decide

theorem correction_dispatched (hend : op.endpoint = correctionEndpoint sourceId)
    (hkind : op.kind ∈ correctionKinds) :
    beginAttempt host s op = correctionAttempt host s op := by
  rw [beginAttempt, hend, correctionEndpoint_not_raw, if_neg (by decide),
    if_neg (correctionKinds_facts hkind).2, correctionEndpoint_end, if_pos rfl]

theorem mutationRequest_path {path key : String} {payload : Option JSONObject} {wire : WireRequest}
    (h : mutationRequest path payload key = .ok wire) : wire.path = path := by
  unfold mutationRequest at h
  cases payload with
  | none => cases h
  | some payload =>
    dsimp only at h
    cases hkey : normalizeIdempotencyKey key with
    | error e => rw [hkey] at h; cases h
    | ok key => rw [hkey] at h; cases h; rfl

theorem correction_sent_to {attempt : Attempt} {wire : WireRequest} {key : String}
    (hend : op.endpoint = correctionEndpoint sourceId)
    (h : correctionAttempt host s op = .ok attempt) (hw : attempt.wire key = .ok wire) :
    correctionPath sourceId (decide (op.state = .reconcileRevision)) = .ok wire.path := by
  rw [correctionAttempt, hend, correctionEndpoint_source] at h
  cases hdata : hydrate s op with
  | none =>
    rw [hdata] at h
    cases h
    cases hw
  | some data =>
    rw [hdata] at h
    simp only [bind_ok] at h
    obtain ⟨source, ⟨⟩, request, -, h⟩ := h
    split at h
    · rename_i hstate
      cases h
      simp only [Attempt.wire, bind_ok] at hw
      obtain ⟨path, hpath, hw⟩ := hw
      cases hjson : request.toJson with
      | none => rw [hjson] at hw; cases hw
      | some payload =>
        rw [hjson] at hw
        cases hw
        rw [decide_eq_true hstate, hpath]
    · rename_i hstate
      cases h
      simp only [Attempt.wire, bind_ok] at hw
      obtain ⟨path, hpath, hw⟩ := hw
      rw [decide_eq_false hstate, hpath, mutationRequest_path hw]

theorem roundTrip (host : Host) (sourceId : String) : RoundTrip host sourceId where
  accepted := fun op hend hid hkey hkind hmethod hdep =>
    validateOperation_ok hid hkey (correctionKinds_facts hkind).1
      (by rw [hend]; exact correctionEndpoint_valid sourceId) hmethod hdep
  recovery := correctionEndpoint_recovery sourceId
  decoded := correctionEndpoint_source sourceId
  dispatched := fun _ _ hend hkind => correction_dispatched hend hkind
  sent := fun _ _ _ _ hend hkind hbegun hw => by
    rw [correction_dispatched hend hkind] at hbegun
    exact correction_sent_to hend hbegun hw

end RoundTrips

/-- Every source id that the tool accepts and every one that a turn has comes back from its endpoint,
and the operation that the tool enqueues for it is accepted. -/
theorem correction_round_trip (host : Host) :
    (∀ args parsed apply, CorrectionToolArgs.parse args = .ok (parsed, apply) →
      RoundTrip host parsed.sourceId ∧
      ∀ c sessionId callIdentity revision,
        validateOperation (correctOperation host c sessionId callIdentity parsed revision) = .ok ()) ∧
    ∀ (x : TurnArguments) i, x.identity host = .ok i → RoundTrip host i.sourceId := by
  refine ⟨fun args parsed apply _ => ⟨roundTrip host _, fun c sessionId callIdentity revision => ?_⟩,
    fun x i _ => roundTrip host _⟩
  refine (roundTrip host parsed.sourceId).accepted _ rfl (hashParts_digest host _).1
    (append_ne_empty (by decide)) (List.mem_cons_self : "manual_correction" ∈ correctionKinds) rfl
    fun h => by cases h

/-- A source id that looks like an endpoint, and that of a turn. -/
theorem correction_round_trip_sample :
    RoundTrip Host.plain "a%2F/memory/raw?/corrections" ∧
    ∃ i, (firstTurn "a" "b").identity Host.plain = .ok i ∧ RoundTrip Host.plain i.sourceId := by
  obtain ⟨htool, hturn⟩ := correction_round_trip Host.plain
  obtain ⟨parsed, hparsed, hsource⟩ :=
    @parse_hideArgs "a%2F/memory/raw?/corrections" (by decide) (by decide)
  exact ⟨hsource ▸ (htool _ parsed false hparsed).1, _, rfl, hturn (firstTurn "a" "b") _ rfl⟩

end SibylMemory
