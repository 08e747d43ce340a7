import SibylMemory.Outbox.Conservation
import SibylMemory.Library.NestedKeys

/-!
# No secret-named field at rest

`_reject_secrets` searches the request, `json.dumps` writes it; both walk over
mappings and lists, but only `json.dumps` walks into tuples. So a stored request
has a secret-named key exactly where the request had one below a tuple.
-/

namespace SibylMemory.Outbox
open PyValue

def IsSecret (key : String) : Prop := normalizeKey key ∈ SECRET_KEYS

/-! ### What `_reject_secrets` lets pass -/

theorem passed_entries {path : String} {es : List (String × PyValue)}
    (h : rejectSecretEntries path es = .ok ()) {k : String} {v : PyValue} (hkv : (k, v) ∈ es) :
    ¬ IsSecret k ∧ ∃ path', rejectSecrets path' v = .ok () := by
  induction es with
  | nil => cases hkv
  | cons e es ih =>
    obtain ⟨key, nested⟩ := e
    simp only [rejectSecretEntries, guard_ok, bind_ok] at h
    obtain ⟨hkey, ⟨⟩, hnested, hrest⟩ := h
    rcases List.mem_cons.mp hkv with he | hes
    · cases he
      exact ⟨hkey, _, hnested⟩
    · exact ih hrest hes

theorem passed_items {path : String} {index : Nat} {xs : List PyValue}
    (h : rejectSecretItems path index xs = .ok ()) {x : PyValue} (hx : x ∈ xs) :
    ∃ path', rejectSecrets path' x = .ok () := by
  induction xs generalizing index with
  | nil => cases hx
  | cons nested xs ih =>
    simp only [rejectSecretItems, bind_ok] at h
    obtain ⟨⟨⟩, hnested, hrest⟩ := h
    rcases List.mem_cons.mp hx with rfl | hxs
    · exact ⟨_, hnested⟩
    · exact ih hrest hxs

/-- A secret-named key that was not found is below a tuple. -/
theorem passed_below_tuple {path : String} {v : PyValue} (h : rejectSecrets path v = .ok ())
    (hk : KeyIn IsSecret v) : KeyBelowTuple IsSecret v := by
  induction hk generalizing path with
  | key he hkey =>
    rw [rejectSecrets] at h
    exact absurd hkey (passed_entries h he).1
  | entry he hv ih =>
    rw [rejectSecrets] at h
    obtain ⟨-, path', hv⟩ := passed_entries h he
    exact .entry he (ih hv)
  | item hx hv ih =>
    rw [rejectSecrets] at h
    obtain ⟨path', hx'⟩ := passed_items h hx
    exact .item hx (ih hx')
  | component hx hv => exact .component hx hv

theorem canonicalRequest_secret {host : Host} {request json : PyValue} {hash : String}
    (h : canonicalRequest host request = .ok (json, hash)) :
    KeyIn IsSecret json ↔ KeyBelowTuple IsSecret request := by
  unfold canonicalRequest at h
  simp only [bind_ok] at h
  obtain ⟨⟨⟩, hreject, h⟩ := h
  split at h
  · rename_i json' hjson
    cases h
    rw [keyIn_canonical request hjson]
    exact ⟨passed_below_tuple hreject, KeyBelowTuple.keyIn⟩
  · cases h

/-! ### Rows and requests -/

/-- The operation that a call asks to insert. -/
def Call.requested (s : Store) : Call → Option NewOperation
  | .enqueue op _ => some op
  | .enqueueTurn sid factory _ _ =>
    match factory (s.nextSequence sid) with
    | .ok turn => some turn.operation
    | .error _ => none
  | .supersede _ op _ => some op
  | _ => none

theorem effect_requested {host : Host} {c : Call} {s s' : Store} {r : Reply}
    (h : Effect host s c r s') {op : NewOperation} (hreq : c.requested s = some op) :
    ∃ json hash, canonicalRequest host op.request = .ok (json, hash) := by
  cases h with
  | known valid canonical =>
    cases hreq
    exact ⟨_, _, canonical⟩
  | accept valid canonical =>
    cases hreq
    exact ⟨_, _, canonical⟩
  | turn nonempty made valid canonical =>
    simp only [Call.requested, made] at hreq
    cases hreq
    exact ⟨_, _, canonical⟩
  | supersede valid canonical =>
    cases hreq
    exact ⟨_, _, canonical⟩
  | _ => cases hreq

theorem rowChange_request {host : Host} {s : Store} {i : String} {c : Call} {r : Reply}
    {before : Option OperationRow} {row : OperationRow}
    (h : RowChange host s i c r before (some row)) :
    (∃ old, before = some old ∧ row.request = old.request) ∨
    ∃ op hash, offered (c, .ok r) = some op ∧ op.operationId = i ∧
      canonicalRequest host op.request = .ok (row.request, hash) := by
  cases h with
  | same => exact .inl ⟨row, rfl, rfl⟩
  | born offer id valid canonical fresh => exact .inr ⟨_, _, offer, id, canonical⟩
  | claimed => exact .inl ⟨_, rfl, rfl⟩
  | renewed => exact .inl ⟨_, rfl, rfl⟩
  | settled => exact .inl ⟨_, rfl, rfl⟩
  | unblocked => exact .inl ⟨_, rfl, rfl⟩
  | released => exact .inl ⟨_, rfl, rfl⟩

def Requested (host : Host) (w : World) : Prop :=
  ∀ i row, w.store.operations.find i = some row →
    ∃ e ∈ w.trace, ∃ op hash, offered e = some op ∧ op.operationId = i ∧
      canonicalRequest host op.request = .ok (row.request, hash)

theorem step_requested (host : Host) (w : World) (c : Call) (h : Requested host w) :
    Requested host (World.step host w c) := by
  rcases step_cases host w c with ⟨e, hw⟩ | ⟨r, s', heff, hw⟩
  · rw [hw]
    intro i row hrow
    obtain ⟨e', he', hop⟩ := h i row hrow
    exact ⟨e', List.mem_append_left _ he', hop⟩
  · rw [hw]
    intro i row hrow
    have hchange := effect_row heff i
    rw [hrow] at hchange
    rcases rowChange_request hchange with ⟨old, hold, hreq⟩ | ⟨op, hash, hoffer, hid, hcanon⟩
    · obtain ⟨e', he', op, hash, hoffer, hid, hcanon⟩ := h i old hold
      exact ⟨e', List.mem_append_left _ he', op, hash, hoffer, hid, by rw [hreq, hcanon]⟩
    · exact ⟨(c, .ok r), by simp, op, hash, hoffer, hid, hcanon⟩

theorem run_requested (host : Host) (calls : List Call) : Requested host (World.run host calls) :=
  Run.exec_invariant_of_step (fun w c h => step_requested host w c h)
    fun i row h => by cases h

/-- In every reachable state each stored request is what an accepted operation asked to store,
and has a secret-named key exactly where that operation had one below a tuple; a call whose
request is refused, or that raises for any other reason, changes nothing. -/
theorem secrets_at_rest (host : Host) :
    (∀ calls, ∀ row ∈ (World.run host calls).store.operations.rows,
      ∃ e ∈ (World.run host calls).trace, ∃ op, offered e = some op ∧
        op.operationId = row.operationId ∧ op.request.canonical = some row.request ∧
        (KeyIn IsSecret row.request ↔ KeyBelowTuple IsSecret op.request)) ∧
    (∀ (c : Call) (s : Store) op e, c.requested s = some op →
      canonicalRequest host op.request = .error e → ∃ e', c.exec host s = (.error e', s)) ∧
    ∀ (c : Call) (s s' : Store) e, c.exec host s = (.error e, s') → s' = s := by
  refine ⟨fun calls row hrow => ?_, fun c s op e hreq href => ?_, fun c s s' e h => exec_error h⟩
  · have hfind := (KeyedTable.find_eq_some_iff _ row.operationId row).mpr ⟨hrow, rfl⟩
    obtain ⟨e, he, op, hash, hoffer, hid, hcanon⟩ := run_requested host calls _ row hfind
    exact ⟨e, he, op, hoffer, hid, canonicalRequest_canonical hcanon, canonicalRequest_secret hcanon⟩
  · cases hexec : c.exec host s with
    | mk out s' =>
      cases out with
      | error e' => exact ⟨e', by rw [exec_error hexec]⟩
      | ok r =>
        obtain ⟨json, hash, hok⟩ := effect_requested (exec_effect hexec) hreq
        rw [hok] at href
        cases href

/-- A request with a key named `api_key` in a mapping inside a tuple. -/
def tupleRequest : PyValue :=
  .dict [("metadata", .tuple [.dict [("api_key", .str "x")]])]

theorem secret_below_tuple :
    ∃ row ∈ (World.run Host.plain
        [.enqueue { sampleOperation with request := tupleRequest } 0]).store.operations.rows,
      KeyIn IsSecret row.request := by
  -- the tuple is stored as a list, which `_reject_secrets` would have searched
  refine ⟨_, List.mem_singleton.mpr rfl, ?_⟩
  show KeyIn IsSecret (.dict [("metadata", .list [.dict [("api_key", .str "x")]])])
  have hkey : IsSecret "api_key" := by
    unfold IsSecret
    decide
  exact .entry (List.mem_singleton.mpr rfl)
    (.item (List.mem_singleton.mpr rfl) (.key (List.mem_singleton.mpr rfl) hkey))

end SibylMemory.Outbox
