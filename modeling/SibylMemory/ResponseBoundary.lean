import SibylMemory.ContextPack
import SibylMemory.Credentials
import SibylMemory.ErrorResponses

/-!
# What a client method raises on a response (`client.py:201-442`)

The methods turn every `ValueError` of a response into a `SibylClientError`. Two exceptions are no
`ValueError`: that of `json.loads` on a body that is nested too deep, and the `OverflowError` of a
context item whose score is an integer beyond the floats.
-/

namespace SibylMemory
open Outbox

def ClientError.isSibyl : ClientError → Bool
  | .other _ => false
  | _ => true

/-- The call returns, or raises a `SibylClientError`. -/
def Closed {α : Type} (result : Except ClientError α) : Prop :=
  ∀ e, result = .error e → e.isSibyl = true

theorem closed_ok {α : Type} (a : α) : Closed (.ok a) := fun _ h => by cases h

theorem closed_error {α : Type} {e : ClientError} :
    Closed (.error e : Except ClientError α) ↔ e.isSibyl = true :=
  ⟨fun h => h e rfl, fun h _ he => by cases he; exact h⟩

instance {α : Type} : (result : Except ClientError α) → Decidable (Closed result)
  | .ok a => .isTrue (closed_ok a)
  | .error e => decidable_of_iff (e.isSibyl = true) closed_error.symm

/-! ### The methods -/

inductive ClientCall where
  | authMe
  | contextPack (request : ContextPackRequest)
  | exposeContext (request : ContextExposureRequest) (idempotencyKey : String)
  | rememberRaw (request : RawMemoryRequest) (idempotencyKey : String)
  | previewCorrection (sourceId : String) (request : CorrectionRequest)
  | applyCorrection (sourceId : String) (request : CorrectionRequest) (idempotencyKey : String)

def ClientCall.Reply : ClientCall → Type
  | .authMe => AuthMeResponse
  | .contextPack _ => ContextPackResponse
  | .exposeContext _ _ => ContextExposureResponse
  | .rememberRaw _ _ => RawMemoryResponse
  | .previewCorrection _ _ => CorrectionResponse
  | .applyCorrection _ _ _ => CorrectionResponse

def authMeWire : WireRequest := ⟨"GET", "auth/me", [], none⟩

/-- The request that the call sends; without one it raises before sending. -/
def ClientCall.wire : ClientCall → Except ClientError WireRequest
  | .authMe => .ok authMeWire
  | .contextPack request => .ok (contextPackWire request)
  | .exposeContext request key => (Attempt.expose request).wire key
  | .rememberRaw request key => (Attempt.remember request).wire key
  | .previewCorrection sourceId request => (Attempt.preview sourceId request).wire ""
  | .applyCorrection sourceId request key => (Attempt.correct sourceId request).wire key

def ClientCall.run (host : Host) (net : WireRequest → Exchange) (requestId : String) :
    (c : ClientCall) → Except ClientError c.Reply
  | .authMe => SibylMemory.authMe host (net authMeWire) requestId
  | .contextPack req => SibylMemory.contextPack host net requestId req
  | .exposeContext req key => do
    let wire ← (Attempt.expose req).wire key
    request host net requestId wire ContextExposureResponse.fromJson
      fun response => requireMatchingReceipt (some response.mutationReceipt) key
  | .rememberRaw req key => do
    let wire ← (Attempt.remember req).wire key
    request host net requestId wire RawMemoryResponse.fromJson
      fun response => requireMatchingReceipt response.mutationReceipt key
  | .previewCorrection sourceId req => do
    let wire ← (Attempt.preview sourceId req).wire ""
    request host net requestId wire CorrectionResponse.fromJson fun _ => .ok ()
  | .applyCorrection sourceId req key => do
    let wire ← (Attempt.correct sourceId req).wire key
    request host net requestId wire CorrectionResponse.fromJson
      fun response => requireMatchingReceipt response.mutationReceipt key

/-! ### Scores out of range -/

/-- The array under a key holds an item of the kind, and those before it are well formed. -/
def ArrayReaches {α : Type} (parse : PyValue → String → Except ParseError α)
    (reaches : PyValue → String → Prop) (data : JSONObject) (key path : String) : Prop :=
  ∃ before item after, Schema.get data key = .list (before ++ item :: after) ∧
    (∃ parsed, Schema.parseItems parse (path ++ "." ++ key) 0 before = .ok parsed) ∧
    reaches item (path ++ "." ++ key ++ "[" ++ toString before.length ++ "]")

/-- The score of a context item is an integer that rounds beyond the floats, and the fields read
before it are well formed. -/
def ItemOverflows (value : PyValue) (path : String) : Prop :=
  ∃ data, value = .dict data ∧
    (∃ related, parsedArray (fun item path => checked (ContextRelatedItem.fromJson item path)) data
      "related" path = .ok related) ∧
    (∀ key ∈ ["id", "type", "name", "content"], ∃ s, Schema.get data key = .str s) ∧
    ∃ n, Schema.get data "score" = .int n ∧ 2 ^ 1024 - 2 ^ 970 ≤ n.natAbs

def SectionOverflows (value : PyValue) (path : String) : Prop :=
  ∃ data, value = .dict data ∧ ArrayReaches ContextItem.fromJson ItemOverflows data "items" path

def PackOverflows (payload : JSONObject) : Prop :=
  ArrayReaches ContextSection.fromJson SectionOverflows payload "sections" "response"

section Parsers
variable {α : Type} {data : JSONObject} {key path : String}

theorem checked_ok {x : Except String α} {a : α} : checked x = .ok a ↔ x = .ok a := by
  cases x <;> simp [checked, Except.mapError]

theorem checked_overflow (x : Except String α) : checked x ≠ .error .overflow := by
  cases x <;> simp [checked, Except.mapError]

theorem parseItems_error {parse : PyValue → String → Except ParseError α} {e : ParseError}
    (index : Nat) (items : List PyValue) :
    Schema.parseItems parse path index items = .error e ↔
      ∃ before item after, items = before ++ item :: after ∧
        (∃ parsed, Schema.parseItems parse path index before = .ok parsed) ∧
        parse item (path ++ "[" ++ toString (index + before.length) ++ "]") = .error e := by
  induction items generalizing index with
  | nil =>
    constructor
    · intro h
      cases h
    · rintro ⟨before, item, after, h, -⟩
      exact absurd h.symm (by simp)
  | cons first items ih =>
    simp only [Schema.parseItems, bind_error]
    constructor
    · rintro (h | ⟨parsed, hfirst, h | ⟨rest, -, h⟩⟩)
      · exact ⟨[], first, items, rfl, ⟨[], rfl⟩, by simpa using h⟩
      · obtain ⟨before, item, after, rfl, ⟨done, hdone⟩, herror⟩ := (ih (index + 1)).mp h
        refine ⟨first :: before, item, after, rfl, ⟨parsed :: done, ?_⟩, ?_⟩
        · rw [Schema.parseItems, hfirst, bind_ok]
          exact ⟨parsed, rfl, bind_ok.mpr ⟨done, hdone, rfl⟩⟩
        · rw [List.length_cons, Nat.add_comm before.length, ← Nat.add_assoc]
          exact herror
      · cases h
    · rintro ⟨before, item, after, hsplit, ⟨done, hdone⟩, herror⟩
      cases before with
      | nil =>
        obtain ⟨rfl, -⟩ := List.cons.inj hsplit
        exact .inl (by simpa using herror)
      | cons first' before =>
        obtain ⟨rfl, rfl⟩ := List.cons.inj hsplit
        rw [Schema.parseItems, bind_ok] at hdone
        obtain ⟨parsed, hfirst, hrest⟩ := hdone
        obtain ⟨rest, hrest, -⟩ := bind_ok.mp hrest
        refine .inr ⟨parsed, hfirst, .inl ((ih (index + 1)).mpr ⟨before, item, after, rfl,
          ⟨rest, hrest⟩, ?_⟩)⟩
        rw [List.length_cons, Nat.add_comm before.length, ← Nat.add_assoc] at herror
        exact herror

theorem parsedArray_overflow {parse : PyValue → String → Except ParseError α}
    {reaches : PyValue → String → Prop}
    (h : ∀ item path, parse item path = .error .overflow ↔ reaches item path) :
    parsedArray parse data key path = .error .overflow ↔ ArrayReaches parse reaches data key path := by
  unfold parsedArray ArrayReaches
  cases hget : Schema.get data key with
  | list items =>
    simp only [Schema.array, bind_error, reduceCtorEq, false_or, Except.ok.injEq, exists_eq_left',
      parseItems_error, h, Nat.zero_add, PyValue.list.injEq]
  | _ => simp [Schema.array, bind, Except.bind]

theorem related_overflow : parsedArray (fun item path => checked (ContextRelatedItem.fromJson item path))
    data key path ≠ .error .overflow := by
  have hnone : ∀ (item : PyValue) (path : String),
      checked (ContextRelatedItem.fromJson item path) = .error .overflow ↔ False :=
    fun _ _ => iff_of_false (checked_overflow _) id
  intro h
  obtain ⟨before, item, after, -, -, hfalse⟩ := (parsedArray_overflow hnone).mp h
  exact hfalse

theorem requiredNumber_overflow : Schema.requiredNumber data key path = .error .overflow ↔
    ∃ n, Schema.get data key = .int n ∧ 2 ^ 1024 - 2 ^ 970 ≤ n.natAbs := by
  unfold Schema.requiredNumber
  cases hget : Schema.get data key with
  | int n =>
    simp only [PyValue.int.injEq, exists_eq_left', ← Rounding.binary64_none_iff]
    cases Rounding.binary64 n <;> simp
  | _ => simp only [Except.error.injEq, reduceCtorEq, false_and, exists_false]

theorem requiredString_ok : (∃ s, Schema.requiredString data key path = .ok s) ↔
    ∃ s, Schema.get data key = .str s := by
  unfold Schema.requiredString
  cases Schema.get data key <;> simp

theorem object_ok {value : PyValue} : Schema.object value path = .ok data ↔ value = .dict data := by
  cases value <;> simp [Schema.object]

theorem contextItem_overflow (value : PyValue) (path : String) :
    ContextItem.fromJson value path = .error .overflow ↔ ItemOverflows value path := by
  unfold ContextItem.fromJson ItemOverflows
  simp only [bind_error, checked_overflow, related_overflow, false_or, checked_ok, object_ok,
    requiredNumber_overflow, pure, Except.pure, reduceCtorEq, and_false, exists_false, or_false,
    ← exists_and_right]
  constructor
  · rintro ⟨data, hdata, related, hrelated, id, hid, type, htype, name, hname, content, hcontent,
      hscore⟩
    refine ⟨data, hdata, related, hrelated, ?_, hscore⟩
    intro key hkey
    simp only [List.mem_cons, List.not_mem_nil, or_false] at hkey
    rcases hkey with rfl | rfl | rfl | rfl
    · exact requiredString_ok.mp ⟨id, hid⟩
    · exact requiredString_ok.mp ⟨type, htype⟩
    · exact requiredString_ok.mp ⟨name, hname⟩
    · exact requiredString_ok.mp ⟨content, hcontent⟩
  · rintro ⟨data, hdata, related, hrelated, hstrings, hscore⟩
    obtain ⟨id, hid⟩ := requiredString_ok.mpr (hstrings "id" (by simp))
    obtain ⟨type, htype⟩ := requiredString_ok.mpr (hstrings "type" (by simp))
    obtain ⟨name, hname⟩ := requiredString_ok.mpr (hstrings "name" (by simp))
    obtain ⟨content, hcontent⟩ := requiredString_ok.mpr (hstrings "content" (by simp))
    exact ⟨data, hdata, related, hrelated, id, hid, type, htype, name, hname, content, hcontent,
      hscore⟩

theorem contextSection_overflow (value : PyValue) (path : String) :
    ContextSection.fromJson value path = .error .overflow ↔ SectionOverflows value path := by
  unfold ContextSection.fromJson SectionOverflows
  simp only [bind_error, checked_overflow, checked_ok, object_ok, false_or,
    parsedArray_overflow contextItem_overflow, pure, Except.pure, reduceCtorEq, and_false,
    exists_false, or_false]

theorem contextPack_overflow (payload : JSONObject) :
    ContextPackResponse.fromJson (.dict payload) = .error .overflow ↔ PackOverflows payload := by
  unfold ContextPackResponse.fromJson PackOverflows
  simp only [bind_error, checked_overflow, checked_ok, object_ok, false_or,
    parsedArray_overflow contextSection_overflow, pure, Except.pure, reduceCtorEq, and_false,
    exists_false, or_false, PyValue.dict.injEq, exists_eq_left']

end Parsers

/-! ### The exceptions that escape -/

def Response.ReadInFull (r : Response) : Prop :=
  r.body.length ≤ MAX_SUCCESS_BODY_BYTES ∧ r.broken = none

/-- On the response, something other than a `SibylClientError` is raised: by `json.loads` on its
body, or by the parser on its payload. -/
def Response.Escapes (host : Host) (overflows : JSONObject → Prop) (r : Response) : Prop :=
  if r.isError then r.Crashes host
  else r.ReadInFull ∧ ((∃ className, host.loads r.body = .error (.other className)) ∨
    ∃ payload, host.loads r.body = .ok (.dict payload) ∧ overflows payload)

/-- What fails before a response is a `SibylTransportError`. -/
def Exchange.Escapes (host : Host) (overflows : JSONObject → Prop) : Exchange → Prop
  | .failed _ => False
  | .answered r => r.Escapes host overflows

/-- The payloads on which the parser of the response raises an `OverflowError`. -/
def ClientCall.Overflows : ClientCall → JSONObject → Prop
  | .contextPack _ => PackOverflows
  | _ => fun _ => False

section Calls
variable {α : Type} {host : Host} {requestId : String} {r : Response}

theorem raiseHttpError_closed :
    Closed (.error (raiseHttpError host requestId r) : Except ClientError α) ↔ ¬ r.Crashes host := by
  rw [closed_error]
  cases reading host requestId r with
  | cut hcut errorType raised =>
    rw [raised]
    exact iff_of_true rfl fun hcrash => hcut.2 hcrash.1.2
  | crashed hcrash className raised =>
    rw [raised]
    exact iff_of_false (by simp [ClientError.isSibyl]) (not_not_intro hcrash)
  | refused _ hcrash _ message id preview raised =>
    rw [raised]
    exact iff_of_true rfl hcrash
  | contract hcontract data _ _ raised =>
    refine iff_of_true ?_ ?_
    · rcases raised with raised | raised <;> rw [raised] <;> rfl
    · rintro ⟨-, className, hloads⟩
      obtain ⟨payload, _, _, hok, -⟩ := hcontract.2
      rw [hloads] at hok
      cases hok

theorem parseNumbers_closed {parser : PyValue → Except ParseError α}
    {check : α → Except String Unit} (overflows : JSONObject → Prop)
    (hparser : ∀ payload, parser (.dict payload) = .error .overflow ↔ overflows payload)
    (hsuccess : r.isError = false) :
    Closed (parseNumbers host requestId r parser check) ↔ ¬ r.Escapes host overflows := by
  unfold parseNumbers Response.Escapes Response.ReadInFull
  rw [successChunks_body, hsuccess, if_neg Bool.false_ne_true]
  by_cases hbody : r.body.length ≤ MAX_SUCCESS_BODY_BYTES
  swap
  · rw [if_neg hbody]
    exact iff_of_true (closed_error.mpr rfl) fun h => hbody h.1.1
  rw [if_pos hbody]
  cases hbroken : r.broken with
  | some errorType => exact iff_of_true (closed_error.mpr rfl) (by simp)
  | none =>
    simp only [← jsonObject_other, ← jsonObject_ok, ← hparser]
    cases hjson : jsonObject host r.body with
    | error e => cases e <;> simp [closed_error, ClientError.isSibyl, hbody]
    | ok payload =>
      dsimp only
      cases hparse : parser (.dict payload) with
      | error e => cases e <;> simp [closed_error, ClientError.isSibyl, hbody, hparse]
      | ok parsed =>
        cases hcheck : check parsed <;>
          simp [closed_ok, closed_error, ClientError.isSibyl, hparse, hcheck]

theorem request_closed {wire : WireRequest} {net : WireRequest → Exchange}
    {parser : PyValue → Except String α} {check : α → Except String Unit} :
    Closed (request host net requestId wire parser check) ↔
      ¬ (net wire).Escapes host fun _ => False := by
  unfold request Exchange.Escapes
  cases hnet : net wire with
  | failed errorType => exact iff_of_true (closed_error.mpr rfl) id
  | answered r =>
    dsimp only
    cases herror : r.isError with
    | true =>
      rw [if_pos rfl, raiseHttpError_closed, Response.Escapes, if_pos herror]
    | false =>
      rw [if_neg Bool.false_ne_true, ← parseNumbers_checked]
      exact parseNumbers_closed _ (fun payload => iff_of_false (checked_overflow _) id) herror

theorem contextPack_closed {net : WireRequest → Exchange} {req : ContextPackRequest} :
    Closed (contextPack host net requestId req) ↔
      ¬ (net (contextPackWire req)).Escapes host PackOverflows := by
  unfold contextPack Exchange.Escapes
  cases hnet : net (contextPackWire req) with
  | failed errorType => exact iff_of_true (closed_error.mpr rfl) id
  | answered r =>
    dsimp only
    cases herror : r.isError with
    | true =>
      rw [if_pos rfl, raiseHttpError_closed, Response.Escapes, if_pos herror]
    | false =>
      rw [if_neg Bool.false_ne_true]
      refine parseNumbers_closed _ (fun payload => ?_) herror
      rw [← contextPack_overflow]
      cases ContextPackResponse.fromJson (.dict payload) <;> simp [Except.map]

end Calls

/-- For every method and every answer to its request: the call returns a response of its type or
raises a `SibylClientError`, unless `json.loads` raises something other than a `ValueError` on the
body or the score of a context item is an integer out of range. -/
theorem response_boundary (host : Host) (net : WireRequest → Exchange) (requestId : String)
    (c : ClientCall) (wire : WireRequest) (hsent : c.wire = .ok wire) :
    Closed (c.run host net requestId) ↔ ¬ (net wire).Escapes host c.Overflows := by
  cases c with
  | authMe =>
    cases hsent
    exact request_closed
  | contextPack req =>
    cases hsent
    exact contextPack_closed
  | exposeContext req key =>
    rw [ClientCall.run, show (Attempt.expose req).wire key = .ok wire from hsent]
    exact request_closed
  | rememberRaw req key =>
    rw [ClientCall.run, show (Attempt.remember req).wire key = .ok wire from hsent]
    exact request_closed
  | previewCorrection sourceId req =>
    rw [ClientCall.run, show (Attempt.preview sourceId req).wire "" = .ok wire from hsent]
    exact request_closed
  | applyCorrection sourceId req key =>
    rw [ClientCall.run, show (Attempt.correct sourceId req).wire key = .ok wire from hsent]
    exact request_closed

/-! ### A score of 10³⁰⁹ -/

def hugeScorePayload : JSONObject :=
  [("sections", .list [.dict [("items", .list [.dict [("related", .list []), ("id", .str "i"),
    ("type", .str "t"), ("name", .str "n"), ("content", .str "c"), ("score", .int (10 ^ 309))]])]])]

def hugeScoreBody : List UInt8 :=
  ("\x7b\"sections\": [\x7b\"items\": [\x7b\"related\": [], \"id\": \"i\", \"type\": \"t\", ".toList
    ++ "\"name\": \"n\", \"content\": \"c\", \"score\": 1".toList ++ List.replicate 309 '0'
    ++ "\x7d]\x7d]\x7d".toList).map fun c => c.toNat.toUInt8

def hugeScoreHost : Host :=
  { Host.plain with
    loads := fun body =>
      if body = hugeScoreBody then .ok (.dict hugeScorePayload) else .error .valueError }

def hugeScore : Response where
  status := 200
  requestIdHeader := none
  chunks := [hugeScoreBody]
  chunks_ne := by decide +kernel

def samplePackRequest : ContextPackRequest where
  goal := "g"
  project := "p"
  agentId := "hermes:w:i"

theorem huge_score_escapes :
    ¬ Closed (ClientCall.run hugeScoreHost (fun _ => .answered hugeScore) "r"
      (.contextPack samplePackRequest)) := by
  decide +kernel

theorem response_boundary_sample :
    Closed (ClientCall.run hugeScoreHost (fun _ => .answered hugeScore) "r"
      (.contextPack samplePackRequest)) ↔
      ¬ (Exchange.answered hugeScore).Escapes hugeScoreHost PackOverflows :=
  response_boundary hugeScoreHost (fun _ => .answered hugeScore) "r"
    (.contextPack samplePackRequest) (contextPackWire samplePackRequest) rfl

end SibylMemory
