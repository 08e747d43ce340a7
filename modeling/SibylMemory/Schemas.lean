import SibylMemory.Host

/-!
# Wire models (`schemas.py`)

The requests that outbox operations carry and the responses the client accepts
for them. An object is a list of entries with different keys, as `json.loads`
makes it; a parser returns the record or the message of the `SchemaError`.
-/

namespace SibylMemory

abbrev JSONObject := List (String × PyValue)

/-! ### Field checks (`schemas.py:45-122`) -/

namespace Schema

def object (value : PyValue) (path : String) : Except String JSONObject :=
  match value with
  | .dict entries => .ok entries
  | _ => .error (path ++ " must be an object")

/-- `value.get(key)`: a missing key reads as null. -/
def get (data : JSONObject) (key : String) : PyValue := (PyValue.lookup key data).getD .none

def requiredString (data : JSONObject) (key path : String) : Except String String :=
  match get data key with
  | .str s => .ok s
  | _ => .error (path ++ "." ++ key ++ " must be a string")

def optionalString (data : JSONObject) (key path : String) : Except String (Option String) :=
  match get data key with
  | .none => .ok none
  | .str s => .ok (some s)
  | _ => .error (path ++ "." ++ key ++ " must be a string or null")

def requiredBool (data : JSONObject) (key path : String) : Except String Bool :=
  match get data key with
  | .bool b => .ok b
  | _ => .error (path ++ "." ++ key ++ " must be a boolean")

def requiredInt (data : JSONObject) (key path : String) (minimum : Int) : Except String Int :=
  let refuse := .error (path ++ "." ++ key ++ " must be an integer >= " ++ toString minimum)
  match get data key with
  | .int n => if n < minimum then refuse else .ok n
  | _ => refuse

def optionalInt (data : JSONObject) (key path : String) (minimum : Int) :
    Except String (Option Int) :=
  let refuse := .error (path ++ "." ++ key ++ " must be an integer >= " ++ toString minimum
    ++ " or null")
  match get data key with
  | .none => .ok none
  | .int n => if n < minimum then refuse else .ok (some n)
  | _ => refuse

def asString : PyValue → Option String
  | .str s => some s
  | _ => none

def stringList (value : PyValue) (path : String) : Except String (List String) :=
  match value with
  | .list xs =>
    match xs.mapM asString with
    | some strings => .ok strings
    | none => .error (path ++ " must contain only strings")
  | _ => .error (path ++ " must be an array")

def requiredStringList (data : JSONObject) (key path : String) : Except String (List String) :=
  match PyValue.lookup key data with
  | some value => stringList value (path ++ "." ++ key)
  | none => .error (path ++ "." ++ key ++ " is required")

/-- `value.get(key, {})`: a missing key reads as an empty object, null does not. -/
def optionalObject (data : JSONObject) (key path : String) : Except String JSONObject :=
  match PyValue.lookup key data with
  | some value => object value (path ++ "." ++ key)
  | none => .ok []

theorem requiredInt_minimum {data : JSONObject} {key path : String} {minimum n : Int}
    (h : requiredInt data key path minimum = .ok n) : minimum ≤ n := by
  unfold requiredInt at h
  split at h
  · split at h
    · cases h
    · cases h
      omega
  · cases h

end Schema

/-! ### Requests (`schemas.py:151-228`) -/

structure ContextExposureRequest where
  exposedIds : List String
  projectId : String
  sessionIdHash : Option PyValue := none
  queryHash : Option PyValue := none
  automatic : Bool := true

/-- The entries of `pairs` that have a value. -/
def presentEntries (pairs : List (String × Option PyValue)) : JSONObject :=
  pairs.filterMap fun p => p.2.map fun v => (p.1, v)

theorem lookup_presentEntries (key : String) (p : String × Option PyValue)
    (pairs : List (String × Option PyValue)) :
    PyValue.lookup key (presentEntries (p :: pairs))
      = (if p.1 = key then p.2 else none).or (PyValue.lookup key (presentEntries pairs)) := by
  obtain ⟨k, v⟩ := p
  cases v with
  | none => by_cases hk : k = key <;> simp [presentEntries]
  | some v => by_cases hk : k = key <;> simp [presentEntries, PyValue.lookup, hk]

def ContextExposureRequest.toJson (r : ContextExposureRequest) : JSONObject :=
  [("exposed_ids", .list (r.exposedIds.map .str)),
    ("project_id", .str r.projectId),
    ("source_surface", .str "hermes_memory_provider"),
    ("metadata", .dict (("automatic", .bool r.automatic) :: presentEntries
      [("session_id_hash", r.sessionIdHash), ("query_hash", r.queryHash)]))]

structure RawMemoryRequest where
  title : String
  rawContent : String
  sourceId : String
  projectId : String
  metadata : PyValue
  provenance : PyValue
  tags : List String := ["hermes", "conversation", "completed-turn"]
  memoryScope : String := "project"
  captureSurface : String := "hermes_memory_provider"

/-- `dict(value)` as the request methods use it: of a mapping, a copy. -/
def dictOf : PyValue → Option PyValue
  | .dict entries => some (.dict entries)
  | _ => none

def RawMemoryRequest.toJson (r : RawMemoryRequest) : Option JSONObject := do
  let metadata ← dictOf r.metadata
  let provenance ← dictOf r.provenance
  return [("title", .str r.title), ("raw_content", .str r.rawContent), ("source_id", .str r.sourceId),
    ("memory_scope", .str r.memoryScope), ("scope_key", .str r.projectId),
    ("project_id", .str r.projectId), ("tags", .list (r.tags.map .str)), ("metadata", metadata),
    ("provenance", provenance), ("capture_surface", .str r.captureSurface)]

structure CorrectionRequest where
  action : PyValue
  reason : String
  replacementSourceId : Option PyValue := none
  duplicateOfSourceId : Option PyValue := none
  revisedContent : Option PyValue := none
  expectedRevision : Option PyValue := none
  metadata : PyValue := .dict []

def CorrectionRequest.toJson (r : CorrectionRequest) : Option JSONObject := do
  let metadata ← dictOf r.metadata
  return [("action", r.action), ("reason", .str r.reason), ("metadata", metadata)] ++ presentEntries
    [("replacement_source_id", r.replacementSourceId),
      ("duplicate_of_source_id", r.duplicateOfSourceId),
      ("revised_content", r.revisedContent), ("expected_revision", r.expectedRevision)]

/-- What `to_json` says of a correction. -/
structure CorrectionRequest.Encodes (r : CorrectionRequest) (json : JSONObject) : Prop where
  action : PyValue.lookup "action" json = some r.action
  reason : PyValue.lookup "reason" json = some (.str r.reason)
  metadata : ∃ entries, r.metadata = .dict entries ∧
    PyValue.lookup "metadata" json = some (.dict entries)
  replacementSourceId : PyValue.lookup "replacement_source_id" json = r.replacementSourceId
  duplicateOfSourceId : PyValue.lookup "duplicate_of_source_id" json = r.duplicateOfSourceId
  revisedContent : PyValue.lookup "revised_content" json = r.revisedContent
  expectedRevision : PyValue.lookup "expected_revision" json = r.expectedRevision

theorem CorrectionRequest.toJson_encodes {r : CorrectionRequest} {json : JSONObject}
    (h : r.toJson = some json) : r.Encodes json := by
  have hnil : presentEntries [] = [] := rfl
  unfold CorrectionRequest.toJson at h
  cases hm : r.metadata with
  | dict entries =>
    rw [hm] at h
    cases h
    refine ⟨rfl, rfl, ⟨entries, hm, rfl⟩, ?_, ?_, ?_, ?_⟩ <;>
      simp [lookup_presentEntries, hnil, PyValue.lookup]
  | _ => rw [hm] at h; cases h

/-! ### Responses (`schemas.py:230-250`, `437-560`) -/

structure MutationReceipt where
  operationId : String
  applied : Bool
  revision : Option Int
  affectedRecords : List String
  idempotencyKey : Option String
  replayed : Bool

def MutationReceipt.fromJson (value : PyValue) : Except String MutationReceipt := do
  let path := "response.mutation_receipt"
  let data ← Schema.object value path
  return {
    operationId := ← Schema.requiredString data "operation_id" path
    applied := ← Schema.requiredBool data "applied" path
    revision := ← Schema.optionalInt data "revision" path 1
    affectedRecords := ← Schema.requiredStringList data "affected_records" path
    idempotencyKey := ← Schema.optionalString data "idempotency_key" path
    replayed := ← Schema.requiredBool data "replayed" path }

/-- `None if value is None else MutationReceipt.from_json(value)` -/
def optionalReceipt (data : JSONObject) : Except String (Option MutationReceipt) :=
  match Schema.get data "mutation_receipt" with
  | .none => .ok none
  | value => (MutationReceipt.fromJson value).map some

structure ContextExposureResponse where
  recordedIds : List String
  excludedIds : List String
  deniedIds : List String
  mutationReceipt : MutationReceipt

def ContextExposureResponse.fromJson (value : PyValue) : Except String ContextExposureResponse := do
  let data ← Schema.object value "response"
  return {
    recordedIds := ← Schema.requiredStringList data "recorded_ids" "response"
    excludedIds := ← Schema.requiredStringList data "excluded_ids" "response"
    deniedIds := ← Schema.requiredStringList data "denied_ids" "response"
    mutationReceipt := ← MutationReceipt.fromJson (Schema.get data "mutation_receipt") }

structure RawMemoryResponse where
  id : String
  organizationId : String
  sourceId : String
  principalId : String
  memoryScope : String
  scopeKey : Option String
  title : String
  rawContent : String
  tags : List String
  metadata : JSONObject
  provenance : JSONObject
  captureSurface : Option String
  revision : Int
  mutationReceipt : Option MutationReceipt

def RawMemoryResponse.fromJson (value : PyValue) : Except String RawMemoryResponse := do
  let data ← Schema.object value "response"
  return {
    id := ← Schema.requiredString data "id" "response"
    organizationId := ← Schema.requiredString data "organization_id" "response"
    sourceId := ← Schema.requiredString data "source_id" "response"
    principalId := ← Schema.requiredString data "principal_id" "response"
    memoryScope := ← Schema.requiredString data "memory_scope" "response"
    scopeKey := ← Schema.optionalString data "scope_key" "response"
    title := ← Schema.requiredString data "title" "response"
    rawContent := ← Schema.requiredString data "raw_content" "response"
    tags := ← Schema.requiredStringList data "tags" "response"
    metadata := ← Schema.optionalObject data "metadata" "response"
    provenance := ← Schema.optionalObject data "provenance" "response"
    captureSurface := ← Schema.optionalString data "capture_surface" "response"
    revision := ← Schema.requiredInt data "revision" "response" 1
    mutationReceipt := ← optionalReceipt data }

structure CorrectionResponse where
  allowed : Bool
  applied : Bool
  intendedOutcomeSatisfied : Bool
  sourceId : String
  action : String
  reason : String
  targetLifecycleState : String
  targetLifecycleFlags : List String
  updatedReviewState : Option String
  lifecycle : JSONObject
  reflectionFinding : Option JSONObject
  affectedSourceIds : List String
  affectedDerivedIds : List String
  reversible : Bool
  recallImpact : JSONObject
  synthesisImpact : JSONObject
  auditAction : String
  policyReasons : List String
  metadata : JSONObject
  currentRevision : Option Int
  revision : Option Int
  mutationReceipt : Option MutationReceipt

def optionalFinding (data : JSONObject) : Except String (Option JSONObject) :=
  match Schema.get data "reflection_finding" with
  | .none => .ok none
  | value => (Schema.object value "response.reflection_finding").map some

def CorrectionResponse.fromJson (value : PyValue) : Except String CorrectionResponse := do
  let data ← Schema.object value "response"
  return {
    allowed := ← Schema.requiredBool data "allowed" "response"
    applied := ← Schema.requiredBool data "applied" "response"
    intendedOutcomeSatisfied := ← Schema.requiredBool data "intended_outcome_satisfied" "response"
    sourceId := ← Schema.requiredString data "source_id" "response"
    action := ← Schema.requiredString data "action" "response"
    reason := ← Schema.requiredString data "reason" "response"
    targetLifecycleState := ← Schema.requiredString data "target_lifecycle_state" "response"
    targetLifecycleFlags := ← Schema.requiredStringList data "target_lifecycle_flags" "response"
    updatedReviewState := ← Schema.optionalString data "updated_review_state" "response"
    lifecycle := ← Schema.optionalObject data "lifecycle" "response"
    reflectionFinding := ← optionalFinding data
    affectedSourceIds := ← Schema.requiredStringList data "affected_source_ids" "response"
    affectedDerivedIds := ← Schema.requiredStringList data "affected_derived_ids" "response"
    reversible := ← Schema.requiredBool data "reversible" "response"
    recallImpact := ← Schema.optionalObject data "recall_impact" "response"
    synthesisImpact := ← Schema.optionalObject data "synthesis_impact" "response"
    auditAction := ← Schema.requiredString data "audit_action" "response"
    policyReasons := ← Schema.requiredStringList data "policy_reasons" "response"
    metadata := ← Schema.optionalObject data "metadata" "response"
    currentRevision := ← Schema.optionalInt data "current_revision" "response" 1
    revision := ← Schema.optionalInt data "revision" "response" 1
    mutationReceipt := ← optionalReceipt data }

end SibylMemory
