import SibylMemory.Schemas
import SibylMemory.Library.FirstIndex

/-!
# Release gates (`scripts/release_gates.py:23-277`, `389-525`)

Observations of the scenarios are aggregated into a receipt for each scenario, one for each gate and
the verdict. A mapping is the list of its items; a missing argument is an empty one.
-/

namespace SibylMemory.ReleaseGates

def SCHEMA_VERSION : String := "hermes-sibyl-release-gates/v1"
def PINNED_HERMES_VERSION : String := "0.18.2"

inductive GateName where
  | contract
  | isolation
  | integrity
  | promptSafety
  | latency
  deriving DecidableEq

def GateName.value : GateName → String
  | .contract => "hermes-provider-contract-gate"
  | .isolation => "hermes-memory-isolation-gate"
  | .integrity => "hermes-memory-integrity-gate"
  | .promptSafety => "hermes-memory-prompt-safety-gate"
  | .latency => "hermes-memory-latency-gate"

def GateName.all : List GateName := [.contract, .isolation, .integrity, .promptSafety, .latency]

inductive ScenarioStatus where
  | passed
  | failed
  | notRun
  deriving DecidableEq

structure ScenarioDefinition where
  number : Nat
  slug : String
  title : String
  gates : List GateName
  requiredChecks : List String
  mutatesStack : Bool

def SCENARIOS : List ScenarioDefinition := [
  ⟨1, "cross-session-recall", "Cross-session recall", [.contract, .promptSafety, .latency],
    ["fresh_session_recalls_correct_source", "pinned_hermes_lifecycle_passed",
     "flat_plugin_discovery_passed", "three_tools_dispatch_through_memory_manager",
     "released_hermes_helpers_only", "automatic_context_within_rendered_budget",
     "automatic_prefetch_at_most_250_ms", "capture_outside_visible_response_path",
     "unrelated_sessions_not_serialized"], true⟩,
  ⟨2, "scope-isolation", "Scope isolation", [.isolation],
    ["cross_project_recall_leakage_zero", "cross_project_mutation_success_zero",
     "raw_key_foreign_or_disallowed_success_zero", "conflicting_agent_identity_rejected",
     "missing_project_or_memory_space_restrictions_rejected"], true⟩,
  ⟨3, "offline-durability", "Offline durability", [.integrity, .latency],
    ["failed_writes_survive_restart", "offline_replay_effect_exactly_once",
     "failed_sibyl_read_does_not_fail_hermes_turn"], true⟩,
  ⟨4, "prompt-injection", "Prompt injection", [.promptSafety],
    ["stored_prompt_injection_fenced", "stored_prompt_injection_invoked_no_tools"], true⟩,
  ⟨5, "tool-privacy", "Tool privacy", [.promptSafety],
    ["tool_output_canary_absent_from_sibyl"], true⟩,
  ⟨6, "correction", "Correction", [.integrity],
    ["correction_changes_future_recall", "correction_receipt_revision_guarded"], true⟩,
  ⟨7, "branch-lineage", "Branch lineage", [.integrity],
    ["branch_parent_child_provenance_correct"], true⟩,
  ⟨8, "rewind", "Rewind", [.integrity],
    ["rewind_discarded_sources_not_current"], true⟩,
  ⟨9, "auth-failure", "Auth failure", [.isolation, .integrity],
    ["revoked_key_reads_fail_open", "revoked_key_writes_blocked_auth"], true⟩,
  ⟨10, "recovery", "Recovery", [.integrity],
    ["replacement_key_drains_backlog", "recovery_creates_no_duplicate_sources"], true⟩,
  ⟨11, "capability-confinement", "Capability confinement", [.isolation],
    ["memory_provider_profile_enforced_server_side", "all_disallowed_endpoints_return_403"], true⟩,
  ⟨12, "mutation-crash-recovery", "Mutation crash recovery", [.integrity],
    ["raw_effect_and_receipt_exactly_once", "correction_effect_and_receipt_exactly_once",
     "exposure_effect_and_receipt_exactly_once",
     "malformed_or_mismatched_receipts_preserve_outbox_rows"], true⟩,
  ⟨13, "revision-conflict", "Revision conflict", [.integrity],
    ["revision_conflict_converges_without_overwrite"], true⟩,
  ⟨14, "pre-outbox-crash", "Pre-outbox crash", [.integrity],
    ["resume_reconciliation_recovers_missing_turn_once"], true⟩,
  ⟨15, "server-log-privacy", "Server log privacy", [.promptSafety],
    ["household_canary_absent_from_hermes_logs", "household_canary_absent_from_sibyl_logs",
     "credentials_request_bodies_and_raw_goals_absent_from_logs"], true⟩]

def GATE_REQUIRED_CHECKS : GateName → List String
  | .contract =>
    ["pinned_hermes_lifecycle_passed", "flat_plugin_discovery_passed",
     "three_tools_dispatch_through_memory_manager", "released_hermes_helpers_only"]
  | .isolation =>
    ["cross_project_recall_leakage_zero", "cross_project_mutation_success_zero",
     "raw_key_foreign_or_disallowed_success_zero", "conflicting_agent_identity_rejected",
     "missing_project_or_memory_space_restrictions_rejected",
     "memory_provider_profile_enforced_server_side"]
  | .integrity =>
    ["failed_writes_survive_restart", "raw_effect_and_receipt_exactly_once",
     "correction_effect_and_receipt_exactly_once", "exposure_effect_and_receipt_exactly_once",
     "malformed_or_mismatched_receipts_preserve_outbox_rows",
     "revision_conflict_converges_without_overwrite",
     "resume_reconciliation_recovers_missing_turn_once", "rewind_discarded_sources_not_current"]
  | .promptSafety =>
    ["stored_prompt_injection_fenced", "stored_prompt_injection_invoked_no_tools",
     "tool_output_canary_absent_from_sibyl",
     "credentials_request_bodies_and_raw_goals_absent_from_logs",
     "automatic_context_within_rendered_budget"]
  | .latency =>
    ["automatic_prefetch_at_most_250_ms", "failed_sibyl_read_does_not_fail_hermes_turn",
     "capture_outside_visible_response_path", "unrelated_sessions_not_serialized"]

structure ScenarioObservation where
  scenario : String
  hermesVersion : String
  claimedPass : Bool
  checks : List (String × Bool)
  metrics : JSONObject
  evidence : JSONObject

/-! ### Receipts -/

structure ScenarioReceipt where
  definition : ScenarioDefinition
  status : ScenarioStatus
  durationMs : Int
  checks : List (String × Bool)
  missingChecks : List String
  failedChecks : List String
  metrics : JSONObject
  evidence : JSONObject
  error : String

/-- `_scenario_receipt` -/
def scenarioReceipt (definition : ScenarioDefinition) (observation : Option ScenarioObservation)
    (durationMs : Int) (error : String) : ScenarioReceipt :=
  let checks := (observation.map ScenarioObservation.checks).getD []
  let missingChecks := definition.requiredChecks.filter fun check => (checks.lookup check).isNone
  let failedChecks := definition.requiredChecks.filter fun check => checks.lookup check = some false
  let claimed := (observation.map ScenarioObservation.claimedPass).getD false
  let passed := claimed && missingChecks.isEmpty && failedChecks.isEmpty && decide (error = "")
  { definition, durationMs, checks, missingChecks, failedChecks, error
    status := if passed then .passed
      else if observation.isSome || decide (error ≠ "") then .failed else .notRun
    metrics := (observation.map ScenarioObservation.metrics).getD []
    evidence := (observation.map ScenarioObservation.evidence).getD [] }

structure GateReceipt where
  gate : GateName
  passed : Bool
  scenarioIds : List String
  checks : List (String × Option Bool)
  passedScenarios : Nat
  failedScenarios : Nat
  notRunScenarios : Nat

def statusCount (receipts : List ScenarioReceipt) (status : ScenarioStatus) : Nat :=
  receipts.countP fun receipt => receipt.status = status

/-- The check as the first member that requires it reports it. -/
def memberCheck (members : List ScenarioReceipt) (check : String) : Option Bool :=
  (members.find? fun receipt => check ∈ receipt.definition.requiredChecks).bind
    fun receipt => receipt.checks.lookup check

def gateReceipt (scenarioReceipts : List ScenarioReceipt) (gate : GateName) : GateReceipt :=
  let members := scenarioReceipts.filter fun receipt => gate ∈ receipt.definition.gates
  let checkValues := (GATE_REQUIRED_CHECKS gate).map fun check => (check, memberCheck members check)
  { gate
    passed := members.all (fun receipt => receipt.status = .passed) &&
      checkValues.all fun (_, value) => value = some true
    scenarioIds := members.map fun receipt => receipt.definition.slug
    checks := checkValues
    passedScenarios := statusCount members .passed
    failedScenarios := statusCount members .failed
    notRunScenarios := statusCount members .notRun }

structure Receipt where
  schemaVersion : String
  runId : String
  generatedAt : String
  mode : String
  hermesVersion : String
  pinnedHermesVersion : String
  releaseEligible : Bool
  passed : Bool
  expectedScenarios : Nat
  reportedScenarios : Nat
  duplicateScenarios : List String
  unknownScenarios : List String
  gates : List GateReceipt
  scenarios : List ScenarioReceipt

/-- `sorted(set(names))` -/
def sortedNames (names : List String) : List String := names.dedup.insertionSort (· ≤ ·)

def knownScenario (slug : String) : Bool := SCENARIOS.any fun definition => definition.slug = slug

/-- `aggregate_receipt`; the run's id and time are what it was given or generated. -/
def aggregateReceipt (observations : List ScenarioObservation) (mode hermesVersion : String)
    (durationsMs : List (String × Int)) (errors : List (String × String))
    (runId generatedAt : String) : Receipt :=
  let index := FirstIndex.index ScenarioObservation.scenario knownScenario observations
  let scenarioReceipts := SCENARIOS.map fun definition =>
    scenarioReceipt definition (index.get ScenarioObservation.scenario definition.slug)
      ((durationsMs.lookup definition.slug).getD 0) ((errors.lookup definition.slug).getD "")
  let gateReceipts := GateName.all.map (gateReceipt scenarioReceipts)
  let allScenariosPassed := scenarioReceipts.all fun receipt => receipt.status = .passed
  let allGatesPassed := gateReceipts.all GateReceipt.passed
  let releaseEligible := decide (mode = "real_stack" ∧ hermesVersion = PINNED_HERMES_VERSION)
  { runId, generatedAt, mode, hermesVersion, releaseEligible
    schemaVersion := SCHEMA_VERSION
    pinnedHermesVersion := PINNED_HERMES_VERSION
    passed := releaseEligible && allScenariosPassed && allGatesPassed && index.duplicates.isEmpty &&
      index.unknown.isEmpty
    expectedScenarios := SCENARIOS.length
    reportedScenarios := index.indexed.length
    duplicateScenarios := sortedNames index.duplicates
    unknownScenarios := sortedNames index.unknown
    gates := gateReceipts
    scenarios := scenarioReceipts }

end SibylMemory.ReleaseGates
