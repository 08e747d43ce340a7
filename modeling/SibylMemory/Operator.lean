import SibylMemory.EnvFile
import SibylMemory.ToolCalls
import SibylMemory.Outbox.TimestampQueries

/-!
# Operator commands (`cli.py:55-137`)

A command reads the configuration of this machine, prints lines, and returns or raises. Which of its
`except` clauses takes an exception is a matter of the classes that the exception is an instance of.
-/

namespace SibylMemory
open Outbox Text

/-! ### Exceptions -/

/-- An exception by its class, with the names of the classes it inherits from. -/
structure PyException where
  className : String
  bases : List String
  deriving DecidableEq

/-- `isinstance(e, classes)` -/
def PyException.isA (e : PyException) (classes : List String) : Bool :=
  decide (e.className ∈ classes) || classes.any fun c => decide (c ∈ e.bases)

def configurationErrors : List String := ["OSError", "ValueError", "JSONDecodeError"]
def localErrors : List String := ["OSError", "RuntimeError", "ValueError"]
def remoteErrors : List String := ["SibylClientError", "OSError", "RuntimeError", "ValueError"]
def outboxErrors : List String := ["OSError", "sqlite3.Error", "RuntimeError"]

/-- The exceptions of `client.py`; those of the interpreter have the bases that it gives them. -/
def ClientError.pyException (bases : String → List String) : ClientError → PyException
  | .other className => ⟨className, bases className⟩
  | e => ⟨e.className, ["SibylClientError", "RuntimeError"]⟩

def Outbox.OutboxException.pyException (e : OutboxException) : PyException :=
  ⟨e.className, match e with
    | .valueError _ => []
    | .operationConflict _ => ["OutboxError", "RuntimeError"]
    | .claimLost _ => ["OutboxError", "RuntimeError"]
    | .outboxError _ => ["RuntimeError"]
    | .integrityError _ => ["sqlite3.Error"]
    | .factory _ => []
    | .unicodeEncodeError => ["UnicodeError", "ValueError"]
    | .overflowError => ["ArithmeticError"]
    | .baseException _ => []⟩

def ConfigError.pyException (bases : String → List String) : ConfigError → PyException
  | .valueError _ => ⟨"ValueError", []⟩
  | .other className => ⟨className, bases className⟩

/-- What a command has printed, and how it ended. -/
structure CommandResult (α : Type) where
  lines : List String
  ended : Except PyException α

/-! ### The operator's context (`cli.py:100-108`, `config.py:146-158`) -/

/-- What a command finds on this machine. -/
structure Machine where
  host : Host
  py : Interpreter
  bases : String → List String
  home : Except PyException String
  identityFile : String → Except PyException (Option PyValue)
  sibylJson : String → Except PyException (Option PyValue)
  environ : Option String
  envFile : String → Except PyException (Option String)
  profileName : String

structure OperatorContext where
  home : String
  config : ProviderConfig
  apiKey : JsonText.CodePoints
  agentId : String

def loadRuntimeAgentId (path : String) (file : Option PyValue) : Except ConfigError (Option String) :=
  match file with
  | none => .ok none
  | some (.dict data) =>
    match Schema.get data "agent_id" with
    | .str agentId =>
      if strip agentId = "" then .error (.valueError (path ++ " has no valid agent_id"))
      else .ok (some agentId)
    | _ => .error (.valueError (path ++ " has no valid agent_id"))
  | some _ => .error (.valueError (path ++ " must contain a JSON object"))

def runtimeIdentityPath (home : String) : String := home ++ "/state/sibyl-runtime-identity.json"

def configPath (home : String) : String := home ++ "/sibyl.json"

/-- `load_api_key` reads `.env` only when the environment has no key. -/
def Machine.apiKey (m : Machine) (home : String) : Except PyException JsonText.CodePoints :=
  if strip (m.environ.getD "") ≠ "" then .ok (loadApiKey m.environ none)
  else (m.envFile home).map (loadApiKey m.environ)

def Machine.operatorContext (m : Machine) : Except PyException OperatorContext := do
  let home ← m.home
  let identity ← m.identityFile home
  let runtimeAgentId ← (loadRuntimeAgentId (runtimeIdentityPath home) identity).mapError
    (ConfigError.pyException m.bases)
  let file ← m.sibylJson home
  let config ← (loadProviderConfig m.host m.py file).mapError (ConfigError.pyException m.bases)
  let apiKey ← m.apiKey home
  return { home, config, apiKey,
           agentId := runtimeAgentId.getD ("hermes:hermes:" ++ m.profileName) }

/-- `not context.config.is_complete or not context.api_key` -/
def OperatorContext.incomplete (c : OperatorContext) : Bool :=
  !c.config.isComplete || c.apiKey.isEmpty

def OperatorContext.requirement (c : OperatorContext) : CredentialRequirement where
  projectId := c.config.projectId
  memorySpaceId := c.config.memorySpaceId
  agentId := some c.agentId

/-! ### Counts (`cli.py:111-119`) -/

def Outbox.OperationState.value : OperationState → String
  | .pending => "pending"
  | .pendingRecovery => "pending_recovery"
  | .blockedAuth => "blocked_auth"
  | .deadLetter => "dead_letter"
  | .reconcileRevision => "reconcile_revision"

def Outbox.ResultAction.value : ResultAction → String
  | .succeed => "succeed"
  | .retry => "retry"
  | .blockAuth => "block_auth"
  | .deadLetter => "dead_letter"
  | .recover => "recover"
  | .reconcileRevision => "reconcile_revision"
  | .obsolete => "obsolete"
  | .superseded => "superseded"

def countOf (name : String) (n : Nat) : String := name ++ "=" ++ toString n

def formatCounts (snapshot : OutboxSnapshot) : String :=
  joinWith ", " ([OperationState.pending, .pendingRecovery, .blockedAuth, .reconcileRevision,
    .deadLetter].map fun state => countOf state.value (snapshot.byState state))

/-- The actions in the order of their values. -/
def sortedActions : List ResultAction :=
  [.blockAuth, .deadLetter, .obsolete, .reconcileRevision, .recover, .retry, .succeed, .superseded]

/-- The line of the outcomes: a `Counter` holds what was counted. -/
def formatOutcomes (outcomes : ResultAction → Nat) : String :=
  let counted := sortedActions.filter fun action => decide (outcomes action ≠ 0)
  if counted = [] then "none"
  else joinWith ", " (counted.map fun action => countOf action.value (outcomes action))

/-- The total of a snapshot is the number of rows: every row is in one of the states. -/
theorem snapshot_total (s : Store) (now later : Instant) :
    (s.snapshot now later).total = s.operations.rows.length := by
  show (OperationState.all.map fun state => s.operations.rows.countP fun r => decide (r.state = state)).sum
    = s.operations.rows.length
  induction s.operations.rows with
  | nil => rfl
  | cons row rows ih =>
    rw [List.length_cons, ← ih]
    cases hstate : row.state <;>
      simp [OperationState.all, hstate] <;> omega

/-! ### A machine with a safe credential -/

def operatorAnswer : JSONObject :=
  [("credential", .dict [("type", .str "api_key"), ("id", .str "k"),
      ("scopes", .list [.str "api:write"]), ("project_ids", .list [.str "project_p"]),
      ("memory_space_ids", .list [.str "m"]), ("agent_id", .str "hermes:hermes:default"),
      ("capability_profile", .str "memory_provider")]),
    ("user", .dict [])]

def sampleMachine : Machine where
  host := { Host.plain with loads := fun _ => .ok (.dict operatorAnswer) }
  py := sampleInterpreter
  bases := fun _ => []
  home := .ok "/h"
  identityFile := fun _ => .ok none
  sibylJson := fun _ =>
    .ok (some (.dict [("project_id", .str "project_p"), ("memory_space_id", .str "m")]))
  environ := some "key"
  envFile := fun _ => .ok none
  profileName := "default"

end SibylMemory
