import SibylMemory.Library.Dialogues
import SibylMemory.Operator
import SibylMemory.SavedConfiguration

/-!
# Setup (`config.py:298-390`)

`hermes memory setup` asks for the key and three settings, tries the key at Sibyl, and only then saves
the configuration, the key and the choice of the provider, in this order.
-/

namespace SibylMemory
open JsonText Text Trim

/-! ### The program -/

inductive SetupCall where
  | readConfig
  | readEnv
  | readIdentity
  | secretPrompt (label : String)
  | input (label : String)
  | activeProfile
  | authMe (baseUrl : String) (apiKey : CodePoints)
  | saveConfig (c : ProviderConfig)
  | saveKey (apiKey : String)
  | saveHermes (config : JSONObject)

@[reducible] def SetupCall.Value : SetupCall → Type
  | .readConfig => Option PyValue
  | .readEnv => Option String
  | .readIdentity => Option PyValue
  | .secretPrompt _ => String
  | .input _ => String
  | .activeProfile => String
  | .authMe _ _ => AuthMeResponse
  | .saveConfig _ => Unit
  | .saveKey _ => Unit
  | .saveHermes _ => Unit

abbrev SetupCall.Reply (c : SetupCall) : Type := Except PyException c.Value

abbrev SetupTalk (α : Type) : Type := Dialogue SetupCall SetupCall.Reply PyException α

namespace Setup

def call (c : SetupCall) : SetupTalk c.Value := .ask c .done

def valueError : PyException := ⟨"ValueError", []⟩

/-- What setup is given, and what it finds beside the files. -/
structure Installation where
  host : Host
  py : Interpreter
  bases : String → List String
  environ : Option String
  home : String
  hermesConfig : JSONObject

/-- `_prompt` -/
def prompt (label default : String) : SetupTalk String := do
  let suffix := if default = "" then "" else " [" ++ default ++ "]"
  let value ← call (.input ("  " ++ label ++ suffix ++ ": "))
  return if strip value = "" then default else strip value

/-- What was found and entered; `entered` is the key as it was typed, stripped. -/
structure Entries where
  existing : ProviderConfig
  existingKey : CodePoints
  entered : String
  baseUrl : String
  projectId : String
  memorySpaceId : String

def Entries.apiKey (e : Entries) : CodePoints :=
  if e.entered = "" then e.existingKey else points e.entered

/-- `{**asdict(existing), ...}` -/
def Entries.values (e : Entries) : JSONObject :=
  PyValue.assign "memory_space_id" (.str e.memorySpaceId)
    (PyValue.assign "project_id" (.str e.projectId)
      (PyValue.assign "base_url" (.str e.baseUrl) e.existing.asdict))

variable (m : Installation)

def raised {α : Type} (result : Except ConfigError α) : SetupTalk α :=
  .done (result.mapError (ConfigError.pyException m.bases))

/-- `load_api_key` -/
def loadKey : SetupTalk CodePoints :=
  if strip (m.environ.getD "") ≠ "" then return loadApiKey m.environ none
  else do
    let file ← call .readEnv
    return loadApiKey m.environ file

def keyPrompt (existingKey : CodePoints) : String :=
  "  Sibyl API key" ++ if existingKey = [] then "" else " (blank to keep current)"

def ask : SetupTalk Entries := do
  let file ← call .readConfig
  let existing ← raised m (loadProviderConfig m.host m.py file)
  let existingKey ← loadKey m
  let entered ← call (.secretPrompt (keyPrompt existingKey ++ ": "))
  let baseUrl ← prompt "Sibyl API base URL" existing.baseUrl
  let projectId ← prompt "Sibyl project ID" existing.projectId
  let memorySpaceId ← prompt "Sibyl memory-space ID" existing.memorySpaceId
  return ⟨existing, existingKey, strip entered, baseUrl, projectId, memorySpaceId⟩

def checked (e : Entries) : Except PyException ProviderConfig :=
  if e.apiKey = [] then .error valueError
  else match ProviderConfig.fromMapping m.host m.py e.values with
    | .error err => .error (err.pyException m.bases)
    | .ok config => if config.isComplete then .ok config else .error valueError

/-- `load_runtime_agent_id(home) or _active_runtime_agent_id()` -/
def agentId : SetupTalk String := do
  let file ← call .readIdentity
  let stored ← raised m (loadRuntimeAgentId (runtimeIdentityPath m.home) file)
  match stored with
  | some agentId => return agentId
  | none =>
    let answer ← call .activeProfile
    let profile := strip answer
    if profile = "" ∨ ':' ∈ profile.toList then .done (.error valueError)
    else return "hermes:hermes:" ++ profile

/-- `_validate_setup_credential` -/
def validateSetupCredential (config : ProviderConfig) (apiKey : CodePoints) (agentId : String) :
    SetupTalk Unit := do
  let response ← call (.authMe config.baseUrl apiKey)
  if credentialFailures response.credential ⟨config.projectId, config.memorySpaceId, some agentId⟩ = [] then
    return ()
  else .done (.error ⟨"UnsafeCredentialError", ["RuntimeError"]⟩)

/-- `hermes_config.setdefault("memory", {})`, or a new one in place of what is no mapping. -/
def memorySection (config : JSONObject) : JSONObject :=
  match PyValue.lookup "memory" config with
  | some (.dict memory) => memory
  | _ => []

def activated (config : JSONObject) : JSONObject :=
  PyValue.assign "memory" (.dict (PyValue.assign "provider" (.str "sibyl") (memorySection config))) config

/-- A key that differs from the existing one is the key that was entered. -/
def saveNewKey (e : Entries) : SetupTalk Unit :=
  if e.apiKey ≠ e.existingKey then call (.saveKey e.entered) else return ()

def save (e : Entries) (config : ProviderConfig) : SetupTalk Unit := do
  call (.saveConfig config)
  saveNewKey e
  call (.saveHermes (activated m.hermesConfig))

/-- `run_setup` -/
def runSetup : SetupTalk Unit := do
  let e ← ask m
  let config ← Dialogue.done (checked m e)
  let agentId ← agentId m
  validateSetupCredential config e.apiKey agentId
  save m e config

/-! ### The files -/

/-- The files under the home, what `save_config` was given, and what Sibyl answered to which key. -/
structure SetupFiles where
  sibylJson : Option PyValue
  env : Option String
  identity : Option PyValue
  hermes : Option JSONObject
  answered : List (String × CodePoints × AuthMeResponse)

/-- A file that is replaced: a failure leaves the old one, or comes when the new one is in place. -/
def Replaced (reply : Except PyException Unit) (s s' new : SetupFiles) : Prop :=
  s' = new ∨ reply ≠ .ok () ∧ s' = s

def respond (s : SetupFiles) : (c : SetupCall) → c.Reply → SetupFiles → Prop
  | .readConfig, .ok file, s' => file = s.sibylJson ∧ s' = s
  | .readEnv, .ok file, s' => file = s.env ∧ s' = s
  | .readIdentity, .ok file, s' => file = s.identity ∧ s' = s
  | .authMe baseUrl apiKey, .ok response, s' =>
    s' = { s with answered := (baseUrl, apiKey, response) :: s.answered }
  | .saveConfig c, reply, s' => Replaced reply s s' { s with sibylJson := some (saveProviderConfig c) }
  | .saveKey apiKey, reply, s' =>
    match saveApiKey apiKey s.env with
    | .error _ => reply ≠ .ok () ∧ s' = s
    | .ok text => Replaced reply s s' { s with env := some text }
  | .saveHermes config, reply, s' => Replaced reply s s' { s with hermes := some config }
  | _, _, s' => s' = s

/-! ### What was approved -/

/-- The identity that the key must be bound to. -/
def Identifies (s : SetupFiles) (agentId : String) : Prop :=
  loadRuntimeAgentId (runtimeIdentityPath m.home) s.identity = .ok (some agentId) ∨
    loadRuntimeAgentId (runtimeIdentityPath m.home) s.identity = .ok none ∧
      ∃ profile, profile ≠ "" ∧ ':' ∉ profile.toList ∧ agentId = "hermes:hermes:" ++ profile

/-- What was read at the start. -/
structure Entered (s₀ : SetupFiles) (e : Entries) : Prop where
  existing : loadProviderConfig m.host m.py s₀.sibylJson = .ok e.existing
  existingKey : loadApiKey m.environ s₀.env = e.existingKey
  stripped : strip e.entered = e.entered

/-- The configuration was made of the entries, and Sibyl vouched for the key with it. -/
structure Approved (s₀ s : SetupFiles) (e : Entries) (c : ProviderConfig) : Prop where
  entered : Entered m s₀ e
  accepted : ProviderConfig.fromMapping m.host m.py e.values = .ok c
  complete : c.isComplete = true
  hasKey : e.apiKey ≠ []
  safe : ∃ agentId response, Identifies m s₀ agentId ∧ (c.baseUrl, e.apiKey, response) ∈ s.answered ∧
    credentialFailures (AuthMeResponse.credential response)
      ⟨c.projectId, c.memorySpaceId, some agentId⟩ = []

/-- The key is where `load_api_key` finds it: the existing one stays, another one is saved. -/
def KeySettled (s₀ s : SetupFiles) (e : Entries) : Prop :=
  (e.apiKey = e.existingKey ∧ s.env = s₀.env) ∨
    e.apiKey ≠ e.existingKey ∧ ∃ text, saveApiKey e.entered s₀.env = .ok text ∧ s.env = some text

/-- All three files are saved. -/
structure Completed (s₀ s : SetupFiles) (e : Entries) (c : ProviderConfig) : Prop where
  approved : Approved m s₀ s e c
  config : s.sibylJson = some (saveProviderConfig c)
  key : KeySettled s₀ s e
  hermes : s.hermes = some (activated m.hermesConfig)

/-- How far setup has come: nothing is saved, or it was approved and is saved in order. -/
inductive Progress (s₀ s : SetupFiles) : Prop where
  | untouched (config : s.sibylJson = s₀.sibylJson) (env : s.env = s₀.env) (hermes : s.hermes = s₀.hermes)
  | configured (e : Entries) (c : ProviderConfig) (approved : Approved m s₀ s e c)
      (config : s.sibylJson = some (saveProviderConfig c)) (env : s.env = s₀.env)
      (hermes : s.hermes = s₀.hermes)
  | keyed (e : Entries) (c : ProviderConfig) (approved : Approved m s₀ s e c)
      (config : s.sibylJson = some (saveProviderConfig c)) (env : KeySettled s₀ s e)
      (hermes : s.hermes = s₀.hermes)
  | completed (e : Entries) (c : ProviderConfig) (completed : Completed m s₀ s e c)

end Setup

end SibylMemory
