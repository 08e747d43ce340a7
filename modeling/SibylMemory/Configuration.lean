import SibylMemory.Schemas
import SibylMemory.Library.Trim
import SibylMemory.Library.UrlSplit

/-!
# The provider's configuration (`config.py:17-126`, `173-211`)

A base URL is checked as `urlsplit` reads it and stored as it was given, stripped.
-/

namespace SibylMemory
open Text UrlSplit

def DEFAULT_BASE_URL : String := "http://127.0.0.1:3334/api"

structure ProviderConfig where
  baseUrl : String := DEFAULT_BASE_URL
  projectId : String := ""
  memorySpaceId : String := ""
  contextTokenBudget : Int := 900
  contextLimit : Int := 8
  contextRelatedLimit : Int := 2
  automaticCapture : Bool := true
  manualTools : Bool := true
  allowInsecureHttp : Bool := false
  deriving DecidableEq

def ProviderConfig.isComplete (c : ProviderConfig) : Bool :=
  decide (c.projectId ≠ "") && decide (c.memorySpaceId ≠ "")

/-! ### Fields (`config.py:23-62`) -/

/-- What the configuration asks the interpreter: `int(value)` with the class of what it raises, the
authorities that `urlsplit` accepts, and the addresses that `ipaddress` calls loopback. -/
structure Interpreter where
  int : PyValue → Except String Int
  int_int : ∀ n, int (.int n) = .ok n
  checkNetloc : List Char → Bool
  loopbackAddress : String → Bool

inductive ConfigError where
  | valueError (message : String)
  | other (className : String)

def lowerText (s : String) : String := String.ofList (lower s.toList)

def rstrip (c : Char) (l : List Char) : List Char := l.rdropWhile (· = c)

def asBool (value : PyValue) (field : String) : Except ConfigError Bool :=
  match value with
  | .bool b => .ok b
  | .str s =>
    if lowerText s = "true" then .ok true
    else if lowerText s = "false" then .ok false
    else .error (.valueError (field ++ " must be a boolean"))
  | _ => .error (.valueError (field ++ " must be a boolean"))

def asInt (py : Interpreter) (value : PyValue) (field : String) (minimum maximum : Int) :
    Except ConfigError Int :=
  let notInteger := ConfigError.valueError (field ++ " must be an integer")
  match value with
  | .bool _ => .error notInteger
  | value =>
    match py.int value with
    | .error className =>
      if className = "TypeError" ∨ className = "ValueError" then .error notInteger
      else .error (.other className)
    | .ok result =>
      if minimum ≤ result ∧ result ≤ maximum then .ok result
      else .error (.valueError (field ++ " must be between " ++ toString minimum ++ " and "
        ++ toString maximum))

def isLoopback (py : Interpreter) (hostname : String) : Bool :=
  decide (lowerText hostname = "localhost") || py.loopbackAddress hostname

/-- The checks of `_validate_base_url` on what `urlsplit` found. -/
def checkBaseUrl (py : Interpreter) (allowInsecureHttp : Bool) (parsed : SplitUrl) :
    Except ConfigError Unit := do
  let hostname := UrlSplit.hostname parsed.netloc
  if (parsed.scheme ≠ "http".toList ∧ parsed.scheme ≠ "https".toList) ∨ hostname = [] then
    throw (.valueError "base_url must be an absolute HTTP or HTTPS URL")
  if (username parsed.netloc).getD [] ≠ [] ∨ (password parsed.netloc).getD [] ≠ [] then
    throw (.valueError "base_url must not contain credentials")
  if parsed.query ≠ [] ∨ parsed.fragment ≠ [] then
    throw (.valueError "base_url must not contain a query or fragment")
  if ¬ "/api".toList <:+ rstrip '/' parsed.path then
    throw (.valueError "base_url must end with /api")
  if parsed.scheme = "http".toList ∧ (isLoopback py (String.ofList hostname) || allowInsecureHttp) = false then
    throw (.valueError "non-loopback HTTP requires allow_insecure_http=true")

def validateBaseUrl (py : Interpreter) (value : String) (allowInsecureHttp : Bool) :
    Except ConfigError String := do
  let normalized := rstrip '/' (strip value).toList
  match urlsplit py.checkNetloc normalized with
  | none => throw (.other "ValueError")
  | some parsed =>
    checkBaseUrl py allowInsecureHttp parsed
    return String.ofList normalized

/-- An interpreter for configurations that hold numbers. -/
def sampleInterpreter : Interpreter where
  int value :=
    match value with
    | .int n => .ok n
    | _ => .error "TypeError"
  int_int _ := rfl
  checkNetloc _ := true
  loopbackAddress text := decide (text = "127.0.0.1")

/-! ### Mappings (`config.py:81-126`) -/

/-- `str(values.get(key) or default)` -/
def textField (host : Host) (values : JSONObject) (key default : String) : String :=
  let value := Schema.get values key
  if truthy value then host.str value else default

def ProviderConfig.fromMapping (host : Host) (py : Interpreter) (values : JSONObject) :
    Except ConfigError ProviderConfig := do
  let field := fun key default => (PyValue.lookup key values).getD default
  let allowInsecureHttp ← asBool (field "allow_insecure_http" (.bool false)) "allow_insecure_http"
  let baseUrl ← validateBaseUrl py (textField host values "base_url" DEFAULT_BASE_URL)
    allowInsecureHttp
  let projectId := strip (textField host values "project_id" "")
  let memorySpaceId := strip (textField host values "memory_space_id" "")
  if projectId ≠ "" ∧ startsWith projectId "project_" = false then
    throw (.valueError "project_id must be a Sibyl project ID")
  if memorySpaceId.toList.any isSpace = true then
    throw (.valueError "memory_space_id must not contain whitespace")
  let contextTokenBudget ←
    asInt py (field "context_token_budget" (.int 900)) "context_token_budget" 1 32000
  let contextLimit ← asInt py (field "context_limit" (.int 8)) "context_limit" 1 100
  let contextRelatedLimit ←
    asInt py (field "context_related_limit" (.int 2)) "context_related_limit" 0 20
  let automaticCapture ← asBool (field "automatic_capture" (.bool true)) "automatic_capture"
  let manualTools ← asBool (field "manual_tools" (.bool true)) "manual_tools"
  return { baseUrl, projectId, memorySpaceId, contextTokenBudget, contextLimit, contextRelatedLimit,
           automaticCapture, manualTools, allowInsecureHttp }

/-! ### Files (`config.py:173-211`) -/

def ProviderConfig.asdict (c : ProviderConfig) : JSONObject :=
  [("base_url", .str c.baseUrl), ("project_id", .str c.projectId),
    ("memory_space_id", .str c.memorySpaceId), ("context_token_budget", .int c.contextTokenBudget),
    ("context_limit", .int c.contextLimit), ("context_related_limit", .int c.contextRelatedLimit),
    ("automatic_capture", .bool c.automaticCapture), ("manual_tools", .bool c.manualTools),
    ("allow_insecure_http", .bool c.allowInsecureHttp)]

/-- The value in `sibyl.json`: `json.loads` of what was dumped with sorted keys. -/
def saveProviderConfig (c : ProviderConfig) : PyValue := .dict (PyValue.sortEntries c.asdict)

def loadProviderConfig (host : Host) (py : Interpreter) (file : Option PyValue) :
    Except ConfigError ProviderConfig :=
  match file with
  | none => .ok {}
  | some (.dict values) => ProviderConfig.fromMapping host py values
  | some _ => .error (.valueError "sibyl.json must contain a JSON object")

end SibylMemory
