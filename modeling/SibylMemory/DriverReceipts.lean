import SibylMemory.ReleaseGates
import SibylMemory.Outbox.Redaction
import SibylMemory.Library.Fallible
import SibylMemory.Library.Substitute

/-!
# What a scenario driver reports (`scripts/release_gates.py:229-230`, `289-386`)

`run_driver` checks the payload of a driver and redacts its metrics and evidence twice, for the API
key and for the session token.
-/

namespace SibylMemory.ReleaseGates
open Substitute

/-- The secrets of `StackSettings`. -/
structure StackSettings where
  apiKey : String
  hermesSessionToken : String

/-! ### Redaction -/

def REDACTED : String := "[REDACTED]"
def BEARER_REDACTED : String := "Bearer [REDACTED]"

/-- The alternatives of `_SENSITIVE_KEY`. -/
def SENSITIVE_WORDS : List String :=
  ["apikey", "api_key", "api-key", "authorization", "credential", "secret", "token"]

def sensitiveKey (key : String) : Bool :=
  key.toList.tails.any fun cs => SENSITIVE_WORDS.any fun word =>
    (Outbox.matchWord word.toList cs).isSome

/-- `[a-z0-9._~+/=-]` without regard to case -/
def isCredentialChar (c : Char) : Bool := (Outbox.foldChar c).isLower || c.isDigit || c ∈ "._~+/=-".toList

/-- `_BEARER` -/
def bearerMatcher : Matcher Char := fun cs =>
  (Outbox.matchWord "bearer".toList cs).bind fun rest =>
    let value := rest.dropWhile Text.isSpace
    if value.length = rest.length ∨ value.takeWhile isCredentialChar = [] then none
    else some (cs.length - (value.dropWhile isCredentialChar).length)

/-- `_redact` on a string. -/
def redactText (secret text : String) : String :=
  let redacted :=
    if secret = "" then text.toList
    else substitute (wordMatcher secret.toList) REDACTED.toList text.toList
  String.ofList (substitute bearerMatcher BEARER_REDACTED.toList redacted)

mutual
/-- `_redact` -/
def redact (secret : String) : PyValue → PyValue
  | .dict entries => .dict (redactEntries secret entries)
  | .list items => .list (redactItems secret items)
  | .str text => .str (redactText secret text)
  | .none => .none
  | .bool b => .bool b
  | .int n => .int n
  | .float x => .float x
  | .tuple items => .tuple items

def redactItems (secret : String) : List PyValue → List PyValue
  | [] => []
  | item :: items => redact secret item :: redactItems secret items

def redactEntries (secret : String) : List (String × PyValue) → List (String × PyValue)
  | [] => []
  | (key, item) :: entries =>
    (key, if sensitiveKey key then .str REDACTED else redact secret item) :: redactEntries secret entries
end

/-! ### `run_driver` -/

/-- `subprocess.run` raised, or the driver ended with a status and an output that is JSON or not. -/
inductive DriverResult where
  | raised (className : String)
  | exited (status : Int) (payload : Option PyValue)

/-- What `run_driver` takes from a payload that it accepts. -/
structure DriverPayload where
  hermesVersion : String
  claimedPass : Bool
  checks : List (String × Bool)
  metrics : JSONObject
  evidence : JSONObject

def dictOf : PyValue → Option JSONObject
  | .dict entries => some entries
  | _ => none

/-- The checks, when every value is a boolean. -/
def booleanEntries : JSONObject → Option (List (String × Bool))
  | [] => some []
  | (key, .bool value) :: entries => (booleanEntries entries).map fun es => (key, value) :: es
  | _ => none

def isText (text : String) : PyValue → Bool
  | .str s => s = text
  | _ => false

def hermesVersionOf (payload : JSONObject) : Option String :=
  (dictOf (Schema.get payload "runtime")).bind fun runtime =>
    Schema.asString (Schema.get runtime "hermes_version")

def acceptPayload (scenario : ScenarioDefinition) (payload : JSONObject) :
    Except String DriverPayload := do
  if isText scenario.slug (Schema.get payload "scenario") = false then
    throw "scenario driver receipt names the wrong scenario"
  match hermesVersionOf payload with
  | none => throw "scenario driver receipt must report runtime.hermes_version"
  | some version =>
    if Text.strip version = "" then
      throw "scenario driver receipt reported an empty Hermes version"
    match (dictOf (Schema.get payload "checks")).bind booleanEntries with
    | none => throw "scenario driver checks must be a string-to-boolean object"
    | some checks =>
      let field := fun key => dictOf ((PyValue.lookup key payload).getD (.dict []))
      match field "metrics", field "evidence" with
      | some metrics, some evidence =>
        let claimedPass := match Schema.get payload "passed" with
          | .bool b => b
          | _ => false
        return { hermesVersion := Text.strip version, claimedPass, checks, metrics, evidence }
      | _, _ => throw "scenario driver metrics and evidence must be objects"

def acceptResult (scenario : ScenarioDefinition) : DriverResult → Except String DriverPayload
  | .raised className => throw ("scenario driver failed: " ++ className)
  | .exited status payload => do
    if status ≠ 0 then throw ("scenario driver exited with status " ++ toString status)
    match payload with
    | none => throw "scenario driver did not emit one JSON object"
    | some (.dict payload) => acceptPayload scenario payload
    | some _ => throw "scenario driver receipt must be a JSON object"

def DriverPayload.observation (scenario : ScenarioDefinition) (settings : StackSettings)
    (payload : DriverPayload) : ScenarioObservation :=
  let redactBoth := fun entries =>
    redactEntries settings.hermesSessionToken (redactEntries settings.apiKey entries)
  { scenario := scenario.slug
    hermesVersion := payload.hermesVersion
    claimedPass := payload.claimedPass
    checks := payload.checks
    metrics := redactBoth payload.metrics
    evidence := redactBoth payload.evidence }

def runDriver (scenario : ScenarioDefinition) (settings : StackSettings) (result : DriverResult) :
    Except String ScenarioObservation :=
  (acceptResult scenario result).map (DriverPayload.observation scenario settings)

/-! ### The strings of a receipt -/

mutual
/-- The strings at any depth, keys included. -/
def strings : PyValue → List String
  | .dict entries => stringsEntries entries
  | .list items => stringsItems items
  | .tuple items => stringsItems items
  | .str text => [text]
  | .none => []
  | .bool _ => []
  | .int _ => []
  | .float _ => []

def stringsItems : List PyValue → List String
  | [] => []
  | item :: items => strings item ++ stringsItems items

def stringsEntries : List (String × PyValue) → List String
  | [] => []
  | (key, item) :: entries => key :: strings item ++ stringsEntries entries
end

def ScenarioObservation.strings (o : ScenarioObservation) : List String :=
  o.checks.map Prod.fst ++ stringsEntries o.metrics ++ stringsEntries o.evidence

/-- The strings of a receipt that come from the drivers. -/
def Receipt.reported (receipt : Receipt) : List String :=
  receipt.hermesVersion :: receipt.scenarios.flatMap fun r =>
    r.checks.map Prod.fst ++ stringsEntries r.metrics ++ stringsEntries r.evidence

end SibylMemory.ReleaseGates
