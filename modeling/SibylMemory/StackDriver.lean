import SibylMemory.DriverReceipts
import SibylMemory.Library.Dialogues
import SibylMemory.Library.PercentEncoding

/-!
# The real-stack driver (`scripts/real_stack_driver.py`)

A driver reads one request from its standard input, asks Hermes and Sibyl, and writes one receipt.
Fourteen of the fifteen scenarios need hooks that no disposable stack has: the driver checks the
stack and reports them as blocked.
-/

namespace SibylMemory.StackDriver
open ReleaseGates Schema

def PROTOCOL_VERSION : String := "hermes-sibyl-public-e2e/v1"
def MAX_RESPONSE_BYTES : Nat := 1048576
def HERMES_STATUS_PATH : String := "api/status"
def HERMES_MEMORY_PATH : String := "api/memory"
def SIBYL_AUTH_PATH : String := "auth/me"

inductive DriverError where
  | failed (message : String)
  | missingHook (scenario : String) (hooks : List String)
  /-- an exception that is no `DriverError` -/
  | other (className : String)

def MISSING_HOOKS : List (String × List String) := [
  ("cross-session-recall", ["isolated_profile_project_and_agent_key"]),
  ("scope-isolation", ["two_isolated_profiles_projects_and_agent_keys"]),
  ("offline-durability", ["sibyl_network_partition_and_hermes_process_restart"]),
  ("prompt-injection", ["isolated_memory_fixture_and_tool_invocation_observer"]),
  ("tool-privacy", ["deterministic_tool_output_canary"]),
  ("correction", ["isolated_recallable_source_fixture"]),
  ("branch-lineage", ["isolated_branchable_hermes_session"]),
  ("rewind", ["isolated_rewindable_hermes_session"]),
  ("auth-failure", ["provider_key_revocation"]),
  ("recovery", ["provider_key_rotation"]),
  ("capability-confinement", []),
  ("mutation-crash-recovery", ["raw_effect_before_receipt_crash",
    "correction_effect_before_receipt_crash", "exposure_effect_before_receipt_crash"]),
  ("revision-conflict", ["provider_partition_and_concurrent_source_mutation"]),
  ("pre-outbox-crash", ["sync_turn_pre_outbox_crash"]),
  ("server-log-privacy", ["hermes_and_sibyl_log_snapshot"])]

/-- What the driver takes from the interpreter. -/
structure DriverHost where
  /-- `json.loads`; `none` stands for the decoding errors that the driver handles -/
  loads : List UInt8 → Except (Option String) PyValue
  loadsText : String → Except (Option String) PyValue
  repr : PyValue → String
  rpcRequestId : String
  /-- the clients of `PublicStackDriver.__init__` -/
  connect : String → String → Except String Unit

/-! ### Requests (`real_stack_driver.py:59-108`) -/

structure DriverRequest where
  scenario : String
  requiredChecks : List String
  mutatesStack : Bool
  hermesUrl : String
  sibylUrl : String
  profile : String
  expectedHermesVersion : String
  deriving DecidableEq

def stringArray : PyValue → Option (List String)
  | .list items => items.mapM asString
  | _ => none

def asBoolean : PyValue → Option Bool
  | .bool b => some b
  | _ => none

/-- `isinstance(value, str) and value` -/
def nonEmptyText (value : PyValue) : Option String :=
  (asString value).bind fun s => if s = "" then none else some s

def DriverRequest.parse (payload : PyValue) (scenarioArgument : String) :
    Except DriverError DriverRequest :=
  match ReleaseGates.dictOf payload with
  | none => .error (.failed "driver request must be a JSON object")
  | some payload =>
    if ReleaseGates.isText "hermes-sibyl-release-gates/v1" (get payload "schema_version") = false then
      .error (.failed "driver request has an unsupported schema_version")
    else
      match ReleaseGates.dictOf (get payload "scenario"), ReleaseGates.dictOf (get payload "stack") with
      | some scenario, some stack =>
        if ReleaseGates.isText scenarioArgument (get scenario "slug") = false ∨
            (MISSING_HOOKS.lookup scenarioArgument).isNone = true then
          .error (.failed "driver request names an unknown or mismatched scenario")
        else
          match stringArray (get scenario "required_checks") with
          | none => .error (.failed "driver request required_checks must be a string array")
          | some requiredChecks =>
            match asBoolean (get scenario "mutates_stack") with
            | none => .error (.failed "driver request mutates_stack must be boolean")
            | some mutatesStack =>
              match nonEmptyText (get stack "hermes_url"), nonEmptyText (get stack "sibyl_url"),
                nonEmptyText (get stack "profile"),
                nonEmptyText (get stack "expected_hermes_version") with
              | some hermesUrl, some sibylUrl, some profile, some expectedHermesVersion =>
                .ok { scenario := scenarioArgument, requiredChecks, mutatesStack, hermesUrl, sibylUrl,
                      profile, expectedHermesVersion }
              | _, _, _, _ =>
                .error (.failed "driver request stack fields must be non-empty strings")
      | _, _ => .error (.failed "driver request is missing scenario or stack")

/-! ### Calls (`real_stack_driver.py:116-266`) -/

inductive DriverCall where
  | hermes (method path : String) (params : List (String × String))
  | rpc (method : String) (params : JSONObject)
  | sibyl (method path : String) (payload : Option JSONObject)

/-- An `httpx.HTTPError`, or another exception by its class name. -/
inductive HttpFault where
  | httpError
  | other (className : String)

structure StackResponse where
  status : Nat
  isRedirect : Bool
  chunks : List (List UInt8)
  broken : Option HttpFault

inductive HttpReply where
  | answered (response : StackResponse)
  | failed (fault : HttpFault)

inductive Frame where
  | text (s : String)
  | binary

/-- The frames that arrive before the connection ends; the end, like a failure to connect, is an
exception. -/
abbrev RpcReply := List Frame

def DriverCall.Reply : DriverCall → Type
  | .hermes _ _ _ => HttpReply
  | .rpc _ _ => RpcReply
  | .sibyl _ _ _ => HttpReply

/-- The calls of the driver, in the order in which it makes them. -/
abbrev Talk (α : Type) : Type := Dialogue DriverCall DriverCall.Reply DriverError α

/-- The body of a response, or the message about it. -/
def readChunks (label : String) (body : List UInt8) :
    List (List UInt8) → Except DriverError (List UInt8)
  | [] => .ok body
  | chunk :: chunks =>
    if MAX_RESPONSE_BYTES < body.length + chunk.length then
      .error (.failed (label ++ " response exceeded size limit"))
    else readChunks label (body ++ chunk) chunks

def HttpFault.error (label : String) : HttpFault → DriverError
  | .httpError => .failed (label ++ " request failed")
  | .other className => .other className

/-- The response of a stream that is no redirect, with its body. -/
def streamed (label : String) : HttpReply → Except DriverError (StackResponse × List UInt8)
  | .failed fault => .error (fault.error label)
  | .answered response =>
    if response.isRedirect then .error (.failed (label ++ " returned a redirect"))
    else
      match readChunks label [] response.chunks, response.broken with
      | .error e, _ => .error e
      | .ok _, some fault => .error (fault.error label)
      | .ok body, none => .ok (response, body)

/-- `JSONHTTPClient.request` -/
def requestJson (h : DriverHost) (label : String) (reply : HttpReply) : Except DriverError JSONObject :=
  match streamed label reply with
  | .error e => .error e
  | .ok (response, body) =>
    if response.status ≠ 200 then
      .error (.failed (label ++ " returned HTTP " ++ toString response.status ++ ", expected 200"))
    else
      match h.loads body with
      | .error none => .error (.failed (label ++ " returned malformed JSON"))
      | .error (some className) => .error (.other className)
      | .ok (.dict decoded) => .ok decoded
      | .ok _ => .error (.failed (label ++ " returned a non-object response"))

/-- `JSONHTTPClient.status` -/
def requestStatus (label : String) (reply : HttpReply) : Except DriverError Nat :=
  (streamed label reply).map fun out => out.1.status

/-- The loop of `WebSocketHermesRPC.call`. -/
def rpcResult (h : DriverHost) (method : String) : RpcReply → Except DriverError JSONObject
  | [] => .error (.failed ("Hermes RPC method " ++ h.repr (.str method) ++ " was unavailable"))
  | .binary :: _ => .error (.failed "Hermes RPC returned a binary frame")
  | .text frame :: frames =>
    match h.loadsText frame with
    | .error none => .error (.failed "Hermes RPC returned malformed JSON")
    | .error (some _) =>
      .error (.failed ("Hermes RPC method " ++ h.repr (.str method) ++ " was unavailable"))
    | .ok payload =>
      match ReleaseGates.dictOf payload with
      | none => rpcResult h method frames
      | some payload =>
        if ReleaseGates.isText h.rpcRequestId (get payload "id") = false then rpcResult h method frames
        else if (PyValue.lookup "error" payload).isSome then
          .error (.failed ("Hermes RPC method " ++ h.repr (.str method) ++ " failed"))
        else
          match ReleaseGates.dictOf (get payload "result") with
          | some result => .ok result
          | none =>
            .error (.failed ("Hermes RPC method " ++ h.repr (.str method) ++ " returned no object"))

def askHermes (h : DriverHost) (method path : String) (params : List (String × String)) :
    Talk JSONObject :=
  .ask (.hermes method path params) fun reply => .done (requestJson h (method ++ " " ++ path) reply)

def callRpc (h : DriverHost) (method : String) (params : JSONObject) : Talk JSONObject :=
  .ask (.rpc method params) fun reply => .done (rpcResult h method reply)

def askSibyl (h : DriverHost) (method path : String) : Talk JSONObject :=
  .ask (.sibyl method path none) fun reply => .done (requestJson h (method ++ " " ++ path) reply)

/-! ### The scenario (`real_stack_driver.py:299-389`) -/

structure Probe where
  name : String
  method : String
  path : String
  payload : Option JSONObject

def Probe.call (p : Probe) : DriverCall := .sibyl p.method p.path p.payload

def previewPath : String :=
  "memory/inspect/" ++ PercentEncoding.quote "e2e-nonexistent" ++ "/corrections/preview"

def PROBES : List Probe := [
  ⟨"tasks", "GET", "tasks", none⟩,
  ⟨"entities", "GET", "entities", none⟩,
  ⟨"reflection", "POST", "context/reflect", some [("notes", .str "e2e confinement probe")]⟩,
  ⟨"sharing", "POST", "memory/share/preview", some []⟩,
  ⟨"promotion", "POST", "memory/promote/preview", some []⟩,
  ⟨"delete", "POST", previewPath,
    some [("action", .str "delete"), ("reason", .str "e2e confinement probe")]⟩,
  ⟨"redact", "POST", previewPath,
    some [("action", .str "redact"), ("reason", .str "e2e confinement probe")]⟩]

/-- The statuses of the probes, under their names. -/
def probeStatuses : List Probe → Talk (List (String × Nat))
  | [] => pure []
  | p :: probes =>
    .ask p.call fun reply =>
      match requestStatus (p.method ++ " " ++ p.path) reply with
      | .error e => .done (.error e)
      | .ok status => (probeStatuses probes).bind fun statuses => pure ((p.name, status) :: statuses)

def profileEnforced (auth : JSONObject) : Bool :=
  let claims := (ReleaseGates.dictOf (get auth "credential")).getD []
  ReleaseGates.isText "api_key" (get claims "type") && ReleaseGates.isText "memory_provider" (get claims "capability_profile")

/-- The checks of `_capability_confinement`. -/
def confinementChecks (enforced : Bool) (statuses : List (String × Nat)) : List (String × Bool) :=
  [("memory_provider_profile_enforced_server_side", enforced),
    ("all_disallowed_endpoints_return_403", statuses.all fun s => decide (s.2 = 403))]

def receipt (r : DriverRequest) (passed : Bool) (checks : List (String × Bool))
    (metrics evidence : JSONObject) : JSONObject :=
  [("schema_version", .str PROTOCOL_VERSION),
    ("scenario", .str r.scenario),
    ("runtime", .dict [("hermes_version", .str r.expectedHermesVersion)]),
    ("passed", .bool passed),
    ("checks", .dict (checks.map fun check => (check.1, .bool check.2))),
    ("metrics", .dict metrics),
    ("evidence", .dict evidence)]

def confinementReceipt (r : DriverRequest) (checks : List (String × Bool))
    (statuses : List (String × Nat)) : JSONObject :=
  receipt r (checks.all Prod.snd) checks
    [("disallowed_probe_count", .int statuses.length)]
    [("disallowed_statuses", .dict (statuses.map fun s => (s.1, .int s.2)))]

/-- `_blocked_receipt`; a repeated name is one key. -/
def blockedReceipt (r : DriverRequest) (hooks : List String) : JSONObject :=
  receipt r false (r.requiredChecks.eraseDups.map fun check => (check, false)) []
    [("release_blocker", .dict [("kind", .str "missing_disposable_stack_hooks"),
      ("missing_hooks", .list (hooks.map .str))])]

/-- What comes behind the checks of the stack. -/
def finishRun (r : DriverRequest) (auth : JSONObject) : Talk JSONObject :=
  match MISSING_HOOKS.lookup r.scenario with
  | none => .done (.error (.other "KeyError"))
  | some [] =>
    (probeStatuses PROBES).bind fun statuses =>
      let checks := confinementChecks (profileEnforced auth) statuses
      if checks.all (fun check => decide (check.1 ∈ r.requiredChecks)) &&
          r.requiredChecks.all (fun name => decide (name ∈ checks.map Prod.fst)) then
        pure (confinementReceipt r checks statuses)
      else .done (.error (.failed "driver and release manifest disagree on required checks"))
  | some (hook :: hooks) => .done (.error (.missingHook r.scenario (hook :: hooks)))

/-- `PublicStackDriver.run` -/
def run (h : DriverHost) (r : DriverRequest) : Talk JSONObject :=
  (askHermes h "GET" HERMES_STATUS_PATH [("profile", r.profile)]).bind fun status =>
    if ReleaseGates.isText r.expectedHermesVersion (get status "version") = false then
      .done (.error (.failed ("Hermes runtime version " ++ h.repr (get status "version") ++
        " does not match " ++ h.repr (.str r.expectedHermesVersion))))
    else
      (askHermes h "GET" HERMES_MEMORY_PATH []).bind fun memory =>
        if ReleaseGates.isText "sibyl" (get memory "active") = false then
          .done (.error (.failed "Hermes does not report the Sibyl memory provider as active"))
        else
          (callRpc h "config.get" [("key", .str "profile")]).bind fun _ =>
            (askSibyl h "GET" SIBYL_AUTH_PATH).bind fun auth => finishRun r auth

/-! ### The process (`real_stack_driver.py:392-444`) -/

structure DriverProcess where
  arguments : List String
  /-- `json.load(sys.stdin)` -/
  stdin : Except (Option String) PyValue
  environ : List (String × String)

structure DriverExit where
  status : Int
  stdout : Option PyValue
  stderr : List String

def environText (environ : List (String × String)) (name : String) : String :=
  Text.strip ((environ.lookup name).getD "")

def MUTATION_ENV : String := "HERMES_SIBYL_E2E_MUTATION_SCENARIO"
def API_KEY_VARIABLE : String := "HERMES_SIBYL_E2E_API_KEY"
def SESSION_TOKEN_ENV : String := "HERMES_SIBYL_E2E_HERMES_SESSION_TOKEN"

/-- What `main` does before it connects. -/
def DriverProcess.accept (p : DriverProcess) (scenario : String) : Except DriverError DriverRequest :=
  match p.stdin with
  | .error none => .error (.failed "driver stdin did not contain one JSON object")
  | .error (some className) => .error (.other className)
  | .ok payload =>
    match DriverRequest.parse payload scenario with
    | .error e => .error e
    | .ok r =>
      if environText p.environ API_KEY_VARIABLE = "" then
        .error (.failed "HERMES_SIBYL_E2E_API_KEY is required")
      else if environText p.environ SESSION_TOKEN_ENV = "" then
        .error (.failed "HERMES_SIBYL_E2E_HERMES_SESSION_TOKEN is required")
      else if r.mutatesStack = true ∧ environText p.environ MUTATION_ENV ≠ r.scenario then
        .error (.failed "mutating scenario lacks exact per-scenario consent")
      else .ok r

/-- The text of `json.dumps(receipt, sort_keys=True)`, as it is read back. -/
def written (receipt : JSONObject) : Option PyValue := (PyValue.dict receipt).canonical

def MissingHookError.text (h : DriverHost) (scenario : String) (hooks : List String) : String :=
  "scenario " ++ h.repr (.str scenario) ++ " requires missing disposable-stack hooks: " ++
    Text.joinWith ", " hooks

/-- How `main` ends on an exception; one that is no `DriverError` ends the interpreter. -/
def DriverError.exit (h : DriverHost) : DriverError → DriverExit
  | .failed message => ⟨2, none, ["real-stack driver error: " ++ message]⟩
  | .missingHook scenario hooks =>
    ⟨2, none, ["real-stack driver error: " ++ MissingHookError.text h scenario hooks]⟩
  | .other className => ⟨1, none, [className]⟩

def settleRun (h : DriverHost) (r : DriverRequest) : Except DriverError JSONObject → DriverExit
  | .ok receipt => ⟨0, written receipt, []⟩
  | .error (.missingHook _ hooks) => ⟨0, written (blockedReceipt r hooks), []⟩
  | .error e => e.exit h

def main (h : DriverHost) (p : DriverProcess) : Dialogue DriverCall DriverCall.Reply Empty DriverExit :=
  match p.arguments with
  | [scenario] =>
    match p.accept scenario with
    | .error e => pure (e.exit h)
    | .ok r =>
      match h.connect r.hermesUrl r.sibylUrl with
      | .error className => pure (DriverError.exit h (.other className))
      | .ok _ => (run h r).andThen fun result => pure (settleRun h r result)
  | _ => pure ⟨2, none, ["usage: real_stack_driver.py <scenario-slug>"]⟩

end SibylMemory.StackDriver
