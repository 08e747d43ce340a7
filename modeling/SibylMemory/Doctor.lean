import SibylMemory.Operator
import SibylMemory.ResponseBoundary

/-!
# The doctor (`cli.py:139-154`, `215-487`)

`hermes sibyl doctor` runs its checks in order and asks Sibyl only when the local ones allow it. It
writes one diagnostic memory, and only when it is told to and nothing failed before.
-/

namespace SibylMemory
open Outbox Text

/-! ### Checks -/

inductive CheckState where
  | pass
  | warn
  | fail
  | skip
  deriving DecidableEq

structure Check where
  name : String
  state : CheckState
  detail : String
  deriving DecidableEq

def CheckState.label : CheckState → String
  | .pass => "PASS"
  | .warn => "WARN"
  | .fail => "FAIL"
  | .skip => "SKIP"

/-- The line of `_print_checks`. -/
def Check.line (c : Check) : String := "[" ++ c.state.label ++ "] " ++ c.name ++ ": " ++ c.detail

/-- A check that passes or fails, with the detail of either. -/
def Check.decided (name : String) (ok : Bool) (passed failed : String) : Check :=
  ⟨name, if ok then .pass else .fail, if ok then passed else failed⟩

def anyFails (checks : List Check) : Bool := checks.any fun c => decide (c.state = .fail)

theorem anyFails_append (checks more : List Check) :
    anyFails (checks ++ more) = (anyFails checks || anyFails more) := List.any_append

theorem anyFails_single (c : Check) : anyFails [c] = decide (c.state = .fail) := Bool.or_false _

def credentialChecks (response : AuthMeResponse) (context : OperatorContext) : List Check :=
  let credential := response.credential
  let sharedFailures := credentialFailures credential context.requirement
  [Check.decided "authentication" (decide (credential.type = "api_key")) "API key accepted"
      "use an API key instead of session authentication",
    Check.decided "API scope" (decide ("api:write" ∈ credential.scopes)) "api:write is present"
      "create a provider key with api:write",
    Check.decided "project restriction" (!notExactly credential.projectIds context.config.projectId)
      "key is restricted to the configured project"
      "restrict the key to exactly the configured project",
    Check.decided "memory-space restriction"
      (!notExactly credential.memorySpaceIds context.config.memorySpaceId)
      "key is restricted to the configured memory space"
      "restrict the key to exactly the configured memory space",
    Check.decided "agent identity" (decide (credential.agentId = some context.agentId))
      ("bound to " ++ context.agentId) ("bind the key to " ++ context.agentId),
    Check.decided "capability profile"
      (decide (credential.capabilityProfile = some "memory_provider")) "memory_provider is active"
      "set capability_profile=memory_provider",
    Check.decided "least-privilege contract" (decide (sharedFailures = []))
      "credential matches the provider trust boundary" (joinWith "; " sharedFailures)]

/-! ### What the doctor asks -/

def contextProbeRequest (context : OperatorContext) : ContextPackRequest where
  goal := "Hermes Sibyl provider diagnostic read probe"
  project := context.config.projectId
  agentId := context.agentId
  limit := 1
  includeRelated := false
  relatedLimit := 0
  recordExposure := false
  markdownTokenBudget := min context.config.contextTokenBudget 128

/-- What the doctor meets: the machine, the outbox, and Sibyl, which may answer every call as it
likes. -/
structure DoctorRun where
  machine : Machine
  installedVersion : Option String
  manifestPresent : Bool
  snapshot : OperatorContext → Except PyException OutboxSnapshot
  makeClient : OperatorContext → Except PyException Unit
  net : List ClientCall → WireRequest → Exchange
  requestId : List ClientCall → String
  latency : String
  probeId : String

/-- How the calls to Sibyl end. -/
inductive ProbeEnd where
  | done
  | cleanupFailed (sourceId errorType : String)
  | raised (e : PyException)

structure Probes where
  checks : List Check
  calls : List ClientCall
  ended : ProbeEnd

namespace DoctorRun
variable (d : DoctorRun)

/-- A call behind those in `before`. -/
def answer (before : List ClientCall) (c : ClientCall) : Except PyException c.Reply :=
  (c.run d.machine.host (d.net before) (d.requestId before)).mapError
    (ClientError.pyException d.machine.bases)

def captureContext (context : OperatorContext) : CaptureContext where
  agentId := context.agentId
  agentWorkspace := "hermes"
  agentIdentity := d.machine.profileName
  platform := "cli"
  projectId := context.config.projectId
  memorySpaceId := context.config.memorySpaceId
  hermesVersion := HERMES_VERSION
  adapterVersion := ADAPTER_VERSION
  participantIds := []
  chatId := ""
  threadId := ""

def probeCapture (context : OperatorContext) : Except String TurnCapture :=
  buildTurnCapture d.machine.host (d.captureContext context) ("doctor-" ++ d.probeId) "" 1 (some 1)
    "Sibyl provider write probe" "Write access verified."

def probeRequest (context : OperatorContext) (capture : TurnCapture) : RawMemoryRequest where
  title := d.machine.host.str (Schema.get capture.payload "title")
  rawContent := d.machine.host.str (Schema.get capture.payload "raw_content")
  sourceId := capture.identity.sourceId
  projectId := context.config.projectId
  metadata := Schema.get capture.payload "metadata"
  provenance := Schema.get capture.payload "provenance"

end DoctorRun

def staleRequest (correctionId : String) (revision : Int) : CorrectionRequest where
  action := .str "mark_stale"
  reason := "hermes_provider_doctor_write_probe"
  expectedRevision := some (.int revision)
  metadata := .dict [("provider_operation_id", .str correctionId)]

/-- The correction that takes the diagnostic memory back. -/
def staleCall (identity : TurnIdentity) (revision : Int) : ClientCall :=
  let correctionId := identity.operationId ++ "-stale"
  .applyCorrection identity.sourceId (staleRequest correctionId revision)
    ("hermes-correction-" ++ correctionId)

namespace DoctorRun
variable (d : DoctorRun)

/-- `_write_probe`, behind the calls in `before`. -/
def writeProbe (context : OperatorContext) (checks : List Check) (before : List ClientCall) : Probes :=
  match d.probeCapture context with
  | .error className => ⟨checks, before, .raised ⟨className, d.machine.bases className⟩⟩
  | .ok capture =>
    let remember := ClientCall.rememberRaw (d.probeRequest context capture)
      capture.identity.idempotencyKey
    match d.answer before remember with
    | .error e => ⟨checks, before ++ [remember], .raised e⟩
    | .ok response =>
      let stale := staleCall capture.identity (RawMemoryResponse.revision response)
      match d.answer (before ++ [remember]) stale with
      | .error e =>
        ⟨checks, before ++ [remember, stale],
          if e.isA remoteErrors then .cleanupFailed capture.identity.sourceId e.className
          else .raised e⟩
      | .ok _ =>
        ⟨checks ++ [⟨"write probe", .pass, "raw write succeeded and was immediately marked stale"⟩],
          before ++ [remember, stale], .done⟩

/-- The `try` around the calls to Sibyl. -/
def remote (writeProbe : Bool) (context : OperatorContext) (checks : List Check) : Probes :=
  match d.answer [] .authMe with
  | .error e => ⟨checks, [.authMe], .raised e⟩
  | .ok response =>
    let checks := checks ++ credentialChecks response context
    if anyFails checks then
      ⟨checks ++ [⟨"context read", .skip, "fix credential restrictions first"⟩], [.authMe], .done⟩
    else
      let read := ClientCall.contextPack (contextProbeRequest context)
      match d.answer [.authMe] read with
      | .error e => ⟨checks, [.authMe, read], .raised e⟩
      | .ok _ =>
        let checks := checks ++ [⟨"context read", .pass, d.latency ++ " ms; record_exposure=false"⟩]
        if writeProbe then d.writeProbe context checks [.authMe, read]
        else ⟨checks ++ [⟨"write probe", .skip, "read-only by default; pass --write-probe to mutate"⟩],
          [.authMe, read], .done⟩

end DoctorRun

/-- The `except` clauses behind it. -/
def Probes.settle (p : Probes) : Except PyException (List Check) :=
  match p.ended with
  | .done => .ok p.checks
  | .cleanupFailed sourceId errorType =>
    .ok (p.checks ++ [⟨"write probe cleanup", .fail,
      "mark " ++ sourceId ++ " stale manually (" ++ errorType ++ ")"⟩])
  | .raised e =>
    if e.isA remoteErrors then
      .ok (p.checks ++ [⟨"remote probe", .fail,
        "verify URL, network, TLS, and credential (" ++ e.className ++ ")"⟩])
    else .error e

namespace DoctorRun
variable (d : DoctorRun)

def installChecks : List Check :=
  let version := d.installedVersion.getD "not installed"
  [⟨"Hermes compatibility", if version = HERMES_VERSION then .pass else .fail,
      "Hermes " ++ version ++ "; provider requires " ++ HERMES_VERSION⟩,
    Check.decided "plugin installation" d.manifestPresent
      ("Sibyl provider " ++ ADAPTER_VERSION ++ " manifest found")
      "reinstall the plugin; plugin.yaml is missing"]

/-- The checks of the configuration; the scheme of the base URL is that of `urlsplit`. -/
def configChecks (context : OperatorContext) (scheme : List Char) : List Check :=
  let insecure := decide (scheme = "http".toList) && context.config.allowInsecureHttp
  [Check.decided "configuration" context.config.isComplete
      "required project and memory space are set"
      "run 'hermes memory setup sibyl' to set project and memory space",
    ⟨"URL/TLS policy", if insecure then .warn else .pass,
      if insecure then "explicit insecure HTTP override is active"
      else "URL and TLS policy are valid"⟩,
    Check.decided "API key" (!context.apiKey.isEmpty) "secret is present"
      "set SIBYL_API_KEY with 'hermes memory setup sibyl'"]

def outboxCheck (context : OperatorContext) : Except PyException Check :=
  match d.snapshot context with
  | .ok snapshot => .ok ⟨"outbox", .pass, "writable; " ++ formatCounts snapshot⟩
  | .error e =>
    if e.isA outboxErrors then
      .ok ⟨"outbox", .fail, "make " ++ context.home ++ "/state writable (" ++ e.className ++ ")"⟩
    else .error e

/-- The checks of `_doctor` in order, what it returns, and the calls that it made. -/
def probed (writeProbe : Bool) (context : OperatorContext) (checks : List Check) :
    Except PyException (List Check × Bool) × List ClientCall :=
  if context.incomplete then
    (.ok (checks ++ [⟨"remote probes", .skip, "complete setup first"⟩], false), [])
  else
    match d.makeClient context with
    | .error e =>
      (if e.isA localErrors then
        .ok (checks ++ [⟨"remote probe", .fail,
          "verify URL, network, TLS, and credential (" ++ e.className ++ ")"⟩], false)
      else .error e, [])
    | .ok _ =>
      let probes := d.remote writeProbe context checks
      (probes.settle.map fun checks => (checks, !anyFails checks), probes.calls)

def checks (writeProbe : Bool) : Except PyException (List Check × Bool) × List ClientCall :=
  match d.machine.operatorContext with
  | .error e =>
    if e.isA configurationErrors then
      (d.machine.home.map fun home => (d.installChecks ++ [⟨"configuration", .fail,
        "repair " ++ configPath home ++ "; invalid " ++ e.className⟩], false), [])
    else (.error e, [])
  | .ok context =>
    match UrlSplit.urlsplit d.machine.py.checkNetloc context.config.baseUrl.toList with
    | none => (.error ⟨"ValueError", []⟩, [])
    | some parsed =>
      match d.outboxCheck context with
      | .error e => (.error e, [])
      | .ok outbox =>
        d.probed writeProbe context (d.installChecks ++ configChecks context parsed.scheme ++ [outbox])

/-- `_doctor` -/
def command (writeProbe : Bool) : CommandResult Bool × List ClientCall :=
  let (outcome, calls) := d.checks writeProbe
  match outcome with
  | .error e => (⟨[], .error e⟩, calls)
  | .ok (checks, returned) => (⟨checks.map Check.line, .ok returned⟩, calls)

end DoctorRun

/-! ### The credential checks -/

theorem decided_fails (name : String) (ok : Bool) (passed failed : String) :
    decide ((Check.decided name ok passed failed).state = .fail) = !ok := by
  cases ok <;> rfl

theorem failure_nil (p : Prop) {_ : Decidable p} (text : String) :
    (if p then [text] else []) = [] ↔ ¬ p := by
  split <;> simp [*]

theorem credentialFailures_nil (credential : Credential) (context : OperatorContext) :
    credentialFailures credential context.requirement = [] ↔
      credential.type = "api_key" ∧ "api:write" ∈ credential.scopes ∧
      notExactly credential.projectIds context.config.projectId = false ∧
      notExactly credential.memorySpaceIds context.config.memorySpaceId = false ∧
      credential.agentId = some context.agentId ∧
      credential.capabilityProfile = some "memory_provider" := by
  unfold credentialFailures
  iterate 5 rw [List.append_eq_nil_iff]
  iterate 4 rw [failure_nil]
  dsimp only [OperatorContext.requirement]
  iterate 2 rw [failure_nil]
  simp only [not_not, Bool.not_eq_true, and_assoc]

/-- The six single checks and the shared contract find the same credentials safe. -/
theorem credentialChecks_pass (response : AuthMeResponse) (context : OperatorContext) :
    anyFails (credentialChecks response context) = false ↔
      credentialFailures response.credential context.requirement = [] := by
  simp only [anyFails, credentialChecks, List.any_cons, List.any_nil, decided_fails, Bool.not_not,
    Bool.or_eq_false_iff, Bool.not_eq_false', decide_eq_true_eq, and_true]
  rw [credentialFailures_nil]
  tauto

/-! ### What may happen -/

/-- The call changes nothing at Sibyl. -/
def ClientCall.ReadOnly : ClientCall → Prop
  | .authMe => True
  | .contextPack request => request.recordExposure = false
  | .previewCorrection _ _ => True
  | .exposeContext _ _ => False
  | .rememberRaw _ _ => False
  | .applyCorrection _ _ _ => False

/-- What `_write_probe` does. -/
inductive Written (d : DoctorRun) (before : List ClientCall) : Probes → Prop where
  | unmade (checks e) : Written d before ⟨checks, before, .raised e⟩
  | refused (checks e request key) (failed : d.answer before (.rememberRaw request key) = .error e) :
      Written d before ⟨checks, before ++ [.rememberRaw request key], .raised e⟩
  | made (checks identity ended request key) (source : request.sourceId = identity.sourceId)
      (response) (written : d.answer before (.rememberRaw request key) = .ok response)
      (stale : ClientCall) (call : stale = staleCall identity (RawMemoryResponse.revision response))
      (outcome : (∃ reply, d.answer (before ++ [.rememberRaw request key]) stale = .ok reply) ∨
        (∃ errorType, ended = .cleanupFailed request.sourceId errorType) ∨
        ∃ e, ended = .raised e ∧ e.isA remoteErrors = false) :
      Written d before ⟨checks, before ++ [.rememberRaw request key, stale], ended⟩

section Outcomes
variable (d : DoctorRun) (context : OperatorContext)

theorem writeProbe_written (checks : List Check) (before : List ClientCall) :
    Written d before (d.writeProbe context checks before) := by
  unfold DoctorRun.writeProbe
  cases hcapture : d.probeCapture context with
  | error className => exact .unmade checks _
  | ok capture =>
    dsimp only
    cases hremember : d.answer before (.rememberRaw (d.probeRequest context capture)
        capture.identity.idempotencyKey) with
    | error e => exact .refused checks e _ _ hremember
    | ok response =>
      dsimp only
      cases hstale : d.answer (before ++ [.rememberRaw (d.probeRequest context capture)
          capture.identity.idempotencyKey])
          (staleCall capture.identity (RawMemoryResponse.revision response)) with
      | ok reply => exact .made _ capture.identity _ _ _ rfl response hremember _ rfl (.inl ⟨reply, hstale⟩)
      | error e =>
        refine .made _ capture.identity _ _ _ rfl response hremember _ rfl (.inr ?_)
        cases hclass : e.isA remoteErrors with
        | true => exact .inl ⟨e.className, rfl⟩
        | false => exact .inr ⟨e, rfl, hclass⟩

/-- What the calls to Sibyl are; `safe` is only said of a context that was loaded. -/
inductive Probed (d : DoctorRun) (writeProbe : Bool) (context : OperatorContext) : Probes → Prop where
  | refused (checks e) : Probed d writeProbe context ⟨checks, [.authMe], .raised e⟩
  | rejected (checks) (fails : anyFails checks = true) :
      Probed d writeProbe context ⟨checks, [.authMe], .done⟩
  | asked (probes) (safe : ∃ response, d.answer [] .authMe = .ok response ∧
        credentialFailures (AuthMeResponse.credential response) context.requirement = [])
      (calls : (∃ checks ended, probes =
          ⟨checks, [.authMe, .contextPack (contextProbeRequest context)], ended⟩) ∨
        writeProbe = true ∧ Written d [.authMe, .contextPack (contextProbeRequest context)] probes) :
      Probed d writeProbe context probes

theorem remote_probed (writeProbe : Bool) (checks : List Check) :
    Probed d writeProbe context (d.remote writeProbe context checks) := by
  unfold DoctorRun.remote
  cases hauth : d.answer [] .authMe with
  | error e => exact .refused checks e
  | ok response =>
    dsimp only
    cases hfails : anyFails (checks ++ credentialChecks response context) with
    | true =>
      refine .rejected _ ?_
      rw [anyFails_append, hfails]
      rfl
    | false =>
      rw [anyFails_append, Bool.or_eq_false_iff] at hfails
      refine .asked _ ⟨response, hauth, (credentialChecks_pass response context).mp hfails.2⟩ ?_
      rw [if_neg Bool.false_ne_true]
      cases hread : d.answer [.authMe] (.contextPack (contextProbeRequest context)) with
      | error e => exact .inl ⟨_, _, rfl⟩
      | ok reply =>
        cases writeProbe with
        | false => exact .inl ⟨_, _, rfl⟩
        | true =>
          dsimp only
          rw [if_pos rfl]
          exact .inr ⟨rfl, writeProbe_written d context _ _⟩

/-- What the doctor as a whole does. -/
inductive Examined (d : DoctorRun) (writeProbe : Bool) :
    Except PyException (List Check × Bool) × List ClientCall → Prop where
  | raised (e) : Examined d writeProbe (.error e, [])
  | early (checks) (fails : anyFails checks = true) : Examined d writeProbe (.ok (checks, false), [])
  | probed (context probes) (loaded : d.machine.operatorContext = .ok context)
      (complete : context.incomplete = false) (remote : Probed d writeProbe context probes) :
      Examined d writeProbe
        (probes.settle.map fun checks => (checks, !anyFails checks), probes.calls)

theorem configChecks_fail (scheme : List Char) (h : context.incomplete = true) :
    anyFails (DoctorRun.configChecks context scheme) = true := by
  unfold OperatorContext.incomplete at h
  simp only [anyFails, DoctorRun.configChecks, List.any_cons, decided_fails, Bool.not_not]
  rcases Bool.or_eq_true_iff.mp h with hconfig | hkey
  · rw [hconfig, Bool.true_or]
  · simp [hkey]

theorem anyFails_last (checks : List Check) (name detail : String) :
    anyFails (checks ++ [⟨name, .fail, detail⟩]) = true := by
  rw [anyFails_append, anyFails_single, decide_eq_true rfl, Bool.or_true]

theorem checks_examined (writeProbe : Bool) : Examined d writeProbe (d.checks writeProbe) := by
  unfold DoctorRun.checks
  cases hcontext : d.machine.operatorContext with
  | error e =>
    dsimp only
    split
    · cases hhome : d.machine.home with
      | error e' => exact .raised e'
      | ok home => exact .early _ (anyFails_last _ _ _)
    · exact .raised e
  | ok context =>
    dsimp only
    split
    · exact .raised _
    · rename_i parsed hparsed
      cases houtbox : d.outboxCheck context with
      | error e => exact .raised e
      | ok outbox =>
        dsimp only [DoctorRun.probed]
        cases hincomplete : context.incomplete with
        | true =>
          refine .early _ ?_
          simp only [anyFails_append, configChecks_fail context parsed.scheme hincomplete,
            Bool.or_true, Bool.true_or]
        | false =>
          rw [if_neg Bool.false_ne_true]
          cases hclient : d.makeClient context with
          | error e =>
            dsimp only
            split
            · exact .early _ (anyFails_last _ _ _)
            · exact .raised e
          | ok u => exact .probed context _ hcontext hincomplete (remote_probed d context _ _)

end Outcomes

/-! ### What a passed doctor has seen -/

/-- The memory of the probe was written, and taken back. -/
def DoctorRun.TakenBack (d : DoctorRun) (context : OperatorContext) (before : List ClientCall) : Prop :=
  ∃ capture response reply, d.probeCapture context = .ok capture ∧
    d.answer before (.rememberRaw (d.probeRequest context capture) capture.identity.idempotencyKey)
      = .ok response ∧
    d.answer (before ++ [.rememberRaw (d.probeRequest context capture) capture.identity.idempotencyKey])
      (staleCall capture.identity (RawMemoryResponse.revision response)) = .ok reply

/-- Sibyl finds the credential safe, answers a read, and answers the probe when there is one. -/
def DoctorRun.Answered (d : DoctorRun) (writeProbe : Bool) (context : OperatorContext) : Prop :=
  let read := ClientCall.contextPack (contextProbeRequest context)
  ∃ response reply, d.answer [] .authMe = .ok response ∧
    credentialFailures (AuthMeResponse.credential response) context.requirement = [] ∧
    d.answer [.authMe] read = .ok reply ∧
    (writeProbe = true → d.TakenBack context [.authMe, read])

structure DoctorRun.Healthy (d : DoctorRun) (writeProbe : Bool) (context : OperatorContext) : Prop where
  version : d.installedVersion = some HERMES_VERSION
  manifest : d.manifestPresent = true
  loaded : d.machine.operatorContext = .ok context
  parsed : (UrlSplit.urlsplit d.machine.py.checkNetloc context.config.baseUrl.toList).isSome = true
  complete : context.incomplete = false
  outbox : ∃ snapshot, d.snapshot context = .ok snapshot
  client : d.makeClient context = .ok ()
  answered : d.Answered writeProbe context

def Passes (outcome : Except PyException (List Check × Bool)) : Prop :=
  ∃ checks, outcome = .ok (checks, true)

section Passing
variable (d : DoctorRun) (context : OperatorContext)

theorem settle_passes (p : Probes) :
    Passes (p.settle.map fun checks => (checks, !anyFails checks)) ↔
      p.ended = .done ∧ anyFails p.checks = false := by
  obtain ⟨checks, calls, ended⟩ := p
  unfold Passes Probes.settle
  cases ended with
  | done => simp [Except.map]
  | cleanupFailed sourceId errorType => simp [Except.map, anyFails_last]
  | raised e => cases h : e.isA remoteErrors <;> simp [Except.map, anyFails_last, h]

theorem writeProbe_passes (checks : List Check) (before : List ClientCall)
    (hchecks : anyFails checks = false) :
    ((d.writeProbe context checks before).ended = .done ∧
      anyFails (d.writeProbe context checks before).checks = false) ↔ d.TakenBack context before := by
  unfold DoctorRun.writeProbe DoctorRun.TakenBack
  cases d.probeCapture context with
  | error className => simp
  | ok capture =>
    simp only [Except.ok.injEq, exists_and_left, exists_eq_left']
    cases d.answer before (.rememberRaw (d.probeRequest context capture)
        capture.identity.idempotencyKey) with
    | error e => simp
    | ok response =>
      simp only [Except.ok.injEq, exists_eq_left']
      cases d.answer (before ++ [.rememberRaw (d.probeRequest context capture)
          capture.identity.idempotencyKey])
          (staleCall capture.identity (RawMemoryResponse.revision response)) with
      | ok reply => simp [anyFails_append, anyFails_single, hchecks]
      | error e => cases h : e.isA remoteErrors <;> simp [h]

theorem remote_passes (writeProbe : Bool) (checks : List Check) :
    ((d.remote writeProbe context checks).ended = .done ∧
      anyFails (d.remote writeProbe context checks).checks = false) ↔
      anyFails checks = false ∧ d.Answered writeProbe context := by
  unfold DoctorRun.remote DoctorRun.Answered
  cases d.answer [] .authMe with
  | error e => simp
  | ok response =>
    have hsafe := credentialChecks_pass response context
    simp only [Except.ok.injEq, exists_and_left, exists_eq_left', ← hsafe]
    rw [← and_assoc, ← Bool.or_eq_false_iff, ← anyFails_append]
    cases hfails : anyFails (checks ++ credentialChecks response context) with
    | true =>
      rw [if_pos rfl, anyFails_append, hfails]
      exact iff_of_false (fun h => nomatch h.2) (fun h => nomatch h.1)
    | false =>
      rw [if_neg Bool.false_ne_true]
      simp only [true_and]
      cases d.answer [.authMe] (.contextPack (contextProbeRequest context)) with
      | error e => simp
      | ok reply =>
        cases writeProbe with
        | false =>
          refine iff_of_true ⟨rfl, ?_⟩ ⟨reply, rfl, nofun⟩
          rw [if_neg Bool.false_ne_true, anyFails_append, anyFails_append, hfails]
          rfl
        | true =>
          simp only [if_true, true_imp_iff, Except.ok.injEq, exists_eq_left']
          refine writeProbe_passes d context _ _ ?_
          rw [anyFails_append, hfails]
          rfl

theorem installChecks_pass : anyFails d.installChecks = false ↔
    d.installedVersion = some HERMES_VERSION ∧ d.manifestPresent = true := by
  have hversion : d.installedVersion.getD "not installed" = HERMES_VERSION ↔
      d.installedVersion = some HERMES_VERSION := by
    cases d.installedVersion with
    | none => exact ⟨fun h => absurd h (by decide), nofun⟩
    | some version => simp
  simp only [DoctorRun.installChecks, anyFails, List.any_cons, List.any_nil, decided_fails,
    Bool.or_false, Bool.or_eq_false_iff, Bool.not_eq_false', decide_eq_false_iff_not, hversion]
  refine and_congr_left fun _ => ?_
  split <;> simp [*]

theorem configChecks_pass (scheme : List Char) :
    anyFails (DoctorRun.configChecks context scheme) = false ↔ context.incomplete = false := by
  simp only [DoctorRun.configChecks, anyFails, List.any_cons, List.any_nil, decided_fails,
    Bool.or_false, Bool.or_eq_false_iff, Bool.not_eq_false', Bool.not_not, OperatorContext.incomplete,
    decide_eq_false_iff_not]
  refine and_congr_right fun _ => and_iff_right ?_
  split <;> exact nofun

theorem outboxCheck_pass {outbox : Check} (h : d.outboxCheck context = .ok outbox) :
    decide (outbox.state = .fail) = false ↔ ∃ snapshot, d.snapshot context = .ok snapshot := by
  unfold DoctorRun.outboxCheck at h
  cases hsnapshot : d.snapshot context with
  | ok snapshot =>
    simp only [hsnapshot, Except.ok.injEq] at h
    subst h
    exact iff_of_true rfl ⟨snapshot, rfl⟩
  | error e =>
    simp only [hsnapshot] at h
    split at h
    · cases h
      exact iff_of_false nofun nofun
    · cases h

theorem probed_passes (writeProbe : Bool) (checks : List Check) :
    Passes (d.probed writeProbe context checks).1 ↔ context.incomplete = false ∧
      d.makeClient context = .ok () ∧ anyFails checks = false ∧ d.Answered writeProbe context := by
  unfold DoctorRun.probed
  cases context.incomplete with
  | true => exact iff_of_false nofun nofun
  | false =>
    rw [if_neg Bool.false_ne_true, and_iff_right rfl]
    cases d.makeClient context with
    | error e =>
      refine iff_of_false ?_ nofun
      dsimp only
      split <;> exact nofun
    | ok u =>
      rw [and_iff_right rfl]
      exact (settle_passes _).trans (remote_passes d context writeProbe checks)

theorem checks_passes (writeProbe : Bool) :
    Passes (d.checks writeProbe).1 ↔ ∃ context, d.Healthy writeProbe context := by
  unfold DoctorRun.checks
  cases hcontext : d.machine.operatorContext with
  | error e =>
    refine iff_of_false ?_ fun ⟨context, h⟩ => by cases h.loaded.symm.trans hcontext
    dsimp only
    split
    · cases d.machine.home <;> exact nofun
    · exact nofun
  | ok context =>
    have hone {context'} (h : d.Healthy writeProbe context') : context = context' :=
      Except.ok.inj (hcontext.symm.trans h.loaded)
    dsimp only
    cases hparsed : UrlSplit.urlsplit d.machine.py.checkNetloc context.config.baseUrl.toList with
    | none =>
      refine iff_of_false nofun ?_
      rintro ⟨context', h⟩
      obtain rfl := hone h
      exact Bool.false_ne_true ((congrArg Option.isSome hparsed).symm.trans h.parsed)
    | some parsed =>
      dsimp only
      cases houtbox : d.outboxCheck context with
      | error e =>
        refine iff_of_false nofun ?_
        rintro ⟨context', h⟩
        obtain rfl := hone h
        obtain ⟨snapshot, hsnapshot⟩ := h.outbox
        simp [DoctorRun.outboxCheck, hsnapshot] at houtbox
      | ok outbox =>
        dsimp only
        rw [probed_passes, anyFails_append, anyFails_append, Bool.or_eq_false_iff,
          Bool.or_eq_false_iff, anyFails_single, installChecks_pass, configChecks_pass,
          outboxCheck_pass d context houtbox]
        constructor
        · rintro ⟨hcomplete, hclient, ⟨⟨⟨hversion, hmanifest⟩, -⟩, hsnapshot⟩, hanswered⟩
          exact ⟨context, hversion, hmanifest, hcontext, congrArg Option.isSome hparsed, hcomplete,
            hsnapshot, hclient, hanswered⟩
        · rintro ⟨context', h⟩
          obtain rfl := hone h
          exact ⟨h.complete, h.client, ⟨⟨⟨h.version, h.manifest⟩, h.complete⟩, h.outbox⟩, h.answered⟩

end Passing

/-! ### The command -/

section Command
variable (d : DoctorRun) (writeProbe : Bool)

/-- A line of the doctor reports a failure exactly if its check failed. -/
theorem line_fail (c : Check) : "[FAIL] ".toList <+: c.line.toList ↔ c.state = .fail := by
  obtain ⟨name, state, detail⟩ := c
  cases state <;> simp [Check.line, CheckState.label]

theorem checks_returned {checks : List Check} {passed : Bool}
    (h : (d.checks writeProbe).1 = .ok (checks, passed)) : passed = !anyFails checks := by
  have hexamined := checks_examined d writeProbe
  generalize d.checks writeProbe = out at h hexamined
  cases hexamined with
  | raised e => cases h
  | early checks fails =>
    cases h
    rw [fails]
    rfl
  | probed context probes loaded complete remote =>
    dsimp only at h
    cases hsettle : probes.settle with
    | error e => cases hsettle ▸ h
    | ok settled =>
      cases hsettle ▸ h
      rfl

theorem command_ended (ended : Except PyException Bool) : (d.command writeProbe).1.ended = ended ↔
    (d.checks writeProbe).1.map Prod.snd = ended := by
  unfold DoctorRun.command
  obtain ⟨outcome, calls⟩ := d.checks writeProbe
  cases outcome <;> rfl

theorem command_lines {checks : List Check} {passed : Bool}
    (h : (d.checks writeProbe).1 = .ok (checks, passed)) :
    (d.command writeProbe).1.lines = checks.map Check.line := by
  unfold DoctorRun.command
  generalize d.checks writeProbe = out at h
  obtain ⟨outcome, calls⟩ := out
  subst h
  rfl

theorem returned_ok {outcome : Except PyException (List Check × Bool)} {passed : Bool} :
    outcome.map Prod.snd = .ok passed ↔ ∃ checks, outcome = .ok (checks, passed) := by
  cases outcome with
  | error e => exact iff_of_false nofun nofun
  | ok out =>
    constructor
    · rintro ⟨⟩
      exact ⟨out.1, rfl⟩
    · rintro ⟨checks, ⟨⟩⟩
      rfl

theorem command_calls : (d.command writeProbe).2 = (d.checks writeProbe).2 := by
  unfold DoctorRun.command
  obtain ⟨outcome, calls⟩ := d.checks writeProbe
  cases outcome <;> rfl

/-- The write stands third. -/
theorem remember_third {read : ContextPackRequest} {x c : ClientCall} {before after : List ClientCall}
    {request key} (h : [.authMe, .contextPack read, x, c] = before ++ .rememberRaw request key :: after)
    (hc : ∀ r k, c ≠ .rememberRaw r k) :
    before = [.authMe, .contextPack read] ∧ x = .rememberRaw request key ∧ after = [c] := by
  match before, h with
  | [], h => cases (List.cons.inj h).1
  | [_], h => cases (List.cons.inj (List.cons.inj h).2).1
  | [_, _], h =>
    simp only [List.cons_append, List.nil_append, List.cons.injEq] at h
    obtain ⟨rfl, rfl, rfl, rfl⟩ := h
    exact ⟨rfl, rfl, rfl⟩
  | [_, _, _], h =>
    simp only [List.cons_append, List.nil_append, List.cons.injEq] at h
    exact absurd h.2.2.2.1 (hc _ _)
  | _ :: _ :: _ :: _ :: _, h => simp at h

theorem remember_last {read : ContextPackRequest} {x : ClientCall} {before after : List ClientCall}
    {request key} (h : [.authMe, .contextPack read, x] = before ++ .rememberRaw request key :: after) :
    before = [.authMe, .contextPack read] ∧ x = .rememberRaw request key ∧ after = [] := by
  have hlast : [ClientCall.authMe, .contextPack read, x, .authMe] =
      before ++ .rememberRaw request key :: (after ++ [.authMe]) := by
    rw [← List.cons_append, ← List.append_assoc, ← h]
    rfl
  obtain ⟨hbefore, hx, hafter⟩ := remember_third hlast fun _ _ => nofun
  refine ⟨hbefore, hx, ?_⟩
  cases after with
  | nil => rfl
  | cons c after => simp at hafter

/-- The write probe is the only mutation: it needs the flag, and a credential found safe. -/
theorem probed_mutation {context : OperatorContext} {probes : Probes} {c : ClientCall}
    (h : Probed d writeProbe context probes) (hc : c ∈ probes.calls) (hmutates : ¬ c.ReadOnly) :
    writeProbe = true ∧ ∃ response, d.answer [] .authMe = .ok response ∧
      credentialFailures (AuthMeResponse.credential response) context.requirement = [] := by
  have hauth : ClientCall.authMe.ReadOnly := trivial
  have hread : (ClientCall.contextPack (contextProbeRequest context)).ReadOnly := rfl
  cases h with
  | refused checks e => exact absurd (List.mem_singleton.mp hc ▸ hauth) hmutates
  | rejected checks fails => exact absurd (List.mem_singleton.mp hc ▸ hauth) hmutates
  | asked probes safe calls =>
    obtain ⟨checks, ended, rfl⟩ | ⟨hflag, -⟩ := calls
    · simp only [List.mem_cons, List.not_mem_nil, or_false] at hc
      rcases hc with rfl | rfl
      · exact absurd hauth hmutates
      · exact absurd hread hmutates
    · exact ⟨hflag, safe⟩

/-- What comes of a write: without an answer that can be read it is the last call, and an answered one
is taken back by the next, which is the last; if that fails, the doctor says which memory stays. -/
theorem probed_write {context : OperatorContext} {probes : Probes}
    (h : Probed d writeProbe context probes) {before after request key}
    (hcalls : probes.calls = before ++ .rememberRaw request key :: after) :
    (∃ e, d.answer before (.rememberRaw request key) = .error e ∧ after = [] ∧ probes.ended = .raised e) ∨
    ∃ response identity, d.answer before (.rememberRaw request key) = .ok response ∧
      identity.sourceId = request.sourceId ∧
      after = [staleCall identity (RawMemoryResponse.revision response)] ∧
      ((∃ reply, d.answer (before ++ [.rememberRaw request key])
          (staleCall identity (RawMemoryResponse.revision response)) = .ok reply) ∨
        (∃ errorType, probes.ended = .cleanupFailed request.sourceId errorType) ∨
        ∃ e, probes.ended = .raised e ∧ e.isA remoteErrors = false) := by
  have hmem : ClientCall.rememberRaw request key ∈ probes.calls := by
    rw [hcalls]
    exact List.mem_append_right _ (.head _)
  cases h with
  | refused checks e => cases List.mem_singleton.mp hmem
  | rejected checks fails => cases List.mem_singleton.mp hmem
  | asked probes safe calls =>
    obtain ⟨checks, ended, rfl⟩ | ⟨-, hwritten⟩ := calls
    · simp at hmem
    · cases hwritten with
      | unmade checks e => simp at hmem
      | refused checks e request' key' failed =>
        obtain ⟨rfl, hcall, rfl⟩ := remember_last hcalls
        cases hcall
        exact .inl ⟨e, failed, rfl, rfl⟩
      | made checks identity ended request' key' source response written stale call outcome =>
        subst call
        obtain ⟨rfl, hcall, rfl⟩ := remember_third hcalls fun _ _ => nofun
        cases hcall
        exact .inr ⟨response, identity, written, source.symm, rfl, outcome⟩

theorem cleanup_line (sourceId errorType : String) : Check.line ⟨"write probe cleanup", .fail,
    "mark " ++ sourceId ++ " stale manually (" ++ errorType ++ ")"⟩ =
      "[FAIL] write probe cleanup: mark " ++ sourceId ++ " stale manually (" ++ errorType ++ ")" := by
  refine String.toList_inj.mp ?_
  simp [Check.line, CheckState.label]

theorem remote_line (className : String) : Check.line ⟨"remote probe", .fail,
    "verify URL, network, TLS, and credential (" ++ className ++ ")"⟩ =
      "[FAIL] remote probe: verify URL, network, TLS, and credential (" ++ className ++ ")" := by
  refine String.toList_inj.mp ?_
  simp [Check.line, CheckState.label]

theorem settle_raised {probes : Probes} {e : PyException} (h : probes.ended = .raised e) :
    probes.settle = if e.isA remoteErrors then
        .ok (probes.checks ++ [⟨"remote probe", .fail,
          "verify URL, network, TLS, and credential (" ++ e.className ++ ")"⟩])
      else .error e := by
  rw [Probes.settle, h]

/-- A last check that failed is on the lines, and the doctor returns `False`. -/
theorem command_failed {checks : List Check} {c : Check} (hfail : c.state = .fail)
    (h : (d.checks writeProbe).1 = (.ok (checks ++ [c]) : Except PyException (List Check)).map
      fun checks => (checks, !anyFails checks)) :
    (d.command writeProbe).1.ended = .ok false ∧ c.line ∈ (d.command writeProbe).1.lines := by
  have hfails : anyFails (checks ++ [c]) = true := by
    rw [anyFails_append, anyFails_single, hfail, decide_eq_true rfl, Bool.or_true]
  rw [Except.map, hfails] at h
  rw [command_ended, h, command_lines d writeProbe h]
  exact ⟨rfl, List.mem_map_of_mem (List.mem_append_right _ (.head _))⟩

end Command

/-! ### A write without an answer -/

def emptyPack : JSONObject :=
  [("sections", .list []), ("goal", .str "g"), ("intent", .str "general"), ("layer", .str "recall"),
    ("query", .str "g"), ("total_items", .int 0), ("usage_hint", .str ""), ("rendered_item_ids", .list [])]

/-- The answer to the write does not come in time. -/
def unansweredProbe : DoctorRun where
  machine :=
    { sampleMachine with
      host :=
        { Host.plain with
          sha256 := fun _ => "1"
          sha256_hex := fun _ => by decide
          sha256_ne_empty := fun _ => by decide
          loads := fun body => .ok (.dict (if body.isEmpty then operatorAnswer else emptyPack)) } }
  installedVersion := some HERMES_VERSION
  manifestPresent := true
  snapshot := fun _ => .ok (Store.empty.snapshot 0 0)
  makeClient := fun _ => .ok ()
  net := fun before _ =>
    match before with
    | [] => .answered sampleAnswer
    | [_] => .answered { sampleAnswer with chunks := [[0]], chunks_ne := by simp }
    | _ => .failed "ReadTimeout"
  requestId := fun _ => "r"
  latency := "1.0"
  probeId := "p"

end SibylMemory
