import SibylMemory.Configuration
import SibylMemory.DriverRuns
import SibylMemory.GateVerdict

/-!
# Running the real stack (`scripts/release_gates.py:233-286`, `302-386`, `528-588`)

The harness starts one driver for each selected scenario and aggregates what they report. With the
driver of this repository no gate opens: the stack has no hooks for fourteen of the scenarios.
-/

namespace SibylMemory.ReleaseGates
open StackDriver

/-! ### Settings -/

structure Stack extends StackSettings where
  hermesUrl : String
  sibylUrl : String
  profile : String

def HERMES_URL_ENV : String := "HERMES_SIBYL_E2E_HERMES_URL"
def SIBYL_URL_ENV : String := "HERMES_SIBYL_E2E_SIBYL_URL"
def PROFILE_ENV : String := "HERMES_SIBYL_E2E_PROFILE"

def REQUIRED_ENV : List String :=
  [HERMES_URL_ENV, SIBYL_URL_ENV, PROFILE_ENV, API_KEY_VARIABLE, SESSION_TOKEN_ENV]

/-- `_validated_url` -/
def validatedUrl (py : Interpreter) (value label : String) : Except String String :=
  let normalized := rstrip '/' (Text.strip value).toList
  match UrlSplit.urlsplit py.checkNetloc normalized with
  | none => .error "ValueError"
  | some parsed =>
    if (parsed.scheme ≠ "http".toList ∧ parsed.scheme ≠ "https".toList) ∨
        UrlSplit.hostname parsed.netloc = [] then
      .error (label ++ " URL must be an absolute HTTP or HTTPS URL")
    else if (UrlSplit.username parsed.netloc).getD [] ≠ [] ∨
        (UrlSplit.password parsed.netloc).getD [] ≠ [] then
      .error (label ++ " URL must not contain credentials")
    else .ok (String.ofList normalized)

/-- `StackSettings.from_environment` -/
def Stack.fromEnvironment (py : Interpreter) (environ : List (String × String)) :
    Except String Stack :=
  let missing := REQUIRED_ENV.filter fun name => decide (environText environ name = "")
  if missing ≠ [] then
    .error ("real-stack mode requires explicit environment values: " ++
      Text.joinWith ", " (missing.insertionSort (· ≤ ·)))
  else do
    let hermesUrl ← validatedUrl py ((environ.lookup HERMES_URL_ENV).getD "") "Hermes"
    let sibylUrl ← validatedUrl py ((environ.lookup SIBYL_URL_ENV).getD "") "Sibyl"
    let profile := environText environ PROFILE_ENV
    if profile.toList.any Text.isSpace then
      .error "HERMES_SIBYL_E2E_PROFILE must not contain whitespace"
    else
      .ok { hermesUrl, sibylUrl, profile
            apiKey := environText environ API_KEY_VARIABLE
            hermesSessionToken := environText environ SESSION_TOKEN_ENV }

/-! ### One driver -/

def requestPayload (scenario : ScenarioDefinition) (stack : Stack) : PyValue :=
  .dict [("schema_version", .str SCHEMA_VERSION),
    ("scenario", .dict [("number", .int scenario.number),
      ("slug", .str scenario.slug),
      ("title", .str scenario.title),
      ("gates", .list (scenario.gates.map fun gate => .str gate.value)),
      ("required_checks", .list (scenario.requiredChecks.map .str)),
      ("mutates_stack", .bool scenario.mutatesStack)]),
    ("stack", .dict [("hermes_url", .str stack.hermesUrl),
      ("sibyl_url", .str stack.sibylUrl),
      ("profile", .str stack.profile),
      ("expected_hermes_version", .str PINNED_HERMES_VERSION)])]

/-- The environment of a driver; the consent of another scenario is taken out of it. -/
def driverEnvironment (stack : Stack) (scenario : ScenarioDefinition) (mutationAuthorized : Bool)
    (environ : List (String × String)) : List (String × String) :=
  [(HERMES_URL_ENV, stack.hermesUrl), (SIBYL_URL_ENV, stack.sibylUrl), (PROFILE_ENV, stack.profile),
      (API_KEY_VARIABLE, stack.apiKey), (SESSION_TOKEN_ENV, stack.hermesSessionToken)] ++
    (if mutationAuthorized then [(MUTATION_ENV, scenario.slug)] else []) ++
    environ.filter fun entry => decide (entry.1 ≠ MUTATION_ENV)

def driverProcess (stack : Stack) (scenario : ScenarioDefinition) (mutationAuthorized : Bool)
    (environ : List (String × String)) : DriverProcess where
  arguments := [scenario.slug]
  stdin := .ok (requestPayload scenario stack)
  environ := driverEnvironment stack scenario mutationAuthorized environ

/-- How a driver runs: `subprocess.run` fails, or it starts the driver and stops it behind so many of
its calls, if at all. -/
inductive Launch where
  | failed (className : String)
  | started (limit : Option Nat)

/-- What a run of the harness meets. -/
structure StackRun where
  stack : Stack
  host : String → DriverHost
  launch : String → Launch
  durationMs : String → Int
  environ : List (String × String)
  runId : String
  generatedAt : String

abbrev StackTalk (ε α : Type) : Type := Dialogue DriverCall DriverCall.Reply ε α

/-- The driver as `subprocess.run` sees it. -/
def launched (p : StackTalk Empty DriverExit) : Launch → StackTalk Empty DriverResult
  | .failed className => pure (.raised className)
  | .started none => p.bind fun exit => pure (.exited exit.status exit.stdout)
  | .started (some limit) => (p.cut limit).bind fun
      | some exit => pure (.exited exit.status exit.stdout)
      | none => pure (.raised "TimeoutExpired")

/-- `run_driver` -/
def StackRun.drive (m : StackRun) (scenario : ScenarioDefinition) :
    StackTalk Empty (Except String ScenarioObservation) :=
  let process := driverProcess m.stack scenario scenario.mutatesStack m.environ
  (launched (main (m.host scenario.slug) process) (m.launch scenario.slug)).bind fun result =>
    pure (runDriver scenario m.stack.toStackSettings result)

/-! ### All selected scenarios -/

structure Driven where
  observations : List ScenarioObservation := []
  errors : List (String × String) := []

def Driven.note (d : Driven) (scenario : ScenarioDefinition) :
    Except String ScenarioObservation → Driven
  | .ok o => { d with observations := d.observations ++ [o] }
  | .error message => { d with errors := d.errors ++ [(scenario.slug, message)] }

/-- The loop of `run_real_stack`. -/
def StackRun.driveAll (m : StackRun) (d : Driven) : List ScenarioDefinition → StackTalk Empty Driven
  | [] => pure d
  | scenario :: scenarios =>
    (m.drive scenario).bind fun result => m.driveAll (d.note scenario result) scenarios

/-- The version of the observations, if they agree on one. -/
def observedVersion (observations : List ScenarioObservation) : String :=
  match (observations.map ScenarioObservation.hermesVersion).eraseDups with
  | [version] => version
  | _ => "unknown"

def scenarioNamed (slug : String) : Option ScenarioDefinition :=
  SCENARIOS.find? fun definition => decide (definition.slug = slug)

/-- The selected scenarios that need a consent and have none. -/
def missingConsent (selected allowed : List String) : List String :=
  (selected.filter fun slug =>
    ((scenarioNamed slug).map ScenarioDefinition.mutatesStack).getD false &&
      decide (slug ∉ allowed)).insertionSort (· ≤ ·)

/-- The `ValueError` of `run_real_stack`, if the selection is refused. -/
def refusal (selected allowed : List String) : Option String :=
  let unknown := fun slugs : List String => sortedNames (slugs.filter fun slug => !knownScenario slug)
  if unknown selected ≠ [] then
    some ("unknown scenarios: " ++ Text.joinWith ", " (unknown selected))
  else if unknown allowed ≠ [] then
    some ("unknown mutation consents: " ++ Text.joinWith ", " (unknown allowed))
  else if selected = [] then some "real-stack mode requires at least one explicit --scenario"
  else if missingConsent selected allowed ≠ [] then
    some ("mutating scenarios require matching --allow-mutation values: " ++
      Text.joinWith ", " (missingConsent selected allowed))
  else none

/-- `run_real_stack` -/
def StackRun.run (m : StackRun) (selected allowed : List String) :
    StackTalk Empty (Except String Receipt) :=
  match refusal selected allowed with
  | some message => pure (.error message)
  | none =>
    (m.driveAll {} (selected.eraseDups.filterMap scenarioNamed)).bind fun driven =>
      pure (.ok (aggregateReceipt driven.observations "real_stack" (observedVersion driven.observations)
        (selected.map fun slug => (slug, m.durationMs slug)) driven.errors m.runId m.generatedAt))

/-! ### What a driver is given -/

/-- What the settings hold when they were read from an environment. -/
structure Stack.Filled (stack : Stack) : Prop where
  hermesUrl : stack.hermesUrl ≠ ""
  sibylUrl : stack.sibylUrl ≠ ""
  profile : stack.profile ≠ ""
  apiKey : Text.strip stack.apiKey ≠ ""
  hermesSessionToken : Text.strip stack.hermesSessionToken ≠ ""

def driverRequest (scenario : ScenarioDefinition) (stack : Stack) : DriverRequest where
  scenario := scenario.slug
  requiredChecks := scenario.requiredChecks
  mutatesStack := scenario.mutatesStack
  hermesUrl := stack.hermesUrl
  sibylUrl := stack.sibylUrl
  profile := stack.profile
  expectedHermesVersion := PINNED_HERMES_VERSION

theorem scenarios_hooked : ∀ scenario ∈ SCENARIOS,
    (MISSING_HOOKS.lookup scenario.slug).isSome = true ∧ Text.strip scenario.slug = scenario.slug := by
  decide +kernel

section Given
variable {scenario : ScenarioDefinition} {stack : Stack}

theorem validatedUrl_ne {py : Interpreter} {value label url : String}
    (h : validatedUrl py value label = .ok url) : url ≠ "" := by
  rintro rfl
  unfold validatedUrl at h
  dsimp only at h
  split at h
  · cases h
  · rename_i parsed hparsed
    split at h
    · cases h
    · rename_i hscheme
      split at h
      · cases h
      · have hempty : rstrip '/' (Text.strip value).toList = [] :=
          String.ofList_eq_empty_iff.mp (Except.ok.inj h)
        rw [hempty] at hparsed
        simp [UrlSplit.urlsplit, UrlSplit.clean, UrlSplit.splitScheme, UrlSplit.splitNetloc] at hparsed
        obtain ⟨-, rfl⟩ := hparsed
        exact hscheme (.inl ⟨by decide, by decide⟩)

theorem environText_strip (environ : List (String × String)) (name : String) :
    Text.strip (environText environ name) = environText environ name := Text.strip_strip _

theorem fromEnvironment_filled {py : Interpreter} {environ : List (String × String)}
    (h : Stack.fromEnvironment py environ = .ok stack) : stack.Filled := by
  unfold Stack.fromEnvironment at h
  dsimp only at h
  split at h
  · cases h
  · rename_i hmissing
    have hpresent : ∀ name ∈ REQUIRED_ENV, environText environ name ≠ "" := by
      intro name hname hempty
      refine hmissing fun hnil => ?_
      exact List.not_mem_nil (hnil ▸ List.mem_filter.mpr ⟨hname, decide_eq_true hempty⟩)
    obtain ⟨hermesUrl, hhermes, h⟩ := Fallible.bind_ok.mp h
    obtain ⟨sibylUrl, hsibyl, h⟩ := Fallible.bind_ok.mp h
    split at h
    · cases h
    · cases h
      exact {
        hermesUrl := validatedUrl_ne hhermes
        sibylUrl := validatedUrl_ne hsibyl
        profile := hpresent _ (by decide)
        apiKey := (environText_strip environ _).symm ▸ hpresent _ (by decide)
        hermesSessionToken := (environText_strip environ _).symm ▸ hpresent _ (by decide) }

theorem stringArray_strings (names : List String) : stringArray (.list (names.map .str)) = some names := by
  induction names with
  | nil => rfl
  | cons name names ih =>
    simp only [stringArray, List.map_cons, List.mapM_cons, Schema.asString] at ih ⊢
    rw [ih]
    rfl

/-- The driver reads back what the harness wrote. -/
theorem requestPayload_parse (filled : stack.Filled)
    (hknown : (MISSING_HOOKS.lookup scenario.slug).isSome = true) :
    DriverRequest.parse (requestPayload scenario stack) scenario.slug =
      .ok (driverRequest scenario stack) := by
  have htext {s : String} (hs : s ≠ "") : nonEmptyText (.str s) = some s := if_neg hs
  have hslug : isText scenario.slug (.str scenario.slug) = true := decide_eq_true rfl
  have hschema : isText "hermes-sibyl-release-gates/v1" (.str SCHEMA_VERSION) = true := rfl
  have hversion : nonEmptyText (.str PINNED_HERMES_VERSION) = some PINNED_HERMES_VERSION := rfl
  have hnone : (MISSING_HOOKS.lookup scenario.slug).isNone = false := by
    rw [← Option.not_isSome, hknown]
    rfl
  simp [DriverRequest.parse, requestPayload, dictOf, Schema.get, PyValue.lookup, hschema, hslug, hnone,
    hversion, stringArray_strings, asBoolean, htext filled.hermesUrl, htext filled.sibylUrl,
    htext filled.profile, driverRequest]

/-- The harness gives its driver both secrets, and the consent exactly if the scenario mutates. -/
theorem driverProcess_accept (filled : stack.Filled) (hscenario : scenario ∈ SCENARIOS)
    (environ : List (String × String)) :
    (driverProcess stack scenario scenario.mutatesStack environ).accept scenario.slug =
      .ok (driverRequest scenario stack) := by
  obtain ⟨hknown, hstrip⟩ := scenarios_hooked scenario hscenario
  have hkey : environText (driverEnvironment stack scenario scenario.mutatesStack environ)
      API_KEY_VARIABLE = Text.strip stack.apiKey := by
    simp [environText, driverEnvironment, API_KEY_VARIABLE, HERMES_URL_ENV, SIBYL_URL_ENV, PROFILE_ENV,
      List.lookup_cons]
  have htoken : environText (driverEnvironment stack scenario scenario.mutatesStack environ)
      SESSION_TOKEN_ENV = Text.strip stack.hermesSessionToken := by
    simp [environText, driverEnvironment, API_KEY_VARIABLE, HERMES_URL_ENV, SIBYL_URL_ENV, PROFILE_ENV,
      SESSION_TOKEN_ENV, List.lookup_cons]
  have hconsent (hmutates : scenario.mutatesStack = true) :
      environText (driverEnvironment stack scenario scenario.mutatesStack environ) MUTATION_ENV =
        scenario.slug := by
    simp [environText, driverEnvironment, API_KEY_VARIABLE, HERMES_URL_ENV, SIBYL_URL_ENV, PROFILE_ENV,
      SESSION_TOKEN_ENV, MUTATION_ENV, List.lookup_cons, hmutates, hstrip]
  exact accept_ok.mpr ⟨_, rfl, requestPayload_parse filled hknown, hkey.trans_ne filled.apiKey,
    htoken.trans_ne filled.hermesSessionToken, hconsent⟩

/-! ### Receipts -/

theorem booleanEntries_lookup {es : JSONObject} (h : ∀ e ∈ es, ∃ b : Bool, e.2 = .bool b) :
    ∃ checks, booleanEntries es = some checks ∧
      ∀ name, PyValue.lookup name es = (checks.lookup name).map .bool := by
  induction es with
  | nil => exact ⟨[], rfl, fun _ => rfl⟩
  | cons e es ih =>
    obtain ⟨key, value⟩ := e
    obtain ⟨b, rfl⟩ := h _ (.head _)
    obtain ⟨checks, hchecks, hlookup⟩ := ih fun e he => h e (.tail _ he)
    refine ⟨(key, b) :: checks, by rw [booleanEntries, hchecks]; rfl, fun name => ?_⟩
    rw [PyValue.lookup, List.lookup_cons, hlookup]
    by_cases hname : key = name
    · simp [hname]
    · have hname' : (name == key) = false := by simpa using fun he => hname he.symm
      rw [if_neg hname, hname']

theorem lookup_checks (checks : List (String × Bool)) (name : String) :
    PyValue.lookup name (checks.map fun check => (check.1, PyValue.bool check.2)) =
      (checks.lookup name).map .bool := by
  induction checks with
  | nil => rfl
  | cons check checks ih =>
    rw [List.map_cons, PyValue.lookup, List.lookup_cons, ih]
    by_cases hname : check.1 = name
    · simp [hname]
    · have hname' : (name == check.1) = false := by simpa using fun he => hname he.symm
      rw [if_neg hname, hname']

/-- What the harness takes from a receipt that the driver wrote. -/
theorem receipt_accepted (settings : StackSettings) {r : DriverRequest} {passed : Bool}
    {checks : List (String × Bool)} {metrics evidence : JSONObject} (hslug : r.scenario = scenario.slug)
    (hversion : r.expectedHermesVersion = PINNED_HERMES_VERSION)
    (hmetrics : (PyValue.dict metrics).canonical.isSome = true)
    (hevidence : (PyValue.dict evidence).canonical.isSome = true) :
    ∃ o, runDriver scenario settings (.exited 0 (written (receipt r passed checks metrics evidence))) =
        .ok o ∧ o.scenario = scenario.slug ∧ o.hermesVersion = PINNED_HERMES_VERSION ∧
      o.claimedPass = passed ∧ ∀ name, o.checks.lookup name = checks.lookup name := by
  have hchecks : (PyValue.dict (checks.map fun check => (check.1, PyValue.bool check.2))).canonical =
      some (.dict (PyValue.sortEntries (checks.map fun check => (check.1, PyValue.bool check.2)))) := by
    rw [PyValue.canonical, PyValue.canonicalEntries_of_fixed]
    · rfl
    · intro e he
      obtain ⟨check, -, rfl⟩ := List.mem_map.mp he
      rfl
  obtain ⟨m, hm⟩ := Option.isSome_iff_exists.mp hmetrics
  obtain ⟨metrics', rfl⟩ := PyValue.canonical_dict_shape hm
  obtain ⟨v, hv⟩ := Option.isSome_iff_exists.mp hevidence
  obtain ⟨evidence', rfl⟩ := PyValue.canonical_dict_shape hv
  obtain ⟨w, hw⟩ : ∃ w, written (receipt r passed checks metrics evidence) = some w := by
    refine Option.isSome_iff_exists.mp ?_
    rw [written, PyValue.canonical, Option.isSome_map]
    refine PyValue.canonicalEntries_isSome fun e he => ?_
    simp only [receipt, List.mem_cons, List.not_mem_nil, or_false] at he
    rcases he with rfl | rfl | rfl | rfl | rfl | rfl | rfl
    · rfl
    · rfl
    · rfl
    · rfl
    · rw [hchecks]
      rfl
    · exact hmetrics
    · exact hevidence
  obtain ⟨es, rfl⟩ := PyValue.canonical_dict_shape hw
  have hget := PyValue.canonical_dict hw
  have hbooleans : ∀ e ∈ PyValue.sortEntries (checks.map fun check => (check.1, PyValue.bool check.2)),
      ∃ b : Bool, e.2 = .bool b := by
    intro e he
    obtain ⟨check, -, rfl⟩ := List.mem_map.mp (PyValue.mem_sortEntries.mp he)
    exact ⟨check.2, rfl⟩
  obtain ⟨read, hread, hlookup⟩ := booleanEntries_lookup hbooleans
  have hsame (name : String) : read.lookup name = checks.lookup name := by
    have hname := hlookup name
    rw [PyValue.lookup_sortEntries, lookup_checks] at hname
    exact Option.map_injective (fun a b h => PyValue.bool.inj h) hname.symm
  have hscenario : Schema.get es "scenario" = .str r.scenario := by rw [Schema.get, hget]; rfl
  have hruntime : hermesVersionOf es = some r.expectedHermesVersion := by
    rw [hermesVersionOf, Schema.get, hget]
    rfl
  have hpassed : Schema.get es "passed" = .bool passed := by rw [Schema.get, hget]; rfl
  have hchecked : (dictOf (Schema.get es "checks")).bind booleanEntries = some read := by
    have hlookup : PyValue.lookup "checks" (receipt r passed checks metrics evidence) =
      some (.dict (checks.map fun check => (check.1, PyValue.bool check.2))) := rfl
    rw [Schema.get, hget, hlookup, Option.bind_some, hchecks]
    exact hread
  have hmetric : PyValue.lookup "metrics" es = some (.dict metrics') := by rw [hget]; exact hm
  have hevident : PyValue.lookup "evidence" es = some (.dict evidence') := by rw [hget]; exact hv
  have haccept : acceptPayload scenario es =
      .ok ⟨PINNED_HERMES_VERSION, passed, read, metrics', evidence'⟩ := by
    unfold acceptPayload
    rw [hscenario, hruntime, hpassed, hchecked, hversion, hslug]
    have hstrip : Text.strip PINNED_HERMES_VERSION = PINNED_HERMES_VERSION := by decide +kernel
    have hne : PINNED_HERMES_VERSION ≠ "" := by decide
    simp only [isText, decide_true, Bool.true_eq_false, if_false, hstrip, hne, hmetric, hevident,
      Option.getD_some, dictOf]
    rfl
  refine ⟨DriverPayload.observation scenario settings ⟨_, passed, read, metrics', evidence'⟩, ?_, rfl,
    rfl, rfl, hsame⟩
  rw [hw, runDriver, acceptResult]
  dsimp only
  rw [if_neg (by decide)]
  exact congrArg _ haccept

end Given

/-! ### Observations -/

/-- The transcript holds the answers on which the capability confinement rests. -/
def StackRun.Enforced (m : StackRun) (log : Transcript) : Prop :=
  (∃ reply auth, authReplied reply ∈ log ∧
    requestJson (m.host "capability-confinement") ("GET" ++ " " ++ SIBYL_AUTH_PATH) reply = .ok auth ∧
    profileEnforced auth = true) ∧
  ∀ p ∈ PROBES, p.Reported log 403

/-- An observation reports every required check and no other, and claims a pass on true checks only:
for the one scenario that misses no hook, and on the answers in the transcript. -/
structure StackRun.Observed (m : StackRun) (definition : ScenarioDefinition) (log : Transcript)
    (o : ScenarioObservation) : Prop where
  scenario : o.scenario = definition.slug
  version : o.hermesVersion = PINNED_HERMES_VERSION
  checks : ∀ name, (o.checks.lookup name).isSome = true ↔ name ∈ definition.requiredChecks
  claimed : o.claimedPass = true ↔ ∀ name ∈ definition.requiredChecks, o.checks.lookup name = some true
  passed : o.claimedPass = true → definition.slug = "capability-confinement" ∧ m.Enforced log

theorem scenarios_checked : ∀ scenario ∈ SCENARIOS, scenario.requiredChecks ≠ [] ∧
    (MISSING_HOOKS.lookup scenario.slug = some [] → scenario.slug = "capability-confinement") := by
  decide +kernel

section Observing
variable {m : StackRun} {scenario : ScenarioDefinition} {log : Transcript}

theorem StackRun.Observed.mono {log' : Transcript} (hlog : log <+: log') {o : ScenarioObservation}
    (h : m.Observed scenario log o) : m.Observed scenario log' o :=
  { h with
    passed := fun hclaimed => by
      obtain ⟨hslug, ⟨reply, auth, hreply, hauth⟩, hprobes⟩ := h.passed hclaimed
      exact ⟨hslug, ⟨reply, auth, hlog.subset hreply, hauth⟩, fun p hp => (hprobes p hp).mono hlog⟩ }

theorem lookup_false (names : List String) (name : String) :
    (names.map fun check => (check, false)).lookup name = if name ∈ names then some false else none := by
  induction names with
  | nil => rfl
  | cons first names ih =>
    rw [List.map_cons, List.lookup_cons, ih]
    by_cases hname : name = first
    · simp [hname]
    · have hname' : (name == first) = false := by simpa using hname
      simp [hname, hname']

theorem blocker_canonical (hooks : List String) : (PyValue.dict [("release_blocker",
    .dict [("kind", .str "missing_disposable_stack_hooks"),
      ("missing_hooks", .list (hooks.map .str))])]).canonical.isSome = true := by
  have hhooks : (PyValue.list (hooks.map .str)).canonical.isSome = true := by
    rw [PyValue.canonical, Option.isSome_map]
    refine PyValue.canonicalList_isSome fun x hx => ?_
    obtain ⟨hook, -, rfl⟩ := List.mem_map.mp hx
    rfl
  rw [PyValue.canonical, Option.isSome_map]
  refine PyValue.canonicalEntries_isSome fun e he => ?_
  cases List.mem_singleton.mp he
  rw [PyValue.canonical, Option.isSome_map]
  refine PyValue.canonicalEntries_isSome fun e he => ?_
  simp only [List.mem_cons, List.not_mem_nil, or_false] at he
  rcases he with rfl | rfl
  · rfl
  · exact hhooks

theorem statuses_canonical (statuses : List (String × Nat)) : (PyValue.dict [("disallowed_statuses",
    .dict (statuses.map fun s => (s.1, .int s.2)))]).canonical.isSome = true := by
  rw [PyValue.canonical, Option.isSome_map]
  refine PyValue.canonicalEntries_isSome fun e he => ?_
  cases List.mem_singleton.mp he
  rw [PyValue.canonical, Option.isSome_map]
  refine PyValue.canonicalEntries_isSome fun e he => ?_
  obtain ⟨s, -, rfl⟩ := List.mem_map.mp he
  rfl

/-- A blocked receipt reports every required check as false. -/
theorem blocked_observed (hscenario : scenario ∈ SCENARIOS) (hooks : List String) :
    ∃ o, runDriver scenario m.stack.toStackSettings
        (.exited 0 (written (blockedReceipt (driverRequest scenario m.stack) hooks))) = .ok o ∧
      m.Observed scenario log o := by
  obtain ⟨o, hrun, hslug, hversion, hclaimed, hlookup⟩ := @receipt_accepted scenario
    m.stack.toStackSettings (driverRequest scenario m.stack) false
    (scenario.requiredChecks.eraseDups.map fun check => (check, false)) [] _ rfl rfl rfl
    (blocker_canonical hooks)
  have hchecks (name : String) : o.checks.lookup name =
      if name ∈ scenario.requiredChecks then some false else none := by
    rw [hlookup, lookup_false]
    simp only [List.mem_eraseDups]
  refine ⟨o, hrun, hslug, hversion, fun name => ?_, ?_, fun h => nomatch hclaimed.symm.trans h⟩
  · rw [hchecks]
    split <;> simp [*]
  · obtain ⟨first, hfirst⟩ := List.exists_mem_of_ne_nil _ (scenarios_checked scenario hscenario).1
    rw [hclaimed]
    refine iff_of_false nofun fun h => ?_
    have hfalse := h first hfirst
    rw [hchecks, if_pos hfirst] at hfalse
    cases hfalse

theorem forall₂_mem {α β : Type} {R : α → β → Prop} {l : List α} {l' : List β}
    (h : List.Forall₂ R l l') {a : α} (ha : a ∈ l) : ∃ b ∈ l', R a b := by
  induction h with
  | nil => cases ha
  | cons hab _ ih =>
    rcases List.mem_cons.mp ha with rfl | ha
    · exact ⟨_, .head _, hab⟩
    · obtain ⟨b, hb, hrel⟩ := ih ha
      exact ⟨b, .tail _ hb, hrel⟩

theorem confined_observed (hscenario : scenario ∈ SCENARIOS) {out : JSONObject}
    (hconfined : Confined (m.host scenario.slug) (driverRequest scenario m.stack) log out) :
    ∃ o, runDriver scenario m.stack.toStackSettings (.exited 0 (written out)) = .ok o ∧
      m.Observed scenario log o := by
  obtain ⟨hhooks, reply, auth, statuses, hreply, hjson, hall, rfl, hnames⟩ := hconfined
  have hslug := (scenarios_checked scenario hscenario).2 hhooks
  obtain ⟨o, hrun, hscenario, hversion, hclaimed, hlookup⟩ := @receipt_accepted scenario
    m.stack.toStackSettings (driverRequest scenario m.stack)
    ((confinementChecks (profileEnforced auth) statuses).all Prod.snd)
    (confinementChecks (profileEnforced auth) statuses)
    [("disallowed_probe_count", .int statuses.length)] _ rfl rfl rfl (statuses_canonical statuses)
  have hchecks : confinementChecks (profileEnforced auth) statuses =
      [("memory_provider_profile_enforced_server_side", profileEnforced auth),
        ("all_disallowed_endpoints_return_403", statuses.all fun s => decide (s.2 = 403))] := rfl
  rw [hchecks] at hlookup hnames hclaimed
  have hnames (name : String) : name ∈ scenario.requiredChecks ↔
      name = "memory_provider_profile_enforced_server_side" ∨
        name = "all_disallowed_endpoints_return_403" :=
    (hnames name).trans (by simp)
  refine ⟨o, hrun, hscenario, hversion, fun name => ?_, ?_, fun hpassed => ⟨hslug, ?_⟩⟩
  · rw [hlookup, hnames, List.lookup_cons, List.lookup_cons]
    by_cases hfirst : name = "memory_provider_profile_enforced_server_side"
    · simp [hfirst]
    · rw [beq_false_of_ne hfirst]
      by_cases hsecond : name = "all_disallowed_endpoints_return_403"
      · simp [hsecond]
      · rw [beq_false_of_ne hsecond]
        simp [hfirst, hsecond]
  · simp [hclaimed, hlookup, hnames, List.lookup_cons]
  · simp only [hclaimed, List.all_cons, List.all_nil, Bool.and_true, Bool.and_eq_true, List.all_eq_true,
      decide_eq_true_eq] at hpassed
    refine ⟨⟨reply, auth, hreply, hslug ▸ hjson, hpassed.1⟩, fun p hp => ?_⟩
    obtain ⟨s, hs, -, hreported⟩ := forall₂_mem hall hp
    exact hpassed.2 s hs ▸ hreported

/-- What `run_driver` says of a driver that wrote no receipt. -/
def DriverFault (message : String) : Prop :=
  (∃ className, message = "scenario driver failed: " ++ className) ∨
    message = "scenario driver exited with status 1" ∨ message = "scenario driver exited with status 2"

theorem fault_ne {message : String} (h : DriverFault message) : message ≠ "" := by
  rcases h with ⟨className, rfl⟩ | rfl | rfl
  · intro he
    have hlength := congrArg String.length he
    simp at hlength
  · decide
  · decide

theorem launched_ends {p : StackTalk Empty DriverExit} {sound : Transcript → DriverExit → Prop}
    (hp : p.Ends (fun result log => ∃ exit, result = .ok exit ∧ sound log exit) log) (launch : Launch) :
    (launched p launch).Ends (fun result log => ∃ r, result = .ok r ∧ ((∃ className, r = .raised className) ∨
      ∃ exit, r = .exited exit.status exit.stdout ∧ sound log exit)) log := by
  cases launch with
  | failed className => exact ⟨_, rfl, .inl ⟨className, rfl⟩⟩
  | started limit =>
    cases limit with
    | none =>
      refine hp.bind (fun exit log hexit => ?_) (fun e => nomatch e)
      obtain ⟨_, ⟨⟩, hsound⟩ := hexit
      exact ⟨_, rfl, .inr ⟨exit, rfl, hsound⟩⟩
    | some limit =>
      refine (hp.cut limit).bind (fun exit log hexit => ?_) (fun e => nomatch e)
      obtain hnone | ⟨result, hresult, exit', rfl, hsound⟩ := hexit
      · cases hnone
        exact ⟨_, rfl, .inl ⟨_, rfl⟩⟩
      · cases hresult
        exact ⟨_, rfl, .inr ⟨exit', rfl, hsound⟩⟩

/-- The harness takes every receipt that the driver writes. -/
theorem drive_ends (filled : m.stack.Filled) (hscenario : scenario ∈ SCENARIOS) (log : Transcript) :
    (m.drive scenario).Ends (fun result log => ∃ outcome, result = .ok outcome ∧
      (∀ o, outcome = .ok o → m.Observed scenario log o) ∧
      ∀ message, outcome = .error message → DriverFault message) log := by
  refine (launched_ends (main_ends _ log _) (m.launch scenario.slug)).bind
    (fun result log hresult => ?_) (fun e => nomatch e)
  obtain ⟨r, ⟨⟩, hr⟩ := hresult
  refine ⟨_, rfl, ?_⟩
  rcases hr with ⟨className, rfl⟩ | ⟨exit, rfl, hone | htwo | ⟨hzero, slug, request, out, harguments,
    haccept, hstdout, hkind⟩⟩
  · exact ⟨nofun, fun message hmessage => .inl ⟨className, (Except.error.inj hmessage).symm⟩⟩
  · rw [hone]
    exact ⟨nofun, fun message hmessage => .inr (.inl (Except.error.inj hmessage).symm)⟩
  · rw [htwo]
    exact ⟨nofun, fun message hmessage => .inr (.inr (Except.error.inj hmessage).symm)⟩
  · obtain rfl : scenario.slug = slug := (List.cons.inj harguments).1
    obtain rfl : driverRequest scenario m.stack = request :=
      Except.ok.inj ((driverProcess_accept filled hscenario m.environ).symm.trans haccept)
    rw [hzero, hstdout]
    obtain ⟨o, ho, hobserved⟩ : ∃ o, runDriver scenario m.stack.toStackSettings
        (.exited 0 (written out)) = .ok o ∧ m.Observed scenario log o := by
      rcases hkind with hconfined | ⟨hooks, rfl⟩
      · exact confined_observed hscenario hconfined
      · exact blocked_observed hscenario hooks
    rw [ho]
    exact ⟨fun o' ho' => Except.ok.inj ho' ▸ hobserved, nofun⟩

end Observing

end SibylMemory.ReleaseGates
