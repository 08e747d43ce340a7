import Mathlib.Data.List.Dedup
import SibylMemory.RealStack

/-!
# What a run of the real stack can show

Every selected scenario is reported once, by an observation or by an error. The receipt of a run
never passes, and its requests stay within what was selected and consented to.
-/

namespace SibylMemory.ReleaseGates
open StackDriver

/-! ### The loop -/

/-- What the loop has gathered behind the scenarios `done`. -/
structure Driven.Sound (m : StackRun) (done : List ScenarioDefinition) (log : Transcript) (d : Driven) :
    Prop where
  observed : ∀ o ∈ d.observations, ∃ definition ∈ done, m.Observed definition log o
  faults : ∀ e ∈ d.errors, DriverFault e.2
  reported : (d.observations.map ScenarioObservation.scenario ++ d.errors.map Prod.fst).Perm
    (done.map ScenarioDefinition.slug)

section Loop
variable {m : StackRun} {done scenarios : List ScenarioDefinition} {log : Transcript} {d : Driven}

theorem Driven.Sound.note (hd : d.Sound m done log) {log' : Transcript} (hlog : log <+: log')
    {scenario : ScenarioDefinition} {outcome : Except String ScenarioObservation}
    (ho : ∀ o, outcome = .ok o → m.Observed scenario log' o)
    (he : ∀ message, outcome = .error message → DriverFault message) :
    (d.note scenario outcome).Sound m (done ++ [scenario]) log' := by
  have hobserved : ∀ o ∈ d.observations, ∃ definition ∈ done ++ [scenario], m.Observed definition log' o := by
    intro o hmem
    obtain ⟨definition, hdefinition, hsound⟩ := hd.observed o hmem
    exact ⟨definition, List.mem_append_left _ hdefinition, hsound.mono hlog⟩
  have hdone : ((done ++ [scenario]).map ScenarioDefinition.slug) =
      done.map ScenarioDefinition.slug ++ [scenario.slug] := List.map_append
  cases outcome with
  | ok o =>
    have hslug := (ho o rfl).scenario
    exact {
      observed := by
        intro o' hmem
        rcases List.mem_append.mp hmem with hmem | hmem
        · exact hobserved o' hmem
        · cases List.mem_singleton.mp hmem
          exact ⟨scenario, List.mem_append_right _ (.head _), ho o rfl⟩
      faults := hd.faults
      reported := by
        rw [hdone]
        simp only [Driven.note, List.map_append, List.map_cons, List.map_nil, hslug, List.append_assoc]
        exact (List.perm_append_comm_assoc _ _ _).trans
          ((List.perm_append_comm).trans (hd.reported.append_right _)) }
  | error message =>
    exact {
      observed := hobserved
      faults := by
        intro e hmem
        rcases List.mem_append.mp hmem with hmem | hmem
        · exact hd.faults e hmem
        · cases List.mem_singleton.mp hmem
          exact he message rfl
      reported := by
        rw [hdone]
        simp only [Driven.note, List.map_append, List.map_cons, List.map_nil, ← List.append_assoc]
        exact hd.reported.append_right _ }

theorem driveAll_ends (filled : m.stack.Filled) (hscenarios : ∀ scenario ∈ scenarios, scenario ∈ SCENARIOS)
    (hd : d.Sound m done log) : (m.driveAll d scenarios).Ends (fun result log => ∃ d',
      result = .ok d' ∧ d'.Sound m (done ++ scenarios) log) log := by
  induction scenarios generalizing d done log with
  | nil => exact ⟨d, rfl, by rwa [List.append_nil]⟩
  | cons scenario scenarios ih =>
    refine ((drive_ends filled (hscenarios scenario (.head _)) log).and (Dialogue.ends_extends _ log)).bind
      (fun result log' hpost => ?_) (fun e => nomatch e)
    obtain ⟨⟨outcome, ⟨⟩, ho, he⟩, hlog⟩ := hpost
    have hrest := ih (fun s hs => hscenarios s (.tail _ hs)) (hd.note hlog ho he)
    rwa [List.append_assoc] at hrest

theorem drive_asks (filled : m.stack.Filled) {scenario : ScenarioDefinition}
    (hscenario : scenario ∈ SCENARIOS) :
    (m.drive scenario).Asks (driverRequest scenario m.stack).Calls := by
  have hmain : (main (m.host scenario.slug) (driverProcess m.stack scenario scenario.mutatesStack
      m.environ)).Asks (driverRequest scenario m.stack).Calls := by
    refine (main_asks _ _).mono ?_
    rintro c ⟨slug, r, harguments, haccept, hc⟩
    obtain rfl : scenario.slug = slug := (List.cons.inj harguments).1
    obtain rfl : driverRequest scenario m.stack = r :=
      Except.ok.inj ((driverProcess_accept filled hscenario m.environ).symm.trans haccept)
    exact hc
  refine Dialogue.Asks.bind ?_ fun result => Dialogue.asks_pure _ _
  unfold launched
  split
  · exact Dialogue.asks_pure _ _
  · exact hmain.bind fun exit => Dialogue.asks_pure _ _
  · refine (hmain.cut _).bind fun exit => ?_
    split <;> exact Dialogue.asks_pure _ _

theorem driveAll_asks (filled : m.stack.Filled)
    (hscenarios : ∀ scenario ∈ scenarios, scenario ∈ SCENARIOS) (d : Driven) :
    (m.driveAll d scenarios).Asks fun c => ∃ scenario ∈ scenarios,
      (driverRequest scenario m.stack).Calls c := by
  induction scenarios generalizing d with
  | nil => exact Dialogue.asks_pure _ _
  | cons scenario scenarios ih =>
    have hfirst := (drive_asks filled (hscenarios scenario (.head _))).mono
      fun c hc => (⟨scenario, .head _, hc⟩ : ∃ s ∈ scenario :: scenarios, (driverRequest s m.stack).Calls c)
    refine hfirst.bind fun outcome => ?_
    exact (ih (fun s hs => hscenarios s (.tail _ hs)) _).mono
      fun c ⟨s, hs, hc⟩ => ⟨s, .tail _ hs, hc⟩

end Loop

/-! ### The selection -/

theorem nodup_eraseDups (l : List String) : l.eraseDups.Nodup := by
  match l with
  | [] => exact List.nodup_nil
  | a :: l =>
    rw [List.eraseDups_cons, List.nodup_cons]
    refine ⟨fun ha => ?_, nodup_eraseDups _⟩
    simpa using (List.mem_filter.mp (List.mem_eraseDups.mp ha)).2
termination_by l.length
decreasing_by exact Nat.lt_succ_of_le (List.length_filter_le _ _)

theorem scenarios_mutate : ∀ definition ∈ SCENARIOS, definition.mutatesStack = true := by decide

section Selection
variable {selected allowed : List String} {slug : String} {definition : ScenarioDefinition}

theorem scenarioNamed_some : scenarioNamed slug = some definition ↔
    definition ∈ SCENARIOS ∧ definition.slug = slug := by
  constructor
  · intro h
    exact ⟨List.mem_of_find?_eq_some h, by simpa using List.find?_some h⟩
  · rintro ⟨hmem, rfl⟩
    have hfound : (SCENARIOS.find? fun d => decide (d.slug = definition.slug)).isSome = true := by
      rw [List.find?_isSome]
      exact ⟨definition, hmem, decide_eq_true rfl⟩
    obtain ⟨d, hd⟩ := Option.isSome_iff_exists.mp hfound
    have hsame : d = definition := List.inj_on_of_nodup_map slugs_nodup (List.mem_of_find?_eq_some hd)
      hmem (by simpa using List.find?_some hd)
    exact hsame ▸ hd

theorem sortedNames_nil {names : List String} : sortedNames names = [] ↔ names = [] := by
  rw [sortedNames, ← List.length_eq_zero_iff, List.length_insertionSort, List.length_eq_zero_iff,
    List.dedup_eq_nil]

/-- A selection that is not refused is known and consented to. -/
theorem refusal_none (h : refusal selected allowed = none) (hslug : slug ∈ selected) :
    (∃ definition, scenarioNamed slug = some definition) ∧ slug ∈ allowed := by
  unfold refusal at h
  dsimp only at h
  split at h
  · cases h
  rename_i hknown
  split at h
  · cases h
  split at h
  · cases h
  split at h
  · cases h
  rename_i hconsent
  have hslugknown : knownScenario slug = true := by
    by_contra hunknown
    rw [ne_eq, not_not, sortedNames_nil] at hknown
    have hmem : slug ∈ selected.filter fun slug => !knownScenario slug :=
      List.mem_filter.mpr ⟨hslug, by simpa using hunknown⟩
    exact List.not_mem_nil (hknown ▸ hmem)
  obtain ⟨definition, hmem, hdefinition⟩ := List.mem_map.mp (knownScenario_iff.mp hslugknown)
  have hnamed : scenarioNamed slug = some definition := scenarioNamed_some.mpr ⟨hmem, hdefinition⟩
  refine ⟨⟨definition, hnamed⟩, ?_⟩
  by_contra hmissing
  rw [ne_eq, not_not, missingConsent, ← List.length_eq_zero_iff, List.length_insertionSort,
    List.length_eq_zero_iff, List.filter_eq_nil_iff] at hconsent
  refine hconsent slug hslug ?_
  rw [hnamed, Option.map_some, Option.getD_some, scenarios_mutate definition hmem]
  simpa using hmissing

/-- The scenarios that are driven are those selected, each once. -/
theorem selected_slugs (h : refusal selected allowed = none) :
    (selected.eraseDups.filterMap scenarioNamed).map ScenarioDefinition.slug = selected.eraseDups := by
  have hall : ∀ slug ∈ selected.eraseDups, ∃ definition, scenarioNamed slug = some definition :=
    fun slug hslug => (refusal_none h (List.mem_eraseDups.mp hslug)).1
  generalize selected.eraseDups = slugs at hall
  induction slugs with
  | nil => rfl
  | cons slug slugs ih =>
    obtain ⟨definition, hdefinition⟩ := hall slug (.head _)
    rw [List.filterMap_cons_some hdefinition, List.map_cons, (scenarioNamed_some.mp hdefinition).2,
      ih fun slug hslug => hall slug (.tail _ hslug)]

end Selection

/-! ### The receipt -/

section Verdict
variable {m : StackRun} {selected allowed : List String}

theorem scenarioReceipt_notRun {definition : ScenarioDefinition}
    {observation : Option ScenarioObservation} {ms : Int} {error : String} :
    (scenarioReceipt definition observation ms error).status = .notRun ↔
      observation = none ∧ error = "" := by
  by_cases herror : error = ""
  · cases observation with
    | none => simp [scenarioReceipt, herror]
    | some o =>
      simp only [scenarioReceipt, Option.isSome_some, Bool.true_or, if_true, reduceCtorEq, false_and,
        iff_false]
      split <;> intro h <;> cases h
  · simp [scenarioReceipt, herror]

/-- Every gate has a scenario besides the capability confinement. -/
theorem gates_blocked : ∀ gate : GateName, ∃ definition ∈ SCENARIOS, gate ∈ definition.gates ∧
    definition.slug ≠ "capability-confinement" := by
  intro gate
  cases gate <;> decide

theorem gateReceipt_fails {receipts : List ScenarioReceipt} {gate : GateName} {r : ScenarioReceipt}
    (hr : r ∈ receipts) (hgate : gate ∈ r.definition.gates) (hstatus : r.status ≠ .passed) :
    (gateReceipt receipts gate).passed = false := by
  rw [Bool.eq_false_iff]
  intro hpassed
  simp only [gateReceipt, Bool.and_eq_true, List.all_eq_true, decide_eq_true_eq] at hpassed
  exact hstatus (hpassed.1 r (List.mem_filter.mpr ⟨hr, decide_eq_true hgate⟩))

/-- What is reported of the scenarios that were driven. -/
theorem sound_reported {done : List ScenarioDefinition} {log : Transcript} {d : Driven}
    (hd : d.Sound m done log) (hnodup : (done.map ScenarioDefinition.slug).Nodup) :
    (d.observations.map ScenarioObservation.scenario).Nodup ∧
    ∀ slug, ((∀ o ∈ d.observations, o.scenario ≠ slug) ∧ (d.errors.lookup slug).getD "" = "") ↔
      slug ∉ done.map ScenarioDefinition.slug := by
  have hboth := hd.reported.nodup_iff.mpr hnodup
  refine ⟨(List.nodup_append.mp hboth).1, fun slug => ?_⟩
  rw [← hd.reported.mem_iff, List.mem_append, not_or, List.mem_map, not_exists]
  simp only [not_and]
  refine and_congr_right fun _ => ?_
  cases hlookup : d.errors.lookup slug with
  | none =>
    refine iff_of_true rfl fun hmem => ?_
    obtain ⟨e, he, hslug⟩ := List.mem_map.mp hmem
    exact absurd hslug.symm (by simpa using List.lookup_eq_none_iff.mp hlookup e he)
  | some message =>
    obtain ⟨before, after, hsplit, -⟩ := List.lookup_eq_some_iff.mp hlookup
    have hmem : (slug, message) ∈ d.errors := by
      rw [hsplit]
      exact List.mem_append_right _ (.head _)
    exact iff_of_false (fault_ne (hd.faults _ hmem)) fun h => h (List.mem_map_of_mem hmem)

/-- The receipt of sound reports: no gate opens, and a scenario counts as run exactly if it was
driven. -/
theorem sound_receipt {done : List ScenarioDefinition} {log : Transcript} {d : Driven}
    (hd : d.Sound m done log) (hdone : ∀ definition ∈ done, definition ∈ SCENARIOS)
    (hnodup : (done.map ScenarioDefinition.slug).Nodup) (version : String)
    (durationsMs : List (String × Int)) (runId generatedAt : String) :
    let receipt := aggregateReceipt d.observations "real_stack" version durationsMs d.errors runId
      generatedAt
    receipt.passed = false ∧ (∀ g ∈ receipt.gates, g.passed = false) ∧
    receipt.duplicateScenarios = [] ∧ receipt.unknownScenarios = [] ∧
    ∀ r ∈ receipt.scenarios,
      (r.status = .notRun ↔ r.definition.slug ∉ done.map ScenarioDefinition.slug) ∧
      (r.status = .passed → r.definition.slug = "capability-confinement" ∧ m.Enforced log) := by
  obtain ⟨hdistinct, hreported⟩ := sound_reported hd hnodup
  have hclean : (FirstIndex.index ScenarioObservation.scenario knownScenario d.observations).Clean := by
    refine FirstIndex.index_clean.mpr ⟨fun o ho => ?_, hdistinct⟩
    obtain ⟨definition, hdefinition, hobserved⟩ := hd.observed o ho
    rw [hobserved.scenario]
    exact knownScenario_iff.mpr (List.mem_map_of_mem (hdone definition hdefinition))
  have hscenarios : ∀ definition ∈ SCENARIOS, ∀ ms : Int,
      let r := scenarioReceipt definition
        ((FirstIndex.index ScenarioObservation.scenario knownScenario d.observations).get
          ScenarioObservation.scenario definition.slug) ms ((d.errors.lookup definition.slug).getD "")
      (r.status = .notRun ↔ definition.slug ∉ done.map ScenarioDefinition.slug) ∧
      (r.status = .passed → definition.slug = "capability-confinement" ∧ m.Enforced log) := by
    intro definition hdefinition ms
    rw [FirstIndex.index_get hclean]
    constructor
    · rw [scenarioReceipt_notRun, ← hreported definition.slug, List.find?_eq_none]
      simp only [decide_eq_true_eq]
    · rw [scenarioReceipt_passed]
      rintro ⟨⟨o, ho, hcomplete⟩, -⟩
      obtain ⟨definition', hdefinition', hobserved⟩ := hd.observed o (List.mem_of_find?_eq_some ho)
      have hslug : o.scenario = definition.slug := by simpa using List.find?_some ho
      rw [← hslug, hobserved.scenario]
      exact hobserved.passed hcomplete.claimed
  have hgates : ∀ gate : GateName, (gateReceipt (SCENARIOS.map fun definition =>
      scenarioReceipt definition
        ((FirstIndex.index ScenarioObservation.scenario knownScenario d.observations).get
          ScenarioObservation.scenario definition.slug) ((durationsMs.lookup definition.slug).getD 0)
        ((d.errors.lookup definition.slug).getD "")) gate).passed = false := by
    intro gate
    obtain ⟨definition, hdefinition, hgate, hother⟩ := gates_blocked gate
    refine gateReceipt_fails (List.mem_map_of_mem hdefinition) hgate fun hpassed => ?_
    exact hother ((hscenarios definition hdefinition _).2 hpassed).1
  dsimp only
  refine ⟨?_, ?_, ?_, ?_, ?_⟩
  · rw [Bool.eq_false_iff]
    intro hpassed
    simp only [aggregateReceipt, Bool.and_eq_true, List.all_eq_true, List.forall_mem_map] at hpassed
    exact Bool.false_ne_true ((hgates .contract).symm.trans
      (hpassed.1.1.2 .contract (by simp [GateName.all])))
  · simp only [aggregateReceipt, List.forall_mem_map]
    exact fun gate _ => hgates gate
  · exact sortedNames_nil.mpr hclean.1
  · exact sortedNames_nil.mpr hclean.2
  · simp only [aggregateReceipt, List.forall_mem_map]
    exact fun definition hdefinition => hscenarios definition hdefinition _

/-- The two ends of the pipe agree: the driver reads the request that the harness wrote, the harness
takes every receipt that the driver wrote, and the checks of the observation are those of the
manifest. What fails is the launch, or the driver by its exit status. -/
theorem driver_receipts {py : Interpreter} {environ : List (String × String)}
    (hstack : Stack.fromEnvironment py environ = .ok m.stack) {scenario : ScenarioDefinition}
    (hscenario : scenario ∈ SCENARIOS) (net : Transcript → (c : DriverCall) → c.Reply) (log : Transcript) :
    DriverRequest.parse (requestPayload scenario m.stack) scenario.slug =
      .ok (driverRequest scenario m.stack) ∧
    let out := (m.drive scenario).run (Dialogue.record net) log
    ∃ outcome, out.1 = .ok outcome ∧ (∀ o, outcome = .ok o → m.Observed scenario out.2 o) ∧
      ∀ message, outcome = .error message → DriverFault message :=
  have filled := fromEnvironment_filled hstack
  ⟨requestPayload_parse filled (scenarios_hooked scenario hscenario).1,
    Dialogue.record_ends (drive_ends filled hscenario log)⟩

theorem scenarioNamed_mem {slugs : List String} {definition : ScenarioDefinition}
    (h : definition ∈ slugs.filterMap scenarioNamed) :
    definition ∈ SCENARIOS ∧ definition.slug ∈ slugs := by
  obtain ⟨slug, hslug, hdefinition⟩ := List.mem_filterMap.mp h
  obtain ⟨hmem, rfl⟩ := scenarioNamed_some.mp hdefinition
  exact ⟨hmem, hslug⟩

/-- What a request of the run may be: one of the four questions, or a probe of the capability
confinement, for a scenario that was selected and consented to. -/
def Consented (m : StackRun) (selected allowed : List String) (c : DriverCall) : Prop :=
  (∀ slug ∈ selected, slug ∈ allowed) ∧ ∃ definition ∈ SCENARIOS, definition.slug ∈ selected ∧
    (c ∈ preamble (driverRequest definition m.stack) ∨
      definition.slug = "capability-confinement" ∧ ∃ p ∈ PROBES, c = p.call)

theorem stackRun_asks (filled : m.stack.Filled) :
    (m.run selected allowed).Asks (Consented m selected allowed) := by
  unfold StackRun.run
  cases hrefusal : refusal selected allowed with
  | some message => exact Dialogue.asks_pure _ _
  | none =>
    refine ((driveAll_asks filled (fun definition h => (scenarioNamed_mem h).1) _).mono ?_).bind
      fun driven => Dialogue.asks_pure _ _
    rintro c ⟨definition, hdefinition, hc⟩
    obtain ⟨hmem, hslug⟩ := scenarioNamed_mem hdefinition
    refine ⟨fun slug hslug => (refusal_none hrefusal hslug).2, definition, hmem,
      List.mem_eraseDups.mp hslug, hc.imp_right fun ⟨hhooks, hprobe⟩ => ⟨?_, hprobe⟩⟩
    exact (scenarios_checked definition hmem).2 hhooks

/-- What the receipt of a run says, given its transcript. -/
structure Judged (m : StackRun) (selected : List String) (log : Transcript) (receipt : Receipt) : Prop where
  passed : receipt.passed = false
  gates : ∀ g ∈ receipt.gates, g.passed = false
  duplicates : receipt.duplicateScenarios = []
  unknown : receipt.unknownScenarios = []
  notRun : ∀ r ∈ receipt.scenarios, r.status = .notRun ↔ r.definition.slug ∉ selected
  confined : ∀ r ∈ receipt.scenarios, r.status = .passed →
    r.definition.slug = "capability-confinement" ∧ m.Enforced log

theorem stackRun_ends (filled : m.stack.Filled) :
    (m.run selected allowed).Ends (fun result log => ∃ outcome, result = .ok outcome ∧
      (∀ message, outcome = .error message → log = []) ∧
      ∀ receipt, outcome = .ok receipt → Judged m selected log receipt) [] := by
  unfold StackRun.run
  cases hrefusal : refusal selected allowed with
  | some message => exact ⟨_, rfl, fun _ _ => rfl, nofun⟩
  | none =>
    have hslugs := selected_slugs hrefusal
    have hscenarios : ∀ definition ∈ selected.eraseDups.filterMap scenarioNamed, definition ∈ SCENARIOS :=
      fun definition h => (scenarioNamed_mem h).1
    have hstart : ({} : Driven).Sound m [] [] := ⟨nofun, nofun, .refl _⟩
    refine (driveAll_ends filled hscenarios hstart).bind (fun driven log hdriven => ?_) (fun e => nomatch e)
    obtain ⟨_, ⟨⟩, hsound⟩ := hdriven
    obtain ⟨hpassed, hgates, hduplicates, hunknown, hall⟩ := sound_receipt hsound hscenarios
      (hslugs.symm ▸ nodup_eraseDups selected) (observedVersion driven.observations)
      (selected.map fun slug => (slug, m.durationMs slug)) m.runId m.generatedAt
    rw [List.nil_append, hslugs] at hall
    simp only [List.mem_eraseDups] at hall
    refine ⟨_, rfl, nofun, ?_⟩
    rintro _ ⟨⟩
    exact ⟨hpassed, hgates, hduplicates, hunknown, fun r hr => (hall r hr).1, fun r hr => (hall r hr).2⟩

/-- With the driver of this repository no gate of a run opens, whatever the stack answers: a selected
scenario is reported once, and only the capability confinement can pass, on a credential of the right
profile and seven answers of status 403. Nothing is sent before every selected scenario has its
consent, and then only what those scenarios ask. -/
theorem real_stack_verdict {py : Interpreter} {environ : List (String × String)}
    (hstack : Stack.fromEnvironment py environ = .ok m.stack) (selected allowed : List String)
    (net : Transcript → (c : DriverCall) → c.Reply) :
    let out := (m.run selected allowed).run (Dialogue.record net) []
    (∀ x ∈ out.2, Consented m selected allowed x.1) ∧
    ∃ outcome, out.1 = .ok outcome ∧ (∀ message, outcome = .error message → out.2 = []) ∧
      ∀ receipt, outcome = .ok receipt → Judged m selected out.2 receipt :=
  have filled := fromEnvironment_filled hstack
  ⟨Dialogue.record_asks (stackRun_asks filled) nofun, Dialogue.record_ends (stackRun_ends filled)⟩

end Verdict

/-! ### A confined stack -/

def sampleStackEnviron : List (String × String) :=
  [(HERMES_URL_ENV, "http://127.0.0.1:1"), (SIBYL_URL_ENV, " http://127.0.0.1:2/api/ "),
    (PROFILE_ENV, "p"), (API_KEY_VARIABLE, "key"), (SESSION_TOKEN_ENV, "token")]

/-- The answers by the first byte of the body. -/
def sampleDriverHost : DriverHost where
  loads
    | [1] => .ok (.dict [("version", .str PINNED_HERMES_VERSION)])
    | [2] => .ok (.dict [("active", .str "sibyl")])
    | _ => .ok (.dict [("credential", .dict [("type", .str "api_key"),
        ("capability_profile", .str "memory_provider")])])
  loadsText _ := .ok (.dict [("id", .str "e2e"), ("result", .dict [])])
  repr _ := ""
  rpcRequestId := "e2e"
  connect _ _ := .ok ()

def sampleStackRun : StackRun where
  stack :=
    { hermesUrl := "http://127.0.0.1:1", sibylUrl := "http://127.0.0.1:2/api", profile := "p",
      apiKey := "key", hermesSessionToken := "token" }
  host _ := sampleDriverHost
  launch _ := .started none
  durationMs _ := 0
  environ := []
  runId := "run"
  generatedAt := "now"

/-- Hermes and Sibyl answer the questions; every probe is forbidden. -/
def confinedNet (_ : Transcript) : (c : DriverCall) → c.Reply
  | .hermes _ path _ => .answered ⟨200, false, [[if path = HERMES_STATUS_PATH then 1 else 2]], none⟩
  | .rpc _ _ => [.text ""]
  | .sibyl _ path _ => .answered ⟨if path = SIBYL_AUTH_PATH then 200 else 403, false, [[3]], none⟩

def confinedOutcome : Except Empty (Except String Receipt) × Transcript :=
  (sampleStackRun.run ["rewind", "capability-confinement"] ["capability-confinement", "rewind"]).run
    (Dialogue.record confinedNet) []

def confinement : ScenarioDefinition := SCENARIOS[10]

/-- The driver is stopped behind its fifth call. -/
def stoppedStackRun : StackRun := { sampleStackRun with launch := fun _ => .started (some 5) }

def confinementDriven (m : StackRun) : Except Empty (Except String ScenarioObservation) × Transcript :=
  (m.drive confinement).run (Dialogue.record confinedNet) []

def claimsPass : Except String ScenarioObservation → Option Bool
  | .ok o => some o.claimedPass
  | .error _ => none

/-- The observation of the driver of the confinement passes; the driver that was stopped wrote none. -/
theorem driver_receipts_sample :
    DriverRequest.parse (requestPayload confinement sampleStackRun.stack) "capability-confinement" =
      .ok (driverRequest confinement sampleStackRun.stack) ∧
    (∃ o, (confinementDriven sampleStackRun).1 = .ok (.ok o) ∧ o.claimedPass = true ∧
      sampleStackRun.Observed confinement (confinementDriven sampleStackRun).2 o) ∧
    ∃ message, (confinementDriven stoppedStackRun).1 = .ok (.error message) ∧ DriverFault message := by
  have hstack : Stack.fromEnvironment sampleInterpreter sampleStackEnviron = .ok sampleStackRun.stack := rfl
  have hscenario : confinement ∈ SCENARIOS := List.getElem_mem _
  have hpassed : ((confinementDriven sampleStackRun).1.map claimsPass).toOption = some (some true) := by
    decide +kernel
  have hstopped : ((confinementDriven stoppedStackRun).1.map claimsPass).toOption = some none := by
    decide +kernel
  obtain ⟨hparsed, outcome, houtcome, hobserved, -⟩ := driver_receipts hstack hscenario confinedNet []
  obtain ⟨-, stopped, hended, -, hfault⟩ :=
    driver_receipts (m := stoppedStackRun) hstack hscenario confinedNet []
  have hsame : (confinementDriven sampleStackRun).1 = .ok outcome := houtcome
  have hsame' : (confinementDriven stoppedStackRun).1 = .ok stopped := hended
  rw [hsame] at hpassed ⊢
  rw [hsame'] at hstopped ⊢
  refine ⟨hparsed, ?_, ?_⟩
  · cases outcome with
    | error message => cases hpassed
    | ok o => exact ⟨o, rfl, Option.some.inj (Option.some.inj hpassed), hobserved o rfl⟩
  · cases stopped with
    | ok o => cases hstopped
    | error message => exact ⟨message, rfl, hfault message rfl⟩

def passedScenarios (outcome : Except String Receipt) : List String :=
  match outcome with
  | .ok receipt => (receipt.scenarios.filter fun r => r.status = .passed).map fun r => r.definition.slug
  | .error _ => []

/-- The confinement passes, the rewind is blocked, and the receipt does not pass. -/
theorem real_stack_verdict_sample : ∃ receipt, confinedOutcome.1 = .ok (.ok receipt) ∧
    passedScenarios (.ok receipt) = ["capability-confinement"] ∧ receipt.passed = false := by
  have hstack : Stack.fromEnvironment sampleInterpreter sampleStackEnviron = .ok sampleStackRun.stack := rfl
  have hpassed : (confinedOutcome.1.map passedScenarios).toOption = some ["capability-confinement"] := by
    decide +kernel
  obtain ⟨-, outcome, houtcome, -, hreceipt⟩ := real_stack_verdict hstack
    ["rewind", "capability-confinement"] ["capability-confinement", "rewind"] confinedNet
  have hsame : confinedOutcome.1 = .ok outcome := houtcome
  rw [hsame] at hpassed ⊢
  cases outcome with
  | error message => cases hpassed
  | ok receipt => exact ⟨receipt, rfl, Option.some.inj hpassed, (hreceipt receipt rfl).passed⟩

end SibylMemory.ReleaseGates
