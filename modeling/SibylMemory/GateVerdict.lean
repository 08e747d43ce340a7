import SibylMemory.ReleaseGates

/-!
# The verdict of the release gates

The gates add nothing to the scenarios: a check that a gate requires is required by a scenario of
the gate. So a receipt passes exactly on complete evidence.
-/

namespace SibylMemory.ReleaseGates

/-! ### Receipts that pass -/

section Receipts
variable {definition : ScenarioDefinition} {ms : Int} {error : String}

theorem missing_failed (checks : List (String × Bool)) (required : List String) :
    ((required.filter fun check => (checks.lookup check).isNone).isEmpty = true ∧
      (required.filter fun check => checks.lookup check = some false).isEmpty = true) ↔
    ∀ check ∈ required, checks.lookup check = some true := by
  simp only [List.isEmpty_iff, List.filter_eq_nil_iff]
  constructor
  · rintro ⟨hmissing, hfailed⟩ check hcheck
    cases hlookup : checks.lookup check with
    | none => exact absurd (by simp [hlookup]) (hmissing check hcheck)
    | some value =>
      cases value with
      | true => rfl
      | false => exact absurd (by simp [hlookup]) (hfailed check hcheck)
  · intro h
    exact ⟨fun check hcheck => by simp [h check hcheck], fun check hcheck => by simp [h check hcheck]⟩

/-- The observation claims a pass and reports every required check of the scenario as true. -/
structure Complete (definition : ScenarioDefinition) (o : ScenarioObservation) : Prop where
  claimed : o.claimedPass = true
  checks : ∀ check ∈ definition.requiredChecks, o.checks.lookup check = some true

theorem scenarioReceipt_passed {observation : Option ScenarioObservation} :
    (scenarioReceipt definition observation ms error).status = .passed ↔
      (∃ o, observation = some o ∧ Complete definition o) ∧ error = "" := by
  cases observation with
  | none =>
    by_cases he : error = "" <;> simp [scenarioReceipt, he]
  | some o =>
    have hchecks := missing_failed o.checks definition.requiredChecks
    simp only [scenarioReceipt, Option.map_some, Option.getD_some, Option.isSome_some, Bool.true_or,
      if_true]
    constructor
    · intro h
      split at h
      · rename_i hpassed
        simp only [Bool.and_eq_true, decide_eq_true_eq] at hpassed
        obtain ⟨⟨⟨hclaimed, hmissing⟩, hfailed⟩, herror⟩ := hpassed
        exact ⟨⟨o, rfl, hclaimed, hchecks.mp ⟨hmissing, hfailed⟩⟩, herror⟩
      · cases h
    · rintro ⟨⟨o', ho, hcomplete⟩, herror⟩
      cases ho
      obtain ⟨hmissing, hfailed⟩ := hchecks.mpr hcomplete.checks
      rw [hcomplete.claimed, hmissing, hfailed, herror]
      rfl

theorem scenarioReceipt_checks {observation : Option ScenarioObservation}
    (h : (scenarioReceipt definition observation ms error).status = .passed) {check : String}
    (hcheck : check ∈ definition.requiredChecks) :
    (scenarioReceipt definition observation ms error).checks.lookup check = some true := by
  obtain ⟨⟨o, rfl, hcomplete⟩, -⟩ := scenarioReceipt_passed.mp h
  exact hcomplete.checks check hcheck

end Receipts

/-! ### Gates -/

theorem gate_covered (gate : GateName) : ∀ check ∈ GATE_REQUIRED_CHECKS gate,
    ∃ definition ∈ SCENARIOS, gate ∈ definition.gates ∧ check ∈ definition.requiredChecks := by
  cases gate <;> decide

theorem slugs_nodup : (SCENARIOS.map ScenarioDefinition.slug).Nodup := by decide

theorem gateReceipt_passed {receipt : ScenarioDefinition → ScenarioReceipt}
    (hdefinition : ∀ definition, (receipt definition).definition = definition)
    (hpassed : ∀ definition ∈ SCENARIOS, (receipt definition).status = .passed)
    (hchecks : ∀ definition ∈ SCENARIOS, ∀ check ∈ definition.requiredChecks,
      (receipt definition).checks.lookup check = some true) (gate : GateName) :
    (gateReceipt (SCENARIOS.map receipt) gate).passed = true := by
  have hmember : ∀ r ∈ (SCENARIOS.map receipt).filter fun r => gate ∈ r.definition.gates,
      ∃ definition ∈ SCENARIOS, r = receipt definition := by
    intro r hr
    obtain ⟨definition, hmem, rfl⟩ := List.mem_map.mp (List.mem_filter.mp hr).1
    exact ⟨definition, hmem, rfl⟩
  simp only [gateReceipt, Bool.and_eq_true, List.all_eq_true, decide_eq_true_eq, List.forall_mem_map]
  constructor
  · intro r hr
    obtain ⟨definition, hmem, rfl⟩ := hmember r hr
    exact hpassed definition hmem
  · intro check hcheck
    obtain ⟨owner, howner, hgate, hrequired⟩ := gate_covered gate check hcheck
    -- the first member that requires the check need not be this one, but it passes as well
    have hfound : (((SCENARIOS.map receipt).filter fun r => gate ∈ r.definition.gates).find?
        fun r => check ∈ r.definition.requiredChecks).isSome = true := by
      rw [List.find?_isSome]
      refine ⟨receipt owner, List.mem_filter.mpr ⟨List.mem_map_of_mem howner, ?_⟩, ?_⟩
      · simpa [hdefinition] using hgate
      · simpa [hdefinition] using hrequired
    obtain ⟨r, hr⟩ := Option.isSome_iff_exists.mp hfound
    obtain ⟨definition, hmem, rfl⟩ := hmember r (List.mem_of_find?_eq_some hr)
    have hrequires := List.find?_some hr
    rw [memberCheck, hr, Option.bind_some]
    exact hchecks definition hmem check (by simpa [hdefinition] using hrequires)

/-! ### The verdict -/

section Verdict
variable {observations : List ScenarioObservation} {mode version : String}
  {durationsMs : List (String × Int)} {errors : List (String × String)} {runId generatedAt : String}

/-- Exactly one observation for each scenario, each with a claimed pass and every required check, and
no recorded error. -/
structure Evidence (observations : List ScenarioObservation) (errors : List (String × String)) :
    Prop where
  scenarios : (observations.map ScenarioObservation.scenario).Perm
    (SCENARIOS.map ScenarioDefinition.slug)
  complete : ∀ o ∈ observations, ∀ definition ∈ SCENARIOS, definition.slug = o.scenario →
    Complete definition o
  errors : ∀ definition ∈ SCENARIOS, (errors.lookup definition.slug).getD "" = ""

theorem knownScenario_iff {slug : String} :
    knownScenario slug = true ↔ slug ∈ SCENARIOS.map ScenarioDefinition.slug := by
  simp [knownScenario]

theorem evidence_iff : Evidence observations errors ↔
    ((∀ o ∈ observations, knownScenario o.scenario = true) ∧
      (observations.map ScenarioObservation.scenario).Nodup) ∧
    ∀ definition ∈ SCENARIOS,
      (∃ o, (observations.find? fun o => o.scenario = definition.slug) = some o ∧
        Complete definition o) ∧
      (errors.lookup definition.slug).getD "" = "" := by
  constructor
  · intro h
    refine ⟨⟨fun o ho => ?_, h.scenarios.nodup_iff.mpr slugs_nodup⟩, fun definition hmem =>
      ⟨?_, h.errors definition hmem⟩⟩
    · exact knownScenario_iff.mpr (h.scenarios.mem_iff.mp (List.mem_map_of_mem ho))
    · have hslug : definition.slug ∈ observations.map ScenarioObservation.scenario :=
        h.scenarios.mem_iff.mpr (List.mem_map_of_mem hmem)
      obtain ⟨o, ho, hscenario⟩ := List.mem_map.mp hslug
      have hfound : (observations.find? fun o => o.scenario = definition.slug).isSome = true := by
        rw [List.find?_isSome]
        exact ⟨o, ho, by simpa using hscenario⟩
      obtain ⟨o', ho'⟩ := Option.isSome_iff_exists.mp hfound
      have hsame : o'.scenario = definition.slug := by simpa using List.find?_some ho'
      exact ⟨o', ho', h.complete o' (List.mem_of_find?_eq_some ho') definition hmem hsame.symm⟩
  · rintro ⟨⟨hknown, hnodup⟩, hall⟩
    refine ⟨(List.perm_ext_iff_of_nodup hnodup slugs_nodup).mpr fun slug => ?_, ?_,
      fun definition hmem => (hall definition hmem).2⟩
    · constructor
      · intro h
        obtain ⟨o, ho, rfl⟩ := List.mem_map.mp h
        exact knownScenario_iff.mp (hknown o ho)
      · intro h
        obtain ⟨definition, hmem, rfl⟩ := List.mem_map.mp h
        obtain ⟨⟨o, ho, -⟩, -⟩ := hall definition hmem
        have hsame : o.scenario = definition.slug := by simpa using List.find?_some ho
        exact hsame ▸ List.mem_map_of_mem (List.mem_of_find?_eq_some ho)
    · intro o ho definition hmem hslug
      obtain ⟨⟨o', ho', hcomplete⟩, -⟩ := hall definition hmem
      have hsame : o'.scenario = definition.slug := by simpa using List.find?_some ho'
      have heq : o' = o := List.inj_on_of_nodup_map hnodup (List.mem_of_find?_eq_some ho') ho
        (hsame.trans hslug)
      exact heq ▸ hcomplete

theorem passed_iff_evidence :
    (aggregateReceipt observations mode version durationsMs errors runId generatedAt).passed = true ↔
      (mode = "real_stack" ∧ version = PINNED_HERMES_VERSION) ∧ Evidence observations errors := by
  rw [evidence_iff, ← FirstIndex.index_clean]
  generalize hindex : FirstIndex.index ScenarioObservation.scenario knownScenario observations = index
  let receipt := fun definition => scenarioReceipt definition
    (index.get ScenarioObservation.scenario definition.slug)
    ((durationsMs.lookup definition.slug).getD 0) ((errors.lookup definition.slug).getD "")
  have hscenarios : (∀ definition ∈ SCENARIOS, (receipt definition).status = .passed) ↔
      ∀ definition ∈ SCENARIOS,
        (∃ o, index.get ScenarioObservation.scenario definition.slug = some o ∧
          Complete definition o) ∧ (errors.lookup definition.slug).getD "" = "" :=
    forall₂_congr fun definition _ => scenarioReceipt_passed
  have hverdict : (aggregateReceipt observations mode version durationsMs errors runId
      generatedAt).passed = true ↔ (mode = "real_stack" ∧ version = PINNED_HERMES_VERSION) ∧
        (∀ definition ∈ SCENARIOS, (receipt definition).status = .passed) ∧
        (∀ gate ∈ GateName.all, (gateReceipt (SCENARIOS.map receipt) gate).passed = true) ∧
        index.Clean := by
    simp only [aggregateReceipt, hindex, Bool.and_eq_true, decide_eq_true_eq, List.all_eq_true,
      List.forall_mem_map, List.isEmpty_iff, FirstIndex.Clean, receipt, and_assoc]
  rw [hverdict]
  refine and_congr_right fun _ => ?_
  constructor
  · rintro ⟨hall, -, hclean⟩
    refine ⟨hclean, fun definition hmem => ?_⟩
    have h := hscenarios.mp hall definition hmem
    rwa [← hindex, FirstIndex.index_get (by rwa [hindex])] at h
  · rintro ⟨hclean, hall⟩
    have hpassed : ∀ definition ∈ SCENARIOS, (receipt definition).status = .passed := by
      refine hscenarios.mpr fun definition hmem => ?_
      have h := hall definition hmem
      rwa [← hindex, FirstIndex.index_get (by rwa [hindex])]
    refine ⟨hpassed, fun gate _ => ?_, hclean⟩
    exact gateReceipt_passed (fun _ => rfl) hpassed
      (fun definition hmem check hcheck => scenarioReceipt_checks (hpassed definition hmem) hcheck) gate

theorem Evidence.perm {l l' : List ScenarioObservation} (hperm : l.Perm l')
    (h : Evidence l errors) : Evidence l' errors where
  scenarios := (hperm.symm.map ScenarioObservation.scenario).trans h.scenarios
  complete o ho := h.complete o (hperm.mem_iff.mpr ho)
  errors := h.errors

/-- The gates open exactly on complete evidence, in whichever order it is observed. -/
theorem gates_open_on_evidence (observations : List ScenarioObservation) (mode version : String)
    (durationsMs : List (String × Int)) (errors : List (String × String))
    (runId generatedAt : String) :
    ((aggregateReceipt observations mode version durationsMs errors runId generatedAt).passed = true ↔
      mode = "real_stack" ∧ version = PINNED_HERMES_VERSION ∧ Evidence observations errors) ∧
    ∀ reordered, observations.Perm reordered →
      (aggregateReceipt reordered mode version durationsMs errors runId generatedAt).passed =
        (aggregateReceipt observations mode version durationsMs errors runId generatedAt).passed := by
  constructor
  · rw [passed_iff_evidence, and_assoc]
  · intro reordered hperm
    rw [Bool.eq_iff_iff, passed_iff_evidence, passed_iff_evidence]
    exact and_congr_right fun _ => ⟨Evidence.perm hperm.symm, Evidence.perm hperm⟩

end Verdict

example : (aggregateReceipt (SCENARIOS.reverse.map fun definition =>
      ⟨definition.slug, "0.18.2", true, definition.requiredChecks.map (·, true), [], []⟩)
    "real_stack" "0.18.2" [] [("unknown", "skipped")] "run" "now").passed = true := by decide +kernel

end SibylMemory.ReleaseGates
