import SibylMemory.SecretMarks

/-!
# Secrets in receipts

What redaction does to a value is decided spot by spot: a key is kept, a value behind a sensitive key
becomes the mark, any other string is redacted.
-/

namespace SibylMemory.ReleaseGates
open Scrub Substitute

/-! ### Spots -/

inductive Spot where
  | kept (name : String)
  | masked
  | text (s : String)

mutual
def outline : PyValue → List Spot
  | .dict entries => outlineEntries entries
  | .list items => outlineItems items
  | .tuple items => (stringsItems items).map .kept
  | .str text => [.text text]
  | .none => []
  | .bool _ => []
  | .int _ => []
  | .float _ => []

def outlineItems : List PyValue → List Spot
  | [] => []
  | item :: items => outline item ++ outlineItems items

def outlineEntries : List (String × PyValue) → List Spot
  | [] => []
  | (key, item) :: entries =>
    .kept key :: (if sensitiveKey key then [.masked] else outline item) ++ outlineEntries entries
end

/-- What is stored for a spot. -/
def Spot.stored (settings : StackSettings) : Spot → String
  | .kept name => name
  | .masked => REDACTED
  | .text s => redactText settings.hermesSessionToken (redactText settings.apiKey s)

section Outline
variable (settings : StackSettings)

mutual
theorem strings_redact : ∀ value : PyValue,
    strings (redact settings.hermesSessionToken (redact settings.apiKey value)) =
      (outline value).map (Spot.stored settings)
  | .dict entries => by
    rw [redact, redact, strings, outline, strings_redactEntries entries]
  | .list items => by
    rw [redact, redact, strings, outline, strings_redactItems items]
  | .tuple items => by
    rw [redact, redact, strings, outline, List.map_map]
    exact (List.map_id _).symm
  | .str text => by
    rw [redact, redact, strings, outline]
    rfl
  | .none => rfl
  | .bool _ => rfl
  | .int _ => rfl
  | .float _ => rfl

theorem strings_redactItems : ∀ items : List PyValue,
    stringsItems (redactItems settings.hermesSessionToken (redactItems settings.apiKey items)) =
      (outlineItems items).map (Spot.stored settings)
  | [] => rfl
  | item :: items => by
    rw [redactItems, redactItems, stringsItems, outlineItems, List.map_append, strings_redact item,
      strings_redactItems items]

theorem strings_redactEntries : ∀ entries : List (String × PyValue),
    stringsEntries (redactEntries settings.hermesSessionToken (redactEntries settings.apiKey entries)) =
      (outlineEntries entries).map (Spot.stored settings)
  | [] => rfl
  | (key, item) :: entries => by
    rw [redactEntries, redactEntries, stringsEntries, outlineEntries, strings_redactEntries entries,
      List.map_append, List.map_cons]
    split
    · simp [strings, Spot.stored]
    · rw [strings_redact item]
      rfl
end

end Outline

/-! ### Observations -/

/-- Neither secret is a part of the string. -/
structure Hides (settings : StackSettings) (s : String) : Prop where
  apiKey : ¬ settings.apiKey.toList <:+: s.toList
  token : ¬ settings.hermesSessionToken.toList <:+: s.toList

def ScenarioObservation.Hides (settings : StackSettings) (o : ScenarioObservation) : Prop :=
  ∀ s ∈ o.strings, ReleaseGates.Hides settings s

def DriverPayload.spots (payload : DriverPayload) : List Spot :=
  payload.checks.map (fun check => .kept check.1) ++ outlineEntries payload.metrics ++
    outlineEntries payload.evidence

/-- No key that is kept holds a secret: the names of the checks, and in metrics and evidence the keys
at any depth that are not behind a sensitive one. -/
def DriverPayload.NamesHide (settings : StackSettings) (payload : DriverPayload) : Prop :=
  ∀ name, .kept name ∈ payload.spots → ReleaseGates.Hides settings name

/-- A value that is replaced hides the secrets in the mark, and in a string no secret meets a mark. -/
structure DriverPayload.MarksMiss (settings : StackSettings) (payload : DriverPayload) : Prop where
  masked : .masked ∈ payload.spots → ReleaseGates.Hides settings REDACTED
  texts : ∀ s, .text s ∈ payload.spots → Misses settings s

section Observations
variable {settings : StackSettings} {scenario : ScenarioDefinition} {payload : DriverPayload}

theorem observation_strings : (payload.observation scenario settings).strings =
    payload.spots.map (Spot.stored settings) := by
  simp only [ScenarioObservation.strings, DriverPayload.observation, DriverPayload.spots,
    strings_redactEntries, List.map_append, List.map_map]
  rfl

theorem observation_hides (given : settings.Given) (names : payload.NamesHide settings)
    (marks : payload.MarksMiss settings) : (payload.observation scenario settings).Hides settings := by
  rw [ScenarioObservation.Hides, observation_strings, List.forall_mem_map]
  intro spot hspot
  cases spot with
  | kept name => exact names name hspot
  | masked => exact marks.masked hspot
  | text s => exact ⟨redactText_misses given s (marks.texts s hspot) (.inl rfl),
      redactText_misses given s (marks.texts s hspot) (.inr rfl)⟩

theorem hides_names (h : (payload.observation scenario settings).Hides settings) :
    payload.NamesHide settings ∧ (.masked ∈ payload.spots → Hides settings REDACTED) := by
  rw [ScenarioObservation.Hides, observation_strings, List.forall_mem_map] at h
  exact ⟨fun name hname => h _ hname, fun hmasked => h _ hmasked⟩

theorem markFree_hides (given : settings.Given) (free : settings.MarkFree)
    (names : payload.NamesHide settings) : (payload.observation scenario settings).Hides settings := by
  rw [ScenarioObservation.Hides, observation_strings, List.forall_mem_map]
  intro spot hspot
  cases spot with
  | kept name => exact names name hspot
  | masked => exact ⟨absent_mark free.apiKey (toList_ne_nil given.apiKey),
      absent_mark free.token (toList_ne_nil given.token)⟩
  | text s => exact ⟨redactText_markFree given s free (.inl rfl),
      redactText_markFree given s free (.inr rfl)⟩

theorem reported_hides {observations : List ScenarioObservation} {mode version : String}
    {durationsMs : List (String × Int)} {errors : List (String × String)} {runId generatedAt : String}
    (hversion : Hides settings version) (h : ∀ o ∈ observations, o.Hides settings) :
    ∀ s ∈ (aggregateReceipt observations mode version durationsMs errors runId generatedAt).reported,
      Hides settings s := by
  intro s hs
  rcases List.mem_cons.mp hs with rfl | hs
  · exact hversion
  · obtain ⟨r, hr, hs⟩ := List.mem_flatMap.mp hs
    obtain ⟨definition, -, rfl⟩ := List.mem_map.mp hr
    cases hget : (FirstIndex.index ScenarioObservation.scenario knownScenario observations).get
        ScenarioObservation.scenario definition.slug with
    | none => simp [scenarioReceipt, hget, stringsEntries] at hs
    | some o =>
      refine h o (FirstIndex.get_mem hget) s ?_
      simpa [scenarioReceipt, hget, ScenarioObservation.strings] using hs

/-- What a driver reports hides both secrets if the keys that are kept do and no secret meets a mark.
The keys must, and for secrets apart from the marks that is all; what the observations and the
version hide, a receipt hides too. -/
theorem receipts_hide_secrets {result : DriverResult} {o : ScenarioObservation} (given : settings.Given)
    (hrun : runDriver scenario settings result = .ok o) :
    ∃ payload, acceptResult scenario result = .ok payload ∧
      (payload.NamesHide settings → payload.MarksMiss settings → o.Hides settings) ∧
      (o.Hides settings →
        payload.NamesHide settings ∧ (.masked ∈ payload.spots → Hides settings REDACTED)) ∧
      (settings.MarkFree → (o.Hides settings ↔ payload.NamesHide settings)) ∧
      ∀ observations mode version durationsMs errors runId generatedAt,
        Hides settings version → (∀ o ∈ observations, o.Hides settings) →
        ∀ s ∈ (aggregateReceipt observations mode version durationsMs errors runId
          generatedAt).reported, Hides settings s := by
  rw [runDriver] at hrun
  cases haccept : acceptResult scenario result with
  | error message =>
    rw [haccept] at hrun
    cases hrun
  | ok payload =>
    rw [haccept] at hrun
    rw [← Except.ok.inj hrun]
    exact ⟨payload, rfl, observation_hides given, hides_names,
      fun free => ⟨fun h => (hides_names h).1, markFree_hides given free⟩,
      fun _ _ _ _ _ _ _ hversion h => reported_hides hversion h⟩

end Observations

/-- A driver that reports one check and one piece of evidence for a scenario. -/
def sampleResult (slug check message : String) : DriverResult :=
  .exited 0 (some (.dict [("scenario", .str slug),
    ("runtime", .dict [("hermes_version", .str "0.18.2")]), ("passed", .bool true),
    ("checks", .dict [(check, .bool true)]), ("evidence", .dict [("message", .str message)])]))

def sampleScenario : ScenarioDefinition := ⟨7, "branch-lineage", "Branch lineage", [.integrity], [], true⟩

def sampleSettings : StackSettings := ⟨"top", "session"⟩

theorem receipts_hide_secrets_sample : ∃ o,
    runDriver sampleScenario sampleSettings (sampleResult "branch-lineage" "passed" "value top") = .ok o ∧
      PyValue.lookup "message" o.evidence = some (.str "value [REDACTED]") ∧ o.Hides sampleSettings := by
  have given : sampleSettings.Given := ⟨by decide, by decide⟩
  have hrun : runDriver sampleScenario sampleSettings
      (sampleResult "branch-lineage" "passed" "value top") = .ok _ := rfl
  obtain ⟨payload, haccept, hides, -⟩ := receipts_hide_secrets given hrun
  cases haccept
  refine ⟨_, hrun, rfl, hides (fun name hname => ?_) ⟨fun hmasked => ?_, fun s hs => ?_⟩⟩
  · have hkept : Spot.kept name ∈ [.kept "passed", .kept "message", .text "value top"] := hname
    obtain rfl | rfl : name = "passed" ∨ name = "message" := by simpa using hkept
    · exact ⟨by decide, by decide⟩
    · exact ⟨by decide, by decide⟩
  · exact ⟨by decide, by decide⟩
  · exact ⟨not_meets (by decide) (by decide), not_meets (by decide) (by decide)⟩

/-- The name of a check is not redacted, nor is a mark that completes a secret. -/
theorem secret_is_reported :
    (∃ o, runDriver sampleScenario ⟨"top", "session"⟩
        (sampleResult "branch-lineage" "top" "") = .ok o ∧ ¬ o.Hides ⟨"top", "session"⟩) ∧
    ∃ o, runDriver sampleScenario ⟨"x[", "session"⟩
        (sampleResult "branch-lineage" "passed" "xx[") = .ok o ∧ ¬ o.Hides ⟨"x[", "session"⟩ := by
  refine ⟨⟨_, rfl, fun h => ?_⟩, ⟨_, rfl, fun h => ?_⟩⟩
  · exact (h "top" (by decide)).apiKey (List.infix_refl _)
  · exact (h "x[REDACTED]" (by decide)).apiKey (by decide)

end SibylMemory.ReleaseGates
