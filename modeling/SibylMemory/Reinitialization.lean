import SibylMemory.Configuration
import SibylMemory.EnvFile
import SibylMemory.Recall
import SibylMemory.Runtime
import SibylMemory.Library.Fallible
import SibylMemory.Library.Runs

/-!
# Initializing the provider again (`provider.py:123-191`, `config.py:161-170`)

`initialize` shuts the installed runtime down before it saves the agent id and builds the next one.
A run is any list of calls of `initialize`, each of which may fail at any of its steps.
-/

namespace SibylMemory
open Fallible Text

/-- A runtime as the provider holds it; the serial number tells the objects that were built
apart. -/
inductive InstalledRuntime where
  | noop
  | sibyl (serial : Nat) (runtime : Runtime) (closed : Bool)

structure SibylMemoryProvider where
  runtime : InstalledRuntime
  configured : Bool
  built : Nat

def SibylMemoryProvider.new : SibylMemoryProvider := ⟨.noop, false, 0⟩

inductive InitializeError where
  | configuration (e : ConfigError)
  | runtimeError (message : String)
  | raised (e : Raised)

/-- What one call of `initialize` gets and meets: its arguments, the files and the environment, and
how the steps end that the provider does not decide. The factory says whether the runtime's module
is there. -/
structure InitializeCall where
  sessionId : String
  kwargs : JSONObject
  hermesHome : Except Raised String
  sibylJson : String → Except Raised (Option PyValue)
  environ : Option String
  envFile : String → Except Raised (Option String)
  shutdown : Except Raised Unit
  write : Except Raised Unit
  factory : RuntimeContext → Except Raised Bool
  start : Except Raised Unit

/-! ### The steps of a call -/

def outside {α : Type} (x : Except Raised α) : Except InitializeError α := x.mapError .raised

def saveRuntimeAgentId (agentId : String) (write : Except Raised Unit) :
    Except InitializeError Unit :=
  if agentId = "" ∨ (agentId.toList.splitOn ':').length ≠ 3 then
    .error (.configuration (.valueError "agent_id must use hermes:<workspace>:<identity>"))
  else outside write

namespace InitializeCall

/-- `load_api_key` reads `.env` only when the environment has no key. -/
def apiKey (c : InitializeCall) (home : String) : Except Raised JsonText.CodePoints :=
  if strip (c.environ.getD "") ≠ "" then .ok (loadApiKey c.environ none)
  else (c.envFile home).map (loadApiKey c.environ)

/-- The checks of `initialize` before it changes anything. -/
def loadConfiguration (host : Host) (py : Interpreter) (c : InitializeCall) :
    Except InitializeError ProviderConfig := do
  let value := Schema.get c.kwargs "hermes_home"
  let home ← if truthy value then pure (host.str value) else outside c.hermesHome
  let file ← outside (c.sibylJson home)
  let config ← (loadProviderConfig host py file).mapError .configuration
  let apiKey ← outside (c.apiKey home)
  if config.isComplete = false ∨ apiKey = [] then
    throw (.runtimeError "Sibyl provider configuration is incomplete")
  return config

def agentWorkspace (host : Host) (c : InitializeCall) : String :=
  textField host c.kwargs "agent_workspace" "hermes"

def agentIdentity (host : Host) (c : InitializeCall) : String :=
  textField host c.kwargs "agent_identity" "default"

theorem agentId_hermes (workspace identity : String) :
    ∃ name, "hermes:" ++ workspace ++ ":" ++ identity = "hermes:" ++ name :=
  ⟨workspace ++ ":" ++ identity, by simp [String.append_assoc]⟩

def context (host : Host) (c : InitializeCall) (config : ProviderConfig) : RuntimeContext where
  agentId := "hermes:" ++ c.agentWorkspace host ++ ":" ++ c.agentIdentity host
  agentId_prefix := agentId_hermes (c.agentWorkspace host) (c.agentIdentity host)
  agentWorkspace := c.agentWorkspace host
  agentIdentity := c.agentIdentity host
  agentContext := textField host c.kwargs "agent_context" "primary"
  platform := textField host c.kwargs "platform" "cli"
  projectId := config.projectId
  memorySpaceId := config.memorySpaceId
  automaticCapture := config.automaticCapture
  kwargs := c.kwargs

def newRuntime (host : Host) (c : InitializeCall) (config : ProviderConfig) : Runtime :=
  Runtime.new (c.context host config) c.sessionId
    (textField host c.kwargs "parent_session_id" "")

end InitializeCall

/-- `shutdown` marks a runtime closed before anything in it can fail. -/
def InstalledRuntime.shutdown : InstalledRuntime → InstalledRuntime
  | .noop => .noop
  | .sibyl serial runtime _ => .sibyl serial runtime true

/-- What `shutdown` raises: nothing without a runtime, or a second time. -/
def InstalledRuntime.shutdownResult (outcome : Except Raised Unit) :
    InstalledRuntime → Except Raised Unit
  | .noop => .ok ()
  | .sibyl _ _ closed => if closed then .ok () else outcome

namespace SibylMemoryProvider

/-- The steps from the end of the previous runtime to the next one; the provider holds the previous
one all the while. -/
def buildNext (host : Host) (c : InitializeCall) (config : ProviderConfig)
    (p : SibylMemoryProvider) : Except InitializeError Bool := do
  outside (p.runtime.shutdownResult c.shutdown)
  saveRuntimeAgentId (c.context host config).agentId c.write
  outside (c.factory (c.context host config))

def replaceRuntime (host : Host) (c : InitializeCall) (config : ProviderConfig)
    (p : SibylMemoryProvider) : Except InitializeError Unit × SibylMemoryProvider :=
  let shut := { p with configured := false, runtime := p.runtime.shutdown }
  match p.buildNext host c config with
  | .error e => (.error e, shut)
  | .ok false => (.ok (), { shut with runtime := .noop, configured := true })
  | .ok true =>
    let installed := { shut with
      runtime := .sibyl p.built (c.newRuntime host config) false, built := p.built + 1 }
    match outside c.start with
    | .error e => (.error e, installed)
    | .ok () => (.ok (), { installed with configured := true })

end SibylMemoryProvider

def SibylMemoryProvider.initialize (host : Host) (py : Interpreter) (p : SibylMemoryProvider)
    (c : InitializeCall) : Except InitializeError Unit × SibylMemoryProvider :=
  match c.loadConfiguration host py with
  | .error e => (.error e, p)
  | .ok config => p.replaceRuntime host c config

def SibylMemoryProvider.step (host : Host) (py : Interpreter) (p : SibylMemoryProvider)
    (c : InitializeCall) : SibylMemoryProvider := ( SibylMemoryProvider.initialize host py p c).2

/-! ### What a call leaves -/

def InstalledRuntime.Open : InstalledRuntime → Prop
  | .noop => True
  | .sibyl _ _ closed => closed = false

namespace SibylMemoryProvider

/-- The runtime that receives the calls after this one is not shut down. -/
def StaysOpen (host : Host) (py : Interpreter) (p : SibylMemoryProvider) (c : InitializeCall) : Prop :=
  (p.step host py c).runtime.Open

/-- A failed call leaves the runtime it found, or none. -/
def Restores (host : Host) (py : Interpreter) (p : SibylMemoryProvider) (c : InitializeCall) : Prop :=
  ∀ e, ( SibylMemoryProvider.initialize host py p c).1 = .error e →
    (p.step host py c).runtime = p.runtime ∨ (p.step host py c).runtime = .noop

end SibylMemoryProvider

/-! ### When a call keeps an open runtime -/

/-- The previous runtime shuts down without an error, the workspace and the identity hold no colon,
the agent id is written and the factory returns. -/
structure InitializeCall.Builds (host : Host) (c : InitializeCall) (config : ProviderConfig)
    (runtime : InstalledRuntime) (found : Bool) : Prop where
  shuts : runtime.shutdownResult c.shutdown = .ok ()
  workspace : ':' ∉ (c.agentWorkspace host).toList
  identity : ':' ∉ (c.agentIdentity host).toList
  written : c.write = .ok ()
  returned : c.factory (c.context host config) = .ok found

namespace SibylMemoryProvider

/-- The call finds no runtime, or it gets as far as the next one. -/
def Replaces (host : Host) (py : Interpreter) (p : SibylMemoryProvider) (c : InitializeCall) : Prop :=
  ∀ config, c.loadConfiguration host py = .ok config →
    p.runtime = .noop ∨ ∃ found, c.Builds host config p.runtime found

/-- A runtime that the call has built starts. -/
def Starts (host : Host) (py : Interpreter) (p : SibylMemoryProvider) (c : InitializeCall) : Prop :=
  ∀ config, c.loadConfiguration host py = .ok config →
    c.Builds host config p.runtime true → c.start = .ok ()

end SibylMemoryProvider

theorem length_splitOn (a : Char) (l : List Char) : (l.splitOn a).length = l.count a + 1 := by
  induction l with
  | nil => simp
  | cons x l ih =>
    rw [List.splitOn_cons_eq_if_modifyHead]
    by_cases hx : x = a
    · simp [hx, ih]
    · simp [hx, ih]

theorem outside_ok {α : Type} {x : Except Raised α} {a : α} : outside x = .ok a ↔ x = .ok a := by
  cases x <;> simp [outside, Except.mapError]

theorem saveRuntimeAgentId_ok {workspace identity : String} {write : Except Raised Unit} :
    saveRuntimeAgentId ("hermes:" ++ workspace ++ ":" ++ identity) write = .ok () ↔
      ':' ∉ workspace.toList ∧ ':' ∉ identity.toList ∧ write = .ok () := by
  have hne : "hermes:" ++ workspace ++ ":" ++ identity ≠ "" := by
    intro h
    simpa using congrArg String.toList h
  have hlength : (("hermes:" ++ workspace ++ ":" ++ identity).toList.splitOn ':').length =
      workspace.toList.count ':' + identity.toList.count ':' + 3 := by
    rw [length_splitOn]
    simp only [String.toList_append, List.count_append]
    have hhermes : "hermes:".toList.count ':' = 1 := by decide
    have hcolon : ":".toList.count ':' = 1 := by decide
    omega
  rw [saveRuntimeAgentId, hlength, ← outside_ok (x := write), ← List.count_eq_zero, ← List.count_eq_zero]
  split <;> rename_i h
  · rcases h with h | h
    · exact absurd h hne
    · constructor
      · intro herror
        cases herror
      · rintro ⟨hw, hi, -⟩
        omega
  · have hzero : workspace.toList.count ':' + identity.toList.count ':' + 3 = 3 := by
      by_contra hthree
      exact h (.inr hthree)
    constructor
    · exact fun hok => ⟨by omega, by omega, hok⟩
    · exact fun hok => hok.2.2

section Steps
variable {host : Host} {py : Interpreter} {p : SibylMemoryProvider} {c : InitializeCall}

theorem buildNext_ok {config : ProviderConfig} {found : Bool} :
    p.buildNext host c config = .ok found ↔ c.Builds host config p.runtime found := by
  simp only [SibylMemoryProvider.buildNext, bind_ok, outside_ok]
  constructor
  · rintro ⟨_, hshuts, _, hsaved, hreturned⟩
    obtain ⟨hworkspace, hidentity, hwritten⟩ := saveRuntimeAgentId_ok.mp hsaved
    exact ⟨hshuts, hworkspace, hidentity, hwritten, hreturned⟩
  · intro h
    exact ⟨(), h.shuts, (), saveRuntimeAgentId_ok.mpr ⟨h.workspace, h.identity, h.written⟩, h.returned⟩

/-- The ends of a call. -/
inductive Initialized (host : Host) (py : Interpreter) (p : SibylMemoryProvider) (c : InitializeCall) :
    Except InitializeError Unit × SibylMemoryProvider → Prop
  | refused (e : InitializeError) (load : c.loadConfiguration host py = .error e) :
      Initialized host py p c (.error e, p)
  | stuck (config : ProviderConfig) (e : InitializeError)
      (load : c.loadConfiguration host py = .ok config) (next : p.buildNext host c config = .error e) :
      Initialized host py p c (.error e, { p with configured := false, runtime := p.runtime.shutdown })
  | missing (config : ProviderConfig) (load : c.loadConfiguration host py = .ok config)
      (next : c.Builds host config p.runtime false) :
      Initialized host py p c (.ok (), { p with runtime := .noop, configured := true })
  | unstarted (config : ProviderConfig) (e : Raised) (load : c.loadConfiguration host py = .ok config)
      (next : c.Builds host config p.runtime true) (start : c.start = .error e) :
      Initialized host py p c (.error (.raised e),
        ⟨.sibyl p.built (c.newRuntime host config) false, false, p.built + 1⟩)
  | started (config : ProviderConfig) (load : c.loadConfiguration host py = .ok config)
      (next : c.Builds host config p.runtime true) (start : c.start = .ok ()) :
      Initialized host py p c
        (.ok (), ⟨.sibyl p.built (c.newRuntime host config) false, true, p.built + 1⟩)

theorem initialize_cases (host : Host) (py : Interpreter) (p : SibylMemoryProvider)
    (c : InitializeCall) : Initialized host py p c ( SibylMemoryProvider.initialize host py p c) := by
  unfold SibylMemoryProvider.initialize
  split
  · rename_i e hload
    exact .refused e hload
  · rename_i config hload
    unfold SibylMemoryProvider.replaceRuntime
    split
    · rename_i e hnext
      exact .stuck config e hload hnext
    · rename_i hnext
      exact .missing config hload (buildNext_ok.mp hnext)
    · rename_i hnext
      cases hstart : c.start with
      | error e => exact .unstarted config e hload (buildNext_ok.mp hnext) hstart
      | ok => exact .started config hload (buildNext_ok.mp hnext) hstart

theorem shutdown_open {rt : InstalledRuntime} : rt.shutdown.Open ↔ rt = .noop := by
  cases rt <;> simp [InstalledRuntime.shutdown, InstalledRuntime.Open]

theorem staysOpen_iff (hopen : p.runtime.Open) : p.StaysOpen host py c ↔ p.Replaces host py c := by
  change ( SibylMemoryProvider.initialize host py p c).2.runtime.Open ↔ _
  have hcases := initialize_cases host py p c
  generalize SibylMemoryProvider.initialize host py p c = out at hcases ⊢
  cases hcases with
  | refused e load =>
    refine ⟨fun _ config hconfig => ?_, fun _ => hopen⟩
    rw [load] at hconfig
    cases hconfig
  | stuck config e load next =>
    constructor
    · exact fun hout _ _ => .inl (shutdown_open.mp hout)
    · intro h
      rcases h config load with hnone | ⟨found, hfound⟩
      · exact shutdown_open.mpr hnone
      · rw [buildNext_ok.mpr hfound] at next
        cases next
  | missing config load next =>
    refine ⟨fun _ config' hconfig => .inr ⟨false, ?_⟩, fun _ => trivial⟩
    cases load.symm.trans hconfig
    exact next
  | unstarted config e load next start =>
    refine ⟨fun _ config' hconfig => .inr ⟨true, ?_⟩, fun _ => rfl⟩
    cases load.symm.trans hconfig
    exact next
  | started config load next start =>
    refine ⟨fun _ config' hconfig => .inr ⟨true, ?_⟩, fun _ => rfl⟩
    cases load.symm.trans hconfig
    exact next

/-- No runtime that the provider holds has a serial number still to come. -/
def SibylMemoryProvider.Numbered (p : SibylMemoryProvider) : Prop :=
  ∀ serial runtime closed, p.runtime = .sibyl serial runtime closed → serial < p.built

theorem step_numbered (h : p.Numbered) : (p.step host py c).Numbered := by
  change ( SibylMemoryProvider.initialize host py p c).2.Numbered
  have hcases := initialize_cases host py p c
  generalize SibylMemoryProvider.initialize host py p c = out at hcases ⊢
  cases hcases with
  | refused e load => exact h
  | stuck config e load next =>
    intro serial runtime closed hruntime
    cases hp : p.runtime with
    | noop =>
      rw [hp] at hruntime
      cases hruntime
    | sibyl serial' runtime' closed' =>
      rw [hp] at hruntime
      cases hruntime
      exact h _ _ _ hp
  | missing config load next =>
    intro serial runtime closed hruntime
    cases hruntime
  | unstarted config e load next start =>
    intro serial runtime closed hruntime
    cases hruntime
    exact Nat.lt_succ_self _
  | started config load next start =>
    intro serial runtime closed hruntime
    cases hruntime
    exact Nat.lt_succ_self _

theorem restores_iff (hopen : p.runtime.Open) (hnumbered : p.Numbered) :
    p.StaysOpen host py c ∧ p.Restores host py c ↔
      p.Replaces host py c ∧ p.Starts host py c := by
  rw [staysOpen_iff hopen]
  refine and_congr_right fun hreplaces => ?_
  unfold SibylMemoryProvider.Restores SibylMemoryProvider.step SibylMemoryProvider.Starts
  have hcases := initialize_cases host py p c
  generalize SibylMemoryProvider.initialize host py p c = out at hcases ⊢
  cases hcases with
  | refused e load =>
    refine ⟨fun _ config hconfig => ?_, fun _ _ _ => .inl rfl⟩
    rw [load] at hconfig
    cases hconfig
  | stuck config e load next =>
    refine ⟨fun _ config' hconfig hbuilds => ?_, fun _ _ _ => ?_⟩
    · cases load.symm.trans hconfig
      rw [buildNext_ok.mpr hbuilds] at next
      cases next
    · rcases hreplaces config load with hnone | ⟨found, hfound⟩
      · right
        rw [hnone]
        rfl
      · rw [buildNext_ok.mpr hfound] at next
        cases next
  | missing config load next =>
    refine ⟨fun _ config' hconfig hbuilds => ?_, fun _ _ herror => ?_⟩
    · cases load.symm.trans hconfig
      cases next.returned.symm.trans hbuilds.returned
    · cases herror
  | unstarted config e load next start =>
    constructor
    · intro h
      rcases h _ rfl with hsame | hnone
      · -- the runtime just built is not the one before
        exact absurd (hnumbered _ _ _ hsame.symm) (Nat.lt_irrefl _)
      · cases hnone
    · intro h
      rw [h config load next] at start
      cases start
  | started config load next start =>
    refine ⟨fun _ _ _ _ => start, fun _ _ herror => ?_⟩
    cases herror

end Steps

/-! ### Runs -/

section Runs
variable {host : Host} {py : Interpreter}

/-- Along a run the installed runtime is never one that was shut down exactly when every call finds
none or gets as far as the next one; failed calls leave what they found exactly when, besides, every
runtime that is built starts. -/
theorem reinitialization (calls : List InitializeCall) :
    (Run.Always (SibylMemoryProvider.step host py) (SibylMemoryProvider.StaysOpen host py) .new calls ↔
      Run.Always (SibylMemoryProvider.step host py) (SibylMemoryProvider.Replaces host py) .new calls) ∧
    (Run.Always (SibylMemoryProvider.step host py)
        (fun p c => p.StaysOpen host py c ∧ p.Restores host py c) .new calls ↔
      Run.Always (SibylMemoryProvider.step host py)
        (fun p c => p.Replaces host py c ∧ p.Starts host py c) .new calls) := by
  have hnew : SibylMemoryProvider.new.Numbered := by
    intro serial runtime closed h
    cases h
  constructor
  · exact Run.always_iff_of_kept (I := fun p => p.runtime.Open) (fun p c hp => staysOpen_iff hp)
      (fun p c _ h => h) trivial
  · exact Run.always_iff_of_kept (I := fun p => p.runtime.Open ∧ p.Numbered)
      (fun p c hp => restores_iff hp.1 hp.2) (fun p c hp h => ⟨h.1, step_numbered hp.2⟩)
      ⟨trivial, hnew⟩

end Runs

/-- A call with a complete configuration, for an identity. -/
def sampleCall (identity : String) : InitializeCall where
  sessionId := "s"
  kwargs := [("hermes_home", .str "/h"), ("agent_identity", .str identity)]
  hermesHome := .ok "/h"
  sibylJson _ := .ok (some (.dict [("project_id", .str "project_p"), ("memory_space_id", .str "m")]))
  environ := some "key"
  envFile _ := .ok none
  shutdown := .ok ()
  write := .ok ()
  factory _ := .ok true
  start := .ok ()

/-- After a call for an identity with a colon the provider still hands out the runtime that this
call shut down. -/
theorem dead_runtime_is_kept :
    ∃ first, SibylMemoryProvider.step Host.plain sampleInterpreter .new (sampleCall "nova")
        = ⟨.sibyl 0 first false, true, 1⟩ ∧
      SibylMemoryProvider.initialize Host.plain sampleInterpreter ⟨.sibyl 0 first false, true, 1⟩
          (sampleCall "a:b")
        = (.error (.configuration (.valueError "agent_id must use hermes:<workspace>:<identity>")),
          ⟨.sibyl 0 first true, false, 1⟩) ∧
      ¬ Run.Always (SibylMemoryProvider.step Host.plain sampleInterpreter)
        (SibylMemoryProvider.StaysOpen Host.plain sampleInterpreter) .new
        [sampleCall "nova", sampleCall "a:b"] := by
  refine ⟨(sampleCall "nova").newRuntime Host.plain { projectId := "project_p", memorySpaceId := "m" },
    rfl, rfl, fun h => ?_⟩
  have hlast : true = false := h.2.1
  cases hlast

end SibylMemory
