import SibylMemory.Client
import SibylMemory.Operations
import SibylMemory.Library.Runs

/-!
# The credential check (`trust.py`, `runtime.py:106-346`)

A thread of the runtime sends to Sibyl only behind `_ensure_credential_safe`, which asks for the
credential once under a lock and remembers what it found. A shutdown flushes what is left if the
credential was found safe.
-/

namespace SibylMemory
open Text

/-! ### Credentials (`schemas.py:242-296`) -/

structure Credential where
  type : String
  id : Option String := none
  scopes : List String := []
  projectIds : List String := []
  memorySpaceIds : List String := []
  agentId : Option String := none
  delegatedAuthority : Option String := none
  capabilityProfile : Option String := none

def Credential.fromJson (value : PyValue) : Except String Credential := do
  let path := "response.credential"
  let data ← Schema.object value path
  let type ← Schema.requiredString data "type" path
  if type ≠ "api_key" ∧ type ≠ "session" then throw (path ++ ".type is incompatible")
  if type = "session" then return { type := "session" }
  let id ← Schema.requiredString data "id" path
  let scopes ← Schema.requiredStringList data "scopes" path
  let projectIds ← Schema.requiredStringList data "project_ids" path
  let memorySpaceIds ← Schema.requiredStringList data "memory_space_ids" path
  let agentId ← Schema.optionalString data "agent_id" path
  let delegatedAuthority ← Schema.optionalString data "delegated_authority" path
  let capabilityProfile ← Schema.optionalString data "capability_profile" path
  return { type := "api_key", id := some id, scopes, projectIds, memorySpaceIds, agentId,
           delegatedAuthority, capabilityProfile }

structure AuthMeResponse where
  credential : Credential
  user : JSONObject
  organization : Option JSONObject
  orgRole : Option String

def AuthMeResponse.fromJson (value : PyValue) : Except String AuthMeResponse := do
  let path := "response"
  let data ← Schema.object value path
  let organization ← match Schema.get data "organization" with
    | .none => pure none
    | organizationValue => (Schema.object organizationValue "response.organization").map some
  let credential ← Credential.fromJson (Schema.get data "credential")
  let user ← Schema.object (Schema.get data "user") "response.user"
  let orgRole ← Schema.optionalString data "org_role" path
  return { credential, user, organization, orgRole }

def authMe (host : Host) (exchange : Exchange) (requestId : String) :
    Except ClientError AuthMeResponse :=
  request host (fun _ => exchange) requestId ⟨"GET", "auth/me", [], none⟩ AuthMeResponse.fromJson
    fun _ => .ok ()

/-! ### `credential_failures` (`trust.py:16-58`) -/

structure CredentialRequirement where
  projectId : String
  memorySpaceId : String
  agentId : Option String

/-- `set(values) != {value}` -/
def notExactly (values : List String) (value : String) : Bool :=
  !(decide (value ∈ values) && values.all fun v => decide (v = value))

/-- `hermes:<workspace>:<identity>` -/
def canonicalAgent (agentId : String) : Bool :=
  match agentId.toList.splitOn ':' with
  | [scheme, workspace, identity] =>
    decide (String.ofList scheme = "hermes") && !workspace.isEmpty && !identity.isEmpty
  | _ => false

def credentialFailures (credential : Credential) (requirement : CredentialRequirement) : List String :=
  (if credential.type ≠ "api_key" then ["credential must be an API key"] else []) ++
  (if "api:write" ∉ credential.scopes then ["api:write scope is required"] else []) ++
  (if notExactly credential.projectIds requirement.projectId then
    ["key must be restricted to exactly the configured project"] else []) ++
  (if notExactly credential.memorySpaceIds requirement.memorySpaceId then
    ["key must be restricted to exactly the configured memory space"] else []) ++
  (match requirement.agentId with
    | none => if !canonicalAgent (credential.agentId.getD "") then
        ["key must bind one canonical Hermes agent identity"] else []
    | some agentId => if credential.agentId ≠ some agentId then
        ["authenticated agent identity does not match Hermes"] else []) ++
  (if credential.capabilityProfile ≠ some "memory_provider" then
    ["capability_profile must be memory_provider"] else [])

def RuntimeContext.requirement (c : RuntimeContext) : CredentialRequirement where
  projectId := c.projectId
  memorySpaceId := c.memorySpaceId
  agentId := some c.agentId

/-! ### Threads -/

inductive ApiRequest where
  | contextPack
  | exposeContext
  | rememberRaw
  | previewCorrection
  | applyCorrection
  deriving DecidableEq

/-- What a thread runs: `_validate_and_flush`, `_fetch_context`, `_tool_recall`, `_tool_correct`, or
`shutdown` with its `_flush_and_close`. -/
inductive Job where
  | flush
  | fetch
  | toolRecall
  | toolCorrect
  | shutdown
  deriving DecidableEq

def Job.issues : Job → ApiRequest → Bool
  | .flush, request => decide (request ≠ .contextPack)
  | .shutdown, request => decide (request ≠ .contextPack)
  | .fetch, request => decide (request = .contextPack)
  | .toolRecall, request => decide (request = .contextPack)
  | .toolCorrect, request => decide (request = .previewCorrection)

def Job.flushes : Job → Bool
  | .flush => true
  | .shutdown => true
  | _ => false

/-- Where a thread is: at its first line, before the lock, inside the lock while `auth_me` runs,
past the check, past its one request, or done. A shutdown sets `_closed` and then looks at the flag,
without the lock. -/
inductive Point where
  | entered
  | closing
  | stopping
  | waiting
  | probing
  | cleared
  | answered
  | finished
  deriving DecidableEq

structure Worker where
  job : Job
  point : Point

inductive NetworkEvent where
  | probed (outcome : Except ClientError AuthMeResponse)
  | sent (request : ApiRequest)

/-- `locked` is the holder of `_credential_lock`; workers are numbered as they are made. -/
structure CredentialState where
  credentialSafe : Option Bool := none
  credentialError : String := ""
  locked : Option Nat := none
  closed : Bool := false
  workers : List Worker := []
  log : List NetworkEvent := []

namespace CredentialState

def spawn (s : CredentialState) (job : Job) : CredentialState :=
  { s with workers := s.workers ++ [Worker.mk job .entered] }

/-- `self._executor.submit(self._validate_and_flush)`, which an executor may refuse or drop. -/
def submitFlush (s : CredentialState) (submitted : Bool) : CredentialState :=
  if submitted then s.spawn .flush else s

def setPoint (s : CredentialState) (worker : Nat) (point : Point) : CredentialState :=
  { s with workers := s.workers.modify worker fun w => { w with point } }

def enter (s : CredentialState) (worker : Nat) : Job → CredentialState
  | .flush => s.setPoint worker (if s.closed then .finished else .waiting)
  | .shutdown => s.setPoint worker (if s.closed then .finished else .closing)
  | _ => s.setPoint worker .waiting

def close (s : CredentialState) (worker : Nat) : CredentialState :=
  { s with closed := true }.setPoint worker .stopping

/-- `if self._credential_safe:` of `shutdown` -/
def stop (s : CredentialState) (worker : Nat) : CredentialState :=
  s.setPoint worker (if s.credentialSafe = some true then .cleared else .finished)

/-- `_ensure_credential_safe` up to `auth_me`, once the lock is free. -/
def acquire (s : CredentialState) (worker : Nat) : CredentialState :=
  match s.credentialSafe with
  | some true => s.setPoint worker .cleared
  | some false => s.setPoint worker .finished
  | none => { s with locked := some worker }.setPoint worker .probing

/-- `_ensure_credential_safe` from the outcome of `auth_me` on. -/
def validate (c : RuntimeContext) (s : CredentialState) (worker : Nat)
    (outcome : Except ClientError AuthMeResponse) : CredentialState :=
  let s := { s with locked := none, log := s.log ++ [NetworkEvent.probed outcome] }
  match outcome with
  | .error _ => s.setPoint worker .finished
  | .ok response =>
    let failures := credentialFailures response.credential c.requirement
    if failures = [] then { s with credentialSafe := some true }.setPoint worker .cleared
    else
      { s with
        credentialSafe := some false,
        credentialError := joinWith "; " failures }.setPoint worker .finished

def send (s : CredentialState) (worker : Nat) (job : Job) (request : ApiRequest) : CredentialState :=
  { s with log := s.log ++ [NetworkEvent.sent request] }.setPoint worker
    (if job.flushes then .cleared else .answered)

end CredentialState

/-- The methods that Hermes calls, and the steps of the threads they start. -/
inductive RuntimeAct where
  | initializeRuntime (submitted : Bool)
  | onTurnStart (scheduled submitted : Bool)
  | prefetch (submitted : Bool)
  | syncTurn (submitted : Bool)
  | onSessionSwitch
  | toolRecall
  | toolRemember (submitted : Bool)
  | toolCorrect
  | shutdown
  | enter (worker : Nat)
  | close (worker : Nat)
  | stop (worker : Nat)
  | acquire (worker : Nat)
  | probed (worker : Nat) (exchange : Exchange) (requestId : String)
  /-- `auth_me` raises something else, as on a closed client. -/
  | raised (worker : Nat) (errorClass : String)
  | send (worker : Nat) (request : ApiRequest)
  /-- The thread ends; a tool that was answered may submit a flush. -/
  | finish (worker : Nat) (submitted : Bool)

/-- One step; `none` when it is not enabled. -/
def credentialStep (host : Host) (c : RuntimeContext) (s : CredentialState) :
    RuntimeAct → Option CredentialState
  | .initializeRuntime submitted => some (s.submitFlush submitted)
  | .onTurnStart scheduled submitted =>
    some ((if scheduled then s.spawn .fetch else s).submitFlush submitted)
  | .prefetch submitted => some (s.submitFlush submitted)
  | .syncTurn submitted => some (s.submitFlush submitted)
  | .onSessionSwitch => some s
  | .toolRecall => some (s.spawn .toolRecall)
  | .toolRemember submitted => some (s.submitFlush submitted)
  | .toolCorrect => some (s.spawn .toolCorrect)
  | .shutdown => some (s.spawn .shutdown)
  | .enter worker =>
    match s.workers[worker]? with
    | some ⟨job, .entered⟩ => some (s.enter worker job)
    | _ => none
  | .close worker =>
    match s.workers[worker]? with
    | some ⟨_, .closing⟩ => some (s.close worker)
    | _ => none
  | .stop worker =>
    match s.workers[worker]? with
    | some ⟨_, .stopping⟩ => some (s.stop worker)
    | _ => none
  | .acquire worker =>
    match s.workers[worker]?, s.locked with
    | some ⟨_, .waiting⟩, none => some (s.acquire worker)
    | _, _ => none
  | .probed worker exchange requestId =>
    match s.workers[worker]? with
    | some ⟨_, .probing⟩ => some (s.validate c worker (authMe host exchange requestId))
    | _ => none
  | .raised worker errorClass =>
    match s.workers[worker]? with
    | some ⟨_, .probing⟩ => some (s.validate c worker (.error (.other errorClass)))
    | _ => none
  | .send worker request =>
    match s.workers[worker]? with
    | some ⟨job, .cleared⟩ => if job.issues request then some (s.send worker job request) else none
    | _ => none
  | .finish worker submitted =>
    match s.workers[worker]? with
    | some ⟨_, .cleared⟩ => some (s.setPoint worker .finished)
    | some ⟨_, .answered⟩ => some ((s.setPoint worker .finished).submitFlush submitted)
    | _ => none

def credentialRun (host : Host) (c : RuntimeContext) (acts : List RuntimeAct) :
    Option CredentialState :=
  acts.foldlM (credentialStep host c) {}

/-! ### The invariant -/

/-- An answer to `auth_me` with a credential that is safe to use, or one that is not. -/
def NetworkEvent.Safe (c : RuntimeContext) (e : NetworkEvent) : Prop :=
  ∃ r, e = .probed (.ok r) ∧ credentialFailures r.credential c.requirement = []

def NetworkEvent.Refused (c : RuntimeContext) (e : NetworkEvent) : Prop :=
  ∃ r, e = .probed (.ok r) ∧ credentialFailures r.credential c.requirement ≠ []

/-- A thread past the check found the credential safe; one inside the lock holds it. -/
structure PointOk (safe : Option Bool) (locked : Option Nat) (worker : Nat) (point : Point) : Prop where
  cleared : point = .cleared ∨ point = .answered → safe = some true
  probing : point = .probing → locked = some worker ∧ safe = none

/-- Each request has an answer before it that made the credential safe. -/
def Validated (c : RuntimeContext) (log : List NetworkEvent) : Prop :=
  ∀ before request after, log = before ++ .sent request :: after → ∃ e ∈ before, e.Safe c

structure CredentialGuard (c : RuntimeContext) (s : CredentialState) : Prop where
  safe : s.credentialSafe = some true ↔ ∃ e ∈ s.log, e.Safe c
  refused : s.credentialSafe = some false ↔ ∃ e ∈ s.log, e.Refused c
  points : ∀ i w, s.workers[i]? = some w → PointOk s.credentialSafe s.locked i w.point
  sent : Validated c s.log

section Steps
variable {host : Host} {c : RuntimeContext} {s s' : CredentialState}

theorem pointOk_early {safe : Option Bool} {locked : Option Nat} {i : Nat} {point : Point}
    (hcleared : point ≠ .cleared) (hanswered : point ≠ .answered) (hprobing : point ≠ .probing) :
    PointOk safe locked i point where
  cleared := fun h => (h.elim hcleared hanswered).elim
  probing := fun h => (hprobing h).elim

theorem pointOk_finished (safe : Option Bool) (locked : Option Nat) (i : Nat) :
    PointOk safe locked i .finished :=
  pointOk_early nofun nofun nofun

theorem pointOk_cleared {safe : Option Bool} (locked : Option Nat) (i : Nat)
    (h : safe = some true) : PointOk safe locked i .cleared where
  cleared := fun _ => h
  probing := nofun

theorem start_guard (c : RuntimeContext) : CredentialGuard c {} where
  safe := by simp
  refused := by simp
  points := fun i w h => by cases h
  sent := fun before request after h => by simp at h

theorem CredentialGuard.spawn (h : CredentialGuard c s) (job : Job) :
    CredentialGuard c (s.spawn job) := by
  refine ⟨h.safe, h.refused, fun i w hw => ?_, h.sent⟩
  rw [CredentialState.spawn] at hw
  rcases Nat.lt_or_ge i s.workers.length with hi | hi
  · rw [List.getElem?_append_left hi] at hw
    exact h.points i w hw
  · rw [List.getElem?_append_right hi] at hw
    have hnew : w = ⟨job, .entered⟩ := List.mem_singleton.mp (List.mem_of_getElem? hw)
    rw [hnew]
    exact pointOk_early nofun nofun nofun

theorem CredentialGuard.submitFlush (h : CredentialGuard c s) (submitted : Bool) :
    CredentialGuard c (s.submitFlush submitted) := by
  unfold CredentialState.submitFlush
  split
  · exact h.spawn .flush
  · exact h

theorem moved_points {worker : Nat} {point : Point} {safe : Option Bool} {locked : Option Nat}
    (hold : ∀ i w, i ≠ worker → s.workers[i]? = some w → PointOk safe locked i w.point)
    (hnew : PointOk safe locked worker point) :
    ∀ i w, (s.setPoint worker point).workers[i]? = some w → PointOk safe locked i w.point := by
  intro i w hw
  rw [CredentialState.setPoint, List.getElem?_modify, Option.map_eq_map, Option.map_eq_some_iff] at hw
  obtain ⟨w₀, hw₀, rfl⟩ := hw
  split
  · rename_i hi
    exact hi ▸ hnew
  · rename_i hi
    exact hold i w₀ (Ne.symm hi) hw₀

theorem CredentialGuard.setPoint (h : CredentialGuard c s) {worker : Nat} {point : Point}
    (hnew : PointOk s.credentialSafe s.locked worker point) :
    CredentialGuard c (s.setPoint worker point) :=
  ⟨h.safe, h.refused, moved_points (fun i w _ hw => h.points i w hw) hnew, h.sent⟩

theorem enter_guard (h : CredentialGuard c s) (worker : Nat) (job : Job) :
    CredentialGuard c (s.enter worker job) := by
  cases job with
  | flush =>
    refine h.setPoint ?_
    split
    · exact pointOk_finished _ _ _
    · exact pointOk_early nofun nofun nofun
  | shutdown =>
    refine h.setPoint ?_
    split
    · exact pointOk_finished _ _ _
    · exact pointOk_early nofun nofun nofun
  | fetch => exact h.setPoint (pointOk_early nofun nofun nofun)
  | toolRecall => exact h.setPoint (pointOk_early nofun nofun nofun)
  | toolCorrect => exact h.setPoint (pointOk_early nofun nofun nofun)

theorem close_guard (h : CredentialGuard c s) (worker : Nat) : CredentialGuard c (s.close worker) := by
  have hclosed : CredentialGuard c { s with closed := true } := ⟨h.safe, h.refused, h.points, h.sent⟩
  exact hclosed.setPoint (pointOk_early nofun nofun nofun)

theorem stop_guard (h : CredentialGuard c s) (worker : Nat) : CredentialGuard c (s.stop worker) := by
  refine h.setPoint ?_
  split
  · rename_i hsafe
    exact pointOk_cleared s.locked worker hsafe
  · exact pointOk_finished _ _ _

theorem acquire_guard (h : CredentialGuard c s) (worker : Nat) (hlock : s.locked = none) :
    CredentialGuard c (s.acquire worker) := by
  unfold CredentialState.acquire
  split
  · rename_i hsafe
    exact h.setPoint (pointOk_cleared s.locked worker hsafe)
  · exact h.setPoint (pointOk_finished _ _ _)
  · rename_i hnone
    refine ⟨h.safe, h.refused, moved_points (s := { s with locked := some worker })
      (fun i w _ hw => ?_) ⟨?_, fun _ => ⟨rfl, hnone⟩⟩, h.sent⟩
    · obtain ⟨hcleared, hprobing⟩ := h.points i w hw
      refine ⟨hcleared, fun hp => ?_⟩
      -- nobody is inside a lock that is free
      rw [hlock] at hprobing
      cases (hprobing hp).1
    · rintro (hp | hp) <;> cases hp

theorem validated_snoc {log : List NetworkEvent} {e : NetworkEvent} (h : Validated c log)
    (he : ∀ request, e = .sent request → ∃ e ∈ log, e.Safe c) : Validated c (log ++ [e]) := by
  intro before request after hlog
  rcases Run.cut_snoc hlog with ⟨rfl, hlast, -⟩ | ⟨after, -, rfl⟩
  · exact he request hlast.symm
  · exact h before request after rfl

/-- An outcome of `auth_me` makes the credential safe, refuses it, or leaves it open. -/
theorem NetworkEvent.safe_probed {outcome : Except ClientError AuthMeResponse} :
    NetworkEvent.Safe c (.probed outcome) ↔
      ∃ r, outcome = .ok r ∧ credentialFailures r.credential c.requirement = [] := by
  simp [NetworkEvent.Safe]

theorem NetworkEvent.refused_probed {outcome : Except ClientError AuthMeResponse} :
    NetworkEvent.Refused c (.probed outcome) ↔
      ∃ r, outcome = .ok r ∧ credentialFailures r.credential c.requirement ≠ [] := by
  simp [NetworkEvent.Refused]

/-- While a thread is inside the lock, no other is past the check or inside it. -/
theorem CredentialGuard.others_early (h : CredentialGuard c s) {worker : Nat}
    (hlock : s.locked = some worker) (hnone : s.credentialSafe = none) {i : Nat} {w : Worker}
    (hi : i ≠ worker) (hw : s.workers[i]? = some w) (safe : Option Bool) (locked : Option Nat) :
    PointOk safe locked i w.point := by
  obtain ⟨hcleared, hprobing⟩ := h.points i w hw
  rw [hnone] at hcleared
  rw [hlock] at hprobing
  refine pointOk_early (fun hp => ?_) (fun hp => ?_) (fun hp => ?_)
  · cases hcleared (.inl hp)
  · cases hcleared (.inr hp)
  · exact hi (Option.some.inj (hprobing hp).1).symm

theorem validate_cases (s : CredentialState) (worker : Nat)
    (outcome : Except ClientError AuthMeResponse) :
    ∃ point, (s.validate c worker outcome).log = s.log ++ [.probed outcome] ∧
      (s.validate c worker outcome).locked = none ∧
      (s.validate c worker outcome).workers = (s.setPoint worker point).workers ∧
      (((s.validate c worker outcome).credentialSafe = s.credentialSafe ∧ point = .finished ∧
          ¬ NetworkEvent.Safe c (.probed outcome) ∧ ¬ NetworkEvent.Refused c (.probed outcome)) ∨
        ((s.validate c worker outcome).credentialSafe = some true ∧ point = .cleared ∧
          NetworkEvent.Safe c (.probed outcome) ∧ ¬ NetworkEvent.Refused c (.probed outcome)) ∨
        ((s.validate c worker outcome).credentialSafe = some false ∧ point = .finished ∧
          ¬ NetworkEvent.Safe c (.probed outcome) ∧ NetworkEvent.Refused c (.probed outcome))) := by
  cases outcome with
  | error e =>
    refine ⟨.finished, rfl, rfl, rfl, .inl ⟨rfl, rfl, ?_, ?_⟩⟩
    · simp [NetworkEvent.safe_probed]
    · simp [NetworkEvent.refused_probed]
  | ok r =>
    by_cases hfail : credentialFailures r.credential c.requirement = []
    · refine ⟨.cleared, ?_⟩
      simp [CredentialState.validate, CredentialState.setPoint, NetworkEvent.safe_probed,
        NetworkEvent.refused_probed, hfail]
    · refine ⟨.finished, ?_⟩
      simp [CredentialState.validate, CredentialState.setPoint, NetworkEvent.safe_probed,
        NetworkEvent.refused_probed, hfail]

theorem validate_guard (h : CredentialGuard c s) {worker : Nat}
    {outcome : Except ClientError AuthMeResponse} (hlock : s.locked = some worker)
    (hnone : s.credentialSafe = none) : CredentialGuard c (s.validate c worker outcome) := by
  have hsafe : ¬ ∃ e ∈ s.log, e.Safe c := by
    rw [← h.safe, hnone]
    nofun
  have hrefused : ¬ ∃ e ∈ s.log, e.Refused c := by
    rw [← h.refused, hnone]
    nofun
  obtain ⟨point, hlog, hlocked, hworkers, hcases⟩ := validate_cases (c := c) s worker outcome
  refine ⟨?_, ?_, ?_, ?_⟩
  · rw [hlog]
    rcases hcases with ⟨hflag, -, hs, -⟩ | ⟨hflag, -, hs, -⟩ | ⟨hflag, -, hs, -⟩ <;>
      simp [hflag, hnone, hs, hsafe]
  · rw [hlog]
    rcases hcases with ⟨hflag, -, -, hr⟩ | ⟨hflag, -, -, hr⟩ | ⟨hflag, -, -, hr⟩ <;>
      simp [hflag, hnone, hr, hrefused]
  · rw [hlocked, hworkers]
    refine moved_points (fun i w hi hw => h.others_early hlock hnone hi hw _ _) ?_
    rcases hcases with ⟨-, rfl, -⟩ | ⟨hflag, rfl, -⟩ | ⟨-, rfl, -⟩
    · exact pointOk_finished _ _ _
    · exact pointOk_cleared none worker hflag
    · exact pointOk_finished _ _ _
  · rw [hlog]
    exact validated_snoc h.sent nofun

theorem send_guard (h : CredentialGuard c s) {worker : Nat} (job : Job) (request : ApiRequest)
    (hsafe : s.credentialSafe = some true) : CredentialGuard c (s.send worker job request) := by
  have hevent : ¬ NetworkEvent.Safe c (.sent request) := by simp [NetworkEvent.Safe]
  have hevent' : ¬ NetworkEvent.Refused c (.sent request) := by simp [NetworkEvent.Refused]
  refine ⟨?_, ?_, ?_, ?_⟩
  · simpa [CredentialState.send, CredentialState.setPoint, hevent, or_imp, exists_or] using h.safe
  · simpa [CredentialState.send, CredentialState.setPoint, hevent', or_imp, exists_or] using h.refused
  · refine moved_points (s := { s with log := _ }) (fun i w _ hw => h.points i w hw)
      ⟨fun _ => hsafe, fun hp => ?_⟩
    split at hp <;> cases hp
  · exact validated_snoc h.sent fun _ _ => h.safe.mp hsafe

theorem credentialStep_guard {act : RuntimeAct} (h : CredentialGuard c s)
    (hstep : credentialStep host c s act = some s') : CredentialGuard c s' := by
  cases act with
  | initializeRuntime submitted =>
    cases hstep
    exact h.submitFlush submitted
  | onTurnStart scheduled submitted =>
    cases hstep
    refine CredentialGuard.submitFlush ?_ submitted
    split
    · exact h.spawn .fetch
    · exact h
  | prefetch submitted =>
    cases hstep
    exact h.submitFlush submitted
  | syncTurn submitted =>
    cases hstep
    exact h.submitFlush submitted
  | onSessionSwitch =>
    cases hstep
    exact h
  | toolRecall =>
    cases hstep
    exact h.spawn .toolRecall
  | toolRemember submitted =>
    cases hstep
    exact h.submitFlush submitted
  | toolCorrect =>
    cases hstep
    exact h.spawn .toolCorrect
  | shutdown =>
    cases hstep
    exact h.spawn .shutdown
  | enter worker =>
    simp only [credentialStep] at hstep
    split at hstep
    · cases hstep
      exact enter_guard h worker _
    · cases hstep
  | close worker =>
    simp only [credentialStep] at hstep
    split at hstep
    · cases hstep
      exact close_guard h worker
    · cases hstep
  | stop worker =>
    simp only [credentialStep] at hstep
    split at hstep
    · cases hstep
      exact stop_guard h worker
    · cases hstep
  | acquire worker =>
    simp only [credentialStep] at hstep
    split at hstep
    · rename_i hlock
      cases hstep
      exact acquire_guard h worker hlock
    · cases hstep
  | probed worker exchange requestId =>
    simp only [credentialStep] at hstep
    split at hstep
    · rename_i hw
      cases hstep
      obtain ⟨hlock, hnone⟩ := (h.points worker _ hw).probing rfl
      exact validate_guard h hlock hnone
    · cases hstep
  | raised worker errorClass =>
    simp only [credentialStep] at hstep
    split at hstep
    · rename_i hw
      cases hstep
      obtain ⟨hlock, hnone⟩ := (h.points worker _ hw).probing rfl
      exact validate_guard h hlock hnone
    · cases hstep
  | send worker request =>
    simp only [credentialStep] at hstep
    split at hstep
    · rename_i hw
      split at hstep
      · cases hstep
        exact send_guard h _ request ((h.points worker _ hw).cleared (.inl rfl))
      · cases hstep
    · cases hstep
  | finish worker submitted =>
    simp only [credentialStep] at hstep
    split at hstep
    · cases hstep
      exact h.setPoint (pointOk_finished _ _ _)
    · cases hstep
      exact (h.setPoint (pointOk_finished _ _ _)).submitFlush submitted
    · cases hstep

theorem credentialRun_guard {acts : List RuntimeAct} (h : credentialRun host c acts = some s) :
    CredentialGuard c s := by
  exact Run.foldlM_invariant (I := fun _ s => CredentialGuard c s) (start_guard c)
    (fun _ _ _ _ _ hs hstep => credentialStep_guard hs hstep) h

/-- A refused credential leaves the flag `False`, and a sent request needs it `True`. -/
theorem CredentialGuard.silent (h : CredentialGuard c s) (hrefused : ∃ e ∈ s.log, e.Refused c)
    (request : ApiRequest) : .sent request ∉ s.log := by
  intro hmem
  obtain ⟨before, after, hlog⟩ := List.append_of_mem hmem
  obtain ⟨e, he, hsafe⟩ := h.sent before request after hlog
  have htrue : s.credentialSafe = some true := by
    refine h.safe.mpr ⟨e, ?_, hsafe⟩
    rw [hlog]
    exact List.mem_append_left _ he
  rw [h.refused.mpr hrefused] at htrue
  cases htrue

/-- Every request but `auth_me` comes behind an answer with a credential that passes
`credential_failures`, and a runtime that was told of one that does not sends none. -/
theorem no_unvalidated_request {acts : List RuntimeAct} (h : credentialRun host c acts = some s) :
    (∀ before request after, s.log = before ++ .sent request :: after →
      ∃ r, .probed (.ok r) ∈ before ∧ credentialFailures r.credential c.requirement = []) ∧
    ∀ r, .probed (.ok r) ∈ s.log → credentialFailures r.credential c.requirement ≠ [] →
      ∀ request, .sent request ∉ s.log := by
  have hguard := credentialRun_guard h
  refine ⟨fun before request after hlog => ?_, fun r hr hfail request => ?_⟩
  · obtain ⟨e, he, r, rfl, hsafe⟩ := hguard.sent before request after hlog
    exact ⟨r, he, hsafe⟩
  · exact hguard.silent ⟨_, hr, r, rfl, hfail⟩ request

end Steps

/-! ### A run -/

def sampleAuthMe : JSONObject :=
  [("credential", .dict [("type", .str "api_key"), ("id", .str "k"),
      ("scopes", .list [.str "api:write"]), ("project_ids", .list [.str "p"]),
      ("memory_space_ids", .list [.str "m"]), ("agent_id", .str "hermes:w:i"),
      ("capability_profile", .str "memory_provider")]),
    ("user", .dict [])]

def sampleMe : AuthMeResponse where
  credential :=
    { type := "api_key", id := some "k", scopes := ["api:write"], projectIds := ["p"],
      memorySpaceIds := ["m"], agentId := some "hermes:w:i",
      capabilityProfile := some "memory_provider" }
  user := []
  organization := none
  orgRole := none

def authMeHost : Host := { Host.plain with loads := fun _ => .ok (.dict sampleAuthMe) }

def sampleAnswer : Response where
  status := 200
  requestIdHeader := none
  chunks := []
  chunks_ne := by simp

def sampleRuntime : List RuntimeAct :=
  [.onTurnStart true true, .enter 0, .enter 1, .acquire 1, .probed 1 (.failed "ConnectError") "r1",
    .acquire 0, .probed 0 (.answered sampleAnswer) "r2", .send 0 .contextPack, .shutdown, .enter 2,
    .close 2, .stop 2, .finish 0 false]

def sampleCredentialState : CredentialState where
  credentialSafe := some true
  closed := true
  workers := [⟨.fetch, .finished⟩, ⟨.flush, .finished⟩, ⟨.shutdown, .cleared⟩]
  log := [.probed (.error (.transport "r1" "ConnectError")), .probed (.ok sampleMe), .sent .contextPack]

theorem sampleRuntime_run :
    credentialRun authMeHost sampleAgent sampleRuntime = some sampleCredentialState := by
  rfl

theorem no_unvalidated_request_sample :
    credentialRun authMeHost sampleAgent sampleRuntime = some sampleCredentialState ∧
    ∃ r, .probed (.ok r) ∈ sampleCredentialState.log.take 2 ∧
      credentialFailures r.credential sampleAgent.requirement = [] :=
  ⟨rfl, (no_unvalidated_request sampleRuntime_run).1 (sampleCredentialState.log.take 2) .contextPack []
    rfl⟩

end SibylMemory
