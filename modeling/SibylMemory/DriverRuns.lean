import SibylMemory.StackDriver

/-!
# What a driver asks and what it writes

A driver asks the same four questions in every scenario. Only the scenario without missing hooks goes
on, with seven probes, and only its receipt can claim a pass.
-/

namespace SibylMemory.StackDriver
open ReleaseGates Schema

/-! ### Admission -/

/-- A process goes on with a request, both secrets, and its own consent if it mutates. -/
theorem accept_ok {p : DriverProcess} {scenario : String} {r : DriverRequest} :
    p.accept scenario = .ok r ↔ ∃ payload, p.stdin = .ok payload ∧
      DriverRequest.parse payload scenario = .ok r ∧ environText p.environ API_KEY_VARIABLE ≠ "" ∧
      environText p.environ SESSION_TOKEN_ENV ≠ "" ∧
      (r.mutatesStack = true → environText p.environ MUTATION_ENV = r.scenario) := by
  unfold DriverProcess.accept
  cases p.stdin with
  | error e => cases e <;> simp
  | ok payload =>
    simp only [Except.ok.injEq, exists_eq_left']
    cases DriverRequest.parse payload scenario with
    | error e => simp
    | ok r' =>
      simp only [Except.ok.injEq]
      by_cases hkey : environText p.environ API_KEY_VARIABLE = ""
      · simp [hkey]
      by_cases htoken : environText p.environ SESSION_TOKEN_ENV = ""
      · simp [hkey, htoken]
      by_cases hconsent : r'.mutatesStack = true ∧ environText p.environ MUTATION_ENV ≠ r'.scenario
      · rw [if_neg hkey, if_neg htoken, if_pos hconsent]
        refine iff_of_false nofun ?_
        rintro ⟨rfl, -, -, h⟩
        exact hconsent.2 (h hconsent.1)
      · rw [if_neg hkey, if_neg htoken, if_neg hconsent, Except.ok.injEq]
        refine (and_iff_left_of_imp ?_).symm
        rintro rfl
        exact ⟨hkey, htoken, fun hmutates => by_contra fun hne => hconsent ⟨hmutates, hne⟩⟩

/-! ### Calls -/

def preamble (r : DriverRequest) : List DriverCall :=
  [.hermes "GET" HERMES_STATUS_PATH [("profile", r.profile)], .hermes "GET" HERMES_MEMORY_PATH [],
    .rpc "config.get" [("key", .str "profile")], .sibyl "GET" SIBYL_AUTH_PATH none]

/-- The calls of a request: the probes only in a scenario that misses no hook. -/
def DriverRequest.Calls (r : DriverRequest) (c : DriverCall) : Prop :=
  c ∈ preamble r ∨ MISSING_HOOKS.lookup r.scenario = some [] ∧ ∃ p ∈ PROBES, c = p.call

section Asking
variable (h : DriverHost) (r : DriverRequest)

theorem probeStatuses_asks (probes : List Probe) :
    (probeStatuses probes).Asks fun c => ∃ p ∈ probes, c = p.call := by
  induction probes with
  | nil => trivial
  | cons p probes ih =>
    refine ⟨⟨p, .head _, rfl⟩, fun reply => ?_⟩
    dsimp only
    cases requestStatus (p.method ++ " " ++ p.path) reply with
    | error e => trivial
    | ok status =>
      have hrest := ih.mono fun c ⟨q, hq, hc⟩ => (⟨q, .tail _ hq, hc⟩ : ∃ q ∈ p :: probes, c = q.call)
      exact hrest.bind fun statuses => Dialogue.asks_pure _ _

theorem finishRun_asks (auth : JSONObject) : (finishRun r auth).Asks r.Calls := by
  unfold finishRun
  cases hhooks : MISSING_HOOKS.lookup r.scenario with
  | none => trivial
  | some hooks =>
    cases hooks with
    | cons hook hooks => trivial
    | nil =>
      refine ((probeStatuses_asks PROBES).mono fun c hc => .inr ⟨hhooks, hc⟩).bind fun statuses => ?_
      dsimp only
      split <;> trivial

theorem run_asks : (run h r).Asks r.Calls := by
  refine Dialogue.Asks.bind ⟨.inl (by simp [preamble]), fun _ => trivial⟩ fun status => ?_
  split
  · trivial
  refine Dialogue.Asks.bind ⟨.inl (by simp [preamble]), fun _ => trivial⟩ fun memory => ?_
  split
  · trivial
  refine Dialogue.Asks.bind ⟨.inl (by simp [preamble]), fun _ => trivial⟩ fun _ => ?_
  exact Dialogue.Asks.bind ⟨.inl (by simp [preamble]), fun _ => trivial⟩ fun auth =>
    finishRun_asks r auth

/-- A process asks only what its request allows, and nothing when that is refused. -/
theorem main_asks (p : DriverProcess) : (main h p).Asks fun c =>
    ∃ scenario r, p.arguments = [scenario] ∧ p.accept scenario = .ok r ∧ r.Calls c := by
  unfold main
  split
  · rename_i scenario harguments
    cases haccept : p.accept scenario with
    | error e => trivial
    | ok r =>
      dsimp only
      cases h.connect r.hermesUrl r.sibylUrl with
      | error className => trivial
      | ok u =>
        refine Dialogue.Asks.andThen ((run_asks h r).mono fun c hc => ?_) fun result => trivial
        exact ⟨scenario, r, harguments, haccept, hc⟩
  · trivial

end Asking

/-! ### Receipts -/

abbrev Transcript : Type := List (Dialogue.Exchanged DriverCall.Reply)

def Probe.replied (p : Probe) (reply : HttpReply) : Dialogue.Exchanged DriverCall.Reply := ⟨p.call, reply⟩

/-- The probe was answered with the status. -/
def Probe.Reported (p : Probe) (log : Transcript) (status : Nat) : Prop :=
  ∃ response : StackResponse, response.status = status ∧ p.replied (.answered response) ∈ log

def authReplied (reply : HttpReply) : Dialogue.Exchanged DriverCall.Reply :=
  ⟨.sibyl "GET" SIBYL_AUTH_PATH none, reply⟩

/-- The receipt reports what the transcript holds: the credential as Sibyl sees it, and the status of
each probe. -/
def Confined (h : DriverHost) (r : DriverRequest) (log : Transcript) (out : JSONObject) : Prop :=
  MISSING_HOOKS.lookup r.scenario = some [] ∧ ∃ reply auth statuses,
    authReplied reply ∈ log ∧ requestJson h ("GET" ++ " " ++ SIBYL_AUTH_PATH) reply = .ok auth ∧
    List.Forall₂ (fun p s => s.1 = p.name ∧ Probe.Reported p log s.2) PROBES statuses ∧
    out = confinementReceipt r (confinementChecks (profileEnforced auth) statuses) statuses ∧
    ∀ name, name ∈ r.requiredChecks ↔
      name ∈ (confinementChecks (profileEnforced auth) statuses).map Prod.fst

section Reporting
variable (h : DriverHost) (r : DriverRequest) (log : Transcript)

theorem Probe.Reported.mono {p : Probe} {log log' : Transcript} {status : Nat} (hlog : log <+: log')
    (hp : p.Reported log status) : p.Reported log' status :=
  ⟨hp.choose, hp.choose_spec.1, hlog.subset hp.choose_spec.2⟩

theorem requestStatus_ok {label : String} {reply : HttpReply} {status : Nat}
    (hok : requestStatus label reply = .ok status) :
    ∃ response : StackResponse, reply = .answered response ∧ response.status = status := by
  unfold requestStatus streamed at hok
  cases reply with
  | failed fault => cases hok
  | answered response =>
    refine ⟨response, rfl, ?_⟩
    dsimp only at hok
    split at hok
    · cases hok
    · split at hok <;> cases hok
      rfl

theorem probeStatuses_ends (probes : List Probe) (log : Transcript) :
    (probeStatuses probes).Ends (fun result log' => ∀ statuses, result = .ok statuses →
      List.Forall₂ (fun p s => s.1 = p.name ∧ Probe.Reported p log' s.2) probes statuses) log := by
  induction probes generalizing log with
  | nil => exact fun statuses hs => by cases hs; exact .nil
  | cons p probes ih =>
    intro reply
    dsimp only
    cases hstatus : requestStatus (p.method ++ " " ++ p.path) reply with
    | error e => exact fun statuses hs => nomatch hs
    | ok status =>
      obtain ⟨response, rfl, hresponse⟩ := requestStatus_ok hstatus
      refine Dialogue.Ends.bind ((ih _).and (Dialogue.ends_extends _ _)) (fun statuses log' hpost => ?_)
        (fun e log' _ statuses hs => nomatch hs)
      rw [Dialogue.ends_pure]
      rintro _ ⟨⟩
      refine .cons ⟨rfl, response, hresponse, hpost.2.subset ?_⟩ (hpost.1 statuses rfl)
      exact List.mem_append_right _ (.head _)

theorem run_ends : (run h r).Ends (fun result log' => ∀ out, result = .ok out →
    Confined h r log' out) log := by
  have hask {α : Type} (p : Talk α) (log : Transcript) : p.Ends (fun _ _ => True) log :=
    (Dialogue.ends_extends p log).mono fun _ _ _ => trivial
  refine Dialogue.Ends.bind (hask _ _) (fun status log _ => ?_) (fun e log _ => nofun)
  split
  · exact nofun
  refine Dialogue.Ends.bind (hask _ _) (fun memory log _ => ?_) (fun e log _ => nofun)
  split
  · exact nofun
  refine Dialogue.Ends.bind (hask _ _) (fun _ log _ => ?_) (fun e log _ => nofun)
  have hlast (log : Transcript) : (askSibyl h "GET" SIBYL_AUTH_PATH).Ends (fun result log' =>
      ∀ auth, result = .ok auth → ∃ reply, authReplied reply ∈ log' ∧
        requestJson h ("GET" ++ " " ++ SIBYL_AUTH_PATH) reply = .ok auth) log :=
    fun reply auth hauth => ⟨reply, List.mem_append_right _ (.head _), hauth⟩
  refine (hlast log).bind (fun auth log hauth => ?_) (fun e log _ => nofun)
  obtain ⟨reply, hreply, hjson⟩ := hauth auth rfl
  unfold finishRun
  cases hhooks : MISSING_HOOKS.lookup r.scenario with
  | none => exact nofun
  | some hooks =>
    cases hooks with
    | cons hook hooks => exact nofun
    | nil =>
      refine Dialogue.Ends.bind ((probeStatuses_ends PROBES log).and (Dialogue.ends_extends _ log))
        (fun statuses log' hpost => ?_) (fun e log _ => nofun)
      dsimp only
      split
      · rename_i hnames
        rw [Bool.and_eq_true, List.all_eq_true, List.all_eq_true] at hnames
        simp only [decide_eq_true_eq] at hnames
        rintro out ⟨⟩
        refine ⟨hhooks, reply, auth, statuses, hpost.2.subset hreply, hjson, hpost.1 statuses rfl, rfl,
          fun name => ⟨hnames.2 name, fun hname => ?_⟩⟩
        obtain ⟨check, hcheck, rfl⟩ := List.mem_map.mp hname
        exact hnames.1 check hcheck
      · exact nofun

/-- A process writes a receipt of one of the two kinds, or ends with status 1 or 2. -/
def DriverExit.Sound (h : DriverHost) (p : DriverProcess) (log : Transcript) (exit : DriverExit) : Prop :=
  exit.status = 1 ∨ exit.status = 2 ∨ exit.status = 0 ∧ ∃ scenario r out, p.arguments = [scenario] ∧
    p.accept scenario = .ok r ∧ exit.stdout = written out ∧
    (Confined h r log out ∨ ∃ hooks, out = blockedReceipt r hooks)

theorem exit_status (e : DriverError) : (e.exit h).status = 1 ∨ (e.exit h).status = 2 := by
  cases e with
  | failed message => exact .inr rfl
  | missingHook scenario hooks => exact .inr rfl
  | other className => exact .inl rfl

theorem main_ends (p : DriverProcess) : (main h p).Ends (fun result log' =>
    ∃ exit : DriverExit, result = .ok exit ∧ exit.Sound h p log') log := by
  unfold main
  split
  · rename_i scenario harguments
    cases haccept : p.accept scenario with
    | error e => exact ⟨_, rfl, (exit_status h e).imp_right .inl⟩
    | ok r =>
      dsimp only
      cases h.connect r.hermesUrl r.sibylUrl with
      | error className => exact ⟨_, rfl, .inl rfl⟩
      | ok u =>
        refine Dialogue.Ends.andThen (run_ends h r log) fun result log' hresult => ?_
        refine Dialogue.ends_pure.mpr ⟨_, rfl, ?_⟩
        cases result with
        | ok out =>
          exact .inr (.inr ⟨rfl, scenario, r, out, harguments, haccept, rfl, .inl (hresult out rfl)⟩)
        | error e =>
          cases e with
          | failed message => exact .inr (.inl rfl)
          | missingHook slug hooks =>
            exact .inr (.inr ⟨rfl, scenario, r, _, harguments, haccept, rfl, .inr ⟨hooks, rfl⟩⟩)
          | other className => exact .inl rfl
  · exact ⟨_, rfl, .inr (.inl rfl)⟩

end Reporting

end SibylMemory.StackDriver
