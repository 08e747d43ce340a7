import SibylMemory.Setup
import SibylMemory.Saves

/-!
# Runs of setup (`config.py:298-390`)

The rule of each part of setup, alone with its files, and what a run has saved wherever it is stopped.
-/

namespace SibylMemory
namespace Setup
open JsonText Text Trim

variable {m : Installation} {s₀ s : SetupFiles} {α β : Type}

/-- A rule of a part of setup: each of its calls leaves the files in order. -/
structure Meets (m : Installation) (s₀ : SetupFiles) (post : Except PyException α → SetupFiles → Prop)
    (p : SetupTalk α) (s : SetupFiles) : Prop where
  holds : p.Holds respond Eq (fun _ s' => Progress m s₀ s') post s

theorem meets_done {post : Except PyException α → SetupFiles → Prop} {result : Except PyException α}
    (h : post result s) : Meets m s₀ post (.done result) s where
  holds := by
    rintro s' rfl
    exact h

theorem meets_call (c : SetupCall) {post : c.Reply → SetupFiles → Prop}
    (h : ∀ reply s', respond s c reply s' → Progress m s₀ s' ∧ post reply s') :
    Meets m s₀ post (call c) s where
  holds := by
    rintro s₁ rfl reply s₂ hreply
    obtain ⟨hprogress, hpost⟩ := h reply s₂ hreply
    exact ⟨hprogress, (meets_done hpost).holds⟩

theorem Meets.bind {post : Except PyException α → SetupFiles → Prop}
    {post' : Except PyException β → SetupFiles → Prop} {p : SetupTalk α} {f : α → SetupTalk β}
    (hp : Meets m s₀ post p s) (he : ∀ e s, post (.error e) s → post' (.error e) s)
    (hf : ∀ a s, post (.ok a) s → Meets m s₀ post' (f a) s) : Meets m s₀ post' (p >>= f) s where
  holds := hp.holds.andThen (fun _ => rfl) fun
    | .ok a, s, h => (hf a s h).holds
    | .error e, s, h => (meets_done (he e s h)).holds

theorem Meets.mono {post post' : Except PyException α → SetupFiles → Prop} {p : SetupTalk α}
    (hp : Meets m s₀ post p s) (h : ∀ result s, post result s → post' result s) : Meets m s₀ post' p s where
  holds := hp.holds.mono h

/-! ### Reading -/

/-- The files are as they were, and what is returned has the property. -/
inductive Quiet (s : SetupFiles) (P : α → Prop) : Except PyException α → SetupFiles → Prop where
  | ok (a : α) (h : P a) : Quiet s P (.ok a) s
  | error (e : PyException) : Quiet s P (.error e) s

theorem progress_refl (s : SetupFiles) : Progress m s s := .untouched rfl rfl rfl

theorem Meets.quiet {P : α → Prop} {post : Except PyException β → SetupFiles → Prop} {p : SetupTalk α}
    {f : α → SetupTalk β} (hp : Meets m s₀ (Quiet s P) p s) (he : ∀ e, post (.error e) s)
    (hf : ∀ a, P a → Meets m s₀ post (f a) s) : Meets m s₀ post (p >>= f) s := by
  refine hp.bind (fun e s' h => ?_) fun a s' h => ?_
  · cases h
    exact he e
  · cases h with
    | ok a h => exact hf a h

theorem quiet_call (c : SetupCall) {P : c.Value → Prop} (hprogress : Progress m s₀ s)
    (h : ∀ reply s', respond s c reply s' → s' = s ∧ ∀ v, reply = .ok v → P v) :
    Meets m s₀ (Quiet s P) (call c) s := by
  refine meets_call c fun reply s' hreply => ?_
  obtain ⟨rfl, hP⟩ := h reply s' hreply
  refine ⟨hprogress, ?_⟩
  cases reply with
  | ok v => exact .ok v (hP v rfl)
  | error e => exact .error e

theorem quiet_raised {P : α → Prop} {result : Except ConfigError α} (h : ∀ a, result = .ok a → P a) :
    Meets m s₀ (Quiet s P) (raised m result) s := by
  refine meets_done ?_
  cases result with
  | ok a => exact .ok a (h a rfl)
  | error e => exact .error _

theorem readConfig_quiet (hprogress : Progress m s₀ s) :
    Meets m s₀ (Quiet s fun file => file = s.sibylJson) (call .readConfig) s := by
  refine quiet_call .readConfig hprogress fun reply s' hreply => ?_
  cases reply with
  | error e => exact ⟨hreply, fun _ h => by cases h⟩
  | ok file => exact ⟨hreply.2, fun _ h => by cases h; exact hreply.1⟩

theorem readEnv_quiet (hprogress : Progress m s₀ s) :
    Meets m s₀ (Quiet s fun file => file = s.env) (call .readEnv) s := by
  refine quiet_call .readEnv hprogress fun reply s' hreply => ?_
  cases reply with
  | error e => exact ⟨hreply, fun _ h => by cases h⟩
  | ok file => exact ⟨hreply.2, fun _ h => by cases h; exact hreply.1⟩

theorem readIdentity_quiet (hprogress : Progress m s₀ s) :
    Meets m s₀ (Quiet s fun file => file = s.identity) (call .readIdentity) s := by
  refine quiet_call .readIdentity hprogress fun reply s' hreply => ?_
  cases reply with
  | error e => exact ⟨hreply, fun _ h => by cases h⟩
  | ok file => exact ⟨hreply.2, fun _ h => by cases h; exact hreply.1⟩

theorem secretPrompt_quiet (hprogress : Progress m s₀ s) (label : String) :
    Meets m s₀ (Quiet s fun _ => True) (call (.secretPrompt label)) s :=
  quiet_call _ hprogress fun _ _ h => ⟨h, fun _ _ => trivial⟩

theorem input_quiet (hprogress : Progress m s₀ s) (label : String) :
    Meets m s₀ (Quiet s fun _ => True) (call (.input label)) s :=
  quiet_call _ hprogress fun _ _ h => ⟨h, fun _ _ => trivial⟩

theorem prompt_quiet (hprogress : Progress m s₀ s) (label default : String) :
    Meets m s₀ (Quiet s fun _ => True) (prompt label default) s := by
  refine (input_quiet hprogress _).quiet .error fun value _ => ?_
  exact meets_done (.ok _ trivial)

theorem loadApiKey_environ {environ : Option String} (h : strip (environ.getD "") ≠ "")
    (file file' : Option String) : loadApiKey environ file = loadApiKey environ file' := by
  unfold loadApiKey
  dsimp only
  rw [if_pos h, if_pos h]

theorem loadKey_quiet (hprogress : Progress m s₀ s) :
    Meets m s₀ (Quiet s fun key => loadApiKey m.environ s.env = key) (loadKey m) s := by
  unfold loadKey
  split
  · rename_i henviron
    exact meets_done (.ok _ (loadApiKey_environ henviron _ _))
  · refine (readEnv_quiet hprogress).quiet .error fun file hfile => ?_
    rw [hfile]
    exact meets_done (.ok _ rfl)

theorem ask_quiet : Meets m s (Quiet s fun e => Entered m s e) (ask m) s := by
  have hprogress : Progress m s s := progress_refl s
  unfold ask
  refine (readConfig_quiet hprogress).quiet .error fun file hfile => ?_
  rw [hfile]
  refine (quiet_raised fun _ => id).quiet .error fun existing hexisting => ?_
  refine (loadKey_quiet hprogress).quiet .error fun existingKey hkey => ?_
  refine (secretPrompt_quiet hprogress _).quiet .error fun entered _ => ?_
  refine (prompt_quiet hprogress _ _).quiet .error fun baseUrl _ => ?_
  refine (prompt_quiet hprogress _ _).quiet .error fun projectId _ => ?_
  refine (prompt_quiet hprogress _ _).quiet .error fun memorySpaceId _ => ?_
  exact meets_done (.ok _ ⟨hexisting, hkey, strip_strip entered⟩)

theorem activeProfile_quiet (hprogress : Progress m s₀ s) :
    Meets m s₀ (Quiet s fun _ => True) (call .activeProfile) s :=
  quiet_call _ hprogress fun _ _ h => ⟨h, fun _ _ => trivial⟩

theorem agentId_quiet (hprogress : Progress m s₀ s) :
    Meets m s₀ (Quiet s fun agentId => Identifies m s agentId) (agentId m) s := by
  unfold agentId
  refine (readIdentity_quiet hprogress).quiet .error fun file hfile => ?_
  rw [hfile]
  refine (quiet_raised fun _ => id).quiet .error fun stored hstored => ?_
  cases stored with
  | some agentId => exact meets_done (.ok _ (.inl hstored))
  | none =>
    refine (activeProfile_quiet hprogress).quiet .error fun answer _ => ?_
    dsimp only
    split
    · exact meets_done (.error _)
    · rename_i hprofile
      rw [not_or] at hprofile
      exact meets_done (.ok _ (.inr ⟨hstored, strip answer, hprofile.1, hprofile.2, rfl⟩))

theorem checked_ok {e : Entries} {c : ProviderConfig} (h : checked m e = .ok c) :
    e.apiKey ≠ [] ∧ ProviderConfig.fromMapping m.host m.py e.values = .ok c ∧ c.isComplete = true := by
  unfold checked at h
  split at h
  · cases h
  · rename_i hkey
    cases hmapping : ProviderConfig.fromMapping m.host m.py e.values with
    | error err =>
      rw [hmapping] at h
      cases h
    | ok config =>
      rw [hmapping] at h
      dsimp only at h
      split at h
      · rename_i hcomplete
        cases h
        exact ⟨hkey, rfl, hcomplete⟩
      · cases h

/-! ### Trying and saving -/

/-- Nothing is saved yet, and the entries may be. -/
structure Ready (m : Installation) (s₀ s : SetupFiles) (e : Entries) (c : ProviderConfig) : Prop where
  approved : Approved m s₀ s e c
  config : s.sibylJson = s₀.sibylJson
  env : s.env = s₀.env
  hermes : s.hermes = s₀.hermes

theorem validate_meets {e : Entries} {c : ProviderConfig} {agentId : String} (he : Entered m s e)
    (hc : checked m e = .ok c) (hagent : Identifies m s agentId) :
    Meets m s (fun result s' => result = .ok () → Ready m s s' e c)
      (validateSetupCredential c e.apiKey agentId) s := by
  obtain ⟨hkey, haccepted, hcomplete⟩ := checked_ok hc
  have hcall : Meets m s (fun reply s' => ∀ response, reply = .ok response →
      s' = { s with answered := (c.baseUrl, e.apiKey, response) :: s.answered })
      (call (.authMe c.baseUrl e.apiKey)) s := by
    refine meets_call (.authMe c.baseUrl e.apiKey) fun reply s' hreply => ?_
    cases reply with
    | error err =>
      obtain rfl : s' = s := hreply
      exact ⟨progress_refl _, fun _ h => by cases h⟩
    | ok response =>
      obtain rfl : s' = { s with answered := (c.baseUrl, e.apiKey, response) :: s.answered } := hreply
      exact ⟨.untouched rfl rfl rfl, fun _ h => by cases h; rfl⟩
  refine hcall.bind (fun _ _ _ h => by cases h) fun response s' hs' => ?_
  rw [hs' response rfl]
  split
  · rename_i hsafe
    have happroved : Approved m s { s with answered := (c.baseUrl, e.apiKey, response) :: s.answered } e c :=
      ⟨he, haccepted, hcomplete, hkey, agentId, response, hagent, .head _, hsafe⟩
    exact meets_done fun _ => ⟨happroved, rfl, rfl, rfl⟩
  · exact meets_done fun h => by cases h

theorem Approved.answered {e : Entries} {c : ProviderConfig} (h : Approved m s₀ s e c) {s' : SetupFiles}
    (hs : s'.answered = s.answered) : Approved m s₀ s' e c where
  entered := h.entered
  accepted := h.accepted
  complete := h.complete
  hasKey := h.hasKey
  safe := by
    rw [hs]
    exact h.safe

theorem apiKey_entered {e : Entries} (h : e.apiKey ≠ e.existingKey) : e.apiKey = points e.entered := by
  unfold Entries.apiKey at h ⊢
  split
  · rename_i hblank
    rw [if_pos hblank] at h
    exact absurd rfl h
  · rfl

/-- Where setup stands behind the configuration, and behind the key. -/
structure Configured (m : Installation) (s₀ s : SetupFiles) (e : Entries) (c : ProviderConfig) (keyed : Prop) :
    Prop where
  approved : Approved m s₀ s e c
  config : s.sibylJson = some (saveProviderConfig c)
  hermes : s.hermes = s₀.hermes
  key : keyed

theorem saveConfig_meets {e : Entries} {c : ProviderConfig} (hs : Ready m s₀ s e c) :
    Meets m s₀ (fun result s' => result = .ok () → Configured m s₀ s' e c (s'.env = s₀.env))
      (call (.saveConfig c)) s := by
  refine meets_call (.saveConfig c) fun reply s' hreply => ?_
  rcases hreply with rfl | ⟨hfailed, rfl⟩
  · have happroved : Approved m s₀ { s with sibylJson := some (saveProviderConfig c) } e c :=
      hs.approved.answered rfl
    exact ⟨.configured e c happroved rfl hs.env hs.hermes, fun _ => ⟨happroved, rfl, hs.hermes, hs.env⟩⟩
  · exact ⟨.untouched hs.config hs.env hs.hermes, fun hok => absurd hok hfailed⟩

theorem saveNewKey_meets {e : Entries} {c : ProviderConfig}
    (hs : Configured m s₀ s e c (s.env = s₀.env)) :
    Meets m s₀ (fun result s' => result = .ok () → Configured m s₀ s' e c (KeySettled s₀ s' e))
      (saveNewKey e) s := by
  have hconfigured : Progress m s₀ s := .configured e c hs.approved hs.config hs.key hs.hermes
  unfold saveNewKey
  by_cases hnew : e.apiKey ≠ e.existingKey
  · rw [if_pos hnew]
    refine meets_call (.saveKey e.entered) fun reply s' hreply => ?_
    cases htext : saveApiKey e.entered s.env with
    | error message =>
      simp only [respond, htext] at hreply
      obtain ⟨hfailed, rfl⟩ := hreply
      exact ⟨hconfigured, fun hok => absurd hok hfailed⟩
    | ok text =>
      simp only [respond, htext] at hreply
      rcases hreply with rfl | ⟨hfailed, rfl⟩
      · have hkey : KeySettled s₀ { s with env := some text } e := by
          rw [hs.key] at htext
          exact .inr ⟨hnew, text, htext, rfl⟩
        have happroved : Approved m s₀ { s with env := some text } e c := hs.approved.answered rfl
        exact ⟨.keyed e c happroved hs.config hkey hs.hermes,
          fun _ => ⟨happroved, hs.config, hs.hermes, hkey⟩⟩
      · exact ⟨hconfigured, fun hok => absurd hok hfailed⟩
  · rw [if_neg hnew]
    exact meets_done fun _ =>
      ⟨hs.approved, hs.config, hs.hermes, .inl ⟨not_not.mp hnew, hs.key⟩⟩

theorem saveHermes_meets {e : Entries} {c : ProviderConfig}
    (hs : Configured m s₀ s e c (KeySettled s₀ s e)) :
    Meets m s₀ (fun result s' => result = .ok () → Completed m s₀ s' e c)
      (call (.saveHermes (activated m.hermesConfig))) s := by
  refine meets_call (.saveHermes (activated m.hermesConfig)) fun reply s' hreply => ?_
  rcases hreply with rfl | ⟨hfailed, rfl⟩
  · have hcompleted : Completed m s₀ { s with hermes := some (activated m.hermesConfig) } e c :=
      ⟨hs.approved.answered rfl, hs.config, hs.key, rfl⟩
    exact ⟨.completed e c hcompleted, fun _ => hcompleted⟩
  · exact ⟨.keyed e c hs.approved hs.config hs.key hs.hermes, fun hok => absurd hok hfailed⟩

theorem save_meets {e : Entries} {c : ProviderConfig} (hs : Ready m s₀ s e c) :
    Meets m s₀ (fun result s' => result = .ok () → Completed m s₀ s' e c) (save m e c) s := by
  unfold save
  refine (saveConfig_meets hs).bind (fun _ _ _ h => by cases h) fun _ s₁ h₁ => ?_
  refine (saveNewKey_meets (h₁ rfl)).bind (fun _ _ _ h => by cases h) fun _ s₂ h₂ => ?_
  exact saveHermes_meets (h₂ rfl)

theorem runSetup_meets :
    Meets m s (fun result s' => result = .ok () → ∃ e c, Completed m s s' e c) (runSetup m) s := by
  unfold runSetup
  refine ask_quiet.quiet (fun _ h => by cases h) fun e he => ?_
  have hchecked : Meets m s (Quiet s fun c => checked m e = .ok c) (Dialogue.done (checked m e)) s := by
    refine meets_done ?_
    cases hc : checked m e with
    | ok c => exact .ok c rfl
    | error err => exact .error err
  refine hchecked.quiet (fun _ h => by cases h) fun c hc => ?_
  refine (agentId_quiet (progress_refl s)).quiet (fun _ h => by cases h) fun agentId hagent => ?_
  refine (validate_meets he hc hagent).bind (fun _ _ _ h => by cases h) fun _ s₁ h₁ => ?_
  exact (save_meets (h₁ rfl)).mono fun result s' h hok => ⟨e, c, h hok⟩

/-! ### What a completed setup means -/

theorem values_entry (e : Entries) {key : String} (hurl : key ≠ "base_url") (hproject : key ≠ "project_id")
    (hspace : key ≠ "memory_space_id") (default : PyValue) :
    entry e.values key default = entry e.existing.asdict key default := by
  unfold entry Entries.values
  rw [PyValue.lookup_assign, if_neg hspace, PyValue.lookup_assign, if_neg hproject, PyValue.lookup_assign,
    if_neg hurl]

theorem asInt_int {py : Interpreter} {n k : Int} {field : String} {minimum maximum : Int}
    (h : asInt py (.int n) field minimum maximum = .ok k) : k = n := by
  unfold asInt at h
  simp only [py.int_int] at h
  split at h
  · exact (Except.ok.inj h).symm
  · cases h

/-- Setup changes the three settings that it asks for. -/
theorem Approved.kept {e : Entries} {c : ProviderConfig} (h : Approved m s₀ s e c) :
    c = { e.existing with baseUrl := c.baseUrl, projectId := c.projectId, memorySpaceId := c.memorySpaceId } := by
  have ha := fromMapping_ok_iff.mp h.accepted
  have hinsecure := ha.insecure
  have hbudget := ha.budget
  have hlimit := ha.limit
  have hrelated := ha.related
  have hcapture := ha.capture
  have htools := ha.tools
  rw [values_entry e (by decide) (by decide) (by decide)] at hinsecure hbudget hlimit hrelated hcapture htools
  obtain ⟨baseUrl, projectId, memorySpaceId, budget, limit, related, capture, tools, insecure⟩ := c
  cases asInt_int hbudget
  cases asInt_int hlimit
  cases asInt_int hrelated
  cases hinsecure
  cases hcapture
  cases htools
  rfl

theorem loadApiKey_blank {environ : Option String} (h : strip (environ.getD "") = "") (file : Option String) :
    loadApiKey environ file = loadApiKey none file := by
  have hnone : ¬ strip ((none : Option String).getD "") ≠ "" := by decide
  unfold loadApiKey
  dsimp only
  rw [if_neg (not_not.mpr h), if_neg hnone]

/-- A key in the environment hides the one that was entered and saved. -/
theorem Completed.loads {e : Entries} {c : ProviderConfig} (h : Completed m s₀ s e c) :
    loadApiKey m.environ s.env = e.apiKey ↔ strip (m.environ.getD "") = "" ∨ e.apiKey = e.existingKey := by
  have hexisting := h.approved.entered.existingKey
  rcases h.key with ⟨hsame, henv⟩ | ⟨hnew, text, htext, henv⟩
  · rw [henv, hexisting, hsame]
    exact iff_of_true rfl (.inr rfl)
  · by_cases hblank : strip (m.environ.getD "") = ""
    · obtain ⟨hloaded, -⟩ := Saves.key_lines htext
      rw [loadApiKey_blank hblank, henv, hloaded, h.approved.entered.stripped, apiKey_entered hnew]
      exact iff_of_true rfl (.inl hblank)
    · rw [loadApiKey_environ hblank s.env s₀.env, hexisting]
      exact iff_of_false (fun he => hnew he.symm) (not_or.mpr ⟨hblank, hnew⟩)

theorem KeySettled.others {e : Entries} (h : KeySettled s₀ s e) {name : String} (hname : name ≠ API_KEY_ENV) :
    readEnvFile s.env name = readEnvFile s₀.env name := by
  rcases h with ⟨-, henv⟩ | ⟨-, text, htext, henv⟩
  · rw [henv]
  · rw [henv]
    exact Saves.env_lines (Saves.key_lines htext).2.2 hname

/-- The configuration of Hermes with the provider chosen in it. -/
structure Chosen (before after : JSONObject) : Prop where
  provider : ∃ memory, PyValue.lookup "memory" after = some (.dict memory) ∧
    PyValue.lookup "provider" memory = some (.str "sibyl") ∧
    ∀ old, PyValue.lookup "memory" before = some (.dict old) → ∀ key, key ≠ "provider" →
      PyValue.lookup key memory = PyValue.lookup key old
  others : ∀ key, key ≠ "memory" → PyValue.lookup key after = PyValue.lookup key before

theorem activated_chosen (config : JSONObject) : Chosen config (activated config) where
  provider := by
    have hmemory : PyValue.lookup "memory" (activated config) =
        some (.dict (PyValue.assign "provider" (.str "sibyl") (memorySection config))) := by
      rw [activated, PyValue.lookup_assign, if_pos rfl]
    refine ⟨_, hmemory, ?_, fun old hold key hkey => ?_⟩
    · rw [PyValue.lookup_assign, if_pos rfl]
    · rw [PyValue.lookup_assign, if_neg hkey, memorySection, hold]
  others key hkey := by rw [activated, PyValue.lookup_assign, if_neg hkey]

/-- Wherever setup is stopped, whatever fails before, it has saved nothing, or a configuration and a
key that Sibyl vouched for, in order. When it returns, only what was asked for has changed, and the
key is the one that is loaded unless the environment has another. -/
theorem setup_saves {pool : Unit → SetupTalk Unit}
    (hrun : Dialogue.Reaches (fun _ : Unit => respond) (fun _ => runSetup m, s₀) (pool, s)) :
    Progress m s₀ s ∧ (pool () = .done (.ok ()) → ∃ e c config, Completed m s₀ s e c ∧
      c = { e.existing with
        baseUrl := c.baseUrl, projectId := c.projectId, memorySpaceId := c.memorySpaceId } ∧
      (loadApiKey m.environ s.env = e.apiKey ↔ strip (m.environ.getD "") = "" ∨ e.apiKey = e.existingKey) ∧
      (∀ name, name ≠ API_KEY_ENV → readEnvFile s.env name = readEnvFile s₀.env name) ∧
      s.hermes = some config ∧ Chosen m.hermesConfig config) := by
  obtain ⟨hsteps, hholds⟩ := Dialogue.reaches_holds (fun _ _ => rfl) (fun _ _ _ _ => Eq.trans)
    (fun i j _ _ hij _ => absurd (Subsingleton.elim i j) hij) hrun
    fun _ => (runSetup_meets (m := m) (s := s₀)).holds
  refine ⟨?_, fun hdone => ?_⟩
  · rcases Relation.ReflTransGen.cases_tail hsteps with heq | ⟨_, -, _, hprogress⟩
    · obtain rfl : s = s₀ := heq
      exact progress_refl s
    · exact hprogress
  · obtain ⟨e, c, hcompleted⟩ := (hholds ()).ended (fun _ => rfl) hdone rfl
    exact ⟨e, c, _, hcompleted, hcompleted.approved.kept, hcompleted.loads,
      fun _ hname => hcompleted.key.others hname, hcompleted.hermes, activated_chosen _⟩

/-! ### A setup -/

def sampleInstallation : Installation where
  host := Host.plain
  py := sampleInterpreter
  bases _ := []
  environ := none
  home := "h"
  hermesConfig := [("memory", .dict [("window", .int 3)]), ("model", .str "m")]

def sampleFiles : SetupFiles := ⟨none, some "A=1\nSIBYL_API_KEY=old\n", none, none, []⟩

/-- Everything is entered and goes well. -/
def sampleAnswer (s : SetupFiles) : (c : SetupCall) → c.Reply × SetupFiles
  | .readConfig => (.ok s.sibylJson, s)
  | .readEnv => (.ok s.env, s)
  | .readIdentity => (.ok s.identity, s)
  | .secretPrompt _ => (.ok "new ", s)
  | .input label => (.ok (if label = "  Sibyl project ID: " then "project_p"
      else if label = "  Sibyl memory-space ID: " then "space" else ""), s)
  | .activeProfile => (.ok "default", s)
  | .authMe baseUrl apiKey =>
    let response : AuthMeResponse := ⟨{
      type := "api_key", scopes := ["api:write"], projectIds := ["project_p"], memorySpaceIds := ["space"],
      agentId := some "hermes:hermes:default", capabilityProfile := some "memory_provider" }, [], none, none⟩
    (.ok response, { s with answered := (baseUrl, apiKey, response) :: s.answered })
  | .saveConfig c => (.ok (), { s with sibylJson := some (saveProviderConfig c) })
  | .saveKey apiKey =>
    match saveApiKey apiKey s.env with
    | .error _ => (.error valueError, s)
    | .ok text => (.ok (), { s with env := some text })
  | .saveHermes config => (.ok (), { s with hermes := some config })

theorem sampleAnswer_responds (s : SetupFiles) (c : SetupCall) :
    respond s c (sampleAnswer s c).1 (sampleAnswer s c).2 := by
  cases c with
  | readConfig => exact ⟨rfl, rfl⟩
  | readEnv => exact ⟨rfl, rfl⟩
  | readIdentity => exact ⟨rfl, rfl⟩
  | secretPrompt label => rfl
  | input label => rfl
  | activeProfile => rfl
  | authMe baseUrl apiKey => rfl
  | saveConfig c => exact .inl rfl
  | saveHermes config => exact .inl rfl
  | saveKey apiKey =>
    unfold sampleAnswer respond
    dsimp only
    cases saveApiKey apiKey s.env with
    | error message => exact ⟨by simp, rfl⟩
    | ok text => exact .inl rfl

theorem setup_saves_sample :
    ∃ s e c, Completed sampleInstallation sampleFiles s e c ∧ loadApiKey none s.env = points "new" := by
  have hreaches : Dialogue.Reaches (fun _ : Unit => respond)
      (fun _ => runSetup sampleInstallation, sampleFiles) (_, _) :=
    Dialogue.reaches_run () (fun s c => sampleAnswer_responds s c) rfl sampleFiles
  obtain ⟨-, hcompleted⟩ := setup_saves hreaches
  obtain ⟨e, c, -, hcompleted, -⟩ := hcompleted (Function.update_self ..)
  exact ⟨_, e, c, hcompleted, rfl⟩

end Setup
end SibylMemory
