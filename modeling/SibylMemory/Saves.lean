import SibylMemory.AtomicRuns
import SibylMemory.SavedConfiguration
import SibylMemory.EnvFile

/-!
# Saves side by side (`config.py:140-170`, `205-267`)

Several processes save under their homes at once. A key is put into the lines of the file as it was
read; what another process saved in between may be lost, but no file is ever a mixture.
-/

namespace SibylMemory.Saves
open FileSystem AtomicWrite AtomicWrite.Writers JsonText Text Trim

def configPath (home : String) : Path := ⟨home, "sibyl.json"⟩

def runtimeIdentityPath (home : String) : Path := ⟨home ++ "/state", "sibyl-runtime-identity.json"⟩

def envPath (home : String) : Path := ⟨home, ".env"⟩

/-- `json.dumps` of a mapping without mappings in it. -/
def dumpsFlat (start separator finish : String) (entries : JSONObject) : String :=
  let items := entries.map fun e => PyValue.renderString true e.1 ++ ": " ++ PyValue.render true e.2
  "\x7b" ++ start ++ joinWith separator items ++ finish ++ "\x7d"

/-- The text with `indent=2, sort_keys=True`. -/
def configText (c : ProviderConfig) : String :=
  dumpsFlat "\n  " ",\n  " "\n" (PyValue.sortEntries c.asdict) ++ "\n"

def agentIdText (agentId : String) : String :=
  dumpsFlat "" ", " "" [("agent_id", .str agentId)] ++ "\n"

def saveProviderConfig (home : String) (c : ProviderConfig) : FileTalk Unit :=
  atomicWrite (configPath home) (configText c)

def saveRuntimeAgentId (home agentId : String) : FileTalk Unit :=
  if agentId = "" ∨ (agentId.toList.splitOn ':').length ≠ 3 then .done (.error "ValueError")
  else atomicWrite (runtimeIdentityPath home) (agentIdText agentId)

def saveApiKey (home apiKey : String) : FileTalk Unit :=
  if apiKey = "" ∨ '\n' ∈ apiKey.toList ∨ '\r' ∈ apiKey.toList then .done (.error "ValueError")
  else (readExisting (envPath home)).bind fun existing =>
    match SibylMemory.saveApiKey apiKey existing with
    | .error _ => .done (.error "ValueError")
    | .ok text => atomicWrite (envPath home) text

inductive Save where
  | config (c : ProviderConfig)
  | identity (agentId : String)
  | key (apiKey : String)

def Save.path (home : String) : Save → Path
  | .config _ => configPath home
  | .identity _ => runtimeIdentityPath home
  | .key _ => envPath home

def Save.program (home : String) : Save → FileTalk Unit
  | .config c => saveProviderConfig home c
  | .identity agentId => saveRuntimeAgentId home agentId
  | .key apiKey => saveApiKey home apiKey

def otherLines (file : Option String) : List String := (fileLines file).filter fun line => !assignsKey line

/-- What the text must be: for a key, a file that holds it once, between the other lines of `env`. -/
def Save.Writes (env : Option String) : Save → String → Prop
  | .config c, text => text = configText c
  | .identity agentId, text => text = agentIdText agentId
  | .key apiKey, text => loadApiKey none (some text) = points (strip apiKey) ∧
    (fileLines (some text)).filter assignsKey = [apiKeyLine apiKey] ∧ otherLines (some text) = otherLines env

/-! ### The rule of a save -/

theorem key_lines {apiKey text : String} {file : Option String}
    (h : SibylMemory.saveApiKey apiKey file = .ok text) : (Save.key apiKey).Writes file text := by
  obtain ⟨hlines, -⟩ := saveApiKey_text h
  have hassigns := apiKeyLine_assigns apiKey
  have hsingle : (fileLines (some text)).filter assignsKey = [apiKeyLine apiKey] := by
    rw [hlines, replaceLines_key hassigns]
    rfl
  have hvalue : readEnvFile (some text) API_KEY_ENV = some (points apiKey) := by
    have hnamed : (fileLines (some text)).filter (namedBy API_KEY_ENV) = [apiKeyLine apiKey] := hsingle
    rw [readEnvFile, readEnvLines_named API_KEY_ENV _ _ (fun _ => none) rfl, hnamed, List.foldl_cons,
      List.foldl_nil, readEnvLine, apiKeyLine_entry]
    exact Function.update_self ..
  refine ⟨?_, hsingle, ?_⟩
  · have hunset : ¬ strip ((none : Option String).getD "") ≠ "" := by decide
    unfold loadApiKey
    dsimp only
    rw [if_neg hunset, hvalue, Option.getD_some, points, trim_points, points, strip_eq]
  · rw [otherLines, hlines, replaceLines_others hassigns, otherLines]

/-- A path that is saved to is no temporary file of another. -/
theorem path_apart (home home' : String) (save save' : Save) (random : String) :
    save.path home ≠ ⟨(save'.path home').parent, Path.temporaryStart (save'.path home') ++ random⟩ := by
  intro h
  have hname := congrArg (fun p : Path => p.name.toList.take 3) h
  cases save <;> cases save' <;> simp [Save.path, configPath, runtimeIdentityPath, envPath, Path.temporaryStart] at hname

theorem path_env {home home' : String} {save : Save} (h : save.path home = envPath home') :
    home = home' ∧ ∃ apiKey, save = .key apiKey := by
  have hname := congrArg Path.name h
  cases save with
  | key apiKey => exact ⟨congrArg Path.parent h, apiKey, rfl⟩
  | config c => exact absurd hname (by decide : ("sibyl.json" : String) ≠ ".env")
  | identity agentId => exact absurd hname (by decide : ("sibyl-runtime-identity.json" : String) ≠ ".env")

variable {ι : Type} {home : ι → String} {save : ι → Save} {s₀ s₁ s : Files ι} {faulty : Prop} {i : ι}

/-- The saves as writers; what a key's text keeps is what was there at the start. -/
def savers (home : ι → String) (save : ι → Save) (s₀ : Files ι) : Writers ι where
  target i := (save i).path (home i)
  texts i := (save i).Writes (s₀.read (envPath (home i)))
  apart i j random := path_apart (home i) (home j) (save i) (save j) random

theorem whole_lines {h : String} {file : Option String}
    (hfile : (savers home save s₀).Whole s₀ (envPath h) file) :
    otherLines file = otherLines (s₀.read (envPath h)) := by
  rcases hfile with rfl | ⟨j, text, htarget, htext, rfl⟩
  · rfl
  · obtain ⟨rfl, apiKey, hsave⟩ := path_env htarget
    change (save j).Writes _ text at htext
    rw [hsave] at htext
    exact htext.2.2

theorem saveApiKey_meets {apiKey : String} (hsave : save i = .key apiKey)
    (hs : (savers home save s₀).Reading i s₀ s) :
    (savers home save s₀).Meets faulty i ((savers home save s₀).Ended faulty i)
      (saveApiKey (home i) apiKey) s := by
  have htarget : (savers home save s₀).target i = envPath (home i) := congrArg (Save.path (home i)) hsave
  unfold saveApiKey
  split
  · exact hs.unmade.failed _
  · have hread := @readExisting_holds _ _ i i _ faulty _ hs
    rw [htarget] at hread
    refine hread.andThen rely_refl ?_
    rintro (e | existing) s₁ ⟨hs₁, hfile⟩
    · exact hs₁.unmade.failed e
    · dsimp only
      cases htext : SibylMemory.saveApiKey apiKey existing with
      | error e => exact hs₁.unmade.failed _
      | ok text =>
        obtain ⟨hloaded, hsingle, hlines⟩ := key_lines htext
        have hwrites : (savers home save s₀).texts i text := by
          change (save i).Writes _ text
          rw [hsave]
          exact ⟨hloaded, hsingle, hlines.trans (whole_lines (hfile existing rfl))⟩
        have hwrite : (savers home save s₀).Meets faulty i _ (atomicWrite _ text) _ :=
          atomicWrite_meets hwrites hs₁.unmade
        rwa [htarget] at hwrite

theorem save_meets (hs : (savers home save s₀).Reading i s₀ s) :
    (savers home save s₀).Meets faulty i ((savers home save s₀).Ended faulty i)
      ((save i).program (home i)) s := by
  cases hsave : save i with
  | config c =>
    have htext : (savers home save s₀).texts i (configText c) := by
      change (save i).Writes _ _
      rw [hsave]
      rfl
    have hwrite : (savers home save s₀).Meets faulty i _ (atomicWrite ((save i).path (home i)) _) s :=
      atomicWrite_meets htext hs.unmade
    rwa [hsave] at hwrite
  | identity agentId =>
    have htext : (savers home save s₀).texts i (agentIdText agentId) := by
      change (save i).Writes _ _
      rw [hsave]
      rfl
    have hwrite : (savers home save s₀).Meets faulty i _ (atomicWrite ((save i).path (home i)) _) s :=
      atomicWrite_meets htext hs.unmade
    rw [hsave] at hwrite
    change (savers home save s₀).Meets _ _ _ (saveRuntimeAgentId (home i) agentId) _
    unfold saveRuntimeAgentId
    split
    · exact hs.unmade.failed _
    · exact hwrite
  | key apiKey => exact saveApiKey_meets hsave hs

/-! ### Runs -/

/-- The files, and what the saves have done, wherever a run of them stands: `s₁` is an earlier state
of it, whose names a loss of power may bring back. -/
structure Consistent (home : ι → String) (save : ι → Save) (faulty : Prop) (s₀ s₁ : Files ι)
    (pool : ι → FileTalk Unit) (s : Files ι) : Prop where
  files : ∀ i, s.read ((save i).path (home i)) = s₀.read ((save i).path (home i)) ∨
    (savers home save s₀).Sealed s ((save i).path (home i))
  lines : ∀ i apiKey, save i = .key apiKey →
    otherLines (s.read (envPath (home i))) = otherLines (s₀.read (envPath (home i))) ∧
      ∀ name, name ≠ API_KEY_ENV →
        readEnvFile (s.read (envPath (home i))) name = readEnvFile (s₀.read (envPath (home i))) name
  others : ∀ p, (∀ i, p ≠ (save i).path (home i)) → (s₀.names p).isSome = true → s.read p = s₀.read p
  returned : ∀ i, pool i = .done (.ok ()) → (savers home save s₀).Sealed s ((save i).path (home i))
  tidy : ∀ i result, pool i = .done result → result = .ok () ∨ ¬faulty → (savers home save s₀).Tidy i s
  durable : ∀ i h, s₁.names ((save i).path (home i)) = some h → s.inodes h = s₁.inodes h

theorem based_read (hs : (savers home save s₀).Based s₀ s) (p : Path)
    (hp : (∃ i, p = (save i).path (home i)) ∨ (s₀.names p).isSome = true) :
    s.read p = s₀.read p ∨ (savers home save s₀).Sealed s p := by
  have hsame (hname : s.names p = s₀.names p) : s.read p = s₀.read p := by
    cases h₀ : s₀.names p with
    | none => rw [Files.read, Files.read, hname, h₀, Option.bind_none, Option.bind_none]
    | some h =>
      obtain ⟨n, hn⟩ := Option.isSome_iff_exists.mp (s₀.named p h h₀)
      rw [read_of_inode (hname.trans h₀) (hs.inodes h n hn), read_of_inode h₀ hn]
  by_cases htarget : ∃ i, p = (save i).path (home i)
  · obtain ⟨i, rfl⟩ := htarget
    exact (hs.targets i).imp_left hsame
  · obtain ⟨h, hh⟩ := Option.isSome_iff_exists.mp (hp.resolve_left htarget)
    exact .inl (hsame ((hs.others p h (fun i hi => htarget ⟨i, hi⟩) hh).trans hh.symm))

theorem env_lines {file file' : Option String} (h : otherLines file = otherLines file') {name : String}
    (hname : name ≠ API_KEY_ENV) : readEnvFile file name = readEnvFile file' name := by
  rw [otherLines, otherLines] at h
  rw [readEnvFile, readEnvLines_others hname, h, ← readEnvLines_others hname, readEnvFile]

theorem sealed_whole {p : Path} (h : s.read p = s₀.read p ∨ (savers home save s₀).Sealed s p) :
    (savers home save s₀).Whole s₀ p (s.read p) :=
  h.elim .inl Sealed.whole

variable [DecidableEq ι] {pool₁ pool : ι → FileTalk Unit}

theorem saves_consistent (hs₀ : Unwritten s₀)
    (hrun₁ : Dialogue.Reaches (Files.respond faulty) (fun i => (save i).program (home i), s₀) (pool₁, s₁))
    (hrun : Dialogue.Reaches (Files.respond faulty) (pool₁, s₁) (pool, s)) :
    Consistent home save faulty s₀ s₁ pool s := by
  have hpool : ∀ i, (savers home save s₀).Meets faulty i ((savers home save s₀).Ended faulty i)
      ((save i).program (home i)) s₀ := fun i => save_meets hs₀.reading
  obtain ⟨hsteps₁, hmeets₁⟩ := writers_steps hpool hrun₁
  obtain ⟨hsteps, hmeets⟩ := writers_steps hmeets₁ hrun
  have hbased₁ := based_run hs₀.based hsteps₁
  have hbased := based_run hbased₁ hsteps
  have hended {i : ι} {result : Except String Unit} (hdone : pool i = .done result) :
      (savers home save s₀).Ended faulty i result s :=
    (hmeets i).ended rely_refl hdone
  refine ⟨fun i => based_read hbased _ (.inl ⟨i, rfl⟩), fun i apiKey hsave => ?_,
    fun p hp hfirst => ?_, fun i hdone => (hended hdone).1 rfl, fun i result hdone => (hended hdone).2, ?_⟩
  · have henv : envPath (home i) = (save i).path (home i) := (congrArg (Save.path (home i)) hsave).symm
    have hlines := whole_lines (sealed_whole (based_read hbased (envPath (home i)) (.inl ⟨i, henv⟩)))
    exact ⟨hlines, fun name hname => env_lines hlines hname⟩
  · rcases based_read hbased p (.inr hfirst) with hread | ⟨k, i, text, -, -, htarget, -⟩
    · exact hread
    · exact absurd htarget.symm (hp i)
  · intro i h hname
    obtain ⟨n, hn, -, hlasting⟩ := hbased₁.inode (j := i) hname
    exact (lasting_run hlasting hn hbased₁ hsteps).trans hn.symm

/-- A key and a configuration are saved; the disk is full when the configuration is half written,
and its process dies. -/
theorem saves_consistent_sample : ∃ (s₁ : Files Bool) (pool : Bool → FileTalk Unit) (s : Files Bool),
    s.read ⟨"h", ".sibyl.json.x"⟩ = some "\x7b" ∧
      Consistent (fun _ => "h") (fun key => if key then .key "k" else .config {}) False
        ⟨fun _ => none, fun _ => none, [], nofun⟩ s₁ pool s := by
  let s₀ : Files Bool := ⟨fun _ => none, fun _ => none, [], nofun⟩
  let pool₀ : Bool → FileTalk Unit := fun key => Save.program "h" (if key then .key "k" else .config {})
  have hunwritten : Unwritten s₀ := ⟨rfl, nofun⟩
  let t : Path := ⟨"h", ".sibyl.json.x"⟩
  have hmade : Files.respond False false s₀ (.createTemporary "h" ".sibyl.json.") (.ok (t, 0))
      (s₀.create false t 0) := ⟨⟨"x", rfl⟩, rfl, nofun, rfl, rfl⟩
  have hstart : "\x7b".toList <+: (configText {}).toList := by
    simp only [configText, dumpsFlat, String.toList_append, List.append_assoc]
    exact List.prefix_append ..
  have hfull : Files.respond False false (s₀.create false t 0) (.write 0 (configText {})) (.error "OSError")
      ((s₀.create false t 0).modify 0 fun n => { n with content := n.content ++ "\x7b", synced := false }) :=
    ⟨"\x7b", hstart, rfl⟩
  have hbegin : Dialogue.Reaches (Files.respond False) (pool₀, s₀) _ :=
    .single (.call pool₀ s₀ false (.mkdir "h") _ (.ok ()) s₀ rfl rfl)
  have hconsistent := saves_consistent hunwritten hbegin (.tail (.single (.call _ s₀ false
    (.createTemporary "h" ".sibyl.json.") _ (.ok (t, 0)) _ (by rfl) hmade))
    (.call _ _ false (.write 0 (configText {})) _ (.error "OSError") _ (by rfl) hfull))
  exact ⟨_, _, _, by decide, hconsistent⟩

end SibylMemory.Saves
