import SibylMemory.Library.JsonText
import SibylMemory.Library.Lines
import SibylMemory.Library.Trim

/-!
# The API key in `.env` (`config.py:214-267`)

A file is its text, or `none` when it does not exist. Values are code points, since a quoted one may
hold surrogates that no text has.
-/

namespace SibylMemory
open JsonText Lines Text Trim

def API_KEY_ENV : String := "SIBYL_API_KEY"

/-- `path.read_text().splitlines()` -/
def fileLines (file : Option String) : List String :=
  match file with
  | none => []
  | some text => splitLines (universalNewlines text)

/-! ### Reading -/

/-- `line.split("=", 1)` on a line with an equals sign, the name stripped. -/
def envName (line : String) : String := strip (String.ofList (line.toList.takeWhile (· ≠ '=')))

def envText (line : String) : String :=
  String.ofList ((line.toList.dropWhile (· ≠ '=')).drop 1)

def quotedBy (quote : Char) (l : List Char) : Bool :=
  decide (2 ≤ l.length ∧ l.head? = some quote ∧ l.getLast? = some quote)

def decodeEnvValue (value : String) : CodePoints :=
  let stripped := (strip value).toList
  let inner := (stripped.drop 1).dropLast
  if quotedBy '"' stripped then (loadsLiteral stripped).getD (inner.map Char.toNat)
  else if quotedBy '\'' stripped then inner.map Char.toNat
  else stripped.map Char.toNat

def envEntry (line : String) : Option (String × CodePoints) :=
  let stripped := strip line
  if stripped = "" ∨ startsWith stripped "#" = true ∨ '=' ∉ stripped.toList then none
  else some (envName stripped, decodeEnvValue (envText stripped))

def readEnvLine (values : String → Option CodePoints) (line : String) : String → Option CodePoints :=
  match envEntry line with
  | none => values
  | some (name, value) => Function.update values name (some value)

def readEnvFile (file : Option String) : String → Option CodePoints :=
  (fileLines file).foldl readEnvLine fun _ => none

/-- `str.isspace` on a code point; surrogates are no spaces. -/
def isSpacePoint (n : Nat) : Bool := isSpace (Char.ofNat n)

/-- `load_api_key`; `environ` is the variable in the environment. -/
def loadApiKey (environ : Option String) (file : Option String) : CodePoints :=
  let environmentValue := strip (environ.getD "")
  if environmentValue ≠ "" then points environmentValue
  else trim isSpacePoint ((readEnvFile file API_KEY_ENV).getD [])

/-! ### Writing -/

def envKey (line : String) : String := if '=' ∈ line.toList then envName line else ""

def apiKeyLine (apiKey : String) : String := API_KEY_ENV ++ "=" ++ PyValue.renderString true apiKey

/-- The loop of `save_api_key`. -/
def replaceLines (replacement : String) : Bool → List String → List String
  | replaced, [] => if replaced then [] else [replacement]
  | replaced, line :: lines =>
    if envKey line = API_KEY_ENV then
      if replaced then replaceLines replacement true lines
      else replacement :: replaceLines replacement true lines
    else line :: replaceLines replacement replaced lines

/-- The text that `save_api_key` writes. -/
def saveApiKey (apiKey : String) (file : Option String) : Except String String :=
  if apiKey = "" ∨ '\n' ∈ apiKey.toList ∨ '\r' ∈ apiKey.toList then
    .error "SIBYL_API_KEY must be one non-empty line"
  else .ok (joinWith "\n" (replaceLines (apiKeyLine apiKey) false (fileLines file)) ++ "\n")

/-! ### Reader and writer agree on names -/

section Names
variable {line : String}

theorem mem_strip {c : Char} (hc : isSpace c = false) : c ∈ (strip line).toList ↔ c ∈ line.toList := by
  rw [strip_eq, mem_trim hc]

theorem envName_toList (line : String) :
    (envName line).toList = trim isSpace (line.toList.takeWhile (· ≠ '=')) := by
  rw [envName, strip_eq, String.toList_ofList]

theorem envName_strip (h : '=' ∈ line.toList) : envName (strip line) = envName line := by
  have hmem : '=' ∈ trim isSpace line.toList := by
    rw [← strip_eq]
    exact (mem_strip (by decide)).mpr h
  obtain ⟨a, b, hl, ha, -⟩ := trim_split isSpace line.toList
  have hbefore : line.toList.takeWhile (· ≠ '=')
      = a ++ (trim isSpace line.toList).takeWhile (· ≠ '=') := by
    have hskip : ∀ c ∈ a, decide (c ≠ '=') = true := by
      intro c hc
      have hspace := ha c hc
      simp only [decide_eq_true_eq]
      rintro rfl
      exact absurd hspace (by decide)
    conv_lhs => rw [hl, List.append_assoc, List.takeWhile_append_of_pos hskip]
    congr 1
    rw [List.takeWhile_append]
    have hlen : ((trim isSpace line.toList).takeWhile (· ≠ '=')).length
        ≠ (trim isSpace line.toList).length := by
      intro hlen
      have hall := List.takeWhile_eq_self_iff.mp
        ((List.takeWhile_prefix fun c => decide (c ≠ '=')).eq_of_length hlen)
      simpa using hall '=' hmem
    rw [if_neg hlen]
  apply String.toList_inj.mp
  rw [envName_toList, envName_toList, strip_eq, hbefore, trim_append_left ha]

theorem envEntry_none_of_key (h : '=' ∉ line.toList) : envEntry line = none := by
  have hs : '=' ∉ (strip line).toList := fun hm => h ((mem_strip (by decide)).mp hm)
  exact if_pos (.inr (.inr hs))

/-- The reader takes a line for the variable exactly when the writer does. -/
theorem envKey_eq_iff : envKey line = API_KEY_ENV ↔ (envEntry line).map Prod.fst = some API_KEY_ENV := by
  by_cases heq : '=' ∈ line.toList
  · have hs : '=' ∈ (strip line).toList := (mem_strip (by decide)).mpr heq
    rw [envKey, if_pos heq, envEntry]
    split
    · rename_i hskip
      rcases hskip with hempty | hcomment | hno
      · rw [hempty] at hs
        cases hs
      · -- the name of a comment begins with its number sign
        simp only [Option.map_none, reduceCtorEq, iff_false]
        intro hname
        obtain ⟨rest, hrest⟩ := List.isPrefixOf_iff_prefix.mp hcomment
        have hmem : '#' ∈ (envName (strip line)).toList := by
          rw [envName_toList, mem_trim (by decide), ← hrest]
          exact List.mem_cons_self
        rw [envName_strip heq, hname] at hmem
        exact absurd hmem (by decide)
      · exact absurd hs hno
    · rw [Option.map_some, Option.some.injEq, envName_strip heq]
  · rw [envEntry_none_of_key heq, envKey, if_neg heq]
    simp [API_KEY_ENV]

end Names

/-! ### What a name reads as -/

def namedBy (name line : String) : Bool := decide ((envEntry line).map Prod.fst = some name)

def assignsKey (line : String) : Bool := namedBy API_KEY_ENV line

theorem readEnvLines_named (name : String) (lines : List String) (values values' : String → Option CodePoints)
    (h : values name = values' name) : (lines.foldl readEnvLine values) name
      = ((lines.filter (namedBy name)).foldl readEnvLine values') name := by
  induction lines generalizing values values' with
  | nil => exact h
  | cons line lines ih =>
    rw [List.foldl_cons, List.filter_cons]
    cases hentry : envEntry line with
    | none =>
      have hread : readEnvLine values line = values := by rw [readEnvLine, hentry]
      rw [hread, if_neg (by simp [namedBy, hentry])]
      exact ih values values' h
    | some entry =>
      have hread : ∀ v, readEnvLine v line = Function.update v entry.1 (some entry.2) := by
        intro v
        rw [readEnvLine, hentry]
      by_cases hname : entry.1 = name
      · have hnamed : namedBy name line = true := by simp [namedBy, hentry, hname]
        rw [if_pos hnamed, List.foldl_cons, hread, hread, hname]
        exact ih _ _ (by simp)
      · have hother : ¬ namedBy name line = true := by simp [namedBy, hentry, hname]
        rw [if_neg hother, hread]
        exact ih _ _ (by rw [Function.update_of_ne (Ne.symm hname), h])

theorem readEnvLines_others {name : String} (hname : name ≠ API_KEY_ENV) (lines : List String)
    (values : String → Option CodePoints) : (lines.foldl readEnvLine values) name
      = ((lines.filter fun line => !assignsKey line).foldl readEnvLine values) name := by
  have hkeep : (lines.filter fun line => !assignsKey line).filter (namedBy name)
      = lines.filter (namedBy name) := by
    rw [List.filter_filter]
    refine List.filter_congr fun line _ => ?_
    cases h : namedBy name line with
    | false => rfl
    | true =>
      have hother : assignsKey line = false := by
        simp only [namedBy, decide_eq_true_eq] at h
        simp [assignsKey, namedBy, h, hname]
      rw [hother]
      rfl
  rw [readEnvLines_named name lines values values rfl, ← hkeep,
    ← readEnvLines_named name _ values values rfl]

/-! ### What is written -/

section Writing
variable {replacement : String} {lines : List String}

theorem envKey_assigns {line : String} : envKey line = API_KEY_ENV ↔ assignsKey line = true := by
  rw [envKey_eq_iff, assignsKey, namedBy, decide_eq_true_eq]

theorem replaceLines_others (h : assignsKey replacement = true) (replaced : Bool) (lines : List String) :
    (replaceLines replacement replaced lines).filter (fun line => !assignsKey line)
      = lines.filter fun line => !assignsKey line := by
  induction lines generalizing replaced with
  | nil => cases replaced <;> simp [replaceLines, h]
  | cons line lines ih =>
    rw [replaceLines]
    by_cases hline : assignsKey line = true
    · rw [if_pos (envKey_assigns.mpr hline)]
      cases replaced <;> simp [hline, h, ih]
    · rw [if_neg (envKey_assigns.not.mpr hline)]
      simp [hline, ih]

theorem replaceLines_key (h : assignsKey replacement = true) (replaced : Bool) (lines : List String) :
    (replaceLines replacement replaced lines).filter assignsKey
      = if replaced then [] else [replacement] := by
  induction lines generalizing replaced with
  | nil => cases replaced <;> simp [replaceLines, h]
  | cons line lines ih =>
    rw [replaceLines]
    by_cases hline : assignsKey line = true
    · rw [if_pos (envKey_assigns.mpr hline)]
      cases replaced <;> simp [h, ih]
    · rw [if_neg (envKey_assigns.not.mpr hline)]
      simp [hline, ih]

theorem replaceLines_fixed (replaced : Bool) {lines : List String}
    (h : lines.filter assignsKey = if replaced then [] else [replacement]) :
    replaceLines replacement replaced lines = lines := by
  induction lines generalizing replaced with
  | nil => cases replaced <;> simp_all [replaceLines]
  | cons line lines ih =>
    rw [replaceLines]
    by_cases hline : assignsKey line = true
    · rw [List.filter_cons_of_pos hline] at h
      cases replaced with
      | true => cases h
      | false =>
        obtain ⟨rfl, hrest⟩ := List.cons.inj h
        rw [if_pos (envKey_assigns.mpr hline), if_neg (by decide), ih true hrest]
    · rw [List.filter_cons_of_neg hline] at h
      rw [if_neg (envKey_assigns.not.mpr hline), ih replaced h]

theorem replaceLines_ne_nil (h : assignsKey replacement = true) :
    replaceLines replacement false lines ≠ [] := by
  intro hnil
  have hkey := replaceLines_key h false lines
  rw [hnil] at hkey
  cases hkey

theorem mem_replaceLines {replaced : Bool} {line : String}
    (h : line ∈ replaceLines replacement replaced lines) : line = replacement ∨ line ∈ lines := by
  induction lines generalizing replaced with
  | nil =>
    cases replaced with
    | true => cases h
    | false => exact .inl (List.mem_singleton.mp h)
  | cons first lines ih =>
    rw [replaceLines] at h
    split_ifs at h
    · exact (ih h).imp_right (List.mem_cons_of_mem _)
    · rcases List.mem_cons.mp h with rfl | h
      · exact .inl rfl
      · exact (ih h).imp_right (List.mem_cons_of_mem _)
    · rcases List.mem_cons.mp h with rfl | h
      · exact .inr List.mem_cons_self
      · exact (ih h).imp_right (List.mem_cons_of_mem _)

end Writing

/-! ### The line of the key -/

section KeyLine
variable (apiKey : String)

theorem apiKeyLine_toList : (apiKeyLine apiKey).toList
    = API_KEY_ENV.toList ++ '=' :: ('"' :: apiKey.toList.flatMap (PyValue.escapeChar true) ++ ['"']) := by
  simp [apiKeyLine, PyValue.renderString, String.toList_append]

theorem apiKeyLine_strip : strip (apiKeyLine apiKey) = apiKeyLine apiKey := by
  apply String.toList_inj.mp
  rw [strip_eq]
  refine trim_eq_self ⟨fun c hc => ?_, fun c hc => ?_⟩
  · rw [apiKeyLine_toList] at hc
    cases hc
    decide
  · rw [apiKeyLine_toList, ← List.cons_append, ← List.append_assoc, List.getLast?_append] at hc
    cases hc
    decide

theorem renderString_toList : (PyValue.renderString true apiKey).toList
    = '"' :: apiKey.toList.flatMap (PyValue.escapeChar true) ++ ['"'] := by
  simp [PyValue.renderString, String.toList_append]

theorem renderString_strip : strip (PyValue.renderString true apiKey) = PyValue.renderString true apiKey := by
  apply String.toList_inj.mp
  rw [strip_eq, renderString_toList]
  refine trim_eq_self ⟨fun c hc => ?_, fun c hc => ?_⟩
  · cases hc
    decide
  · rw [List.getLast?_append] at hc
    cases hc
    decide

theorem decode_dumps : decodeEnvValue (PyValue.renderString true apiKey) = points apiKey := by
  have hquoted : quotedBy '"' (PyValue.renderString true apiKey).toList = true := by
    rw [quotedBy, renderString_toList, decide_eq_true_iff]
    refine ⟨by simp, rfl, ?_⟩
    rw [List.getLast?_append]
    rfl
  unfold decodeEnvValue
  rw [renderString_strip]
  dsimp only
  rw [if_pos hquoted, loads_dumps]
  rfl

theorem apiKeyLine_entry : envEntry (apiKeyLine apiKey) = some (API_KEY_ENV, points apiKey) := by
  have hname : (apiKeyLine apiKey).toList.takeWhile (· ≠ '=') = API_KEY_ENV.toList := by
    rw [apiKeyLine_toList, List.takeWhile_append_of_pos (by decide), List.takeWhile_cons_of_neg (by decide),
      List.append_nil]
  have hrest : (apiKeyLine apiKey).toList.dropWhile (· ≠ '=')
      = '=' :: (PyValue.renderString true apiKey).toList := by
    rw [apiKeyLine_toList, List.dropWhile_append_of_pos (by decide), List.dropWhile_cons_of_neg (by decide),
      renderString_toList]
  have hkeyName : envName (apiKeyLine apiKey) = API_KEY_ENV := by
    rw [envName, hname, String.ofList_toList]
    decide
  have htext : envText (apiKeyLine apiKey) = PyValue.renderString true apiKey := by
    rw [envText, hrest, List.drop_one, List.tail_cons, String.ofList_toList]
  have hseen : ¬ (apiKeyLine apiKey = "" ∨ startsWith (apiKeyLine apiKey) "#" = true ∨
      '=' ∉ (apiKeyLine apiKey).toList) := by
    rintro (h | h | h)
    · have hlist := congrArg String.toList h
      rw [apiKeyLine_toList] at hlist
      cases hlist
    · obtain ⟨rest, hpre⟩ := List.isPrefixOf_iff_prefix.mp h
      rw [apiKeyLine_toList] at hpre
      exact absurd (List.cons.inj hpre).1 (by decide)
    · exact h (by rw [apiKeyLine_toList]; simp)
  rw [envEntry, apiKeyLine_strip, if_neg hseen, hkeyName, htext, decode_dumps]

theorem apiKeyLine_assigns : assignsKey (apiKeyLine apiKey) = true := by
  simp [assignsKey, namedBy, apiKeyLine_entry]

theorem apiKeyLine_unbroken : Unbroken (apiKeyLine apiKey) := by
  have hprintable : ∀ c : Char, 32 ≤ c.toNat ∧ c.toNat ≤ 126 → isLineBreak c = false := by
    intro c hc
    simp only [isLineBreak, decide_eq_false_iff_not]
    omega
  intro c hc
  rw [apiKeyLine_toList] at hc
  simp only [List.mem_append, List.mem_cons, List.mem_flatMap, List.not_mem_nil, or_false] at hc
  rcases hc with hc | rfl | (rfl | ⟨d, -, hd⟩) | rfl
  · exact (by decide : ∀ c ∈ API_KEY_ENV.toList, isLineBreak c = false) c hc
  · decide
  · decide
  · exact hprintable c (escapeChar_printable d c hd)
  · decide

end KeyLine

/-! ### The round trip -/

theorem trim_points (l : List Char) :
    trim isSpacePoint (l.map Char.toNat) = (trim isSpace l).map Char.toNat := by
  have hcomp : isSpacePoint ∘ Char.toNat = isSpace := by
    funext c
    simp [isSpacePoint, Char.ofNat_toNat]
  rw [trim, trim, List.dropWhile_map, List.rdropWhile, List.rdropWhile, ← List.map_reverse,
    List.dropWhile_map, hcomp, List.map_reverse]

/-- What saving a key does to `.env`. -/
structure KeySaved (apiKey : String) (file : Option String) (text : String) : Prop where
  loaded : loadApiKey none (some text) = points (strip apiKey)
  single : (fileLines (some text)).filter assignsKey = [apiKeyLine apiKey]
  others : ∀ name, name ≠ API_KEY_ENV → readEnvFile (some text) name = readEnvFile file name
  kept : (fileLines (some text)).filter (fun line => !assignsKey line)
    = (fileLines file).filter fun line => !assignsKey line
  again : saveApiKey apiKey (some text) = .ok text

theorem saveApiKey_text {apiKey text : String} {file : Option String}
    (h : saveApiKey apiKey file = .ok text) :
    fileLines (some text) = replaceLines (apiKeyLine apiKey) false (fileLines file) ∧
      text = joinLines (replaceLines (apiKeyLine apiKey) false (fileLines file)) := by
  have htext : text = joinLines (replaceLines (apiKeyLine apiKey) false (fileLines file)) := by
    unfold saveApiKey at h
    split at h
    · cases h
    · cases h
      exact (joinLines_eq (replaceLines_ne_nil (apiKeyLine_assigns apiKey))).symm
  have hunbroken : ∀ line ∈ replaceLines (apiKeyLine apiKey) false (fileLines file), Unbroken line := by
    intro line hline
    rcases mem_replaceLines hline with rfl | hline
    · exact apiKeyLine_unbroken apiKey
    · cases file with
      | none => cases hline
      | some old => exact splitLines_unbroken _ line hline
  refine ⟨?_, htext⟩
  rw [fileLines, htext, universalNewlines_joinLines hunbroken, splitLines_joinLines hunbroken]

/-- Whatever the file was, it holds the key once, reads as before otherwise, and saving the key
again changes nothing. -/
theorem api_key_saved {apiKey text : String} {file : Option String}
    (h : saveApiKey apiKey file = .ok text) : KeySaved apiKey file text := by
  obtain ⟨hlines, htext⟩ := saveApiKey_text h
  have hassigns := apiKeyLine_assigns apiKey
  have hsingle : (fileLines (some text)).filter assignsKey = [apiKeyLine apiKey] := by
    rw [hlines, replaceLines_key hassigns]
    rfl
  have hkept : (fileLines (some text)).filter (fun line => !assignsKey line)
      = (fileLines file).filter fun line => !assignsKey line := by
    rw [hlines, replaceLines_others hassigns]
  have hvalue : readEnvFile (some text) API_KEY_ENV = some (points apiKey) := by
    have hnamed : (fileLines (some text)).filter (namedBy API_KEY_ENV) = [apiKeyLine apiKey] := hsingle
    rw [readEnvFile, readEnvLines_named API_KEY_ENV _ _ (fun _ => none) rfl, hnamed, List.foldl_cons,
      List.foldl_nil, readEnvLine, apiKeyLine_entry]
    exact Function.update_self ..
  refine ⟨?_, hsingle, fun name hname => ?_, hkept, ?_⟩
  · have hunset : ¬ strip ((none : Option String).getD "") ≠ "" := by decide
    unfold loadApiKey
    dsimp only
    rw [if_neg hunset, hvalue, Option.getD_some, points, trim_points, points, strip_eq]
  · rw [readEnvFile, readEnvLines_others hname, hkept, ← readEnvLines_others hname, readEnvFile]
  · have hfixed := replaceLines_fixed false hsingle
    unfold saveApiKey at h ⊢
    split at h
    · cases h
    · rename_i haccepted
      cases h
      rw [if_neg haccepted, hfixed, hlines]

theorem api_key_saved_sample : ∃ text, KeySaved " k\\\"# " (some "A=1\nSIBYL_API_KEY=old\n#c") text :=
  ⟨_, api_key_saved rfl⟩

end SibylMemory
