import SibylMemory.Configuration
import SibylMemory.Library.Fallible

/-!
# The saved configuration (`config.py:49-62`, `81-126`, `173-211`)

The checks read the URL as `urlsplit` splits it, while the text itself is stored, joined with
paths and checked again when the file is loaded. The two views agree unless a delimiter has
nothing behind it, or the last segment holds what `urlsplit` removes.
-/

namespace SibylMemory
open Text UrlSplit Trim Fallible

/-! ### Accepted mappings -/

/-- `values.get(key, default)` -/
def entry (values : JSONObject) (key : String) (default : PyValue) : PyValue :=
  (PyValue.lookup key values).getD default

/-- What `from_mapping` found in the mapping when it returned. -/
structure Accepted (host : Host) (py : Interpreter) (values : JSONObject) (c : ProviderConfig) :
    Prop where
  insecure : asBool (entry values "allow_insecure_http" (.bool false)) "allow_insecure_http"
    = .ok c.allowInsecureHttp
  url : validateBaseUrl py (textField host values "base_url" DEFAULT_BASE_URL) c.allowInsecureHttp
    = .ok c.baseUrl
  project : strip (textField host values "project_id" "") = c.projectId
  space : strip (textField host values "memory_space_id" "") = c.memorySpaceId
  project_prefix : ¬(c.projectId ≠ "" ∧ startsWith c.projectId "project_" = false)
  space_blank : ¬c.memorySpaceId.toList.any isSpace = true
  budget : asInt py (entry values "context_token_budget" (.int 900)) "context_token_budget" 1 32000
    = .ok c.contextTokenBudget
  limit : asInt py (entry values "context_limit" (.int 8)) "context_limit" 1 100
    = .ok c.contextLimit
  related : asInt py (entry values "context_related_limit" (.int 2)) "context_related_limit" 0 20
    = .ok c.contextRelatedLimit
  capture : asBool (entry values "automatic_capture" (.bool true)) "automatic_capture"
    = .ok c.automaticCapture
  tools : asBool (entry values "manual_tools" (.bool true)) "manual_tools" = .ok c.manualTools

section Mapping
variable {host : Host} {py : Interpreter} {values : JSONObject} {c : ProviderConfig}

theorem fromMapping_ok_iff :
    ProviderConfig.fromMapping host py values = .ok c ↔ Accepted host py values c := by
  unfold ProviderConfig.fromMapping
  simp only [bind_ok, guard_ok]
  constructor
  · rintro ⟨insecure, hi, url, hu, hp, hs, budget, hb, limit, hl, related, hr, capture, hc, tools,
      ht, h⟩
    cases h
    exact ⟨hi, hu, rfl, rfl, hp, hs, hb, hl, hr, hc, ht⟩
  · rintro ⟨hi, hu, hproj, hspace, hp, hs, hb, hl, hr, hc, ht⟩
    refine ⟨_, hi, _, hu, ?_, ?_, _, hb, _, hl, _, hr, _, hc, _, ht, ?_⟩
    · rw [hproj]
      exact hp
    · rw [hspace]
      exact hs
    · rw [hproj, hspace]
      rfl

theorem fromMapping_congr {values' : JSONObject}
    (h : ∀ k, PyValue.lookup k values = PyValue.lookup k values') :
    ProviderConfig.fromMapping host py values = ProviderConfig.fromMapping host py values' := by
  have hget : Schema.get values = Schema.get values' := by
    funext k
    rw [Schema.get, Schema.get, h k]
  have htext : textField host values = textField host values' := by
    funext k d
    rw [textField, textField, hget]
  unfold ProviderConfig.fromMapping
  simp only [h, htext]

theorem load_save : loadProviderConfig host py (some (saveProviderConfig c)) =
    ProviderConfig.fromMapping host py c.asdict :=
  fromMapping_congr fun _ => PyValue.lookup_sortEntries _ _

theorem asBool_bool (b : Bool) (field : String) : asBool (.bool b) field = .ok b := rfl

theorem asInt_ok {value : PyValue} {field : String} {minimum maximum n : Int}
    (h : asInt py value field minimum maximum = .ok n) :
    asInt py (.int n) field minimum maximum = .ok n := by
  have hbounds : minimum ≤ n ∧ n ≤ maximum := by
    unfold asInt at h
    split at h
    · cases h
    · split at h
      · split at h <;> cases h
      · split at h
        · rename_i hb
          cases h
          exact hb
        · cases h
  unfold asInt
  simp only [py.int_int, if_pos hbounds]

theorem textField_str {key default text : String} (h : PyValue.lookup key values = some (.str text))
    (hd : text = "" → default = "") : textField host values key default = text := by
  have hget : Schema.get values key = .str text := by
    rw [Schema.get, h]
    rfl
  unfold textField
  rw [hget]
  by_cases ht : text = ""
  · have hfalse : truthy (.str text) = false := by simp [truthy, ht]
    rw [hd ht, ht]
    simp [truthy]
  · have htrue : truthy (.str text) = true := by simp [truthy, ht]
    simp only [htrue, if_true, host.str_str]

theorem Accepted.reload (h : Accepted host py values c) (hne : c.baseUrl ≠ "") :
    ProviderConfig.fromMapping host py c.asdict = .ok c ↔
      validateBaseUrl py c.baseUrl c.allowInsecureHttp = .ok c.baseUrl := by
  have hurl : textField host c.asdict "base_url" DEFAULT_BASE_URL = c.baseUrl :=
    textField_str rfl fun he => absurd he hne
  have hproject : textField host c.asdict "project_id" "" = c.projectId :=
    textField_str rfl fun _ => rfl
  have hspace : textField host c.asdict "memory_space_id" "" = c.memorySpaceId :=
    textField_str rfl fun _ => rfl
  rw [fromMapping_ok_iff]
  constructor
  · intro ha
    have hu := ha.url
    rw [hurl] at hu
    exact hu
  · intro hu
    exact {
      insecure := asBool_bool _ _
      url := by rw [hurl]; exact hu
      project := by rw [hproject, ← h.project, strip_strip]
      space := by rw [hspace, ← h.space, strip_strip]
      project_prefix := h.project_prefix
      space_blank := h.space_blank
      budget := asInt_ok h.budget
      limit := asInt_ok h.limit
      related := asInt_ok h.related
      capture := asBool_bool _ _
      tools := asBool_bool _ _ }

end Mapping

/-! ### Checked URLs -/

/-- `value.strip().rstrip("/")` -/
def normalized (value : String) : List Char := rstrip '/' (strip value).toList

structure GoodUrl (parsed : SplitUrl) : Prop where
  scheme : parsed.scheme ≠ []
  netloc : parsed.netloc ≠ []
  query : parsed.query = []
  fragment : parsed.fragment = []
  api : "/api".toList <:+ rstrip '/' parsed.path

section Check
variable {py : Interpreter} {allow : Bool} {value : String}

theorem checkBaseUrl_ok {parsed : SplitUrl} (h : checkBaseUrl py allow parsed = .ok ()) :
    GoodUrl parsed := by
  unfold checkBaseUrl at h
  simp only [guard_ok] at h
  obtain ⟨hhost, -, hdelim, hapi, -⟩ := h
  rw [not_or] at hhost hdelim
  refine ⟨fun he => hhost.1 ?_, fun he => hhost.2 ?_, not_not.mp hdelim.1, not_not.mp hdelim.2,
    not_not.mp hapi⟩
  · rw [he]
    decide
  · rw [he]
    rfl

theorem validateBaseUrl_ok {url : String} : validateBaseUrl py value allow = .ok url ↔
    ∃ parsed, urlsplit py.checkNetloc (normalized value) = some parsed ∧
      checkBaseUrl py allow parsed = .ok () ∧ String.ofList (normalized value) = url := by
  have hnorm : rstrip '/' (strip value).toList = normalized value := rfl
  unfold validateBaseUrl
  dsimp only
  rw [hnorm]
  cases hu : urlsplit py.checkNetloc (normalized value) with
  | none => simp [throw, throwThe, MonadExceptOf.throw]
  | some parsed =>
    dsimp only
    rw [bind_ok]
    constructor
    · rintro ⟨_, hc, h⟩
      exact ⟨parsed, rfl, hc, Except.ok.inj h⟩
    · rintro ⟨_, hu', hc, hurl⟩
      cases hu'
      exact ⟨(), hc, congrArg Except.ok hurl⟩

theorem mem_rstrip {c d : Char} {l : List Char} (hcd : c ≠ d) : c ∈ rstrip d l ↔ c ∈ l := by
  have hsplit := List.rdropWhile_append_rtakeWhile (p := fun x => decide (x = d)) (l := l)
  refine ⟨fun h => (List.rdropWhile_prefix _ l).subset h, fun h => ?_⟩
  rw [← hsplit, List.mem_append] at h
  rcases h with h | h
  · exact h
  · exact absurd (by simpa using List.mem_rtakeWhile_imp h) hcd

theorem mem_normalized {c : Char} (hc : c ≠ '/') (hspace : isSpace c = false) :
    c ∈ normalized value ↔ c ∈ value.toList := by
  rw [normalized, mem_rstrip hc, strip_eq, mem_trim hspace]

theorem rstrip_eq_self {l : List Char} {c : Char} (h : l.getLast? ≠ some c) : rstrip c l = l := by
  rw [rstrip, List.rdropWhile_eq_self_iff]
  intro hne hlast
  rw [decide_eq_true_eq] at hlast
  rw [List.getLast?_eq_getLast_of_ne_nil hne, hlast] at h
  exact h rfl

theorem normalized_getLast : (normalized value).getLast? ≠ some '/' := by
  intro h
  have hne : normalized value ≠ [] := by
    intro hnil
    rw [hnil] at h
    cases h
  have hlast := List.rdropWhile_last_not (fun c => decide (c = '/')) (strip value).toList hne
  rw [List.getLast?_eq_getLast_of_ne_nil hne, Option.some_inj] at h
  rw [decide_eq_true_eq] at hlast
  exact hlast h

theorem getLast_api {l : List Char} (h : "/api".toList <:+ l) : l.getLast? = some 'i' := by
  obtain ⟨q, rfl⟩ := h
  rw [List.getLast?_append]
  rfl

theorem normalized_again (h : "/api".toList <:+ normalized value) :
    normalized (String.ofList (normalized value)) = normalized value := by
  have htrimmed : Trimmed isSpace (normalized value) := by
    refine ⟨fun c hc => ?_, fun c hc => ?_⟩
    · obtain ⟨rest, hrest⟩ : normalized value <+: (strip value).toList := List.rdropWhile_prefix _ _
      have hhead : c ∈ (strip value).toList.head? := by
        rw [← hrest, List.head?_append, hc]
        rfl
      rw [strip_eq] at hhead
      exact (trim_trimmed isSpace value.toList).front c hhead
    · rw [getLast_api h] at hc
      cases hc
      decide
  have hstrip : (strip (String.ofList (normalized value))).toList = normalized value := by
    rw [strip_eq, String.toList_ofList, trim_eq_self htrimmed]
  rw [normalized, hstrip]
  refine rstrip_eq_self ?_
  rw [getLast_api h]
  decide

end Check

/-! ### Requests -/

/-- No tab, no line end and no delimiter: the paths of the client. -/
def PlainPath (path : List Char) : Prop :=
  ∀ c ∈ path, isUnsafe c = false ∧ c ≠ '?' ∧ c ≠ '#'

/-- `base_url.rstrip("/") + "/" + path` -/
def requestUrl (baseUrl : String) (path : List Char) : List Char :=
  rstrip '/' baseUrl.toList ++ '/' :: path

section Requests
variable {check : List Char → Bool} {url pre netloc rest : List Char}

/-- Without delimiters and with a last segment that nothing is removed from, an accepted URL ends
as its path does. -/
theorem ends_api (h : Authority check (clean url) pre netloc rest)
    (hlast : url.getLast? ≠ some '/') (hsegment : ∀ c ∈ afterLast '/' url, isUnsafe c = false)
    (hapi : "/api".toList <:+ rstrip '/' rest) : "/api".toList <:+ url ∧ "/api".toList <:+ rest := by
  have hmem : '/' ∈ url := by
    apply mem_of_mem_clean
    rw [h.eq]
    simp
  obtain ⟨m, hm⟩ := exists_afterLast hmem
  obtain ⟨m', hm'⟩ := exists_clean (m := m) hsegment
  rw [← hm] at hm'
  have hseg : afterLast '/' url ≠ [] := by
    intro hnil
    rw [hnil] at hm
    rw [hm] at hlast
    simp at hlast
  have hrest : rest ≠ [] := by
    rintro rfl
    exact absurd hapi (by decide)
  -- the rest and the URL end alike, so the rest has no slash to lose
  have hend : rest.getLast? = (afterLast '/' url).getLast? := by
    have h1 : (clean url).getLast? = rest.getLast? := by
      rw [h.eq]
      cases rest with
      | nil => exact absurd rfl hrest
      | cons c rest => simp [List.getLast?_append, List.getLast?_cons]
    have h2 : (clean url).getLast? = (afterLast '/' url).getLast? := by
      rw [hm']
      cases hs : afterLast '/' url with
      | nil => exact absurd hs hseg
      | cons c s => simp [List.getLast?_append, List.getLast?_cons]
    rw [← h1, h2]
  have hsame : rstrip '/' rest = rest := by
    refine rstrip_eq_self fun hslash => ?_
    rw [hend] at hslash
    exact notMem_afterLast (List.mem_of_mem_getLast? hslash)
  rw [hsame] at hapi
  refine ⟨?_, hapi⟩
  have hclean : "/api".toList <:+ clean url := by
    refine hapi.trans ?_
    rw [h.eq]
    exact ⟨pre ++ ':' :: '/' :: '/' :: netloc, by simp⟩
  obtain ⟨q, hq⟩ := hclean
  have hapi_segment : afterLast '/' url = "api".toList := by
    have h1 : afterLast '/' (clean url) = afterLast '/' url := by
      conv_lhs => rw [hm']
      exact afterLast_append notMem_afterLast
    have h2 : afterLast '/' (clean url) = "api".toList := by
      rw [← hq]
      exact afterLast_append (by decide)
    rw [← h1, h2]
  rw [hm, hapi_segment]
  exact List.suffix_append m _

theorem request_path (h : Authority check (clean url) pre netloc rest)
    (hurl : "/api".toList <:+ url) (hrest : "/api".toList <:+ rest) (hquery : '?' ∉ url)
    (hfragment : '#' ∉ url) {path : List Char} (hpath : PlainPath path) :
    urlsplit check (rstrip '/' url ++ '/' :: path) =
      some ⟨lower pre, netloc, rest ++ '/' :: path, [], []⟩ := by
  have hsame : rstrip '/' url = url := by
    refine rstrip_eq_self ?_
    rw [getLast_api hurl]
    decide
  have hne : rest ≠ [] := by
    rintro rfl
    exact absurd hrest (by decide)
  have hsafe : ∀ c ∈ '/' :: path, isUnsafe c = false := by
    intro c hc
    rcases List.mem_cons.mp hc with rfl | hc
    · decide
    · exact (hpath c hc).1
  have habsent : ∀ c, c = '?' ∨ c = '#' → c ∉ url → c ∉ rest ++ '/' :: path := by
    intro c hc hcu hmem
    rcases List.mem_append.mp hmem with hmem | hmem
    · exact hcu (h.mem_url hmem)
    · rcases List.mem_cons.mp hmem with rfl | hmem
      · rcases hc with hc | hc <;> exact absurd hc (by decide)
      · rcases hc with rfl | rfl
        · exact (hpath _ hmem).2.1 rfl
        · exact (hpath _ hmem).2.2 rfl
  rw [hsame, (h.append hne hsafe).urlsplit_eq,
    assemble_plain (habsent _ (.inl rfl) hquery) (habsent _ (.inr rfl) hfragment)]

end Requests

/-! ### Normal forms -/

/-- The configuration is saved and used as it was checked. -/
structure NormalForm (host : Host) (py : Interpreter) (c : ProviderConfig) : Prop where
  api : "/api".toList <:+ c.baseUrl.toList
  query : '?' ∉ c.baseUrl.toList
  fragment : '#' ∉ c.baseUrl.toList
  requests : ∃ scheme netloc before, ∀ path, PlainPath path →
    urlsplit py.checkNetloc (requestUrl c.baseUrl path) =
      some ⟨scheme, netloc, before ++ "/api/".toList ++ path, [], []⟩
  reload : ProviderConfig.fromMapping host py c.asdict = .ok c
  loaded : loadProviderConfig host py (some (saveProviderConfig c)) = .ok c

/-- No delimiter, and nothing that `urlsplit` removes behind the last slash once white space and
trailing slashes are gone. -/
structure PlainBaseUrl (value : String) : Prop where
  query : '?' ∉ value.toList
  fragment : '#' ∉ value.toList
  segment : ∀ c ∈ afterLast '/' (rstrip '/' (strip value).toList), isUnsafe c = false

section NormalForm
variable {host : Host} {py : Interpreter} {values : JSONObject} {c : ProviderConfig}

theorem saved_normal_form (h : ProviderConfig.fromMapping host py values = .ok c) :
    NormalForm host py c ↔ PlainBaseUrl (textField host values "base_url" DEFAULT_BASE_URL) := by
  have ha := fromMapping_ok_iff.mp h
  obtain ⟨parsed, hparsed, hcheck, hurl⟩ := validateBaseUrl_ok.mp ha.url
  generalize textField host values "base_url" DEFAULT_BASE_URL = value at *
  have hchars : c.baseUrl.toList = normalized value := by rw [← hurl, String.toList_ofList]
  constructor
  · intro hn
    have hapi := hn.api
    have hquery := hn.query
    have hfragment := hn.fragment
    rw [hchars] at hapi hquery hfragment
    refine ⟨fun hq => hquery ?_, fun hf => hfragment ?_, ?_⟩
    · exact (mem_normalized (by decide) (by decide)).mpr hq
    · exact (mem_normalized (by decide) (by decide)).mpr hf
    · obtain ⟨q, hq⟩ := hapi
      have hsegment : afterLast '/' (normalized value) = "api".toList := by
        rw [← hq]
        exact afterLast_append (by decide)
      change ∀ c ∈ afterLast '/' (normalized value), _
      rw [hsegment]
      decide
  · intro hp
    have hgood := checkBaseUrl_ok hcheck
    have hquery : '?' ∉ normalized value := fun hq =>
      hp.query ((mem_normalized (by decide) (by decide)).mp hq)
    have hfragment : '#' ∉ normalized value := fun hf =>
      hp.fragment ((mem_normalized (by decide) (by decide)).mp hf)
    obtain ⟨pre, rest, hauth, hparts⟩ := urlsplit_authority hparsed hgood.scheme hgood.netloc
    have hpath := hgood.api
    rw [hparts, assemble_plain (fun hq => hquery (hauth.mem_url hq))
      fun hf => hfragment (hauth.mem_url hf)] at hpath
    obtain ⟨hapi, hrest⟩ := ends_api hauth normalized_getLast hp.segment hpath
    have hreload : ProviderConfig.fromMapping host py c.asdict = .ok c := by
      have hne : c.baseUrl ≠ "" := by
        intro he
        rw [← hchars, he] at hapi
        exact absurd hapi (by decide)
      rw [ha.reload hne, validateBaseUrl_ok, ← hurl, normalized_again hapi]
      exact ⟨parsed, hparsed, hcheck, rfl⟩
    refine ⟨by rw [hchars]; exact hapi, by rw [hchars]; exact hquery, by rw [hchars]; exact hfragment,
      ?_, hreload, load_save.trans hreload⟩
    obtain ⟨before, hbefore⟩ := hrest
    refine ⟨lower pre, parsed.netloc, before, fun path hplain => ?_⟩
    have hrequest := request_path hauth hapi ⟨before, hbefore⟩ hquery hfragment hplain
    have hjoin : rest ++ '/' :: path = before ++ "/api/".toList ++ path := by
      have hsplit : "/api/".toList = "/api".toList ++ ['/'] := by decide
      rw [← hbefore, hsplit]
      simp only [List.append_assoc, List.singleton_append]
    rw [requestUrl, hchars, hrequest, hjoin]

end NormalForm

theorem saved_normal_form_sample :
    NormalForm Host.plain sampleInterpreter { baseUrl := "http://localhost/sibyl/api", contextLimit := 3 }
      ↔ PlainBaseUrl "http://localhost/sibyl/api/ " :=
  have h : ProviderConfig.fromMapping Host.plain sampleInterpreter
      [("base_url", .str "http://localhost/sibyl/api/ "), ("context_limit", .int 3)] =
        .ok { baseUrl := "http://localhost/sibyl/api", contextLimit := 3 } := rfl
  saved_normal_form h

/-- An empty query is stored and swallows the paths of the requests; a tab before a trailing slash
is stored and lost when the file is loaded. -/
theorem delimiter_is_saved :
    (∃ c, ProviderConfig.fromMapping Host.plain sampleInterpreter
        [("base_url", .str "http://localhost/api?")] = .ok c ∧ '?' ∈ c.baseUrl.toList ∧
      ¬ "/api".toList <:+ c.baseUrl.toList ∧
      (urlsplit sampleInterpreter.checkNetloc (requestUrl c.baseUrl "auth/me".toList)).map
        SplitUrl.path = some "/api".toList) ∧
    ∃ c, ProviderConfig.fromMapping Host.plain sampleInterpreter
        [("base_url", .str "http://localhost/api\t/")] = .ok c ∧
      ¬ "/api".toList <:+ c.baseUrl.toList ∧
      ProviderConfig.fromMapping Host.plain sampleInterpreter c.asdict ≠ .ok c := by
  refine ⟨⟨{ baseUrl := "http://localhost/api?" }, rfl, by decide, by decide, rfl⟩,
    ⟨{ baseUrl := "http://localhost/api\t" }, rfl, by decide, ?_⟩⟩
  have hagain : ProviderConfig.fromMapping Host.plain sampleInterpreter
      (ProviderConfig.asdict { baseUrl := "http://localhost/api\t" }) =
        .ok { baseUrl := "http://localhost/api" } := rfl
  rw [hagain]
  intro h
  exact absurd (congrArg ProviderConfig.baseUrl (Except.ok.inj h)) (by decide)

end SibylMemory
