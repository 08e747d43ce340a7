import SibylMemory.Library.ObjectSchema
import SibylMemory.ToolCalls

/-!
# The advertised tools (`provider_tools.py:188-239`, `runtime.py:217-230`)

The schemas tell a model what it may call; the parsers decide. They differ in three ways: a parser
takes no blank text, wants the field that an action needs, and ignores what is not declared or null.
-/

namespace SibylMemory
open Text

structure ToolSchema where
  name : String
  description : String
  parameters : ObjectSchema

/-- `sorted` of texts. -/
def sortedTexts (texts : List String) : List String := texts.insertionSort fun a b => decide (a ≤ b) = true

def boundedText (maximum : Nat) : ValueSchema := .text (some maximum) none

def oneOf (values : List String) : ValueSchema := .text none (some values)

def recallSchema : ToolSchema where
  name := "sibyl_recall"
  description := "Recall governed Sibyl memory as untrusted evidence."
  parameters :=
    { properties := [("query", boundedText 8000), ("layer", oneOf ["recall", "deep_search"]),
        ("intent", oneOf ["general", "build", "plan", "research", "debug", "decide", "learn"])]
      required := ["query"] }

def rememberSchema : ToolSchema where
  name := "sibyl_remember"
  description := "Queue a deliberate source-preserving memory in the configured scope."
  parameters :=
    { properties := [("title", boundedText 300), ("content", boundedText 500000),
        ("kind", oneOf (sortedTexts REMEMBER_KINDS)),
        ("tags", .array (some MAX_TAGS) (boundedText MAX_TAG_LENGTH))]
      required := ["title", "content", "kind"] }

def correctSchema : ToolSchema where
  name := "sibyl_correct"
  description := "Preview or queue a revision-aware lifecycle correction."
  parameters :=
    { properties := [("source_id", boundedText 1000),
        ("action", oneOf (sortedTexts (CORRECTION_ACTIONS.map Prod.fst))), ("reason", boundedText 2000),
        ("revised_content", boundedText 500000), ("replacement_source_id", boundedText 500),
        ("duplicate_of_source_id", boundedText 500), ("apply", .boolean (some false))]
      required := ["source_id", "action", "reason"] }

def TOOL_SCHEMAS : List ToolSchema := [recallSchema, rememberSchema, correctSchema]

def getToolSchemas (config : ProviderConfig) : List ToolSchema :=
  if config.manualTools then TOOL_SCHEMAS else []

def Tool.schema : Tool → ToolSchema
  | .recall => recallSchema
  | .remember => rememberSchema
  | .correct => correctSchema

/-! ### What the parsers want besides -/

def OPTIONAL_TEXTS : List String := ["revised_content", "replacement_source_id", "duplicate_of_source_id"]

/-- Null under the name of an optional text is as good as nothing. -/
def keeps (key : String) : PyValue → Bool
  | .none => decide (key ∉ OPTIONAL_TEXTS)
  | _ => true

/-- The arguments that a parser looks at. -/
def Tool.given (t : Tool) (args : JSONObject) : JSONObject := t.schema.parameters.declared keeps args

def blankText : PyValue → Bool
  | .str s => decide (strip s = "")
  | _ => false

/-- A blank text, or an array with one. -/
def blank : PyValue → Bool
  | .list xs => xs.any blankText
  | v => blankText v

/-- The field that an action needs. -/
def companion (action : String) : Option String :=
  if action = "revise" then some "revised_content"
  else if action = "superseded" then some "replacement_source_id"
  else if action = "duplicate" then some "duplicate_of_source_id"
  else none

def Companioned (given : JSONObject) : Prop :=
  ∀ action field, PyValue.lookup "action" given = some (.str action) → companion action = some field →
    (PyValue.lookup field given).isSome = true

/-! ### Fields -/

section Fields
variable {args : JSONObject} {key : String} {maximum : Nat}

/-- A value is there, fits and is not blank. -/
def Fits (schema : ValueSchema) (v : PyValue) : Prop := schema.accepts v = true ∧ blank v = false

instance (schema : ValueSchema) (v : PyValue) : Decidable (Fits schema v) :=
  inferInstanceAs (Decidable (_ ∧ _))

theorem boundedText_fits {v : PyValue} :
    Fits (boundedText maximum) v ↔ ∃ s, v = .str s ∧ strip s ≠ "" ∧ s.length ≤ maximum := by
  cases v <;> simp [Fits, boundedText, ValueSchema.accepts, blank, blankText, and_comm]

theorem oneOf_fits {values : List String} (hvalues : ∀ s ∈ values, strip s ≠ "") {v : PyValue} :
    Fits (oneOf values) v ↔ ∃ s, v = .str s ∧ s ∈ values := by
  cases v with
  | str s =>
    simp only [Fits, oneOf, ValueSchema.accepts, blank, blankText, Option.all_none, Option.all_some,
      Bool.true_and, decide_eq_true_eq, decide_eq_false_iff_not, PyValue.str.injEq, exists_eq_left']
    exact and_iff_left_of_imp (hvalues s)
  | _ => simp [Fits, oneOf, ValueSchema.accepts]

theorem get_str {s : String} : Schema.get args key = .str s ↔ PyValue.lookup key args = some (.str s) := by
  unfold Schema.get
  cases PyValue.lookup key args with
  | none => simp
  | some v => simp

theorem required_ok : (∃ value, requiredToolString args key maximum = .ok value) ↔
    ∃ v, PyValue.lookup key args = some v ∧ Fits (boundedText maximum) v := by
  constructor
  · rintro ⟨value, h⟩
    obtain ⟨hget, hblank, hlong⟩ := requiredToolString_ok h
    exact ⟨_, get_str.mp hget, boundedText_fits.mpr ⟨value, rfl, hblank, hlong⟩⟩
  · rintro ⟨v, hlookup, hfits⟩
    obtain ⟨s, rfl, hblank, hlong⟩ := boundedText_fits.mp hfits
    exact ⟨s, requiredToolString_given ⟨get_str.mpr hlookup, hblank, hlong⟩⟩

theorem keeps_eq (hkey : key ∉ OPTIONAL_TEXTS) : (PyValue.lookup key args).filter (keeps key)
    = PyValue.lookup key args := by
  have hkeeps : ∀ v, keeps key v = true := by
    intro v
    cases v with
    | none => exact decide_eq_true hkey
    | _ => rfl
  cases PyValue.lookup key args with
  | none => rfl
  | some v => exact Option.filter_some_pos (hkeeps v)

/-- What an optional text comes to. -/
theorem optional_ok (hkey : key ∈ OPTIONAL_TEXTS) {result : Option String} :
    optionalToolString args key maximum = .ok result ↔
      ((PyValue.lookup key args).filter (keeps key) = result.map .str ∧
        ∀ s, result = some s → Fits (boundedText maximum) (.str s)) := by
  have hnone : keeps key .none = false := decide_eq_false (not_not.mpr hkey)
  have hfits (s : String) : Fits (boundedText maximum) (.str s) ↔ strip s ≠ "" ∧ s.length ≤ maximum := by
    rw [boundedText_fits]
    simp
  unfold optionalToolString Schema.get
  cases hlookup : PyValue.lookup key args with
  | none =>
    cases result <;> simp
  | some v =>
    cases v with
    | none => cases result <;> simp [Option.filter, hnone]
    | str s =>
      have hkept : Option.filter (keeps key) (some (.str s)) = some (.str s) := rfl
      simp only [Option.getD_some, hkept]
      split_ifs with hblank hlong
      · refine iff_of_false (fun h => by cases h) ?_
        rintro ⟨hresult, h⟩
        cases result with
        | none => cases hresult
        | some t =>
          cases hresult
          exact ((hfits s).mp (h s rfl)).1 hblank
      · refine iff_of_false (fun h => by cases h) ?_
        rintro ⟨hresult, h⟩
        cases result with
        | none => cases hresult
        | some t =>
          cases hresult
          exact absurd ((hfits s).mp (h s rfl)).2 (Nat.not_le.mpr hlong)
      · constructor
        · intro h
          cases h
          refine ⟨rfl, fun t ht => ?_⟩
          cases ht
          exact (hfits s).mpr ⟨hblank, Nat.le_of_not_lt hlong⟩
        · rintro ⟨hresult, -⟩
          cases result with
          | none => cases hresult
          | some t =>
            cases hresult
            rfl
    | _ =>
      refine iff_of_false (fun h => by cases h) ?_
      rintro ⟨hresult, -⟩
      cases result <;> cases hresult

theorem member_ok {values : List String} {message : String} (hvalues : ∀ s ∈ values, strip s ≠ "")
    {v : PyValue} : (∃ value, memberOf values message v = .ok value) ↔ Fits (oneOf values) v := by
  rw [oneOf_fits hvalues]
  constructor
  · rintro ⟨value, h⟩
    have hverdict := memberOf_verdict values message v
    rw [h] at hverdict
    cases hverdict with
    | passed value bound safe => exact ⟨value, bound⟩
  · rintro ⟨s, rfl, hs⟩
    exact ⟨s, if_pos hs⟩

theorem tag_ok {v : PyValue} : (∃ tag, toolTag v = some tag) ↔ Fits (boundedText MAX_TAG_LENGTH) v := by
  rw [boundedText_fits]
  cases v with
  | str s =>
    unfold toolTag
    dsimp only
    split_ifs with hbad
    · refine iff_of_false (fun ⟨_, h⟩ => by cases h) ?_
      rintro ⟨t, ht, hblank, hlong⟩
      cases ht
      exact hbad.elim hblank (Nat.not_lt.mpr hlong)
    · rw [not_or, Nat.not_lt] at hbad
      exact iff_of_true ⟨_, rfl⟩ ⟨s, rfl, hbad⟩
  | _ => simp [toolTag]

theorem mapM_isSome {α β : Type} {f : α → Option β} {l : List α} :
    (∃ out, l.mapM f = some out) ↔ ∀ a ∈ l, ∃ b, f a = some b := by
  induction l with
  | nil => simp
  | cons a l ih =>
    rw [List.forall_mem_cons, ← ih]
    simp only [List.mapM_cons, Option.bind_eq_bind, Option.bind_eq_some_iff, Option.pure_def, Option.some.injEq]
    constructor
    · rintro ⟨out, b, hb, bs, hbs, -⟩
      exact ⟨⟨b, hb⟩, bs, hbs⟩
    · rintro ⟨⟨b, hb⟩, bs, hbs⟩
      exact ⟨_, b, hb, bs, hbs, rfl⟩

theorem tags_ok {v : PyValue} : (∃ tags, toolTags v = .ok tags) ↔
    Fits (.array (some MAX_TAGS) (boundedText MAX_TAG_LENGTH)) v := by
  cases v with
  | list xs =>
    have hfits : Fits (.array (some MAX_TAGS) (boundedText MAX_TAG_LENGTH)) (.list xs) ↔
        xs.length ≤ MAX_TAGS ∧ ∀ x ∈ xs, Fits (boundedText MAX_TAG_LENGTH) x := by
      have hitem (x : PyValue) : Fits (boundedText MAX_TAG_LENGTH) x ↔
          (boundedText MAX_TAG_LENGTH).accepts x = true ∧ blankText x = false := by
        cases x with
        | list _ => exact iff_of_false (fun h => by cases h.1) (fun h => by cases h.1)
        | _ => exact Iff.rfl
      simp only [hitem]
      simp only [Fits, ValueSchema.accepts, blank, Option.all_some, Bool.and_eq_true, decide_eq_true_eq,
        List.all_eq_true, List.any_eq_false, Bool.not_eq_true, forall_and, and_assoc]
    simp only [hfits, ← tag_ok, ← mapM_isSome, toolTags]
    split_ifs with hmany
    · refine iff_of_false ?_ fun h => absurd h.1 (Nat.not_le.mpr hmany)
      rintro ⟨_, h⟩
      cases h
    · rw [and_iff_right (Nat.le_of_not_lt hmany)]
      cases xs.mapM toolTag <;> simp
  | _ =>
    refine iff_of_false ?_ fun h => by cases h.1
    rintro ⟨_, h⟩
    cases h

theorem sorted_fits {values : List String} {v : PyValue} :
    Fits (oneOf (sortedTexts values)) v ↔ Fits (oneOf values) v := by
  have hmem (s : String) : s ∈ sortedTexts values ↔ s ∈ values := List.mem_insertionSort _
  cases v with
  | str s => simp only [Fits, oneOf, ValueSchema.accepts, Option.all_some, hmem]
  | _ => exact Iff.rfl

theorem apply_ok {v : PyValue} : (∃ apply, v = .bool apply) ↔ Fits (.boolean (some false)) v := by
  cases v <;> simp [Fits, ValueSchema.accepts, blank, blankText]

/-- What a schema says of one of its properties, without the blank texts. -/
def Good (o : ObjectSchema) (args : JSONObject) (p : String × ValueSchema) : Prop :=
  o.Holds p ((PyValue.lookup p.1 args).filter (keeps p.1)) ∧
    ∀ v, (PyValue.lookup p.1 args).filter (keeps p.1) = some v → blank v = false

section Properties
variable {o : ObjectSchema} {schema : ValueSchema}

theorem good_iff : Good o args (key, schema) ↔
    match (PyValue.lookup key args).filter (keeps key) with
    | some v => Fits schema v
    | none => key ∉ o.required := by
  unfold Good
  dsimp only
  cases (PyValue.lookup key args).filter (keeps key) with
  | some v => simp [ObjectSchema.Holds, Fits]
  | none => simp [ObjectSchema.Holds]

theorem good_required (hkey : key ∉ OPTIONAL_TEXTS) (hrequired : key ∈ o.required) :
    Good o args (key, schema) ↔ ∃ v, PyValue.lookup key args = some v ∧ Fits schema v := by
  rw [good_iff, keeps_eq hkey]
  cases PyValue.lookup key args with
  | some v => simp
  | none => simp [hrequired]

theorem good_default (default : PyValue) (hkey : key ∉ OPTIONAL_TEXTS) (hrequired : key ∉ o.required)
    (hdefault : Fits schema default) :
    Good o args (key, schema) ↔ Fits schema ((PyValue.lookup key args).getD default) := by
  rw [good_iff, keeps_eq hkey]
  cases PyValue.lookup key args with
  | some v => simp
  | none => simp [hrequired, hdefault]

theorem good_optional (hkey : key ∈ OPTIONAL_TEXTS) (hrequired : key ∉ o.required) :
    Good o args (key, boundedText maximum) ↔ ∃ result, optionalToolString args key maximum = .ok result := by
  rw [good_iff]
  simp only [optional_ok hkey]
  cases (PyValue.lookup key args).filter (keeps key) with
  | none => exact iff_of_true hrequired ⟨none, rfl, fun _ h => by cases h⟩
  | some v =>
    constructor
    · intro h
      obtain ⟨s, rfl, -⟩ := boundedText_fits.mp h
      exact ⟨some s, rfl, fun t ht => by cases ht; exact h⟩
    · rintro ⟨result, hresult, h⟩
      cases result with
      | none => cases hresult
      | some s =>
        cases hresult
        exact h s rfl

end Properties

end Fields

theorem accepts_good {t : Tool} {args : JSONObject} :
    (t.schema.parameters.accepts (t.given args) = true ∧ ∀ e ∈ t.given args, blank e.2 = false) ↔
      ∀ p ∈ t.schema.parameters.properties, Good t.schema.parameters args p := by
  have hnames : t.schema.parameters.names.Nodup := by cases t <;> decide
  have hrequired : ∀ k ∈ t.schema.parameters.required, k ∈ t.schema.parameters.names := by
    cases t <;> decide
  unfold Tool.given
  rw [ObjectSchema.accepts_declared hnames hrequired, ObjectSchema.forall_declared (P := fun v => blank v = false)]
  exact ⟨fun h p hp => ⟨h.1 p hp, h.2 p hp⟩, fun h => ⟨fun p hp => (h p hp).1, fun p hp => (h p hp).2⟩⟩

/-! ### Parsers -/

theorem ok_bind {α β : Type} {x : Except ToolError α} {f : α → Except ToolError β} {Q : Prop}
    (h : ∀ a, x = .ok a → ((∃ b, f a = .ok b) ↔ Q)) :
    (∃ b, (x >>= f) = .ok b) ↔ (∃ a, x = .ok a) ∧ Q := by
  cases x with
  | error e => exact iff_of_false (fun ⟨_, hb⟩ => by cases hb) (fun ⟨⟨_, ha⟩, _⟩ => by cases ha)
  | ok a =>
    rw [and_iff_right ⟨a, rfl⟩]
    exact h a rfl

theorem ok_pure {β : Type} (b : β) : (∃ b', (pure b : Except ToolError β) = .ok b') ↔ True :=
  iff_true_intro ⟨b, rfl⟩

section Parsers
variable {args : JSONObject}

theorem layers_fit : ∀ s ∈ RECALL_LAYERS, strip s ≠ "" := by decide

theorem intents_fit : ∀ s ∈ RECALL_INTENTS, strip s ≠ "" := by decide

theorem kinds_fit : ∀ s ∈ REMEMBER_KINDS, strip s ≠ "" := by decide

theorem actions_fit : ∀ s ∈ CORRECTION_ACTIONS.map Prod.fst, strip s ≠ "" := by decide

theorem recall_ok : (∃ parsed, RecallToolArgs.parse args = .ok parsed) ↔
    ∀ p ∈ recallSchema.parameters.properties, Good recallSchema.parameters args p := by
  unfold RecallToolArgs.parse
  simp only [recallSchema, List.forall_mem_cons, List.not_mem_nil, false_imp_iff, implies_true, and_true]
  rw [good_required (by decide) (by decide),
    good_default (.str "recall") (by decide) (by decide) (by decide),
    good_default (.str "general") (by decide) (by decide) (by decide),
    ok_bind fun query _ => ok_bind fun layer _ => (ok_bind fun intent _ => ok_pure _), and_true, required_ok,
    member_ok layers_fit, member_ok intents_fit]
  rfl

theorem remember_ok : (∃ parsed, RememberToolArgs.parse args = .ok parsed) ↔
    ∀ p ∈ rememberSchema.parameters.properties, Good rememberSchema.parameters args p := by
  have hkind : Fits (oneOf REMEMBER_KINDS) (Schema.get args "kind") ↔
      ∃ v, PyValue.lookup "kind" args = some v ∧ Fits (oneOf (sortedTexts REMEMBER_KINDS)) v := by
    unfold Schema.get
    cases PyValue.lookup "kind" args with
    | none => exact iff_of_false (fun h => by cases h.1) (by simp)
    | some v => simp [sorted_fits]
  unfold RememberToolArgs.parse
  simp only [rememberSchema, List.forall_mem_cons, List.not_mem_nil, false_imp_iff, implies_true, and_true]
  rw [good_required (by decide) (by decide), good_required (by decide) (by decide),
    good_required (by decide) (by decide), good_default (.list []) (by decide) (by decide) (by decide),
    ok_bind fun title _ => ok_bind fun content _ => ok_bind fun kind _ => (ok_bind fun tags _ => ok_pure _),
    and_true, required_ok, required_ok, member_ok kinds_fit, tags_ok, hkind]

theorem action_ok {action : String × String} (h : correctionAction args = .ok action) :
    PyValue.lookup "action" args = some (.str action.1) := by
  unfold correctionAction at h
  split at h
  · rename_i text hget
    cases hfind : CORRECTION_ACTIONS.find? fun entry => entry.1 = text with
    | none =>
      rw [hfind] at h
      cases h
    | some entry =>
      rw [hfind] at h
      cases h
      have hname := List.find?_some hfind
      rw [decide_eq_true_eq] at hname
      rw [hname]
      exact get_str.mp hget
  all_goals cases h

theorem correctionAction_ok : (∃ action, correctionAction args = .ok action) ↔
    ∃ v, PyValue.lookup "action" args = some v ∧ Fits (oneOf (CORRECTION_ACTIONS.map Prod.fst)) v := by
  constructor
  · rintro ⟨action, h⟩
    refine ⟨_, action_ok h, (oneOf_fits actions_fit).mpr ⟨action.1, rfl, ?_⟩⟩
    unfold correctionAction at h
    split at h
    · rename_i text hget
      cases hfind : CORRECTION_ACTIONS.find? fun entry => entry.1 = text with
      | none =>
        rw [hfind] at h
        cases h
      | some entry =>
        rw [hfind] at h
        cases h
        exact List.mem_map_of_mem (List.mem_of_find?_eq_some hfind)
    all_goals cases h
  · rintro ⟨v, hlookup, hfits⟩
    obtain ⟨s, rfl, hs⟩ := (oneOf_fits actions_fit).mp hfits
    obtain ⟨entry, hentry, rfl⟩ := List.mem_map.mp hs
    unfold correctionAction
    rw [get_str.mpr hlookup]
    dsimp only
    cases hfind : CORRECTION_ACTIONS.find? fun e => e.1 = entry.1 with
    | none => exact absurd (decide_eq_true rfl) (List.find?_eq_none.mp hfind entry hentry)
    | some found => exact ⟨found, rfl⟩

/-- What the fields of a correction need of each other. -/
theorem companioned_iff {action : String} {revised replacement duplicate : Option String}
    (haction : PyValue.lookup "action" args = some (.str action))
    (hrevised : optionalToolString args "revised_content" 500000 = .ok revised)
    (hreplacement : optionalToolString args "replacement_source_id" 500 = .ok replacement)
    (hduplicate : optionalToolString args "duplicate_of_source_id" 500 = .ok duplicate) :
    Companioned (Tool.correct.given args) ↔ ¬ (action = "revise" ∧ revised = none) ∧
      ¬ (action = "superseded" ∧ replacement = none) ∧ ¬ (action = "duplicate" ∧ duplicate = none) := by
  have hgiven {p : String × ValueSchema} (hp : p ∈ correctSchema.parameters.properties) :
      PyValue.lookup p.1 (Tool.correct.given args) = (PyValue.lookup p.1 args).filter (keeps p.1) :=
    ObjectSchema.lookup_declared (by decide) hp
  have h₀ : PyValue.lookup "action" (Tool.correct.given args) = some (.str action) :=
    (hgiven (.tail _ (.head _))).trans ((keeps_eq (by decide)).trans haction)
  have h₁ : PyValue.lookup "revised_content" (Tool.correct.given args) = revised.map .str :=
    (hgiven (.tail _ (.tail _ (.tail _ (.head _))))).trans ((optional_ok (by decide)).mp hrevised).1
  have h₂ : PyValue.lookup "replacement_source_id" (Tool.correct.given args) = replacement.map .str :=
    (hgiven (.tail _ (.tail _ (.tail _ (.tail _ (.head _)))))).trans
      ((optional_ok (by decide)).mp hreplacement).1
  have h₃ : PyValue.lookup "duplicate_of_source_id" (Tool.correct.given args) = duplicate.map .str :=
    (hgiven (.tail _ (.tail _ (.tail _ (.tail _ (.tail _ (.head _))))))).trans
      ((optional_ok (by decide)).mp hduplicate).1
  have hfield : Companioned (Tool.correct.given args) ↔ ∀ field, companion action = some field →
      (PyValue.lookup field (Tool.correct.given args)).isSome = true := by
    refine ⟨fun h field => h action field h₀, fun h action' field h' => ?_⟩
    cases h₀.symm.trans h'
    exact h field
  rw [hfield]
  unfold companion
  split_ifs with hrevise hsuperseded hdup
  · subst hrevise
    simp [h₁, Option.isSome_iff_ne_none]
  · subst hsuperseded
    simp [h₂, Option.isSome_iff_ne_none]
  · subst hdup
    simp [h₃, Option.isSome_iff_ne_none]
  · simp [hrevise, hsuperseded, hdup]

theorem correct_ok : (∃ parsed, CorrectionToolArgs.parse args = .ok parsed) ↔
    (∀ p ∈ correctSchema.parameters.properties, Good correctSchema.parameters args p) ∧
      Companioned (Tool.correct.given args) := by
  have hparse : (∃ parsed, CorrectionToolArgs.parse args = .ok parsed) ↔
      (∃ value, requiredToolString args "source_id" 1000 = .ok value) ∧
      (∃ value, requiredToolString args "reason" 2000 = .ok value) ∧
      (∃ action, correctionAction args = .ok action) ∧
      (∃ result, optionalToolString args "revised_content" 500000 = .ok result) ∧
      (∃ result, optionalToolString args "replacement_source_id" 500 = .ok result) ∧
      (∃ result, optionalToolString args "duplicate_of_source_id" 500 = .ok result) ∧
      Fits (.boolean (some false)) ((PyValue.lookup "apply" args).getD (.bool false)) ∧
      Companioned (Tool.correct.given args) := by
    unfold CorrectionToolArgs.parse
    refine ok_bind fun sourceId _ => ok_bind fun reason _ => ok_bind fun action haction => ?_
    obtain ⟨action, apiAction⟩ := action
    refine ok_bind fun revised hrevised => ok_bind fun replacement hreplacement =>
      ok_bind fun duplicate hduplicate => ?_
    rw [companioned_iff (action_ok haction) hrevised hreplacement hduplicate, ← apply_ok]
    cases (PyValue.lookup "apply" args).getD (.bool false) with
    | bool apply =>
      simp only [Outbox.guard_ok, exists_and_left, PyValue.bool.injEq, exists_eq', true_and]
      exact ⟨fun h => ⟨h.1, h.2.1, h.2.2.1⟩, fun h => ⟨h.1, h.2.1, h.2.2, _, rfl⟩⟩
    | _ => exact iff_of_false (fun ⟨_, h⟩ => by cases h) (fun ⟨⟨_, h⟩, _⟩ => by cases h)
  rw [hparse]
  simp only [correctSchema, List.forall_mem_cons, List.not_mem_nil, false_imp_iff, implies_true, and_true]
  rw [good_required (by decide) (by decide), good_required (by decide) (by decide),
    good_required (by decide) (by decide), good_optional (by decide) (by decide),
    good_optional (by decide) (by decide), good_optional (by decide) (by decide),
    good_default (.bool false) (by decide) (by decide) (by decide), required_ok, required_ok,
    correctionAction_ok]
  simp only [sorted_fits]
  -- the parser reads the reason before the action
  constructor
  · rintro ⟨hsource, hreason, haction, hrevised, hreplacement, hduplicate, happly, hcompanion⟩
    exact ⟨⟨hsource, haction, hreason, hrevised, hreplacement, hduplicate, happly⟩, hcompanion⟩
  · rintro ⟨⟨hsource, haction, hreason, hrevised, hreplacement, hduplicate, happly⟩, hcompanion⟩
    exact ⟨hsource, hreason, haction, hrevised, hreplacement, hduplicate, happly, hcompanion⟩

end Parsers

theorem companioned_without {t : Tool} {args : JSONObject} (h : "action" ∉ t.schema.parameters.names) :
    Companioned (t.given args) := by
  intro action field haction
  have hnone : PyValue.lookup "action" (t.given args) = none :=
    ObjectSchema.lookup_absent fun e he heq => h (heq ▸ ObjectSchema.declared_names he)
  cases hnone.symm.trans haction

theorem map_ok {α β : Type} {x : Except ToolError α} {f : α → β} :
    (∃ b, x.map f = .ok b) ↔ ∃ a, x = .ok a := by
  cases x <;> simp [Except.map]

theorem parse_ok (t : Tool) (args : JSONObject) : (∃ parsed, t.parse args = .ok parsed) ↔
    (∀ p ∈ t.schema.parameters.properties, Good t.schema.parameters args p) ∧ Companioned (t.given args) := by
  cases t with
  | «recall» =>
    have hcompanion : Companioned (Tool.recall.given args) := companioned_without (by decide)
    rw [and_iff_left hcompanion, Tool.parse, map_ok, recall_ok]
    rfl
  | remember =>
    have hcompanion : Companioned (Tool.remember.given args) := companioned_without (by decide)
    rw [and_iff_left hcompanion, Tool.parse, map_ok, remember_ok]
    rfl
  | correct =>
    rw [Tool.parse, map_ok, correct_ok]
    rfl

theorem schema_name (tool : Tool) : tool.schema.name = tool.name := by
  cases tool <;> rfl

theorem ofName_iff {name : String} {tool : Tool} :
    Tool.ofName name = some tool ↔ tool.schema.name = name := by
  rw [schema_name]
  constructor
  · intro h
    unfold Tool.ofName at h
    split_ifs at h with hrecall hremember hcorrect
    · cases h
      exact hrecall.symm
    · cases h
      exact hremember.symm
    · cases h
      exact hcorrect.symm
  · rintro rfl
    exact ofName_name tool

theorem advertised_iff {schema : ToolSchema} :
    schema ∈ TOOL_SCHEMAS ↔ ∃ tool : Tool, tool.schema = schema := by
  simp only [TOOL_SCHEMAS, List.mem_cons, List.not_mem_nil, or_false]
  constructor
  · rintro (rfl | rfl | rfl)
    · exact ⟨.recall, rfl⟩
    · exact ⟨.remember, rfl⟩
    · exact ⟨.correct, rfl⟩
  · rintro ⟨tool, rfl⟩
    cases tool
    · exact .inl rfl
    · exact .inr (.inl rfl)
    · exact .inr (.inr rfl)

/-- A call is dispatched by its name alone. -/
theorem ofName_advertised (name : String) :
    (∃ tool, Tool.ofName name = some tool) ↔ ∃ schema ∈ TOOL_SCHEMAS, schema.name = name := by
  simp only [ofName_iff, advertised_iff]
  constructor
  · rintro ⟨tool, h⟩
    exact ⟨tool.schema, ⟨tool, rfl⟩, h⟩
  · rintro ⟨_, ⟨tool, rfl⟩, h⟩
    exact ⟨tool, h⟩

section Calls
variable {name : String} {args : JSONObject} (host : Host) (rt : Runtime) (w : ToolCircumstances)
  (s : ToolState)

theorem handleToolCall_unknown (h : Tool.ofName name = none) :
    handleToolCall host rt w name args s = (.ok (invalidArguments ("Unknown Sibyl tool: " ++ name)), s) := by
  unfold handleToolCall callTool
  rw [h]
  rfl

theorem handleToolCall_parsed {tool : Tool} {parsed : ToolArguments} (h : Tool.ofName name = some tool)
    (hparse : tool.parse args = .ok parsed) : handleToolCall host rt w name args s =
      (toolReply ((parsed.exec host rt w).run s).1, ((parsed.exec host rt w).run s).2) := by
  unfold handleToolCall callTool
  rw [h]
  dsimp only
  rw [hparse]
  rfl

end Calls

/-- A model is told of the tools that can be called, and of the arguments that their parsers take:
those that fit the schema, leaving out what is not declared and null under an optional text, without
a blank text and with the field that the action needs. With the tools switched off it is told of none,
and a call runs all the same. -/
theorem advertised_arguments (config : ProviderConfig) (name : String) (args : JSONObject) :
    (if config.manualTools then
        (∃ tool, Tool.ofName name = some tool) ↔ ∃ schema ∈ getToolSchemas config, schema.name = name
      else getToolSchemas config = []) ∧
    (Tool.ofName name = none → ∀ host rt w s, handleToolCall host rt w name args s =
      (.ok (invalidArguments ("Unknown Sibyl tool: " ++ name)), s)) ∧
    ∀ tool, Tool.ofName name = some tool →
      tool.schema.name = name ∧ (tool.schema ∈ getToolSchemas config ↔ config.manualTools = true) ∧
      ((∃ parsed, tool.parse args = .ok parsed) ↔
        tool.schema.parameters.accepts (tool.given args) = true ∧
          (∀ e ∈ tool.given args, blank e.2 = false) ∧ Companioned (tool.given args)) ∧
      ∀ parsed, tool.parse args = .ok parsed → ∀ host rt w s, handleToolCall host rt w name args s =
        (toolReply ((parsed.exec host rt w).run s).1, ((parsed.exec host rt w).run s).2) := by
  refine ⟨?_, fun h host rt w s => handleToolCall_unknown host rt w s h, fun tool htool =>
    ⟨ofName_iff.mp htool, ?_, ?_, ?_⟩⟩
  · unfold getToolSchemas
    cases config.manualTools with
    | true => exact ofName_advertised name
    | false => rfl
  · unfold getToolSchemas
    cases config.manualTools with
    | true => exact iff_of_true (advertised_iff.mpr ⟨tool, rfl⟩) rfl
    | false => simp
  · rw [parse_ok, ← accepts_good, and_assoc]
  · intro parsed hparse host rt w s
    exact handleToolCall_parsed host rt w s htool hparse

def sampleRevision : JSONObject :=
  [("source_id", .str "s"), ("action", .str "revise"), ("reason", .str "outdated"), ("note", .int 1)]

/-- A revision without its text fits the advertised schema and is refused. -/
theorem advertised_arguments_sample : correctSchema ∈ getToolSchemas {} ∧
    correctSchema.parameters.accepts (Tool.correct.given sampleRevision) = true ∧
    ¬ ∃ parsed, Tool.correct.parse sampleRevision = .ok parsed := by
  obtain ⟨-, hadvertised, hparse, -⟩ :=
    (advertised_arguments {} "sibyl_correct" sampleRevision).2.2 .correct rfl
  refine ⟨hadvertised.mpr rfl, by decide, fun h => ?_⟩
  obtain ⟨-, -, hcompanion⟩ := hparse.mp h
  exact absurd (hcompanion "revise" "revised_content" rfl rfl) (by decide)

end SibylMemory
