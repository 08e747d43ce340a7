import SibylMemory.Operations

/-!
# Arguments of the tools (`provider_tools.py:31-181`)
-/

namespace SibylMemory
open Text

/-- What a tool's `parse` raises: a `ToolValidationError` with its message, or an exception of
Python by its class name. -/
inductive ToolError where
  | validation (message : String)
  | other (className : String)
  deriving DecidableEq

def CORRECTION_ACTIONS : List (String × String) :=
  [("wrong", "mark_wrong"), ("stale", "mark_stale"), ("duplicate", "mark_duplicate"),
    ("superseded", "supersede"), ("revise", "revise"), ("sensitive", "mark_sensitive"),
    ("hide", "hide"), ("restore", "restore")]

def exceeds (key : String) (maximum : Nat) : ToolError :=
  .validation (key ++ " exceeds " ++ toString maximum ++ " characters")

def requiredToolString (args : JSONObject) (key : String) (maximum : Nat) : Except ToolError String :=
  match Schema.get args key with
  | .str value =>
    if strip value = "" then .error (.validation (key ++ " is required"))
    else if maximum < value.length then .error (exceeds key maximum)
    else .ok value
  | _ => .error (.validation (key ++ " is required"))

def optionalToolString (args : JSONObject) (key : String) (maximum : Nat) :
    Except ToolError (Option String) :=
  match Schema.get args key with
  | .none => .ok none
  | .str value =>
    if strip value = "" then .error (.validation (key ++ " must be a non-empty string"))
    else if maximum < value.length then .error (exceeds key maximum)
    else .ok (some value)
  | _ => .error (.validation (key ++ " must be a non-empty string"))

/-! ### Recall and remember (`provider_tools.py:84-133`) -/

def RECALL_LAYERS : List String := ["recall", "deep_search"]

def RECALL_INTENTS : List String :=
  ["general", "build", "plan", "research", "debug", "decide", "learn"]

def REMEMBER_KINDS : List String :=
  ["episode", "decision", "plan", "idea", "claim", "artifact", "procedure", "error_pattern",
    "session"]

def MAX_TAGS : Nat := 32
def MAX_TAG_LENGTH : Nat := 100

/-- `value not in values` for a set of texts; a list or a mapping has no hash. -/
def memberOf (values : List String) (message : String) : PyValue → Except ToolError String
  | .str value => if value ∈ values then .ok value else .error (.validation message)
  | .list _ => .error (.other "TypeError")
  | .dict _ => .error (.other "TypeError")
  | _ => .error (.validation message)

/-- `args.get(key, default)` -/
def argument (args : JSONObject) (key default : String) : PyValue :=
  (PyValue.lookup key args).getD (.str default)

structure RecallToolArgs where
  query : String
  layer : String
  intent : String

def RecallToolArgs.parse (args : JSONObject) : Except ToolError RecallToolArgs := do
  let query ← requiredToolString args "query" 8000
  let layer ← memberOf RECALL_LAYERS "layer must be recall or deep_search"
    (argument args "layer" "recall")
  let intent ← memberOf RECALL_INTENTS "intent is unsupported" (argument args "intent" "general")
  return { query, layer, intent }

/-- A tag without the space around it; the length is that of the text as it was given. -/
def toolTag : PyValue → Option String
  | .str tag => if strip tag = "" ∨ MAX_TAG_LENGTH < tag.length then none else some (strip tag)
  | _ => none

def toolTags : PyValue → Except ToolError (List String)
  | .list rawTags =>
    if MAX_TAGS < rawTags.length then
      .error (.validation "tags must be an array with at most 32 items")
    else
      match rawTags.mapM toolTag with
      | none => .error (.validation "tags must contain non-empty strings up to 100 characters")
      | some tags => .ok tags.eraseDups
  | _ => .error (.validation "tags must be an array with at most 32 items")

def RememberToolArgs.parse (args : JSONObject) : Except ToolError RememberToolArgs := do
  let title ← requiredToolString args "title" 300
  let content ← requiredToolString args "content" 500000
  let kind ← memberOf REMEMBER_KINDS "kind is unsupported" (Schema.get args "kind")
  let tags ← toolTags ((PyValue.lookup "tags" args).getD (.list []))
  return { title, content, kind, tags }

/-! ### Corrections (`provider_tools.py:136-181`) -/

/-- `action not in CORRECTION_ACTIONS` and the lookup of `_tool_correct`; a list or a mapping has no
hash. -/
def correctionAction (args : JSONObject) : Except ToolError (String × String) :=
  match Schema.get args "action" with
  | .str action =>
    match CORRECTION_ACTIONS.find? fun entry => entry.1 = action with
    | some entry => .ok entry
    | none => .error (.validation "action is unsupported")
  | .list _ => .error (.other "TypeError")
  | .dict _ => .error (.other "TypeError")
  | _ => .error (.validation "action is unsupported")

/-- `CorrectionToolArgs.parse`, with `apply`. -/
def CorrectionToolArgs.parse (args : JSONObject) : Except ToolError (CorrectionToolArgs × Bool) := do
  let sourceId ← requiredToolString args "source_id" 1000
  let reason ← requiredToolString args "reason" 2000
  let (action, apiAction) ← correctionAction args
  let revisedContent ← optionalToolString args "revised_content" 500000
  let replacementSourceId ← optionalToolString args "replacement_source_id" 500
  let duplicateOfSourceId ← optionalToolString args "duplicate_of_source_id" 500
  match (PyValue.lookup "apply" args).getD (.bool false) with
  | .bool apply =>
    if action = "revise" ∧ revisedContent = none then
      throw (.validation "revised_content is required for revise")
    if action = "superseded" ∧ replacementSourceId = none then
      throw (.validation "replacement_source_id is required for superseded")
    if action = "duplicate" ∧ duplicateOfSourceId = none then
      throw (.validation "duplicate_of_source_id is required for duplicate")
    return ({ sourceId, apiAction, reason, revisedContent, replacementSourceId, duplicateOfSourceId },
      apply)
  | _ => throw (.validation "apply must be a boolean")

theorem requiredToolString_ok {args : JSONObject} {key : String} {maximum : Nat} {value : String}
    (h : requiredToolString args key maximum = .ok value) :
    Schema.get args key = .str value ∧ strip value ≠ "" ∧ value.length ≤ maximum := by
  unfold requiredToolString at h
  split at h
  · rename_i text hget
    split_ifs at h with hblank hlong
    cases h
    exact ⟨hget, hblank, Nat.le_of_not_lt hlong⟩
  · cases h

theorem parse_source {args : JSONObject} {parsed : CorrectionToolArgs} {apply : Bool}
    (h : CorrectionToolArgs.parse args = .ok (parsed, apply)) :
    Schema.get args "source_id" = .str parsed.sourceId ∧ strip parsed.sourceId ≠ "" ∧
      parsed.sourceId.length ≤ 1000 := by
  unfold CorrectionToolArgs.parse at h
  simp only [Outbox.bind_ok] at h
  obtain ⟨sourceId, hsource, reason, -, action, -, revised, -, replacement, -, duplicate, -, h⟩ := h
  split at h
  · simp only [Outbox.guard_ok] at h
    cases h.2.2.2
    exact requiredToolString_ok hsource
  · cases h

def hideArgs (sourceId : String) : JSONObject :=
  [("source_id", .str sourceId), ("action", .str "hide"), ("reason", .str "outdated")]

theorem parse_hideArgs {sourceId : String} (hblank : strip sourceId ≠ "")
    (hlong : sourceId.length ≤ 1000) :
    ∃ parsed, CorrectionToolArgs.parse (hideArgs sourceId) = .ok (parsed, false) ∧
      parsed.sourceId = sourceId := by
  have hsource : requiredToolString (hideArgs sourceId) "source_id" 1000 = .ok sourceId := by
    have hget : Schema.get (hideArgs sourceId) "source_id" = .str sourceId := rfl
    rw [requiredToolString, hget]
    dsimp only
    rw [if_neg hblank, if_neg (Nat.not_lt.mpr hlong)]
  refine ⟨{ sourceId, apiAction := "hide", reason := "outdated" }, ?_, rfl⟩
  rw [CorrectionToolArgs.parse, hsource]
  rfl

end SibylMemory
