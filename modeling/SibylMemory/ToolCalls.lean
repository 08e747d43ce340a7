import SibylMemory.Configuration
import SibylMemory.ContextPack
import SibylMemory.Credentials
import SibylMemory.Execute
import SibylMemory.Exposures
import SibylMemory.Library.Trim
import SibylMemory.ToolArgs

/-!
# Tool calls (`runtime.py:220-246`, `385-531`)

A tool parses its arguments before it does anything. What it does is kept as a state: the requests
that were sent, the outbox, and the flushes that were submitted.
-/

namespace SibylMemory
open Outbox Text

/-! ### The tools -/

/-- A `ToolValidationError`, an error of the client, or another exception. -/
inductive ToolException where
  | validation (message : String)
  | client (error : ClientError)
  | raised (e : Raised)

structure ToolState where
  credentialSafe : Option Bool
  requests : List WireRequest
  store : Store
  submitted : Nat

abbrev ToolM := ExceptT ToolException (StateM ToolState)

/-- What a call finds around it: Sibyl, the clock, and the faults of the outbox and the executor. -/
structure ToolCircumstances where
  config : ProviderConfig
  callContext : JSONObject
  net : WireRequest → Exchange
  requestId : String
  outbox : Circumstances

namespace ToolM

def raise {α : Type} (e : ToolException) : ToolM α := throw e

/-- A request is sent, and the client makes of the answer what it makes of it. -/
def send {α : Type} (wire : WireRequest) (outcome : Except ClientError α) : ToolM α := do
  modify fun s => { s with requests := s.requests ++ [wire] }
  match outcome with
  | .ok a => return a
  | .error e => raise (.client e)

def outbox {α : Type} (method : Store → Except Raised α × Store) : ToolM α := do
  let (out, store) := method (← get).store
  modify fun s => { s with store }
  match out with
  | .ok a => return a
  | .error e => raise (.raised e)

def submit (fault : Option Raised) : ToolM Unit :=
  match fault with
  | none => modify fun s => { s with submitted := s.submitted + 1 }
  | some e => raise (.raised e)

end ToolM

section Tools
variable (host : Host) (rt : Runtime) (w : ToolCircumstances)

def probeWire : WireRequest := ⟨"GET", "auth/me", [], none⟩

def ensureCredentialSafe : ToolM Unit := do
  match (← get).credentialSafe with
  | some true => return
  | some false => ToolM.raise (.raised (.exception "RuntimeError"))
  | none =>
    let response ← ToolM.send probeWire (authMe host (w.net probeWire) w.requestId)
    let safe := decide (credentialFailures response.credential rt.context.requirement = [])
    modify fun s => { s with credentialSafe := some safe }
    if !safe then ToolM.raise (.raised (.exception "UnsafeCredentialError"))

def toolRecallRequest (args : RecallToolArgs) : ContextPackRequest where
  goal := args.query
  project := rt.context.projectId
  agentId := rt.context.agentId
  intent := args.intent
  layer := args.layer
  limit := w.config.contextLimit
  relatedLimit := w.config.contextRelatedLimit
  markdownTokenBudget := 2000

def toolRecall (args : RecallToolArgs) : ToolM JSONObject := do
  ensureCredentialSafe host rt w
  let request := toolRecallRequest rt w args
  let response ← ToolM.send (contextPackWire request) (contextPack host w.net w.requestId request)
  let result : RecallResult :=
    { markdown := response.markdown.getD "", renderedItemIds := response.renderedItemIds.map JsonText.points,
      totalItems := response.totalItems }
  ToolM.outbox fun s =>
    let recording := recordDelivery host rt.context rt.sessionId (queryDigest host args.query) result
      false { w.outbox with submitFault := none } s
    (recording.reply, recording.after)
  if result.renderedItemIds ≠ [] then ToolM.submit w.outbox.submitFault
  return [("markdown", .str result.markdown), ("item_ids", .list (response.renderedItemIds.map .str)),
    ("item_count", .int result.totalItems), ("usage_hint", .str response.usageHint)]

/-- `tool_call_id` of the call, or a number reserved for it. -/
def callIdentity (purpose : String) : ToolM String := do
  let given := Schema.get w.callContext "tool_call_id"
  let identity := if truthy given then strip (host.str given) else ""
  if identity = "" then
    let sequence ← ToolM.outbox (faulty w.outbox.reserveFault
      (reserveSequence (rt.sessionId ++ purpose) "" w.outbox.reservedAt))
    return toString sequence
  else return identity

def enqueueTool (operation : NewOperation) : ToolM Unit := do
  let _ ← ToolM.outbox (faulty w.outbox.enqueueFault (enqueue host operation w.outbox.enqueuedAt))
  ToolM.submit w.outbox.submitFault

def toolRemember (args : RememberToolArgs) : ToolM JSONObject := do
  let identity ← callIdentity host rt w ":manual"
  let contentHash := host.sha256 args.content
  match rememberOperation host rt.context rt.sessionId identity args with
  | .error className => ToolM.raise (.raised (.exception className))
  | .ok operation =>
    enqueueTool host w operation
    return [("queued", .bool true), ("operation_id", .str operation.operationId),
      ("source_id", .str (rememberRequest rt.context rt.sessionId identity contentHash
        operation.operationId args).sourceId)]

def CorrectionToolArgs.request (args : CorrectionToolArgs) : CorrectionRequest where
  action := .str args.apiAction
  reason := args.reason
  revisedContent := args.revisedContent.map .str
  replacementSourceId := args.replacementSourceId.map .str
  duplicateOfSourceId := args.duplicateOfSourceId.map .str
  metadata := .dict []

def previewResult (preview : CorrectionResponse) : JSONObject :=
  [("allowed", .bool preview.allowed), ("source_id", .str preview.sourceId),
    ("action", .str preview.action), ("target_lifecycle_state", .str preview.targetLifecycleState),
    ("current_revision", (preview.currentRevision.map PyValue.int).getD .none),
    ("policy_reasons", .list (preview.policyReasons.map .str))]

def toolCorrect (args : CorrectionToolArgs) (apply : Bool) : ToolM JSONObject := do
  ensureCredentialSafe host rt w
  match Attempt.wire "" (.preview args.sourceId args.request) with
  | .error e => ToolM.raise (.client e)
  | .ok wire =>
    let preview ← ToolM.send wire
      (request host w.net w.requestId wire CorrectionResponse.fromJson fun _ => .ok ())
    let result := PyValue.dict (previewResult preview)
    if !apply || !preview.allowed then return [("preview", result), ("queued", .bool false)]
    match preview.currentRevision with
    | none => ToolM.raise (.validation "correction preview omitted current_revision")
    | some currentRevision =>
      let identity ← callIdentity host rt w ":correction"
      let operation := correctOperation host rt.context rt.sessionId identity args currentRevision
      enqueueTool host w operation
      return [("preview", result), ("queued", .bool true),
        ("operation_id", .str operation.operationId)]

end Tools

/-! ### Calls -/

inductive Tool where
  | recall
  | remember
  | correct
  deriving DecidableEq

def Tool.name : Tool → String
  | .recall => "sibyl_recall"
  | .remember => "sibyl_remember"
  | .correct => "sibyl_correct"

inductive ToolArguments where
  | recall (args : RecallToolArgs)
  | remember (args : RememberToolArgs)
  | correct (args : CorrectionToolArgs) (apply : Bool)

def Tool.parse (args : JSONObject) : Tool → Except ToolError ToolArguments
  | .recall => (RecallToolArgs.parse args).map .recall
  | .remember => (RememberToolArgs.parse args).map .remember
  | .correct => (CorrectionToolArgs.parse args).map fun parsed => .correct parsed.1 parsed.2

def Tool.ofName (name : String) : Option Tool :=
  if name = "sibyl_recall" then some .recall
  else if name = "sibyl_remember" then some .remember
  else if name = "sibyl_correct" then some .correct
  else none

def ToolArguments.exec (host : Host) (rt : Runtime) (w : ToolCircumstances) :
    ToolArguments → ToolM JSONObject
  | .recall args => toolRecall host rt w args
  | .remember args => toolRemember host rt w args
  | .correct args apply => toolCorrect host rt w args apply

/-- The body of the `try` of `handle_tool_call`. -/
def callTool (host : Host) (rt : Runtime) (w : ToolCircumstances) (toolName : String)
    (args : JSONObject) : ToolM JSONObject :=
  match Tool.ofName toolName with
  | none => ToolM.raise (.validation ("Unknown Sibyl tool: " ++ toolName))
  | some tool =>
    match tool.parse args with
    | .ok parsed => parsed.exec host rt w
    | .error (.validation message) => ToolM.raise (.validation message)
    | .error (.other className) => ToolM.raise (.raised (.exception className))

def ClientError.className : ClientError → String
  | .transport _ _ => "SibylTransportError"
  | .protocol _ _ _ _ => "SibylProtocolError"
  | .http _ => "SibylHTTPError"
  | .conflict _ => "SibylConflictError"
  | .other className => className

def invalidArguments (message : String) : JSONObject :=
  [("error", .str "invalid_arguments"), ("message", .str message)]

def unavailable (className : String) : JSONObject :=
  [("error", .str "sibyl_unavailable"), ("error_class", .str className)]

def toolFailed (className : String) : JSONObject :=
  [("error", .str "sibyl_tool_failed"), ("error_class", .str className)]

/-- The object that is dumped, or what `except Exception` lets through. -/
def toolReply : Except ToolException JSONObject → Except Raised JSONObject
  | .ok result => .ok result
  | .error (.validation message) => .ok (invalidArguments message)
  | .error (.client (.other className)) => .ok (toolFailed className)
  | .error (.client e) => .ok (unavailable e.className)
  | .error (.raised (.timeoutError className)) => .ok (toolFailed className)
  | .error (.raised (.exception className)) => .ok (toolFailed className)
  | .error (.raised (.baseException className)) => .error (.baseException className)

def handleToolCall (host : Host) (rt : Runtime) (w : ToolCircumstances) (toolName : String)
    (args : JSONObject) (s : ToolState) : Except Raised JSONObject × ToolState :=
  let (out, s) := (callTool host rt w toolName args).run s
  (toolReply out, s)

/-! ### What the parsers make of an object -/

/-- A value without a hash. -/
def Unhashable : PyValue → Prop
  | .list _ => True
  | .dict _ => True
  | _ => False

/-- What becomes of a check: it passes with a value, reports the arguments, or crashes. -/
inductive Verdict {α : Type} (passes : α → Prop) (crashes : Prop) : Except ToolError α → Prop where
  | passed (value : α) (bound : passes value) (safe : ¬ crashes) : Verdict passes crashes (.ok value)
  | reported (message : String) (safe : ¬ crashes) :
      Verdict passes crashes (.error (.validation message))
  | crashed (className : String) (crash : crashes) :
      Verdict passes crashes (.error (.other className))

section Verdicts
variable {α β : Type} {passes : α → Prop} {crashes : Prop} {x : Except ToolError α}

theorem Verdict.bind {f : α → Except ToolError β} {passes' : β → Prop} {crashes' : α → Prop}
    (hx : Verdict passes crashes x) (hf : ∀ a, passes a → Verdict passes' (crashes' a) (f a)) :
    Verdict passes' (crashes ∨ ∃ a, passes a ∧ x = .ok a ∧ crashes' a) (x >>= f) := by
  cases hx with
  | passed a bound safe =>
    have hiff : (crashes ∨ ∃ b, passes b ∧ (Except.ok a : Except ToolError α) = .ok b ∧ crashes' b)
        ↔ crashes' a := by
      constructor
      · rintro (hc | ⟨b, -, he, hb⟩)
        · exact absurd hc safe
        · cases he
          exact hb
      · intro ha
        exact .inr ⟨a, bound, rfl, ha⟩
    rw [hiff]
    exact hf a bound
  | reported message safe =>
    refine .reported message ?_
    rintro (hc | ⟨b, -, he, -⟩)
    · exact safe hc
    · cases he
  | crashed className crash => exact .crashed className (.inl crash)

theorem Verdict.congr {crashes' : Prop} (hx : Verdict passes crashes x)
    (h : crashes ↔ crashes') : Verdict passes crashes' x := by rwa [← h]

theorem Verdict.bind_safe {f : α → Except ToolError β} {passes' : β → Prop}
    (hx : Verdict passes False x) (hf : ∀ a, passes a → Verdict passes' False (f a)) :
    Verdict passes' False (x >>= f) := (hx.bind hf).congr (by simp)

theorem Verdict.map {f : α → β} {passes' : β → Prop} (hx : Verdict passes crashes x)
    (hf : ∀ a, passes a → passes' (f a)) : Verdict passes' crashes (x.map f) := by
  cases hx with
  | passed a bound safe => exact .passed (f a) (hf a bound) safe
  | reported message safe => exact .reported message safe
  | crashed className crash => exact .crashed className crash

end Verdicts

/-- A text that is given, is not blank and is not too long. -/
def Given (args : JSONObject) (key : String) (maximum : Nat) (value : String) : Prop :=
  Schema.get args key = .str value ∧ strip value ≠ "" ∧ value.length ≤ maximum

def SomeGiven (args : JSONObject) (key : String) (maximum : Nat) : Prop :=
  ∃ value, Given args key maximum value

theorem requiredToolString_given {args : JSONObject} {key : String} {maximum : Nat} {value : String}
    (h : Given args key maximum value) : requiredToolString args key maximum = .ok value := by
  obtain ⟨hget, hblank, hlong⟩ := h
  rw [requiredToolString, hget]
  dsimp only
  rw [if_neg hblank, if_neg (Nat.not_lt.mpr hlong)]

theorem requiredToolString_verdict (args : JSONObject) (key : String) (maximum : Nat) :
    Verdict (Given args key maximum) False (requiredToolString args key maximum) := by
  cases h : requiredToolString args key maximum with
  | ok value => exact .passed value (requiredToolString_ok h) id
  | error e =>
    unfold requiredToolString at h
    split at h
    · split_ifs at h <;> cases h <;> exact .reported _ id
    · cases h
      exact .reported _ id

def SomeText (maximum : Nat) (value : String) : Prop := strip value ≠ "" ∧ value.length ≤ maximum

theorem optionalToolString_verdict (args : JSONObject) (key : String) (maximum : Nat) :
    Verdict (fun value => ∀ text ∈ value, SomeText maximum text) False
      (optionalToolString args key maximum) := by
  unfold optionalToolString
  split
  · exact .passed none (by simp) id
  · rename_i text _
    split_ifs with hblank hlong
    · exact .reported _ id
    · exact .reported _ id
    · refine .passed (some text) ?_ id
      intro t ht
      cases ht
      exact ⟨hblank, Nat.le_of_not_lt hlong⟩
  · exact .reported _ id

theorem memberOf_verdict (values : List String) (message : String) (value : PyValue) :
    Verdict (fun text => value = .str text ∧ text ∈ values) (Unhashable value)
      (memberOf values message value) := by
  cases value with
  | str text =>
    rw [memberOf]
    split
    · rename_i hmem
      exact .passed text ⟨rfl, hmem⟩ id
    · exact .reported message id
  | list _ => exact .crashed _ trivial
  | dict _ => exact .crashed _ trivial
  | _ => exact .reported message id

def Member (values : List String) (value : PyValue) : Prop := ∃ text ∈ values, value = .str text

section Checks
variable {β : Type} {passes : β → Prop} {crashes : Prop} {args : JSONObject}

theorem required_bind {key : String} {maximum : Nat} {f : String → Except ToolError β}
    (hf : ∀ value, Given args key maximum value → Verdict passes crashes (f value)) :
    Verdict passes (SomeGiven args key maximum ∧ crashes) (requiredToolString args key maximum >>= f) := by
  refine ((requiredToolString_verdict args key maximum).bind hf).congr ?_
  constructor
  · rintro (hf | ⟨value, hgiven, -, hc⟩)
    · exact hf.elim
    · exact ⟨⟨value, hgiven⟩, hc⟩
  · rintro ⟨⟨value, hgiven⟩, hc⟩
    exact .inr ⟨value, hgiven, requiredToolString_given hgiven, hc⟩

theorem member_bind {values : List String} {message : String} {value : PyValue}
    {f : String → Except ToolError β} (hf : ∀ text ∈ values, Verdict passes crashes (f text)) :
    Verdict passes (Unhashable value ∨ Member values value ∧ crashes)
      (memberOf values message value >>= f) := by
  refine ((memberOf_verdict values message value).bind fun text ht => hf text ht.2).congr ?_
  refine or_congr_right ?_
  constructor
  · rintro ⟨text, ⟨hval, hmem⟩, -, hc⟩
    exact ⟨⟨text, hmem, hval⟩, hc⟩
  · rintro ⟨⟨text, hmem, rfl⟩, hc⟩
    exact ⟨text, ⟨rfl, hmem⟩, if_pos hmem, hc⟩

end Checks

/-! ### Recall -/

structure RecallToolArgs.Bounded (a : RecallToolArgs) : Prop where
  query : SomeText 8000 a.query
  layer : a.layer ∈ RECALL_LAYERS
  intent : a.intent ∈ RECALL_INTENTS

theorem recall_verdict (args : JSONObject) :
    Verdict RecallToolArgs.Bounded
      (SomeGiven args "query" 8000 ∧ (Unhashable (argument args "layer" "recall") ∨
        Member RECALL_LAYERS (argument args "layer" "recall") ∧
          Unhashable (argument args "intent" "general")))
      (RecallToolArgs.parse args) := by
  unfold RecallToolArgs.parse
  refine required_bind fun query hquery => member_bind fun layer hlayer => ?_
  have hintent : Verdict RecallToolArgs.Bounded
      (Unhashable (argument args "intent" "general") ∨
        Member RECALL_INTENTS (argument args "intent" "general") ∧ False)
      (memberOf RECALL_INTENTS "intent is unsupported" (argument args "intent" "general") >>=
        fun intent => return { query, layer, intent }) :=
    member_bind fun intent hintent => .passed _ ⟨hquery.2, hlayer, hintent⟩ id
  exact hintent.congr (by simp)

/-! ### Remember -/

structure Tagged (tag : String) : Prop where
  nonempty : tag ≠ ""
  stripped : strip tag = tag
  short : tag.length ≤ MAX_TAG_LENGTH

structure RememberToolArgs.Bounded (a : RememberToolArgs) : Prop where
  title : SomeText 300 a.title
  content : SomeText 500000 a.content
  kind : a.kind ∈ REMEMBER_KINDS
  tags : ∀ tag ∈ a.tags, Tagged tag
  few : a.tags.length ≤ MAX_TAGS
  distinct : a.tags.Nodup

theorem toolTag_tagged {value : PyValue} {tag : String} (h : toolTag value = some tag) :
    Tagged tag := by
  unfold toolTag at h
  split at h
  · rename_i text
    split_ifs at h with hbad
    cases h
    rw [not_or, Nat.not_lt] at hbad
    exact ⟨hbad.1, strip_strip text, le_trans (strip_length_le text) hbad.2⟩
  · cases h

theorem mapM_some {α β : Type} {f : α → Option β} {l : List α} {out : List β}
    (h : l.mapM f = some out) : out.length = l.length ∧ ∀ b ∈ out, ∃ a ∈ l, f a = some b := by
  induction l generalizing out with
  | nil =>
    cases h
    exact ⟨rfl, by simp⟩
  | cons a l ih =>
    simp only [List.mapM_cons, Option.bind_eq_bind, Option.bind_eq_some_iff] at h
    obtain ⟨b, hb, bs, hbs, he⟩ := h
    cases he
    obtain ⟨hlen, hmem⟩ := ih hbs
    refine ⟨by simp [hlen], fun c hc => ?_⟩
    rcases List.mem_cons.mp hc with rfl | hc
    · exact ⟨a, List.mem_cons_self, hb⟩
    · obtain ⟨d, hd, hf⟩ := hmem c hc
      exact ⟨d, List.mem_cons_of_mem _ hd, hf⟩

theorem eraseDups_facts (l : List String) :
    l.eraseDups.Nodup ∧ l.eraseDups.length ≤ l.length := by
  induction hn : l.length using Nat.strong_induction_on generalizing l with
  | _ n ih =>
    cases l with
    | nil => simp
    | cons a l =>
      have hlt : (l.filter fun b => !b == a).length < n := by
        have hle := List.length_filter_le (fun b => !b == a) l
        simp only [List.length_cons] at hn
        omega
      obtain ⟨hnodup, hlen⟩ := ih _ hlt _ rfl
      rw [List.eraseDups_cons]
      refine ⟨List.nodup_cons.mpr ⟨?_, hnodup⟩, ?_⟩
      · intro hmem
        have hfilter := List.mem_eraseDups.mp hmem
        simp at hfilter
      · simp only [List.length_cons]
        omega

theorem toolTags_verdict (value : PyValue) :
    Verdict (fun tags => (∀ tag ∈ tags, Tagged tag) ∧ tags.length ≤ MAX_TAGS ∧ tags.Nodup) False
      (toolTags value) := by
  unfold toolTags
  split
  · rename_i rawTags
    split_ifs with hmany
    · exact .reported _ id
    · cases h : rawTags.mapM toolTag with
      | none => exact .reported _ id
      | some tags =>
        obtain ⟨hlen, hmem⟩ := mapM_some h
        obtain ⟨hnodup, hle⟩ := eraseDups_facts tags
        refine .passed _ ⟨fun tag htag => ?_, by omega, hnodup⟩ id
        obtain ⟨raw, -, hraw⟩ := hmem tag (List.mem_eraseDups.mp htag)
        exact toolTag_tagged hraw
  · exact .reported _ id

theorem remember_verdict (args : JSONObject) :
    Verdict RememberToolArgs.Bounded
      (SomeGiven args "title" 300 ∧ SomeGiven args "content" 500000 ∧
        Unhashable (Schema.get args "kind"))
      (RememberToolArgs.parse args) := by
  unfold RememberToolArgs.parse
  refine required_bind fun title htitle => required_bind fun content hcontent => ?_
  have hkind : Verdict RememberToolArgs.Bounded
      (Unhashable (Schema.get args "kind") ∨
        Member REMEMBER_KINDS (Schema.get args "kind") ∧ False)
      (memberOf REMEMBER_KINDS "kind is unsupported" (Schema.get args "kind") >>= fun kind =>
        toolTags ((PyValue.lookup "tags" args).getD (.list [])) >>= fun tags =>
          return { title, content, kind, tags }) := by
    refine member_bind fun kind hkind => ?_
    refine (toolTags_verdict _).bind_safe fun tags ht => ?_
    exact .passed _ ⟨htitle.2, hcontent.2, hkind, ht.1, ht.2.1, ht.2.2⟩ id
  exact hkind.congr (by simp)

/-! ### Correct -/

structure CorrectionToolArgs.Bounded (a : CorrectionToolArgs) : Prop where
  sourceId : SomeText 1000 a.sourceId
  reason : SomeText 2000 a.reason
  apiAction : a.apiAction ∈ CORRECTION_ACTIONS.map Prod.snd
  revisedContent : ∀ text ∈ a.revisedContent, SomeText 500000 text
  replacementSourceId : ∀ text ∈ a.replacementSourceId, SomeText 500 text
  duplicateOfSourceId : ∀ text ∈ a.duplicateOfSourceId, SomeText 500 text
  revise : a.apiAction = "revise" → a.revisedContent ≠ none
  supersede : a.apiAction = "supersede" → a.replacementSourceId ≠ none
  duplicate : a.apiAction = "mark_duplicate" → a.duplicateOfSourceId ≠ none

theorem correctionAction_verdict (args : JSONObject) :
    Verdict (fun entry => entry ∈ CORRECTION_ACTIONS) (Unhashable (Schema.get args "action"))
      (correctionAction args) := by
  unfold correctionAction
  cases Schema.get args "action" with
  | str action =>
    dsimp only
    split
    · rename_i entry hfind
      exact .passed entry (List.mem_of_find?_eq_some hfind) id
    · exact .reported _ id
  | list _ => exact .crashed _ trivial
  | dict _ => exact .crashed _ trivial
  | _ => exact .reported _ id

/-- The tool's name of an action and the name of the API say the same. -/
theorem correction_names : ∀ entry ∈ CORRECTION_ACTIONS,
    (entry.2 = "revise" → entry.1 = "revise") ∧ (entry.2 = "supersede" → entry.1 = "superseded") ∧
      (entry.2 = "mark_duplicate" → entry.1 = "duplicate") := by decide

theorem guard_verdict {α : Type} {passes : α → Prop} {p : Prop} [Decidable p] {message : String}
    {x : Except ToolError α} (h : ¬ p → Verdict passes False x) :
    Verdict passes False (if p then throw (.validation message) >>= fun (_ : PUnit) => x else x) := by
  by_cases hp : p
  · rw [if_pos hp]
    exact .reported message id
  · rw [if_neg hp]
    exact h hp

theorem correct_verdict (args : JSONObject) :
    Verdict (fun parsed => parsed.1.Bounded)
      (SomeGiven args "source_id" 1000 ∧ SomeGiven args "reason" 2000 ∧
        Unhashable (Schema.get args "action"))
      (CorrectionToolArgs.parse args) := by
  unfold CorrectionToolArgs.parse
  refine required_bind fun sourceId hsource => required_bind fun reason hreason => ?_
  refine ((correctionAction_verdict args).bind fun entry hentry =>
    (?_ : Verdict (fun parsed : CorrectionToolArgs × Bool => parsed.1.Bounded) False _)).congr ?_
  · obtain ⟨hrev, hsup, hdup⟩ := correction_names entry hentry
    refine (optionalToolString_verdict _ _ _).bind_safe fun revised hrevised => ?_
    refine (optionalToolString_verdict _ _ _).bind_safe fun replacement hreplacement => ?_
    refine (optionalToolString_verdict _ _ _).bind_safe fun duplicate hduplicate => ?_
    split
    · refine guard_verdict fun h1 => guard_verdict fun h2 => guard_verdict fun h3 => ?_
      refine .passed _ ?_ id
      exact ⟨hsource.2, hreason.2, List.mem_map_of_mem hentry, hrevised, hreplacement, hduplicate,
        fun he hn => h1 ⟨hrev he, hn⟩, fun he hn => h2 ⟨hsup he, hn⟩, fun he hn => h3 ⟨hdup he, hn⟩⟩
    · exact .reported _ id
  · simp

/-! ### Every tool -/

def ToolArguments.Bounded : ToolArguments → Prop
  | .recall args => args.Bounded
  | .remember args => args.Bounded
  | .correct args _ => args.Bounded

/-- A membership test of the parser is reached with a list or an object. -/
def Tool.Crashes (args : JSONObject) : Tool → Prop
  | .recall => SomeGiven args "query" 8000 ∧ (Unhashable (argument args "layer" "recall") ∨
      Member RECALL_LAYERS (argument args "layer" "recall") ∧
        Unhashable (argument args "intent" "general"))
  | .remember => SomeGiven args "title" 300 ∧ SomeGiven args "content" 500000 ∧
      Unhashable (Schema.get args "kind")
  | .correct => SomeGiven args "source_id" 1000 ∧ SomeGiven args "reason" 2000 ∧
      Unhashable (Schema.get args "action")

theorem parse_verdict (tool : Tool) (args : JSONObject) :
    Verdict ToolArguments.Bounded (tool.Crashes args) (tool.parse args) := by
  match tool with
  | .recall => exact (recall_verdict args).map fun _ h => h
  | .remember => exact (remember_verdict args).map fun _ h => h
  | .correct => exact (correct_verdict args).map fun _ h => h

theorem ofName_name (tool : Tool) : Tool.ofName tool.name = some tool := by
  cases tool <;> decide

/-- The arguments are accepted within their bounds, or reported as invalid before anything is
done. -/
def ArgumentsHandled (tool : Tool) (args : JSONObject) : Prop :=
  (∃ parsed, tool.parse args = .ok parsed ∧ parsed.Bounded) ∨
  ∃ message, tool.parse args = .error (.validation message) ∧
    ∀ host rt w s, handleToolCall host rt w tool.name args s = (.ok (invalidArguments message), s)

/-- The answer to arguments that the parser does not return from. -/
def ToolError.reply : ToolError → JSONObject
  | .validation message => invalidArguments message
  | .other className => toolFailed className

theorem handleToolCall_error {tool : Tool} {args : JSONObject} {e : ToolError}
    (h : tool.parse args = .error e) (host : Host) (rt : Runtime) (w : ToolCircumstances)
    (s : ToolState) : handleToolCall host rt w tool.name args s
      = (.ok e.reply, s) := by
  unfold handleToolCall callTool
  rw [ofName_name tool]
  dsimp only
  rw [h]
  cases e <;> rfl

/-- Arguments are handled unless a list or an object is where a name is looked up in a set. -/
theorem tool_arguments_handled (tool : Tool) (args : JSONObject) :
    ArgumentsHandled tool args ↔ ¬ tool.Crashes args := by
  have hverdict := parse_verdict tool args
  constructor
  · intro h hcrash
    generalize hx : tool.parse args = x at hverdict
    unfold ArgumentsHandled at h
    rw [hx] at h
    cases hverdict with
    | passed parsed bound safe => exact safe hcrash
    | reported message safe => exact safe hcrash
    | crashed className crash =>
      rcases h with ⟨parsed, he, -⟩ | ⟨message, he, -⟩ <;> cases he
  · intro hsafe
    generalize hx : tool.parse args = x at hverdict
    cases hverdict with
    | passed parsed bound safe => exact .inl ⟨parsed, hx, bound⟩
    | reported message safe =>
      exact .inr ⟨message, hx, fun host rt w s => handleToolCall_error hx host rt w s⟩
    | crashed className crash => exact absurd crash hsafe

/-- A list as the layer of a recall is answered as a failure of the tool. -/
theorem list_layer_not_handled :
    ¬ (∀ tool args, ArgumentsHandled tool args) ∧
    ∀ host rt w s, handleToolCall host rt w "sibyl_recall"
      [("query", .str "what"), ("layer", .list [])] s = (.ok (toolFailed "TypeError"), s) := by
  have hparse : Tool.recall.parse [("query", .str "what"), ("layer", .list [])]
      = .error (.other "TypeError") := rfl
  constructor
  · intro h
    rcases h .recall [("query", .str "what"), ("layer", .list [])] with ⟨_, he, -⟩ | ⟨_, he, -⟩
    · rw [hparse] at he
      cases he
    · rw [hparse] at he
      cases he
  · intro host rt w s
    exact handleToolCall_error hparse host rt w s

end SibylMemory
