import SibylMemory.Client
import SibylMemory.Outbox.Calls
import SibylMemory.Library.Rounding

/-!
# Context packs (`schemas.py:80-150`, `299-392`, `client.py:201-249`)

The response of `context_pack` is the only one with nested lists and the only one with numbers.
Its parsers raise a `SchemaError`, or the `OverflowError` of `float` on an integer.
-/

namespace SibylMemory
open Outbox

def MAX_CONTEXT_BYTES_PER_TOKEN : Nat := 16

inductive ParseError where
  | schema (message : String)
  | overflow
  deriving DecidableEq

/-- A parser that raises `SchemaError` only. -/
def checked {α : Type} (x : Except String α) : Except ParseError α := x.mapError .schema

namespace Schema

/-- A float of the model: what `json.loads` made, or what `float` makes of an integer. -/
inductive Number where
  | float (x : PyFloat)
  | integral (n : Int)

def requiredNumber (data : JSONObject) (key path : String) : Except ParseError Number :=
  match get data key with
  | .int n =>
    match Rounding.binary64 n with
    | some m => .ok (.integral m)
    | none => .error .overflow
  | .float x => .ok (.float x)
  | _ => .error (.schema (path ++ "." ++ key ++ " must be a number"))

def array (value : PyValue) (path : String) : Except ParseError (List PyValue) :=
  match value with
  | .list xs => .ok xs
  | _ => .error (.schema (path ++ " must be an array"))

/-- The items of an array, parsed in order from an index on. -/
def parseItems {α : Type} (parse : PyValue → String → Except ParseError α) (path : String) :
    Nat → List PyValue → Except ParseError (List α)
  | _, [] => .ok []
  | index, item :: items => do
    let parsed ← parse item (path ++ "[" ++ toString index ++ "]")
    let rest ← parseItems parse path (index + 1) items
    return parsed :: rest

end Schema

/-! ### The response (`schemas.py:299-392`) -/

structure ContextRelatedItem where
  id : String
  type : String
  name : String
  relationship : String
  direction : String
  distance : Int

def ContextRelatedItem.fromJson (value : PyValue) (path : String) : Except String ContextRelatedItem := do
  let data ← Schema.object value path
  return {
    id := ← Schema.requiredString data "id" path
    type := ← Schema.requiredString data "type" path
    name := ← Schema.requiredString data "name" path
    relationship := ← Schema.requiredString data "relationship" path
    direction := ← Schema.requiredString data "direction" path
    distance := ← Schema.requiredInt data "distance" path 1 }

structure ContextItem where
  id : String
  type : String
  name : String
  content : String
  score : Schema.Number
  facet : String
  reason : String
  source : Option String
  quality : JSONObject
  metadata : JSONObject
  related : List ContextRelatedItem

def parsedArray {α : Type} (parse : PyValue → String → Except ParseError α) (data : JSONObject)
    (key path : String) : Except ParseError (List α) := do
  let items ← Schema.array (Schema.get data key) (path ++ "." ++ key)
  Schema.parseItems parse (path ++ "." ++ key) 0 items

def ContextItem.fromJson (value : PyValue) (path : String) : Except ParseError ContextItem := do
  let data ← checked (Schema.object value path)
  let related ← parsedArray (fun item path => checked (ContextRelatedItem.fromJson item path)) data
    "related" path
  let id ← checked (Schema.requiredString data "id" path)
  let type ← checked (Schema.requiredString data "type" path)
  let name ← checked (Schema.requiredString data "name" path)
  let content ← checked (Schema.requiredString data "content" path)
  let score ← Schema.requiredNumber data "score" path
  let facet ← checked (Schema.requiredString data "facet" path)
  let reason ← checked (Schema.requiredString data "reason" path)
  let source ← checked (Schema.optionalString data "source" path)
  let quality ← checked (Schema.optionalObject data "quality" path)
  let metadata ← checked (Schema.optionalObject data "metadata" path)
  return { id, type, name, content, score, facet, reason, source, quality, metadata, related }

structure ContextSection where
  facet : String
  title : String
  items : List ContextItem

def ContextSection.fromJson (value : PyValue) (path : String) : Except ParseError ContextSection := do
  let data ← checked (Schema.object value path)
  let items ← parsedArray ContextItem.fromJson data "items" path
  let facet ← checked (Schema.requiredString data "facet" path)
  let title ← checked (Schema.requiredString data "title" path)
  return { facet, title, items }

structure ContextPackResponse where
  goal : String
  intent : String
  layer : String
  query : String
  domain : Option String
  project : Option String
  sections : List ContextSection
  totalItems : Int
  usageMetadata : JSONObject
  usageHint : String
  markdown : Option String
  renderedItemIds : List String
  requestId : String := ""

def ContextPackResponse.fromJson (value : PyValue) : Except ParseError ContextPackResponse := do
  let path := "response"
  let data ← checked (Schema.object value path)
  let sections ← parsedArray ContextSection.fromJson data "sections" path
  let goal ← checked (Schema.requiredString data "goal" path)
  let intent ← checked (Schema.requiredString data "intent" path)
  let layer ← checked (Schema.requiredString data "layer" path)
  let query ← checked (Schema.requiredString data "query" path)
  let domain ← checked (Schema.optionalString data "domain" path)
  let project ← checked (Schema.optionalString data "project" path)
  let totalItems ← checked (Schema.requiredInt data "total_items" path 0)
  let usageMetadata ← checked (Schema.optionalObject data "usage_metadata" path)
  let usageHint ← checked (Schema.requiredString data "usage_hint" path)
  let markdown ← checked (Schema.optionalString data "markdown" path)
  let renderedItemIds ← checked (Schema.requiredStringList data "rendered_item_ids" path)
  return { goal, intent, layer, query, domain, project, sections, totalItems, usageMetadata,
           usageHint, markdown, renderedItemIds }

/-! ### The request (`schemas.py:114-150`, `client.py:210-249`, `330-398`) -/

structure ContextPackRequest where
  goal : String
  project : String
  agentId : String
  intent : String := "general"
  layer : String := "recall"
  limit : Int := 8
  includeRelated : Bool := true
  relatedLimit : Int := 2
  audit : Bool := false
  recordExposure : Bool := false
  markdownTokenBudget : Int := 900

def ContextPackRequest.toJson (r : ContextPackRequest) : JSONObject :=
  [("goal", .str r.goal), ("intent", .str r.intent), ("layer", .str r.layer),
    ("project", .str r.project), ("agent_id", .str r.agentId), ("limit", .int r.limit),
    ("include_related", .bool r.includeRelated), ("related_limit", .int r.relatedLimit),
    ("audit", .bool r.audit), ("record_exposure", .bool r.recordExposure),
    ("markdown_token_budget", .int r.markdownTokenBudget)]

def validateContextBudget (response : ContextPackResponse) (markdownTokenBudget : Int) :
    Except String Unit :=
  let budget : Except String Unit :=
    match response.markdown with
    | none => .ok ()
    | some markdown =>
      if markdownTokenBudget * MAX_CONTEXT_BYTES_PER_TOKEN
          < (PercentEncoding.utf8 markdown.toList).length then
        .error "response markdown exceeds the safe size budget"
      else .ok ()
  match Schema.get response.usageMetadata "estimated_tokens" with
  | .int estimatedTokens =>
    if markdownTokenBudget < estimatedTokens then
      .error "response exceeds the requested markdown token budget"
    else budget
  | _ => budget

/-- `parseSuccess` for a parser that may raise an `OverflowError`, which nothing catches. -/
def parseNumbers {α : Type} (host : Host) (requestId : String) (r : Response)
    (parser : PyValue → Except ParseError α) (check : α → Except String Unit) :
    Except ClientError α :=
  let malformed := .error (.protocol "Sibyl returned a malformed JSON success response" requestId
    r.status "")
  match successChunks [] r.chunks, r.broken with
  | none, _ => .error (.protocol "Sibyl success response exceeded the safe body limit" requestId
      r.status "")
  | some _, some errorType => .error (.transport requestId errorType)
  | some body, none =>
    match jsonObject host body with
    | .error (.other className) => .error (.other className)
    | .error .valueError => malformed
    | .ok payload =>
      match parser (.dict payload) with
      | .error (.schema _) => malformed
      | .error .overflow => .error (.other "OverflowError")
      | .ok parsed =>
        match check parsed with
        | .error _ => malformed
        | .ok _ => .ok parsed

theorem parseNumbers_checked {α : Type} (host : Host) (requestId : String) (r : Response)
    (parser : PyValue → Except String α) (check : α → Except String Unit) :
    parseNumbers host requestId r (fun v => checked (parser v)) check
      = parseSuccess host requestId r parser check := by
  unfold parseNumbers parseSuccess
  cases successChunks [] r.chunks with
  | none => rfl
  | some body =>
    cases r.broken with
    | some errorType => rfl
    | none =>
      dsimp only
      cases jsonObject host body with
      | error e => cases e <;> rfl
      | ok payload =>
        dsimp only
        cases parser (.dict payload) with
        | error message => rfl
        | ok parsed =>
          cases hcheck : check parsed <;> simp [checked, Except.mapError, hcheck]

def contextPackWire (r : ContextPackRequest) : WireRequest where
  method := "POST"
  path := "context/pack"
  payload := r.toJson
  idempotencyKey := none

/-- `context_pack`; the response carries the request id of its header. -/
def contextPack (host : Host) (net : WireRequest → Exchange) (requestId : String)
    (request : ContextPackRequest) : Except ClientError ContextPackResponse :=
  match net (contextPackWire request) with
  | .failed errorType => .error (.transport requestId errorType)
  | .answered r =>
    if r.isError then .error (raiseHttpError host requestId r)
    else
      parseNumbers host requestId r
        (fun v => (ContextPackResponse.fromJson v).map fun parsed =>
          { parsed with requestId := r.requestIdHeader.getD requestId })
        (fun parsed => validateContextBudget parsed request.markdownTokenBudget)

end SibylMemory
