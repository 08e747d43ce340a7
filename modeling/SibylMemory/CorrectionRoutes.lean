import SibylMemory.Endpoints
import SibylMemory.Library.DotSegments

/-!
# Where a correction is sent (`client.py:167-199`, `282-318`)

The path of a correction is joined to that of the base URL and its dot segments are removed.
Quoting leaves dots as they are, so that a source id of one or two dots is itself a dot segment.
-/

namespace SibylMemory
open PercentEncoding DotSegments Text

/-- The path of a request, joined to the segments of the base URL. -/
def requestSegments (base : List String) (path : String) : List String :=
  removeDotSegments (base ++ segments path)

def correctionTail (preview : Bool) : List String :=
  "corrections" :: if preview then ["preview"] else []

/-- `<base>/memory/inspect/<one segment>/corrections[/preview]`, with the segment of the source. -/
def OnRoute (base : List String) (sourceId : String) (preview : Bool) (route : List String) : Prop :=
  ∃ segment, route = resolved base ++ ["memory", "inspect", segment] ++ correctionTail preview ∧
    '/' ∉ segment.toList ∧ unquote segment = sourceId

def Undotted (sourceId : String) : Prop := sourceId ≠ "." ∧ sourceId ≠ ".."

section Routes
variable {base : List String} {sourceId : String}

theorem quote_dot : quote "." = "." ∧ quote ".." = ".." := by decide

theorem quote_isDots (sourceId : String) : isDots (quote sourceId) = true ↔ ¬ Undotted sourceId := by
  have hone : quote sourceId = "." ↔ sourceId = "." :=
    ⟨fun h => quote_injective (h.trans quote_dot.1.symm), fun h => by rw [h, quote_dot.1]⟩
  have htwo : quote sourceId = ".." ↔ sourceId = ".." :=
    ⟨fun h => quote_injective (h.trans quote_dot.2.symm), fun h => by rw [h, quote_dot.2]⟩
  rw [isDots, decide_eq_true_iff, hone, htwo, Undotted, not_and_or, not_not, not_not]

theorem correctionTail_plain (preview : Bool) : ∀ s ∈ correctionTail preview, isDots s = false := by
  cases preview <;> decide

theorem correctionPath_joined (sourceId : String) (preview : Bool) :
    "memory/inspect/" ++ quote sourceId ++ "/corrections" ++ (if preview then "/preview" else "")
      = joinWith "/" (["memory", "inspect", quote sourceId] ++ correctionTail preview) := by
  have hhead : ∀ x, "memory/inspect/" ++ x = "memory/" ++ ("inspect/" ++ x) := by
    intro x
    have hsplit : "memory/inspect/" = "memory/" ++ "inspect/" := by decide
    rw [hsplit, String.append_assoc]
  cases preview <;> simp [correctionTail, joinWith, String.append_assoc, hhead]

theorem correctionPath_segments {preview : Bool} {path : String}
    (h : correctionPath sourceId preview = .ok path) :
    segments path = ["memory", "inspect", quote sourceId] ++ correctionTail preview := by
  unfold correctionPath at h
  split at h
  · cases h
  · cases h
    rw [correctionPath_joined]
    refine segments_joinWith (fun s hs => ?_) (by simp)
    have hquote := quote_avoids sourceId (c := '/') (by decide) (by decide)
    have htail : ∀ t ∈ correctionTail preview, '/' ∉ t.toList := by
      cases preview <;> decide
    simp only [List.mem_append, List.mem_cons, List.not_mem_nil, or_false] at hs
    rcases hs with (rfl | rfl | rfl) | hs
    · decide
    · decide
    · exact hquote
    · exact htail s hs

theorem requestSegments_eq {preview : Bool} {path : String}
    (h : correctionPath sourceId preview = .ok path) : requestSegments base path
      = resolved (base ++ ["memory", "inspect", quote sourceId]) ++ correctionTail preview := by
  rw [requestSegments, correctionPath_segments h, ← List.append_assoc]
  exact removeDotSegments_plain (correctionTail_plain preview) (List.cons_ne_nil _ _)

theorem resolved_inspect (base : List String) :
    resolved (base ++ ["memory", "inspect"]) = resolved base ++ ["memory", "inspect"] :=
  resolved_plain (by decide)

theorem resolved_source (base : List String) (sourceId : String) :
    (Undotted sourceId → resolved (base ++ ["memory", "inspect", quote sourceId])
      = resolved base ++ ["memory", "inspect", quote sourceId]) ∧
    (sourceId = "." → resolved (base ++ ["memory", "inspect", quote sourceId])
      = resolved base ++ ["memory", "inspect"]) ∧
    (sourceId = ".." → resolved (base ++ ["memory", "inspect", quote sourceId])
      = resolved base ++ ["memory"]) := by
  refine ⟨fun h => resolved_plain fun s hs => ?_, ?_, ?_⟩
  · have hplain : isDots (quote sourceId) = false :=
      Bool.eq_false_iff.mpr fun hd => (quote_isDots sourceId).mp hd h
    simp only [List.mem_cons, List.not_mem_nil, or_false] at hs
    rcases hs with rfl | rfl | rfl
    · decide
    · decide
    · exact hplain
  · rintro rfl
    rw [quote_dot.1, ← resolved_inspect base,
      ← @resolved_dot (base ++ ["memory", "inspect"]), List.append_assoc]
    rfl
  · rintro rfl
    have hlast : (resolved base ++ ["memory", "inspect"]).dropLast = resolved base ++ ["memory"] := by
      rw [List.dropLast_append_of_ne_nil (List.cons_ne_nil _ _)]
      rfl
    rw [quote_dot.2, ← hlast, ← resolved_inspect base,
      ← @resolved_dots (base ++ ["memory", "inspect"]), List.append_assoc]
    rfl

theorem onRoute_iff {preview : Bool} {path : String}
    (h : correctionPath sourceId preview = .ok path) :
    OnRoute base sourceId preview (requestSegments base path) ↔ Undotted sourceId := by
  obtain ⟨hplain, hone, htwo⟩ := resolved_source base sourceId
  have hshort : ∀ l : List String, l.length < 3 →
      resolved (base ++ ["memory", "inspect", quote sourceId]) = resolved base ++ l →
      ¬ OnRoute base sourceId preview (requestSegments base path) := by
    rintro l hl he ⟨segment, hroute, -⟩
    rw [requestSegments_eq h, he] at hroute
    have hlen := congrArg List.length (List.append_cancel_right hroute)
    simp only [List.length_append, List.length_cons, List.length_nil] at hlen
    omega
  constructor
  · intro hon
    refine ⟨fun he => ?_, fun he => ?_⟩
    · exact hshort _ (by decide) (hone he) hon
    · exact hshort _ (by decide) (htwo he) hon
  · intro hu
    refine ⟨quote sourceId, ?_, quote_avoids sourceId (by decide) (by decide), unquote_quote sourceId⟩
    rw [requestSegments_eq h, hplain hu]

end Routes

/-- What an accepted source id makes of the route: it is one segment of it exactly when it is not a
dot segment. Two such ids have two routes. -/
theorem correction_route (base : List String) :
    (∀ args parsed apply, CorrectionToolArgs.parse args = .ok (parsed, apply) → ∀ preview,
      ∃ path, correctionPath parsed.sourceId preview = .ok path ∧
        (OnRoute base parsed.sourceId preview (requestSegments base path) ↔
          Undotted parsed.sourceId)) ∧
    ∀ sourceId sourceId' preview preview' path path', Undotted sourceId → Undotted sourceId' →
      correctionPath sourceId preview = .ok path → correctionPath sourceId' preview' = .ok path' →
      requestSegments base path = requestSegments base path' →
      sourceId = sourceId' ∧ preview = preview' := by
  refine ⟨fun args parsed apply hparsed preview => ?_,
    fun sourceId sourceId' preview preview' path path' hu hu' h h' he => ?_⟩
  · obtain ⟨-, hblank, -⟩ := parse_source hparsed
    have hne : parsed.sourceId ≠ "" := by
      intro hempty
      rw [hempty] at hblank
      exact hblank (by decide)
    have hpath : ∃ path, correctionPath parsed.sourceId preview = .ok path :=
      ⟨_, by rw [correctionPath, if_neg hne]⟩
    obtain ⟨path, hpath⟩ := hpath
    exact ⟨path, hpath, onRoute_iff hpath⟩
  · rw [requestSegments_eq h, requestSegments_eq h', (resolved_source base sourceId).1 hu,
      (resolved_source base sourceId').1 hu', List.append_assoc, List.append_assoc] at he
    have hrest := List.append_cancel_left he
    simp only [List.cons_append, List.nil_append, List.cons.injEq, true_and] at hrest
    refine ⟨quote_injective hrest.1, ?_⟩
    have htail := hrest.2
    cases preview <;> cases preview' <;> simp [correctionTail] at htail ⊢

/-- Two dots are accepted and lead out of `memory/inspect`. -/
theorem dots_leave_route : ∃ parsed, CorrectionToolArgs.parse (hideArgs "..") = .ok (parsed, false) ∧
    ∃ path, correctionPath parsed.sourceId false = .ok path ∧
      requestSegments ["api"] path = ["api", "memory", "corrections"] ∧
      ¬ OnRoute ["api"] parsed.sourceId false (requestSegments ["api"] path) := by
  obtain ⟨parsed, hparsed, hsource⟩ := @parse_hideArgs ".." (by decide) (by decide)
  have hpath : correctionPath parsed.sourceId false = .ok "memory/inspect/../corrections" := by
    rw [hsource, correctionPath, if_neg (by decide), quote_dot.2]
    rfl
  refine ⟨parsed, hparsed, _, hpath, by decide, fun hon => ?_⟩
  exact ((onRoute_iff hpath).mp hon).2 hsource

theorem correction_route_sample : ∃ parsed : CorrectionToolArgs, ∃ path,
    correctionPath parsed.sourceId true = .ok path ∧
    OnRoute ["api"] "a/../b" true (requestSegments ["api"] path) := by
  obtain ⟨parsed, hparsed, hsource⟩ := @parse_hideArgs "a/../b" (by decide) (by decide)
  obtain ⟨path, hpath, hon⟩ := (correction_route ["api"]).1 _ parsed false hparsed true
  exact ⟨parsed, path, hpath, hsource ▸ hon.mpr (by rw [hsource]; exact ⟨by decide, by decide⟩)⟩

end SibylMemory
