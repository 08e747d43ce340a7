import SibylMemory.Capture

/-!
# What a transcript commits (`capture.py:197-222`)

Of a transcript only the user texts and the final assistant texts count. The committed turns are
a function of these, each is an answer with the last user text before it, and more messages only
add turns.
-/

namespace SibylMemory

inductive Visible where
  | user (text : String)
  | assistant (text : String)

/-- A user message with a text, or an assistant message with a text and no tool calls. -/
def visible (host : Host) (message : Message) : Option Visible :=
  if isText "user" (Schema.get message "role") then
    if userMessageText host (Schema.get message "content") = "" then none
    else some (.user (userMessageText host (Schema.get message "content")))
  else if isText "assistant" (Schema.get message "role")
      ∧ host.flattenMessageText (Schema.get message "content") ≠ ""
      ∧ truthy (Schema.get message "tool_calls") = false then
    some (.assistant (host.flattenMessageText (Schema.get message "content")))
  else none

/-- The turns of what is visible, from a pending user text. -/
def answeredFrom : Option String → List Visible → List (String × String)
  | _, [] => []
  | _, .user text :: vs => answeredFrom (some text) vs
  | none, .assistant _ :: vs => answeredFrom none vs
  | some user, .assistant text :: vs => (user, text) :: answeredFrom none vs

theorem isText_exclusive {v : PyValue} (h : isText "user" v = true) : isText "assistant" v = false := by
  cases v with
  | str s =>
    have hs : s = "user" := of_decide_eq_true h
    subst hs
    decide
  | _ => rfl

section Turns
variable {host : Host}

theorem committedFrom_cons (pending : Option String) (message : Message) (messages : List Message) :
    committedFrom host pending (message :: messages) = match visible host message, pending with
      | none, _ => committedFrom host pending messages
      | some (.user text), _ => committedFrom host (some text) messages
      | some (.assistant _), none => committedFrom host none messages
      | some (.assistant text), some user => (user, text) :: committedFrom host none messages := by
  have hexclusive := @isText_exclusive (Schema.get message "role")
  conv_lhs => unfold committedFrom
  unfold visible
  dsimp only
  generalize isText "user" (Schema.get message "role") = fromUser at hexclusive ⊢
  generalize isText "assistant" (Schema.get message "role") = fromAssistant at hexclusive ⊢
  generalize userMessageText host (Schema.get message "content") = userText
  generalize host.flattenMessageText (Schema.get message "content") = text
  generalize truthy (Schema.get message "tool_calls") = calls
  cases fromUser with
  | true =>
    rw [hexclusive rfl]
    by_cases hempty : userText = "" <;> cases pending <;> simp [hempty]
  | false =>
    -- an assistant message counts when it has a text and calls no tools
    by_cases hempty : text = "" <;> cases fromAssistant <;> cases calls <;> cases pending <;>
      simp [hempty]

theorem committedFrom_visible (pending : Option String) (messages : List Message) :
    committedFrom host pending messages = answeredFrom pending (messages.filterMap (visible host)) := by
  induction messages generalizing pending with
  | nil => rw [committedFrom, List.filterMap_nil, answeredFrom]
  | cons message messages ih =>
    rw [committedFrom_cons, List.filterMap_cons]
    cases visible host message with
    | none => exact ih pending
    | some v =>
      cases v with
      | user text => exact (ih (some text)).trans (by rw [answeredFrom])
      | assistant text =>
        cases pending with
        | none => exact (ih none).trans (by rw [answeredFrom])
        | some user =>
          dsimp only
          rw [answeredFrom, ih none]

theorem committedFrom_append (pending : Option String) (messages : List Message) :
    ∃ pending', ∀ more, committedFrom host pending (messages ++ more)
      = committedFrom host pending messages ++ committedFrom host pending' more := by
  induction messages generalizing pending with
  | nil => exact ⟨pending, fun more => by rw [committedFrom]; rfl⟩
  | cons message messages ih =>
    simp only [List.cons_append, committedFrom_cons]
    cases visible host message with
    | none => exact ih pending
    | some v =>
      cases v with
      | user text => exact ih (some text)
      | assistant text =>
        obtain ⟨pending', h⟩ := ih none
        cases pending with
        | none => exact ⟨pending', h⟩
        | some user => exact ⟨pending', fun more => by rw [h]; rfl⟩

/-! ### Where the turns stand -/

/-- The turn is the answer at the second place to the user text at the first, with nothing visible
between them. -/
structure AnsweredAt (host : Host) (messages : List Message) (place : Nat × Nat)
    (turn : String × String) : Prop where
  asked : (messages[place.1]?).bind (visible host) = some (.user turn.1)
  answered : (messages[place.2]?).bind (visible host) = some (.assistant turn.2)
  order : place.1 < place.2
  between : ∀ k, place.1 < k → k < place.2 → (messages[k]?).bind (visible host) = none

/-- The pending text of a loop that has read the messages; no place before `low` is pending. -/
def PendingAt (host : Host) (done : List Message) (low : Nat) : Option String → Prop
  | none => low ≤ done.length
  | some user => low < done.length ∧ (done[low]?).bind (visible host) = some (.user user) ∧
    ∀ k, low < k → k < done.length → (done[k]?).bind (visible host) = none

theorem PendingAt.hidden {done : List Message} {low : Nat} {pending : Option String}
    (h : PendingAt host done low pending) {message : Message} (hm : visible host message = none) :
    PendingAt host (done ++ [message]) low pending := by
  cases pending with
  | none =>
    have hle : low ≤ done.length := h
    show low ≤ (done ++ [message]).length
    rw [List.length_append]
    omega
  | some user =>
    obtain ⟨hlt, hasked, hbetween⟩ := h
    refine ⟨?_, ?_, fun k hk hlast => ?_⟩
    · rw [List.length_append]
      omega
    · rw [List.getElem?_append_left hlt]
      exact hasked
    · rw [List.length_append, List.length_singleton] at hlast
      by_cases he : k = done.length
      · subst he
        rw [List.getElem?_concat_length]
        exact hm
      · rw [List.getElem?_append_left (by omega)]
        exact hbetween k hk (by omega)

theorem PendingAt.asked (done : List Message) {message : Message} {text : String}
    (hm : visible host message = some (.user text)) :
    PendingAt host (done ++ [message]) done.length (some text) := by
  refine ⟨?_, ?_, fun k hk hlast => ?_⟩
  · rw [List.length_append]
    exact Nat.lt_succ_self _
  · rw [List.getElem?_concat_length]
    exact hm
  · rw [List.length_append, List.length_singleton] at hlast
    omega

theorem PendingAt.low_le {done : List Message} {low : Nat} {pending : Option String}
    (h : PendingAt host done low pending) : low ≤ done.length := by
  cases pending with
  | none => exact h
  | some user => exact le_of_lt h.1

theorem committedFrom_places (messages : List Message) {done : List Message} {low : Nat}
    {pending : Option String} (h : PendingAt host done low pending) : ∃ places : List (Nat × Nat),
      List.Forall₂ (AnsweredAt host (done ++ messages)) places
        (committedFrom host pending messages) ∧
      places.Pairwise (fun p q => p.2 < q.1) ∧ ∀ p ∈ places, low ≤ p.1 := by
  induction messages generalizing done low pending with
  | nil =>
    rw [committedFrom]
    exact ⟨[], .nil, .nil, fun p hp => by cases hp⟩
  | cons message messages ih =>
    rw [committedFrom_cons, List.append_cons]
    cases hm : visible host message with
    | none => exact ih (h.hidden hm)
    | some v =>
      cases v with
      | user text =>
        obtain ⟨places, hall, hpair, hlow⟩ := ih (PendingAt.asked done hm)
        exact ⟨places, hall, hpair, fun p hp => le_trans h.low_le (hlow p hp)⟩
      | assistant text =>
        have hnone : PendingAt host (done ++ [message]) (done.length + 1) none := by
          show done.length + 1 ≤ (done ++ [message]).length
          rw [List.length_append, List.length_singleton]
        obtain ⟨places, hall, hpair, hlow⟩ := ih hnone
        have hle := h.low_le
        cases pending with
        | none =>
          refine ⟨places, hall, hpair, fun p hp => ?_⟩
          have := hlow p hp
          omega
        | some user =>
          obtain ⟨hlt, hasked, hbetween⟩ := h
          have hplace : AnsweredAt host (done ++ [message] ++ messages) (low, done.length)
              (user, text) := by
            refine ⟨?_, ?_, hlt, fun k hk hlast => ?_⟩
            · rw [List.append_assoc, List.getElem?_append_left hlt]
              exact hasked
            · rw [List.append_assoc, List.getElem?_append_right (le_refl _), Nat.sub_self]
              exact hm
            · rw [List.append_assoc, List.getElem?_append_left hlast]
              exact hbetween k hk hlast
          refine ⟨(low, done.length) :: places, .cons hplace hall,
            List.pairwise_cons.mpr ⟨fun q hq => ?_, hpair⟩, fun p hp => ?_⟩
          · have := hlow q hq
            omega
          · rcases List.mem_cons.mp hp with rfl | hp
            · exact le_refl _
            · have := hlow p hp
              omega

end Turns

/-- The committed turns depend only on what is visible. They are answers with the last user text
before them, each text used once, and more messages only add turns. -/
theorem capture_boundary (host : Host) :
    (∀ messages messages', messages.filterMap (visible host) = messages'.filterMap (visible host) →
      committedTurns host messages = committedTurns host messages' ∧
      committedTurnFingerprints host messages = committedTurnFingerprints host messages') ∧
    (∀ messages, ∃ places : List (Nat × Nat),
      List.Forall₂ (AnsweredAt host messages) places (committedTurns host messages) ∧
      places.Pairwise fun p q => p.2 < q.1) ∧
    ∀ messages more, committedTurns host messages <+: committedTurns host (messages ++ more) := by
  refine ⟨fun messages messages' h => ?_, fun messages => ?_, fun messages more => ?_⟩
  · have hturns : committedTurns host messages = committedTurns host messages' := by
      rw [committedTurns, committedTurns, committedFrom_visible, committedFrom_visible, h]
    exact ⟨hturns, by rw [committedTurnFingerprints, committedTurnFingerprints, hturns]⟩
  · have hstart : PendingAt host [] 0 none := Nat.zero_le _
    obtain ⟨places, hall, hpair, -⟩ := committedFrom_places messages hstart
    exact ⟨places, hall, hpair⟩
  · obtain ⟨pending, h⟩ := @committedFrom_append host none messages
    exact ⟨_, (h more).symm⟩

def sampleAsked : Message := [("role", .str "user"), ("content", .str "a")]

def sampleTool : Message := [("role", .str "tool"), ("content", .str "t")]

def sampleAnswered : Message := [("role", .str "assistant"), ("content", .str "b")]

theorem capture_boundary_plain :
    committedTurns Host.plain [sampleAsked, sampleTool, sampleAnswered]
      = committedTurns Host.plain [sampleAsked, sampleAnswered] :=
  ((capture_boundary Host.plain).1 [sampleAsked, sampleTool, sampleAnswered]
    [sampleAsked, sampleAnswered] rfl).1

end SibylMemory
