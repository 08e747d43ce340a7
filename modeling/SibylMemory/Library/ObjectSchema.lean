import SibylMemory.Library.PyValue
import Mathlib.Data.List.Nodup

/-!
# Schemas of argument objects

The part of JSON Schema that describes the arguments of a tool: texts, booleans and arrays under
names, some of them required, and no other names.
-/

inductive ValueSchema where
  | text (maxLength : Option Nat) (values : Option (List String))
  | boolean (default : Option Bool)
  | array (maxItems : Option Nat) (items : ValueSchema)

/-- An object with `additionalProperties: false`. -/
structure ObjectSchema where
  properties : List (String × ValueSchema)
  required : List String

def ValueSchema.accepts : ValueSchema → PyValue → Bool
  | .text maxLength values, .str s =>
    maxLength.all (fun n => decide (s.length ≤ n)) && values.all fun vs => decide (s ∈ vs)
  | .boolean _, .bool _ => true
  | .array maxItems items, .list xs => maxItems.all (fun n => decide (xs.length ≤ n)) && xs.all items.accepts
  | _, _ => false

namespace ObjectSchema

def names (o : ObjectSchema) : List String := o.properties.map Prod.fst

def accepts (o : ObjectSchema) (args : List (String × PyValue)) : Bool :=
  (args.all fun e => decide (e.1 ∈ o.names)) && (o.required.all fun k => (PyValue.lookup k args).isSome) &&
    o.properties.all fun p => (PyValue.lookup p.1 args).all p.2.accepts

section Declared
variable {ps : List (String × ValueSchema)} (f : String → Option PyValue)

/-- The entries under the names of the properties. -/
def under (ps : List (String × ValueSchema)) (f : String → Option PyValue) : List (String × PyValue) :=
  ps.filterMap fun p => (f p.1).map fun v => (p.1, v)

theorem under_names {e : String × PyValue} (he : e ∈ under ps f) : e.1 ∈ ps.map Prod.fst := by
  obtain ⟨p, hp, he⟩ := List.mem_filterMap.mp he
  obtain ⟨v, -, rfl⟩ := Option.map_eq_some_iff.mp he
  exact List.mem_map_of_mem hp

theorem lookup_absent {key : String} {es : List (String × PyValue)} (h : ∀ e ∈ es, e.1 ≠ key) :
    PyValue.lookup key es = none := by
  induction es with
  | nil => rfl
  | cons e es ih =>
    rw [PyValue.lookup, if_neg (h e (.head _))]
    exact ih fun e' he' => h e' (.tail _ he')

theorem lookup_under (hnames : (ps.map Prod.fst).Nodup) {p : String × ValueSchema} (hp : p ∈ ps) :
    PyValue.lookup p.1 (under ps f) = f p.1 := by
  induction ps with
  | nil => cases hp
  | cons q ps ih =>
    obtain ⟨hq, hrest⟩ := List.nodup_cons.mp hnames
    have hlater {e : String × PyValue} (he : e ∈ under ps f) : e.1 ≠ q.1 := by
      intro heq
      exact hq (heq ▸ under_names f he)
    rcases List.mem_cons.mp hp with rfl | hp
    · cases hf : f p.1 with
      | none =>
        rw [under, List.filterMap_cons_none (by rw [hf]; rfl)]
        exact lookup_absent fun e he => hlater he
      | some v =>
        rw [under, List.filterMap_cons_some (by rw [hf]; rfl), PyValue.lookup, if_pos rfl]
    · have hne : q.1 ≠ p.1 := fun heq => hq (heq ▸ List.mem_map_of_mem hp)
      cases hf : f q.1 with
      | none =>
        rw [under, List.filterMap_cons_none (by rw [hf]; rfl)]
        exact ih hrest hp
      | some v =>
        rw [under, List.filterMap_cons_some (by rw [hf]; rfl), PyValue.lookup, if_neg hne]
        exact ih hrest hp

end Declared

/-- The declared arguments that are kept. -/
def declared (o : ObjectSchema) (keep : String → PyValue → Bool) (args : List (String × PyValue)) :
    List (String × PyValue) :=
  under o.properties fun k => (PyValue.lookup k args).filter (keep k)

variable {o : ObjectSchema} {keep : String → PyValue → Bool} {args : List (String × PyValue)}

theorem lookup_declared (hnames : o.names.Nodup) {p : String × ValueSchema} (hp : p ∈ o.properties) :
    PyValue.lookup p.1 (o.declared keep args) = (PyValue.lookup p.1 args).filter (keep p.1) :=
  lookup_under _ hnames hp

theorem declared_names {e : String × PyValue} (he : e ∈ o.declared keep args) : e.1 ∈ o.names :=
  under_names _ he

theorem forall_declared {P : PyValue → Prop} : (∀ e ∈ o.declared keep args, P e.2) ↔
    ∀ p ∈ o.properties, ∀ v, (PyValue.lookup p.1 args).filter (keep p.1) = some v → P v := by
  constructor
  · intro h p hp v hv
    exact h (p.1, v) (List.mem_filterMap.mpr ⟨p, hp, congrArg (Option.map fun v => (p.1, v)) hv⟩)
  · intro h e he
    obtain ⟨p, hp, he⟩ := List.mem_filterMap.mp he
    obtain ⟨v, hv, rfl⟩ := Option.map_eq_some_iff.mp he
    exact h p hp v hv

/-- A property holds of an object when a value is under its name and fits, or need not be there. -/
def Holds (o : ObjectSchema) (p : String × ValueSchema) : Option PyValue → Prop
  | some v => p.2.accepts v = true
  | none => p.1 ∉ o.required

theorem accepts_declared (hnames : o.names.Nodup) (hrequired : ∀ k ∈ o.required, k ∈ o.names) :
    o.accepts (o.declared keep args) = true ↔
      ∀ p ∈ o.properties, o.Holds p ((PyValue.lookup p.1 args).filter (keep p.1)) := by
  have hdeclared : (o.declared keep args).all (fun e => decide (e.1 ∈ o.names)) = true :=
    List.all_eq_true.mpr fun e he => decide_eq_true (declared_names he)
  rw [accepts, hdeclared, Bool.true_and, Bool.and_eq_true, List.all_eq_true, List.all_eq_true]
  constructor
  · rintro ⟨hthere, hfits⟩ p hp
    have hfit := hfits p hp
    rw [lookup_declared hnames hp] at hfit
    cases hv : (PyValue.lookup p.1 args).filter (keep p.1) with
    | some v =>
      rw [hv] at hfit
      exact hfit
    | none =>
      intro hneeded
      have hsome := hthere p.1 hneeded
      rw [lookup_declared hnames hp, hv] at hsome
      cases hsome
  · intro h
    refine ⟨fun k hk => ?_, fun p hp => ?_⟩
    · obtain ⟨p, hp, rfl⟩ := List.mem_map.mp (hrequired k hk)
      have hholds := h p hp
      rw [lookup_declared hnames hp]
      cases hv : (PyValue.lookup p.1 args).filter (keep p.1) with
      | some v => rfl
      | none =>
        rw [hv] at hholds
        exact absurd hk hholds
    · have hholds := h p hp
      rw [lookup_declared hnames hp]
      cases hv : (PyValue.lookup p.1 args).filter (keep p.1) with
      | some v =>
        rw [hv] at hholds
        exact hholds
      | none => rfl

end ObjectSchema
