import Mathlib.Logic.Function.Basic
import Mathlib.Logic.Relation

/-!
# Programs that talk to a world

A program ends with a result, or makes a call and goes on with the reply. `run` answers it by a
function of the world's state. `Holds` is its rule when the world may answer in many ways and other
programs act between its calls, and a pool runs any number of programs side by side.
-/

inductive Dialogue (Call : Type) (Reply : Call → Type) (ε α : Type) where
  | done (result : Except ε α)
  | ask (call : Call) (next : Reply call → Dialogue Call Reply ε α)

namespace Dialogue
variable {Call : Type} {Reply : Call → Type} {ε ε' α β σ ι : Type}

/-- What follows a block, whether the block returns or raises. -/
def andThen : Dialogue Call Reply ε α → (Except ε α → Dialogue Call Reply ε' β) →
    Dialogue Call Reply ε' β
  | done result, k => k result
  | ask call next, k => ask call fun reply => (next reply).andThen k

def bind (p : Dialogue Call Reply ε α) (f : α → Dialogue Call Reply ε β) : Dialogue Call Reply ε β :=
  p.andThen fun
    | .ok a => f a
    | .error e => done (.error e)

instance : Monad (Dialogue Call Reply ε) where
  pure a := done (.ok a)
  bind := bind

/-! ### The calls of a program -/

/-- Whatever is replied, the program makes only calls with the property. -/
def Asks (allowed : Call → Prop) : Dialogue Call Reply ε α → Prop
  | done _ => True
  | ask call next => allowed call ∧ ∀ reply, (next reply).Asks allowed

theorem asks_pure (allowed : Call → Prop) (a : α) :
    (pure a : Dialogue Call Reply ε α).Asks allowed := trivial

theorem Asks.andThen {allowed : Call → Prop} {p : Dialogue Call Reply ε α}
    {k : Except ε α → Dialogue Call Reply ε' β} (hp : p.Asks allowed)
    (hk : ∀ result, (k result).Asks allowed) : (p.andThen k).Asks allowed := by
  induction p with
  | done result => exact hk result
  | ask call next ih => exact ⟨hp.1, fun reply => ih reply (hp.2 reply)⟩

theorem Asks.bind {allowed : Call → Prop} {p : Dialogue Call Reply ε α}
    {f : α → Dialogue Call Reply ε β} (hp : p.Asks allowed) (hf : ∀ a, (f a).Asks allowed) :
    (p >>= f).Asks allowed :=
  hp.andThen fun
    | .ok a => hf a
    | .error _ => trivial

theorem Asks.mono {allowed allowed' : Call → Prop} (h : ∀ c, allowed c → allowed' c)
    {p : Dialogue Call Reply ε α} (hp : p.Asks allowed) : p.Asks allowed' := by
  induction p with
  | done result => trivial
  | ask call next ih => exact ⟨h call hp.1, fun reply => ih reply (hp.2 reply)⟩

/-- The program, stopped behind its first `n` calls; `none` is the result of a stopped one. -/
def cut : Dialogue Call Reply ε α → Nat → Dialogue Call Reply ε (Option α)
  | done result, _ => done (result.map some)
  | ask _ _, 0 => done (.ok none)
  | ask call next, n + 1 => ask call fun reply => (next reply).cut n

theorem Asks.cut {allowed : Call → Prop} {p : Dialogue Call Reply ε α} (hp : p.Asks allowed) (n : Nat) :
    (p.cut n).Asks allowed := by
  induction p generalizing n with
  | done result =>
    rw [Dialogue.cut]
    trivial
  | ask call next ih =>
    cases n with
    | zero => trivial
    | succ n => exact ⟨hp.1, fun reply => ih reply (hp.2 reply) n⟩

/-! ### Answered by a function -/

def run (answer : σ → (c : Call) → Reply c × σ) : Dialogue Call Reply ε α → σ → Except ε α × σ
  | done result, s => (result, s)
  | ask call next, s => (next (answer s call).1).run answer (answer s call).2

theorem run_andThen (answer : σ → (c : Call) → Reply c × σ) (p : Dialogue Call Reply ε α)
    (k : Except ε α → Dialogue Call Reply ε' β) (s : σ) :
    (p.andThen k).run answer s = (k (p.run answer s).1).run answer (p.run answer s).2 := by
  induction p generalizing s with
  | done result => rfl
  | ask call next ih => exact ih _ _

theorem run_bind (answer : σ → (c : Call) → Reply c × σ) (p : Dialogue Call Reply ε α)
    (f : α → Dialogue Call Reply ε β) (s : σ) :
    (p >>= f).run answer s = match p.run answer s with
      | (.ok a, s') => (f a).run answer s'
      | (.error e, s') => (.error e, s') := by
  refine (run_andThen answer p _ s).trans ?_
  obtain ⟨result, s'⟩ := p.run answer s
  cases result <;> rfl

/-- What every allowed call keeps, the run keeps. -/
theorem run_invariant {answer : σ → (c : Call) → Reply c × σ} {allowed : Call → Prop} {I : σ → Prop}
    (hstep : ∀ s c, I s → allowed c → I (answer s c).2) {p : Dialogue Call Reply ε α}
    (hp : p.Asks allowed) {s : σ} (hs : I s) : I (p.run answer s).2 := by
  induction p generalizing s with
  | done result => exact hs
  | ask call next ih => exact ih _ (hp.2 _) (hstep s call hs hp.1)

/-! ### Transcripts -/

/-- A call with its reply. -/
abbrev Exchanged (Reply : Call → Type) : Type := (c : Call) × Reply c

/-- A world that answers by what was said before, and writes everything down. -/
def record (net : List (Exchanged Reply) → (c : Call) → Reply c) (log : List (Exchanged Reply))
    (c : Call) : Reply c × List (Exchanged Reply) :=
  (net log c, log ++ [⟨c, net log c⟩])

theorem record_asks {net : List (Exchanged Reply) → (c : Call) → Reply c} {allowed : Call → Prop}
    {p : Dialogue Call Reply ε α} (hp : p.Asks allowed) {log : List (Exchanged Reply)}
    (hlog : ∀ x ∈ log, allowed x.1) (x : Exchanged Reply) (hx : x ∈ (p.run (record net) log).2) :
    allowed x.1 := by
  refine run_invariant (I := fun log => ∀ x ∈ log, allowed (x : Exchanged Reply).1) ?_ hp hlog x hx
  intro log c hlog hc x hx
  rcases List.mem_append.mp hx with hx | hx
  · exact hlog x hx
  · cases List.mem_singleton.mp hx
    exact hc

/-- Whatever is replied, the program ends with the property of its result and its transcript. -/
def Ends (post : Except ε α → List (Exchanged Reply) → Prop) :
    Dialogue Call Reply ε α → List (Exchanged Reply) → Prop
  | done result, log => post result log
  | ask call next, log => ∀ reply, (next reply).Ends post (log ++ [⟨call, reply⟩])

theorem ends_pure {post : Except ε α → List (Exchanged Reply) → Prop} {a : α}
    {log : List (Exchanged Reply)} :
    (pure a : Dialogue Call Reply ε α).Ends post log ↔ post (.ok a) log := Iff.rfl

theorem Ends.andThen {post : Except ε α → List (Exchanged Reply) → Prop}
    {post' : Except ε' β → List (Exchanged Reply) → Prop} {p : Dialogue Call Reply ε α}
    {k : Except ε α → Dialogue Call Reply ε' β} {log : List (Exchanged Reply)} (hp : p.Ends post log)
    (hk : ∀ result log, post result log → (k result).Ends post' log) : (p.andThen k).Ends post' log := by
  induction p generalizing log with
  | done result => exact hk result log hp
  | ask call next ih => exact fun reply => ih reply (hp reply)

theorem Ends.bind {post : Except ε α → List (Exchanged Reply) → Prop}
    {post' : Except ε β → List (Exchanged Reply) → Prop} {p : Dialogue Call Reply ε α}
    {f : α → Dialogue Call Reply ε β} {log : List (Exchanged Reply)} (hp : p.Ends post log)
    (hf : ∀ a log, post (.ok a) log → (f a).Ends post' log)
    (he : ∀ e log, post (.error e) log → post' (.error e) log) : (p.bind f).Ends post' log :=
  hp.andThen fun
    | .ok a, log, h => hf a log h
    | .error e, log, h => he e log h

theorem Ends.cut {post : Except ε α → List (Exchanged Reply) → Prop} {p : Dialogue Call Reply ε α}
    {log : List (Exchanged Reply)} (hp : p.Ends post log) (n : Nat) :
    (p.cut n).Ends (fun result log => result = .ok none ∨ ∃ r, result = r.map some ∧ post r log) log := by
  induction p generalizing n log with
  | done result =>
    rw [Dialogue.cut]
    exact .inr ⟨result, rfl, hp⟩
  | ask call next ih =>
    cases n with
    | zero => exact .inl rfl
    | succ n => exact fun reply => ih reply (hp reply) n

theorem Ends.mono {post post' : Except ε α → List (Exchanged Reply) → Prop}
    (h : ∀ result log, post result log → post' result log) {p : Dialogue Call Reply ε α}
    {log : List (Exchanged Reply)} (hp : p.Ends post log) : p.Ends post' log := by
  induction p generalizing log with
  | done result => exact h result log hp
  | ask call next ih => exact fun reply => ih reply (hp reply)

theorem ends_extends (p : Dialogue Call Reply ε α) (log : List (Exchanged Reply)) :
    p.Ends (fun _ log' => log <+: log') log := by
  induction p generalizing log with
  | done result => exact List.prefix_refl log
  | ask call next ih =>
    exact fun reply => (ih reply _).mono fun _ _ h => (List.prefix_append log _).trans h

theorem Ends.and {post post' : Except ε α → List (Exchanged Reply) → Prop}
    {p : Dialogue Call Reply ε α} {log : List (Exchanged Reply)} (hp : p.Ends post log)
    (hp' : p.Ends post' log) : p.Ends (fun result log => post result log ∧ post' result log) log := by
  induction p generalizing log with
  | done result => exact ⟨hp, hp'⟩
  | ask call next ih => exact fun reply => ih reply (hp reply) (hp' reply)

theorem record_ends {net : List (Exchanged Reply) → (c : Call) → Reply c}
    {post : Except ε α → List (Exchanged Reply) → Prop} {p : Dialogue Call Reply ε α}
    {log : List (Exchanged Reply)} (hp : p.Ends post log) :
    post (p.run (record net) log).1 (p.run (record net) log).2 := by
  induction p generalizing log with
  | done result => exact hp
  | ask call next ih => exact ih _ (hp _)

/-! ### Rely and guarantee -/

section Logic
variable (respond : σ → (c : Call) → Reply c → σ → Prop) (rely guarantee : σ → σ → Prop)

/-- However the world answers, and whatever the others do within `rely` before each call, each call
changes the world within `guarantee`, and the result comes with `post`. -/
def Holds (post : Except ε α → σ → Prop) : Dialogue Call Reply ε α → σ → Prop
  | done result, s => ∀ s', rely s s' → post result s'
  | ask call next, s => ∀ s', rely s s' → ∀ reply s'', respond s' call reply s'' →
      guarantee s' s'' ∧ (next reply).Holds post s''

variable {respond rely guarantee} {post : Except ε α → σ → Prop}

theorem Holds.stable (htrans : ∀ s s' s'', rely s s' → rely s' s'' → rely s s'')
    {p : Dialogue Call Reply ε α} {s s' : σ} (h : p.Holds respond rely guarantee post s)
    (hs : rely s s') : p.Holds respond rely guarantee post s' := by
  cases p with
  | done result => exact fun s'' hs'' => h s'' (htrans _ _ _ hs hs'')
  | ask call next => exact fun s'' hs'' => h s'' (htrans _ _ _ hs hs'')

theorem Holds.andThen (hrefl : ∀ s, rely s s) {post' : Except ε' β → σ → Prop}
    {p : Dialogue Call Reply ε α} {k : Except ε α → Dialogue Call Reply ε' β} {s : σ}
    (hp : p.Holds respond rely guarantee post s)
    (hk : ∀ result s, post result s → (k result).Holds respond rely guarantee post' s) :
    (p.andThen k).Holds respond rely guarantee post' s := by
  induction p generalizing s with
  | done result => exact hk result s (hp s (hrefl s))
  | ask call next ih =>
    intro s' hs reply s'' hreply
    obtain ⟨hg, hnext⟩ := hp s' hs reply s'' hreply
    exact ⟨hg, ih reply hnext⟩

/-- A property of what is returned; what is raised may have any. -/
def Returns (P : α → σ → Prop) : Except ε α → σ → Prop
  | .ok a, s => P a s
  | .error _, _ => True

theorem Holds.bind (hrefl : ∀ s, rely s s) {P : α → σ → Prop} {Q : β → σ → Prop}
    {p : Dialogue Call Reply ε α} {f : α → Dialogue Call Reply ε β} {s : σ}
    (hp : p.Holds respond rely guarantee (Returns P) s)
    (hf : ∀ a s, P a s → (f a).Holds respond rely guarantee (Returns Q) s) :
    (p >>= f).Holds respond rely guarantee (Returns Q) s :=
  hp.andThen hrefl fun
    | .ok a, s, h => hf a s h
    | .error _, _, _ => fun _ _ => trivial

theorem Holds.ended (hrefl : ∀ s, rely s s) {p : Dialogue Call Reply ε α} {s : σ}
    (hp : p.Holds respond rely guarantee post s) {result : Except ε α} (hdone : p = done result) :
    post result s := by
  subst hdone
  exact hp s (hrefl s)

theorem Holds.mono {post' : Except ε α → σ → Prop} (h : ∀ result s, post result s → post' result s)
    {p : Dialogue Call Reply ε α} {s : σ} (hp : p.Holds respond rely guarantee post s) :
    p.Holds respond rely guarantee post' s := by
  induction p generalizing s with
  | done result => exact fun s' hs => h result s' (hp s' hs)
  | ask call next ih =>
    intro s' hs reply s'' hreply
    obtain ⟨hg, hnext⟩ := hp s' hs reply s'' hreply
    exact ⟨hg, ih reply hnext⟩

end Logic

/-! ### Pools -/

section Pools
variable [DecidableEq ι] (respond : ι → σ → (c : Call) → Reply c → σ → Prop)

/-- One of the programs makes its next call. A program that never moves again was stopped. -/
inductive Step : (ι → Dialogue Call Reply ε α) × σ → (ι → Dialogue Call Reply ε α) × σ → Prop where
  | call (pool : ι → Dialogue Call Reply ε α) (s : σ) (i : ι) (c : Call)
      (next : Reply c → Dialogue Call Reply ε α) (reply : Reply c) (s' : σ) (asks : pool i = ask c next)
      (answered : respond i s c reply s') : Step (pool, s) (Function.update pool i (next reply), s')

def Reaches : (ι → Dialogue Call Reply ε α) × σ → (ι → Dialogue Call Reply ε α) × σ → Prop :=
  Relation.ReflTransGen (Step respond)

/-- A program answered by a function is a run of a pool in which the others rest. -/
theorem reaches_run {respond} (i : ι) {answer : σ → (c : Call) → Reply c × σ}
    (hanswer : ∀ s c, respond i s c (answer s c).1 (answer s c).2) {p : Dialogue Call Reply ε α}
    {pool : ι → Dialogue Call Reply ε α} (hp : pool i = p) (s : σ) :
    Reaches respond (pool, s) (Function.update pool i (done (p.run answer s).1), (p.run answer s).2) := by
  induction p generalizing pool s with
  | done result =>
    rw [run, ← hp, Function.update_eq_self]
    exact .refl
  | ask call next ih =>
    have hstep := Step.call pool s i call next (answer s call).1 (answer s call).2 hp (hanswer s call)
    have hnext : Function.update pool i (next (answer s call).1) i = next (answer s call).1 :=
      Function.update_self ..
    have hrest := ih (answer s call).1 hnext (answer s call).2
    rw [Function.update_idem] at hrest
    exact .head hstep hrest

variable {respond} {rely guarantee : ι → σ → σ → Prop} {post : ι → Except ε α → σ → Prop}

theorem step_holds (hrefl : ∀ i s, rely i s s)
    (htrans : ∀ i s s' s'', rely i s s' → rely i s' s'' → rely i s s'')
    (hothers : ∀ i j s s', i ≠ j → guarantee j s s' → rely i s s')
    {x y : (ι → Dialogue Call Reply ε α) × σ} (hstep : Step respond x y)
    (hx : ∀ i, (x.1 i).Holds (respond i) (rely i) (guarantee i) (post i) x.2) :
    (∃ i, guarantee i x.2 y.2) ∧
      ∀ i, (y.1 i).Holds (respond i) (rely i) (guarantee i) (post i) y.2 := by
  cases hstep with
  | call pool s i c next reply s' asks answered =>
    have hi := hx i
    simp only [asks] at hi
    obtain ⟨hg, hnext⟩ := hi s (hrefl i s) reply s' answered
    refine ⟨⟨i, hg⟩, fun j => ?_⟩
    by_cases hji : j = i
    · subst hji
      simp only [Function.update_self]
      exact hnext
    · simp only [Function.update_of_ne hji]
      exact (hx j).stable (htrans j) (hothers j i s s' hji hg)

/-- Each program of a pool meets its rule in every state that the pool reaches, and the world has
changed by guaranteed steps only. -/
theorem reaches_holds (hrefl : ∀ i s, rely i s s)
    (htrans : ∀ i s s' s'', rely i s s' → rely i s' s'' → rely i s s'')
    (hothers : ∀ i j s s', i ≠ j → guarantee j s s' → rely i s s')
    {x y : (ι → Dialogue Call Reply ε α) × σ} (h : Reaches respond x y)
    (hx : ∀ i, (x.1 i).Holds (respond i) (rely i) (guarantee i) (post i) x.2) :
    Relation.ReflTransGen (fun s s' => ∃ i, guarantee i s s') x.2 y.2 ∧
      ∀ i, (y.1 i).Holds (respond i) (rely i) (guarantee i) (post i) y.2 := by
  induction h with
  | refl => exact ⟨.refl, hx⟩
  | tail _ hstep ih =>
    obtain ⟨hg, hholds⟩ := step_holds hrefl htrans hothers hstep ih.2
    exact ⟨ih.1.tail hg, hholds⟩

end Pools

end Dialogue
