import Mathlib.Logic.Function.Basic
import Mathlib.Data.List.Basic

/-!
# Histories and atomic objects

An object with operations is implemented by threads that interleave. What a client sees of a run
is its history: which thread called what, which came back with what, and in which order. The
implementation is correct if each of its histories is one of the atomic object, where an operation
takes effect in a single step between its call and its return.

* `Lts.Runs`: the runs of a labelled transition system, with their labels.
* `Simulation.runs`: a simulation carries histories over.
* `atomic`: the atomic object of a sequential specification.
-/

namespace NetworkFs.Concurrency

variable {σ τ ε : Type}

/-! ## Labelled transitions -/

/-- A step without a label is internal. -/
structure Lts (σ ε : Type) where
  step : σ → Option ε → σ → Prop

/-- A run, and the labels on its way. -/
inductive Lts.Runs (l : Lts σ ε) (s : σ) : List ε → σ → Prop
  | refl : l.Runs s [] s
  | step {es s' e s''} (before : l.Runs s es s') (h : l.step s' e s'') : l.Runs s (es ++ e.toList) s''

theorem Lts.Runs.single {l : Lts σ ε} {s s' : σ} {e : Option ε} (h : l.step s e s') :
    l.Runs s e.toList s' :=
  .step .refl h

theorem Lts.Runs.append {l : Lts σ ε} {s s' s'' : σ} {es es' : List ε} (hfirst : l.Runs s es s')
    (hsecond : l.Runs s' es' s'') : l.Runs s (es ++ es') s'' := by
  induction hsecond with
  | refl =>
    rw [List.append_nil]
    exact hfirst
  | step _ h ih =>
    rw [← List.append_assoc]
    exact ih.step h

/-- A step of `c` is matched by a run of `a` with the same label. -/
structure Simulation (c : Lts σ ε) (a : Lts τ ε) (R : σ → τ → Prop) : Prop where
  step : ∀ {s e s' x}, R s x → c.step s e s' → ∃ x', a.Runs x e.toList x' ∧ R s' x'

/-- What `c` shows, `a` shows. -/
theorem Simulation.runs {c : Lts σ ε} {a : Lts τ ε} {R : σ → τ → Prop} (hsim : Simulation c a R)
    {s s' : σ} {x : τ} {es : List ε} (h : R s x) (hrun : c.Runs s es s') :
    ∃ x', a.Runs x es x' ∧ R s' x' := by
  induction hrun with
  | refl => exact ⟨x, .refl, h⟩
  | step _ hstep ih =>
    obtain ⟨x₁, hfirst, h₁⟩ := ih
    obtain ⟨x₂, hsecond, h₂⟩ := hsim.step h₁ hstep
    exact ⟨x₂, hfirst.append hsecond, h₂⟩

/-! ## Atomic objects -/

variable {T O R S : Type}

/-- Where a thread is: in no operation, in one that has not taken effect, or in one that has. -/
inductive Phase (O R : Type) where
  | idle
  | called (op : O)
  | done (r : R)

/-- What a client sees: a call, or a return. -/
inductive Event (T O R : Type) where
  | call (t : T) (op : O)
  | ret (t : T) (r : R)

/-- What a client sees of a thread that goes from one phase to another. -/
def Phase.event (t : T) : Phase O R → Phase O R → Option (Event T O R)
  | idle, called op => some (.call t op)
  | done r, idle => some (.ret t r)
  | _, _ => none

/-- The object, and where its threads are. -/
structure Atomic (T S O R : Type) where
  state : S
  phase : T → Phase O R

variable [DecidableEq T]

/-- Thread `t` comes to the phase `p`, and the object to `state`. -/
def Atomic.goto (x : Atomic T S O R) (t : T) (p : Phase O R) (state : S) : Atomic T S O R :=
  ⟨state, Function.update x.phase t p⟩

/-- The atomic object: `apply op` gives the result and the next state. -/
inductive AtomicStep (apply : O → S → R × S) :
    Atomic T S O R → Option (Event T O R) → Atomic T S O R → Prop
  | call {x t op} (h : x.phase t = .idle) :
    AtomicStep apply x (some (.call t op)) (x.goto t (.called op) x.state)
  | effect {x t op} (h : x.phase t = .called op) :
    AtomicStep apply x none (x.goto t (.done (apply op x.state).1) (apply op x.state).2)
  | ret {x t r} (h : x.phase t = .done r) :
    AtomicStep apply x (some (.ret t r)) (x.goto t .idle x.state)

/-- The object whose operations take effect in one step. -/
def atomic (T : Type) [DecidableEq T] (apply : O → S → R × S) :
    Lts (Atomic T S O R) (Event T O R) := ⟨AtomicStep apply⟩

section Moves

variable {apply : O → S → R × S} {x : Atomic T S O R} {t : T} {p q : Phase O R}

/-- A thread that stays where it is shows nothing. -/
theorem atomic_stays (hp : x.phase t = p) :
    (atomic T apply).Runs x (Phase.event t p p).toList (x.goto t p x.state) := by
  have hsame : x.goto t p x.state = x := by
    rw [Atomic.goto, ← hp, Function.update_eq_self]
  have hnone : Phase.event t p p = none := by cases p <;> rfl
  rw [hsame, hnone]
  exact .refl

theorem atomic_calls (op : O) (hp : x.phase t = .idle) :
    (atomic T apply).Runs x (Phase.event t (.idle : Phase O R) (.called op)).toList
      (x.goto t (.called op) x.state) :=
  .single (AtomicStep.call hp)

theorem atomic_effects {op : O} {r : R} {state : S} (hp : x.phase t = .called op)
    (happly : apply op x.state = (r, state)) :
    (atomic T apply).Runs x (Phase.event t (.called op) (.done r)).toList
      (x.goto t (.done r) state) := by
  have hstep : AtomicStep apply x none
      (x.goto t (.done (apply op x.state).1) (apply op x.state).2) := .effect hp
  rw [happly] at hstep
  exact .single hstep

theorem atomic_returns {r : R} (hp : x.phase t = .done r) :
    (atomic T apply).Runs x (Phase.event t (.done r) (.idle : Phase O R)).toList
      (x.goto t .idle x.state) :=
  .single (AtomicStep.ret hp)

end Moves

/-! ## The stack -/

/-- The operations of a stack. -/
inductive StackOp (H : Type) where
  | pop
  | push (h : H)

/-- The last pushed comes off first; an empty stack gives nothing. -/
def stackApply {H : Type} : StackOp H → List H → Option H × List H
  | .pop, [] => (none, [])
  | .pop, h :: hs => (some h, hs)
  | .push h, hs => (none, h :: hs)

end NetworkFs.Concurrency
