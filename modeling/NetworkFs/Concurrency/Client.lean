import Mathlib

/-!
# Clients that take turns on a server

A client is at a stage: it is finished with a result, or it has a request to send, and
the reply takes it to its next stage. Alone it runs to its result (`Client.Returns`).
Several clients take turns on one server in any order, one request at a time
(`System.run`, along a list of turns).

* `Client.Returns.unique`: a client alone has one result.
* `System.returns_of_run`: a client that finished among others did what it does alone
  when it gets the replies it got.
* `System.run_induction`: what every turn keeps holds after every run.
* `System.along_cases`: a run whose turns all meet a condition, or one that broke it.
-/

namespace NetworkFs.Concurrency

variable {ι S Q R α σ : Type}

/-- What a client does at a stage. -/
structure Client (S Q R α : Type) where
  /-- The result, or the request to send. -/
  view : S → α ⊕ Q
  /-- The stage after the reply. -/
  resume : S → R → S

/-- The client alone, from a stage and a server to its result and the server then. -/
inductive Client.Returns (c : Client S Q R α) (serve : Q → σ → R × σ) : S → σ → α → σ → Prop
  | done {x : S} {s : σ} {a : α} (h : c.view x = .inl a) : Returns c serve x s a s
  | ask {x : S} {s s' : σ} {q : Q} {a : α} (h : c.view x = .inr q)
      (hrest : Returns c serve (c.resume x (serve q s).1) (serve q s).2 a s') :
      Returns c serve x s a s'

theorem Client.Returns.unique {c : Client S Q R α} {serve : Q → σ → R × σ} {x : S} {s s' s'' : σ}
    {a a' : α} (h : c.Returns serve x s a s') (h' : c.Returns serve x s a' s'') :
    a = a' ∧ s' = s'' := by
  induction h with
  | done hview =>
    cases h' with
    | done hview' => exact ⟨Sum.inl.inj (hview.symm.trans hview'), rfl⟩
    | ask hview' => exact nomatch hview.symm.trans hview'
  | ask hview _ ih =>
    cases h' with
    | done hview' => exact nomatch hview.symm.trans hview'
    | ask hview' hrest' =>
      obtain rfl := Sum.inr.inj (hview.symm.trans hview')
      exact ih hrest'

/-- A server that gives prepared replies, whatever it is asked. -/
def scripted (_ : Q) (replies : ℕ → R) : R × (ℕ → R) := (replies 0, fun n => replies (n + 1))

/-- One reply more, before the others. -/
def prepend (r : R) (replies : ℕ → R) : ℕ → R
  | 0 => r
  | n + 1 => replies n

theorem scripted_prepend (q : Q) (r : R) (replies : ℕ → R) :
    scripted q (prepend r replies) = (r, replies) := rfl

/-- Clients, each at its stage, and the server between them. -/
structure System (ι S σ : Type) where
  stage : ι → S
  server : σ

namespace System

variable [DecidableEq ι] (c : ι → Client S Q R α) (serve : Q → σ → R × σ)

/-- The turn of client `i`: its request is carried out as a whole. A client that is
    finished does nothing. -/
def step (x : System ι S σ) (i : ι) : System ι S σ :=
  match (c i).view (x.stage i) with
  | .inl _ => x
  | .inr q =>
    ⟨Function.update x.stage i ((c i).resume (x.stage i) (serve q x.server).1), (serve q x.server).2⟩

/-- The clients take their turns in the order of the list. -/
def run (x : System ι S σ) (turns : List ι) : System ι S σ := turns.foldl (step c serve) x

variable {c serve}

@[simp] theorem run_nil (x : System ι S σ) : run c serve x [] = x := rfl

@[simp] theorem run_cons (x : System ι S σ) (i : ι) (turns : List ι) :
    run c serve x (i :: turns) = run c serve (step c serve x i) turns := rfl

theorem step_done {x : System ι S σ} {i : ι} {a : α} (h : (c i).view (x.stage i) = .inl a) :
    step c serve x i = x := by
  rw [step, h]

theorem step_ask {x : System ι S σ} {i : ι} {q : Q} (h : (c i).view (x.stage i) = .inr q) :
    step c serve x i = ⟨Function.update x.stage i
      ((c i).resume (x.stage i) (serve q x.server).1), (serve q x.server).2⟩ := by
  rw [step, h]

theorem step_ask_stage {x : System ι S σ} {i : ι} {q : Q} (h : (c i).view (x.stage i) = .inr q) :
    (step c serve x i).stage i = (c i).resume (x.stage i) (serve q x.server).1 := by
  rw [step_ask h]
  exact Function.update_self i _ _

theorem step_ask_server {x : System ι S σ} {i : ι} {q : Q} (h : (c i).view (x.stage i) = .inr q) :
    (step c serve x i).server = (serve q x.server).2 := by
  rw [step_ask h]

/-- A turn leaves the other clients at their stage. -/
theorem step_stage_ne (x : System ι S σ) {i j : ι} (h : j ≠ i) :
    (step c serve x i).stage j = x.stage j := by
  unfold step
  split
  · rfl
  · exact Function.update_of_ne h _ _

theorem returns_of_run [Nonempty R] (turns : List ι) (x : System ι S σ) {i : ι} {a : α}
    (h : (c i).view ((run c serve x turns).stage i) = .inl a) :
    ∃ replies rest, (c i).Returns scripted (x.stage i) replies a rest := by
  induction turns generalizing x with
  | nil => exact ⟨fun _ => Classical.arbitrary R, _, .done h⟩
  | cons j turns ih =>
    obtain ⟨replies, rest, hreturns⟩ := ih (step c serve x j) h
    by_cases hij : i = j
    · subst hij
      cases hview : (c i).view (x.stage i) with
      | inl b =>
        rw [step_done hview] at hreturns
        exact ⟨replies, rest, hreturns⟩
      | inr q =>
        rw [step_ask_stage hview] at hreturns
        -- the reply of this turn comes before those of the rest
        refine ⟨prepend (serve q x.server).1 replies, rest, .ask hview ?_⟩
        rw [scripted_prepend]
        exact hreturns
    · rw [step_stage_ne x hij] at hreturns
      exact ⟨replies, rest, hreturns⟩

theorem run_induction {P : System ι S σ → Prop} (hstep : ∀ x i, P x → P (step c serve x i))
    {x : System ι S σ} (h : P x) (turns : List ι) : P (run c serve x turns) := by
  induction turns generalizing x with
  | nil => exact h
  | cons i turns ih => exact ih (hstep x i h)

variable (c serve) in
/-- Every turn of the run meets `C`. -/
def Along (C : System ι S σ → ι → Prop) : System ι S σ → List ι → Prop
  | _, [] => True
  | x, i :: turns => C x i ∧ Along C (step c serve x i) turns

/-- `C` is what keeps `P`, and what comes of a turn without it stays. -/
theorem along_cases {P B : System ι S σ → Prop} {C : System ι S σ → ι → Prop}
    (hkeep : ∀ x i, P x → C x i → P (step c serve x i))
    (hbreak : ∀ x i, P x → ¬C x i → B (step c serve x i))
    (hstay : ∀ x i, B x → B (step c serve x i)) {x : System ι S σ} (h : P x) (turns : List ι) :
    (Along c serve C x turns ∧ P (run c serve x turns)) ∨
      (¬Along c serve C x turns ∧ B (run c serve x turns)) := by
  induction turns generalizing x with
  | nil => exact .inl ⟨trivial, h⟩
  | cons i turns ih =>
    by_cases hc : C x i
    · obtain ⟨halong, hp⟩ | ⟨halong, hb⟩ := ih (hkeep x i h hc)
      · exact .inl ⟨⟨hc, halong⟩, hp⟩
      · exact .inr ⟨fun hall => halong hall.2, hb⟩
    · exact .inr ⟨fun hall => hc hall.1, run_induction hstay (hbreak x i h hc) turns⟩

end System

end NetworkFs.Concurrency
