import Mathlib

/-!
# C statements with labels and `goto`

A statement may be entered at its start or at a label inside it; entering a branch of an `if` or
the body of a loop at a label does not test anything. A `goto` looks for its label in the
innermost statement around it that has it, which is then entered there. With every label once
in a function this is the meaning of C.

* `exec`: the interpreter, with fuel for every statement and every jump.
* `Ev entry s t o t'`: with enough fuel, `s` entered at `entry` in the state `t` leaves by `o` in
  the state `t'`. `Ev.unique` says that there is one such way, and the rules after it say which.
-/

namespace NetworkFs.Control

variable {L σ : Type}

/-- Statements with labels `L` over the state `σ`. -/
inductive Stmt (L σ : Type) where
  | skip
  /-- A statement without control flow. -/
  | act (f : σ → σ)
  | brk
  | goto (l : L)
  | label (l : L) (s : Stmt L σ)
  | seq (a b : Stmt L σ)
  /-- `if (c) a else b`. -/
  | ite (c : σ → Bool) (a b : Stmt L σ)
  /-- `while (1) s` and `for (;;) s`. -/
  | loop (s : Stmt L σ)
  /-- `switch (1) case 1: s`. -/
  | once (s : Stmt L σ)

namespace Stmt

/-- The labels in a statement. -/
def labels : Stmt L σ → List L
  | skip | act _ | brk | goto _ => []
  | label l s => l :: s.labels
  | seq a b | ite _ a b => a.labels ++ b.labels
  | loop s | once s => s.labels

end Stmt

/-- How a statement leaves. -/
inductive Out (L : Type) where
  | fall
  | brk
  | jump (l : L)
  deriving DecidableEq

variable [DecidableEq L]

/-- `ex` on the first statement, and on the second if the first falls through. -/
def thenExec (r : Option (Out L × σ)) (next : σ → Option (Out L × σ)) : Option (Out L × σ) :=
  match r with
  | some (.fall, t) => next t
  | r => r

/-- One pass through a statement, with `ex` for the statements inside. -/
def pass (ex : Option L → Stmt L σ → σ → Option (Out L × σ)) :
    Option L → Stmt L σ → σ → Option (Out L × σ)
  | none, .skip, t => some (.fall, t)
  | none, .act f, t => some (.fall, f t)
  | none, .brk, t => some (.brk, t)
  | none, .goto l, t => some (.jump l, t)
  | none, .label _ s, t => ex none s t
  | none, .seq a b, t => thenExec (ex none a t) (ex none b)
  | none, .ite c a b, t => if c t then ex none a t else ex none b t
  | some l, .label l' s, t => if l = l' then ex none s t else ex (some l) s t
  | some l, .seq a b, t =>
    if l ∈ a.labels then thenExec (ex (some l) a t) (ex none b) else ex (some l) b t
  | some l, .ite _ a b, t => if l ∈ a.labels then ex (some l) a t else ex (some l) b t
  | entry, .loop s, t =>
    match ex entry s t with
    | some (.fall, t') => ex none (.loop s) t'
    | some (.brk, t') => some (.fall, t')
    | r => r
  | entry, .once s, t =>
    match ex entry s t with
    | some (.brk, t') => some (.fall, t')
    | r => r
  | some _, _, _ => none

/-- A statement, entered at its start or at a label. A jump to a label inside enters it again. -/
def exec : ℕ → Option L → Stmt L σ → σ → Option (Out L × σ)
  | 0, _, _, _ => none
  | n + 1, entry, s, t =>
    match pass (exec n) entry s t with
    | some (.jump l, t') => if l ∈ s.labels then exec n (some l) s t' else some (.jump l, t')
    | r => r

/-! ## More fuel -/

/-- `ex'` gives what `ex` gives. -/
def Extends (ex ex' : Option L → Stmt L σ → σ → Option (Out L × σ)) : Prop :=
  ∀ entry s t r, ex entry s t = some r → ex' entry s t = some r

omit [DecidableEq L] in
theorem thenExec_extends {r r' : Option (Out L × σ)} {next next' : σ → Option (Out L × σ)}
    (hr : ∀ x, r = some x → r' = some x) (hnext : ∀ t x, next t = some x → next' t = some x)
    (x : Out L × σ) (h : thenExec r next = some x) : thenExec r' next' = some x := by
  rcases r with _ | ⟨_ | _ | l, t⟩
  · exact nomatch h
  · rw [hr _ rfl]
    exact hnext t x h
  · rw [hr _ rfl]
    exact h
  · rw [hr _ rfl]
    exact h

theorem pass_extends {ex ex' : Option L → Stmt L σ → σ → Option (Out L × σ)}
    (h : Extends ex ex') : Extends (pass ex) (pass ex') := by
  intro entry s t r hr
  cases s with
  | skip | act | brk | goto => cases entry <;> exact hr
  | label l' s =>
    cases entry with
    | none => exact h _ _ _ _ hr
    | some l =>
      simp only [pass] at hr ⊢
      split_ifs at hr ⊢ with hl
      · exact h _ _ _ _ hr
      · exact h _ _ _ _ hr
  | seq a b =>
    cases entry with
    | none => exact thenExec_extends (h _ _ _) (h _ _) r hr
    | some l =>
      simp only [pass] at hr ⊢
      split_ifs at hr ⊢ with hl
      · exact thenExec_extends (h _ _ _) (h _ _) r hr
      · exact h _ _ _ _ hr
  | ite c a b =>
    cases entry with
    | none =>
      simp only [pass] at hr ⊢
      split_ifs at hr ⊢ with hc
      · exact h _ _ _ _ hr
      · exact h _ _ _ _ hr
    | some l =>
      simp only [pass] at hr ⊢
      split_ifs at hr ⊢ with hl
      · exact h _ _ _ _ hr
      · exact h _ _ _ _ hr
  | loop s =>
    have hloop : ∀ entry, pass ex entry (.loop s) t = some r → pass ex' entry (.loop s) t = some r := by
      intro entry hr
      rcases hs : ex entry s t with _ | ⟨_ | _ | l, t'⟩
      · simp [pass, hs] at hr
      · simp only [pass, hs] at hr
        simp only [pass, h _ _ _ _ hs]
        exact h _ _ _ _ hr
      · simpa [pass, hs, h _ _ _ _ hs] using hr
      · simpa [pass, hs, h _ _ _ _ hs] using hr
    exact hloop entry hr
  | once s =>
    rcases hs : ex entry s t with _ | ⟨_ | _ | l, t'⟩
    · simp [pass, hs] at hr
    · simpa [pass, hs, h _ _ _ _ hs] using hr
    · simpa [pass, hs, h _ _ _ _ hs] using hr
    · simpa [pass, hs, h _ _ _ _ hs] using hr

theorem exec_succ (n : ℕ) : Extends (exec n : Option L → Stmt L σ → _) (exec (n + 1)) := by
  induction n with
  | zero => exact fun _ _ _ _ h => nomatch h
  | succ n ih =>
    intro entry s t r hr
    rw [exec] at hr ⊢
    rcases hp : pass (exec n) entry s t with _ | ⟨_ | _ | l, t'⟩
    · rw [hp] at hr
      exact nomatch hr
    · rw [hp] at hr
      rw [pass_extends ih _ _ _ _ hp]
      exact hr
    · rw [hp] at hr
      rw [pass_extends ih _ _ _ _ hp]
      exact hr
    · rw [hp] at hr
      rw [pass_extends ih _ _ _ _ hp]
      dsimp only at hr ⊢
      split_ifs at hr ⊢ with hl
      · exact ih _ _ _ _ hr
      · exact hr

theorem exec_mono {m n : ℕ} (h : m ≤ n) : Extends (exec m : Option L → Stmt L σ → _) (exec n) := by
  induction h with
  | refl => exact fun _ _ _ _ h => h
  | step _ ih => exact fun entry s t r hr => exec_succ _ _ _ _ _ (ih _ _ _ _ hr)

/-! ## Runs -/

/-- With enough fuel, `s` entered at `entry` in `t` leaves by `o` in `t'`. -/
def Ev (entry : Option L) (s : Stmt L σ) (t : σ) (o : Out L) (t' : σ) : Prop :=
  ∃ n, exec n entry s t = some (o, t')

/-- The same for one pass. -/
def Passes (entry : Option L) (s : Stmt L σ) (t : σ) (o : Out L) (t' : σ) : Prop :=
  ∃ n, pass (exec n) entry s t = some (o, t')

section Rules

variable {entry : Option L} {s a b : Stmt L σ} {t t₁ t' : σ} {o o' : Out L} {l l' : L}
  {c : σ → Bool}

/-- There is one way to leave. -/
theorem Ev.unique {t'' : σ} (h : Ev entry s t o t') (h' : Ev entry s t o' t'') :
    o = o' ∧ t' = t'' := by
  obtain ⟨n, hn⟩ := h
  obtain ⟨m, hm⟩ := h'
  have hn' := exec_mono (Nat.le_max_left n m) _ _ _ _ hn
  have hm' := exec_mono (Nat.le_max_right n m) _ _ _ _ hm
  have heq := Option.some.inj (hn'.symm.trans hm')
  exact ⟨congrArg Prod.fst heq, congrArg Prod.snd heq⟩

/-- Two runs with common fuel. -/
theorem Ev.both {entry₁ : Option L} {s₁ : Stmt L σ} {t₂ t₂' : σ} (h : Ev entry s t o t')
    (h' : Ev entry₁ s₁ t₂ o' t₂') :
    ∃ n, exec n entry s t = some (o, t') ∧ exec n entry₁ s₁ t₂ = some (o', t₂') := by
  obtain ⟨n, hn⟩ := h
  obtain ⟨m, hm⟩ := h'
  exact ⟨max n m, exec_mono (Nat.le_max_left n m) _ _ _ _ hn,
    exec_mono (Nat.le_max_right n m) _ _ _ _ hm⟩

/-- A pass that does not jump inside. -/
theorem Ev.done (h : Passes entry s t o t') (ho : ∀ l, o = .jump l → l ∉ s.labels) :
    Ev entry s t o t' := by
  obtain ⟨n, hn⟩ := h
  refine ⟨n + 1, ?_⟩
  rw [exec, hn]
  rcases o with _ | _ | l
  · rfl
  · rfl
  · exact if_neg (ho l rfl)

/-- A pass that jumps inside. -/
theorem Ev.again (h : Passes entry s t (.jump l) t₁) (hl : l ∈ s.labels)
    (h' : Ev (some l) s t₁ o t') : Ev entry s t o t' := by
  obtain ⟨n, hn⟩ := h
  obtain ⟨m, hm⟩ := h'
  refine ⟨max n m + 1, ?_⟩
  rw [exec, pass_extends (exec_mono (Nat.le_max_left n m)) _ _ _ _ hn]
  exact (if_pos hl).trans (exec_mono (Nat.le_max_right n m) _ _ _ _ hm)

theorem ev_skip (t : σ) : Ev none (.skip : Stmt L σ) t .fall t := ⟨1, rfl⟩

theorem ev_act (f : σ → σ) (t : σ) : Ev none (.act f : Stmt L σ) t .fall (f t) := ⟨1, rfl⟩

theorem ev_brk (t : σ) : Ev none (.brk : Stmt L σ) t .brk t := ⟨1, rfl⟩

theorem ev_goto (l : L) (t : σ) : Ev none (.goto l : Stmt L σ) t (.jump l) t := ⟨1, rfl⟩

theorem Passes.label (h : Ev none s t o t') : Passes none (.label l s) t o t' := h

theorem Passes.label_at (h : Ev none s t o t') : Passes (some l) (.label l s) t o t' := by
  obtain ⟨n, hn⟩ := h
  exact ⟨n, (if_pos rfl).trans hn⟩

theorem Passes.label_into (hne : l ≠ l') (h : Ev (some l) s t o t') :
    Passes (some l) (.label l' s) t o t' := by
  obtain ⟨n, hn⟩ := h
  exact ⟨n, (if_neg hne).trans hn⟩

theorem Passes.seq (ha : Ev none a t .fall t₁) (hb : Ev none b t₁ o t') :
    Passes none (.seq a b) t o t' := by
  obtain ⟨n, hn, hn'⟩ := ha.both hb
  refine ⟨n, ?_⟩
  rw [pass, hn]
  exact hn'

theorem Passes.seq_stop (ha : Ev none a t o t') (ho : o ≠ .fall) :
    Passes none (.seq a b) t o t' := by
  obtain ⟨n, hn⟩ := ha
  refine ⟨n, ?_⟩
  rw [pass, hn]
  rcases o with _ | _ | l
  · exact absurd rfl ho
  · rfl
  · rfl

theorem Passes.seq_into (hl : l ∉ a.labels) (h : Ev (some l) b t o t') :
    Passes (some l) (.seq a b) t o t' := by
  obtain ⟨n, hn⟩ := h
  exact ⟨n, (if_neg hl).trans hn⟩

theorem Passes.ite_then (hc : c t = true) (h : Ev none a t o t') :
    Passes none (.ite c a b) t o t' := by
  obtain ⟨n, hn⟩ := h
  exact ⟨n, (if_pos hc).trans hn⟩

theorem Passes.ite_else (hc : c t = false) (h : Ev none b t o t') :
    Passes none (.ite c a b) t o t' := by
  obtain ⟨n, hn⟩ := h
  exact ⟨n, (if_neg (by simp [hc])).trans hn⟩

theorem Passes.ite_into_then (hl : l ∈ a.labels) (h : Ev (some l) a t o t') :
    Passes (some l) (.ite c a b) t o t' := by
  obtain ⟨n, hn⟩ := h
  exact ⟨n, (if_pos hl).trans hn⟩

theorem Passes.ite_into_else (hl : l ∉ a.labels) (h : Ev (some l) b t o t') :
    Passes (some l) (.ite c a b) t o t' := by
  obtain ⟨n, hn⟩ := h
  exact ⟨n, (if_neg hl).trans hn⟩

/-- The body is left by `break`. -/
theorem Passes.loop_brk (h : Ev entry s t .brk t') : Passes entry (.loop s) t .fall t' := by
  obtain ⟨n, hn⟩ := h
  refine ⟨n, ?_⟩
  cases entry <;> simp only [pass, hn]

/-- The body falls through. -/
theorem Passes.loop_fall (h : Ev entry s t .fall t₁) (h' : Ev none (.loop s) t₁ o t') :
    Passes entry (.loop s) t o t' := by
  obtain ⟨n, hn, hn'⟩ := h.both h'
  refine ⟨n, ?_⟩
  cases entry <;> simp only [pass, hn] <;> exact hn'

theorem Passes.loop_jump (h : Ev entry s t (.jump l) t') :
    Passes entry (.loop s) t (.jump l) t' := by
  obtain ⟨n, hn⟩ := h
  refine ⟨n, ?_⟩
  cases entry <;> simp only [pass, hn]

theorem Passes.once_fall (h : Ev entry s t .fall t') : Passes entry (.once s) t .fall t' := by
  obtain ⟨n, hn⟩ := h
  refine ⟨n, ?_⟩
  cases entry <;> simp only [pass, hn]

theorem Passes.once_brk (h : Ev entry s t .brk t') : Passes entry (.once s) t .fall t' := by
  obtain ⟨n, hn⟩ := h
  refine ⟨n, ?_⟩
  cases entry <;> simp only [pass, hn]

theorem Passes.fall (h : Passes entry s t .fall t') : Ev entry s t .fall t' :=
  .done h fun _ h => nomatch h

theorem Passes.brk (h : Passes entry s t .brk t') : Ev entry s t .brk t' :=
  .done h fun _ h => nomatch h

/-- A jump to a label that is not inside. -/
theorem Passes.jump (h : Passes entry s t (.jump l) t') (hl : l ∉ s.labels) :
    Ev entry s t (.jump l) t' :=
  .done h fun _ h' => Out.jump.inj h' ▸ hl

end Rules

end NetworkFs.Control
