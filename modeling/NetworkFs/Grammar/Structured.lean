import NetworkFs.Grammar.Expand

/-!
# Structured exceptions

Programs built from `try`, `catch`, `onerror`, `throwable`, `throw`, `condition_throw` and `with`,
nested to any depth, with every inner `with`, `try` and call marked `throwable`. Such a program has
three meanings: the statements its macros expand to (`expand`), the statements over `Ctl` that the
rest of the development is written in (`run`), and what it should do (`spec`), where a thrown
exception is an outcome and not a flag.

* `Part.expand_runs`: the expansion does what `run` does.
* `Part.run_spec`: `run` does what `spec` says.
* `structured_exceptions`: the two together, for a construct that starts with no exception.
-/

namespace NetworkFs.Grammar

open Control

variable {μ : Type}

/-! ## Programs -/

/-- The statement after `throw`: an exception made from the memory, or nothing (`throw;`). -/
abbrev Thrown (μ : Type) := Option (μ → ExType)

/-- A function of the program: it may raise an exception, and changes the memory. -/
abbrev Call (μ : Type) := μ → Option ExType × μ

mutual

/-- The body of a construct. -/
inductive Prog (μ : Type) where
  | skip
  | act (f : μ → μ)
  | seq (p q : Prog μ)
  | throw (e : Thrown μ)
  | conditionThrow (test : μ → Bool) (e : Thrown μ)
  | throwable (q : Part μ)

/-- What stands after `throwable`, or on its own at the top of a function. A `with` has the body of
    its initialisation, the call that ends it, its condition if it has four arguments, and its
    cleanup. -/
inductive Part (μ : Type) where
  | call (f : Call μ)
  | with_ (init : Prog μ) (setup : Call μ) (condition : Option (μ → Bool)) (cleanup : Call μ)
      (body : Prog μ)
  | try_ (body : Prog μ) (clauses : Clauses μ)

/-- The clauses of a `try`: `catch` and `onerror` (`catches` is `false`), with or without a type. -/
inductive Clauses (μ : Type) where
  | nil
  | last (catches : Bool) (body : Prog μ)
  | cons (covers : ExType → Bool) (catches : Bool) (body : Prog μ) (rest : Clauses μ)

end

/-! ## The expansion -/

mutual

/-- How often the macros take a number. -/
def Prog.uses : Prog μ → ℕ
  | .skip | .act _ => 0
  | .seq p q => p.uses + q.uses
  | .throw _ | .conditionThrow _ _ => 1
  | .throwable q => 1 + q.uses

/-- The same for a construct. -/
def Part.uses : Part μ → ℕ
  | .call _ => 0
  | .with_ init _ _ _ body => 1 + init.uses + body.uses
  | .try_ body clauses => 1 + body.uses + clauses.uses

/-- The same for the clauses of a `try`. -/
def Clauses.uses : Clauses μ → ℕ
  | .nil => 0
  | .last _ body => 1 + body.uses
  | .cons _ _ body rest => 1 + body.uses + rest.uses

end

/-- A call: what it raises replaces what is in `ex`. -/
def called (f : Call μ) (t : Thread μ) : Thread μ :=
  match f t.mem with
  | (none, m) => { t with mem := m }
  | (some e, m) => ⟨.init e, m⟩

/-- `XException(...)`, or nothing. -/
def withThrown (e : Thrown μ) (t : Thread μ) : Thread μ :=
  match e with
  | none => t
  | some e => { t with ex := .init (e t.mem) }

/-- The condition of a `with`. -/
def withCondition (condition : Option (μ → Bool)) (t : Thread μ) : Bool :=
  match condition with
  | none => !t.ex.has
  | some test => test t.mem

/-- A `catch` or an `onerror`. -/
def clauseStmt (catches : Bool) (n : ℕ) (body : CStmt μ) : CStmt μ :=
  if catches then catchStmt n body else onerrorStmt n body

mutual

/-- The statement a body expands to, with labels from `n` on. -/
def Prog.expand (n : ℕ) : Prog μ → CStmt μ
  | .skip => .skip
  | .act f => .act fun t => { t with mem := f t.mem }
  | .seq p q => .seq (p.expand n) (q.expand (n + p.uses))
  | .throw e => throwStmt n (.act (withThrown e))
  | .conditionThrow test e => conditionThrowStmt n (fun t => test t.mem) (.act (withThrown e))
  | .throwable q => throwableStmt n (q.expand (n + 1))

/-- The statement a construct expands to. The numbers go to the macros in the order of the text,
    the construct's own first. -/
def Part.expand (n : ℕ) : Part μ → CStmt μ
  | .call f => .act (called f)
  | .with_ init setup condition cleanup body =>
    withTestStmt n (.seq (init.expand (n + 1)) (.act (called setup))) (withCondition condition)
      (.act (called cleanup)) (body.expand (n + 1 + init.uses))
  | .try_ body clauses => tryStmt n (body.expand (n + 1)) (clauses.expand (n + 1 + body.uses))

/-- The tests and clauses of a `try`, one `else` after the other. -/
def Clauses.expand (n : ℕ) : Clauses μ → CStmt μ
  | .nil => .skip
  | .last catches body => clauseStmt catches n (body.expand (n + 1))
  | .cons covers catches body rest =>
    .ite (fun t => t.ex.vtable.any covers) (clauseStmt catches n (body.expand (n + 1)))
      (rest.expand (n + 1 + body.uses))

end

mutual

/-- The statement over `Ctl`. -/
def Prog.run : Prog μ → Ctl (Thread μ) Unit Unit
  | .skip => pure ()
  | .act f => Ctl.modify fun t => { t with mem := f t.mem }
  | .seq p q => p.run >>= fun _ => q.run
  | .throw e => Grammar.throw (Ctl.modify (withThrown e))
  | .conditionThrow test e =>
    Ctl.gets (fun t => test t.mem) >>= fun b => Grammar.conditionThrow b (Ctl.modify (withThrown e))
  | .throwable q => Grammar.throwable q.run >>= fun _ => pure ()

/-- A construct over `Ctl`: `none` if its body did not reach the end. -/
def Part.run : Part μ → Ctl (Thread μ) Unit (Option Unit)
  | .call f => Ctl.ask fun t => (some (), called f t)
  | .with_ init setup condition cleanup body =>
    withTest (init.run >>= fun _ => Ctl.modify (called setup)) (withCondition condition)
      (fun _ => Ctl.modify (called cleanup)) fun _ => body.run
  | .try_ body clauses => tryCatch body.run clauses.run

/-- The clauses over `Ctl`. -/
def Clauses.run : Clauses μ → List (Clause μ Unit)
  | .nil => []
  | .last catches body => [⟨fun _ => true, catches, body.run⟩]
  | .cons covers catches body rest =>
    ⟨fun e => e.vtable.any covers, catches, body.run⟩ :: rest.run

end

/-! ## The labels -/

/-- The labels with numbers from `n` to `m`. -/
def Numbered (n m : ℕ) (s : CStmt μ) : Prop := ∀ l ∈ s.labels, n ≤ l.counter ∧ l.counter < m

theorem Numbered.not_mem {n m k : ℕ} {s : CStmt μ} (h : Numbered n m s) (hk : k < n)
    (name : LabelName) : (⟨name, k⟩ : Label) ∉ s.labels :=
  fun hl => absurd (h _ hl).1 (Nat.not_le.mpr hk)

theorem Numbered.mono {n m n' m' : ℕ} {s : CStmt μ} (h : Numbered n m s) (hn : n' ≤ n) (hm : m ≤ m') :
    Numbered n' m' s :=
  fun l hl => ⟨hn.trans (h l hl).1, (h l hl).2.trans_le hm⟩

theorem Numbered.seq {n m : ℕ} {s s' : CStmt μ} (h : Numbered n m s) (h' : Numbered n m s') :
    Numbered n m (.seq s s') :=
  fun l hl => (List.mem_append.mp hl).elim (h l) (h' l)

theorem Numbered.ite {n m : ℕ} {c : Thread μ → Bool} {s s' : CStmt μ} (h : Numbered n m s)
    (h' : Numbered n m s') : Numbered n m (.ite c s s') :=
  fun l hl => (List.mem_append.mp hl).elim (h l) (h' l)

theorem numbered_nil {n m : ℕ} {s : CStmt μ} (h : s.labels = []) : Numbered n m s := by
  intro l hl
  rw [h] at hl
  exact nomatch hl

/-- The two labels of a `reflow`, and those of its parts. -/
theorem Numbered.reflow {n m : ℕ} {c : Thread μ → Bool} {init cleanup body : CStmt μ} (hn : n < m)
    (hinit : Numbered (n + 1) m init) (hcleanup : cleanup.labels = [])
    (hbody : Numbered (n + 1) m body) : Numbered n m (reflowStmt n init c cleanup body) := by
  intro l hl
  simp only [reflowStmt, Stmt.labels, hcleanup, List.mem_append, List.mem_cons, List.not_mem_nil,
    List.nil_append, List.append_nil, or_false] at hl
  rcases hl with (hl | rfl) | rfl | hl
  · exact (hinit.mono (Nat.le_succ n) le_rfl) l hl
  · exact ⟨le_rfl, hn⟩
  · exact ⟨le_rfl, hn⟩
  · exact (hbody.mono (Nat.le_succ n) le_rfl) l hl

theorem Numbered.try_ {n m : ℕ} {body clauses : CStmt μ} (hn : n < m) (hbody : Numbered (n + 1) m body)
    (hclauses : Numbered (n + 1) m clauses) : Numbered n m (tryStmt n body clauses) := by
  intro l hl
  simp only [tryStmt, Stmt.labels, List.mem_append, List.mem_cons,
    List.nil_append] at hl
  rcases hl with rfl | (rfl | hl) | hl
  · exact ⟨le_rfl, hn⟩
  · exact ⟨le_rfl, hn⟩
  · exact (hbody.mono (Nat.le_succ n) le_rfl) l hl
  · exact (hclauses.mono (Nat.le_succ n) le_rfl) l hl

theorem Numbered.clause {n m : ℕ} {body : CStmt μ} (catches : Bool) (hn : n < m)
    (hbody : Numbered (n + 1) m body) : Numbered n m (clauseStmt catches n body) := by
  cases catches with
  | true => exact .reflow hn (numbered_nil rfl) rfl hbody
  | false => exact .reflow hn (numbered_nil rfl) rfl hbody

mutual

/-- A program has labels of its own. -/
theorem Prog.numbered (n : ℕ) : ∀ p : Prog μ, Numbered n (n + p.uses) (p.expand n)
  | .skip => numbered_nil rfl
  | .act _ => numbered_nil rfl
  | .seq p q => by
    have hp := p.numbered n
    have hq := q.numbered (n + p.uses)
    simp only [Prog.uses, Prog.expand]
    exact .seq (hp.mono le_rfl (by omega)) (hq.mono (by omega) (by omega))
  | .throw _ => .reflow (Nat.lt_succ_self n) (numbered_nil rfl) rfl (numbered_nil rfl)
  | .conditionThrow _ _ =>
    .ite (numbered_nil rfl) (.reflow (Nat.lt_succ_self n) (numbered_nil rfl) rfl (numbered_nil rfl))
  | .throwable q => by
    have hq := q.numbered (n + 1)
    simp only [Prog.uses, Prog.expand]
    exact .reflow (by omega) (numbered_nil rfl) rfl (hq.mono le_rfl (by omega))

theorem Part.numbered (n : ℕ) : ∀ q : Part μ, Numbered n (n + q.uses) (q.expand n)
  | .call _ => numbered_nil rfl
  | .with_ init _ _ _ body => by
    have hinit := init.numbered (n + 1)
    have hbody := body.numbered (n + 1 + init.uses)
    simp only [Part.uses, Part.expand]
    exact .reflow (by omega) (.seq (hinit.mono le_rfl (by omega)) (numbered_nil rfl)) rfl
      (hbody.mono (by omega) (by omega))
  | .try_ body clauses => by
    have hbody := body.numbered (n + 1)
    have hclauses := clauses.numbered (n + 1 + body.uses)
    simp only [Part.uses, Part.expand]
    exact .try_ (by omega) (hbody.mono le_rfl (by omega)) (hclauses.mono (by omega) (by omega))

theorem Clauses.numbered (n : ℕ) : ∀ cs : Clauses μ, Numbered n (n + cs.uses) (cs.expand n)
  | .nil => numbered_nil rfl
  | .last catches body => by
    have hbody := body.numbered (n + 1)
    simp only [Clauses.uses, Clauses.expand]
    exact .clause catches (by omega) (hbody.mono le_rfl (by omega))
  | .cons covers catches body rest => by
    have hbody := body.numbered (n + 1)
    have hrest := rest.numbered (n + 1 + body.uses)
    simp only [Clauses.uses, Clauses.expand]
    exact .ite (.clause catches (by omega) (hbody.mono le_rfl (by omega)))
      (hrest.mono (by omega) (by omega))

end

/-! ## The expansion and `run` -/

theorem Runs.drop {τ ρ α : Type} {s : CStmt τ} {m : Ctl (Thread τ) ρ α} (h : Runs s m) :
    Runs s (m >>= fun _ => pure ()) := by
  intro t
  rcases h t with ⟨a, t', hm, hs⟩ | ⟨t', hm, hs⟩
  · exact .inl ⟨(), t', Ctl.bind_ok hm, hs⟩
  · exact .inr ⟨t', Ctl.bind_error hm, hs⟩

theorem runs_clause {covers : Exception → Bool} {catches : Bool} {n : ℕ} {body : CStmt μ}
    {b : Ctl (Thread μ) Unit Unit} (hend : (⟨.reflowEnd, n⟩ : Label) ∉ body.labels)
    (hbody : Runs body b) :
    RunsThrough (clauseStmt catches n body) (⟨covers, catches, b⟩ : Clause μ Unit).run := by
  cases catches with
  | true => exact runs_catch hend hbody
  | false => exact runs_onerror hend hbody

mutual

/-- The macros do what their models do, however they are nested. -/
theorem Prog.expand_runs (n : ℕ) : ∀ p : Prog μ, Runs (p.expand n) p.run
  | .skip => (runs_skip ()).runs
  | .act f => (runs_act _).runs
  | .seq p q => runs_seq (p.expand_runs n) (q.expand_runs (n + p.uses))
  | .throw e => runs_throw (by simp [Stmt.labels]) (runs_act (withThrown e))
  | .conditionThrow test e => runs_conditionThrow (by simp [Stmt.labels]) (runs_act (withThrown e))
  | .throwable q =>
    (runs_throwable ((q.numbered (n + 1)).not_mem (Nat.lt_succ_self n) _) (q.expand_runs (n + 1))).drop

theorem Part.expand_runs (n : ℕ) : ∀ q : Part μ, RunsThrough (q.expand n) q.run
  | .call f => fun t => ⟨some (), called f t, rfl, ev_act (called f) t⟩
  | .with_ init setup condition cleanup body => by
    have hinit := init.numbered (n + 1)
    have hbody := body.numbered (n + 1 + init.uses)
    have hfresh : ReflowFresh n (.seq (init.expand (n + 1)) (.act (called setup)))
        (.act (called cleanup)) (body.expand (n + 1 + init.uses)) := by
      refine ⟨?_, ?_, by simp [Stmt.labels], hbody.not_mem (by omega) _⟩
      · simpa [Stmt.labels] using hinit.not_mem (Nat.lt_succ_self n) .reflowStart
      · simpa [Stmt.labels] using hinit.not_mem (Nat.lt_succ_self n) .reflowEnd
    exact runs_withTest hfresh (runs_seq (init.expand_runs (n + 1)) (runs_act (called setup)).runs)
      (runs_act (called cleanup)) (body.expand_runs (n + 1 + init.uses))
  | .try_ body clauses =>
    runs_try ((body.numbered (n + 1)).not_mem (Nat.lt_succ_self n) _)
      ((clauses.numbered (n + 1 + body.uses)).not_mem (by omega) _) (body.expand_runs (n + 1))
      (clauses.expand_runs (n + 1 + body.uses))

theorem Clauses.expand_runs (n : ℕ) : ∀ cs : Clauses μ, RunsThrough (cs.expand n) (pick cs.run)
  | .nil => runs_pick_nil
  | .last _ body =>
    runs_pick_last (fun _ => rfl)
      (runs_clause ((body.numbered (n + 1)).not_mem (Nat.lt_succ_self n) _) (body.expand_runs (n + 1)))
  | .cons _ _ body rest =>
    runs_pick_cons
      (runs_clause ((body.numbered (n + 1)).not_mem (Nat.lt_succ_self n) _) (body.expand_runs (n + 1)))
      (rest.expand_runs (n + 1 + body.uses))

end

/-! ## What a program should do -/

/-- The clause a statement is in: none, a `catch` that has the exception, or a place where the
    exception is still pending (an `onerror` clause, or after a call that nobody checked). -/
inductive Handling where
  | nothing
  | caught (v : Option ExType)
  | failing (v : Option ExType)
  deriving DecidableEq

/-- The exception that `throw;` throws. -/
def Handling.exception : Handling → Option ExType
  | .nothing => none
  | .caught v | .failing v => v

/-- How a program ends. -/
inductive Outcome (μ : Type) where
  | normal (h : Handling) (m : μ)
  | thrown (v : Option ExType) (m : μ)

namespace Outcome

/-- What follows a statement, if it ended normally. -/
def andThen (o : Outcome μ) (next : Handling → μ → Outcome μ) : Outcome μ :=
  match o with
  | .normal h m => next h m
  | .thrown v m => .thrown v m

/-- What follows a statement in any case, with what it raises thrown. -/
def after (f : Call μ) : Outcome μ → Outcome μ
  | .normal h m =>
    match f m with
    | (none, m') => .normal h m'
    | (some e, m') => .thrown (some e) m'
  | .thrown v m =>
    match f m with
    | (none, m') => .thrown v m'
    | (some e, m') => .thrown (some e) m'

/-- A pending exception is thrown. -/
def settle : Outcome μ → Outcome μ
  | .normal (.failing v) m => .thrown v m
  | o => o

/-- A `catch` that ended normally has destroyed the exception. -/
def forget : Outcome μ → Outcome μ
  | .normal _ m => .normal .nothing m
  | .thrown v m => .thrown v m

/-- An exception that was thrown goes to `handler`. -/
def orElse (o : Outcome μ) (handler : Option ExType → μ → Outcome μ) : Outcome μ :=
  match o with
  | .normal h m => .normal h m
  | .thrown v m => handler v m

end Outcome

/-- An unchecked call leaves what it raised pending. -/
def Handling.setup (f : Call μ) (h : Handling) (m : μ) : Outcome μ :=
  match f m with
  | (none, m') => .normal h m'
  | (some e, m') => .normal (.failing (some e)) m'

/-- The body of a `with` with three arguments runs if no exception is pending. -/
def Handling.enters (condition : Option (μ → Bool)) (h : Handling) (m : μ) : Bool :=
  match condition, h with
  | some test, _ => test m
  | none, .failing _ => false
  | none, _ => true

/-- `throw`. -/
def throwing (e : Thrown μ) (h : Handling) (m : μ) : Outcome μ :=
  match e with
  | none => .thrown h.exception m
  | some e => .thrown (some (e m)) m

mutual

/-- Structured exceptions: a thrown exception ends everything up to the nearest `try`, a `with` that
    was entered cleans up on the way, and the first clause for the exception runs. -/
def Prog.spec : Prog μ → Handling → μ → Outcome μ
  | .skip, h, m => .normal h m
  | .act f, h, m => .normal h (f m)
  | .seq p q, h, m => (p.spec h m).andThen q.spec
  | .throw e, h, m => throwing e h m
  | .conditionThrow test e, h, m => if test m then .normal h m else throwing e h m
  | .throwable q, h, m => (q.spec h m).settle

/-- What a construct should do: a `with` that is entered runs its cleanup however its body ends,
    and a `try` gives what its body throws to its clauses. -/
def Part.spec : Part μ → Handling → μ → Outcome μ
  | .call f, h, m => Outcome.after f (.normal h m)
  | .with_ init setup condition cleanup body, h, m =>
    (init.spec h m).andThen fun h₁ m₁ => (h₁.setup setup m₁).andThen fun h₂ m₂ =>
      (if h₂.enters condition m₂ then body.spec h₂ m₂ else .normal h₂ m₂).after cleanup
  | .try_ body clauses, h, m => (body.spec h m).settle.orElse clauses.spec

/-- What the clauses should do with an exception: the first that covers it runs, and without one
    it is thrown on. -/
def Clauses.spec : Clauses μ → Option ExType → μ → Outcome μ
  | .nil, v, m => .thrown v m
  | .last catches body, v, m =>
    if catches then (body.spec (.caught v) m).settle.forget else (body.spec (.failing v) m).settle
  | .cons covers catches body rest, v, m =>
    if v.any covers then
      if catches then (body.spec (.caught v) m).settle.forget else (body.spec (.failing v) m).settle
    else rest.spec v m

end

/-! ## `run` and `spec` -/

/-- `ex` while a clause is running. -/
def Handling.slot : Handling → Exception
  | .nothing => .clear
  | .caught v => ⟨.catched, v⟩
  | .failing v => ⟨.raised, v⟩

/-- What the thread has when a program is over. -/
def Outcome.thread : Outcome μ → Thread μ
  | .normal h m => ⟨h.slot, m⟩
  | .thrown v m => ⟨⟨.raised, v⟩, m⟩

/-- A body falls through, or breaks if it throws. -/
def Outcome.result : Outcome μ → Except (Exit Unit) Unit × Thread μ
  | .normal h m => (.ok (), ⟨h.slot, m⟩)
  | .thrown v m => (.error .brk, ⟨⟨.raised, v⟩, m⟩)

@[simp] theorem Outcome.settle_thread (o : Outcome μ) : o.settle.thread = o.thread := by
  rcases o with ⟨_ | _ | _, _⟩ | _ <;> rfl

theorem Outcome.after_thread (f : Call μ) (o : Outcome μ) :
    (o.after f).thread = called f o.thread := by
  rcases o with ⟨h, m⟩ | ⟨v, m⟩
  · rcases hf : f m with ⟨_ | e, m'⟩ <;> simp [Outcome.after, Outcome.thread, called, hf]
    rfl
  · rcases hf : f m with ⟨_ | e, m'⟩ <;> simp [Outcome.after, Outcome.thread, called, hf]
    rfl

/-- A body in `switch (1) case 1:`. -/
theorem doOnce_result {b : Ctl (Thread μ) Unit Unit} {t : Thread μ} {o : Outcome μ}
    (h : b t = o.result) : ∃ r, Ctl.doOnce b t = (.ok r, o.thread) := by
  rcases o with ⟨h', m⟩ | ⟨v, m⟩
  · exact ⟨some (), Ctl.doOnce_ok h⟩
  · exact ⟨none, Ctl.doOnce_brk h⟩

theorem throwable_result {q : Ctl (Thread μ) Unit (Option Unit)} {t : Thread μ} {o : Outcome μ}
    {r : Option Unit} (h : q t = (.ok r, o.thread)) :
    (throwable q >>= fun _ => pure ()) t = o.settle.result := by
  rcases o with ⟨_ | v | v, m⟩ | ⟨v, m⟩
  · exact Ctl.bind_ok (throwable_clean h rfl)
  · exact Ctl.bind_ok (throwable_clean h rfl)
  · exact Ctl.bind_error (throwable_pending h rfl)
  · exact Ctl.bind_error (throwable_pending h rfl)

theorem throw_result (e : Thrown μ) (h : Handling) (m : μ) :
    throw (Ctl.modify (withThrown e)) ⟨h.slot, m⟩ = (throwing e h m).result := by
  cases e with
  | none => cases h <;> rfl
  | some e => rfl

theorem setup_called (f : Call μ) (h : Handling) (m : μ) :
    ∃ h' m', h.setup f m = .normal h' m' ∧ called f ⟨h.slot, m⟩ = ⟨h'.slot, m'⟩ := by
  rcases hf : f m with ⟨_ | e, m'⟩
  · exact ⟨h, m', by simp [Handling.setup, hf], by simp [called, hf]⟩
  · exact ⟨.failing (some e), m', by simp [Handling.setup, hf], by simp [called, hf]; rfl⟩

theorem withCondition_slot (condition : Option (μ → Bool)) (h : Handling) (m : μ) :
    withCondition condition ⟨h.slot, m⟩ = h.enters condition m := by
  cases condition with
  | none => cases h <;> rfl
  | some test => cases h <;> rfl

theorem clause_result {covers : Exception → Bool} {b : Ctl (Thread μ) Unit Unit} {v : Option ExType}
    {m : μ} {o : Handling → Outcome μ} (catches : Bool)
    (hb : ∀ h : Handling, b ⟨h.slot, m⟩ = (o h).result) :
    (⟨covers, catches, b⟩ : Clause μ Unit).run ⟨⟨.raised, v⟩, m⟩ = (.ok (),
      (if catches then (o (.caught v)).settle.forget else (o (.failing v)).settle).thread) := by
  cases catches with
  | true =>
    obtain ⟨r, hr⟩ := doOnce_result (hb (.caught v))
    have hr' : Ctl.doOnce b ⟨⟨.catched, v⟩, m⟩ = (.ok r, (o (.caught v)).thread) := hr
    simp only [Clause.run, if_true, Ctl.bind_apply, Ctl.modify_apply, hr']
    rcases o (.caught v) with ⟨_ | v' | v', m'⟩ | ⟨v', m'⟩ <;> rfl
  | false =>
    obtain ⟨r, hr⟩ := doOnce_result (hb (.failing v))
    have hr' : Ctl.doOnce b ⟨⟨.raised, v⟩, m⟩ = (.ok r, (o (.failing v)).thread) := hr
    simp [Clause.run, Ctl.bind_apply, hr']

theorem handle_result {cs : List (Clause μ Unit)} {f : Option ExType → μ → Outcome μ} {o : Outcome μ}
    (h : ∀ v m, pick cs ⟨⟨.raised, v⟩, m⟩ = (.ok (), (f v m).thread)) :
    handle cs o.thread = (.ok (), (o.settle.orElse f).thread) := by
  rcases o with ⟨_ | v | v, m⟩ | ⟨v, m⟩
  · exact handle_clean rfl
  · exact handle_clean rfl
  · exact (handle_pending rfl).trans (h v m)
  · exact (handle_pending rfl).trans (h v m)

mutual

/-- What the models of the macros do is what a program should do. -/
theorem Prog.run_spec : ∀ (p : Prog μ) (h : Handling) (m : μ),
    p.run ⟨h.slot, m⟩ = (p.spec h m).result
  | .skip, h, m => rfl
  | .act f, h, m => rfl
  | .seq p q, h, m => by
    have hp := p.run_spec h m
    rw [Prog.run, Prog.spec]
    rcases hs : p.spec h m with ⟨h', m'⟩ | ⟨v, m'⟩ <;> rw [hs] at hp
    · exact (Ctl.bind_ok hp).trans (q.run_spec h' m')
    · exact Ctl.bind_error hp
  | .throw e, h, m => throw_result e h m
  | .conditionThrow test e, h, m => by
    rw [Prog.run, Prog.spec, Ctl.bind_ok (Ctl.gets_apply _ _)]
    cases htest : test m with
    | true => rfl
    | false => exact throw_result e h m
  | .throwable q, h, m => by
    obtain ⟨r, hq⟩ := q.run_spec h m
    exact throwable_result hq

theorem Part.run_spec : ∀ (q : Part μ) (h : Handling) (m : μ),
    ∃ r, q.run ⟨h.slot, m⟩ = (.ok r, (q.spec h m).thread)
  | .call f, h, m => ⟨some (), congrArg (Prod.mk _) (Outcome.after_thread f (.normal h m)).symm⟩
  | .with_ init setup condition cleanup body, h, m => by
    have hinit := init.run_spec h m
    rw [Part.run, Part.spec]
    rcases hs : init.spec h m with ⟨h₁, m₁⟩ | ⟨v, m₁⟩ <;> rw [hs] at hinit
    · obtain ⟨h₂, m₂, hsetup, hcalled⟩ := setup_called setup h₁ m₁
      have hi : (init.run >>= fun _ => Ctl.modify (called setup)) ⟨h.slot, m⟩
          = (.ok (), ⟨h₂.slot, m₂⟩) := by
        rw [Ctl.bind_ok hinit, ← hcalled]
        rfl
      have hclean : ∀ o : Outcome μ, (Ctl.modify (called cleanup) : Ctl (Thread μ) Unit Unit) o.thread
          = (.ok (), (o.after cleanup).thread) := by
        intro o
        rw [Outcome.after_thread]
        rfl
      have hcond := withCondition_slot condition h₂ m₂
      simp only [Outcome.andThen, hsetup]
      cases hent : h₂.enters condition m₂ with
      | false => exact ⟨none, withTest_skip hi (hcond.trans hent) (hclean (.normal h₂ m₂))⟩
      | true =>
        have hbody := body.run_spec h₂ m₂
        rw [if_pos rfl]
        rcases hs' : body.spec h₂ m₂ with ⟨h₃, m₃⟩ | ⟨v, m₃⟩ <;> rw [hs'] at hbody
        · exact ⟨some (), withTest_ok hi (hcond.trans hent) hbody (hclean (.normal h₃ m₃))⟩
        · exact ⟨none, withTest_brk hi (hcond.trans hent) hbody (hclean (.thrown v m₃))⟩
    · exact ⟨none, withTest_init_brk (Ctl.bind_error hinit)⟩
  | .try_ body clauses, h, m => by
    obtain ⟨r, hbody⟩ := doOnce_result (body.run_spec h m)
    refine ⟨r, ?_⟩
    rw [Part.run, tryCatch, Ctl.bind_ok hbody, Ctl.bind_ok (handle_result clauses.run_spec)]
    rfl

theorem Clauses.run_spec : ∀ (cs : Clauses μ) (v : Option ExType) (m : μ),
    pick cs.run ⟨⟨.raised, v⟩, m⟩ = (.ok (), (cs.spec v m).thread)
  | .nil, v, m => rfl
  | .last catches body, v, m => clause_result catches fun h => body.run_spec h m
  | .cons covers catches body rest, v, m => by
    rw [Clauses.run, Clauses.spec]
    cases hv : v.any covers with
    | true =>
      have hrun : pick (⟨fun e => e.vtable.any covers, catches, body.run⟩ :: rest.run) ⟨⟨.raised, v⟩, m⟩
          = (⟨fun e => e.vtable.any covers, catches, body.run⟩ : Clause μ Unit).run
            ⟨⟨.raised, v⟩, m⟩ := by
        simp [pick, Ctl.bind_apply, hv]
      exact hrun.trans (clause_result catches fun h => body.run_spec h m)
    | false =>
      have hrun : pick (⟨fun e => e.vtable.any covers, catches, body.run⟩ :: rest.run) ⟨⟨.raised, v⟩, m⟩
          = pick rest.run ⟨⟨.raised, v⟩, m⟩ := by
        simp [pick, Ctl.bind_apply, hv]
      exact hrun.trans (rest.run_spec v m)

end

/-- A construct on its own falls through, as it should. -/
theorem Part.expand_spec (q : Part μ) (n : ℕ) (h : Handling) (m : μ) :
    Ev none (q.expand n) ⟨h.slot, m⟩ .fall (q.spec h m).thread := by
  obtain ⟨r, t', hrun, hev⟩ := q.expand_runs n ⟨h.slot, m⟩
  obtain ⟨r', hspec⟩ := q.run_spec h m
  rw [hrun] at hspec
  rw [← (Prod.mk.inj hspec).2]
  exact hev

/-! ## `onerror` -/

/-- The exceptions a call can raise. -/
def Call.Raises (f : Call μ) (e : ExType) : Prop := ∃ m, (f m).1 = some e

/-- The exceptions a `throw` can make. -/
def Thrown.Raises (x : Thrown μ) (e : ExType) : Prop := ∃ f m, x = some f ∧ f m = e

mutual

/-- The exceptions that the throws and calls of a program can raise. -/
def Prog.Raises : Prog μ → ExType → Prop
  | .skip, _ | .act _, _ => False
  | .seq p q, e => p.Raises e ∨ q.Raises e
  | .throw x, e | .conditionThrow _ x, e => Thrown.Raises x e
  | .throwable q, e => q.Raises e

/-- The same for a construct. -/
def Part.Raises : Part μ → ExType → Prop
  | .call f, e => Call.Raises f e
  | .with_ init setup _ cleanup body, e =>
    init.Raises e ∨ Call.Raises setup e ∨ Call.Raises cleanup e ∨ body.Raises e
  | .try_ body clauses, e => body.Raises e ∨ clauses.Raises e

/-- The same for clauses. -/
def Clauses.Raises : Clauses μ → ExType → Prop
  | .nil, _ => False
  | .last _ body, e => body.Raises e
  | .cons _ _ body rest, e => body.Raises e ∨ rest.Raises e

end

mutual

/-- There is no `try` inside. -/
def Prog.noTry : Prog μ → Bool
  | .skip | .act _ | .throw _ | .conditionThrow _ _ => true
  | .seq p q => p.noTry && q.noTry
  | .throwable q => q.noTry

/-- The same for a construct. -/
def Part.noTry : Part μ → Bool
  | .call _ => true
  | .with_ init _ _ _ body => init.noTry && body.noTry
  | .try_ _ _ => false

end

/-- `v`, or one of `R`, is pending or was thrown. -/
def Outcome.Pending (R : ExType → Prop) (v : Option ExType) (o : Outcome μ) : Prop :=
  ∃ v' m', (o = .normal (.failing v') m' ∨ o = .thrown v' m') ∧
    (v' = v ∨ ∃ e, v' = some e ∧ R e)

section Pending

variable {R : ExType → Prop} {v : Option ExType} {m : μ} {o : Outcome μ}

theorem pending_same : (Outcome.normal (.failing v) m).Pending R v := ⟨v, m, .inl rfl, .inl rfl⟩

theorem Outcome.Pending.mono {R' : ExType → Prop} (h : o.Pending R v) (hR : ∀ e, R e → R' e) :
    o.Pending R' v := by
  obtain ⟨v', m', ho, hv⟩ := h
  exact ⟨v', m', ho, hv.imp_right fun ⟨e, he, hr⟩ => ⟨e, he, hR e hr⟩⟩

theorem Outcome.Pending.settle_thrown (h : o.Pending R v) :
    ∃ v' m', o.settle = .thrown v' m' ∧ (v' = v ∨ ∃ e, v' = some e ∧ R e) := by
  obtain ⟨v', m', rfl | rfl, hv⟩ := h
  · exact ⟨v', m', rfl, hv⟩
  · exact ⟨v', m', rfl, hv⟩

theorem Outcome.Pending.settle (h : o.Pending R v) : o.settle.Pending R v := by
  obtain ⟨v', m', ho, hv⟩ := h.settle_thrown
  exact ⟨v', m', .inr ho, hv⟩

theorem Outcome.Pending.andThen {next : Handling → μ → Outcome μ} (h : o.Pending R v)
    (hnext : ∀ v' m', (next (.failing v') m').Pending R v') : (o.andThen next).Pending R v := by
  obtain ⟨v', m', rfl | rfl, hv⟩ := h
  · obtain ⟨v'', m'', ho, hv'⟩ := hnext v' m'
    refine ⟨v'', m'', ho, ?_⟩
    rcases hv' with rfl | hv'
    · exact hv
    · exact .inr hv'
  · exact ⟨v', m', .inr rfl, hv⟩

theorem Outcome.Pending.after {f : Call μ} (h : o.Pending R v) (hf : ∀ e, Call.Raises f e → R e) :
    (o.after f).Pending R v := by
  obtain ⟨v', m', ho, hv⟩ := h
  rcases hm : f m' with ⟨_ | e, m''⟩
  · rcases ho with rfl | rfl
    · exact ⟨v', m'', .inl (by simp [Outcome.after, hm]), hv⟩
    · exact ⟨v', m'', .inr (by simp [Outcome.after, hm]), hv⟩
  · have he : R e := hf e ⟨m', by rw [hm]⟩
    refine ⟨some e, m'', .inr ?_, .inr ⟨e, rfl, he⟩⟩
    rcases ho with rfl | rfl <;> simp [Outcome.after, hm]

theorem pending_throwing (x : Thrown μ) :
    (throwing x (.failing v) m).Pending (Thrown.Raises x) v := by
  cases x with
  | none => exact ⟨v, m, .inr rfl, .inl rfl⟩
  | some f => exact ⟨some (f m), m, .inr rfl, .inr ⟨f m, rfl, f, m, rfl, rfl⟩⟩

theorem pending_setup (f : Call μ) : (Handling.setup f (.failing v) m).Pending (Call.Raises f) v := by
  rcases hm : f m with ⟨_ | e, m'⟩
  · exact ⟨v, m', .inl (by simp [Handling.setup, hm]), .inl rfl⟩
  · refine ⟨some e, m', .inl (by simp [Handling.setup, hm]), .inr ⟨e, rfl, m, by rw [hm]⟩⟩

end Pending

mutual

/-- Where an exception is pending, one still is after a program without a `try`. -/
theorem Prog.spec_failing : ∀ (p : Prog μ), p.noTry = true → ∀ (v : Option ExType) (m : μ),
    (p.spec (.failing v) m).Pending p.Raises v
  | .skip, _, v, m => pending_same
  | .act f, _, v, m => pending_same
  | .seq p q, hp, v, m => by
    obtain ⟨hp₁, hp₂⟩ := Bool.and_eq_true_iff.mp hp
    exact ((p.spec_failing hp₁ v m).mono fun _ => .inl).andThen fun v' m' =>
      (q.spec_failing hp₂ v' m').mono fun _ => .inr
  | .throw x, _, v, m => pending_throwing x
  | .conditionThrow test x, _, v, m => by
    rw [Prog.spec]
    split_ifs
    · exact pending_same
    · exact pending_throwing x
  | .throwable q, hq, v, m => (q.spec_failing hq v m).settle

theorem Part.spec_failing : ∀ (q : Part μ), q.noTry = true → ∀ (v : Option ExType) (m : μ),
    (q.spec (.failing v) m).Pending q.Raises v
  | .call f, _, v, m => pending_same.after fun _ => id
  | .with_ init setup condition cleanup body, hq, v, m => by
    obtain ⟨hinit, hbody⟩ := Bool.and_eq_true_iff.mp hq
    refine ((init.spec_failing hinit v m).mono fun _ => .inl).andThen fun v₁ m₁ => ?_
    refine ((pending_setup setup).mono fun _ h => .inr (.inl h)).andThen fun v₂ m₂ => ?_
    refine Outcome.Pending.after ?_ fun _ h => .inr (.inr (.inl h))
    split_ifs
    · exact (body.spec_failing hbody v₂ m₂).mono fun _ h => .inr (.inr (.inr h))
    · exact pending_same

end

/-- The macros are structured exceptions: the expansion of a construct always falls through, with
    what `spec` says in memory and pending. After an `onerror` clause without a `try` the
    exception is still pending, or one that the clause raised, with a type or without. -/
theorem structured_exceptions (q : Part μ) (n : ℕ) (m : μ) :
    (∀ o t', Ev none (q.expand n) ⟨.clear, m⟩ o t' ↔ o = .fall ∧ t' = (q.spec .nothing m).thread) ∧
    (∀ body : Prog μ, body.noTry = true → ∀ v m, ∃ v' m',
      (Clauses.last false body).spec v m = .thrown v' m' ∧
        (v' = v ∨ ∃ e, v' = some e ∧ body.Raises e)) ∧
    ∀ (covers : ExType → Bool) (body : Prog μ) (rest : Clauses μ), body.noTry = true →
      ∀ v m, v.any covers = true → ∃ v' m',
        (Clauses.cons covers false body rest).spec v m = .thrown v' m' ∧
          (v' = v ∨ ∃ e, v' = some e ∧ body.Raises e) := by
  refine ⟨fun o t' => ⟨fun h => ?_, ?_⟩, fun body hbody v m => ?_,
    fun covers body rest hbody v m hcovers => ?_⟩
  · exact h.unique (q.expand_spec n .nothing m)
  · rintro ⟨rfl, rfl⟩
    exact q.expand_spec n .nothing m
  · exact (body.spec_failing hbody v m).settle_thrown
  · rw [Clauses.spec, if_pos hcovers]
    exact (body.spec_failing hbody v m).settle_thrown

/-- Clauses that only write something down, the second for its type alone. -/
theorem structured_exceptions_onerror :
    Ev none ((Part.try_ (.throw (some fun _ => .unspecified "a"))
        (.last false (.act fun _ => 1))).expand 0) ⟨.clear, 0⟩ .fall
      ⟨.init (.unspecified "a"), 1⟩ ∧
    (Prog.act fun _ : ℕ => 1).noTry = true ∧
    (∃ v' m', (Clauses.last false (.act fun _ => 1)).spec (some (.unspecified "a")) 0 = .thrown v' m' ∧
      (v' = some (.unspecified "a") ∨ ∃ e, v' = some e ∧ (Prog.act fun _ : ℕ => 1).Raises e)) ∧
    ∃ v' m', (Clauses.cons (fun e => e = .malloc "a") false (.act fun _ => 1) .nil).spec
      (some (.malloc "a")) 0 = .thrown v' m' ∧
      (v' = some (.malloc "a") ∨ ∃ e, v' = some e ∧ (Prog.act fun _ : ℕ => 1).Raises e) :=
  have h := structured_exceptions (Part.try_ (.throw (some fun _ => .unspecified "a"))
    (.last false (.act fun _ => 1))) 0 0
  ⟨(h.1 _ _).mpr ⟨rfl, rfl⟩, rfl, h.2.1 _ rfl _ _, h.2.2 _ _ _ rfl _ _ rfl⟩

/-- The exception is kept in one place. An `onerror` clause with a `try` inside can lose it, also if
    that `try` raises nothing; one that throws replaces it; and a `catch` clause that has caught
    another exception meanwhile cannot throw its own again. -/
theorem not_exception_kept :
    Ev none ((Part.try_ (.throw (some fun _ => .unspecified "a"))
        (.last false (.throwable (.try_ .skip (.last true (.act fun _ => 1)))))).expand 0)
      ⟨.clear, 0⟩ .fall ⟨.clear, 1⟩ ∧
    Ev none ((Part.try_ (.throw (some fun _ => .unspecified "a"))
        (.last false (.throw (some fun _ => .unspecified "b")))).expand 0)
      ⟨.clear, 0⟩ .fall ⟨.init (.unspecified "b"), 0⟩ ∧
    Ev none ((Part.try_ (.throw (some fun _ => .unspecified "a"))
        (.last true (.seq (.throwable (.try_ (.throw (some fun _ => .unspecified "b"))
          (.last true .skip))) (.throw none)))).expand 0)
      ⟨.clear, 0⟩ .fall ⟨⟨.raised, none⟩, 0⟩ :=
  ⟨Part.expand_spec _ 0 .nothing 0, Part.expand_spec _ 0 .nothing 0,
    Part.expand_spec _ 0 .nothing 0⟩

end NetworkFs.Grammar
