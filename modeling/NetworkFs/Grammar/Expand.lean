import NetworkFs.Control.Goto
import NetworkFs.Grammar.Try

/-!
# What the macros expand to

The statements that `reflow`, `with`, `throwable`, `throw`, `try`, `catch` and `onerror` stand for
(`common/grammar/with.h`, `common/grammar/try.h`), as statements with labels and `goto`, and the
proof that they do what their models in `NetworkFs.Grammar.Try` do.

Each use of a macro has labels of its own (`__COUNTER__`). A `for (decl;;)` is a loop, with the
declaration as the first part of the initialisation.

* `ev_reflow`: the way through a `reflow`.
* `runs_withTest`, `runs_throwable`, `runs_throw`, `runs_conditionThrow`, `runs_try`, `runs_catch`,
  `runs_onerror`: each macro and its model.
-/

namespace NetworkFs.Grammar

open Control

variable {τ ρ α β : Type}

/-! ## The macros -/

/-- The names the macros give to `CONCAT`. -/
inductive LabelName where
  | reflowStart
  | reflowEnd
  | tryStart
  | tryEnd
  deriving DecidableEq

/-- `CONCAT(name, counter)`. -/
structure Label where
  name : LabelName
  counter : ℕ
  deriving DecidableEq

/-- A statement over what a thread sees. -/
abbrev CStmt (τ : Type) := Stmt Label (Thread τ)

/-- The condition `1`. -/
def yes : Thread τ → Bool := fun _ => true

/-- The condition `0`. -/
def no : Thread τ → Bool := fun _ => false

/-- `__generate_reflow(init, condition, cleanup, n) body`. -/
def reflowStmt (n : ℕ) (init : CStmt τ) (condition : Thread τ → Bool) (cleanup body : CStmt τ) :
    CStmt τ :=
  .ite yes
    (.seq init (.seq (.ite condition (.goto ⟨.reflowStart, n⟩) .skip)
      (.label ⟨.reflowEnd, n⟩ cleanup)))
    (.loop (.ite yes (.goto ⟨.reflowEnd, n⟩) (.label ⟨.reflowStart, n⟩ (.once body))))

/-- `for (decl;;) reflow(init, condition, cleanup; break) body`. -/
def withTestStmt (n : ℕ) (init : CStmt τ) (condition : Thread τ → Bool) (cleanup body : CStmt τ) :
    CStmt τ :=
  .loop (reflowStmt n init condition (.seq cleanup .brk) body)

/-- `if unlikely (Exception_has(&ex)) break`. -/
def checkStmt : CStmt τ := .ite (·.ex.has) .brk .skip

/-- `throwable s`: `reflow(, 1, check) s`. -/
def throwableStmt (n : ℕ) (s : CStmt τ) : CStmt τ := reflowStmt n .skip yes checkStmt s

/-- `ex.set = true`. -/
def setRaised (t : Thread τ) : Thread τ := { t with ex := { t.ex with set := .raised } }

/-- `e->set = EXCEPTION_CATCHED`. -/
def setCatched (t : Thread τ) : Thread τ := { t with ex := { t.ex with set := .catched } }

/-- `throw s`: `reflow(, 1, ex.set = true; break) s`. -/
def throwStmt (n : ℕ) (s : CStmt τ) : CStmt τ :=
  reflowStmt n .skip yes (.seq (.act setRaised) .brk) s

/-- `condition_throw(test) s`: `if likely (test); else throw s`. -/
def conditionThrowStmt (n : ℕ) (test : Thread τ → Bool) (s : CStmt τ) : CStmt τ :=
  .ite test .skip (throwStmt n s)

/-- `__generate_try(n) body`, and the `else` branches of its clauses. -/
def tryStmt (n : ℕ) (body clauses : CStmt τ) : CStmt τ :=
  .ite yes (.goto ⟨.tryStart, n⟩)
    (.label ⟨.tryEnd, n⟩ (.ite (fun t => !t.ex.has) .skip
      (.ite no
        (.loop (.ite yes (.goto ⟨.tryEnd, n⟩) (.label ⟨.tryStart, n⟩ (.once body))))
        clauses)))

/-- `with (type unused *e = (type *) &ex, e->set = EXCEPTION_CATCHED, 1, if (e->set != true)
    Exception_destory((Exception *) e)) body`. -/
def catchStmt (n : ℕ) (body : CStmt τ) : CStmt τ :=
  withTestStmt n (.act setCatched) yes
    (.ite (fun t => t.ex.set != .raised) (.act fun t => { t with ex := .clear }) .skip) body

/-- `with (type unused *e = (type *) &ex,, 1,) body`. -/
def onerrorStmt (n : ℕ) (body : CStmt τ) : CStmt τ := withTestStmt n .skip yes .skip body

/-! ## A statement and its model -/

/-- `s` falls through and breaks as `m` does, in the same states. -/
def Runs (s : CStmt τ) (m : Ctl (Thread τ) ρ α) : Prop :=
  ∀ t, (∃ a t', m t = (.ok a, t') ∧ Ev none s t .fall t') ∨
    ∃ t', m t = (.error .brk, t') ∧ Ev none s t .brk t'

/-- `s` falls through as `m` does. -/
def RunsThrough (s : CStmt τ) (m : Ctl (Thread τ) ρ α) : Prop :=
  ∀ t, ∃ a t', m t = (.ok a, t') ∧ Ev none s t .fall t'

theorem RunsThrough.runs {s : CStmt τ} {m : Ctl (Thread τ) ρ α} (h : RunsThrough s m) :
    Runs s m := fun t => .inl (h t)

theorem runs_act (f : Thread τ → Thread τ) :
    RunsThrough (.act f : CStmt τ) (Ctl.modify f : Ctl (Thread τ) ρ Unit) :=
  fun t => ⟨(), f t, rfl, ev_act f t⟩

theorem runs_skip (a : α) : RunsThrough (.skip : CStmt τ) (pure a : Ctl (Thread τ) ρ α) :=
  fun t => ⟨a, t, rfl, ev_skip t⟩

theorem runs_seq {s s' : CStmt τ} {m : Ctl (Thread τ) ρ α} {m' : Ctl (Thread τ) ρ β}
    (h : Runs s m) (h' : Runs s' m') : Runs (.seq s s') (m >>= fun _ => m') := by
  intro t
  rcases h t with ⟨a, t₁, hm, hs⟩ | ⟨t₁, hm, hs⟩
  · rw [Ctl.bind_ok hm]
    rcases h' t₁ with ⟨b, t₂, hm', hs'⟩ | ⟨t₂, hm', hs'⟩
    · exact .inl ⟨b, t₂, hm', (Passes.seq hs hs').fall⟩
    · exact .inr ⟨t₂, hm', (Passes.seq hs hs').brk⟩
  · exact .inr ⟨t₁, Ctl.bind_error hm, (Passes.seq_stop hs nofun).brk⟩

/-- The body of a macro, in `switch (1) case 1:`. -/
theorem runs_once {s : CStmt τ} {m : Ctl (Thread τ) ρ α} (h : Runs s m) :
    RunsThrough (.once s) (Ctl.doOnce m) := by
  intro t
  rcases h t with ⟨a, t₁, hm, hs⟩ | ⟨t₁, hm, hs⟩
  · exact ⟨some a, t₁, Ctl.doOnce_ok hm, (Passes.once_fall hs).fall⟩
  · exact ⟨none, t₁, Ctl.doOnce_brk hm, (Passes.once_brk hs).fall⟩

/-! ## `reflow` -/

section Reflow

variable {n : ℕ} {init cleanup body : CStmt τ} {condition : Thread τ → Bool} {t t₁ t₂ t₃ : Thread τ}
  {o : Out Label}

/-- A label that none of the parts has. -/
structure ReflowFresh (n : ℕ) (init cleanup body : CStmt τ) : Prop where
  start_init : (⟨.reflowStart, n⟩ : Label) ∉ init.labels
  end_init : (⟨.reflowEnd, n⟩ : Label) ∉ init.labels
  start_cleanup : (⟨.reflowStart, n⟩ : Label) ∉ cleanup.labels
  end_body : (⟨.reflowEnd, n⟩ : Label) ∉ body.labels

theorem start_mem_reflow : (⟨.reflowStart, n⟩ : Label) ∈
    (reflowStmt n init condition cleanup body).labels := by
  simp [reflowStmt, Stmt.labels]

theorem end_mem_reflow : (⟨.reflowEnd, n⟩ : Label) ∈
    (reflowStmt n init condition cleanup body).labels := by
  simp [reflowStmt, Stmt.labels]

/-- At the end label only the cleanup is left. -/
theorem passes_reflow_end (hfresh : ReflowFresh n init cleanup body)
    (hcleanup : Ev none cleanup t o t₁) (ho : ∀ l, o ≠ .jump l) :
    Passes (some ⟨.reflowEnd, n⟩) (reflowStmt n init condition cleanup body) t o t₁ := by
  have hjump : ∀ s : CStmt τ, ∀ l, o = .jump l → l ∉ s.labels := fun _ l h => absurd h (ho l)
  refine .ite_into_then (by simp [Stmt.labels]) (.done ?_ (hjump _))
  refine .seq_into hfresh.end_init (.done ?_ (hjump _))
  exact .seq_into (by simp [Stmt.labels]) (.done (.label_at hcleanup) (hjump _))

/-- At the start label the body runs once, then the `while` goes to the end label. -/
theorem passes_reflow_start (hfresh : ReflowFresh n init cleanup body)
    (hbody : Ev none (.once body) t .fall t₁) :
    Passes (some ⟨.reflowStart, n⟩) (reflowStmt n init condition cleanup body) t
      (.jump ⟨.reflowEnd, n⟩) t₁ := by
  refine .ite_into_else ?_ ?_
  · simp [Stmt.labels, hfresh.start_init, hfresh.start_cleanup]
  have hback : Ev none (.loop (.ite yes (.goto ⟨.reflowEnd, n⟩)
      (.label ⟨.reflowStart, n⟩ (.once body))) : CStmt τ) t₁ (.jump ⟨.reflowEnd, n⟩) t₁ := by
    refine Passes.jump (.loop_jump (Passes.jump (.ite_then rfl (ev_goto _ _)) ?_)) ?_ <;>
      simp [Stmt.labels, hfresh.end_body]
  refine Passes.jump (.loop_fall (Passes.fall (.ite_into_else ?_ ?_)) hback) ?_
  · simp [Stmt.labels]
  · exact (Passes.label_at hbody).fall
  · simp [Stmt.labels, hfresh.end_body]

/-- `init` fell through and the condition holds: the body, then the cleanup. -/
theorem ev_reflow (hfresh : ReflowFresh n init cleanup body) (hinit : Ev none init t .fall t₁)
    (hc : condition t₁ = true) (hbody : Ev none (.once body) t₁ .fall t₂)
    (hcleanup : Ev none cleanup t₂ o t₃) (ho : ∀ l, o ≠ .jump l) :
    Ev none (reflowStmt n init condition cleanup body) t o t₃ := by
  have hjump : Passes none (reflowStmt n init condition cleanup body) t
      (.jump ⟨.reflowStart, n⟩) t₁ := by
    refine .ite_then rfl (Passes.jump (.seq hinit ?_) ?_)
    · refine Passes.jump (.seq_stop (Passes.jump (.ite_then hc (ev_goto _ _)) ?_) nofun) ?_
      · simp [Stmt.labels]
      · simp [Stmt.labels, hfresh.start_cleanup]
    · simp [Stmt.labels, hfresh.start_init, hfresh.start_cleanup]
  refine .again hjump start_mem_reflow (.again (passes_reflow_start hfresh hbody) end_mem_reflow ?_)
  exact .done (passes_reflow_end hfresh hcleanup ho) fun l h => absurd h (ho l)

/-- The condition does not hold: only the cleanup. -/
theorem ev_reflow_skip (hinit : Ev none init t .fall t₁) (hc : condition t₁ = false)
    (hcleanup : Ev none cleanup t₁ o t₂) (ho : ∀ l, o ≠ .jump l) :
    Ev none (reflowStmt n init condition cleanup body) t o t₂ := by
  have hjump : ∀ s : CStmt τ, ∀ l, o = .jump l → l ∉ s.labels := fun _ l h => absurd h (ho l)
  have htest : Ev none (.ite condition (.goto ⟨.reflowStart, n⟩) .skip : CStmt τ) t₁ .fall t₁ :=
    (Passes.ite_else hc (ev_skip _)).fall
  have hend : Ev none (.label ⟨.reflowEnd, n⟩ cleanup : CStmt τ) t₁ o t₂ :=
    .done (.label hcleanup) (hjump _)
  exact .done (.ite_then rfl (.done (.seq hinit (.done (.seq htest hend) (hjump _))) (hjump _)))
    (hjump _)

/-- A `break` in `init`. -/
theorem ev_reflow_init (hinit : Ev none init t .brk t₁) :
    Ev none (reflowStmt n init condition cleanup body) t .brk t₁ :=
  (Passes.ite_then rfl (Passes.seq_stop hinit nofun).brk).brk

end Reflow

/-! ## The other macros -/

section Macros

variable {n : ℕ} {init cleanup body s : CStmt τ} {condition : Thread τ → Bool}

theorem ReflowFresh.seq_brk (h : ReflowFresh n init cleanup body) :
    ReflowFresh n init (.seq cleanup .brk) body :=
  ⟨h.start_init, h.end_init, by simpa [Stmt.labels] using h.start_cleanup, h.end_body⟩

/-- A `with` that was entered: the loop is left by the `break` after the cleanup. -/
theorem ev_with {t t₁ t₂ t₃ : Thread τ} (hfresh : ReflowFresh n init cleanup body)
    (hinit : Ev none init t .fall t₁) (hc : condition t₁ = true)
    (hbody : Ev none (.once body) t₁ .fall t₂) (hcleanup : Ev none cleanup t₂ .fall t₃) :
    Ev none (withTestStmt n init condition cleanup body) t .fall t₃ := by
  have hend : Ev none (.seq cleanup .brk) t₂ .brk t₃ := (Passes.seq hcleanup (ev_brk t₃)).brk
  exact (Passes.loop_brk (ev_reflow hfresh.seq_brk hinit hc hbody hend nofun)).fall

/-- `with`: a `break` in the initialisation leaves the loop too. -/
theorem runs_withTest {i : Ctl (Thread τ) ρ β} {c : Ctl (Thread τ) ρ Unit} {b : Ctl (Thread τ) ρ α}
    (hfresh : ReflowFresh n init cleanup body) (hinit : Runs init i)
    (hcleanup : RunsThrough cleanup c) (hbody : Runs body b) :
    RunsThrough (withTestStmt n init condition cleanup body)
      (withTest i condition (fun _ => c) fun _ => b) := by
  intro t
  rcases hinit t with ⟨a, t₁, hi, hs⟩ | ⟨t₁, hi, hs⟩
  · cases hcond : condition t₁ with
    | false =>
      obtain ⟨u, t₂, hc, hclean⟩ := hcleanup t₁
      have hend := (Passes.seq hclean (ev_brk t₂)).brk
      exact ⟨none, t₂, withTest_skip hi hcond hc,
        (Passes.loop_brk (ev_reflow_skip hs hcond hend nofun)).fall⟩
    | true =>
      obtain ⟨r, t₂, hb, honce⟩ := runs_once hbody t₁
      obtain ⟨u, t₃, hc, hclean⟩ := hcleanup t₂
      refine ⟨r, t₃, ?_, ev_with hfresh hs hcond honce hclean⟩
      simp [withTest, reflowBody, Ctl.bind_apply, Ctl.map_apply, Ctl.doOnce_ok hi, hcond, hb, hc]
  · exact ⟨none, t₁, withTest_init_brk hi, (Passes.loop_brk (ev_reflow_init hs)).fall⟩

theorem reflowFresh_after (hcleanup : cleanup.labels = []) (hend : (⟨.reflowEnd, n⟩ : Label) ∉ s.labels) :
    ReflowFresh n .skip cleanup s :=
  ⟨by simp [Stmt.labels], by simp [Stmt.labels], by simp [hcleanup], hend⟩

/-- `throwable`, before a statement that does not break. -/
theorem runs_throwable {m : Ctl (Thread τ) ρ α} (hend : (⟨.reflowEnd, n⟩ : Label) ∉ s.labels)
    (h : RunsThrough s m) : Runs (throwableStmt n s) (throwable m) := by
  have hfresh : ReflowFresh n .skip checkStmt s := reflowFresh_after rfl hend
  intro t
  obtain ⟨a, t₁, hm, hs⟩ := h t
  have honce := (Passes.once_fall hs).fall
  cases hex : t₁.ex.has with
  | false =>
    refine .inl ⟨a, t₁, throwable_clean hm hex, ev_reflow hfresh (ev_skip t) rfl honce ?_ nofun⟩
    exact (Passes.ite_else (c := fun t : Thread τ => t.ex.has) hex (ev_skip t₁)).fall
  | true =>
    refine .inr ⟨t₁, throwable_pending hm hex, ev_reflow hfresh (ev_skip t) rfl honce ?_ nofun⟩
    exact (Passes.ite_then (c := fun t : Thread τ => t.ex.has) hex (ev_brk t₁)).brk

theorem runs_throw {m : Ctl (Thread τ) ρ Unit} (hend : (⟨.reflowEnd, n⟩ : Label) ∉ s.labels)
    (h : RunsThrough s m) : Runs (throwStmt n s) (throw m) := by
  intro t
  obtain ⟨a, t₁, hm, hs⟩ := h t
  refine .inr ⟨setRaised t₁, ?_, ?_⟩
  · rw [throw, Ctl.bind_ok hm]
    rfl
  · refine ev_reflow (reflowFresh_after rfl hend) (ev_skip t) rfl (Passes.once_fall hs).fall ?_ nofun
    exact (Passes.seq (ev_act _ t₁) (ev_brk _)).brk

theorem runs_conditionThrow {m : Ctl (Thread τ) ρ Unit} {test : Thread τ → Bool}
    (hend : (⟨.reflowEnd, n⟩ : Label) ∉ s.labels) (h : RunsThrough s m) :
    Runs (conditionThrowStmt n test s) (Ctl.gets test >>= fun b => conditionThrow b m) := by
  intro t
  rw [Ctl.bind_ok (Ctl.gets_apply test t)]
  cases htest : test t with
  | true => exact .inl ⟨(), t, rfl, (Passes.ite_then htest (ev_skip t)).fall⟩
  | false =>
    rcases runs_throw hend h t with ⟨a, t', hm, hs⟩ | ⟨t', hm, hs⟩
    · exact .inl ⟨a, t', hm, (Passes.ite_else htest hs).fall⟩
    · exact .inr ⟨t', hm, (Passes.ite_else htest hs).brk⟩

/-! ## `try` -/

/-- The clause that is for the exception. -/
def pick (clauses : List (Clause τ ρ)) : Ctl (Thread τ) ρ Unit := do
  let e ← Ctl.gets (·.ex)
  match clauses.find? (·.covers e) with
  | some c => c.run
  | none => pure ()

theorem handle_pending {clauses : List (Clause τ ρ)} {t : Thread τ} (h : t.ex.has = true) :
    handle clauses t = pick clauses t := by
  rw [handle, Ctl.bind_ok (Ctl.gets_apply _ _), if_pos h]
  rfl

/-- The `if (0) while (1) ...` of a `try`, entered at the start label: the body, then the jump to
    the end label. -/
theorem ev_tryBody {t t₁ : Thread τ} (hend : (⟨.tryEnd, n⟩ : Label) ∉ body.labels)
    (honce : Ev none (.once body) t .fall t₁) :
    Ev (some ⟨.tryStart, n⟩) (.loop (.ite yes (.goto ⟨.tryEnd, n⟩)
      (.label ⟨.tryStart, n⟩ (.once body))) : CStmt τ) t (.jump ⟨.tryEnd, n⟩) t₁ := by
  have hback : Ev none (.loop (.ite yes (.goto ⟨.tryEnd, n⟩)
      (.label ⟨.tryStart, n⟩ (.once body))) : CStmt τ) t₁ (.jump ⟨.tryEnd, n⟩) t₁ := by
    refine Passes.jump (.loop_jump (Passes.jump (.ite_then rfl (ev_goto _ _)) ?_)) ?_ <;>
      simp [Stmt.labels, hend]
  refine Passes.jump (.loop_fall (Passes.fall (.ite_into_else ?_ ?_)) hback) ?_
  · simp [Stmt.labels]
  · exact (Passes.label_at honce).fall
  · simp [Stmt.labels, hend]

/-- `try`: the body is entered by a jump into the `while`, and the `while` goes back to the test
    for an exception. -/
theorem runs_try {clauses : CStmt τ} {b : Ctl (Thread τ) ρ α} {cs : List (Clause τ ρ)}
    (hend : (⟨.tryEnd, n⟩ : Label) ∉ body.labels)
    (hend' : (⟨.tryEnd, n⟩ : Label) ∉ clauses.labels) (hbody : Runs body b)
    (hclauses : RunsThrough clauses (pick cs)) :
    RunsThrough (tryStmt n body clauses) (tryCatch b cs) := by
  intro t
  obtain ⟨r, t₁, hb, honce⟩ := runs_once hbody t
  -- the test at the end label, and the clauses
  have htest : ∃ t₂, handle cs t₁ = (.ok (), t₂) ∧ Ev none
      (.ite (fun t => !t.ex.has) .skip (.ite no (.loop (.ite yes (.goto ⟨.tryEnd, n⟩)
        (.label ⟨.tryStart, n⟩ (.once body)))) clauses) : CStmt τ) t₁ .fall t₂ := by
    cases hex : t₁.ex.has with
    | false => exact ⟨t₁, handle_clean hex, (Passes.ite_then (by simp [hex]) (ev_skip t₁)).fall⟩
    | true =>
      obtain ⟨u, t₂, hpick, hs⟩ := hclauses t₁
      refine ⟨t₂, (handle_pending hex).trans hpick, ?_⟩
      exact (Passes.ite_else (by simp [hex]) (Passes.ite_else rfl hs).fall).fall
  obtain ⟨t₂, hhandle, hrest⟩ := htest
  refine ⟨r, t₂, ?_, ?_⟩
  · rw [tryCatch, Ctl.bind_ok hb, Ctl.bind_ok hhandle]
    rfl
  · refine .again (.ite_then rfl (ev_goto _ t)) (by simp [tryStmt, Stmt.labels]) (Passes.fall ?_)
    refine .ite_into_else (by simp [Stmt.labels]) (.again (.label_into (by simp) ?_) ?_
      (Passes.label_at hrest).fall)
    · refine Passes.jump (.ite_into_else (by simp [Stmt.labels])
        (Passes.jump (.ite_into_then ?_ (ev_tryBody hend honce)) ?_)) ?_
      · simp [Stmt.labels]
      · simp [Stmt.labels, hend, hend']
      · simp [Stmt.labels, hend, hend']
    · simp [Stmt.labels]

/-! ## The clauses -/

/-- The branches from a clause on. -/
theorem runs_pick_cons {c : Clause τ ρ} {cs : List (Clause τ ρ)} {s rest : CStmt τ}
    (hs : RunsThrough s c.run) (hrest : RunsThrough rest (pick cs)) :
    RunsThrough (.ite (fun t => c.covers t.ex) s rest) (pick (c :: cs)) := by
  intro t
  cases hc : c.covers t.ex with
  | true =>
    obtain ⟨u, t', hrun, hev⟩ := hs t
    refine ⟨u, t', ?_, (Passes.ite_then (c := fun t : Thread τ => c.covers t.ex) hc hev).fall⟩
    simpa [pick, Ctl.bind_apply, hc] using hrun
  | false =>
    obtain ⟨u, t', hrun, hev⟩ := hrest t
    refine ⟨u, t', ?_, (Passes.ite_else (c := fun t : Thread τ => c.covers t.ex) hc hev).fall⟩
    simpa [pick, Ctl.bind_apply, hc] using hrun

/-- The last branch, for every exception. -/
theorem runs_pick_last {c : Clause τ ρ} {s : CStmt τ} (hcovers : ∀ e, c.covers e = true)
    (hs : RunsThrough s c.run) : RunsThrough s (pick [c]) := by
  intro t
  obtain ⟨u, t', hrun, hev⟩ := hs t
  refine ⟨u, t', ?_, hev⟩
  simpa [pick, Ctl.bind_apply, hcovers] using hrun

theorem runs_pick_nil : RunsThrough (.skip : CStmt τ) (pick ([] : List (Clause τ ρ))) :=
  fun t => ⟨(), t, rfl, ev_skip t⟩

/-- A `catch` clause: the exception is destroyed afterwards unless it is raised again. -/
theorem runs_catch {covers : Exception → Bool} {b : Ctl (Thread τ) ρ Unit}
    (hend : (⟨.reflowEnd, n⟩ : Label) ∉ body.labels) (hbody : Runs body b) :
    RunsThrough (catchStmt n body) (catchType covers b).run := by
  intro t
  obtain ⟨r, t₁, hb, honce⟩ := runs_once hbody (setCatched t)
  have hfresh : ReflowFresh n (.act setCatched) (.ite (fun t => t.ex.set != .raised)
      (.act fun t => { t with ex := .clear }) .skip) body :=
    ⟨by simp [Stmt.labels], by simp [Stmt.labels], by simp [Stmt.labels], hend⟩
  have hev : ∀ t₂, Ev none (.ite (fun t => t.ex.set != .raised)
      (.act fun t => { t with ex := .clear }) .skip) t₁ .fall t₂ →
      Ev none (catchStmt n body) t .fall t₂ :=
    fun _ => ev_with hfresh (ev_act setCatched t) rfl honce
  rw [setCatched] at hb
  cases hset : t₁.ex.set != .raised with
  | true =>
    refine ⟨(), { t₁ with ex := .clear }, ?_, hev _ ?_⟩
    · simp [Clause.run, catchType, Ctl.bind_apply, hb, hset]
    · exact (Passes.ite_then (c := fun t : Thread τ => t.ex.set != .raised) hset (ev_act _ t₁)).fall
  | false =>
    refine ⟨(), t₁, ?_, hev _ ?_⟩
    · simp [Clause.run, catchType, Ctl.bind_apply, hb, hset]
    · exact (Passes.ite_else (c := fun t : Thread τ => t.ex.set != .raised) hset (ev_skip t₁)).fall

/-- An `onerror` clause: only its body. -/
theorem runs_onerror {covers : Exception → Bool} {b : Ctl (Thread τ) ρ Unit}
    (hend : (⟨.reflowEnd, n⟩ : Label) ∉ body.labels) (hbody : Runs body b) :
    RunsThrough (onerrorStmt n body) (⟨covers, false, b⟩ : Clause τ ρ).run := by
  intro t
  obtain ⟨r, t₁, hb, honce⟩ := runs_once hbody t
  refine ⟨(), t₁, ?_, ev_with (reflowFresh_after rfl hend) (ev_skip t) rfl honce (ev_skip t₁)⟩
  simp [Clause.run, Ctl.bind_apply, hb]

end Macros

end NetworkFs.Grammar
