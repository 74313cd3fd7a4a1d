import NetworkFs.Control.Ctl

/-!
# `try`, `catch`, `throwable` and `with`

The macros of `common/grammar/with.h` and `common/grammar/try.h` as statements
over `Ctl`, and the thread-local exception of `common/grammar/exception.c`.

All of them are built from `reflow(init, condition, cleanup) body`: a `break`
or `continue` inside `body` only ends `body` (it is a `do_once` inside a
`while (1)`), a `break` inside `init` or `cleanup` leaves the statement that
encloses the whole construct, and `cleanup` runs also when `condition` is
false. `return` leaves at once and skips every cleanup.

The state is `Thread τ`: the exception next to whatever else the thread sees.
-/

namespace NetworkFs.Grammar

open Control

/-! ## The exception -/

/-- The `CURLcode` values the code tells apart: `CURLE_OK`,
    `CURLE_HTTP_RETURNED_ERROR`, and the rest by number. -/
inductive CurlCode where
  | ok
  | httpReturnedError
  | other (n : ℕ)
  deriving DecidableEq

/-- `enum CURLaction` (`common/wrapper/curl.h` lines 18–25). -/
inductive CurlAction where
  | init
  | setopt
  | perform
  | info
  | slistAppend
  | unescape
  deriving DecidableEq

/-- `enum CURLUaction` (`common/wrapper/curl.h` lines 40–45). -/
inductive CurluAction where
  | init
  | dup
  | set
  | get
  deriving DecidableEq

/-- The exception types, one constructor for each vtable, with the fields the
    code reads. `response_code` is only written, and only read, when `code` is
    `CURLE_HTTP_RETURNED_ERROR`. -/
inductive ExType where
  | unspecified (what : String)
  | malloc (what : String)
  | curl (code : CurlCode) (responseCode : ℕ) (action : CurlAction)
  | curlUrl (code : ℕ) (action : CurluAction)
  deriving DecidableEq

/-- `ex.set`: `false`, `true` or `EXCEPTION_CATCHED`. -/
inductive ExSet where
  | unset
  | raised
  | catched
  deriving DecidableEq

/-- `thread_local Exception ex`: the flag and the vtable pointer with the
    fields of its type (`none` for `NULL`). -/
structure Exception where
  set : ExSet
  vtable : Option ExType
  deriving DecidableEq

/-- The initial `ex` (`exception.c` lines 11–13), also what `Exception_destory`
    leaves (lines 128–138). -/
def Exception.clear : Exception := ⟨.unset, none⟩

/-- What `Exception_init` and the `_init` of each type leave (lines 149–164): an
    exception that was there is printed and destroyed first. -/
def Exception.init (e : ExType) : Exception := ⟨.raised, some e⟩

/-- `Exception_has` (`exception.h` lines 58–60). -/
def Exception.has (e : Exception) : Bool := e.set == .raised

/-- `issubtype(Exception, &ex, CurlException) && code ==
    CURLE_HTTP_RETURNED_ERROR && response_code == n`. -/
def Exception.isHttp (e : Exception) (n : ℕ) : Bool :=
  match e.vtable with
  | some (.curl .httpReturnedError m _) => m == n
  | _ => false

/-- `issubtype(Exception, &ex, CurlException)`. -/
def Exception.isCurl (e : Exception) : Bool :=
  match e.vtable with
  | some (.curl _ _ _) => true
  | _ => false

@[simp] theorem Exception.has_init (e : ExType) : (Exception.init e).has = true := rfl

@[simp] theorem Exception.has_clear : Exception.clear.has = false := rfl

@[simp] theorem Exception.set_init (e : ExType) : (Exception.init e).set = .raised := rfl

@[simp] theorem Exception.set_clear : Exception.clear.set = .unset := rfl

/-- What a thread sees: its exception and everything else. -/
structure Thread (τ : Type) where
  ex : Exception
  mem : τ

variable {τ ρ α β : Type}

/-- `XException(...)`: raise an exception of the given type. -/
def raise (e : ExType) : Ctl (Thread τ) ρ Unit := Ctl.modify fun t => { t with ex := .init e }

/-- `Exception_destory(&ex)`. -/
def exceptionDestory : Ctl (Thread τ) ρ Unit := Ctl.modify fun t => { t with ex := .clear }

/-- `TEST_SUCCESS`, that is `Exception_has(&ex)`, as the `int` it is returned as. -/
def testSuccess : Ctl (Thread τ) ρ ℤ := Ctl.gets fun t => if t.ex.has then 1 else 0

/-! ## The macros -/

/-- `check`: `if unlikely (Exception_has(&ex)) break`. -/
def check : Ctl (Thread τ) ρ Unit := do
  if ← Ctl.gets (·.ex.has) then Ctl.leave .brk

/-- `throwable m`: run `m`, then `check`. -/
def throwable (m : Ctl (Thread τ) ρ α) : Ctl (Thread τ) ρ α := do
  let a ← m
  check
  pure a

/-- `throw m`: run `m`, then `ex.set = true; break`. -/
def throw (m : Ctl (Thread τ) ρ Unit) : Ctl (Thread τ) ρ Unit := do
  m
  Ctl.modify fun t => { t with ex := { t.ex with set := .raised } }
  Ctl.leave .brk

/-- `condition_throw(test) m`. -/
def conditionThrow (test : Bool) (m : Ctl (Thread τ) ρ Unit) : Ctl (Thread τ) ρ Unit :=
  if test then pure () else throw m

/-- The body of a `reflow`: skipped unless `condition`, and then a `do_once`. -/
def reflowBody (condition : Thread τ → Bool) (body : Ctl (Thread τ) ρ α) :
    Ctl (Thread τ) ρ (Option α) := do
  if ← Ctl.gets condition then Ctl.doOnce body else pure none

/-- `with (decl, init, condition, cleanup) body` (`with_test`): the value is
    `none` when `body` was skipped or left by `break`. A `break` inside `init`
    leaves without the cleanup. -/
def withTest (init : Ctl (Thread τ) ρ β) (condition : Thread τ → Bool)
    (cleanup : β → Ctl (Thread τ) ρ Unit) (body : β → Ctl (Thread τ) ρ α) :
    Ctl (Thread τ) ρ (Option α) := do
  match ← Ctl.doOnce init with
  | none => pure none
  | some b =>
    let r ← reflowBody condition (body b)
    cleanup b
    pure r

/-- `with (decl, init, cleanup) body` and `with (decl, cleanup) body`
    (`with_seperated`, `with_assign`): the body runs if no exception is pending. -/
def withSeperated (init : Ctl (Thread τ) ρ β) (cleanup : β → Ctl (Thread τ) ρ Unit)
    (body : β → Ctl (Thread τ) ρ α) : Ctl (Thread τ) ρ (Option α) :=
  withTest init (fun t => !t.ex.has) cleanup body

/-- A `catch` or `onerror` clause: the exceptions it is for (`issubtype`), which
    of the two it is, and its body. -/
structure Clause (τ ρ : Type) where
  covers : Exception → Bool
  catches : Bool
  body : Ctl (Thread τ) ρ Unit

/-- `catch (type, e) body`. -/
def catchType (covers : Exception → Bool) (body : Ctl (Thread τ) ρ Unit) : Clause τ ρ :=
  ⟨covers, true, body⟩

/-- `catch (e) body`. -/
def catchDefault (body : Ctl (Thread τ) ρ Unit) : Clause τ ρ := ⟨fun _ => true, true, body⟩

/-- `onerror (e) body`. -/
def onerror (body : Ctl (Thread τ) ρ Unit) : Clause τ ρ := ⟨fun _ => true, false, body⟩

/-- A clause that was chosen: `catch` marks the exception as caught and destroys
    it afterwards unless the body raised it again. -/
def Clause.run (c : Clause τ ρ) : Ctl (Thread τ) ρ Unit :=
  if c.catches then do
    Ctl.modify fun t => { t with ex := { t.ex with set := .catched } }
    let _ ← Ctl.doOnce c.body
    if ← Ctl.gets (fun t => t.ex.set != .raised) then exceptionDestory
  else do
    let _ ← Ctl.doOnce c.body
    pure ()

/-- The clauses after a `try` body: if an exception is pending, the first one
    that covers it runs. -/
def handle (clauses : List (Clause τ ρ)) : Ctl (Thread τ) ρ Unit := do
  let e ← Ctl.gets (·.ex)
  if e.has then
    match clauses.find? (·.covers e) with
    | some c => c.run
    | none => pure ()

/-- `try body clause...`. -/
def tryCatch (body : Ctl (Thread τ) ρ α) (clauses : List (Clause τ ρ)) :
    Ctl (Thread τ) ρ (Option α) := do
  let r ← Ctl.doOnce body
  handle clauses
  pure r

/-! ## Evaluation -/

section Evaluation

variable {t t₁ t₂ t₃ : Thread τ} {a : α} {b : β}

@[simp] theorem raise_apply (e : ExType) (t : Thread τ) :
    (raise e : Ctl (Thread τ) ρ Unit) t = (.ok (), { t with ex := .init e }) := rfl

@[simp] theorem exceptionDestory_apply (t : Thread τ) :
    (exceptionDestory : Ctl (Thread τ) ρ Unit) t = (.ok (), { t with ex := .clear }) := rfl

@[simp] theorem testSuccess_apply (t : Thread τ) :
    (testSuccess : Ctl (Thread τ) ρ ℤ) t = (.ok (if t.ex.has then 1 else 0), t) := rfl

theorem check_clean (h : t.ex.has = false) :
    (check : Ctl (Thread τ) ρ Unit) t = (.ok (), t) := by
  simp [check, Ctl.bind_apply, h]

theorem check_pending (h : t.ex.has = true) :
    (check : Ctl (Thread τ) ρ Unit) t = (.error .brk, t) := by
  simp [check, Ctl.bind_apply, h]

theorem throwable_clean {m : Ctl (Thread τ) ρ α} (hm : m t = (.ok a, t₁)) (h : t₁.ex.has = false) :
    throwable m t = (.ok a, t₁) := by
  rw [throwable, Ctl.bind_ok hm, Ctl.bind_ok (check_clean h)]
  rfl

theorem throwable_pending {m : Ctl (Thread τ) ρ α} (hm : m t = (.ok a, t₁))
    (h : t₁.ex.has = true) : throwable m t = (.error .brk, t₁) := by
  rw [throwable, Ctl.bind_ok hm, Ctl.bind_error (check_pending h)]

theorem throwable_error {m : Ctl (Thread τ) ρ α} {e : Exit ρ} (hm : m t = (.error e, t₁)) :
    throwable m t = (.error e, t₁) := by
  rw [throwable, Ctl.bind_error hm]

@[simp] theorem throw_raise_apply (e : ExType) (t : Thread τ) :
    (throw (raise e) : Ctl (Thread τ) ρ Unit) t = (.error .brk, { t with ex := .init e }) := rfl

@[simp] theorem conditionThrow_true (m : Ctl (Thread τ) ρ Unit) :
    conditionThrow true m = pure () := rfl

@[simp] theorem conditionThrow_false (m : Ctl (Thread τ) ρ Unit) :
    conditionThrow false m = throw m := rfl

section With

variable {init : Ctl (Thread τ) ρ β} {condition : Thread τ → Bool}
  {cleanup : β → Ctl (Thread τ) ρ Unit} {body : β → Ctl (Thread τ) ρ α}

/-- The body of an entered `with` ran to its end. -/
theorem withTest_ok (hinit : init t = (.ok b, t₁)) (hc : condition t₁ = true)
    (hbody : body b t₁ = (.ok a, t₂)) (hcl : cleanup b t₂ = (.ok (), t₃)) :
    withTest init condition cleanup body t = (.ok (some a), t₃) := by
  simp [withTest, reflowBody, Ctl.bind_apply, Ctl.map_apply, Ctl.doOnce_ok hinit, hc,
    Ctl.doOnce_ok hbody, hcl]

/-- The body of an entered `with` left by `break`: the cleanup still runs. -/
theorem withTest_brk (hinit : init t = (.ok b, t₁)) (hc : condition t₁ = true)
    (hbody : body b t₁ = (.error .brk, t₂)) (hcl : cleanup b t₂ = (.ok (), t₃)) :
    withTest init condition cleanup body t = (.ok none, t₃) := by
  simp [withTest, reflowBody, Ctl.bind_apply, Ctl.map_apply, Ctl.doOnce_ok hinit, hc,
    Ctl.doOnce_brk hbody, hcl]

/-- An absent pointer in the body. -/
theorem withTest_fault (hinit : init t = (.ok b, t₁)) (hc : condition t₁ = true)
    (hbody : body b t₁ = (.error .fault, t₂)) :
    withTest init condition cleanup body t = (.error .fault, t₂) := by
  simp [withTest, reflowBody, Ctl.bind_apply, Ctl.doOnce_ok hinit, hc, Ctl.doOnce_fault hbody]

/-- The condition failed: only the cleanup runs. -/
theorem withTest_skip (hinit : init t = (.ok b, t₁)) (hc : condition t₁ = false)
    (hcl : cleanup b t₁ = (.ok (), t₂)) :
    withTest init condition cleanup body t = (.ok none, t₂) := by
  simp [withTest, reflowBody, Ctl.bind_apply, Ctl.map_apply, Ctl.doOnce_ok hinit, hc, hcl]

/-- A `break` in the initialisation leaves without the cleanup. -/
theorem withTest_init_brk (hinit : init t = (.error .brk, t₁)) :
    withTest init condition cleanup body t = (.ok none, t₁) := by
  simp [withTest, Ctl.bind_apply, Ctl.doOnce_brk hinit]

end With

section Try

variable {body : Ctl (Thread τ) ρ α} {clauses : List (Clause τ ρ)} {handler : Ctl (Thread τ) ρ Unit}

theorem handle_clean (h : t.ex.has = false) : handle clauses t = (.ok (), t) := by
  simp [handle, Ctl.bind_apply, h]

theorem handle_onerror_ok (h : t.ex.has = true) (hh : handler t = (.ok (), t₁)) :
    handle [onerror handler] t = (.ok (), t₁) := by
  simp [handle, Ctl.bind_apply, Ctl.map_apply, h, onerror, Clause.run, Ctl.doOnce_ok hh]

theorem tryCatch_ok (hbody : body t = (.ok a, t₁)) (h : t₁.ex.has = false) :
    tryCatch body clauses t = (.ok (some a), t₁) := by
  rw [tryCatch, Ctl.bind_ok (Ctl.doOnce_ok hbody), Ctl.bind_ok (handle_clean h)]
  rfl

theorem tryCatch_ok_handled (hbody : body t = (.ok a, t₁)) (hh : handle clauses t₁ = (.ok (), t₂)) :
    tryCatch body clauses t = (.ok (some a), t₂) := by
  rw [tryCatch, Ctl.bind_ok (Ctl.doOnce_ok hbody), Ctl.bind_ok hh]
  rfl

theorem tryCatch_fault (hbody : body t = (.error .fault, t₁)) :
    tryCatch body clauses t = (.error .fault, t₁) := by
  rw [tryCatch, Ctl.bind_error (Ctl.doOnce_fault hbody)]

theorem tryCatch_brk (hbody : body t = (.error .brk, t₁)) (hh : handle clauses t₁ = (.ok (), t₂)) :
    tryCatch body clauses t = (.ok none, t₂) := by
  rw [tryCatch, Ctl.bind_ok (Ctl.doOnce_brk hbody), Ctl.bind_ok hh]
  rfl

/-- A `return` in the body skips the clauses. -/
theorem tryCatch_ret {v : ρ} (hbody : body t = (.error (.ret v), t₁)) :
    tryCatch body clauses t = (.error (.ret v), t₁) := by
  rw [tryCatch, Ctl.bind_error (Ctl.doOnce_ret hbody)]

/-- A clause for other exceptions is passed over. -/
theorem handle_skip {covers : Exception → Bool} (hc : covers t.ex = false) :
    handle (catchType covers handler :: clauses) t = handle clauses t := by
  simp [handle, Ctl.bind_apply, catchType, hc]

/-- A `catch` clause whose body ran to its end destroys the exception. -/
theorem handle_catch {covers : Exception → Bool} (h : t.ex.has = true) (hc : covers t.ex = true)
    (hh : handler ⟨⟨.catched, t.ex.vtable⟩, t.mem⟩ = (.ok (), t₁))
    (hs : t₁.ex.set ≠ .raised) :
    handle (catchType covers handler :: clauses) t = (.ok (), ⟨.clear, t₁.mem⟩) := by
  simp [handle, Ctl.bind_apply, h, catchType, hc, Clause.run, Ctl.doOnce_ok hh, hs]

/-- A `catch` clause that throws again keeps the exception. -/
theorem handle_rethrow {covers : Exception → Bool} (h : t.ex.has = true) (hc : covers t.ex = true)
    (hh : handler ⟨⟨.catched, t.ex.vtable⟩, t.mem⟩ = (.error .brk, t₁))
    (hs : t₁.ex.set = .raised) : handle (catchType covers handler :: clauses) t = (.ok (), t₁) := by
  simp [handle, Ctl.bind_apply, h, catchType, hc, Clause.run, Ctl.doOnce_brk hh, hs]

/-- A `try` whose body broke with an exception pending, and an `onerror` clause. -/
theorem tryCatch_onerror (hbody : body t = (.error .brk, t₁)) (h : t₁.ex.has = true)
    (hh : handler t₁ = (.ok (), t₂)) : tryCatch body [onerror handler] t = (.ok none, t₂) := by
  rw [tryCatch, Ctl.bind_ok (Ctl.doOnce_brk hbody), Ctl.bind_ok (handle_onerror_ok h hh)]
  rfl

theorem handle_onerror_ret {v : ρ} (h : t.ex.has = true) (hh : handler t = (.error (.ret v), t₁)) :
    handle [onerror handler] t = (.error (.ret v), t₁) := by
  simp [handle, Ctl.bind_apply, Ctl.map_apply, h, onerror, Clause.run, Ctl.doOnce_ret hh]

/-- An `onerror` clause that returns. -/
theorem tryCatch_onerror_ret {v : ρ} (hbody : body t = (.error .brk, t₁)) (h : t₁.ex.has = true)
    (hh : handler t₁ = (.error (.ret v), t₂)) :
    tryCatch body [onerror handler] t = (.error (.ret v), t₂) := by
  rw [tryCatch, Ctl.bind_ok (Ctl.doOnce_brk hbody), Ctl.bind_error (handle_onerror_ret h hh)]

/-- An `onerror` clause that returns, after a body that reached its end with an
    exception pending. -/
theorem tryCatch_ok_onerror_ret {v : ρ} (hbody : body t = (.ok a, t₁)) (h : t₁.ex.has = true)
    (hh : handler t₁ = (.error (.ret v), t₂)) :
    tryCatch body [onerror handler] t = (.error (.ret v), t₂) := by
  rw [tryCatch, Ctl.bind_ok (Ctl.doOnce_ok hbody), Ctl.bind_error (handle_onerror_ret h hh)]

end Try

end Evaluation

/-! ## Falling through or throwing -/

/-- Run from a state in `P`, `m` falls through with `Q` and without an exception, or it breaks
    with one. -/
def Throws (P : Thread τ → Prop) (m : Ctl (Thread τ) ρ α) (Q : α → Thread τ → Prop) : Prop :=
  ∀ t, P t → (∃ a t', m t = (.ok a, t') ∧ t'.ex.has = false ∧ Q a t') ∨
    ∃ t', m t = (.error .brk, t') ∧ t'.ex.has = true

/-- Run from a state in `P`, `m` falls through, with `Q` unless an exception is pending. -/
def Ends (P : Thread τ → Prop) (m : Ctl (Thread τ) ρ α) (Q : α → Thread τ → Prop) : Prop :=
  ∀ t, P t → ∃ a t', m t = (.ok a, t') ∧ (t'.ex.has = false → Q a t')

section Throws

variable {P : Thread τ → Prop} {Q : α → Thread τ → Prop} {Q' : β → Thread τ → Prop}

theorem Throws.bind {m : Ctl (Thread τ) ρ α} {f : α → Ctl (Thread τ) ρ β} (hm : Throws P m Q)
    (hf : ∀ a, Throws (fun t => t.ex.has = false ∧ Q a t) (f a) Q') : Throws P (m >>= f) Q' := by
  intro t ht
  rcases hm t ht with ⟨a, t', hrun, hex, hQ⟩ | ⟨t', hrun, hex⟩
  · rw [Ctl.bind_ok hrun]
    exact hf a t' ⟨hex, hQ⟩
  · exact .inr ⟨t', Ctl.bind_error hrun, hex⟩

theorem Throws.seq {m : Ctl (Thread τ) ρ α} {f : α → Ctl (Thread τ) ρ β} (hm : Throws P m Q)
    (hf : ∀ a, Throws (Q a) (f a) Q') : Throws P (m >>= f) Q' :=
  hm.bind fun a t ht => hf a t ht.2

theorem Ends.throwable {m : Ctl (Thread τ) ρ α} (hm : Ends P m Q) : Throws P (throwable m) Q := by
  intro t ht
  obtain ⟨a, t', hrun, hQ⟩ := hm t ht
  cases hex : t'.ex.has with
  | false => exact .inl ⟨a, t', throwable_clean hrun hex, hex, hQ hex⟩
  | true => exact .inr ⟨t', throwable_pending hrun hex, hex⟩

/-- A `with` without cleanup around a body that throws. -/
theorem Throws.withSeperated {init : Ctl (Thread τ) ρ α} {body : α → Ctl (Thread τ) ρ β}
    (hinit : Ends P init Q)
    (hbody : ∀ a, Throws (fun t => t.ex.has = false ∧ Q a t) (body a) Q') :
    Ends P (withSeperated init (fun _ => pure ()) body) fun r t => ∃ b, r = some b ∧ Q' b t := by
  intro t ht
  obtain ⟨a, t₁, hrun, hQ⟩ := hinit t ht
  cases hex : t₁.ex.has with
  | true =>
    refine ⟨none, t₁, withTest_skip hrun (by simp [hex]) rfl, fun hclean => ?_⟩
    rw [hex] at hclean
    exact absurd hclean.symm Bool.false_ne_true
  | false =>
    have hc : (!t₁.ex.has) = true := by simp [hex]
    rcases hbody a t₁ ⟨hex, hQ hex⟩ with ⟨b, t', hrun', -, hQ'⟩ | ⟨t', hrun', hex'⟩
    · exact ⟨some b, t', withTest_ok hrun hc hrun' rfl, fun _ => ⟨b, rfl, hQ'⟩⟩
    · refine ⟨none, t', withTest_brk hrun hc hrun' rfl, fun hclean => ?_⟩
      rw [hex'] at hclean
      exact absurd hclean.symm Bool.false_ne_true

/-- `try m onerror (e) {}`. -/
theorem Throws.tryOnerror {m : Ctl (Thread τ) ρ α} (hm : Throws P m Q) :
    Ends P (tryCatch m [onerror (pure ())]) fun r t => ∃ a, r = some a ∧ Q a t := by
  intro t ht
  rcases hm t ht with ⟨a, t', hrun, hex, hQ⟩ | ⟨t', hrun, hex⟩
  · exact ⟨some a, t', tryCatch_ok hrun hex, fun _ => ⟨a, rfl, hQ⟩⟩
  · refine ⟨none, t', tryCatch_onerror hrun hex rfl, fun hclean => ?_⟩
    rw [hex] at hclean
    exact absurd hclean.symm Bool.false_ne_true

end Throws

/-! ## Moving within a preorder -/

section Within

variable {R : Thread τ → Thread τ → Prop} [Std.Refl R] [IsTrans (Thread τ) R] {A : Exit ρ → Prop}

theorem within_check [Ctl.MayBreak A] : Ctl.Within R A (check : Ctl (Thread τ) ρ Unit) :=
  .bind (.gets _) fun _ => .ite .brk (.pure ())

theorem within_throwable [Ctl.MayBreak A] {m : Ctl (Thread τ) ρ α} (hm : Ctl.Within R A m) :
    Ctl.Within R A (throwable m) :=
  .bind hm fun a => .bind within_check fun _ => .pure a

theorem within_throw [Ctl.MayBreak A] (hraise : ∀ t v, R t { t with ex := ⟨.raised, v⟩ })
    {m : Ctl (Thread τ) ρ Unit} (hm : Ctl.Within R A m) : Ctl.Within R A (throw m) :=
  .bind hm fun _ => .bind (.modify fun t => hraise t t.ex.vtable) fun _ => .brk

theorem within_conditionThrow [Ctl.MayBreak A]
    (hraise : ∀ t v, R t { t with ex := ⟨.raised, v⟩ }) {test : Bool}
    {m : Ctl (Thread τ) ρ Unit} (hm : Ctl.Within R A m) :
    Ctl.Within R A (conditionThrow test m) :=
  .ite (.pure ()) (within_throw hraise hm)

theorem within_withTest {init : Ctl (Thread τ) ρ β} {condition : Thread τ → Bool}
    {cleanup : β → Ctl (Thread τ) ρ Unit} {body : β → Ctl (Thread τ) ρ α}
    (hinit : Ctl.Within R (Ctl.orBreak A) init) (hcleanup : ∀ b, Ctl.Within R A (cleanup b))
    (hbody : ∀ b, Ctl.Within R (Ctl.orBreak A) (body b)) :
    Ctl.Within R A (withTest init condition cleanup body) := by
  refine .bind hinit.doOnce fun r => ?_
  cases r with
  | none => exact .pure none
  | some b =>
    refine .bind (.bind (.gets _) fun c => .ite (hbody b).doOnce (.pure none)) fun r => ?_
    exact .bind (hcleanup b) fun _ => .pure r

theorem within_withSeperated {init : Ctl (Thread τ) ρ β} {cleanup : β → Ctl (Thread τ) ρ Unit}
    {body : β → Ctl (Thread τ) ρ α} (hinit : Ctl.Within R (Ctl.orBreak A) init)
    (hcleanup : ∀ b, Ctl.Within R A (cleanup b))
    (hbody : ∀ b, Ctl.Within R (Ctl.orBreak A) (body b)) :
    Ctl.Within R A (withSeperated init cleanup body) :=
  within_withTest hinit hcleanup hbody

theorem within_tryOnerror {body : Ctl (Thread τ) ρ α} {handler : Ctl (Thread τ) ρ Unit}
    (hbody : Ctl.Within R (Ctl.orBreak A) body) (hhandler : Ctl.Within R (Ctl.orBreak A) handler) :
    Ctl.Within R A (tryCatch body [onerror handler]) := by
  refine .bind hbody.doOnce fun r => .bind (.bind (.gets _) fun e => .ite ?_ (.pure ()))
    fun _ => .pure r
  exact .bind hhandler.doOnce fun _ => .pure ()

theorem within_tryCatch {body : Ctl (Thread τ) ρ α} {clauses : List (Clause τ ρ)}
    (hex : ∀ t e, R t { t with ex := e }) (hbody : Ctl.Within R (Ctl.orBreak A) body)
    (hclauses : ∀ c ∈ clauses, Ctl.Within R (Ctl.orBreak A) c.body) :
    Ctl.Within R A (tryCatch body clauses) := by
  have hrun : ∀ c ∈ clauses, Ctl.Within R A c.run := by
    intro c hc
    refine .ite ?_ (.bind (hclauses c hc).doOnce fun _ => .pure ())
    refine .bind (.modify fun t => hex t _) fun _ => .bind (hclauses c hc).doOnce fun _ => ?_
    exact .bind (.gets _) fun _ => .ite (.modify fun t => hex t _) (.pure ())
  refine .bind hbody.doOnce fun r => .bind (.bind (.gets _) fun e => .ite ?_ (.pure ()))
    fun _ => .pure r
  split
  · rename_i c hc
    exact hrun c (List.mem_of_find?_eq_some hc)
  · exact .pure ()

end Within

end NetworkFs.Grammar
