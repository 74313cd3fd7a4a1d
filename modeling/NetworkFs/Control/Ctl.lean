import Mathlib

/-!
# Structured control flow of C statements

A C statement either falls through, leaves by `break`, leaves by `return`, or
gets stuck: it dereferences an absent pointer or waits for itself. `Ctl σ ρ α` is a statement over the state `σ`
in a function that returns `ρ`; `α` is the value it computes when it falls
through. The state is kept on every way out.

* `doOnce`, `forEach`, `call`: the three constructs that stop a `break` or a
  `return`.
* `Within R A m`: every run of `m` moves the state along the preorder `R`, on
  every way out, and leaves only by the exits in `A`. Taking `R s s' := P s → P s'` gives invariants, and
  `R s s' := f s' = f s` gives frames; the rules are proved once for both.
* `Ensures P m Q`: partial correctness of falling through.
* `Attempt σ`: something outside that passes or fails, and how a sequence of
  them stops at the first that fails.
-/

namespace NetworkFs.Control

/-- How a statement leaves when it does not fall through. -/
inductive Exit (ρ : Type) where
  /-- `break`, on its way to the innermost loop or `switch`. -/
  | brk
  /-- `return v`. -/
  | ret (v : ρ)
  /-- The thread gets no further: an absent pointer was dereferenced, or a lock is
      waited for that the thread itself holds. -/
  | fault
  deriving DecidableEq

/-- A statement over the state `σ`, inside a function with result type `ρ`. -/
def Ctl (σ ρ α : Type) : Type := σ → Except (Exit ρ) α × σ

namespace Ctl

variable {σ ρ ρ' α β : Type}

protected def pure (a : α) : Ctl σ ρ α := fun s => (.ok a, s)

protected def bind (m : Ctl σ ρ α) (f : α → Ctl σ ρ β) : Ctl σ ρ β := fun s =>
  match m s with
  | (.ok a, s') => f a s'
  | (.error e, s') => (.error e, s')

instance : Monad (Ctl σ ρ) where
  pure := Ctl.pure
  bind := Ctl.bind

@[simp] theorem pure_apply (a : α) (s : σ) : (pure a : Ctl σ ρ α) s = (.ok a, s) := rfl

theorem bind_apply (m : Ctl σ ρ α) (f : α → Ctl σ ρ β) (s : σ) :
    (m >>= f) s = match m s with
      | (.ok a, s') => f a s'
      | (.error e, s') => (.error e, s') := rfl

theorem map_apply (f : α → β) (m : Ctl σ ρ α) (s : σ) :
    (f <$> m) s = match m s with
      | (.ok a, s') => (.ok (f a), s')
      | (.error e, s') => (.error e, s') := rfl

/-- A statement that falls through hands its value and state to the next. -/
theorem bind_ok {m : Ctl σ ρ α} {f : α → Ctl σ ρ β} {s s' : σ} {a : α} (h : m s = (.ok a, s')) :
    (m >>= f) s = f a s' := by
  rw [bind_apply, h]

/-- A statement that leaves skips what follows it. -/
theorem bind_error {m : Ctl σ ρ α} {f : α → Ctl σ ρ β} {s s' : σ} {e : Exit ρ}
    (h : m s = (.error e, s')) : (m >>= f) s = (.error e, s') := by
  rw [bind_apply, h]

theorem map_ok {f : α → β} {m : Ctl σ ρ α} {s s' : σ} {a : α} (h : m s = (.ok a, s')) :
    (f <$> m) s = (.ok (f a), s') := by
  rw [map_apply, h]

/-- What falls through as a whole falls through at each statement. -/
theorem bind_eq_ok {m : Ctl σ ρ α} {f : α → Ctl σ ρ β} {s s' : σ} {b : β}
    (h : (m >>= f) s = (.ok b, s')) : ∃ a s₁, m s = (.ok a, s₁) ∧ f a s₁ = (.ok b, s') := by
  rw [bind_apply] at h
  rcases hm : m s with ⟨e | a, s₁⟩ <;> rw [hm] at h
  · exact nomatch (Prod.mk.inj h).1
  · exact ⟨a, s₁, rfl, h⟩

theorem bind_congr {m m' : Ctl σ ρ α} {s s' : σ} (h : m s = m' s') (f : α → Ctl σ ρ β) :
    (m >>= f) s = (m' >>= f) s' := by
  rw [bind_apply, bind_apply, h]

instance : LawfulMonad (Ctl σ ρ) :=
  LawfulMonad.mk' (Ctl σ ρ)
    (fun m => by
      funext s
      show (match m s with
        | (.ok a, s') => (.ok a, s')
        | (.error e, s') => (.error e, s')) = m s
      rcases m s with ⟨_ | _, _⟩ <;> rfl)
    (fun _ _ => rfl)
    (fun m f g => by
      funext s
      simp only [bind_apply]
      rcases m s with ⟨_ | _, _⟩ <;> rfl)

/-! ## Statements -/

/-- Leave by `e`. -/
def leave (e : Exit ρ) : Ctl σ ρ α := fun s => (.error e, s)

/-- Read a part of the state. -/
def gets (f : σ → α) : Ctl σ ρ α := fun s => (.ok (f s), s)

/-- Change the state. -/
def modify (f : σ → σ) : Ctl σ ρ Unit := fun s => (.ok (), f s)

/-- Ask a function that reads and changes the state. -/
def ask (f : σ → α × σ) : Ctl σ ρ α := fun s => (.ok (f s).1, (f s).2)

/-- `*p`: the value `p` points at; an absent `p` is a fault. -/
def deref (p : Option α) : Ctl σ ρ α :=
  match p with
  | some a => pure a
  | none => leave .fault

@[simp] theorem leave_apply (e : Exit ρ) (s : σ) : (leave e : Ctl σ ρ α) s = (.error e, s) := rfl

@[simp] theorem gets_apply (f : σ → α) (s : σ) : (gets f : Ctl σ ρ α) s = (.ok (f s), s) := rfl

@[simp] theorem modify_apply (f : σ → σ) (s : σ) :
    (modify f : Ctl σ ρ Unit) s = (.ok (), f s) := rfl

@[simp] theorem ask_apply (f : σ → α × σ) (s : σ) :
    (ask f : Ctl σ ρ α) s = (.ok (f s).1, (f s).2) := rfl

@[simp] theorem deref_some (a : α) : (deref (some a) : Ctl σ ρ α) = pure a := rfl

@[simp] theorem deref_none : (deref none : Ctl σ ρ α) = leave .fault := rfl

/-- `switch (1) case 1: m`: a `break` inside `m` ends it; `none` records that
    `m` did not reach its end. -/
def doOnce (m : Ctl σ ρ α) : Ctl σ ρ (Option α) := fun s =>
  match m s with
  | (.ok a, s') => (.ok (some a), s')
  | (.error .brk, s') => (.ok none, s')
  | (.error (.ret v), s') => (.error (.ret v), s')
  | (.error .fault, s') => (.error .fault, s')

/-- `for (x in xs) body`: a `break` inside `body` ends the loop; `continue` is
    the fall-through of `body`. -/
def forEach : List β → (β → Ctl σ ρ Unit) → Ctl σ ρ Unit
  | [], _ => pure ()
  | x :: xs, body => fun s =>
    match body x s with
    | (.ok _, s') => forEach xs body s'
    | (.error .brk, s') => (.ok (), s')
    | (.error e, s') => (.error e, s')

/-- A function call: `return v` inside the body ends it with `v`. A `break`
    cannot reach the end of a function body. -/
def call (m : Ctl σ ρ ρ) : Ctl σ ρ' ρ := fun s =>
  match m s with
  | (.ok v, s') => (.ok v, s')
  | (.error (.ret v), s') => (.ok v, s')
  | (.error .brk, s') => (.error .fault, s')
  | (.error .fault, s') => (.error .fault, s')

theorem doOnce_ok {m : Ctl σ ρ α} {s s' : σ} {a : α} (h : m s = (.ok a, s')) :
    doOnce m s = (.ok (some a), s') := by
  simp only [doOnce, h]

theorem doOnce_brk {m : Ctl σ ρ α} {s s' : σ} (h : m s = (.error .brk, s')) :
    doOnce m s = (.ok none, s') := by
  simp only [doOnce, h]

theorem doOnce_ret {m : Ctl σ ρ α} {s s' : σ} {v : ρ} (h : m s = (.error (.ret v), s')) :
    doOnce m s = (.error (.ret v), s') := by
  simp only [doOnce, h]

theorem doOnce_fault {m : Ctl σ ρ α} {s s' : σ} (h : m s = (.error .fault, s')) :
    doOnce m s = (.error .fault, s') := by
  simp only [doOnce, h]

theorem call_ok {m : Ctl σ ρ ρ} {s s' : σ} {v : ρ} (h : m s = (.ok v, s')) :
    (call m : Ctl σ ρ' ρ) s = (.ok v, s') := by
  simp only [call, h]

theorem call_ret {m : Ctl σ ρ ρ} {s s' : σ} {v : ρ} (h : m s = (.error (.ret v), s')) :
    (call m : Ctl σ ρ' ρ) s = (.ok v, s') := by
  simp only [call, h]

theorem call_fault {m : Ctl σ ρ ρ} {s s' : σ} (h : m s = (.error .fault, s')) :
    (call m : Ctl σ ρ' ρ) s = (.error .fault, s') := by
  simp only [call, h]

theorem call_brk {m : Ctl σ ρ ρ} {s s' : σ} (h : m s = (.error .brk, s')) :
    (call m : Ctl σ ρ' ρ) s = (.error .fault, s') := by
  simp only [call, h]

/-- Of a call only a fault gets out. -/
theorem call_error {m : Ctl σ ρ ρ} {s s' : σ} {e : Exit ρ'}
    (h : (call m : Ctl σ ρ' ρ) s = (.error e, s')) : e = .fault := by
  rcases hms : m s with ⟨(_ | _ | _) | _, s₁⟩ <;> simp only [call, hms] at h <;> simp_all

@[simp] theorem forEach_nil (body : β → Ctl σ ρ Unit) : forEach [] body = pure () := rfl

theorem forEach_cons_ok {body : β → Ctl σ ρ Unit} {x : β} {xs : List β} {s s' : σ} {u : Unit}
    (h : body x s = (.ok u, s')) : forEach (x :: xs) body s = forEach xs body s' := by
  simp only [forEach, h]

theorem forEach_cons_brk {body : β → Ctl σ ρ Unit} {x : β} {xs : List β} {s s' : σ}
    (h : body x s = (.error .brk, s')) : forEach (x :: xs) body s = (.ok (), s') := by
  simp only [forEach, h]

theorem forEach_cons_ret {body : β → Ctl σ ρ Unit} {x : β} {xs : List β} {s s' : σ} {v : ρ}
    (h : body x s = (.error (.ret v), s')) :
    forEach (x :: xs) body s = (.error (.ret v), s') := by
  simp only [forEach, h]

theorem forEach_cons_fault {body : β → Ctl σ ρ Unit} {x : β} {xs : List β} {s s' : σ}
    (h : body x s = (.error .fault, s')) : forEach (x :: xs) body s = (.error .fault, s') := by
  simp only [forEach, h]

/-! ## Moving within a preorder -/

/-- Every run of `m` moves the state along `R`, whichever way it leaves, and it
    leaves only by the exits in `A`. -/
def Within (R : σ → σ → Prop) (A : Exit ρ → Prop) (m : Ctl σ ρ α) : Prop :=
  ∀ s, R s (m s).2 ∧ ∀ e, (m s).1 = .error e → A e

/-- The exits of a block inside a construct that stops `break`. -/
def orBreak (A : Exit ρ → Prop) : Exit ρ → Prop := fun e => e = .brk ∨ A e

/-- The exits of a function body whose call may leave by `A`: `return`, and the
    faults that `A` allows. -/
def inCall (A : Exit ρ → Prop) : Exit ρ' → Prop
  | .ret _ => True
  | .fault => A .fault
  | .brk => False

/-- `A` has `break`. -/
class MayBreak (A : Exit ρ → Prop) : Prop where
  brk : A .brk

/-- `A` has the fault. -/
class MayFault (A : Exit ρ → Prop) : Prop where
  fault : A .fault

/-- `A` has `return`. -/
class MayReturn (A : Exit ρ → Prop) : Prop where
  ret : ∀ v, A (.ret v)

section Exits

variable {A : Exit ρ → Prop}

instance : MayBreak (fun e : Exit ρ => e = .brk) := ⟨rfl⟩

instance : MayFault (fun e : Exit ρ => e = .fault) := ⟨rfl⟩

instance : MayBreak (orBreak A) := ⟨.inl rfl⟩

instance [MayFault A] : MayFault (orBreak A) := ⟨.inr MayFault.fault⟩

instance [MayReturn A] : MayReturn (orBreak A) := ⟨fun v => .inr (MayReturn.ret v)⟩

instance : MayReturn (inCall A : Exit ρ' → Prop) := ⟨fun _ => trivial⟩

instance [MayFault A] : MayFault (inCall A : Exit ρ' → Prop) := ⟨MayFault.fault (A := A)⟩

end Exits

section Within

variable {R : σ → σ → Prop} {A : Exit ρ → Prop}

theorem Within.pure [Std.Refl R] (a : α) : Within R A (Pure.pure a : Ctl σ ρ α) :=
  fun s => ⟨Std.Refl.refl s, fun _ h => nomatch h⟩

theorem Within.gets [Std.Refl R] (f : σ → α) : Within R A (Ctl.gets f : Ctl σ ρ α) :=
  fun s => ⟨Std.Refl.refl s, fun _ h => nomatch h⟩

theorem Within.leave [Std.Refl R] {e : Exit ρ} (he : A e) :
    Within R A (Ctl.leave e : Ctl σ ρ α) := by
  refine fun s => ⟨Std.Refl.refl s, fun e' h => ?_⟩
  rw [← Except.error.inj h]
  exact he

theorem Within.brk [Std.Refl R] [MayBreak A] : Within R A (Ctl.leave .brk : Ctl σ ρ α) :=
  .leave MayBreak.brk

theorem Within.deref [Std.Refl R] [MayFault A] (p : Option α) :
    Within R A (Ctl.deref p : Ctl σ ρ α) := by
  cases p with
  | none => exact .leave MayFault.fault
  | some a => exact .pure a

theorem Within.modify {f : σ → σ} (h : ∀ s, R s (f s)) :
    Within R A (Ctl.modify f : Ctl σ ρ Unit) :=
  fun s => ⟨h s, fun _ h => nomatch h⟩

theorem Within.ask {f : σ → α × σ} (h : ∀ s, R s (f s).2) :
    Within R A (Ctl.ask f : Ctl σ ρ α) :=
  fun s => ⟨h s, fun _ h => nomatch h⟩

theorem Within.bind [IsTrans σ R] {m : Ctl σ ρ α} {f : α → Ctl σ ρ β} (hm : Within R A m)
    (hf : ∀ a, Within R A (f a)) : Within R A (m >>= f) := by
  intro s
  obtain ⟨hR, hA⟩ := hm s
  rw [bind_apply]
  rcases hms : m s with ⟨e | a, s'⟩
  · rw [hms] at hR hA
    refine ⟨hR, fun e' h => ?_⟩
    rw [← Except.error.inj h]
    exact hA e rfl
  · rw [hms] at hR
    exact ⟨IsTrans.trans _ _ _ hR (hf a s').1, (hf a s').2⟩

/-- What follows `m` moves on from where `m` left off. -/
theorem Within.bind_after [Std.Refl R] {f : α → Ctl σ ρ β} (m : Ctl σ ρ α)
    (hf : ∀ a, Within R A (f a)) (s : σ) : R (m s).2 ((m >>= f) s).2 := by
  rw [bind_apply]
  rcases m s with ⟨e | a, s'⟩
  · exact Std.Refl.refl s'
  · exact (hf a s').1

theorem Within.ite {c : Prop} [Decidable c] {m m' : Ctl σ ρ α} (h : Within R A m)
    (h' : Within R A m') : Within R A (if c then m else m') := by
  split_ifs
  · exact h
  · exact h'

theorem Within.doOnce {m : Ctl σ ρ α} (hm : Within R (orBreak A) m) :
    Within R A (Ctl.doOnce m) := by
  intro s
  obtain ⟨hR, hA⟩ := hm s
  rcases hms : m s with ⟨(_ | v | _) | a, s'⟩ <;> rw [hms] at hR hA
  · rw [doOnce_brk hms]
    exact ⟨hR, fun _ h => nomatch h⟩
  · rw [doOnce_ret hms]
    refine ⟨hR, fun e h => ?_⟩
    rw [← Except.error.inj h]
    exact (hA _ rfl).resolve_left nofun
  · rw [doOnce_fault hms]
    refine ⟨hR, fun e h => ?_⟩
    rw [← Except.error.inj h]
    exact (hA _ rfl).resolve_left nofun
  · rw [doOnce_ok hms]
    exact ⟨hR, fun _ h => nomatch h⟩

theorem Within.call {m : Ctl σ ρ' ρ'} (hm : Within R (inCall A) m) :
    Within R A (Ctl.call m : Ctl σ ρ ρ') := by
  intro s
  obtain ⟨hR, hA⟩ := hm s
  rcases hms : m s with ⟨(_ | v | _) | a, s'⟩ <;> rw [hms] at hR hA
  · exact (hA .brk rfl).elim
  · rw [call_ret hms]
    exact ⟨hR, fun _ h => nomatch h⟩
  · rw [call_fault hms]
    refine ⟨hR, fun e h => ?_⟩
    rw [← Except.error.inj h]
    exact hA .fault rfl
  · rw [call_ok hms]
    exact ⟨hR, fun _ h => nomatch h⟩

/-- The run lemma of a loop: a preorder kept by every round is kept by the loop. -/
theorem Within.forEach [Std.Refl R] [IsTrans σ R] {body : β → Ctl σ ρ Unit}
    (hbody : ∀ x, Within R (orBreak A) (body x)) : ∀ xs, Within R A (Ctl.forEach xs body) := by
  intro xs
  induction xs with
  | nil => exact .pure ()
  | cons x xs ih =>
    intro s
    obtain ⟨hR, hA⟩ := hbody x s
    rcases hx : body x s with ⟨(_ | v | _) | a, s'⟩ <;> rw [hx] at hR hA
    · rw [forEach_cons_brk hx]
      exact ⟨hR, fun _ h => nomatch h⟩
    · rw [forEach_cons_ret hx]
      exact ⟨hR, fun e h => (hA e h).resolve_left fun he => nomatch he ▸ h⟩
    · rw [forEach_cons_fault hx]
      exact ⟨hR, fun e h => (hA e h).resolve_left fun he => nomatch he ▸ h⟩
    · rw [forEach_cons_ok hx]
      exact ⟨IsTrans.trans _ _ _ hR (ih s').1, (ih s').2⟩

/-- A statement that can only break, if it does not fall through. -/
theorem Within.ok_or_brk {m : Ctl σ ρ α} (h : Within R (· = .brk) m) (s : σ) :
    (∃ a s', m s = (.ok a, s')) ∨ ∃ s', m s = (.error .brk, s') := by
  rcases hms : m s with ⟨e | a, s'⟩
  · have he : e = .brk := (h s).2 e (by rw [hms])
    exact .inr ⟨s', by rw [he]⟩
  · exact .inl ⟨a, s', rfl⟩

/-- A statement that cannot leave falls through. -/
theorem Within.ok {m : Ctl σ ρ α} (h : Within R (fun _ => False) m) (s : σ) :
    ∃ a s', m s = (.ok a, s') := by
  rcases hms : m s with ⟨e | a, s'⟩
  · exact ((h s).2 e (by rw [hms])).elim
  · exact ⟨a, s', rfl⟩

end Within

/-! ## What holds after falling through -/

/-- Run from a state in `P`, `m` satisfies `Q` if it falls through. -/
def Ensures (P : σ → Prop) (m : Ctl σ ρ α) (Q : α → σ → Prop) : Prop :=
  ∀ s a s', P s → m s = (.ok a, s') → Q a s'

section Ensures

variable {P : σ → Prop} {Q : α → σ → Prop} {Q' : β → σ → Prop}

theorem Ensures.pure {a : α} (h : ∀ s, P s → Q a s) : Ensures P (Pure.pure a : Ctl σ ρ α) Q := by
  intro s b s' hP hs
  obtain ⟨ha, hs'⟩ := Prod.mk.inj hs
  rw [← Except.ok.inj ha, ← hs']
  exact h s hP

theorem Ensures.gets {f : σ → α} (h : ∀ s, P s → Q (f s) s) :
    Ensures P (Ctl.gets f : Ctl σ ρ α) Q := by
  intro s b s' hP hs
  obtain ⟨ha, hs'⟩ := Prod.mk.inj hs
  rw [← Except.ok.inj ha, ← hs']
  exact h s hP

theorem Ensures.modify {f : σ → σ} {Q : Unit → σ → Prop} (h : ∀ s, P s → Q () (f s)) :
    Ensures P (Ctl.modify f : Ctl σ ρ Unit) Q := by
  intro s b s' hP hs
  obtain ⟨-, hs'⟩ := Prod.mk.inj hs
  rw [← hs']
  exact h s hP

theorem Ensures.bind {m : Ctl σ ρ α} {f : α → Ctl σ ρ β} (hm : Ensures P m Q)
    (hf : ∀ a, Ensures (Q a) (f a) Q') : Ensures P (m >>= f) Q' := by
  intro s b s' hP hs
  rw [bind_apply] at hs
  rcases hms : m s with ⟨e | a, s₁⟩ <;> rw [hms] at hs
  · exact nomatch hs
  · exact hf a s₁ b s' (hm s a s₁ hP hms) hs

theorem Ensures.ite {c : Prop} [Decidable c] {m m' : Ctl σ ρ α} (h : c → Ensures P m Q)
    (h' : ¬c → Ensures P m' Q) : Ensures P (if c then m else m') Q := by
  split_ifs with hc
  · exact h hc
  · exact h' hc

theorem Ensures.mono {P' : σ → Prop} {R : α → σ → Prop} {m : Ctl σ ρ α} (h : Ensures P m Q)
    (hP : ∀ s, P' s → P s) (hQ : ∀ a s, Q a s → R a s) : Ensures P' m R :=
  fun s a s' hs hm => hQ a s' (h s a s' (hP s hs) hm)

/-- What a statement that moves within a preorder ensures. -/
theorem Within.ensures {R : σ → σ → Prop} {A : Exit ρ → Prop} {m : Ctl σ ρ α}
    (hm : Within R A m) {Q : σ → Prop} (h : ∀ s s', P s → R s s' → Q s') :
    Ensures P m fun _ => Q := by
  intro s a s' hP hs
  have hR := (hm s).1
  rw [hs] at hR
  exact h s s' hP hR

end Ensures

end Ctl

/-! ## Attempts -/

/-- Something that passes or fails, and changes the outside either way. -/
abbrev Attempt (σ : Type) := σ → Bool × σ

namespace Attempt

variable {σ : Type}

/-- Nothing to fail. -/
def pass : Attempt σ := fun s => (true, s)

/-- `p`, and `q` if `p` passed. -/
def andThen (p q : Attempt σ) : Attempt σ := fun s => if (p s).1 then q (p s).2 else p s

/-- All of a list, up to the first that fails. -/
def all (ps : List (Attempt σ)) : Attempt σ := ps.foldr andThen pass

@[simp] theorem pass_apply (s : σ) : (pass : Attempt σ) s = (true, s) := rfl

@[simp] theorem pass_andThen (p : Attempt σ) : pass.andThen p = p := rfl

@[simp] theorem andThen_pass (p : Attempt σ) : p.andThen pass = p := by
  funext s
  cases h : (p s).1 with
  | false => simp [andThen, h]
  | true =>
    rw [andThen, if_pos h]
    exact Prod.ext h.symm rfl

theorem andThen_of_pass {p q : Attempt σ} {s : σ} (h : (p s).1 = true) :
    p.andThen q s = q (p s).2 := by
  simp [andThen, h]

theorem andThen_of_fail {p q : Attempt σ} {s : σ} (h : (p s).1 = false) :
    p.andThen q s = p s := by
  simp [andThen, h]

theorem andThen_assoc (p q r : Attempt σ) : (p.andThen q).andThen r = p.andThen (q.andThen r) := by
  funext s
  cases hp : (p s).1 with
  | true =>
    rw [andThen_of_pass hp]
    show (if (p.andThen q s).1 then _ else _) = _
    rw [andThen_of_pass hp]
    rfl
  | false =>
    have hpq : (p.andThen q s).1 = false := by rw [andThen_of_fail hp, hp]
    rw [andThen_of_fail hpq, andThen_of_fail hp, andThen_of_fail hp]

/-- A sequence passes when each half does. -/
theorem andThen_fst {p q : Attempt σ} {s : σ} :
    (p.andThen q s).1 = true ↔ (p s).1 = true ∧ (q (p s).2).1 = true := by
  cases h : (p s).1 <;> simp [andThen, h]

end Attempt

end NetworkFs.Control
