import NetworkFs.Dav.Frame
import NetworkFs.Dav.Steps

/-!
# Exceptions and callbacks

`ex` is thread-local and outlives a callback that does not clear it. A method
leaves it set exactly when it returns non-zero (`Settled`), and each callback but
one destroys it on that account.

* `probe_exists`, `probe_absent`, `probe_failed`: the existence test of `dav_mknod`
  and `dav_symlink`.
* `callback_clears_iff`: which callbacks leave no exception.
* `Served`: any run of callbacks on one thread.
-/

namespace NetworkFs.Dav

open Control Grammar Wrapper Text

variable {σ ρ α : Type} (env : Env σ) (srv : DavServer)

/-- `ex.set` is `false`. -/
def Clear (t : Thread (Mem σ)) : Prop := t.ex.set = .unset

/-- `ex.set` is not `EXCEPTION_CATCHED`. -/
def NotCaught (t : Thread (Mem σ)) : Prop := t.ex.set ≠ .catched

/-- After a method that returned `r`. -/
def Settled (r : ℤ) (t : Thread (Mem σ)) : Prop := NotCaught t ∧ (r = 0 → Clear t)

theorem Clear.notCaught {t : Thread (Mem σ)} (h : Clear t) : NotCaught t := by
  rw [NotCaught, show t.ex.set = .unset from h]
  simp

theorem Clear.has {t : Thread (Mem σ)} (h : Clear t) : t.ex.has = false := by
  rw [Exception.has, show t.ex.set = .unset from h]
  rfl

theorem NotCaught.clear {t : Thread (Mem σ)} (h : NotCaught t) (hex : t.ex.has = false) :
    Clear t := by
  unfold NotCaught at h
  unfold Clear
  rw [Exception.has] at hex
  cases hs : t.ex.set with
  | unset => rfl
  | raised => rw [hs] at hex; exact absurd hex (by decide)
  | catched => exact absurd hs h

/-- Nothing outside a `catch` marks an exception as caught. -/
def StaysNotCaught (t t' : Thread (Mem σ)) : Prop := NotCaught t → NotCaught t'

instance : HeldFrame (StaysNotCaught (σ := σ)) where
  refl _ h := h
  trans _ _ _ h h' h'' := h' (h h'')
  mem _ _ _ _ h := h
  raise _ _ _ := by simp [NotCaught]
  clear _ _ := by simp [NotCaught]
  held _ _ _ h := h

instance : OutsideFree (StaysNotCaught (σ := σ)) := ⟨fun _ _ h => h⟩

/-! ## Methods -/

/-- Any exits. -/
def anyExit : Exit ρ → Prop := fun _ => True

instance : Ctl.MayBreak (anyExit (ρ := ρ)) := ⟨trivial⟩

instance : Ctl.MayFault (anyExit (ρ := ρ)) := ⟨trivial⟩

/-- A method that ends with `return TEST_SUCCESS` and does not catch. -/
theorem settled_testSuccess {m : Dav σ ρ α}
    (hm : Ctl.Within StaysNotCaught anyExit (m >>= fun _ => testSuccess)) :
    Ctl.Ensures NotCaught (m >>= fun _ => testSuccess) Settled := by
  intro t r t' ht hmt
  have hn : NotCaught t' := (hm.ensures (P := NotCaught) (fun _ _ h h' => h' h)) t r t' ht hmt
  refine ⟨hn, fun hr => hn.clear ?_⟩
  rw [Ctl.bind_apply] at hmt
  rcases hm₁ : m t with ⟨e | a, t₁⟩ <;> rw [hm₁] at hmt
  · exact nomatch hmt
  · obtain ⟨hr', ht'⟩ := Prod.mk.inj hmt
    have hval : (if t₁.ex.has then (1 : ℤ) else 0) = r := Except.ok.inj hr'
    rw [← ht']
    by_contra hex
    rw [Bool.not_eq_false] at hex
    rw [hex, hr] at hval
    exact absurd hval (by decide)

theorem settled_davMethod (path : Path) (method : Method) (lockType : LockType) :
    Ctl.Ensures NotCaught (davMethod env srv path method lockType : Dav σ ρ ℤ) Settled :=
  settled_testSuccess (within_davMethod env srv path method lockType)

theorem settled_davPut (path : Path) (data : Bytes) (offset : ℤ) :
    Ctl.Ensures NotCaught (davPut env srv path data offset : Dav σ ρ ℤ) Settled :=
  settled_testSuccess (within_davPut env srv path data offset)

theorem settled_davMoveCore (from_ to_ : Path) (nooverwrite : Bool) :
    Ctl.Ensures NotCaught (davMoveCore env srv from_ to_ nooverwrite : Dav σ ρ ℤ) Settled :=
  settled_testSuccess (within_davMoveCore env srv from_ to_ nooverwrite)

theorem settled_davCopy (from_ to_ : Path) :
    Ctl.Ensures NotCaught (davCopy env srv from_ to_ : Dav σ ρ ℤ) Settled :=
  settled_testSuccess (within_davCopy env srv from_ to_)

theorem settled_davProppatch (path : Path) (key : XmlName) (value : Option Text) :
    Ctl.Ensures NotCaught (davProppatch env srv path key value : Dav σ ρ ℤ) Settled :=
  settled_testSuccess (within_davProppatch env srv path key value)

theorem settled_davPropfind (path : Path) (depth : ℤ) {filler : Text → Stat → Dav σ ρ Unit}
    (hfiller : ∀ {A : Exit ρ → Prop} name st, Ctl.Within StaysNotCaught A (filler name st)) :
    Ctl.Ensures NotCaught (davPropfind env srv path depth filler : Dav σ ρ ℤ) Settled :=
  settled_testSuccess (within_davPropfind env srv hfiller path depth)

theorem settled_davHead (path : Path) : Ctl.Ensures NotCaught
    (davHead env srv path : Dav σ ρ (ℤ × ℕ)) fun r => Settled r.1 := by
  have hn : Ctl.Ensures NotCaught (davHead env srv path : Dav σ ρ (ℤ × ℕ)) fun _ => NotCaught :=
    (within_davHead (R := StaysNotCaught) (A := anyExit) env srv path).ensures fun _ _ h h' => h' h
  intro t r t' ht hr
  refine ⟨hn t r t' ht hr, fun h0 => (hn t r t' ht hr).clear ?_⟩
  obtain ⟨size, t₁, hw⟩ := Ctl.Within.ok (within_withCurl (R := StaysNotCaught) env srv.options path
    (.bind (within_setAndPerform (ρ := ρ) env .customrequest ⟨.head, path, [], none, .none⟩)
      fun reply => .pure (reply.headers.foldl davHeadCallback 0))) t
  rw [davHead, Ctl.bind_ok hw] at hr
  obtain ⟨hr', ht'⟩ := Prod.mk.inj hr
  rw [← Except.ok.inj hr'] at h0
  rw [← ht']
  by_contra hex
  rw [Bool.not_eq_false] at hex
  have h0' : (if t₁.ex.has then (1 : ℤ) else 0) = 0 := h0
  rw [hex] at h0'
  exact absurd h0' (by decide)

/-- `dav_get` gives a negative count when it leaves an exception. -/
theorem settled_davGet (path : Path) (data : Bytes) (offset : ℤ) : Ctl.Ensures Clear
    (davGet env srv path data offset : Dav σ ρ (ℤ × Bytes))
    fun r t => NotCaught t ∧ (0 ≤ r.1 → Clear t) := by
  have hn : Ctl.Ensures Clear (davGet env srv path data offset : Dav σ ρ (ℤ × Bytes))
      fun _ => NotCaught :=
    (within_davGet (R := StaysNotCaught) (A := anyExit) env srv path data offset).ensures
      fun _ _ h h' => h' h.notCaught
  intro t r t' ht hr
  refine ⟨hn t r t' ht hr, fun h0 => (hn t r t' ht hr).clear ?_⟩
  obtain ⟨buf, t₁, hw⟩ := Ctl.Within.ok (within_withCurl (R := StaysNotCaught) env srv.options path
    (within_getBody (ρ := ρ) env path data offset)) t
  rw [davGet_eq env srv ht.has hw] at hr
  obtain ⟨hr', ht'⟩ := Prod.mk.inj hr
  rw [← Except.ok.inj hr'] at h0
  rw [← ht']
  cases hex : t₁.ex.has with
  | false => rfl
  | true => rw [hex] at h0; exact absurd h0 (by simp)

/-- Every exception is mapped to an error. -/
theorem exceptionErrno_neg (e : Exception) : exceptionErrno e < 0 := by
  unfold exceptionErrno
  split
  · rename_i status _ _
    unfold statusErrno
    split <;> decide
  · decide
  · decide

theorem ensures_davExceptionMap {P : Thread (Mem σ) → Prop} :
    Ctl.Ensures P (davExceptionMap : Dav σ ρ ℤ) fun _ => Clear := by
  intro t r t' _ hr
  obtain ⟨-, ht'⟩ := Prod.mk.inj hr
  rw [← ht']
  rfl

theorem ensures_davExceptionTest (res : ℤ) :
    Ctl.Ensures (Settled res) (davExceptionTest res : Dav σ ρ ℤ) fun _ => Clear :=
  .ite (fun h => .pure fun _ hs => hs.2 h) fun _ => ensures_davExceptionMap

theorem ensures_davExceptionCheck (res : ℤ) :
    Ctl.Ensures NotCaught (davExceptionCheck res : Dav σ ρ ℤ) fun _ => Clear := by
  refine .bind (Q := fun b t => NotCaught t ∧ t.ex.has = b) (.gets fun _ h => ⟨h, rfl⟩) fun b => ?_
  refine .ite (fun _ => ensures_davExceptionMap) fun hb => .pure fun t ht => ht.1.clear ?_
  rw [ht.2]
  exact eq_false_of_ne_true hb

/-! ## Callbacks -/

/-- A callback that clears what it raised. -/
def Clears (m : Dav σ ρ α) : Prop := Ctl.Ensures Clear m fun _ => Clear

theorem Clears.pure (a : α) : Clears (Pure.pure a : Dav σ ρ α) := Ctl.Ensures.pure fun _ h => h

theorem Clears.gets (f : Thread (Mem σ) → α) : Clears (Ctl.gets f : Dav σ ρ α) :=
  Ctl.Ensures.gets fun _ h => h

theorem Clears.modifyMem (f : Mem σ → Mem σ) : Clears (modifyMem f : Dav σ ρ Unit) :=
  Ctl.Ensures.modify fun _ h => h

theorem Clears.bind {β : Type} {m : Dav σ ρ α} {f : α → Dav σ ρ β} (hm : Clears m)
    (hf : ∀ a, Clears (f a)) : Clears (m >>= f) :=
  Ctl.Ensures.bind hm hf

theorem Clears.ite {c : Prop} [Decidable c] {m m' : Dav σ ρ α} (h : Clears m) (h' : Clears m') :
    Clears (if c then m else m') :=
  Ctl.Ensures.ite (fun _ => h) fun _ => h'

/-- A method, then what deals with its result. -/
theorem Clears.after {β : Type} {m : Dav σ ρ α} {f : α → Dav σ ρ β}
    {Q : α → Thread (Mem σ) → Prop} (hm : Ctl.Ensures NotCaught m Q)
    (hf : ∀ a, Ctl.Ensures (Q a) (f a) fun _ => Clear) : Clears (m >>= f) :=
  Ctl.Ensures.bind (fun t a t' ht => hm t a t' ht.notCaught) hf

/-- A method, then `dav_exception_check`. -/
theorem Clears.checked {m : Dav σ ρ ℤ} (hm : Ctl.Ensures NotCaught m Settled) (res : ℤ) :
    Clears (m >>= fun _ => davExceptionCheck res) :=
  .after hm fun _ t r t' ht => ensures_davExceptionCheck res t r t' ht.1

/-- A branch that maps the exception of a failed method. -/
theorem ensures_mapped {r : ℤ} {m : Dav σ ρ ℤ} (hm : Clears m) :
    Ctl.Ensures (Settled r) (if r ≠ 0 then davExceptionMap else m) fun _ => Clear := by
  refine .ite (fun _ => ensures_davExceptionMap) fun h t a t' ht => ?_
  exact hm t a t' (ht.2 (not_not.mp h))

theorem clears_propfind (path : Path) (depth : ℤ) {filler : Text → Stat → Dav σ ρ Unit}
    (hfiller : ∀ {A : Exit ρ → Prop} name st, Ctl.Within StaysNotCaught A (filler name st)) :
    Clears (davPropfind env srv path depth filler >>= fun _ => davExceptionCheck 0) :=
  .checked (settled_davPropfind env srv path depth hfiller) 0

theorem clears_davReaddir (path : Path) : Clears (davReaddir env srv path : Dav σ ρ ℤ) :=
  .bind (.modifyMem _) fun _ =>
    clears_propfind env srv path 1 fun _ _ => within_modifyMem fun _ => ⟨rfl, rfl⟩

theorem clears_davGetattr (path : Path) (stbuf : Stat) :
    Clears (davGetattr env srv path stbuf : Dav σ ρ (ℤ × Stat)) := by
  have hfind : Clears (davPropfind env srv path 0 davGetattrCallback >>= fun _ =>
      davExceptionCheck 0 : Dav σ ρ ℤ) :=
    clears_propfind env srv path 0 fun _ _ => within_modifyMem fun _ => ⟨rfl, rfl⟩
  have h := hfind.bind fun res => .bind (.gets (·.mem.stbuf)) fun st => .pure (res, st)
  rw [bind_assoc] at h
  exact .bind (.modifyMem _) fun _ => h

theorem clears_davRead (path : Path) (buf : Bytes) (offset : ℤ) :
    Clears (davRead env srv path buf offset : Dav σ ρ (ℤ × Bytes)) := by
  have hfailed : ∀ (r : ℤ × Bytes), Ctl.Ensures (fun _ => True)
      (readFailed r.2 : Dav σ ρ (ℤ × Bytes)) fun _ => Clear := by
    refine fun r => .bind (Q := fun _ _ => True) (.gets fun _ _ => trivial) fun _ => ?_
    refine .ite (fun _ => .bind (Q := fun _ => Clear) (.modify fun _ _ => rfl) fun _ => ?_)
      fun _ => .bind ensures_davExceptionMap fun _ => ?_
    · exact .pure fun _ h => h
    · exact .pure fun _ h => h
  refine .ite (.pure _) (Ctl.Ensures.bind (settled_davGet env srv path buf offset) fun r => ?_)
  refine .ite (fun _ t a t' _ => hfailed r t a t' trivial) fun h => ?_
  exact .pure fun _ ht => ht.2 (not_lt.mp h)

/-- `dav_write` before it maps the exception. -/
theorem settled_writeSteps (path : Path) (buf : Bytes) (offset : ℤ) :
    Ctl.Ensures NotCaught (writeSteps env srv path buf offset : Dav σ ρ ℤ) Settled := by
  have hput : Ctl.Ensures Clear (davPut env srv path buf offset : Dav σ ρ ℤ) Settled :=
    fun t a t' ht => settled_davPut env srv path buf offset t a t' ht.notCaught
  have hpadding : ∀ realSize, Ctl.Ensures Clear (writePadding env srv path offset realSize :
      Dav σ ρ ℤ) Settled := by
    intro realSize
    refine .ite (fun _ t a t' ht => ?_) fun _ => .pure fun _ h => ⟨h.notCaught, fun _ => h⟩
    exact settled_davPut env srv path _ _ t a t' ht.notCaught
  have hpadded : Ctl.Ensures NotCaught (writePadded env srv path buf offset : Dav σ ρ ℤ) Settled := by
    refine .bind (Q := fun _ => NotCaught) (.modify fun _ _ => Clear.notCaught rfl) fun _ => ?_
    refine .bind (settled_davHead env srv path) fun head => ?_
    refine .ite (fun _ => .pure fun _ h => h) fun h0 => ?_
    refine .bind (fun t a t' ht => hpadding head.2 t a t' (ht.2 (not_not.mp h0))) fun res => ?_
    exact .ite (fun _ => .pure fun _ h => h)
      fun h1 t a t' ht => hput t a t' (ht.2 (not_not.mp h1))
  refine .bind (settled_davPut env srv path buf offset) fun res => ?_
  refine .ite (fun _ => .pure fun _ h => h) fun _ => ?_
  refine .bind (Q := fun _ => Settled res) (.gets fun _ h => h) fun b => ?_
  exact .ite (fun _ t a t' ht => hpadded t a t' ht.1) fun _ => .pure fun _ h => h

theorem clears_davWrite (path : Path) (buf : Bytes) (offset : ℤ) :
    Clears (davWrite env srv path buf offset : Dav σ ρ ℤ) :=
  .after (settled_writeSteps env srv path buf offset) fun _ => ensures_mapped (.pure _)

theorem clears_davMkdir (path : Path) : Clears (davMkdir env srv path : Dav σ ρ ℤ) :=
  .ite (.checked (settled_davMethod env srv path .mkcol .none) 0) (.pure _)

theorem clears_davRename (from_ to_ : Path) (flags : ℕ) :
    Clears (davRename env srv from_ to_ flags : Dav σ ρ ℤ) := by
  refine .ite ?_ (.pure _)
  split
  · exact .checked (settled_davMoveCore env srv from_ to_ false) 0
  · exact .checked (settled_davMoveCore env srv from_ to_ true) 0
  · exact .pure _

theorem clears_davUnlink (path : Path) : Clears (davUnlink env srv path : Dav σ ρ ℤ) :=
  .checked (settled_davMethod env srv path .delete .write) 0

theorem clears_davChmod (path : Path) (mode : ℕ) : Clears (davChmod env srv path mode : Dav σ ρ ℤ) :=
  .checked (settled_davProppatch env srv path _ _) 0

theorem clears_davChown (path : Path) (uid gid : ℕ) :
    Clears (davChown env srv path uid gid : Dav σ ρ ℤ) :=
  .checked (settled_davProppatch env srv path _ _) 0

theorem clears_davReadlink (path : Path) (buf : Bytes) :
    Clears (davReadlink env srv path buf : Dav σ ρ (ℤ × Bytes)) :=
  .bind (clears_davRead env srv path _ 0) fun _ => .ite (.pure _) (.pure _)

/-! ## The existence test -/

theorem isCurl_of_isHttp {e : Exception} (h : (e.isHttp 404 || e.isHttp 403) = true) :
    e.isCurl = true := by
  unfold Exception.isHttp at h
  unfold Exception.isCurl
  split at h <;> simp_all

section Probe

variable {path : Path} {t t₁ : Thread (Mem σ)} {head : ℤ × ℕ}
  (hhead : (davHead env srv path : Dav σ ℤ (ℤ × ℕ)) t = (.ok head, t₁))

include hhead

theorem probe_exists (h : t₁.ex.has = false) :
    probe env srv path t = (.error (.ret (-eexist)), t₁) := by
  refine tryCatch_ret ?_
  rw [probeBody, Ctl.bind_ok (throwable_clean hhead h)]
  rfl

theorem probe_handled (h : t₁.ex.has = true) {t₂ : Thread (Mem σ)}
    (hh : handle (ρ := ℤ) [catchType (·.isCurl) probeCatch, onerror (pure ())] t₁ = (.ok (), t₂)) :
    probe env srv path t = (.ok none, t₂) := by
  refine tryCatch_brk ?_ hh
  rw [probeBody, Ctl.bind_error (throwable_pending hhead h)]

theorem probe_absent (h : t₁.ex.has = true)
    (he : (t₁.ex.isHttp 404 || t₁.ex.isHttp 403) = true) :
    probe env srv path t = (.ok none, ⟨.clear, t₁.mem⟩) := by
  have he' : (Exception.isHttp ⟨.catched, t₁.ex.vtable⟩ 404 ||
      Exception.isHttp ⟨.catched, t₁.ex.vtable⟩ 403) = true := he
  have hcatch : (probeCatch : Dav σ ℤ Unit) ⟨⟨.catched, t₁.ex.vtable⟩, t₁.mem⟩ =
      (.ok (), ⟨⟨.catched, t₁.ex.vtable⟩, t₁.mem⟩) := by
    rw [probeCatch, Ctl.bind_ok (Ctl.gets_apply _ _), if_pos he']
    rfl
  refine probe_handled env srv hhead h ?_
  rw [handle_catch h (isCurl_of_isHttp he) hcatch (by simp)]

theorem probe_failed (h : t₁.ex.has = true)
    (he : (t₁.ex.isHttp 404 || t₁.ex.isHttp 403) = false) :
    probe env srv path t = (.ok none, t₁) := by
  refine probe_handled env srv hhead h ?_
  cases hc : t₁.ex.isCurl with
  | false =>
    rw [handle_skip hc]
    exact handle_onerror_ok h rfl
  | true =>
    have hs : t₁.ex.set = .raised := by simpa [Exception.has] using h
    have he' : (Exception.isHttp ⟨.catched, t₁.ex.vtable⟩ 404 ||
        Exception.isHttp ⟨.catched, t₁.ex.vtable⟩ 403) = false := he
    refine handle_rethrow h hc ?_ hs
    have ht : t₁ = ⟨⟨.raised, t₁.ex.vtable⟩, t₁.mem⟩ := by rw [← hs]
    rw [probeCatch, Ctl.bind_ok (Ctl.gets_apply _ _), if_neg (by simp [he'])]
    exact congrArg (Prod.mk _) ht.symm

end Probe

/-- `dav_head` always returns. -/
theorem davHead_returns (path : Path) (t : Thread (Mem σ)) :
    ∃ head t₁, (davHead env srv path : Dav σ ρ (ℤ × ℕ)) t = (.ok head, t₁) :=
  (within_davHead (R := StaysNotCaught) env srv path).ok t

/-- What the existence test leaves: it returns with no exception, or falls through. -/
theorem probe_cases (path : Path) {t : Thread (Mem σ)} (ht : NotCaught t) :
    (∃ v t', probe env srv path t = (.error (.ret v), t') ∧ Clear t') ∨
      ∃ t', probe env srv path t = (.ok none, t') ∧ NotCaught t' := by
  obtain ⟨head, t₁, hhead⟩ := davHead_returns (ρ := ℤ) env srv path t
  have h₁ : NotCaught t₁ := (settled_davHead env srv path t head t₁ ht hhead).1
  cases hex : t₁.ex.has with
  | false => exact .inl ⟨_, t₁, probe_exists env srv hhead hex, h₁.clear hex⟩
  | true =>
    cases he : t₁.ex.isHttp 404 || t₁.ex.isHttp 403 with
    | true => exact .inr ⟨_, probe_absent env srv hhead hex he, Clear.notCaught rfl⟩
    | false => exact .inr ⟨t₁, probe_failed env srv hhead hex he, h₁⟩

/-! ## Creating -/

theorem returnMapped_apply (t : Thread (Mem σ)) : (returnMapped : Dav σ ℤ Unit) t =
    (.error (.ret (exceptionErrno t.ex)), ⟨.clear, t.mem⟩) := rfl

section Mknod

variable {path : Path} {mode : ℕ} (rdev : ℕ) {t t₁ t₂ t₃ : Thread (Mem σ)} {head : ℤ × ℕ}
  {res v : ℤ} (hdir : isDir mode = false)
  (hhead : (davHead env srv path : Dav σ ℤ (ℤ × ℕ)) t = (.ok head, t₁))

include hdir hhead

/-- There is something already. -/
theorem davMknod_exists (h : t₁.ex.has = false) :
    (davMknod env srv path mode rdev : Dav σ ρ ℤ) t = (.ok (-eexist), t₁) := by
  refine Ctl.call_ret ?_
  have hbody : mknodBody env srv path t = (.error (.ret (-eexist)), t₁) :=
    Ctl.bind_error (throwable_error (probe_exists env srv hhead h))
  rw [hdir, if_neg (by decide), Ctl.bind_error (tryCatch_ret hbody)]

/-- The test failed for another reason. -/
theorem davMknod_failed (h : t₁.ex.has = true)
    (he : (t₁.ex.isHttp 404 || t₁.ex.isHttp 403) = false) :
    (davMknod env srv path mode rdev : Dav σ ρ ℤ) t =
      (.ok (exceptionErrno t₁.ex), ⟨.clear, t₁.mem⟩) := by
  refine Ctl.call_ret ?_
  have hbody : mknodBody env srv path t = (.error .brk, t₁) :=
    Ctl.bind_error (throwable_pending (probe_failed env srv hhead h he) h)
  rw [hdir, if_neg (by decide), Ctl.bind_error (tryCatch_onerror_ret hbody h (returnMapped_apply t₁))]

/-- The test says there is nothing, and the `PUT` stops for good. -/
theorem davMknod_put_fault (h : t₁.ex.has = true)
    (he : (t₁.ex.isHttp 404 || t₁.ex.isHttp 403) = true)
    (hput : (davPutSimple env srv path : Dav σ ℤ ℤ) ⟨.clear, t₁.mem⟩ = (.error .fault, t₂)) :
    (davMknod env srv path mode rdev : Dav σ ρ ℤ) t = (.error .fault, t₂) := by
  refine Ctl.call_fault ?_
  have hbody : mknodBody env srv path t = (.error .fault, t₂) := by
    rw [mknodBody, Ctl.bind_ok (throwable_clean (probe_absent env srv hhead h he) rfl),
      Ctl.bind_error hput]
  rw [hdir, if_neg (by decide), Ctl.bind_error (tryCatch_fault hbody)]

/-- The test says there is nothing, and the `PUT` fails. -/
theorem davMknod_put_failed (h : t₁.ex.has = true)
    (he : (t₁.ex.isHttp 404 || t₁.ex.isHttp 403) = true)
    (hput : (davPutSimple env srv path : Dav σ ℤ ℤ) ⟨.clear, t₁.mem⟩ = (.ok res, t₂))
    (h₂ : t₂.ex.has = true) :
    (davMknod env srv path mode rdev : Dav σ ρ ℤ) t =
      (.ok (exceptionErrno t₂.ex), ⟨.clear, t₂.mem⟩) := by
  refine Ctl.call_ret ?_
  have hbody : mknodBody env srv path t = (.ok (), t₂) := by
    rw [mknodBody, Ctl.bind_ok (throwable_clean (probe_absent env srv hhead h he) rfl),
      Ctl.bind_ok hput]
    rfl
  rw [hdir, if_neg (by decide), Ctl.bind_error (tryCatch_ok_onerror_ret hbody h₂
    (returnMapped_apply t₂))]

/-- The test says there is nothing, and the `PUT` succeeds. -/
theorem davMknod_put (h : t₁.ex.has = true)
    (he : (t₁.ex.isHttp 404 || t₁.ex.isHttp 403) = true)
    (hput : (davPutSimple env srv path : Dav σ ℤ ℤ) ⟨.clear, t₁.mem⟩ = (.ok res, t₂))
    (h₂ : t₂.ex.has = false) :
    (davMknod env srv path mode rdev : Dav σ ρ ℤ) t =
      (Ctl.call (davChmod env srv path mode) : Dav σ ρ ℤ) t₂ := by
  have hbody : mknodBody env srv path t = (.ok (), t₂) := by
    rw [mknodBody, Ctl.bind_ok (throwable_clean (probe_absent env srv hhead h he) rfl),
      Ctl.bind_ok hput]
    rfl
  unfold davMknod Ctl.call
  rw [hdir, if_neg (by decide), Ctl.bind_ok (tryCatch_ok hbody h₂)]

end Mknod

theorem clears_davMknod_file (path : Path) {mode : ℕ} (rdev : ℕ) (hdir : isDir mode = false) :
    Ctl.Ensures NotCaught (davMknod env srv path mode rdev : Dav σ ρ ℤ) fun _ => Clear := by
  intro t v t' ht hv
  obtain ⟨head, t₁, hhead⟩ := davHead_returns (ρ := ℤ) env srv path t
  have h₁ : NotCaught t₁ := (settled_davHead env srv path t head t₁ ht hhead).1
  cases hex : t₁.ex.has with
  | false =>
    rw [davMknod_exists env srv rdev hdir hhead hex] at hv
    rw [← (Prod.mk.inj hv).2]
    exact h₁.clear hex
  | true =>
    cases he : t₁.ex.isHttp 404 || t₁.ex.isHttp 403 with
    | false =>
      rw [davMknod_failed env srv rdev hdir hhead hex he] at hv
      rw [← (Prod.mk.inj hv).2]
      rfl
    | true =>
      rcases hput : (davPutSimple env srv path : Dav σ ℤ ℤ) ⟨.clear, t₁.mem⟩ with ⟨e | res, t₂⟩
      · -- a `PUT` that stops for good stops `dav_mknod`
        have hf : e = .fault := (within_davMethod (R := StaysNotCaught) (A := (· = .fault)) env srv
          path .put .read ⟨.clear, t₁.mem⟩).2 e (congrArg Prod.fst hput)
        rw [hf] at hput
        rw [davMknod_put_fault env srv rdev hdir hhead hex he hput] at hv
        exact nomatch hv
      · have h₂ : NotCaught t₂ :=
          (settled_davMethod env srv path .put .read ⟨.clear, t₁.mem⟩ res t₂
            (Clear.notCaught (t := ⟨.clear, t₁.mem⟩) rfl) hput).1
        cases hex₂ : t₂.ex.has with
        | true =>
          rw [davMknod_put_failed env srv rdev hdir hhead hex he hput hex₂] at hv
          rw [← (Prod.mk.inj hv).2]
          rfl
        | false =>
          obtain ⟨w, t₃, hw⟩ := (within_davChmod (R := StaysNotCaught) (ρ := ℤ) env srv path mode).ok t₂
          rw [davMknod_put env srv rdev hdir hhead hex he hput hex₂, Ctl.call_ok hw] at hv
          rw [← (Prod.mk.inj hv).2]
          exact clears_davChmod env srv path mode t₂ w t₃ (h₂.clear hex₂) hw

theorem clears_davMknod (path : Path) (mode rdev : ℕ) :
    Clears (davMknod env srv path mode rdev : Dav σ ρ ℤ) := by
  intro t v t' ht hv
  cases hdir : isDir mode with
  | false => exact clears_davMknod_file env srv path rdev hdir t v t' ht.notCaught hv
  | true =>
    have hret : (davMknod env srv path mode rdev : Dav σ ρ ℤ) t = (.ok (-einval), t) := by
      refine Ctl.call_ok ?_
      rw [hdir, if_pos rfl]
      rfl
    rw [hret] at hv
    rw [← (Prod.mk.inj hv).2]
    exact ht

/-- `dav_symlink` after its existence test, also when it returns from there. -/
theorem clears_symlinkSteps (from_ : Bytes) (to_ : Path) {t t' : Thread (Mem σ)} (ht : NotCaught t)
    {r : Except (Exit ℤ) ℤ} (hr : symlinkSteps env srv from_ to_ t = (r, t'))
    (hf : r ≠ .error .fault) : Clear t' := by
  have hdir : isDir (sIFLNK ||| 0o777) = false := by decide
  rcases hm : (davMknod env srv to_ (sIFLNK ||| 0o777) 0 : Dav σ ℤ ℤ) t with ⟨e | res, t₁⟩
  · rw [symlinkSteps, Ctl.bind_error hm] at hr
    rw [← (Prod.mk.inj hr).1, Ctl.call_error hm] at hf
    exact absurd rfl hf
  have h₁ : Clear t₁ := clears_davMknod_file env srv to_ 0 hdir t res t₁ ht hm
  rw [symlinkSteps, Ctl.bind_ok hm] at hr
  split_ifs at hr with h0
  · rw [← (Prod.mk.inj hr).2]
    exact h₁
  rcases hw : (davWrite env srv to_ from_ 0 : Dav σ ℤ ℤ) t₁ with ⟨e | w, t₂⟩
  · have he : e = .fault := (within_davWrite (R := StaysNotCaught) (A := (· = .fault)) env srv to_
      from_ 0 t₁).2 e (congrArg Prod.fst hw)
    rw [Ctl.bind_error hw] at hr
    rw [← (Prod.mk.inj hr).1, he] at hf
    exact absurd rfl hf
  have h₂ : Clear t₂ := clears_davWrite env srv to_ from_ 0 t₁ w t₂ h₁ hw
  rw [Ctl.bind_ok hw] at hr
  split_ifs at hr <;> rw [← (Prod.mk.inj hr).2] <;> exact h₂

theorem symlinkRollback_cases (to_ : Path) {t : Thread (Mem σ)} (ht : Clear t) :
    (∃ t', (symlinkRollback env srv to_ : Dav σ ρ Unit) t = (.ok (), t') ∧ Clear t') ∨
      ∃ t', (symlinkRollback env srv to_ : Dav σ ρ Unit) t = (.error .fault, t') := by
  rcases hd : (davUnlink env srv to_ : Dav σ ρ ℤ) t with ⟨e | r, t₁⟩
  · have he : e = .fault := (within_davUnlink (R := StaysNotCaught) (A := (· = .fault)) env srv to_
      t).2 e (congrArg Prod.fst hd)
    rw [he] at hd
    exact .inr ⟨t₁, Ctl.bind_error (tryCatch_fault hd)⟩
  · have h₁ : Clear t₁ := clears_davUnlink env srv to_ t r t₁ ht hd
    refine .inl ⟨t₁, ?_, h₁⟩
    rw [symlinkRollback, Ctl.bind_ok (tryCatch_ok hd h₁.has)]
    rfl

theorem clears_davSymlink (from_ : Bytes) (to_ : Path) :
    Clears (davSymlink env srv from_ to_ : Dav σ ρ ℤ) := by
  intro t v t' ht hv
  rcases probe_cases env srv to_ ht.notCaught with ⟨w, t₁, hp, h₁⟩ | ⟨t₁, hp, h₁⟩
  · rw [davSymlink, Ctl.call_ret (Ctl.bind_error hp)] at hv
    rw [← (Prod.mk.inj hv).2]
    exact h₁
  rcases hs : symlinkSteps env srv from_ to_ t₁ with ⟨(_ | w | _) | res, t₂⟩
  · rw [davSymlink, Ctl.call_brk (by rw [Ctl.bind_ok hp, Ctl.bind_error hs])] at hv
    exact nomatch hv
  · rw [davSymlink, Ctl.call_ret (by rw [Ctl.bind_ok hp, Ctl.bind_error hs])] at hv
    rw [← (Prod.mk.inj hv).2]
    exact clears_symlinkSteps env srv from_ to_ h₁ hs (by simp)
  · rw [davSymlink, Ctl.call_fault (by rw [Ctl.bind_ok hp, Ctl.bind_error hs])] at hv
    exact nomatch hv
  · have h₂ : Clear t₂ := clears_symlinkSteps env srv from_ to_ h₁ hs (by simp)
    rcases symlinkRollback_cases (ρ := ℤ) env srv to_ h₂ with ⟨t₃, hroll, h₃⟩ | ⟨t₃, hroll⟩
    · have hbody : (do
          let _ ← probe env srv to_
          let res ← symlinkSteps env srv from_ to_
          symlinkRollback env srv to_
          pure res : Dav σ ℤ ℤ) t = (.ok res, t₃) := by
        rw [Ctl.bind_ok hp, Ctl.bind_ok hs, Ctl.bind_ok hroll]
        rfl
      rw [davSymlink, Ctl.call_ok hbody] at hv
      rw [← (Prod.mk.inj hv).2]
      exact h₃
    · rw [davSymlink, Ctl.call_fault (by
        rw [Ctl.bind_ok hp, Ctl.bind_ok hs, Ctl.bind_error hroll])] at hv
      exact nomatch hv

/-! ## Truncating, opening, copying -/

theorem clears_davTruncate (path : Path) (size : ℤ) :
    Clears (davTruncate env srv path size : Dav σ ρ ℤ) := by
  have hzero : ∀ mode, Clears (truncateZero env srv path mode : Dav σ ρ ℤ) := fun mode =>
    .after (settled_davMethod env srv path .delete .write) fun _ => ensures_mapped <|
      .after (settled_davMethod env srv path .put .read) fun _ => ensures_mapped <|
        clears_davChmod env srv path mode
  have hrewrite : Clears (truncateRewrite env srv path size : Dav σ ρ ℤ) := by
    refine .bind (.gets _) fun buf => .bind (clears_davRead env srv path buf 0) fun r => ?_
    refine .ite (.pure _) (.bind (clears_davUnlink env srv path) fun _ => .ite (.pure _) ?_)
    exact .after (settled_davPut env srv path _ 0) ensures_davExceptionTest
  have hprop : Clears (truncateProp env srv path size : Dav σ ρ ℤ) :=
    .after (settled_davProppatch env srv path _ _) ensures_davExceptionTest
  have hnonzero : Clears (truncateNonzero env srv path size : Dav σ ρ ℤ) := by
    refine .after (settled_davHead env srv path) fun head => ensures_mapped ?_
    exact .ite hrewrite hprop
  refine .bind (.gets _) fun st => .bind (clears_davGetattr env srv path st) fun r => ?_
  exact .ite (.pure _) (.ite (.pure _) (.ite (hzero _) hnonzero))

/-- `dav_lock` returns zero only without an exception. -/
theorem settled_davLock (path : Path) :
    Ctl.Ensures Clear (davLock env srv path : Dav σ ρ ℤ) Settled := by
  have hclear : ∀ t : Thread (Mem σ), Clear t → Settled 0 t := fun t ht => ⟨ht.notCaught, fun _ => ht⟩
  have hfind : Clears (synchronized rdlock (lockFind path) : Dav σ ρ (Option Bool)) := by
    intro t found t' ht hf
    cases hw : t.mem.held.contains .wr with
    | true =>
      rw [synchronized_stuck (rdlock_stuck hw)] at hf
      exact nomatch hf
    | false =>
      rw [lockFind_synchronized path hw] at hf
      rw [← (Prod.mk.inj hf).2]
      split_ifs <;> exact ht
  refine .ite (fun _ => .bind hfind fun found => ?_) fun _ => .pure hclear
  refine .ite (fun _ => .pure hclear) fun _ t r t' ht => ?_
  exact settled_testSuccess (.bind (within_tryOnerror (within_lockCreate env srv path) (.pure ()))
    fun _ => .gets _) t r t' ht.notCaught

theorem clears_davOpenCore (path : Path) : Clears (davOpenCore env srv path : Dav σ ρ ℤ) :=
  .ite (Ctl.Ensures.bind (settled_davLock env srv path) ensures_davExceptionTest) (.pure _)

theorem clears_davOpen (path : Path) (fi : OpenFlags) :
    Clears (davOpen env srv path fi : Dav σ ρ ℤ) := by
  refine .ite (.bind (.ite (clears_davTruncate env srv path 0) (.pure _)) fun res => ?_) (.pure _)
  exact .ite (clears_davOpenCore env srv path) (.pure _)

theorem clears_davCreate (path : Path) (mode : ℕ) (fi : OpenFlags) :
    Clears (davCreate env srv path mode fi : Dav σ ρ ℤ) :=
  .bind (clears_davMknod env srv path mode 0) fun _ =>
    .ite (.pure _) (.ite (clears_davOpenCore env srv path) (.pure _))

theorem clears_davCopyFileRange (pathIn : Path) (offsetIn : ℤ) (pathOut : Path) (offsetOut : ℤ)
    (len : ℕ) :
    Clears (davCopyFileRange env srv pathIn offsetIn pathOut offsetOut len : Dav σ ρ ℤ) := by
  have hsave : ∀ size offset, Clears (saveOut env srv pathOut size offset : Dav σ ρ _) :=
    fun size offset => .bind (.gets _) fun buf =>
      .ite (.pure _) (clears_davRead env srv pathOut buf offset)
  have hrestore : ∀ buf offset, Clears (restoreOut env srv pathOut buf offset : Dav σ ρ ℤ) :=
    fun buf offset => .ite (.pure _) (clears_davWrite env srv pathOut buf offset)
  have hcopy : ∀ before after, Clears (copyAndRestore env srv pathIn pathOut before after offsetOut
      len : Dav σ ρ ℤ) := by
    intro before after
    have hcopied : Clears (davCopy env srv pathIn pathOut >>= davExceptionTest : Dav σ ρ ℤ) :=
      .after (settled_davCopy env srv pathIn pathOut) ensures_davExceptionTest
    have h := hcopied.bind fun res => .ite (c := res ≠ 0) (.pure res) <|
      .bind (hrestore before 0) fun res => .ite (c := res ≠ 0) (.pure res) <|
        .bind (hrestore after offsetOut) fun res =>
          .ite (c := res ≠ 0) (.pure res) (.pure (toSsize len))
    rwa [bind_assoc] at h
  refine .ite (.pure _) (.bind (clears_davGetattr env srv pathOut _) fun r => ?_)
  refine .ite (.pure _) (.ite (.pure _) ?_)
  refine .bind (hsave _ _) fun before => .ite (.pure _) ?_
  exact .bind (hsave _ _) fun after => .ite (.pure _) (hcopy _ _)

/-! ## Closing -/

theorem tfind_addCnt (path : Path) (d : ℤ) (table : List FileLock) :
    tfind path (addCnt path d table) =
      (tfind path table).map fun e => { e with cnt := e.cnt + d } := by
  induction table with
  | nil => rfl
  | cons e es ih =>
    unfold tfind at ih ⊢
    cases h : e.path == path with
    | true => simp [addCnt, h]
    | false => simp [addCnt, h, ih]

/-- What `__dav_unlock` attempts. -/
def unlockAttempt (path : Path) (token : Text) : Attempt σ :=
  (initAttempt env srv.options path).andThen ((env.alloc .slist).andThen
    (sendAttempt env .customrequest ⟨.unlock, path, [.lockToken token], none, .none⟩))

theorem davUnlockCore_goes (path : Path) (token : Text) {t : Thread (Mem σ)}
    (h : t.ex.has = false) : ∃ v t', (davUnlockCore env srv path token : Dav σ ρ ℤ) t = (.ok v, t') ∧
      t'.ex.has = !(unlockAttempt env srv path token t.mem.env).1 := by
  have hbody : ∀ s, Goes (do
      let _ ← throwable (scopeList env (.lockToken token) fun list =>
        setAndPerform env .customrequest ⟨.unlock, path, list, none, .none⟩) : Dav σ ρ Unit)
      (atEnv t s) ((env.alloc .slist).andThen (sendAttempt env .customrequest
        ⟨.unlock, path, [.lockToken token], none, .none⟩) s).1 := fun s =>
    (Goes.scopeList env (t := atEnv t s) h fun s' =>
      goes_setAndPerform env _ _ (atEnv t s') h).bind_unit
  obtain ⟨u, t', hw, hex⟩ := Goes.withCurl env srv.options path h hbody
  exact ⟨_, t', by rw [davUnlockCore, Ctl.bind_ok hw]; exact testSuccess_apply t', hex⟩

section Unlock

variable {path : Path} {t : Thread (Mem σ)} (hlock : srv.options.useLock = true)

include hlock

/-- A thread that holds the lock for writing does not get past the read section. -/
theorem davUnlock_stuck (hw : t.mem.held.contains .wr = true) :
    (davUnlock env srv path : Dav σ ρ ℤ) t = (.error .fault, t) := by
  rw [davUnlock, if_pos hlock, Ctl.bind_error (synchronized_stuck (rdlock_stuck hw))]

variable (hw : t.mem.held.contains .wr = false)

include hw

theorem davUnlock_absent (hf : tfind path t.mem.table = none) :
    (davUnlock env srv path : Dav σ ρ ℤ) t =
      (.ok 1, raised t (.unspecified "release cannot find file lock")) := by
  have hd : (unlockDecrement path : Dav σ ρ (Option FileLock)) (hold .rd t) =
      (.error .brk, hold .rd (raised t (.unspecified "release cannot find file lock"))) := by
    simp [unlockDecrement, Ctl.bind_apply, hf]
    rfl
  rw [davUnlock, if_pos hlock, Ctl.bind_ok (synchronized_brk (rdlock_apply hw) hd rfl)]
  rfl

variable {e : FileLock} (hf : tfind path t.mem.table = some e)

include hf

omit hlock in
theorem davUnlock_decrement : (synchronized rdlock (unlockDecrement path) : Dav σ ρ _) t =
    (.ok (some (if e.cnt - 1 > 0 then none else some e)), counted path (-1) t) := by
  have hd : (unlockDecrement path : Dav σ ρ (Option FileLock)) (hold .rd t) =
      (.ok (if e.cnt - 1 > 0 then none else some e), hold .rd (counted path (-1) t)) := by
    simp [unlockDecrement, Ctl.bind_apply, Ctl.map_apply, hf]
    rfl
  exact synchronized_ok (rdlock_apply hw) hd rfl

theorem davUnlock_shared (hc : e.cnt - 1 > 0) :
    (davUnlock env srv path : Dav σ ρ ℤ) t = (.ok 0, counted path (-1) t) := by
  rw [davUnlock, if_pos hlock, Ctl.bind_ok (davUnlock_decrement hw hf), if_pos hc]
  rfl

/-- The last `dav_unlock` does not get past its write section if the thread still holds
    the lock. -/
theorem davUnlock_last_stuck (hc : ¬ e.cnt - 1 > 0) (hheld : t.mem.held ≠ []) :
    (davUnlock env srv path : Dav σ ρ ℤ) t = (.error .fault, counted path (-1) t) := by
  rw [davUnlock, if_pos hlock, Ctl.bind_ok (davUnlock_decrement hw hf), if_neg hc]
  exact Ctl.bind_error (synchronized_stuck (wrlock_stuck hheld))

/-- The last `dav_unlock`, alone, removes the entry and sends `UNLOCK` for it. -/
theorem davUnlock_last (hc : ¬ e.cnt - 1 > 0) (hheld : t.mem.held = []) :
    (davUnlock env srv path : Dav σ ρ ℤ) t =
      davUnlockCore env srv e.path e.token (unlisted path .write (counted path (-1) t)) := by
  have hr : (unlockRemove path e : Dav σ ρ FileLock) (hold .wr (counted path (-1) t)) =
      (.ok { e with cnt := e.cnt + -1 }, hold .wr (unlisted path .write (counted path (-1) t))) := by
    have hfind : tfind path (counted path (-1) t).mem.table =
        some { e with cnt := e.cnt + -1 } := by
      rw [counted, tfind_addCnt, hf]
      rfl
    have hle : e.cnt + -1 ≤ 0 := by omega
    simp [unlockRemove, Ctl.bind_apply, Ctl.map_apply, hfind, hle]
    rfl
  rw [davUnlock, if_pos hlock, Ctl.bind_ok (davUnlock_decrement hw hf), if_neg hc]
  show (synchronized wrlock (unlockRemove path e) >>= _) _ = _
  rw [Ctl.bind_ok (synchronized_ok (wrlock_apply (t := counted path (-1) t) hheld) hr rfl)]
  rfl

end Unlock

/-- `dav_unlock` finds the entry, and does not have to send `UNLOCK` or succeeds at
    it. -/
def ReleasesClean (path : Path) (t : Thread (Mem σ)) : Prop :=
  ∃ e, tfind path t.mem.table = some e ∧
    (e.cnt - 1 > 0 ∨ (unlockAttempt env srv e.path e.token t.mem.env).1 = true)

/-- The callback is not a `dav_release` that needs an `UNLOCK` it cannot get. -/
def LeavesClear (t : Thread (Mem σ)) : Callback → Prop
  | .release path fi => srv.lock = true → fi.writes = true → srv.options.useLock = true →
      ReleasesClean env srv path t
  | _ => True

theorem davRelease_clears_iff (path : Path) (fi : OpenFlags) {t t' : Thread (Mem σ)} {v : ℤ}
    (ht : Clear t) (hv : (davRelease env srv path fi : Dav σ ρ ℤ) t = (.ok v, t')) :
    Clear t' ↔ LeavesClear env srv t (.release path fi) := by
  unfold LeavesClear
  by_cases hs : srv.lock = true ∧ fi.writes = true ∧ srv.options.useLock = true
  · obtain ⟨hl, hw, hu⟩ := hs
    have hrel : ∀ {r : ℤ} {t₁ : Thread (Mem σ)}, (davUnlock env srv path : Dav σ ρ ℤ) t =
        (.ok r, t₁) → t₁ = t' := by
      intro r t₁ hr
      rw [davRelease, if_pos hl, if_pos hw, Ctl.bind_ok hr] at hv
      exact (Prod.mk.inj hv).2
    have hstuck : ∀ {t₁ : Thread (Mem σ)}, (davUnlock env srv path : Dav σ ρ ℤ) t ≠
        (.error .fault, t₁) := by
      intro t₁ hr
      rw [davRelease, if_pos hl, if_pos hw, Ctl.bind_error hr] at hv
      exact nomatch hv
    simp only [hl, hw, hu, forall_const]
    -- a callback that returned did not wait for itself
    have hwr : t.mem.held.contains .wr = false := by
      by_contra h
      exact hstuck (davUnlock_stuck env srv hu (by simpa using h))
    cases hf : tfind path t.mem.table with
    | none =>
      rw [← hrel (davUnlock_absent env srv hu hwr hf)]
      simp [Clear, ReleasesClean, hf]
    | some e =>
      by_cases hc : e.cnt - 1 > 0
      · rw [← hrel (davUnlock_shared env srv hu hwr hf hc)]
        exact ⟨fun _ => ⟨e, hf, .inl hc⟩, fun _ => ht⟩
      · have hheld : t.mem.held = [] := by
          by_contra h
          exact hstuck (davUnlock_last_stuck env srv hu hwr hf hc h)
        obtain ⟨r, t₁, hr, hex⟩ := davUnlockCore_goes (ρ := ρ) env srv e.path e.token
          (t := unlisted path .write (counted path (-1) t)) ht.has
        rw [← davUnlock_last env srv hu hwr hf hc hheld] at hr
        rw [← hrel hr]
        have hn : NotCaught t₁ := ((within_davUnlock (R := StaysNotCaught) (A := anyExit) env srv
          path).ensures (P := NotCaught) fun _ _ h h' => h' h) t r t₁ ht.notCaught hr
        constructor
        · intro hclear
          refine ⟨e, hf, .inr ?_⟩
          rw [hclear.has] at hex
          simpa using hex
        · rintro ⟨e', hf', hc' | hpass⟩
          · rw [hf] at hf'
            rw [← Option.some.inj hf'] at hc'
            exact absurd hc' hc
          · rw [hf] at hf'
            rw [← Option.some.inj hf'] at hpass
            exact hn.clear (by rw [hex]; exact (congrArg Bool.not hpass))
  · have hid : (davRelease env srv path fi : Dav σ ρ ℤ) t = (.ok 0, t) := by
      unfold davRelease davUnlock
      split_ifs with hl hw hu
      · exact absurd ⟨hl, hw, hu⟩ hs
      · rfl
      · rfl
      · rfl
    rw [hid] at hv
    rw [← (Prod.mk.inj hv).2]
    exact ⟨fun _ hl hw hu => absurd ⟨hl, hw, hu⟩ hs, fun _ => ht⟩

/-! ## All callbacks -/

/-- A callback that clears what it raised leaves no exception. -/
theorem Clears.iff_true {m : Dav σ ρ ℤ} (hm : Clears m) {t t' : Thread (Mem σ)} {v : ℤ} (ht : Clear t)
    (hv : m t = (.ok v, t')) : Clear t' ↔ True :=
  iff_true_intro (hm t v t' ht hv)

theorem Clears.map {β : Type} (f : α → β) {m : Dav σ ρ α} (hm : Clears m) : Clears (f <$> m) := by
  rw [← bind_pure_comp]
  exact hm.bind fun a => .pure (f a)

/-- Entered without an exception, a callback that returns leaves one exactly when it
    is a `dav_release` whose entry is missing or whose `UNLOCK` fails. -/
theorem callback_clears_iff (c : Callback) {t t' : Thread (Mem σ)} {v : ℤ} (ht : Clear t)
    (hv : (c.run env srv : Dav σ ρ ℤ) t = (.ok v, t')) : Clear t' ↔ LeavesClear env srv t c := by
  cases c with
  | readdir path => exact (clears_davReaddir env srv path).iff_true ht hv
  | getattr path stbuf => exact ((clears_davGetattr env srv path stbuf).map _).iff_true ht hv
  | read path buf offset => exact ((clears_davRead env srv path buf offset).map _).iff_true ht hv
  | write path buf offset => exact (clears_davWrite env srv path buf offset).iff_true ht hv
  | mkdir path => exact (clears_davMkdir env srv path).iff_true ht hv
  | rename from_ to_ flags => exact (clears_davRename env srv from_ to_ flags).iff_true ht hv
  | unlink path => exact (clears_davUnlink env srv path).iff_true ht hv
  | chmod path mode => exact (clears_davChmod env srv path mode).iff_true ht hv
  | chown path uid gid => exact (clears_davChown env srv path uid gid).iff_true ht hv
  | mknod path mode rdev => exact (clears_davMknod env srv path mode rdev).iff_true ht hv
  | readlink path buf => exact ((clears_davReadlink env srv path buf).map _).iff_true ht hv
  | symlink from_ to_ => exact (clears_davSymlink env srv from_ to_).iff_true ht hv
  | create path mode fi => exact (clears_davCreate env srv path mode fi).iff_true ht hv
  | open_ path fi => exact (clears_davOpen env srv path fi).iff_true ht hv
  | release path fi => exact davRelease_clears_iff env srv path fi ht hv
  | truncate path size => exact (clears_davTruncate env srv path size).iff_true ht hv
  | copyFileRange pathIn offsetIn pathOut offsetOut len =>
    exact (clears_davCopyFileRange env srv pathIn offsetIn pathOut offsetOut len).iff_true ht hv

/-- The states a thread reaches by serving callbacks that each satisfy `ok`. Between
    two callbacks other threads may change everything but the thread's exception. -/
inductive Served (ok : Thread (Mem σ) → Callback → Prop) (t₀ : Thread (Mem σ)) :
    Thread (Mem σ) → Prop
  | start : Served ok t₀ t₀
  | serve {t t' : Thread (Mem σ)} {c : Callback} {v : ℤ} (before : Served ok t₀ t) (hok : ok t c)
      (run : (c.run env srv : Dav σ Unit ℤ) t = (.ok v, t')) (m : Mem σ) : Served ok t₀ ⟨t'.ex, m⟩

/-- One callback: what a run step preserves. -/
theorem clear_serve {c : Callback} {t t' : Thread (Mem σ)} {v : ℤ} (ht : Clear t)
    (hok : LeavesClear env srv t c) (hv : (c.run env srv : Dav σ Unit ℤ) t = (.ok v, t')) (m : Mem σ) :
    Clear (⟨t'.ex, m⟩ : Thread (Mem σ)) :=
  (callback_clears_iff env srv c ht hv).mpr hok

/-- Every callback leaves no exception exactly when it is not a `dav_release` that
    fails; so in a run of callbacks none of which is one, every callback is entered
    without an exception. -/
theorem callbacks_leave_no_exception :
    (∀ (c : Callback) (t t' : Thread (Mem σ)) (v : ℤ), Clear t →
      (c.run env srv : Dav σ Unit ℤ) t = (.ok v, t') → (Clear t' ↔ LeavesClear env srv t c)) ∧
    ∀ t₀ t : Thread (Mem σ), Clear t₀ → Served env srv (LeavesClear env srv) t₀ t → Clear t := by
  refine ⟨fun c t t' v ht hv => callback_clears_iff env srv c ht hv, fun t₀ t ht₀ hrun => ?_⟩
  induction hrun with
  | start => exact ht₀
  | serve before hok run m ih => exact clear_serve env srv ih hok run m

/-- `/a`, opened for writing: one entry in the lock table. -/
def openedA : Thread (Mem Unit) :=
  ⟨.clear, { (idle () : Thread (Mem Unit)).mem with table := [⟨[47, 97], "t".toList, 1⟩] }⟩

/-- `O_WRONLY`. -/
def writeOnly : OpenFlags := ⟨true, false, false, false⟩

/-- A `dav_release` whose `UNLOCK` succeeds. -/
theorem callbacks_leave_no_exception_release :
    ∃ t', ((Callback.release [47, 97] writeOnly).run (answering (plainReply 204)) lockingServer :
      Dav Unit Unit ℤ) openedA = (.ok 0, t') ∧ Clear t' :=
  ⟨_, rfl, ((callbacks_leave_no_exception (answering (plainReply 204)) lockingServer).1
    (.release [47, 97] writeOnly) openedA _ 0 rfl rfl).mpr
      fun _ _ _ => ⟨⟨[47, 97], "t".toList, 1⟩, rfl, .inr rfl⟩⟩

/-- A `dav_release` whose `UNLOCK` is answered with 500 leaves its exception, and the
    `dav_chmod` after it fails without sending a request. -/
theorem release_500_fails_next_chmod :
    ∃ t' t'', ((Callback.release [47, 97] writeOnly).run (answering (plainReply 500)) lockingServer :
        Dav Unit Unit ℤ) openedA = (.ok 0, t') ∧ Clear openedA ∧ ¬ Clear t' ∧
      ((Callback.chmod [47, 98] 0o644).run (answering (plainReply 207)) lockingServer :
        Dav Unit Unit ℤ) t' = (.ok (-eio), t'') ∧ t''.mem.sent = t'.mem.sent :=
  ⟨_, _, rfl, rfl, nofun, rfl, rfl⟩

end NetworkFs.Dav
