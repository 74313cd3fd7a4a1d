import NetworkFs.Dav.Options
import NetworkFs.Dav.Propfind

/-!
# Methods called with an exception pending

A method that is entered with `ex.set == true` should do nothing and leave the exception to
its caller. Each `with` looks at the exception only after its initialisation ran, so it
matters which initialisation comes first:

* `dav_put`, `dav_propfind`, `dav_proppatch` and `__dav_lock` start with a `Buffer`, which
  cannot fail. They do nothing.
* `dav_get` starts with one too, but its result is set inside the `with`.
* The others start with `curl_easy_init_common`, which takes a handle and copies the base URL
  before it looks. Where one of these fails, the exception that was pending is replaced.

`failStop_iff` has the three cases for all eleven methods.
-/

namespace NetworkFs.Dav

open Control Grammar Wrapper Text

variable {σ ρ : Type}

/-! ## The eleven methods -/

/-- A call of a method with its arguments. -/
inductive DavCall (σ ρ : Type) where
  | method (path : Path) (name : Method) (lockType : LockType)
  | head (path : Path)
  | get (path : Path) (data : Bytes) (offset : ℤ)
  | put (path : Path) (data : Bytes) (offset : ℤ)
  | move (from_ to_ : Path) (nooverwrite : Bool)
  | copy (from_ to_ : Path)
  | propfind (path : Path) (depth : ℤ) (filler : Text → Stat → Dav (σ × DavInfo) ρ Unit)
  | proppatch (path : Path) (key : XmlName) (value : Option Text)
  | lock (path : Path)
  | unlock (path : Path) (token : Text)
  | options

variable (env : Env σ) (srv : DavServer) (redirects : Redirects σ)

/-- Run a call: does its result say that it failed? `dav_get` returns a negative size for
    that, `__dav_lock` returns `NULL`, and the others do not return `0`. -/
def DavCall.fails : DavCall σ ρ → Dav (σ × DavInfo) ρ Bool
  | method path name lockType =>
    (fun res => res != 0) <$> davMethod (Env.beside env DavInfo) srv path name lockType
  | head path => (fun res => res.1 != 0) <$> davHead (Env.beside env DavInfo) srv path
  | get path data offset =>
    (fun res => decide (res.1 < 0)) <$> davGet (Env.beside env DavInfo) srv path data offset
  | put path data offset =>
    (fun res => res != 0) <$> davPut (Env.beside env DavInfo) srv path data offset
  | move from_ to_ nooverwrite =>
    (fun res => res != 0) <$> davMoveCore (Env.beside env DavInfo) srv from_ to_ nooverwrite
  | copy from_ to_ => (fun res => res != 0) <$> davCopy (Env.beside env DavInfo) srv from_ to_
  | propfind path depth filler =>
    (fun res => res != 0) <$> davPropfind (Env.beside env DavInfo) srv path depth filler
  | proppatch path key value =>
    (fun res => res != 0) <$> davProppatch (Env.beside env DavInfo) srv path key value
  | lock path => (fun res => res.isNone) <$> davLockCore (Env.beside env DavInfo) srv path
  | unlock path token =>
    (fun res => res != 0) <$> davUnlockCore (Env.beside env DavInfo) srv path token
  | options => (fun res => res != 0) <$> davOptions env redirects srv.options

/-! ## Doing nothing -/

/-- `t` with other holds on `filelock_tree_lock`. -/
def withHeld (held : List RwMode) (t : Thread (Mem σ)) : Thread (Mem σ) :=
  { t with mem := { t.mem with held := held } }

/-- `m` reports failure and leaves the requests, the holds, the lock table and the exception as
    they were. It does so whatever the thread holds: a thread that holds the lock for writing
    and acquires it gets no further, so `m` does not acquire it. -/
def FailStop (m : Dav σ ρ Bool) (t : Thread (Mem σ)) : Prop :=
  ∀ held, ∃ t', m (withHeld held t) = (.ok true, t') ∧ t'.mem.held = held ∧
    t'.mem.sent = t.mem.sent ∧ t'.mem.table = t.mem.table ∧ t'.ex = t.ex

/-- A method that does nothing at all. -/
theorem failStop_untouched {m : Dav σ ρ Bool} {t : Thread (Mem σ)}
    (h : ∀ t' : Thread (Mem σ), t'.ex.has = true → m t' = (.ok true, t')) (ht : t.ex.has = true) :
    FailStop m t :=
  fun held => ⟨withHeld held t, h (withHeld held t) ht, rfl, rfl, rfl, rfl⟩

/-- A result that does not say failure. -/
theorem not_failStop {m : Dav σ ρ Bool} {t t' : Thread (Mem σ)}
    (h : m (withHeld t.mem.held t) = (.ok false, t')) : ¬ FailStop m t := by
  intro hstop
  obtain ⟨t'', hrun, -⟩ := hstop t.mem.held
  rw [h] at hrun
  exact nomatch (Prod.mk.inj hrun).1

/-! ## Through `curl_easy_init_common` -/

/-- `curl_easy_init_common` keeps the pending exception: it gets a handle and a copy of the base
    URL, or the exception pending already is the one that the failure raises. -/
def InitKeeps (e : Exception) (s : σ) : Prop :=
  ((env.alloc .handle s).1 = false → e = .init (.curl .ok 0 .init)) ∧
  ((env.alloc .handle s).1 = true → (env.alloc .urlDup (env.alloc .handle s).2).1 = false →
    e = .init (.curlUrl 0 .dup))

theorem initPending_ex_iff (t : Thread (Mem σ)) :
    (initPending env t).ex = t.ex ↔ InitKeeps env t.ex t.mem.env := by
  unfold InitKeeps
  cases hh : (env.alloc .handle t.mem.env).1 with
  | false =>
    rw [initPending_no_handle env hh]
    exact ⟨fun h => ⟨fun _ => h.symm, fun h' => (nomatch h')⟩, fun h => (h.1 rfl).symm⟩
  | true =>
    cases hd : (env.alloc .urlDup (env.alloc .handle t.mem.env).2).1 with
    | false =>
      rw [initPending_no_dup env hh hd]
      exact ⟨fun h => ⟨fun h' => (nomatch h'), fun _ _ => h.symm⟩, fun h => (h.2 rfl rfl).symm⟩
    | true =>
      rw [initPending_kept env hh hd]
      simp

theorem initPending_withHeld (held : List RwMode) (t : Thread (Mem σ)) :
    initPending env (withHeld held t) = withHeld held (initPending env t) := by
  unfold initPending
  dsimp only [withHeld, atEnv, raised]
  split_ifs <;> rfl

/-- A method that starts with `curl_easy_init_common` and does nothing else. -/
theorem failStop_initPending {m : Dav σ ρ Bool} {t : Thread (Mem σ)}
    (h : ∀ t' : Thread (Mem σ), t'.ex.has = true → m t' = (.ok true, initPending env t'))
    (ht : t.ex.has = true) : FailStop m t ↔ InitKeeps env t.ex t.mem.env := by
  rw [← initPending_ex_iff]
  constructor
  · intro hstop
    obtain ⟨t', hrun, -, -, -, hex⟩ := hstop t.mem.held
    have hinit : initPending env t = t' := (Prod.mk.inj ((h t ht).symm.trans hrun)).2
    rw [hinit, hex]
  · intro hkept held
    obtain ⟨s, hs⟩ := initPending_mem env t
    refine ⟨_, h (withHeld held t) ht, ?_⟩
    rw [initPending_withHeld]
    refine ⟨rfl, ?_, ?_, hkept⟩
    · show (initPending env t).mem.sent = t.mem.sent
      rw [hs]
      rfl
    · show (initPending env t).mem.table = t.mem.table
      rw [hs]
      rfl

/-- `with_curl (...) body; return TEST_SUCCESS;` -/
theorem withCurl_testSuccess_pending {α : Type} (options : Opts) (path : Path) (body : Dav σ ρ α)
    {t : Thread (Mem σ)} (ht : t.ex.has = true) :
    (do
      let _ ← withCurl env options path body
      testSuccess : Dav σ ρ ℤ) t = (.ok 1, initPending env t) := by
  rw [Ctl.bind_ok (withCurl_skipped env body ht), testSuccess_apply, initPending_has env ht]
  rfl

/-- `with (Buffer buf, ...) body return TEST_SUCCESS;` -/
theorem withBuffer_testSuccess_pending {α : Type} (body : Dav σ ρ α) {t : Thread (Mem σ)}
    (ht : t.ex.has = true) :
    (do
      let _ ← withBuffer body
      testSuccess : Dav σ ρ ℤ) t = (.ok 1, t) := by
  rw [Ctl.bind_ok (withBuffer_pending ht), testSuccess_apply, ht]
  rfl

theorem davHead_skipped (path : Path) {t : Thread (Mem σ)} (ht : t.ex.has = true) :
    (davHead env srv path : Dav σ ρ (ℤ × ℕ)) t = (.ok (1, 0), initPending env t) := by
  refine (Ctl.bind_ok (withCurl_skipped env _ ht)).trans ?_
  rw [Ctl.bind_ok (testSuccess_apply _), initPending_has env ht]
  rfl

theorem davLockCore_skipped (path : Path) {t : Thread (Mem σ)} (ht : t.ex.has = true) :
    (davLockCore env srv path : Dav σ ρ (Option Text)) t = (.ok none, t) := by
  have htry : tryCatch (withBuffer (throwable (withBuffer (lockBody env srv path))))
      [onerror (pure () : Dav σ ρ Unit)] t = (.ok (some none), t) :=
    tryCatch_ok_handled (withBuffer_pending ht) (handle_onerror_ok ht rfl)
  rw [davLockCore, Ctl.bind_ok htry, Ctl.bind_ok (Ctl.gets_apply _ _), ht]
  rfl

/-- `res` keeps what was on the stack. -/
theorem davGet_skipped (path : Path) (data : Bytes) (offset : ℤ) {t : Thread (Mem σ)}
    (ht : t.ex.has = true) : (davGet env srv path data offset : Dav σ ρ (ℤ × Bytes)) t =
      (.ok (env.stackInt t.mem.env, data), t) := by
  rw [davGet, Ctl.bind_ok (Ctl.gets_apply _ _), Ctl.bind_ok (withBuffer_pending ht)]
  rfl

/-! ## The three cases -/

/-- What a method needs, with `e` pending, to be fail-stop. -/
def DavCall.KeepsPending (e : Exception) (s : σ) : DavCall σ ρ → Prop
  | put .. | propfind .. | proppatch .. | lock .. => True
  | get .. => env.stackInt s < 0
  | method .. | head .. | move .. | copy .. | unlock .. | options => InitKeeps env e s

theorem failStop_get (path : Path) (data : Bytes) (offset : ℤ) {t : Thread (Mem (σ × DavInfo))}
    (ht : t.ex.has = true) :
    FailStop ((DavCall.get path data offset : DavCall σ ρ).fails env srv redirects) t ↔
      env.stackInt t.mem.env.1 < 0 := by
  have hrun : ∀ held, (DavCall.get path data offset : DavCall σ ρ).fails env srv redirects
      (withHeld held t) = (.ok (decide (env.stackInt t.mem.env.1 < 0)), withHeld held t) := by
    intro held
    exact Ctl.map_ok (davGet_skipped (Env.beside env DavInfo) srv path data offset
      (show (withHeld held t).ex.has = true from ht))
  by_cases hneg : env.stackInt t.mem.env.1 < 0
  · refine iff_of_true (fun held => ⟨withHeld held t, ?_, rfl, rfl, rfl, rfl⟩) hneg
    rw [hrun, decide_eq_true hneg]
  · have hzero := hrun t.mem.held
    rw [decide_eq_false hneg] at hzero
    exact iff_of_false (not_failStop hzero) hneg

/-- With an exception pending a method is fail-stop if and only if its case of `KeepsPending`
    holds. -/
theorem failStop_iff (call : DavCall σ ρ) (t : Thread (Mem (σ × DavInfo)))
    (ht : t.ex.has = true) : FailStop (call.fails env srv redirects) t ↔
      call.KeepsPending env t.ex t.mem.env.1 := by
  cases call with
  | method path name lockType =>
    refine failStop_initPending (Env.beside env DavInfo) (fun t' ht' => ?_) ht
    exact Ctl.map_ok (withCurl_testSuccess_pending _ _ _ _ ht')
  | head path =>
    refine failStop_initPending (Env.beside env DavInfo) (fun t' ht' => ?_) ht
    exact Ctl.map_ok (davHead_skipped _ _ _ ht')
  | get path data offset => exact failStop_get env srv redirects path data offset ht
  | put path data offset =>
    refine iff_of_true (failStop_untouched (fun t' ht' => ?_) ht) trivial
    exact Ctl.map_ok (withBuffer_testSuccess_pending _ ht')
  | move from_ to_ nooverwrite =>
    refine failStop_initPending (Env.beside env DavInfo) (fun t' ht' => ?_) ht
    exact Ctl.map_ok (withCurl_testSuccess_pending _ _ _ _ ht')
  | copy from_ to_ =>
    refine failStop_initPending (Env.beside env DavInfo) (fun t' ht' => ?_) ht
    exact Ctl.map_ok (withCurl_testSuccess_pending _ _ _ _ ht')
  | propfind path depth filler =>
    refine iff_of_true (failStop_untouched (fun t' ht' => ?_) ht) trivial
    exact Ctl.map_ok (withBuffer_testSuccess_pending _ ht')
  | proppatch path key value =>
    refine iff_of_true (failStop_untouched (fun t' ht' => ?_) ht) trivial
    exact Ctl.map_ok (withBuffer_testSuccess_pending _ ht')
  | lock path =>
    refine iff_of_true (failStop_untouched (fun t' ht' => ?_) ht) trivial
    exact Ctl.map_ok (davLockCore_skipped _ _ _ ht')
  | unlock path token =>
    refine failStop_initPending (Env.beside env DavInfo) (fun t' ht' => ?_) ht
    exact Ctl.map_ok (withCurl_testSuccess_pending _ _ _ _ ht')
  | options =>
    refine failStop_initPending (Env.beside env DavInfo) (fun t' ht' => ?_) ht
    exact Ctl.map_ok (davOptions_pending _ ht')

/-- A thread with a `404` of an earlier request pending. -/
def notFoundPending : Thread (Mem (Unit × DavInfo)) :=
  raised (idle ((), noInfo)) (.curl .httpReturnedError 404 .perform)

/-- With a handle and a copy of the URL, a `DELETE` leaves the `404`. -/
theorem failStop_delete : FailStop ((DavCall.method [47, 97] .delete .write : DavCall Unit Unit).fails
    (answering (plainReply 204)) lockingServer noRedirects) notFoundPending :=
  (failStop_iff (answering (plainReply 204)) lockingServer noRedirects
    (.method [47, 97] .delete .write) notFoundPending rfl).mpr
    ⟨fun h => (nomatch h), fun _ h => (nomatch h)⟩

/-- Without a handle the `DELETE` replaces the `404`, and `dav_get` returns the `0` it finds on
    the stack. -/
theorem not_failStop_no_handle :
    ¬ FailStop ((DavCall.method [47, 97] .delete .write : DavCall Unit Unit).fails
      { answering (plainReply 204) with alloc := fun _ s => (false, s) } lockingServer noRedirects)
      notFoundPending ∧
    ¬ FailStop ((DavCall.get [47, 97] [0] 0 : DavCall Unit Unit).fails
      (answering (plainReply 200)) lockingServer noRedirects) notFoundPending := by
  constructor
  · intro hstop
    obtain ⟨t', hrun, -, -, -, hex⟩ := hstop []
    obtain rfl : _ = t' := (Prod.mk.inj hrun).2
    exact nomatch hex
  · exact not_failStop rfl

end NetworkFs.Dav
