import NetworkFs.Dav.Lock

/-!
# What the steps of a method can do

One lemma for each step and each way it can go: taking the handle, appending the
`If` header, setting an option, sending the request. The methods' own lemmas are
assembled from these.

* `withCurl_entered`, `withCurl_failed`, `withCurl_pending`
* `headerIf_pass`, `headerIf_fail`
* `setAndPerform_sent`, `setAndPerform_unset`
-/

namespace NetworkFs.Dav

open Control Grammar Wrapper Text

variable {σ ρ α : Type} (env : Env σ) (srv : DavServer)

/-! ## Reading and changing the memory -/

@[simp] theorem modifyMem_apply (f : Mem σ → Mem σ) (t : Thread (Mem σ)) :
    (modifyMem f : Dav σ ρ Unit) t = (.ok (), { t with mem := f t.mem }) := rfl

/-- `t` after `mode` was acquired. -/
def hold (mode : RwMode) (t : Thread (Mem σ)) : Thread (Mem σ) :=
  { t with mem := { t.mem with held := mode :: t.mem.held } }

/-- `t` after its last hold was released. -/
def release (t : Thread (Mem σ)) : Thread (Mem σ) :=
  { t with mem := { t.mem with held := t.mem.held.tail } }

/-- `t` after `request` was sent. -/
def logged (request : Request) (t : Thread (Mem σ)) : Thread (Mem σ) :=
  { t with mem := { t.mem with sent := t.mem.sent ++ [request] } }

/-- `t` after `__dav_header_if` found what it looked for: with a write lock the
    entry is gone. -/
def unlisted (path : Path) (lockType : LockType) (t : Thread (Mem σ)) : Thread (Mem σ) :=
  { t with mem := { t.mem with
      table := if lockType = .write then tdelete path t.mem.table else t.mem.table } }

@[simp] theorem hold_ex (mode : RwMode) (t : Thread (Mem σ)) : (hold mode t).ex = t.ex := rfl

@[simp] theorem hold_held (mode : RwMode) (t : Thread (Mem σ)) :
    (hold mode t).mem.held = mode :: t.mem.held := rfl

@[simp] theorem hold_env (mode : RwMode) (t : Thread (Mem σ)) :
    (hold mode t).mem.env = t.mem.env := rfl

@[simp] theorem hold_table (mode : RwMode) (t : Thread (Mem σ)) :
    (hold mode t).mem.table = t.mem.table := rfl

@[simp] theorem release_hold (mode : RwMode) (t : Thread (Mem σ)) : release (hold mode t) = t := rfl

@[simp] theorem logged_ex (request : Request) (t : Thread (Mem σ)) :
    (logged request t).ex = t.ex := rfl

@[simp] theorem logged_env (request : Request) (t : Thread (Mem σ)) :
    (logged request t).mem.env = t.mem.env := rfl

@[simp] theorem logged_held (request : Request) (t : Thread (Mem σ)) :
    (logged request t).mem.held = t.mem.held := rfl

@[simp] theorem unlisted_ex (path : Path) (lockType : LockType) (t : Thread (Mem σ)) :
    (unlisted path lockType t).ex = t.ex := rfl

@[simp] theorem unlisted_held (path : Path) (lockType : LockType) (t : Thread (Mem σ)) :
    (unlisted path lockType t).mem.held = t.mem.held := rfl

@[simp] theorem unlisted_env (path : Path) (lockType : LockType) (t : Thread (Mem σ)) :
    (unlisted path lockType t).mem.env = t.mem.env := rfl

@[simp] theorem atEnv_held (t : Thread (Mem σ)) (s : σ) : (atEnv t s).mem.held = t.mem.held := rfl

@[simp] theorem atEnv_table (t : Thread (Mem σ)) (s : σ) : (atEnv t s).mem.table = t.mem.table := rfl

@[simp] theorem atEnv_env (t : Thread (Mem σ)) (s : σ) : (atEnv t s).mem.env = s := rfl

@[simp] theorem raised_mem (t : Thread (Mem σ)) (e : ExType) : (raised t e).mem = t.mem := rfl

theorem rdlock_apply {t : Thread (Mem σ)} (h : t.mem.held.contains .wr = false) :
    (rdlock : Dav σ ρ Unit) t = (.ok (), hold .rd t) := by
  rw [rdlock, Ctl.bind_ok (Ctl.gets_apply _ t), h]
  rfl

theorem rdlock_of_free {t : Thread (Mem σ)} (h : t.mem.held = []) :
    (rdlock : Dav σ ρ Unit) t = (.ok (), hold .rd t) :=
  rdlock_apply (by rw [h]; rfl)

/-- A thread that holds the lock for writing waits for itself. -/
theorem rdlock_stuck {t : Thread (Mem σ)} (h : t.mem.held.contains .wr = true) :
    (rdlock : Dav σ ρ Unit) t = (.error .fault, t) := by
  rw [rdlock, Ctl.bind_ok (Ctl.gets_apply _ t), h]
  rfl

theorem wrlock_apply {t : Thread (Mem σ)} (h : t.mem.held = []) :
    (wrlock : Dav σ ρ Unit) t = (.ok (), hold .wr t) := by
  rw [wrlock, Ctl.bind_ok (Ctl.gets_apply _ t), h]
  rfl

/-- A thread that holds the lock waits for itself. -/
theorem wrlock_stuck {t : Thread (Mem σ)} (h : t.mem.held ≠ []) :
    (wrlock : Dav σ ρ Unit) t = (.error .fault, t) := by
  obtain ⟨mode, held, hh⟩ := List.exists_cons_of_ne_nil h
  rw [wrlock, Ctl.bind_ok (Ctl.gets_apply _ t), hh]
  rfl

theorem unlock_apply {t : Thread (Mem σ)} {mode : RwMode} {held : List RwMode}
    (h : t.mem.held = mode :: held) : (unlock : Dav σ ρ Unit) t = (.ok (), release t) := by
  simp [unlock, Ctl.bind_apply, h, release]

/-! ## `synchronized` -/

section Synchronized

variable {action : Dav σ ρ Unit} {mode : RwMode} {m : Dav σ ρ α} {held : List RwMode}
  {t t' : Thread (Mem σ)} (haction : action t = (.ok (), hold mode t))

include haction

theorem synchronized_ok {a : α} (hm : m (hold mode t) = (.ok a, t'))
    (hheld : t'.mem.held = mode :: held) : synchronized action m t = (.ok (some a), release t') :=
  withTest_ok haction rfl hm (unlock_apply hheld)

theorem synchronized_brk (hm : m (hold mode t) = (.error .brk, t'))
    (hheld : t'.mem.held = mode :: held) : synchronized action m t = (.ok none, release t') :=
  withTest_brk haction rfl hm (unlock_apply hheld)

omit haction in
/-- A `synchronized` that does not get its lock. -/
theorem synchronized_stuck (haction : action t = (.error .fault, t')) :
    synchronized action m t = (.error .fault, t') := by
  rw [synchronized, withTest, Ctl.bind_error (Ctl.doOnce_fault haction)]

end Synchronized

/-- `t` after `d` was added to the count of the entry of `path`. -/
def counted (path : Path) (d : ℤ) (t : Thread (Mem σ)) : Thread (Mem σ) :=
  { t with mem := { t.mem with table := addCnt path d t.mem.table } }

@[simp] theorem counted_ex (path : Path) (d : ℤ) (t : Thread (Mem σ)) :
    (counted path d t).ex = t.ex := rfl

@[simp] theorem counted_env (path : Path) (d : ℤ) (t : Thread (Mem σ)) :
    (counted path d t).mem.env = t.mem.env := rfl

/-- The read section of `dav_lock`. -/
theorem lockFind_synchronized (path : Path) {t : Thread (Mem σ)}
    (hheld : t.mem.held.contains .wr = false) :
    (synchronized rdlock (lockFind path) : Dav σ ρ (Option Bool)) t =
      (.ok (some (tfind path t.mem.table).isSome),
        if (tfind path t.mem.table).isSome then counted path 1 t else t) := by
  cases hf : tfind path t.mem.table with
  | none =>
    have hfind : (lockFind path : Dav σ ρ Bool) (hold .rd t) = (.ok false, hold .rd t) := by
      simp [lockFind, Ctl.bind_apply, hf]
    exact synchronized_ok (rdlock_apply hheld) hfind rfl
  | some e =>
    have hfind : (lockFind path : Dav σ ρ Bool) (hold .rd t) =
        (.ok true, hold .rd (counted path 1 t)) := by
      simp [lockFind, Ctl.bind_apply, Ctl.map_apply, hf]
      rfl
    exact synchronized_ok (rdlock_apply hheld) hfind rfl

/-! ## Entering a `with` -/

/-- A `with` without cleanup, entered, is a `do_once`. -/
theorem withSeperated_entered {β : Type} {init : Dav σ ρ β} {body : β → Dav σ ρ α} {b : β}
    {t t₁ : Thread (Mem σ)} (hinit : init t = (.ok b, t₁)) (h : t₁.ex.has = false) :
    withSeperated init (fun _ => pure ()) body t = Ctl.doOnce (body b) t₁ := by
  have hc : (!t₁.ex.has) = true := by simp [h]
  rcases hb : body b t₁ with ⟨(_ | v | _) | a, t₂⟩
  · rw [Ctl.doOnce_brk hb]
    exact withTest_brk hinit hc hb rfl
  · rw [Ctl.doOnce_ret hb]
    simp [withSeperated, withTest, reflowBody, Ctl.bind_apply, Ctl.doOnce_ok hinit, hc,
      Ctl.doOnce_ret hb]
  · rw [Ctl.doOnce_fault hb]
    exact withTest_fault hinit hc hb
  · rw [Ctl.doOnce_ok hb]
    exact withTest_ok hinit hc hb rfl

theorem withBuffer_clean {body : Dav σ ρ α} {t : Thread (Mem σ)} (h : t.ex.has = false) :
    withBuffer body t = Ctl.doOnce body t :=
  withSeperated_entered (Ctl.pure_apply () t) h

theorem withBuffer_pending {body : Dav σ ρ α} {t : Thread (Mem σ)} (h : t.ex.has = true) :
    withBuffer body t = (.ok none, t) :=
  withTest_skip rfl (by simp [h]) rfl

theorem withCurl_entered {options : Opts} {path : Path} {body : Dav σ ρ α} {t : Thread (Mem σ)}
    (h : t.ex.has = false) (hp : (initAttempt env options path t.mem.env).1 = true) :
    withCurl env options path body t =
      Ctl.doOnce body (atEnv t (initAttempt env options path t.mem.env).2) :=
  withSeperated_entered (((raises_curlEasyInitCommon env options path) t h).1 hp) h

theorem withCurl_failed {options : Opts} {path : Path} (body : Dav σ ρ α) {t : Thread (Mem σ)}
    (h : t.ex.has = false) (hp : (initAttempt env options path t.mem.env).1 = false) :
    ∃ e, withCurl env options path body t =
      (.ok none, raised (atEnv t (initAttempt env options path t.mem.env).2) e) := by
  obtain ⟨_, e, hi⟩ := ((raises_curlEasyInitCommon (ρ := ρ) env options path) t h).2 hp
  exact ⟨e, withTest_skip hi (by simp) rfl⟩

/-- What `curl_easy_init_common` leaves when an exception was pending: it asks for a handle and
    for a copy of the base URL before it looks, and a failure of either replaces the exception. -/
def initPending (t : Thread (Mem σ)) : Thread (Mem σ) :=
  let handle := env.alloc .handle t.mem.env
  if handle.1 then
    let dup := env.alloc .urlDup handle.2
    if dup.1 then atEnv t dup.2 else raised (atEnv t dup.2) (.curlUrl 0 .dup)
  else raised (atEnv t handle.2) (.curl .ok 0 .init)

theorem initPending_no_handle {t : Thread (Mem σ)}
    (hh : (env.alloc .handle t.mem.env).1 = false) :
    initPending env t = raised (atEnv t (env.alloc .handle t.mem.env).2) (.curl .ok 0 .init) := by
  simp [initPending, hh]

theorem initPending_no_dup {t : Thread (Mem σ)} (hh : (env.alloc .handle t.mem.env).1 = true)
    (hd : (env.alloc .urlDup (env.alloc .handle t.mem.env).2).1 = false) :
    initPending env t = raised (atEnv t (env.alloc .urlDup (env.alloc .handle t.mem.env).2).2)
      (.curlUrl 0 .dup) := by
  simp [initPending, hh, hd]

theorem initPending_kept {t : Thread (Mem σ)} (hh : (env.alloc .handle t.mem.env).1 = true)
    (hd : (env.alloc .urlDup (env.alloc .handle t.mem.env).2).1 = true) :
    initPending env t = atEnv t (env.alloc .urlDup (env.alloc .handle t.mem.env).2).2 := by
  simp [initPending, hh, hd]

/-- It changes the outside, and at most the exception. -/
theorem initPending_mem (t : Thread (Mem σ)) :
    ∃ s, (initPending env t).mem = (atEnv t s).mem := by
  unfold initPending
  dsimp only
  split_ifs
  · exact ⟨_, rfl⟩
  · exact ⟨_, rfl⟩
  · exact ⟨_, rfl⟩

theorem initPending_has {t : Thread (Mem σ)} (h : t.ex.has = true) :
    (initPending env t).ex.has = true := by
  unfold initPending
  dsimp only
  split_ifs
  · exact h
  · rfl
  · rfl

theorem initBody_pending (options : Opts) (path : Path) {t : Thread (Mem σ)}
    (h : t.ex.has = true) :
    (initBody env options path : Dav σ ρ Unit) t = (.error .brk, initPending env t) := by
  cases hh : (env.alloc .handle t.mem.env).1 with
  | false => simp [initBody, Ctl.bind_apply, hh, initPending_no_handle env hh, raised]
  | true =>
    have hdup : (curlUrlDupE env : Dav σ ρ Unit) (atEnv t (env.alloc .handle t.mem.env).2) =
        (.ok (), initPending env t) := by
      cases hd : (env.alloc .urlDup (env.alloc .handle t.mem.env).2).1 with
      | true =>
        rw [initPending_kept env hh hd, curlUrlDupE, Ctl.bind_ok (outside_apply _ _)]
        exact (congrFun (if_pos hd) _).trans rfl
      | false =>
        rw [initPending_no_dup env hh hd, curlUrlDupE, Ctl.bind_ok (outside_apply _ _)]
        exact (congrFun (if_neg (by simpa using hd)) _).trans rfl
    -- the scope over the URL is skipped, and the check after it breaks
    have hs : (initUrl env path : Dav σ ρ (Option Unit)) (atEnv t (env.alloc .handle t.mem.env).2) =
        (.ok none, initPending env t) :=
      withTest_skip hdup (by simp [initPending_has env h]) rfl
    simp only [initBody, Ctl.bind_apply, outside_apply, hh, conditionThrow_true, Ctl.pure_apply]
    rw [throwable_pending hs (initPending_has env h)]

theorem curlEasyInitCommon_pending (options : Opts) (path : Path) {t : Thread (Mem σ)}
    (h : t.ex.has = true) :
    (curlEasyInitCommon env options path : Dav σ ρ Unit) t = (.ok (), initPending env t) := by
  have htry : tryCatch (initBody env options path : Dav σ ρ Unit) [onerror (pure ())] t =
      (.ok none, initPending env t) :=
    tryCatch_onerror (initBody_pending env options path h) (initPending_has env h) rfl
  rw [curlEasyInitCommon, Ctl.bind_ok htry]
  rfl

/-- The body is skipped. -/
theorem withCurl_skipped {options : Opts} {path : Path} (body : Dav σ ρ α) {t : Thread (Mem σ)}
    (h : t.ex.has = true) :
    withCurl env options path body t = (.ok none, initPending env t) :=
  withTest_skip (curlEasyInitCommon_pending env options path h)
    (by simp [initPending_has env h]) rfl

theorem withCurl_pending {options : Opts} {path : Path} (body : Dav σ ρ α) {t : Thread (Mem σ)}
    (h : t.ex.has = true) : ∃ s e, e.has = true ∧
      withCurl env options path body t = (.ok none, ⟨e, (atEnv t s).mem⟩) := by
  obtain ⟨s, hs⟩ := initPending_mem env t
  refine ⟨s, (initPending env t).ex, initPending_has env h, ?_⟩
  rw [withCurl_skipped env body h, ← hs]

/-! ## The `If` header -/

/-- The line `__dav_header_if` appends for `path`. -/
def ifLines (path : Path) (table : List FileLock) : List Header :=
  ((tfind path table).map fun e => Header.ifToken e.token).toList

/-- What `__dav_header_if` attempts. -/
def ifAttempt (path : Path) (table : List FileLock) : Attempt σ :=
  if (tfind path table).isSome then env.alloc .slist else .pass

/-- To delete an absent entry changes nothing. -/
theorem tdelete_of_absent {path : Path} {table : List FileLock} (h : tfind path table = none) :
    tdelete path table = table := by
  rw [tfind, List.find?_eq_none] at h
  exact List.eraseP_of_forall_not h

theorem headerIf_pass {list : List Header} {path : Path} (lockType : LockType)
    {t : Thread (Mem σ)} (h : t.ex.has = false)
    (hp : (ifAttempt env path t.mem.table t.mem.env).1 = true) :
    (throwable (davHeaderIf env list path lockType) : Dav σ ρ (List Header)) t =
      (.ok (list ++ ifLines path t.mem.table), unlisted path lockType
        (atEnv t (ifAttempt env path t.mem.table t.mem.env).2)) := by
  refine throwable_clean ?_ h
  cases hf : tfind path t.mem.table with
  | none => simp [davHeaderIf, Ctl.bind_apply, hf, ifLines, ifAttempt, unlisted,
      tdelete_of_absent hf, atEnv]
  | some e =>
    have hp' : (env.alloc .slist t.mem.env).1 = true := by simpa [ifAttempt, hf] using hp
    have ha := ((raises_curlSlistAppendE (ρ := ρ) env list (.ifToken e.token)) t h).1 hp'
    simp only [davHeaderIf, Ctl.bind_apply, Ctl.gets_apply, hf, headerIfFound, ha, ifLines,
      ifAttempt]
    cases lockType <;> simp [headerIfDelete, unlisted, Ctl.map_apply] <;> rfl

theorem headerIf_fail (list : List Header) {path : Path} (lockType : LockType)
    {t : Thread (Mem σ)} (hp : (ifAttempt env path t.mem.table t.mem.env).1 = false) :
    (throwable (davHeaderIf env list path lockType) : Dav σ ρ (List Header)) t =
      (.error .brk, raised (atEnv t (ifAttempt env path t.mem.table t.mem.env).2)
        (.curl .ok 0 .slistAppend)) := by
  cases hf : tfind path t.mem.table with
  | none => simp [ifAttempt, hf] at hp
  | some e =>
    have hp' : (env.alloc .slist t.mem.env).1 = false := by simpa [ifAttempt, hf] using hp
    refine throwable_pending (a := []) ?_ (by simp)
    simp [davHeaderIf, Ctl.bind_apply, Ctl.map_apply, hf, headerIfFound, curlSlistAppendE, hp',
      ifAttempt, raised]

/-! ## Sending the request -/

/-- The answer to `request` is not an error. -/
def performAttempt (request : Request) : Attempt σ := fun s =>
  ((env.perform request s).1.code == .ok, (env.perform request s).2)

/-- What `setAndPerform` attempts. -/
def sendAttempt (option : CurlOption) (request : Request) : Attempt σ :=
  (noError (env.setopt option)).andThen (performAttempt env request)

/-- `curl_easy_perform` and the check of its code. -/
def performChecked (request : Request) : Dav σ ρ Reply := do
  let reply ← curlEasyPerform env request
  performOrDie reply.code reply.status
  pure reply

theorem setAndPerform_eq (option : CurlOption) (request : Request) :
    (setAndPerform env option request : Dav σ ρ Reply) = (do
      curlEasySetoptOrDie env option
      performChecked env request) := rfl

theorem performChecked_ok {request : Request} {t : Thread (Mem σ)}
    (h : (env.perform request t.mem.env).1.code = .ok) :
    (performChecked env request : Dav σ ρ Reply) t = (.ok (env.perform request t.mem.env).1,
      logged request (atEnv t (env.perform request t.mem.env).2)) := by
  simp [performChecked, curlEasyPerform, Ctl.bind_apply, performOrDie, h, logged, atEnv]

theorem performChecked_error {request : Request} {t : Thread (Mem σ)}
    (h : (env.perform request t.mem.env).1.code ≠ .ok) :
    (performChecked env request : Dav σ ρ Reply) t = (.error .brk,
      raised (logged request (atEnv t (env.perform request t.mem.env).2))
        (.curl (env.perform request t.mem.env).1.code (env.perform request t.mem.env).1.status
          .perform)) := by
  have hb : ((env.perform request t.mem.env).1.code == .ok) = false := by simpa using h
  simp [performChecked, curlEasyPerform, Ctl.bind_apply, Ctl.map_apply, performOrDie, hb, logged,
    atEnv, raised]

theorem setAndPerform_pass {option : CurlOption} {request : Request} {t : Thread (Mem σ)}
    (h : t.ex.has = false) (hp : (sendAttempt env option request t.mem.env).1 = true) :
    ∃ reply, (setAndPerform env option request : Dav σ ρ Reply) t =
      (.ok reply, logged request (atEnv t (sendAttempt env option request t.mem.env).2)) := by
  rw [sendAttempt, Attempt.andThen_fst] at hp
  obtain ⟨hs, hq⟩ := hp
  have hq' : (env.perform request (noError (env.setopt option) t.mem.env).2).1.code = .ok := by
    simpa [performAttempt] using hq
  rw [setAndPerform_eq, Ctl.bind_ok ((breaks_curlEasySetoptOrDie env option t h).1 hs),
    performChecked_ok env hq', sendAttempt, Attempt.andThen_of_pass hs]
  exact ⟨_, rfl⟩

theorem setAndPerform_fail {option : CurlOption} {request : Request} {t : Thread (Mem σ)}
    (h : t.ex.has = false) (hp : (sendAttempt env option request t.mem.env).1 = false) :
    ∃ t', (setAndPerform env option request : Dav σ ρ Reply) t = (.error .brk, t') ∧
      t'.ex.has = true ∧ t'.mem.held = t.mem.held := by
  cases hs : (noError (env.setopt option) t.mem.env).1 with
  | false =>
    obtain ⟨e, he⟩ := (breaks_curlEasySetoptOrDie (ρ := ρ) env option t h).2 hs
    rw [setAndPerform_eq, Ctl.bind_error he]
    exact ⟨_, rfl, by simp, rfl⟩
  | true =>
    rw [sendAttempt, Attempt.andThen_of_pass hs] at hp
    have hq : (env.perform request (noError (env.setopt option) t.mem.env).2).1.code ≠ .ok := by
      simpa [performAttempt] using hp
    rw [setAndPerform_eq, Ctl.bind_ok ((breaks_curlEasySetoptOrDie env option t h).1 hs),
      performChecked_error env hq]
    exact ⟨_, rfl, by simp, rfl⟩

/-! ## Sequences of steps -/

/-- What steps that send a request do, when `passed` says whether all of them
    succeed: they fall through without an exception, or break with one. -/
def Goes (m : Dav σ ρ α) (t : Thread (Mem σ)) (passed : Bool) : Prop :=
  if passed then ∃ a t', m t = (.ok a, t') ∧ t'.ex.has = false ∧ t'.mem.held = t.mem.held
  else ∃ t', m t = (.error .brk, t') ∧ t'.ex.has = true ∧ t'.mem.held = t.mem.held

theorem Goes.brk {m : Dav σ ρ α} {t t' : Thread (Mem σ)} (h : m t = (.error .brk, t'))
    (hex : t'.ex.has = true) (hheld : t'.mem.held = t.mem.held) : Goes m t false :=
  ⟨t', h, hex, hheld⟩

/-- A step that falls through and leaves the holds alone, before the rest. -/
theorem Goes.step {β : Type} {m : Dav σ ρ α} {f : α → Dav σ ρ β} {a : α} {passed : Bool}
    {t t' : Thread (Mem σ)} (hm : m t = (.ok a, t')) (hheld : t'.mem.held = t.mem.held)
    (hf : Goes (f a) t' passed) : Goes (m >>= f) t passed := by
  unfold Goes at hf ⊢
  rw [Ctl.bind_ok hm, ← hheld]
  exact hf

/-- A step that makes the attempt `p`, before the rest. -/
theorem Goes.of_breaks {β : Type} {m : Dav σ ρ α} {f : α → Dav σ ρ β} {a : α} {p q : Attempt σ}
    (hm : Breaks m a p) {t : Thread (Mem σ)} (h : t.ex.has = false)
    (hf : ∀ s, Goes (f a) (atEnv t s) (q s).1) : Goes (m >>= f) t (p.andThen q t.mem.env).1 := by
  cases hp : (p t.mem.env).1 with
  | true =>
    rw [Attempt.andThen_of_pass hp]
    exact .step ((hm t h).1 hp) rfl (hf _)
  | false =>
    obtain ⟨e, he⟩ := (hm t h).2 hp
    rw [Attempt.andThen_of_fail hp, hp]
    exact .brk (Ctl.bind_error he) rfl rfl

/-- The `If` header, before the rest. -/
theorem Goes.headerIf {β : Type} {f : List Header → Dav σ ρ β} {list : List Header} {path : Path}
    {lockType : LockType} {q : Attempt σ} {t : Thread (Mem σ)} (h : t.ex.has = false)
    (hf : ∀ s, Goes (f (list ++ ifLines path t.mem.table)) (unlisted path lockType (atEnv t s))
      (q s).1) :
    Goes (throwable (davHeaderIf env list path lockType) >>= f) t
      ((ifAttempt env path t.mem.table).andThen q t.mem.env).1 := by
  cases hp : (ifAttempt env path t.mem.table t.mem.env).1 with
  | true =>
    rw [Attempt.andThen_of_pass hp]
    exact .step (headerIf_pass env lockType h hp) rfl (hf _)
  | false =>
    rw [Attempt.andThen_of_fail hp, hp]
    exact .brk (Ctl.bind_error (headerIf_fail env list lockType hp)) rfl rfl

theorem Goes.bind_unit {m : Dav σ ρ α} {t : Thread (Mem σ)} {passed : Bool} (h : Goes m t passed) :
    Goes (m >>= fun _ => pure ()) t passed := by
  cases passed with
  | true =>
    obtain ⟨a, t', hm, hex, hheld⟩ := h
    exact ⟨(), t', by rw [Ctl.bind_ok hm]; rfl, hex, hheld⟩
  | false =>
    obtain ⟨t', hm, hex, hheld⟩ := h
    exact .brk (Ctl.bind_error hm) hex hheld

theorem goes_performChecked (request : Request) (t : Thread (Mem σ)) (h : t.ex.has = false) :
    Goes (performChecked env request : Dav σ ρ Reply) t
      (performAttempt env request t.mem.env).1 := by
  cases hp : (performAttempt env request t.mem.env).1 with
  | true => exact ⟨_, _, performChecked_ok env (by simpa [performAttempt] using hp), h, rfl⟩
  | false =>
    exact .brk (performChecked_error env (by simpa [performAttempt] using hp)) rfl rfl

theorem goes_setAndPerform (option : CurlOption) (request : Request) (t : Thread (Mem σ))
    (h : t.ex.has = false) : Goes (setAndPerform env option request : Dav σ ρ Reply) t
      (sendAttempt env option request t.mem.env).1 :=
  Goes.of_breaks (breaks_curlEasySetoptOrDie env option) h fun s =>
    goes_performChecked env request (atEnv t s) h

/-- `throwable scope (curl_slist, list, line) body`. -/
theorem Goes.scopeList {line : Header} {body : List Header → Dav σ ρ α} {q : Attempt σ}
    {t : Thread (Mem σ)} (h : t.ex.has = false)
    (hb : ∀ s, Goes (body [line]) (atEnv t s) (q s).1) :
    Goes (throwable (scopeList env line body)) t ((env.alloc .slist).andThen q t.mem.env).1 := by
  have happend := raises_curlSlistAppendE (ρ := ρ) env [] line t h
  cases hp : (env.alloc .slist t.mem.env).1 with
  | true =>
    have henter : Dav.scopeList env line body t =
        Ctl.doOnce (body [line]) (atEnv t (env.alloc .slist t.mem.env).2) :=
      withSeperated_entered (happend.1 hp) h
    have hg := hb (env.alloc .slist t.mem.env).2
    rw [Attempt.andThen_of_pass hp]
    cases hq : (q (env.alloc .slist t.mem.env).2).1 with
    | true =>
      rw [hq] at hg
      obtain ⟨a, t', hm, hex, hheld⟩ := hg
      exact ⟨some a, t', throwable_clean (by rw [henter, Ctl.doOnce_ok hm]) hex, hex, hheld⟩
    | false =>
      rw [hq] at hg
      obtain ⟨t', hm, hex, hheld⟩ := hg
      exact .brk (throwable_pending (by rw [henter, Ctl.doOnce_brk hm]) hex) hex hheld
  | false =>
    obtain ⟨_, e, ha⟩ := happend.2 hp
    rw [Attempt.andThen_of_fail hp, hp]
    exact .brk (throwable_pending (withTest_skip ha rfl rfl) rfl) rfl rfl

/-- `with_curl`: it leaves an exception exactly when something failed. -/
theorem Goes.withCurl (options : Opts) (path : Path) {body : Dav σ ρ α} {q : Attempt σ}
    {t : Thread (Mem σ)} (h : t.ex.has = false) (hb : ∀ s, Goes body (atEnv t s) (q s).1) :
    ∃ u t', withCurl env options path body t = (.ok u, t') ∧
      t'.ex.has = !((initAttempt env options path).andThen q t.mem.env).1 := by
  cases hp : (initAttempt env options path t.mem.env).1 with
  | false =>
    obtain ⟨e, hw⟩ := withCurl_failed env body h hp
    exact ⟨none, _, hw, by rw [Attempt.andThen_of_fail hp, hp]; rfl⟩
  | true =>
    have hg := hb (initAttempt env options path t.mem.env).2
    rw [withCurl_entered env h hp, Attempt.andThen_of_pass hp]
    cases hq : (q (initAttempt env options path t.mem.env).2).1 with
    | true =>
      rw [hq] at hg
      obtain ⟨a, t', hm, hex, -⟩ := hg
      exact ⟨some a, t', Ctl.doOnce_ok hm, hex⟩
    | false =>
      rw [hq] at hg
      obtain ⟨t', hm, hex, -⟩ := hg
      exact ⟨none, t', Ctl.doOnce_brk hm, hex⟩

/-! ## The count of `dav_get` -/

/-- `dav_get`, entered without an exception: `-1` if it left one, and otherwise the
    number of bytes stored as an `int`; the array has what was stored. -/
theorem davGet_eq {path : Path} {data : Bytes} {offset : ℤ} {t t₁ : Thread (Mem σ)}
    {buf : Option Buffer} (h : t.ex.has = false)
    (hw : (withCurl env srv.options path (getBody env path data offset) : Dav σ ρ _) t =
      (.ok buf, t₁)) :
    (davGet env srv path data offset : Dav σ ρ (ℤ × Bytes)) t =
      (.ok (if t₁.ex.has then -1 else toInt (buf.getD ⟨data, 0⟩).offset,
        (buf.getD ⟨data, 0⟩).data), t₁) := by
  simp [davGet, Ctl.bind_apply, Ctl.map_apply, withBuffer_clean h, Ctl.doOnce, hw]

/-! ## An outside to run on -/

/-- An outside where nothing fails and every request gets the same reply. -/
def answering (reply : Reply) : Env Unit where
  alloc _ := .pass
  urlSet _ _ := (none, ())
  urlGet _ := (none, ())
  setopt _ _ := (none, ())
  perform _ _ := (reply, ())
  unescape s _ := (some s, ())
  strptime _ _ _ := none
  stackByte _ _ := 0
  stackStat _ := ⟨0, 0, 0, 0, 0, 0, 0, 0, 0⟩
  stackInt _ := 0

/-- An outside where only requests can fail, and `perform` answers them. -/
def serving (perform : Request → σ → Reply × σ) : Env σ where
  alloc _ := .pass
  urlSet _ s := (none, s)
  urlGet s := (none, s)
  setopt _ s := (none, s)
  perform := perform
  unescape text s := (some text, s)
  strptime _ _ _ := none
  stackByte _ _ := 0
  stackStat _ := ⟨0, 0, 0, 0, 0, 0, 0, 0, 0⟩
  stackInt _ := 0

/-- A reply with a status and nothing else; from 400 on it is an error. -/
def plainReply (status : ℕ) : Reply where
  code := if status < 400 then .ok else .httpReturnedError
  status := status
  headers := []
  chunks := []
  effectiveUrl := []
  xml := none

/-- Options with `use_lock` and nothing else that matters. -/
def lockingOpts : Opts := ⟨true, 0, 0, 0, 0, false, false, false, false, false, false, false, false,
  false, false, false, false⟩

/-- A server with every method, mounted with `use_lock`. -/
def lockingServer : DavServer := ⟨lockingOpts, true, true, true⟩

/-- A thread that has done nothing yet. -/
def idle (s : σ) : Thread (Mem σ) :=
  ⟨.clear, ⟨[], [], none, [], ⟨0, 0, 0, 0, 0, 0, 0, 0, 0⟩, [], s⟩⟩

end NetworkFs.Dav
