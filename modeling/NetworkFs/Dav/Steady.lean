import NetworkFs.Dav.LockBalance

/-!
# When only requests fail

`Steady env`: allocations, URLs and options succeed. What a method then does is
decided by the reply to its one request, and by the lock if `use_lock` is set. For
each method one lemma gives its result and the state it leaves.

* `davHead_ok`, `davHead_failed`
* `davMethod_ok`, `davMethod_failed`, `davMethod_stuck`
* `davPut_ok`, `davPut_failed`
* `davCopy_ok`
* `davProppatch_ok`, `davProppatch_failed`
* `davGet_ok`, `davGet_failed`
-/

namespace NetworkFs.Dav

open Control Grammar Wrapper Text

variable {σ ρ α : Type}

/-- Only requests can fail. -/
structure Steady (env : Env σ) : Prop where
  alloc : ∀ a, env.alloc a = .pass
  urlSet : ∀ path s, env.urlSet path s = (none, s)
  urlGet : ∀ s, env.urlGet s = (none, s)
  setopt : ∀ option s, env.setopt option s = (none, s)

/-- `env` with allocations, URLs and options that succeed; the server changes only by
    requests. -/
def steady (env : Env σ) : Env σ :=
  { env with
    alloc := fun _ => .pass
    urlSet := fun _ s => (none, s)
    urlGet := fun s => (none, s)
    setopt := fun _ s => (none, s)
    unescape := fun text s => ((env.unescape text s).1, s) }

theorem steady_steady (env : Env σ) : Steady (steady env) :=
  ⟨fun _ => rfl, fun _ _ => rfl, fun _ => rfl, fun _ _ => rfl⟩

theorem steady_serving (serve : Request → σ → Reply × σ) : Steady (serving serve) :=
  ⟨fun _ => rfl, fun _ _ => rfl, fun _ => rfl, fun _ _ => rfl⟩

variable {env : Env σ} (srv : DavServer)

/-! ## The attempts -/

section Attempts

variable (hs : Steady env)

include hs

theorem Steady.noError_setopt (option : CurlOption) : noError (env.setopt option) = .pass := by
  funext s
  simp [noError, hs.setopt]

theorem Steady.noError_urlSet (path : Path) : noError (env.urlSet path) = .pass := by
  funext s
  simp [noError, hs.urlSet]

theorem Steady.noError_urlGet : noError env.urlGet = .pass := by
  funext s
  simp [noError, hs.urlGet]

theorem Steady.setOptionsAttempt (os : List CurlOption) : setOptionsAttempt env os = .pass := by
  induction os with
  | nil => rfl
  | cons o os ih =>
    show (noError (env.setopt o)).andThen (Wrapper.setOptionsAttempt env os) = .pass
    rw [ih, hs.noError_setopt]
    rfl

theorem Steady.initAttempt (options : Opts) (path : Path) : initAttempt env options path = .pass := by
  rw [Wrapper.initAttempt, hs.alloc, hs.alloc, hs.noError_urlGet, hs.noError_setopt,
    hs.setOptionsAttempt, setPathAttempt]
  split_ifs
  · rfl
  · rw [hs.noError_urlSet]
    rfl

theorem Steady.ifAttempt (path : Path) (table : List FileLock) : ifAttempt env path table = .pass := by
  unfold Dav.ifAttempt
  split_ifs
  · exact hs.alloc _
  · rfl

theorem Steady.destinationAttempt (path : Path) : destinationAttempt env path = .pass := by
  rw [Dav.destinationAttempt, hs.alloc, hs.alloc, hs.noError_urlSet, hs.noError_urlGet]
  rfl

theorem Steady.withCurl (options : Opts) (path : Path) {body : Dav σ ρ α} {t : Thread (Mem σ)}
    (h : t.ex.has = false) : withCurl env options path body t = Ctl.doOnce body t := by
  have hi := hs.initAttempt options path
  rw [withCurl_entered env h (by rw [hi]; rfl), hi]
  rfl

/-- With an exception pending nothing is done. -/
theorem Steady.withCurl_pending (options : Opts) (path : Path) (body : Dav σ ρ α)
    {t : Thread (Mem σ)} (h : t.ex.has = true) :
    Wrapper.withCurl env options path body t = (.ok none, t) := by
  have hkept : initPending env t = t := by
    rw [initPending_kept env (by rw [hs.alloc]; rfl) (by rw [hs.alloc, hs.alloc]; rfl), hs.alloc,
      hs.alloc]
    rfl
  rw [withCurl_skipped env body h, hkept]

theorem Steady.headerIf (list : List Header) (path : Path) (lockType : LockType)
    {t : Thread (Mem σ)} (h : t.ex.has = false) :
    (throwable (davHeaderIf env list path lockType) : Dav σ ρ (List Header)) t =
      (.ok (list ++ ifLines path t.mem.table), unlisted path lockType t) := by
  have hi := hs.ifAttempt path t.mem.table
  rw [headerIf_pass env lockType h (by rw [hi]; rfl), hi]
  rfl

theorem Steady.setAndPerform (option : CurlOption) (request : Request) {t : Thread (Mem σ)}
    (h : t.ex.has = false) : (setAndPerform env option request : Dav σ ρ Reply) t =
      performChecked env request t := by
  have hset := (breaks_curlEasySetoptOrDie (ρ := ρ) env option t h).1 (by rw [hs.noError_setopt]; rfl)
  rw [setAndPerform_eq, Ctl.bind_ok hset, hs.noError_setopt]
  rfl

end Attempts

/-! ## One request -/

section Request

variable (env)

/-- `t` after `request` was sent and answered. -/
def answered (request : Request) (t : Thread (Mem σ)) : Thread (Mem σ) :=
  logged request (atEnv t (env.perform request t.mem.env).2)

/-- `t` with the exception of a request that was answered with `reply`. -/
def refused (reply : Reply) (t : Thread (Mem σ)) : Thread (Mem σ) :=
  raised t (.curl reply.code reply.status .perform)

end Request

@[simp] theorem answered_ex (request : Request) (t : Thread (Mem σ)) :
    (answered env request t).ex = t.ex := rfl

@[simp] theorem answered_env (request : Request) (t : Thread (Mem σ)) :
    (answered env request t).mem.env = (env.perform request t.mem.env).2 := rfl

@[simp] theorem answered_table (request : Request) (t : Thread (Mem σ)) :
    (answered env request t).mem.table = t.mem.table := rfl

@[simp] theorem answered_held (request : Request) (t : Thread (Mem σ)) :
    (answered env request t).mem.held = t.mem.held := rfl

@[simp] theorem answered_sent (request : Request) (t : Thread (Mem σ)) :
    (answered env request t).mem.sent = t.mem.sent ++ [request] := rfl

@[simp] theorem refused_ex (reply : Reply) (t : Thread (Mem σ)) :
    (refused reply t).ex = .init (.curl reply.code reply.status .perform) := rfl

@[simp] theorem refused_mem (reply : Reply) (t : Thread (Mem σ)) : (refused reply t).mem = t.mem := rfl

@[simp] theorem unlisted_read (path : Path) (t : Thread (Mem σ)) : unlisted path .read t = t := rfl

theorem davExceptionCheck_clean (res : ℤ) {t : Thread (Mem σ)} (h : t.ex.has = false) :
    (davExceptionCheck res : Dav σ ρ ℤ) t = (.ok res, t) := by
  rw [davExceptionCheck, Ctl.bind_ok (Ctl.gets_apply _ t), h]
  rfl

theorem davExceptionCheck_pending (res : ℤ) {t : Thread (Mem σ)} (h : t.ex.has = true) :
    (davExceptionCheck res : Dav σ ρ ℤ) t = (.ok (exceptionErrno t.ex), ⟨.clear, t.mem⟩) := by
  rw [davExceptionCheck, Ctl.bind_ok (Ctl.gets_apply _ t), h]
  rfl

/-! ## `dav_head` -/

/-- The request of `dav_head`. -/
def headRequest (path : Path) : Request := ⟨.head, path, [], none, .none⟩

/-- The length that the reply to a `HEAD` gives. -/
def headLength (reply : Reply) : ℕ := reply.headers.foldl davHeadCallback 0

section Methods

variable (hs : Steady env) {path : Path} {t : Thread (Mem σ)} (h : t.ex.has = false)

include hs h

theorem davHead_ok (hc : (env.perform (headRequest path) t.mem.env).1.code = .ok) :
    (davHead env srv path : Dav σ ρ (ℤ × ℕ)) t =
      (.ok (0, (env.perform (headRequest path) t.mem.env).1.headers.foldl davHeadCallback 0),
        answered env (headRequest path) t) := by
  have hex : (answered env (headRequest path) t).ex.has = false := h
  have hbody : (do
      let reply ← setAndPerform env .customrequest (headRequest path)
      pure (reply.headers.foldl davHeadCallback 0) : Dav σ ρ ℕ) t =
      (.ok ((env.perform (headRequest path) t.mem.env).1.headers.foldl davHeadCallback 0),
        answered env (headRequest path) t) := by
    rw [Ctl.bind_apply, hs.setAndPerform _ _ h, performChecked_ok env hc]
    rfl
  have hwith := (hs.withCurl srv.options path h).trans (Ctl.doOnce_ok hbody)
  refine (Ctl.bind_ok hwith).trans ?_
  rw [Ctl.bind_ok (testSuccess_apply _), hex]
  rfl

omit h in
theorem davHead_pending (h : t.ex.has = true) :
    (davHead env srv path : Dav σ ρ (ℤ × ℕ)) t = (.ok (1, 0), t) := by
  have hwith := hs.withCurl_pending srv.options path (do
    let reply ← setAndPerform env .customrequest (headRequest path)
    pure (reply.headers.foldl davHeadCallback 0) : Dav σ ρ ℕ) h
  refine (Ctl.bind_ok hwith).trans ?_
  rw [Ctl.bind_ok (testSuccess_apply _), h]
  rfl

theorem davHead_failed (hc : (env.perform (headRequest path) t.mem.env).1.code ≠ .ok) :
    (davHead env srv path : Dav σ ρ (ℤ × ℕ)) t =
      (.ok (1, 0), refused (env.perform (headRequest path) t.mem.env).1
        (answered env (headRequest path) t)) := by
  have hbody : (do
      let reply ← setAndPerform env .customrequest (headRequest path)
      pure (reply.headers.foldl davHeadCallback 0) : Dav σ ρ ℕ) t =
      (.error .brk, refused (env.perform (headRequest path) t.mem.env).1
        (answered env (headRequest path) t)) := by
    rw [Ctl.bind_apply, hs.setAndPerform _ _ h, performChecked_error env hc]
    rfl
  have hwith := (hs.withCurl srv.options path h).trans (Ctl.doOnce_brk hbody)
  refine (Ctl.bind_ok hwith).trans ?_
  rw [Ctl.bind_ok (testSuccess_apply _)]
  rfl

end Methods

/-! ## The lock -/

/-- How `lockType` is taken. -/
def lockMode (lockType : LockType) : RwMode := if lockType = .write then .wr else .rd

/-- The thread does not wait for itself when it asks for `lockType`. -/
def CanLock (lockType : LockType) (t : Thread (Mem σ)) : Prop :=
  usesLock srv lockType = true →
    if lockType = .write then t.mem.held = [] else t.mem.held.contains .wr = false

/-- `t` with the lock taken, if it is. -/
def locked (lockType : LockType) (t : Thread (Mem σ)) : Thread (Mem σ) :=
  if usesLock srv lockType then hold (lockMode lockType) t else t

/-- `t` after the `If` header was built, if it was. -/
def listed (path : Path) (lockType : LockType) (t : Thread (Mem σ)) : Thread (Mem σ) :=
  if usesLock srv lockType then unlisted path lockType t else t

/-- The `If` header, if it is built. -/
def lockLines (path : Path) (lockType : LockType) (table : List FileLock) : List Header :=
  if usesLock srv lockType then ifLines path table else []

@[simp] theorem locked_ex (lockType : LockType) (t : Thread (Mem σ)) :
    (locked srv lockType t).ex = t.ex := by
  unfold locked
  split_ifs <;> rfl

@[simp] theorem locked_env (lockType : LockType) (t : Thread (Mem σ)) :
    (locked srv lockType t).mem.env = t.mem.env := by
  unfold locked
  split_ifs <;> rfl

@[simp] theorem locked_sent (lockType : LockType) (t : Thread (Mem σ)) :
    (locked srv lockType t).mem.sent = t.mem.sent := by
  unfold locked
  split_ifs <;> rfl

@[simp] theorem locked_table (lockType : LockType) (t : Thread (Mem σ)) :
    (locked srv lockType t).mem.table = t.mem.table := by
  unfold locked
  split_ifs <;> rfl

@[simp] theorem listed_ex (path : Path) (lockType : LockType) (t : Thread (Mem σ)) :
    (listed srv path lockType t).ex = t.ex := by
  unfold listed
  split_ifs <;> rfl

@[simp] theorem listed_env (path : Path) (lockType : LockType) (t : Thread (Mem σ)) :
    (listed srv path lockType t).mem.env = t.mem.env := by
  unfold listed
  split_ifs <;> rfl

@[simp] theorem listed_held (path : Path) (lockType : LockType) (t : Thread (Mem σ)) :
    (listed srv path lockType t).mem.held = t.mem.held := by
  unfold listed
  split_ifs <;> rfl

@[simp] theorem listed_sent (path : Path) (lockType : LockType) (t : Thread (Mem σ)) :
    (listed srv path lockType t).mem.sent = t.mem.sent := by
  unfold listed
  split_ifs <;> rfl

@[simp] theorem listed_read (path : Path) (t : Thread (Mem σ)) : listed srv path .read t = t := by
  unfold listed
  split_ifs <;> rfl

theorem acquire_apply {lockType : LockType} {t : Thread (Mem σ)} (hl : CanLock srv lockType t) :
    (acquire srv lockType : Dav σ ρ Unit) t = (.ok (), locked srv lockType t) := by
  unfold acquire locked
  unfold CanLock at hl
  cases hu : usesLock srv lockType with
  | false => rfl
  | true =>
    cases lockType with
    | none => simp [usesLock] at hu
    | read => exact rdlock_apply (hl hu)
    | write => exact wrlock_apply (hl hu)

/-- Releasing what `locked` took. -/
theorem unlockIf_locked (lockType : LockType) (t : Thread (Mem σ)) :
    (unlockIf (usesLock srv lockType) : Dav σ ρ Unit) (locked srv lockType t) = (.ok (), t) := by
  unfold unlockIf locked
  cases hu : usesLock srv lockType with
  | false => rfl
  | true => exact unlock_apply rfl

variable (env) in
/-- The lock and what is done under it commute. -/
theorem answered_locked (request : Request) (path : Path) (lockType : LockType)
    (t : Thread (Mem σ)) :
    answered env request (listed srv path lockType (locked srv lockType t)) =
      locked srv lockType (answered env request (listed srv path lockType t)) := by
  unfold listed locked
  split_ifs <;> rfl

/-! ## `__dav_method` -/

/-- The request of `__dav_method`. -/
def methodRequest (path : Path) (method : Method) (lockType : LockType) (table : List FileLock) :
    Request :=
  ⟨method, path, lockLines srv path lockType table, none, .none⟩

section Methods

variable (hs : Steady env) {t : Thread (Mem σ)} (h : t.ex.has = false) (path : Path)

include hs h

theorem headerIfWhen_apply (lockType : LockType) :
    (headerIfWhen env (usesLock srv lockType) [] path lockType : Dav σ ρ (List Header)) t =
      (.ok (lockLines srv path lockType t.mem.table), listed srv path lockType t) := by
  unfold headerIfWhen lockLines listed
  cases hu : usesLock srv lockType with
  | false => rfl
  | true => exact hs.headerIf [] path lockType h

/-- The section of `__dav_method` under the lock is its request. -/
theorem methodScope_apply (method : Method) (lockType : LockType) :
    (methodScope env srv path method lockType : Dav σ ρ (Option Unit)) t =
      Ctl.doOnce (do
        let _ ← performChecked env (methodRequest srv path method lockType t.mem.table))
        (listed srv path lockType t) := by
  have hclean : (listed srv path lockType t).ex.has = false := by rw [listed_ex]; exact h
  rw [methodScope, withBuffer_clean h]
  unfold Ctl.doOnce
  rw [Ctl.bind_ok (headerIfWhen_apply srv hs h path lockType), Ctl.bind_apply, hs.setAndPerform _ _ hclean]
  rfl

theorem davMethod_ok (method : Method) {lockType : LockType} (hl : CanLock srv lockType t)
    (hc : (env.perform (methodRequest srv path method lockType t.mem.table) t.mem.env).1.code = .ok) :
    (davMethod env srv path method lockType : Dav σ ρ ℤ) t =
      (.ok 0, answered env (methodRequest srv path method lockType t.mem.table)
        (listed srv path lockType t)) := by
  set request := methodRequest srv path method lockType t.mem.table with hrequest
  have hclean : (locked srv lockType t).ex.has = false := by rw [locked_ex]; exact h
  have hscope : (methodScope env srv path method lockType : Dav σ ρ (Option Unit))
      (locked srv lockType t) =
      (.ok (some ()), locked srv lockType (answered env request (listed srv path lockType t))) := by
    rw [methodScope_apply srv hs hclean path, locked_table, ← hrequest, ← answered_locked]
    refine Ctl.doOnce_ok ?_
    rw [Ctl.bind_ok (performChecked_ok env (by simpa using hc))]
    rfl
  have hbody : (do
      acquire srv lockType
      let _ ← throwable (methodScope env srv path method lockType)
      unlockIf (usesLock srv lockType) : Dav σ ρ Unit) t =
      (.ok (), answered env request (listed srv path lockType t)) := by
    rw [Ctl.bind_ok (acquire_apply srv hl),
      Ctl.bind_ok (throwable_clean hscope (by simpa using h)), unlockIf_locked]
  have hwith := (hs.withCurl srv.options path h).trans (Ctl.doOnce_ok hbody)
  rw [davMethod, Ctl.bind_ok hwith, testSuccess_apply]
  simp [h]

/-- A request that fails leaves the lock taken. -/
theorem davMethod_failed (method : Method) {lockType : LockType} (hl : CanLock srv lockType t)
    (hc : (env.perform (methodRequest srv path method lockType t.mem.table) t.mem.env).1.code ≠ .ok) :
    (davMethod env srv path method lockType : Dav σ ρ ℤ) t =
      (.ok 1, refused (env.perform (methodRequest srv path method lockType t.mem.table) t.mem.env).1
        (locked srv lockType (answered env (methodRequest srv path method lockType t.mem.table)
          (listed srv path lockType t)))) := by
  set request := methodRequest srv path method lockType t.mem.table with hrequest
  have hclean : (locked srv lockType t).ex.has = false := by rw [locked_ex]; exact h
  have hscope : (methodScope env srv path method lockType : Dav σ ρ (Option Unit))
      (locked srv lockType t) = (.ok none, refused (env.perform request t.mem.env).1
        (locked srv lockType (answered env request (listed srv path lockType t)))) := by
    rw [methodScope_apply srv hs hclean path, locked_table, ← hrequest, ← answered_locked]
    refine Ctl.doOnce_brk ?_
    rw [Ctl.bind_error (performChecked_error env (by simpa using hc))]
    simp [refused, answered]
  have hbody : (do
      acquire srv lockType
      let _ ← throwable (methodScope env srv path method lockType)
      unlockIf (usesLock srv lockType) : Dav σ ρ Unit) t =
      (.error .brk, refused (env.perform request t.mem.env).1
        (locked srv lockType (answered env request (listed srv path lockType t)))) := by
    rw [Ctl.bind_ok (acquire_apply srv hl), Ctl.bind_error (throwable_pending hscope (by simp))]
  have hwith := (hs.withCurl srv.options path h).trans (Ctl.doOnce_brk hbody)
  rw [davMethod, Ctl.bind_ok hwith, testSuccess_apply]
  simp

/-- A thread that still holds the lock waits for itself. -/
theorem davMethod_stuck (method : Method) (hu : srv.options.useLock = true)
    (hheld : t.mem.held ≠ []) :
    (davMethod env srv path method .write : Dav σ ρ ℤ) t = (.error .fault, t) := by
  have hacquire : (acquire srv .write : Dav σ ρ Unit) t = (.error .fault, t) := by
    rw [acquire, if_pos (by simp [usesLock, hu])]
    exact wrlock_stuck hheld
  have hwith : (withCurl env srv.options path (do
      acquire srv .write
      let _ ← throwable (methodScope env srv path method .write)
      unlockIf (usesLock srv .write)) : Dav σ ρ (Option Unit)) t = (.error .fault, t) :=
    (hs.withCurl srv.options path h).trans (Ctl.doOnce_fault (Ctl.bind_error hacquire))
  rw [davMethod, Ctl.bind_error hwith]

end Methods

/-! ## `dav_put` -/

/-- The request of `dav_put`. -/
def putRequest (path : Path) (data : Bytes) (offset : ℤ) (table : List FileLock) : Request :=
  ⟨.put, path, lockLines srv path .read table, some ⟨offset, data.length⟩, .data data⟩

@[simp] theorem usesLock_read : usesLock srv .read = srv.options.useLock := by
  simp [usesLock]

section Put

variable (hs : Steady env) {path : Path} {t : Thread (Mem σ)} (h : t.ex.has = false)
  (hl : CanLock srv .read t)

include hs h hl

theorem rdlockHeaderIf_apply (list : List Header) :
    (rdlockHeaderIf env srv list path : Dav σ ρ (List Header)) t =
      (.ok (list ++ lockLines srv path .read t.mem.table), locked srv .read t) := by
  unfold rdlockHeaderIf lockLines
  rw [usesLock_read]
  cases hu : srv.options.useLock with
  | false =>
    have hlocked : locked srv .read t = t := by simp [locked, hu]
    simp [hlocked]
  | true =>
    have hacquire : (rdlock : Dav σ ρ Unit) t = (.ok (), locked srv .read t) := by
      rw [locked, usesLock_read, hu]
      exact rdlock_apply (hl (by rw [usesLock_read, hu]))
    have hclean : (locked srv .read t).ex.has = false := by rw [locked_ex]; exact h
    have hif := hs.headerIf (ρ := ρ) list path .read hclean
    rw [locked_table, unlisted_read] at hif
    rw [if_pos rfl, Ctl.bind_ok hacquire, hif]
    rfl

/-- The section of `dav_put` under the lock. -/
theorem putScope_apply (data : Bytes) (offset : ℤ) :
    (putScope env srv path data offset : Dav σ ρ (Option Unit)) t = Ctl.doOnce (do
      let _ ← performChecked env (putRequest srv path data offset t.mem.table)
      unlockIf srv.options.useLock) (locked srv .read t) := by
  have hclean : (locked srv .read t).ex.has = false := by rw [locked_ex]; exact h
  have hrange := (breaks_setRange (ρ := ρ) env (locked srv .read t) hclean).1
    (by rw [hs.noError_setopt]; rfl)
  rw [hs.noError_setopt] at hrange
  rw [putScope, withBuffer_clean h]
  unfold Ctl.doOnce
  rw [Ctl.bind_ok (rdlockHeaderIf_apply srv hs h hl []), Ctl.bind_ok hrange]
  simp only [performChecked, bind_assoc, pure_bind]
  rfl

theorem davPut_ok {data : Bytes} {offset : ℤ}
    (hc : (env.perform (putRequest srv path data offset t.mem.table) t.mem.env).1.code = .ok) :
    (davPut env srv path data offset : Dav σ ρ ℤ) t =
      (.ok 0, answered env (putRequest srv path data offset t.mem.table) t) := by
  set request := putRequest srv path data offset t.mem.table with hrequest
  have hlocked : answered env request (locked srv .read t) =
      locked srv .read (answered env request t) := by
    simpa using answered_locked env srv request path .read t
  have hscope : (putScope env srv path data offset : Dav σ ρ (Option Unit)) t =
      (.ok (some ()), answered env request t) := by
    rw [putScope_apply srv hs h hl, ← hrequest]
    refine Ctl.doOnce_ok ?_
    have hunlock := unlockIf_locked (ρ := ρ) srv .read (answered env request t)
    rw [usesLock_read, ← hlocked] at hunlock
    rw [Ctl.bind_ok (performChecked_ok env (by simpa using hc))]
    exact hunlock
  have hex : (answered env request t).ex.has = false := h
  have hbody : (do let _ ← throwable (putScope env srv path data offset) : Dav σ ρ Unit) t =
      (.ok (), answered env request t) := by
    rw [Ctl.bind_ok (throwable_clean hscope hex)]
    rfl
  have hwith := (hs.withCurl srv.options path h).trans (Ctl.doOnce_ok hbody)
  have hbuffer := (withBuffer_clean h).trans (Ctl.doOnce_ok (Ctl.bind_ok
    (f := fun _ => pure ()) (throwable_clean hwith hex)))
  rw [davPut, Ctl.bind_ok hbuffer, testSuccess_apply, hex]
  rfl

/-- A request that fails leaves the lock taken. -/
theorem davPut_failed {data : Bytes} {offset : ℤ}
    (hc : (env.perform (putRequest srv path data offset t.mem.table) t.mem.env).1.code ≠ .ok) :
    (davPut env srv path data offset : Dav σ ρ ℤ) t =
      (.ok 1, refused (env.perform (putRequest srv path data offset t.mem.table) t.mem.env).1
        (locked srv .read (answered env (putRequest srv path data offset t.mem.table) t))) := by
  set request := putRequest srv path data offset t.mem.table with hrequest
  have hlocked : answered env request (locked srv .read t) =
      locked srv .read (answered env request t) := by
    simpa using answered_locked env srv request path .read t
  set t' := refused (env.perform request t.mem.env).1
    (locked srv .read (answered env request t)) with ht'
  have hscope : (putScope env srv path data offset : Dav σ ρ (Option Unit)) t = (.ok none, t') := by
    rw [putScope_apply srv hs h hl, ← hrequest]
    refine Ctl.doOnce_brk ?_
    rw [Ctl.bind_error (performChecked_error env (by simpa using hc)), ht', ← hlocked]
    simp [refused, answered]
  have hex : t'.ex.has = true := rfl
  have hbody : (do let _ ← throwable (putScope env srv path data offset) : Dav σ ρ Unit) t =
      (.error .brk, t') := Ctl.bind_error (throwable_pending hscope hex)
  have hwith := (hs.withCurl srv.options path h).trans (Ctl.doOnce_brk hbody)
  have hbuffer := (withBuffer_clean h).trans (Ctl.doOnce_brk (Ctl.bind_error
    (f := fun _ => pure ()) (throwable_pending hwith hex)))
  rw [davPut, Ctl.bind_ok hbuffer, testSuccess_apply, hex]
  rfl

end Put

/-! ## `dav_copy` -/

/-- The request of `dav_copy`. -/
def copyRequest (from_ to_ : Path) (table : List FileLock) : Request :=
  ⟨.copy, from_, .destination to_ :: lockLines srv to_ .read table, none, .none⟩

section Copy

variable (hs : Steady env) {from_ to_ : Path} {t : Thread (Mem σ)} (h : t.ex.has = false)
  (hl : CanLock srv .read t)

include hs h hl

/-- The section of `dav_copy` under the lock. -/
theorem copyScope_apply :
    (copyScope env srv from_ to_ : Dav σ ρ (Option Unit)) t = Ctl.doOnce (do
      let _ ← performChecked env (copyRequest srv from_ to_ t.mem.table)
      unlockIf srv.options.useLock) (locked srv .read t) := by
  have hclean : (locked srv .read t).ex.has = false := by rw [locked_ex]; exact h
  have hdestination : (throwable (davHeaderDestination env [] to_) : Dav σ ρ (List Header)) t =
      (.ok [.destination to_], t) := by
    rw [((raises_davHeaderDestination (ρ := ρ) env [] to_).throwable t h).1
      (by rw [hs.destinationAttempt]; rfl), hs.destinationAttempt]
    rfl
  rw [copyScope, withBuffer_clean h]
  unfold Ctl.doOnce
  rw [Ctl.bind_ok hdestination, Ctl.bind_ok (rdlockHeaderIf_apply srv hs h hl [.destination to_]),
    Ctl.bind_apply, hs.setAndPerform _ _ hclean]
  rfl

theorem davCopy_ok
    (hc : (env.perform (copyRequest srv from_ to_ t.mem.table) t.mem.env).1.code = .ok) :
    (davCopy env srv from_ to_ : Dav σ ρ ℤ) t =
      (.ok 0, answered env (copyRequest srv from_ to_ t.mem.table) t) := by
  set request := copyRequest srv from_ to_ t.mem.table with hrequest
  have hlocked : answered env request (locked srv .read t) =
      locked srv .read (answered env request t) := by
    simpa using answered_locked env srv request to_ .read t
  have hscope : (copyScope env srv from_ to_ : Dav σ ρ (Option Unit)) t =
      (.ok (some ()), answered env request t) := by
    rw [copyScope_apply srv hs h hl, ← hrequest]
    refine Ctl.doOnce_ok ?_
    have hunlock := unlockIf_locked (ρ := ρ) srv .read (answered env request t)
    rw [usesLock_read, ← hlocked] at hunlock
    rw [Ctl.bind_ok (performChecked_ok env (by simpa using hc))]
    exact hunlock
  have hex : (answered env request t).ex.has = false := h
  have hbody : (do let _ ← throwable (copyScope env srv from_ to_) : Dav σ ρ Unit) t =
      (.ok (), answered env request t) := by
    rw [Ctl.bind_ok (throwable_clean hscope hex)]
    rfl
  have hwith := (hs.withCurl srv.options from_ h).trans (Ctl.doOnce_ok hbody)
  rw [davCopy, Ctl.bind_ok hwith, testSuccess_apply, hex]
  rfl

end Copy

/-! ## `dav_proppatch` -/

/-- The request of `dav_proppatch`. -/
def proppatchRequest (path : Path) (key : XmlName) (value : Option Text) : Request :=
  ⟨.proppatch, path, [.contentTypeXml, .preferMinimal], none, .propertyupdate key value⟩

section Proppatch

variable (hs : Steady env) {path : Path} {t : Thread (Mem σ)} (h : t.ex.has = false)

include hs

omit h in
theorem Steady.slistAppendWeak (list : List Header) (line : Header) (t : Thread (Mem σ)) :
    (curlSlistAppendWeak env list line : Dav σ ρ (List Header)) t = (.ok (list ++ [line]), t) := by
  simp [curlSlistAppendWeak, Ctl.bind_apply, hs.alloc]
  rfl

include h

theorem Steady.scopeList (line : Header) (body : List Header → Dav σ ρ α) :
    scopeList env line body t = Ctl.doOnce (body [line]) t := by
  have happend := (raises_curlSlistAppendE (ρ := ρ) env [] line t h).1 (by rw [hs.alloc]; rfl)
  rw [hs.alloc] at happend
  exact withSeperated_entered happend h

/-- The scope of `dav_proppatch` is its request. -/
theorem proppatchScope_apply (path : Path) (key : XmlName) (value : Option Text) :
    (scopeList env .contentTypeXml fun list => do
      let list ← curlSlistAppendWeak env list .preferMinimal
      let _ ← setAndPerform env .customrequest
        ⟨.proppatch, path, list, none, .propertyupdate key value⟩ : Dav σ ρ (Option Unit)) t =
      Ctl.doOnce (do let _ ← performChecked env (proppatchRequest path key value)) t := by
  rw [hs.scopeList h]
  unfold Ctl.doOnce
  rw [Ctl.bind_ok (hs.slistAppendWeak _ _ _), Ctl.bind_apply, hs.setAndPerform _ _ h]
  rfl

theorem davProppatch_ok {key : XmlName} {value : Option Text}
    (hc : (env.perform (proppatchRequest path key value) t.mem.env).1.code = .ok) :
    (davProppatch env srv path key value : Dav σ ρ ℤ) t =
      (.ok 0, answered env (proppatchRequest path key value) t) := by
  have hex : (answered env (proppatchRequest path key value) t).ex.has = false := h
  have hscope := (proppatchScope_apply (ρ := ρ) hs h path key value).trans
    (Ctl.doOnce_ok (Ctl.bind_ok (f := fun _ => pure ()) (performChecked_ok env hc)))
  have hwith := (hs.withCurl srv.options path h).trans
    (Ctl.doOnce_ok (Ctl.bind_ok (f := fun _ => pure ()) (throwable_clean hscope hex)))
  have hbuffer := (withBuffer_clean h).trans (Ctl.doOnce_ok (Ctl.bind_ok
    (f := fun _ => pure ()) (throwable_clean hwith hex)))
  rw [davProppatch, Ctl.bind_ok hbuffer, testSuccess_apply]
  simp [h, answered]

theorem davProppatch_failed {key : XmlName} {value : Option Text}
    (hc : (env.perform (proppatchRequest path key value) t.mem.env).1.code ≠ .ok) :
    (davProppatch env srv path key value : Dav σ ρ ℤ) t =
      (.ok 1, refused (env.perform (proppatchRequest path key value) t.mem.env).1
        (answered env (proppatchRequest path key value) t)) := by
  have hscope := (proppatchScope_apply (ρ := ρ) hs h path key value).trans
    (Ctl.doOnce_brk (Ctl.bind_error (f := fun _ => pure ()) (performChecked_error env hc)))
  have hwith := (hs.withCurl srv.options path h).trans
    (Ctl.doOnce_brk (Ctl.bind_error (f := fun _ => pure ()) (throwable_pending hscope rfl)))
  have hbuffer := (withBuffer_clean h).trans (Ctl.doOnce_brk (Ctl.bind_error
    (f := fun _ => pure ()) (throwable_pending hwith rfl)))
  rw [davProppatch, Ctl.bind_ok hbuffer, testSuccess_apply]
  rfl

end Proppatch

/-! ## `dav_get` -/

/-- The request of `dav_get`. -/
def getRequest (path : Path) (data : Bytes) (offset : ℤ) : Request :=
  ⟨.get, path, [], getRange data offset, .none⟩

/-- What the chunks of a reply leave in an array, and whether all of them were stored. -/
def received (data : Bytes) (reply : Reply) : Bool × Buffer := bufferAppendAll ⟨data, 0⟩ reply.chunks

section Get

variable (hs : Steady env) (path : Path) (data : Bytes) (offset : ℤ) {t : Thread (Mem σ)}
  (h : t.ex.has = false)

include hs h

theorem setGetRange_apply : (setGetRange env data offset : Dav σ ρ Unit) t = (.ok (), t) := by
  have hrange := (breaks_setRange (ρ := ρ) env t h).1 (by rw [hs.noError_setopt]; rfl)
  rw [hs.noError_setopt] at hrange
  unfold setGetRange
  split_ifs
  · exact hrange
  · rfl

theorem davGet_ok (hc : (env.perform (getRequest path data offset) t.mem.env).1.code = .ok)
    (hstored : (received data (env.perform (getRequest path data offset) t.mem.env).1).1 = true) :
    (davGet env srv path data offset : Dav σ ρ (ℤ × Bytes)) t =
      (.ok (toInt (received data (env.perform (getRequest path data offset) t.mem.env).1).2.offset,
        (received data (env.perform (getRequest path data offset) t.mem.env).1).2.data),
        answered env (getRequest path data offset) t) := by
  set reply := (env.perform (getRequest path data offset) t.mem.env).1 with hreply
  have hbody : (getBody env path data offset : Dav σ ρ Buffer) t =
      (.ok (received data reply).2, answered env (getRequest path data offset) t) := by
    have hperform : (curlEasyPerform env (getRequest path data offset) : Dav σ ρ Reply) t =
        (.ok reply, answered env (getRequest path data offset) t) := rfl
    have hdie : (performOrDie (if (received data reply).1 then reply.code else curleWriteError)
        reply.status : Dav σ ρ Unit) = pure () := by
      rw [hstored, if_pos rfl, hc]
      rfl
    rw [getBody, Ctl.bind_ok (setGetRange_apply hs data offset h)]
    refine (Ctl.bind_ok hperform).trans ?_
    show (Ctl.doOnce (performOrDie (if (received data reply).1 then reply.code else curleWriteError)
      reply.status) >>= fun _ => pure (received data reply).2 : Dav σ ρ Buffer) _ = _
    rw [hdie]
    rfl
  have hwith := (hs.withCurl srv.options path h).trans (Ctl.doOnce_ok hbody)
  have hex : (answered env (getRequest path data offset) t).ex.has = false := h
  rw [davGet_eq env srv h hwith, hex, if_neg Bool.false_ne_true]
  rfl

theorem davGet_failed (hc : ¬((env.perform (getRequest path data offset) t.mem.env).1.code = .ok ∧
      (received data (env.perform (getRequest path data offset) t.mem.env).1).1 = true)) :
    (davGet env srv path data offset : Dav σ ρ (ℤ × Bytes)) t =
      (.ok (-1, (received data (env.perform (getRequest path data offset) t.mem.env).1).2.data),
        raised (answered env (getRequest path data offset) t)
        (.curl (if (received data (env.perform (getRequest path data offset) t.mem.env).1).1 then
          (env.perform (getRequest path data offset) t.mem.env).1.code else curleWriteError)
          (env.perform (getRequest path data offset) t.mem.env).1.status .perform)) := by
  set reply := (env.perform (getRequest path data offset) t.mem.env).1 with hreply
  set code := if (received data reply).1 then reply.code else curleWriteError with hcode
  have hne : (code == .ok) = false := by
    rw [beq_eq_false_iff_ne, hcode]
    split_ifs with hstored
    · exact fun hok => hc ⟨hok, hstored⟩
    · exact nofun
  have hbody : (getBody env path data offset : Dav σ ρ Buffer) t = (.ok (received data reply).2,
      raised (answered env (getRequest path data offset) t) (.curl code reply.status .perform)) := by
    have hperform : (curlEasyPerform env (getRequest path data offset) : Dav σ ρ Reply) t =
        (.ok reply, answered env (getRequest path data offset) t) := rfl
    have hdie : (performOrDie code reply.status : Dav σ ρ Unit)
        (answered env (getRequest path data offset) t) = (.error .brk, raised (answered env
          (getRequest path data offset) t) (.curl code reply.status .perform)) := by
      rw [performOrDie, hne]
      rfl
    rw [getBody, Ctl.bind_ok (setGetRange_apply hs data offset h)]
    exact (Ctl.bind_ok hperform).trans (Ctl.bind_ok (Ctl.doOnce_brk hdie))
  have hwith := (hs.withCurl srv.options path h).trans (Ctl.doOnce_ok hbody)
  rw [davGet_eq env srv h hwith]
  rfl

end Get

end NetworkFs.Dav
