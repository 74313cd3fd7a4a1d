import NetworkFs.Data.Splice
import NetworkFs.Dav.Exceptions
import NetworkFs.Dav.Steady

/-!
# Creating over what is there

A server that carries requests out or refuses them as a script says: `Site` is its
store, a log of the changes made to it and the outcomes to come. `dav_mknod`,
`dav_create` and `dav_symlink` test with `HEAD` whether their target exists, and take a
403 for a no; `dav_symlink` goes on after any other failure of the test and sends the
`DELETE` of its rollback.

* `mknod_keeps_iff`, `create_keeps_iff`, `symlink_keeps_iff`: when they leave what was
  there alone.
-/

namespace NetworkFs.Dav

open Control Grammar Wrapper Text Data

/-! ## The server -/

/-- What becomes of one request. -/
inductive Outcome where
  /-- Carried out and answered. -/
  | done (reply : Reply)
  /-- Refused with an HTTP error. -/
  | status (n : ℕ)
  /-- A transport error, before or after the request was carried out. -/
  | lost (n : ℕ) (effect : Bool)

/-- The request is carried out. -/
def Outcome.effect : Outcome → Bool
  | .done _ => true
  | .status _ => false
  | .lost _ effect => effect

/-- What the client sees of it. -/
def Outcome.reply : Outcome → Reply
  | .done reply => { reply with code := .ok }
  | .status n => ⟨.httpReturnedError, n, [], [], [], none⟩
  | .lost n _ => ⟨.other n, 0, [], [], [], none⟩

/-- A 404 or a 403. -/
def Outcome.saysAbsent : Outcome → Bool
  | .status n => n == 404 || n == 403
  | _ => false

/-- The server: its resources, the changes made to them so far, and the outcomes of the
    requests to come. -/
structure Site where
  store : Path → Option Bytes
  changes : List (Method × Path)
  outcomes : ℕ → Outcome

/-- A whole `PUT` leaves its body, a ranged one overwrites its interval. -/
def putContent (old : Option Bytes) (request : Request) : Bytes :=
  match request.range, request.body with
  | some range, .data d => splice 0 (old.getD []) range.offset.toNat d
  | none, .data d => d
  | _, _ => []

/-- The request carried out. `LOCK`, `UNLOCK` and `PROPPATCH` leave the contents alone. -/
def Site.apply (s : Site) (request : Request) : Site :=
  match request.method with
  | .put =>
    { s with
      store := Function.update s.store request.path (some (putContent (s.store request.path) request))
      changes := s.changes ++ [(.put, request.path)] }
  | .delete =>
    { s with
      store := Function.update s.store request.path none
      changes := s.changes ++ [(.delete, request.path)] }
  | _ => s

/-- The outcome of the next request. To a `HEAD` of something that exists a server never
    answers 404. -/
def Site.outcome (s : Site) (request : Request) : Outcome :=
  match request.method, s.outcomes 0 with
  | .head, .status 404 => if (s.store request.path).isSome then .done (plainReply 200) else .status 404
  | _, o => o

/-- The server after the next outcome was used up. -/
def Site.next (s : Site) : Site := { s with outcomes := fun n => s.outcomes (n + 1) }

/-- One request. -/
def Site.perform (request : Request) (s : Site) : Reply × Site :=
  ((s.outcome request).reply,
    if (s.outcome request).effect then s.next.apply request else s.next)

/-- Only requests fail, and as the script of the server says; everything else that is
    outside comes from `base`. -/
def flaky (base : Env Site) : Env Site := steady { base with perform := Site.perform }

/-- A callback is entered without an exception and without a hold. -/
def entered {σ : Type} (s : σ) (table : List FileLock) : Thread (Mem σ) :=
  ⟨.clear, { (idle s).mem with table := table }⟩

@[simp] theorem entered_env {σ : Type} (s : σ) (table : List FileLock) :
    (entered s table).mem.env = s := rfl

@[simp] theorem entered_sent {σ : Type} (s : σ) (table : List FileLock) :
    (entered s table).mem.sent = [] := rfl

/-! ## What is claimed -/

/-- The changes made since `s`. -/
def Site.changesSince (s s' : Site) : List (Method × Path) := s'.changes.drop s.changes.length

/-- What existed at `path` was not emptied, overwritten or deleted. -/
def Kept (path : Path) (s s' : Site) : Prop :=
  (s.store path).isSome → ∀ change ∈ s.changesSince s', change.2 ≠ path

/-- `DELETE` was sent only for something made by this call. -/
def DeletesOnlyItsOwn (path : Path) (s : Site) (t : Thread (Mem Site)) : Prop :=
  (∃ request ∈ t.mem.sent, request.method = .delete ∧ request.path = path) →
    s.store path = none ∧ (.put, path) ∈ s.changesSince t.mem.env

/-! ## The conditions -/

/-- The target exists, its `HEAD` is answered with 403, and the `PUT` is carried out. -/
def EmptiesExisting (path : Path) (mode : ℕ) (s : Site) : Prop :=
  (s.store path).isSome ∧ isDir mode = false ∧ s.outcomes 0 = .status 403 ∧
    (s.outcomes 1).effect = true

/-- `dav_symlink` stops at the first `HEAD`; or both of them say that there is nothing,
    and the `PUT` makes something where there was nothing, or fails under `use_lock`,
    where the rollback waits for the lock its own `PUT` has not given back. -/
def SymlinkSafe (srv : DavServer) (path : Path) (s : Site) : Prop :=
  (s.outcome (headRequest path)).reply.code = .ok ∨
    ((s.outcome (headRequest path)).saysAbsent = true ∧
      (s.next.outcome (headRequest path)).saysAbsent = true ∧
      if (s.outcomes 2).effect then s.store path = none else srv.options.useLock = true)

/-! ## One request -/

variable (base : Env Site) (srv : DavServer)

theorem flaky_steady : Steady (flaky base) := steady_steady _

theorem flaky_perform (request : Request) (s : Site) :
    (flaky base).perform request s = s.perform request := rfl

/-- A request that is answered without an error was carried out. -/
theorem Outcome.effect_of_ok {o : Outcome} (h : o.reply.code = .ok) : o.effect = true := by
  cases o with
  | done reply => rfl
  | status n => exact nomatch h
  | lost n effect => exact nomatch h

/-- The test that `dav_mknod` makes of the exception. -/
theorem Outcome.isHttp_reply (o : Outcome) :
    ((Exception.init (.curl o.reply.code o.reply.status .perform)).isHttp 404 ||
      (Exception.init (.curl o.reply.code o.reply.status .perform)).isHttp 403) =
      (o.saysAbsent && !(o.reply.code == .ok)) := by
  cases o with
  | done reply => rfl
  | status n => simp [Exception.isHttp, Exception.init, Outcome.reply, Outcome.saysAbsent]
  | lost n effect => rfl

theorem Outcome.saysAbsent_ne_ok {o : Outcome} (h : o.saysAbsent = true) : o.reply.code ≠ .ok := by
  cases o with
  | done reply => exact nomatch h
  | status n => exact nofun
  | lost n effect => exact nomatch h

theorem perform_head (path : Path) (s : Site) :
    s.perform (headRequest path) = ((s.outcome (headRequest path)).reply, s.next) := by
  rw [Site.perform]
  refine Prod.ext rfl ?_
  show (if _ then s.next.apply (headRequest path) else s.next) = s.next
  split_ifs <;> rfl

/-- A `HEAD` of what exists says otherwise only by a 403. -/
theorem saysAbsent_existing {path : Path} {s : Site} (h : (s.store path).isSome = true) :
    (s.outcome (headRequest path)).saysAbsent = true ↔ s.outcomes 0 = .status 403 := by
  unfold Site.outcome
  split
  · rename_i ho
    have hstore : (s.store (headRequest path).path).isSome = true := h
    rw [if_pos hstore, ho]
    simp [Outcome.saysAbsent]
  · rename_i o hne
    cases ho : s.outcomes 0 with
    | done reply => simp [Outcome.saysAbsent]
    | lost n effect => simp [Outcome.saysAbsent]
    | status n =>
      have h404 : n ≠ 404 := fun hn => hne rfl (by rw [ho, hn])
      simp [Outcome.saysAbsent, h404]

/-- The entry a request leaves in the log when it is carried out. -/
def requestChange (request : Request) : List (Method × Path) :=
  match request.method with
  | .put => [(.put, request.path)]
  | .delete => [(.delete, request.path)]
  | _ => []

theorem changes_apply (s : Site) (request : Request) :
    (s.apply request).changes = s.changes ++ requestChange request := by
  unfold Site.apply requestChange
  split <;> simp

theorem changes_perform (s : Site) (request : Request) :
    (s.perform request).2.changes =
      s.changes ++ if (s.outcome request).effect then requestChange request else [] := by
  rw [Site.perform]
  split_ifs with h
  · exact changes_apply s.next request
  · simp [Site.next]

/-! ## Runs that change nothing, and runs that only add -/

/-- The log of changes is the same. -/
def SameChanges (t t' : Thread (Mem Site)) : Prop := t'.mem.env.changes = t.mem.env.changes

/-- The log of changes has grown. -/
def MoreChanges (t t' : Thread (Mem Site)) : Prop := t.mem.env.changes <+: t'.mem.env.changes

instance : HeldFrame SameChanges where
  refl _ := rfl
  trans _ _ _ h h' := Eq.trans h' h
  mem _ _ _ h := congrArg Site.changes h
  raise _ _ := rfl
  clear _ := rfl
  held _ _ h := congrArg Site.changes h

instance : HeldFrame MoreChanges where
  refl _ := List.prefix_rfl
  trans _ _ _ h h' := List.IsPrefix.trans h h'
  mem _ _ _ h := by rw [MoreChanges, h]
  raise _ _ := List.prefix_rfl
  clear _ := List.prefix_rfl
  held _ _ h := by rw [MoreChanges, h]

instance : Outside (flaky base) SameChanges := ⟨fun _ _ => rfl, fun _ _ => rfl, fun _ => rfl,
  fun _ _ => rfl, fun _ _ => rfl⟩

instance : Outside (flaky base) MoreChanges := ⟨fun _ _ => List.prefix_rfl,
  fun _ _ => List.prefix_rfl, fun _ => List.prefix_rfl, fun _ _ => List.prefix_rfl,
  fun _ _ => List.prefix_rfl⟩

instance (method : Method) : Sends (flaky base) MoreChanges method where
  perform request _ t := by
    rw [MoreChanges, flaky_perform, atEnv_env, changes_perform]
    exact List.prefix_append _ _

/-- Only `PUT` and `DELETE` change something. -/
theorem sends_sameChanges {method : Method} (hput : method ≠ .put) (hdelete : method ≠ .delete) :
    Sends (flaky base) SameChanges method where
  perform request hm t := by
    have hchange : requestChange request = [] := by
      unfold requestChange
      split
      · rename_i h
        exact absurd (hm.symm.trans h) hput
      · rename_i h
        exact absurd (hm.symm.trans h) hdelete
      · rfl
    rw [SameChanges, flaky_perform, atEnv_env, changes_perform, hchange, ite_self, List.append_nil]

instance : Sends (flaky base) SameChanges .proppatch := sends_sameChanges base nofun nofun

instance : Sends (flaky base) SameChanges .lock := sends_sameChanges base nofun nofun

instance : Sends (flaky base) SameChanges .unlock := sends_sameChanges base nofun nofun

theorem within_davOpenCore (path : Path) {A : Exit ℤ → Prop} [Ctl.MayFault A] :
    Ctl.Within SameChanges A (davOpenCore (flaky base) srv path : Dav Site ℤ ℤ) :=
  .ite (.bind (within_davLock (flaky base) srv path) fun _ =>
    .ite (.pure 0) within_davExceptionMap) (.pure 0)

/-! ## `dav_mknod` -/

/-- `t` after its `HEAD`, with no exception. -/
def probed (path : Path) (t : Thread (Mem Site)) : Thread (Mem Site) :=
  ⟨.clear, (answered (flaky base) (headRequest path) t).mem⟩

/-- The `PUT` of `dav_mknod`. -/
def createRequest (path : Path) (t : Thread (Mem Site)) : Request :=
  methodRequest srv path .put .read t.mem.table

@[simp] theorem probed_held (path : Path) (t : Thread (Mem Site)) :
    (probed base path t).mem.held = t.mem.held := rfl

@[simp] theorem probed_sent (path : Path) (t : Thread (Mem Site)) :
    (probed base path t).mem.sent = t.mem.sent ++ [headRequest path] := rfl

@[simp] theorem probed_env (path : Path) (t : Thread (Mem Site)) :
    (probed base path t).mem.env = t.mem.env.next := by
  show (t.mem.env.perform (headRequest path)).2 = _
  rw [perform_head]

theorem canLock_of_free {lockType : LockType} {t : Thread (Mem Site)} (h : t.mem.held = []) :
    CanLock srv lockType t := by
  intro _
  split_ifs
  · exact h
  · rw [h]
    rfl

section Mknod

variable (path : Path) {mode : ℕ} (rdev : ℕ) (hdir : isDir mode = false) {t : Thread (Mem Site)}
  (h : t.ex.has = false)

include hdir h

/-- The `HEAD` is answered. -/
theorem mknod_exists (hc : (t.mem.env.outcome (headRequest path)).reply.code = .ok) :
    (davMknod (flaky base) srv path mode rdev : Dav Site ℤ ℤ) t =
      (.ok (-eexist), answered (flaky base) (headRequest path) t) := by
  have hhead := davHead_ok (ρ := ℤ) srv (flaky_steady base) h
    (by rw [flaky_perform, perform_head]; exact hc)
  exact davMknod_exists (flaky base) srv rdev hdir hhead h

omit hdir in
theorem head_refused (hc : (t.mem.env.outcome (headRequest path)).reply.code ≠ .ok) :
    (davHead (flaky base) srv path : Dav Site ℤ (ℤ × ℕ)) t =
      (.ok (1, 0), refused (t.mem.env.outcome (headRequest path)).reply
        (answered (flaky base) (headRequest path) t)) := by
  have hperform : ((flaky base).perform (headRequest path) t.mem.env).1 =
      (t.mem.env.outcome (headRequest path)).reply := by
    rw [flaky_perform, perform_head]
  have hhead := davHead_failed (ρ := ℤ) srv (flaky_steady base) h (by rw [hperform]; exact hc)
  rwa [hperform] at hhead

omit hdir h in
/-- What `dav_mknod` and `dav_symlink` see in the exception of a `HEAD`. -/
theorem isHttp_refused (hc : (t.mem.env.outcome (headRequest path)).reply.code ≠ .ok)
    (t' : Thread (Mem Site)) :
    ((refused (t.mem.env.outcome (headRequest path)).reply t').ex.isHttp 404 ||
      (refused (t.mem.env.outcome (headRequest path)).reply t').ex.isHttp 403) =
      (t.mem.env.outcome (headRequest path)).saysAbsent := by
  rw [refused_ex, Outcome.isHttp_reply]
  have hb : ((t.mem.env.outcome (headRequest path)).reply.code == .ok) = false := by simpa using hc
  rw [hb, Bool.not_false, Bool.and_true]

/-- The `HEAD` fails and does not say that there is nothing. -/
theorem mknod_failed (hc : (t.mem.env.outcome (headRequest path)).reply.code ≠ .ok)
    (ha : (t.mem.env.outcome (headRequest path)).saysAbsent = false) :
    ∃ res < 0, (davMknod (flaky base) srv path mode rdev : Dav Site ℤ ℤ) t =
      (.ok res, probed base path t) := by
  have hfailed := davMknod_failed (ρ := ℤ) (flaky base) srv rdev hdir
    (head_refused base srv path h hc) rfl ((isHttp_refused path hc _).trans ha)
  exact ⟨_, exceptionErrno_neg _, hfailed⟩

variable (ha : (t.mem.env.outcome (headRequest path)).saysAbsent = true) (hheld : t.mem.held = [])

include ha hheld

/-- The `HEAD` says that there is nothing, and the `PUT` succeeds. -/
theorem mknod_put (hc : (t.mem.env.outcomes 1).reply.code = .ok) :
    (davMknod (flaky base) srv path mode rdev : Dav Site ℤ ℤ) t =
      (Ctl.call (davChmod (flaky base) srv path mode) : Dav Site ℤ ℤ)
        (answered (flaky base) (createRequest srv path t) (probed base path t)) := by
  have hne := Outcome.saysAbsent_ne_ok ha
  have hlock : CanLock srv .read (probed base path t) := canLock_of_free srv hheld
  have hput := davMethod_ok (ρ := ℤ) srv (flaky_steady base) (t := probed base path t) rfl
    path .put hlock (by rw [probed_env]; exact hc)
  rw [listed_read] at hput
  exact davMknod_put (flaky base) srv rdev hdir (head_refused base srv path h hne) rfl
    ((isHttp_refused path hne _).trans ha) hput rfl

/-- The `HEAD` says that there is nothing, and the `PUT` fails. -/
theorem mknod_put_failed (hc : (t.mem.env.outcomes 1).reply.code ≠ .ok) :
    ∃ res < 0, (davMknod (flaky base) srv path mode rdev : Dav Site ℤ ℤ) t =
      (.ok res, locked srv .read
        (answered (flaky base) (createRequest srv path t) (probed base path t))) := by
  have hne := Outcome.saysAbsent_ne_ok ha
  have hlock : CanLock srv .read (probed base path t) := canLock_of_free srv hheld
  have hput := davMethod_failed (ρ := ℤ) srv (flaky_steady base) (t := probed base path t)
    rfl path .put hlock (by rw [probed_env]; exact hc)
  rw [listed_read] at hput
  have hfailed := davMknod_put_failed (ρ := ℤ) (flaky base) srv rdev hdir
    (head_refused base srv path h hne) rfl ((isHttp_refused path hne _).trans ha) hput rfl
  rw [hfailed]
  refine ⟨_, exceptionErrno_neg _, congrArg (Prod.mk _) ?_⟩
  rw [refused_mem]
  unfold locked
  split_ifs <;> rfl

end Mknod

/-- What a `Ctl.call` leaves is what its body left. -/
theorem call_state {σ ρ ρ' : Type} (m : Ctl σ ρ ρ) (s : σ) :
    ((Ctl.call m : Ctl σ ρ' ρ) s).2 = (m s).2 := by
  rcases hm : m s with ⟨(_ | v | _) | a, s'⟩
  · rw [Ctl.call_brk hm]
  · rw [Ctl.call_ret hm]
  · rw [Ctl.call_fault hm]
  · rw [Ctl.call_ok hm]

theorem changes_put (path : Path) (t : Thread (Mem Site)) :
    (answered (flaky base) (createRequest srv path t) (probed base path t)).mem.env.changes =
      t.mem.env.changes ++ if (t.mem.env.outcomes 1).effect then [(.put, path)] else [] := by
  rw [answered_env, flaky_perform, changes_perform, probed_env]
  rfl

/-- The changes `dav_mknod` makes. -/
theorem mknod_changes (path : Path) {mode : ℕ} (rdev : ℕ) (hdir : isDir mode = false)
    {t : Thread (Mem Site)} (h : t.ex.has = false) (hheld : t.mem.held = []) :
    ((davMknod (flaky base) srv path mode rdev : Dav Site ℤ ℤ) t).2.mem.env.changes =
      t.mem.env.changes ++ if (t.mem.env.outcome (headRequest path)).saysAbsent &&
        (t.mem.env.outcomes 1).effect then [(.put, path)] else [] := by
  by_cases hc : (t.mem.env.outcome (headRequest path)).reply.code = .ok
  · have ha : (t.mem.env.outcome (headRequest path)).saysAbsent = false := by
      by_contra ha
      exact Outcome.saysAbsent_ne_ok (by simpa using ha) hc
    rw [mknod_exists base srv path rdev hdir h hc, ha, answered_env, flaky_perform, perform_head]
    simp [Site.next]
  · cases ha : (t.mem.env.outcome (headRequest path)).saysAbsent with
    | false =>
      obtain ⟨res, -, hrun⟩ := mknod_failed base srv path rdev hdir h hc ha
      rw [hrun, probed_env]
      simp [Site.next]
    | true =>
      rw [Bool.true_and, ← changes_put base srv path t]
      by_cases hput : (t.mem.env.outcomes 1).reply.code = .ok
      · rw [mknod_put base srv path rdev hdir h ha hheld hput, call_state]
        exact (within_davChmod (R := SameChanges) (A := anyExit) (flaky base) srv path mode _).1
      · obtain ⟨res, -, hrun⟩ := mknod_put_failed base srv path rdev hdir h ha hheld hput
        rw [hrun, locked_env]

/-- `dav_mknod` leaves what is there alone exactly when it does not take a 403 for a no
    and then succeeds with its `PUT`. -/
theorem mknod_keeps_iff (path : Path) (mode rdev : ℕ) (s : Site) (table : List FileLock) :
    Kept path s ((davMknod (flaky base) srv path mode rdev : Dav Site ℤ ℤ)
      (entered s table)).2.mem.env ↔ ¬EmptiesExisting path mode s := by
  unfold Kept EmptiesExisting Site.changesSince
  cases hdir : isDir mode with
  | true =>
    have hrun : (davMknod (flaky base) srv path mode rdev : Dav Site ℤ ℤ) (entered s table) =
        (.ok (-einval), entered s table) := by
      refine Ctl.call_ok ?_
      rw [hdir, if_pos rfl]
      rfl
    rw [hrun]
    simp [entered, idle]
  | false =>
    rw [mknod_changes base srv path rdev hdir rfl rfl, entered_env, List.drop_left]
    by_cases hb : ((s.outcome (headRequest path)).saysAbsent && (s.outcomes 1).effect) = true
    · rw [if_pos hb]
      rw [Bool.and_eq_true] at hb
      constructor
      · rintro hkept ⟨hex, -⟩
        exact hkept hex (.put, path) (List.mem_singleton_self _) rfl
      · intro hsafe hex
        exact absurd ⟨hex, rfl, (saysAbsent_existing hex).mp hb.1, hb.2⟩ hsafe
    · rw [if_neg hb]
      refine ⟨?_, fun _ _ change hmem => (List.not_mem_nil hmem).elim⟩
      rintro - ⟨hex, -, h0, h1⟩
      rw [Bool.and_eq_true] at hb
      exact hb ⟨(saysAbsent_existing hex).mpr h0, h1⟩

/-! ## `dav_create` -/

/-- Opening what was created changes nothing. -/
theorem create_changes (path : Path) (mode : ℕ) (fi : OpenFlags) (t : Thread (Mem Site)) :
    ((davCreate (flaky base) srv path mode fi : Dav Site ℤ ℤ) t).2.mem.env.changes =
      ((davMknod (flaky base) srv path mode 0 : Dav Site ℤ ℤ) t).2.mem.env.changes := by
  refine Ctl.Within.bind_after (R := SameChanges) (A := anyExit) _ (fun res => ?_) t
  exact .ite (.pure res) (.ite (within_davOpenCore base srv path) (.pure res))

/-- `dav_create` is like `dav_mknod`. -/
theorem create_keeps_iff (path : Path) (mode : ℕ) (fi : OpenFlags) (s : Site)
    (table : List FileLock) :
    Kept path s ((davCreate (flaky base) srv path mode fi : Dav Site ℤ ℤ)
      (entered s table)).2.mem.env ↔ ¬EmptiesExisting path mode s := by
  rw [← mknod_keeps_iff base srv path mode 0 s table]
  unfold Kept Site.changesSince
  rw [create_changes]

/-! ## `dav_symlink` -/

/-- The request of the rollback. -/
def deleteRequest (path : Path) (t : Thread (Mem Site)) : Request :=
  methodRequest srv path .delete .write t.mem.table

/-- The rollback sends its `DELETE`. -/
theorem rollback_sent (path : Path) {t : Thread (Mem Site)} (h : t.ex.has = false)
    (hl : CanLock srv .write t) :
    ∃ t', (symlinkRollback (flaky base) srv path : Dav Site ℤ Unit) t = (.ok (), t') ∧
      t'.mem.sent = t.mem.sent ++ [deleteRequest srv path t] ∧
      t'.mem.env.changes = t.mem.env.changes ++
        if (t.mem.env.outcomes 0).effect then [(.delete, path)] else [] := by
  set request := deleteRequest srv path t with hrequest
  set t₁ := answered (flaky base) request (listed srv path .write t) with ht₁
  have hsent : t₁.mem.sent = t.mem.sent ++ [request] := by rw [ht₁, answered_sent, listed_sent]
  have hchanges : t₁.mem.env.changes = t.mem.env.changes ++
      if (t.mem.env.outcomes 0).effect then [(.delete, path)] else [] := by
    rw [ht₁, answered_env, listed_env, flaky_perform, changes_perform]
    rfl
  have hunlink : ∃ res t', (davUnlink (flaky base) srv path : Dav Site ℤ ℤ) t = (.ok res, t') ∧
      t'.ex.has = false ∧ t'.mem.sent = t₁.mem.sent ∧ t'.mem.env = t₁.mem.env := by
    by_cases hc : ((flaky base).perform request t.mem.env).1.code = .ok
    · have hex : t₁.ex.has = false := by rw [ht₁, answered_ex, listed_ex]; exact h
      exact ⟨0, t₁, (Ctl.bind_ok (davMethod_ok srv (flaky_steady base) h path .delete hl hc)).trans
        (davExceptionCheck_clean 0 hex), hex, rfl, rfl⟩
    · exact ⟨_, ⟨.clear, (locked srv .write t₁).mem⟩,
        (Ctl.bind_ok (davMethod_failed srv (flaky_steady base) h path .delete hl hc)).trans
          (davExceptionCheck_pending 0 rfl), rfl, by simp, by simp⟩
  obtain ⟨res, t', hrun, hex, hs, he⟩ := hunlink
  refine ⟨t', ?_, hs.trans hsent, by rw [he, hchanges]⟩
  rw [symlinkRollback, Ctl.bind_ok (tryCatch_ok hrun hex)]
  rfl

/-- The rollback waits for a lock the thread itself holds. -/
theorem rollback_stuck (path : Path) {t : Thread (Mem Site)} (h : t.ex.has = false)
    (hu : srv.options.useLock = true) (hheld : t.mem.held ≠ []) :
    (symlinkRollback (flaky base) srv path : Dav Site ℤ Unit) t = (.error .fault, t) := by
  have hunlink : (davUnlink (flaky base) srv path : Dav Site ℤ ℤ) t = (.error .fault, t) := by
    rw [davUnlink, davDelete,
      Ctl.bind_error (davMethod_stuck srv (flaky_steady base) h path .delete hu hheld)]
  rw [symlinkRollback, Ctl.bind_error (tryCatch_fault hunlink)]

/-- The rest of `dav_symlink` after its existence test. -/
def symlinkRest (env : Env Site) (from_ : Bytes) (to_ : Path) : Dav Site ℤ ℤ := do
  let res ← symlinkSteps env srv from_ to_
  symlinkRollback env srv to_
  pure res

theorem symlink_state {from_ : Bytes} {to_ : Path} {t t₁ : Thread (Mem Site)}
    (hp : probe (flaky base) srv to_ t = (.ok none, t₁)) :
    ((davSymlink (flaky base) srv from_ to_ : Dav Site ℤ ℤ) t).2 =
      (symlinkRest srv (flaky base) from_ to_ t₁).2 := by
  rw [davSymlink, call_state, Ctl.bind_ok hp]
  rfl

/-- `dav_mknod` fails, and the rollback follows. -/
theorem symlinkRest_failed {from_ : Bytes} {to_ : Path} {t t₁ : Thread (Mem Site)} {res : ℤ}
    (hm : (davMknod (flaky base) srv to_ (sIFLNK ||| 0o777) 0 : Dav Site ℤ ℤ) t = (.ok res, t₁))
    (hres : res < 0) : (symlinkRest srv (flaky base) from_ to_ t).2 =
      ((symlinkRollback (flaky base) srv to_ : Dav Site ℤ Unit) t₁).2 := by
  have hsteps : symlinkSteps (flaky base) srv from_ to_ t = (.ok res, t₁) := by
    rw [symlinkSteps, Ctl.bind_ok hm, if_pos (by omega)]
    rfl
  rw [symlinkRest, Ctl.bind_ok hsteps, Ctl.bind_apply]
  rcases (symlinkRollback (flaky base) srv to_ : Dav Site ℤ Unit) t₁ with ⟨e | u, t₂⟩ <;> rfl

/-- Whatever follows the `dav_mknod` of `dav_symlink`, it only adds to the changes. -/
theorem symlinkRest_after_mknod (from_ : Bytes) (to_ : Path) (t : Thread (Mem Site)) :
    MoreChanges ((davMknod (flaky base) srv to_ (sIFLNK ||| 0o777) 0 : Dav Site ℤ ℤ) t).2
      (symlinkRest srv (flaky base) from_ to_ t).2 := by
  have hrollback : Ctl.Within MoreChanges anyExit
      (symlinkRollback (flaky base) srv to_ : Dav Site ℤ Unit) := by
    refine .bind (within_tryCatch (fun _ _ => List.prefix_rfl) (within_davUnlink _ _ _)
      fun c hc => ?_) fun _ => .pure ()
    rw [List.mem_singleton.mp hc]
    exact .pure ()
  rw [symlinkRest, symlinkSteps, bind_assoc]
  refine Ctl.Within.bind_after (A := anyExit) _ (fun res => ?_) t
  refine .bind (.ite (.pure _) (.bind (within_davWrite _ _ _ _ _) fun _ =>
    .ite (.pure _) (.leave trivial))) fun res => ?_
  exact .bind hrollback fun _ => .pure res

/-- The rollback deletes what this call has not made. -/
theorem rollback_unsafe (path : Path) {s : Site} {t : Thread (Mem Site)} (h : t.ex.has = false)
    (hl : CanLock srv .write t) (hchanges : t.mem.env.changes = s.changes) :
    ¬DeletesOnlyItsOwn path s ((symlinkRollback (flaky base) srv path : Dav Site ℤ Unit) t).2 := by
  obtain ⟨t', hrun, hsent, hchanges'⟩ := rollback_sent base srv path h hl
  rw [hrun]
  intro hown
  have hmem : deleteRequest srv path t ∈ t'.mem.sent := by
    rw [hsent]
    exact List.mem_append_right _ (List.mem_singleton_self _)
  obtain ⟨-, hput⟩ := hown ⟨_, hmem, rfl, rfl⟩
  rw [Site.changesSince, hchanges', hchanges, List.drop_left] at hput
  split_ifs at hput
  · simp at hput
  · simp at hput

section Symlink

variable (from_ : Bytes) (path : Path) (s : Site) (table : List FileLock)

/-- The state `dav_symlink` leaves. -/
def symlinked : Thread (Mem Site) :=
  ((davSymlink (flaky base) srv from_ path : Dav Site ℤ ℤ) (entered s table)).2

/-- The first `HEAD` is answered: `-EEXIST`. -/
theorem symlink_exists (hc : (s.outcome (headRequest path)).reply.code = .ok) :
    symlinked base srv from_ path s table =
      answered (flaky base) (headRequest path) (entered s table) := by
  have hreply : ((flaky base).perform (headRequest path) (entered s table).mem.env).1.code = .ok := by
    rw [flaky_perform, entered_env, perform_head]
    exact hc
  have hhead := davHead_ok (ρ := ℤ) srv (flaky_steady base) rfl hreply
  rw [symlinked, davSymlink, call_state,
    Ctl.bind_error (probe_exists (flaky base) srv hhead rfl)]

/-- The first `HEAD` fails and does not say that there is nothing. -/
theorem symlink_failed (hc : (s.outcome (headRequest path)).reply.code ≠ .ok)
    (ha : (s.outcome (headRequest path)).saysAbsent = false) :
    symlinked base srv from_ path s table =
      ((symlinkRollback (flaky base) srv path : Dav Site ℤ Unit)
        (probed base path (entered s table))).2 := by
  have hhead := head_refused base srv path (t := entered s table) rfl hc
  have hhttp := (isHttp_refused path (t := entered s table) hc
    (answered (flaky base) (headRequest path) (entered s table))).trans ha
  have hprobe := probe_failed (flaky base) srv hhead rfl hhttp
  have hdir : isDir (sIFLNK ||| 0o777) = false := by decide
  have hpending : (davHead (flaky base) srv path : Dav Site ℤ (ℤ × ℕ))
      (refused (s.outcome (headRequest path)).reply
        (answered (flaky base) (headRequest path) (entered s table))) = (.ok (1, 0), _) :=
    davHead_pending srv (flaky_steady base) rfl
  have hmknod := davMknod_failed (ρ := ℤ) (flaky base) srv 0 hdir hpending rfl hhttp
  exact (symlink_state base srv hprobe).trans
    (symlinkRest_failed base srv hmknod (exceptionErrno_neg _))

/-- The first `HEAD` says that there is nothing. -/
theorem symlink_absent (ha : (s.outcome (headRequest path)).saysAbsent = true) :
    symlinked base srv from_ path s table =
      (symlinkRest srv (flaky base) from_ path (probed base path (entered s table))).2 := by
  have hc := Outcome.saysAbsent_ne_ok ha
  have hhead := head_refused base srv path (t := entered s table) rfl hc
  have hhttp := (isHttp_refused path (t := entered s table) hc
    (answered (flaky base) (headRequest path) (entered s table))).trans ha
  rw [symlinked, symlink_state base srv (probe_absent (flaky base) srv hhead rfl hhttp)]
  rfl

/-- Both `HEAD`s say that there is nothing, and the `PUT` is carried out: the change is
    in the log whatever follows. -/
theorem symlink_put (ha : (s.outcome (headRequest path)).saysAbsent = true)
    (ha' : (s.next.outcome (headRequest path)).saysAbsent = true)
    (heffect : (s.outcomes 2).effect = true) :
    (.put, path) ∈ s.changesSince (symlinked base srv from_ path s table).mem.env := by
  set t := probed base path (entered s table) with ht
  have henv : t.mem.env = s.next := probed_env base path (entered s table)
  have hdir : isDir (sIFLNK ||| 0o777) = false := by decide
  have hmknod : ((davMknod (flaky base) srv path (sIFLNK ||| 0o777) 0 : Dav Site ℤ ℤ)
      t).2.mem.env.changes = s.changes ++ [(.put, path)] := by
    have hput : (s.next.outcomes 1).effect = true := heffect
    rw [mknod_changes base srv path 0 hdir rfl rfl, henv, ha', hput]
    rfl
  have hmore : s.changes ++ [(.put, path)] <+:
      (symlinked base srv from_ path s table).mem.env.changes := by
    have hafter := symlinkRest_after_mknod base srv from_ path t
    rw [MoreChanges, hmknod] at hafter
    rwa [symlink_absent base srv from_ path s table ha, ← ht]
  have hdrop := hmore.drop s.changes.length
  rw [List.drop_left] at hdrop
  exact hdrop.mem (List.mem_singleton_self _)

/-- Both `HEAD`s say that there is nothing, and the `PUT` is not carried out. -/
theorem symlink_put_failed (ha : (s.outcome (headRequest path)).saysAbsent = true)
    (ha' : (s.next.outcome (headRequest path)).saysAbsent = true)
    (heffect : (s.outcomes 2).effect = false) :
    ∃ t, symlinked base srv from_ path s table =
        ((symlinkRollback (flaky base) srv path : Dav Site ℤ Unit) (locked srv .read t)).2 ∧
      t.ex.has = false ∧ t.mem.held = [] ∧ t.mem.env.changes = s.changes ∧
      (∀ request ∈ t.mem.sent, request.method ≠ .delete) := by
  set t := probed base path (entered s table) with ht
  have henv : t.mem.env = s.next := probed_env base path (entered s table)
  have hdir : isDir (sIFLNK ||| 0o777) = false := by decide
  have hput : (t.mem.env.outcomes 1).reply.code ≠ .ok := by
    rw [henv]
    intro hc
    have htrue : (s.outcomes 2).effect = true := Outcome.effect_of_ok hc
    rw [heffect] at htrue
    exact Bool.false_ne_true htrue
  obtain ⟨res, hres, hmknod⟩ := mknod_put_failed base srv path 0 hdir (t := t) rfl
    (by rw [henv]; exact ha') rfl hput
  refine ⟨answered (flaky base) (createRequest srv path t) (probed base path t), ?_, rfl, rfl, ?_, ?_⟩
  · rw [symlink_absent base srv from_ path s table ha,
      symlinkRest_failed base srv hmknod hres]
  · have hoff : (s.next.outcomes 1).effect = false := heffect
    rw [changes_put, henv, hoff]
    simp [Site.next]
  · intro request hmem
    simp only [answered_sent, probed_sent, ht, entered_sent, List.nil_append, List.mem_append,
      List.mem_singleton] at hmem
    rcases hmem with (rfl | rfl) | rfl <;> exact nofun

/-- The second `HEAD` does not say that there is nothing. -/
theorem symlink_second_head (ha : (s.outcome (headRequest path)).saysAbsent = true)
    (ha' : (s.next.outcome (headRequest path)).saysAbsent = false) :
    ¬DeletesOnlyItsOwn path s (symlinked base srv from_ path s table) := by
  set t := probed base path (entered s table) with ht
  have henv : t.mem.env = s.next := probed_env base path (entered s table)
  have hdir : isDir (sIFLNK ||| 0o777) = false := by decide
  have henv₂ : (probed base path t).mem.env = s.next.next := by rw [probed_env, henv]
  have hmknod : ∃ res < 0, (davMknod (flaky base) srv path (sIFLNK ||| 0o777) 0 : Dav Site ℤ ℤ) t =
      (.ok res, probed base path t) := by
    by_cases hc : (s.next.outcome (headRequest path)).reply.code = .ok
    · exact ⟨-eexist, by decide, mknod_exists base srv path 0 hdir rfl (by rw [henv]; exact hc)⟩
    · exact mknod_failed base srv path 0 hdir rfl (by rw [henv]; exact hc) (by rw [henv]; exact ha')
  obtain ⟨res, hres, hrun⟩ := hmknod
  rw [symlink_absent base srv from_ path s table ha, symlinkRest_failed base srv hrun hres]
  exact rollback_unsafe base srv path rfl (canLock_of_free srv rfl) (by rw [henv₂]; rfl)

/-- Nothing was changed and no `DELETE` was sent. -/
theorem safe_of_unchanged {t : Thread (Mem Site)} (hchanges : t.mem.env.changes = s.changes)
    (hsent : ∀ request ∈ t.mem.sent, request.method ≠ .delete) :
    Kept path s t.mem.env ∧ DeletesOnlyItsOwn path s t := by
  constructor
  · intro _ change hmem
    rw [Site.changesSince, hchanges, List.drop_length] at hmem
    exact (List.not_mem_nil hmem).elim
  · rintro ⟨request, hmem, hdelete, -⟩
    exact absurd hdelete (hsent request hmem)

/-- `dav_symlink` leaves what is there alone, and deletes only what it made, exactly when
    `SymlinkSafe`. -/
theorem symlink_keeps_iff :
    (Kept path s (symlinked base srv from_ path s table).mem.env ∧
      DeletesOnlyItsOwn path s (symlinked base srv from_ path s table)) ↔
      SymlinkSafe srv path s := by
  unfold SymlinkSafe
  by_cases hc : (s.outcome (headRequest path)).reply.code = .ok
  · refine iff_of_true ?_ (.inl hc)
    have henv : (answered (flaky base) (headRequest path) (entered s table)).mem.env = s.next :=
      probed_env base path (entered s table)
    rw [symlink_exists base srv from_ path s table hc]
    refine safe_of_unchanged path s (by rw [henv]; rfl) fun request hmem => ?_
    rw [answered_sent, entered_sent, List.nil_append, List.mem_singleton] at hmem
    rw [hmem]
    rintro ⟨⟩
  · rw [or_iff_right hc]
    cases ha : (s.outcome (headRequest path)).saysAbsent with
    | false =>
      rw [symlink_failed base srv from_ path s table hc ha]
      refine iff_of_false (fun hsafe => absurd hsafe.2 ?_) (fun habs => by cases habs.1)
      exact rollback_unsafe base srv path rfl (canLock_of_free srv rfl) (by rw [probed_env]; rfl)
    | true =>
      cases ha' : (s.next.outcome (headRequest path)).saysAbsent with
      | false =>
        have hunsafe := symlink_second_head base srv from_ path s table ha ha'
        exact iff_of_false (fun hsafe => hunsafe hsafe.2) (fun habs => by cases habs.2.1)
      | true =>
        cases heffect : (s.outcomes 2).effect with
        | true =>
          have hput := symlink_put base srv from_ path s table ha ha' heffect
          constructor
          · rintro ⟨hkept, -⟩
            refine ⟨rfl, rfl, ?_⟩
            by_contra hne
            exact hkept (Option.isSome_iff_ne_none.mpr hne) _ hput rfl
          · rintro ⟨-, -, hnone⟩
            have hnone' : s.store path = none := hnone
            refine ⟨fun hex => ?_, fun _ => ⟨hnone', hput⟩⟩
            rw [hnone'] at hex
            cases hex
        | false =>
          obtain ⟨t, hrun, hex, hheld, hchanges, hsent⟩ :=
            symlink_put_failed base srv from_ path s table ha ha' heffect
          rw [hrun]
          cases hu : srv.options.useLock with
          | true =>
            refine iff_of_true ?_ ⟨rfl, rfl, rfl⟩
            have hheld' : (locked srv .read t).mem.held ≠ [] := by
              rw [locked, usesLock_read, hu, if_pos rfl]
              rintro ⟨⟩
            rw [rollback_stuck base srv path (by rw [locked_ex]; exact hex) hu hheld']
            exact safe_of_unchanged path s (by rw [locked_env]; exact hchanges)
              (by rw [locked_sent]; exact hsent)
          | false =>
            have hlocked : locked srv .read t = t := by simp [locked, hu]
            refine iff_of_false (fun hsafe => absurd hsafe.2 ?_) (fun habs => by cases habs.2.2)
            rw [hlocked]
            exact rollback_unsafe base srv path hex (canLock_of_free srv hheld) hchanges

end Symlink

/-! ## The three together -/

/-- When the callbacks that create something leave what was there alone. -/
theorem creation_keeps_iff (path : Path) (mode rdev : ℕ) (fi : OpenFlags) (from_ : Bytes) (s : Site)
    (table : List FileLock) :
    (Kept path s ((davMknod (flaky base) srv path mode rdev : Dav Site ℤ ℤ)
      (entered s table)).2.mem.env ↔ ¬EmptiesExisting path mode s) ∧
    (Kept path s ((davCreate (flaky base) srv path mode fi : Dav Site ℤ ℤ)
      (entered s table)).2.mem.env ↔ ¬EmptiesExisting path mode s) ∧
    ((Kept path s (symlinked base srv from_ path s table).mem.env ∧
      DeletesOnlyItsOwn path s (symlinked base srv from_ path s table)) ↔
      SymlinkSafe srv path s) :=
  ⟨mknod_keeps_iff base srv path mode rdev s table, create_keeps_iff base srv path mode fi s table,
    symlink_keeps_iff base srv from_ path s table⟩

/-- `/a` holds a byte; the outcomes are `first` and then successes. -/
def oneFile (first : Outcome) : Site :=
  ⟨fun path => if path = [47, 97] then some [1] else none, [],
    fun n => if n = 0 then first else .done (plainReply 201)⟩

/-- `HEAD /a` is answered with 403 and the `PUT` empties the file; after a 500 `dav_symlink`
    deletes it. -/
theorem creation_403_empties_500_deletes :
    ¬Kept [47, 97] (oneFile (.status 403)) ((davMknod (flaky (serving Site.perform)) lockingServer
      [47, 97] 0o100644 0 : Dav Site ℤ ℤ) (entered (oneFile (.status 403)) [])).2.mem.env ∧
    ¬Kept [47, 97] (oneFile (.status 403)) ((davCreate (flaky (serving Site.perform)) lockingServer
      [47, 97] 0o100644 ⟨true, false, false, true⟩ : Dav Site ℤ ℤ)
      (entered (oneFile (.status 403)) [])).2.mem.env ∧
    ¬DeletesOnlyItsOwn [47, 97] (oneFile (.status 500)) (symlinked (serving Site.perform)
      lockingServer [98] [47, 97] (oneFile (.status 500)) []) := by
  have hempties : EmptiesExisting [47, 97] 0o100644 (oneFile (.status 403)) :=
    ⟨rfl, by decide, rfl, rfl⟩
  refine ⟨fun hkept => ?_, fun hkept => ?_, ?_⟩
  · exact (mknod_keeps_iff _ _ _ _ _ _ _).mp hkept hempties
  · exact (create_keeps_iff _ _ _ _ _ _ _).mp hkept hempties
  · rw [symlink_failed _ _ _ _ _ _ (by decide) (by decide)]
    exact rollback_unsafe _ _ _ rfl (canLock_of_free _ rfl) (by rw [probed_env]; rfl)

end NetworkFs.Dav
