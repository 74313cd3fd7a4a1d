import NetworkFs.Dav.ServerLocks

/-!
# A hold that is never given back

A method that fails while it holds `filelock_tree_lock` leaves the hold behind. From then on nobody
gets the lock for writing: `DELETE` and `LOCK` are sent only with it, and `UNLOCK` only after it was
had. So for the rest of the mount the table keeps its entries and the server what it has locked,
whatever callbacks are made, and whatever else fails.

* `Frozen`: what such a hold keeps.
* `keptByMethods_frozen`: the methods that send nothing but other requests keep it.
* `leaked_hold_freezes`: so it holds ever after.
-/

namespace NetworkFs.Dav

open Control Grammar Wrapper Text

variable {σ ρ α β : Type}

/-! ## What is kept -/

/-- A preorder on the outside that the client keeps, unless it sends `LOCK`, `UNLOCK` or `DELETE`. -/
structure KeptOtherwise (env : Env σ) (Q : σ → σ → Prop) : Prop extends Std.Refl Q, IsTrans σ Q where
  alloc : ∀ a s, Q s (env.alloc a s).2
  urlSet : ∀ path s, Q s (env.urlSet path s).2
  urlGet : ∀ s, Q s (env.urlGet s).2
  setopt : ∀ option s, Q s (env.setopt option s).2
  unescape : ∀ text s, Q s (env.unescape text s).2
  perform : ∀ request s, request.method ∉ [.lock, .unlock, .delete] → Q s (env.perform request s).2

/-- The thread has at least `n` holds more than at `start`, the same locks in the table, and an
    outside that has kept what it had. -/
structure Frozen (Q : σ → σ → Prop) (start : Thread (Mem σ)) (n : ℕ) (t : Thread (Mem σ)) : Prop where
  held : ∃ more, n ≤ more.length ∧ t.mem.held = more ++ start.mem.held
  locks : tableLocks t.mem.table = tableLocks start.mem.table
  outside : Q start.mem.env t.mem.env

/-- A step that does not thaw the lock. -/
def KeepsFrozen (Q : σ → σ → Prop) (start : Thread (Mem σ)) (n : ℕ) (t t' : Thread (Mem σ)) : Prop :=
  Frozen Q start n t → Frozen Q start n t'

section Frames

variable {env : Env σ} {Q : σ → σ → Prop} {start t : Thread (Mem σ)} {n : ℕ}

instance : QuietFrame (KeepsFrozen Q start n) where
  refl _ := id
  trans _ _ _ h h' := h' ∘ h
  quiet t m hheld henv htable h := by
    refine ⟨?_, ?_, ?_⟩
    · show ∃ more, n ≤ more.length ∧ m.held = more ++ start.mem.held
      rw [hheld]
      exact h.held
    · show tableLocks m.table = _
      rw [htable]
      exact h.locks
    · show Q start.mem.env m.env
      rw [henv]
      exact h.outside
  raise _ _ h := ⟨h.held, h.locks, h.outside⟩
  clear _ h := ⟨h.held, h.locks, h.outside⟩

theorem Frozen.weaken (h : Frozen Q start n t) : Frozen Q start 0 t :=
  ⟨h.held.imp fun _ hmore => ⟨Nat.zero_le _, hmore.2⟩, h.locks, h.outside⟩

theorem Frozen.hold (h : Frozen Q start n t) (mode : RwMode) :
    Frozen Q start (n + 1) (hold mode t) := by
  obtain ⟨more, hlen, hheld⟩ := h.held
  refine ⟨⟨mode :: more, Nat.succ_le_succ hlen, ?_⟩, h.locks, h.outside⟩
  show mode :: t.mem.held = _
  rw [hheld]
  rfl

theorem Frozen.release (h : Frozen Q start (n + 1) t) :
    (unlock : Dav σ ρ Unit) t = (.ok (), release t) ∧ Frozen Q start n (release t) := by
  obtain ⟨more, hlen, hheld⟩ := h.held
  cases more with
  | nil => exact absurd hlen (Nat.not_succ_le_zero n)
  | cons mode more =>
    refine ⟨unlock_apply hheld, ⟨more, Nat.le_of_succ_le_succ hlen, ?_⟩, h.locks, h.outside⟩
    show t.mem.held.tail = _
    rw [hheld]
    rfl

theorem Frozen.ne_nil (hstart : start.mem.held ≠ []) (h : Frozen Q start n t) : t.mem.held ≠ [] := by
  obtain ⟨more, -, hheld⟩ := h.held
  rw [hheld]
  exact List.append_ne_nil_of_right_ne_nil more hstart

variable (hq : KeptOtherwise env Q)

include hq

theorem KeptOtherwise.atEnv {s : σ} (hs : Q t.mem.env s) (h : Frozen Q start n t) :
    Frozen Q start n (atEnv t s) :=
  ⟨h.held, h.locks, hq.trans _ _ _ h.outside hs⟩

theorem KeptOtherwise.outside : Outside env (KeepsFrozen Q start n) where
  alloc a _ := hq.atEnv (hq.alloc a _)
  urlSet path _ := hq.atEnv (hq.urlSet path _)
  urlGet _ := hq.atEnv (hq.urlGet _)
  setopt option _ := hq.atEnv (hq.setopt option _)
  unescape text _ := hq.atEnv (hq.unescape text _)

theorem KeptOtherwise.sends {method : Method} (hm : method ∉ [Method.lock, .unlock, .delete]) :
    Sends env (KeepsFrozen Q start n) method where
  perform request hrequest _ := hq.atEnv (hq.perform request _ (hrequest ▸ hm))

end Frames

/-! ## Parts that take and give holds -/

/-- From `n` more holds to `n'`, or out with what there was at `start`. -/
def Moves (Q : σ → σ → Prop) (start : Thread (Mem σ)) (n n' : ℕ) (m : Dav σ ρ α) : Prop :=
  ∀ t, Frozen Q start n t →
    (∃ a t', m t = (.ok a, t') ∧ Frozen Q start n' t') ∨
      ∃ e t', m t = (.error e, t') ∧ Frozen Q start 0 t'

section Moves

variable {Q : σ → σ → Prop} {start : Thread (Mem σ)} {n n' k : ℕ} {A : Exit ρ → Prop}

theorem Moves.of_within {m : Dav σ ρ α} (h : Ctl.Within (KeepsFrozen Q start n) A m) :
    Moves Q start n n m := by
  intro t ht
  have hkept := (h t).1 ht
  rcases hm : m t with ⟨e | a, t'⟩
  · rw [hm] at hkept
    exact .inr ⟨e, t', rfl, hkept.weaken⟩
  · rw [hm] at hkept
    exact .inl ⟨a, t', rfl, hkept⟩

theorem Moves.within {m : Dav σ ρ α} (h : Moves Q start 0 0 m) (hA : ∀ e, A e) :
    Ctl.Within (KeepsFrozen Q start 0) A m := by
  refine fun t => ⟨fun ht => ?_, fun e _ => hA e⟩
  obtain ⟨a, t', hm, hkept⟩ | ⟨e, t', hm, hkept⟩ := h t ht <;> rw [hm] <;> exact hkept

theorem Moves.bind {m : Dav σ ρ α} {f : α → Dav σ ρ β} (hm : Moves Q start n k m)
    (hf : ∀ a, Moves Q start k n' (f a)) : Moves Q start n n' (m >>= f) := by
  intro t ht
  obtain ⟨a, t₁, hrun, h₁⟩ | ⟨e, t₁, hrun, h₁⟩ := hm t ht
  · rw [Ctl.bind_ok hrun]
    exact hf a t₁ h₁
  · exact .inr ⟨e, t₁, Ctl.bind_error hrun, h₁⟩

theorem moves_rdlock : Moves Q start n (n + 1) (rdlock : Dav σ ρ Unit) := by
  intro t ht
  cases hwr : t.mem.held.contains .wr with
  | false => exact .inl ⟨(), _, rdlock_apply hwr, ht.hold .rd⟩
  | true => exact .inr ⟨_, t, rdlock_stuck hwr, ht.weaken⟩

theorem moves_unlock : Moves Q start (n + 1) n (unlock : Dav σ ρ Unit) :=
  fun _ ht => .inl ⟨(), _, ht.release.1, (ht.release (ρ := ρ)).2⟩

/-- Nothing comes after the lock for writing. -/
theorem moves_wrlock (hstart : start.mem.held ≠ []) (f : Unit → Dav σ ρ α) :
    Moves Q start n n' (wrlock >>= f) :=
  fun t ht => .inr ⟨_, t, Ctl.bind_error (wrlock_stuck (ht.ne_nil hstart)), ht.weaken⟩

/-- A section with the lock for reading gives its hold back. -/
theorem within_readSection {m : Dav σ ρ α} (hm : Ctl.Within (KeepsFrozen Q start 1) anyExit m)
    (hA : ∀ e, A e) : Ctl.Within (KeepsFrozen Q start 0) A (synchronized rdlock m) := by
  refine fun t => ⟨fun ht => ?_, fun e _ => hA e⟩
  cases hwr : t.mem.held.contains .wr with
  | true =>
    rw [synchronized_stuck (rdlock_stuck hwr)]
    exact ht
  | false =>
    have hlocked : (rdlock : Dav σ ρ Unit) t = (.ok (), hold .rd t) := rdlock_apply hwr
    have hkept := (hm (hold .rd t)).1 (ht.hold .rd)
    rcases hrun : m (hold .rd t) with ⟨(_ | v | _) | a, t'⟩
    · rw [hrun] at hkept
      rw [synchronized, withTest_brk hlocked rfl hrun (hkept.release (ρ := ρ)).1]
      exact (hkept.release (ρ := ρ)).2
    · rw [hrun] at hkept
      have hret : synchronized rdlock m t = (.error (.ret v), t') := by
        simp [synchronized, withTest, reflowBody, Ctl.bind_apply, Ctl.doOnce_ok hlocked,
          Ctl.doOnce_ret hrun]
      rw [hret]
      exact hkept.weaken
    · rw [hrun] at hkept
      rw [synchronized, withTest_fault hlocked rfl hrun]
      exact hkept.weaken
    · rw [hrun] at hkept
      rw [synchronized, withTest_ok hlocked rfl hrun (hkept.release (ρ := ρ)).1]
      exact (hkept.release (ρ := ρ)).2

/-- Nothing comes after a section with the lock for writing. -/
theorem within_writeSection (hstart : start.mem.held ≠ []) (m : Dav σ ρ α)
    (f : Option α → Dav σ ρ β) (hA : ∀ e, A e) :
    Ctl.Within (KeepsFrozen Q start 0) A (synchronized wrlock m >>= f) := by
  refine fun t => ⟨fun ht => ?_, fun e _ => hA e⟩
  rw [Ctl.bind_error (synchronized_stuck (wrlock_stuck (ht.ne_nil hstart)))]
  exact ht

end Moves

/-! ## The methods -/

/-- Without the lock for writing, `__dav_header_if` deletes nothing. -/
theorem within_headerIf {env : Env σ} {R : Thread (Mem σ) → Thread (Mem σ) → Prop} [QuietFrame R]
    [Outside env R] {A : Exit ρ → Prop} (list : List Header) (path : Path) {lockType : LockType}
    (hl : lockType ≠ .write) : Ctl.Within R A (davHeaderIf env list path lockType) := by
  refine .bind (.gets _) fun r => ?_
  cases r with
  | none => exact .pure _
  | some filelock =>
    refine .bind (within_curlSlistAppendE env list _) fun l => .ite (.pure _) ?_
    have hkept : (headerIfDelete path lockType : Dav σ ρ Unit) = pure () :=
      if_neg fun hw => hl (eq_of_beq hw)
    rw [hkept]
    exact .bind (.pure ()) fun _ => .pure _

theorem anyExit_orBreak (e : Exit ρ) : Ctl.orBreak anyExit e := .inr trivial

section Methods

variable {env : Env σ} {srv : DavServer} {Q : σ → σ → Prop} {start : Thread (Mem σ)} {n : ℕ}
  (hq : KeptOtherwise env Q) (huse : srv.options.useLock = true)

section Parts

include huse

theorem moves_unlockIf : Moves Q start (n + 1) n (unlockIf srv.options.useLock : Dav σ ρ Unit) := by
  rw [unlockIf, if_pos huse]
  exact moves_unlock

include hq

theorem moves_rdlockHeaderIf (list : List Header) (path : Path) :
    Moves Q start n (n + 1) (rdlockHeaderIf env srv list path : Dav σ ρ (List Header)) := by
  have : Outside env (KeepsFrozen Q start (n + 1)) := hq.outside
  rw [rdlockHeaderIf, if_pos huse]
  refine .bind moves_rdlock fun _ => .of_within (A := anyExit) ?_
  exact within_throwable (within_headerIf list path (by decide))

theorem moves_moveLockLines (hstart : start.mem.held ≠ []) (list : List Header) (from_ to_ : Path) :
    Moves Q start 0 1 (moveLockLines env srv list from_ to_ : Dav σ ρ (List Header)) := by
  have : Outside env (KeepsFrozen Q start 1) := hq.outside
  have hfrom : Moves Q start 1 1 (moveFromLine env list from_ : Dav σ ρ (List Header)) := by
    refine .bind (.of_within (A := anyExit) (.gets _)) fun r => ?_
    cases r with
    | none => exact .of_within (A := anyExit) (.pure _)
    | some e => exact .bind moves_unlock fun _ => moves_wrlock hstart _
  rw [moveLockLines, if_pos huse]
  refine .bind moves_rdlock fun _ => .bind hfrom fun _ => .of_within (A := anyExit) ?_
  exact within_throwable (within_headerIf _ _ (by decide))

end Parts

variable (hstart : start.mem.held ≠ [])

include hq huse

theorem frozen_davMethod (path : Path) (method : Method) {lockType : LockType}
    (hl : lockType ≠ .write) (hm : method ∉ [Method.lock, .unlock, .delete]) :
    Ctl.Within (KeepsFrozen Q start 0) anyExit (davMethod env srv path method lockType : Dav σ ρ ℤ) := by
  have hout (n : ℕ) : Outside env (KeepsFrozen Q start n) := hq.outside
  have hsend (n : ℕ) : Sends env (KeepsFrozen Q start n) method := hq.sends hm
  have hscope (n : ℕ) : Ctl.Within (KeepsFrozen Q start n) anyExit
      (methodScope env srv path method lockType : Dav σ ρ (Option Unit)) := by
    refine within_withBuffer ?_
    refine .bind (.ite (within_throwable (within_headerIf _ _ hl)) (.pure _)) fun _ => ?_
    exact .bind (within_setAndPerform env _ _) fun _ => .pure ()
  refine .bind (within_withCurl env _ _ (Moves.within ?_ anyExit_orBreak)) fun _ => .gets _
  cases lockType with
  | none =>
    have hnone : usesLock srv .none = false := by simp [usesLock]
    rw [acquire, hnone]
    exact .of_within (A := anyExit) (.bind (.pure ()) fun _ =>
      .bind (within_throwable (hscope 0)) fun _ => .pure ())
  | read =>
    have huses : usesLock srv .read = true := by simp [usesLock, huse]
    rw [acquire, huses]
    exact .bind moves_rdlock fun _ => .bind (.of_within (within_throwable (hscope 1))) fun _ =>
      moves_unlock
  | write => exact absurd rfl hl

theorem frozen_davPut (path : Path) (data : Bytes) (offset : ℤ) :
    Ctl.Within (KeepsFrozen Q start 0) anyExit (davPut env srv path data offset : Dav σ ρ ℤ) := by
  have hout (n : ℕ) : Outside env (KeepsFrozen Q start n) := hq.outside
  have hsend (n : ℕ) : Sends env (KeepsFrozen Q start n) .put := hq.sends (by decide)
  have hscope : Moves Q start 0 0 (putScope env srv path data offset : Dav σ ρ (Option Unit)) := by
    refine .of_within (A := anyExit) (within_withBuffer (Moves.within ?_ anyExit_orBreak))
    refine .bind (moves_rdlockHeaderIf hq huse _ _) fun _ => ?_
    refine .bind (.of_within (A := anyExit) (within_setRange env)) fun _ => ?_
    refine .bind (.of_within (A := anyExit) (within_curlEasyPerform env _)) fun _ => ?_
    exact .bind (.of_within (A := anyExit) (within_performOrDie _ _)) fun _ => moves_unlockIf huse
  refine .bind (within_withBuffer ?_) fun _ => .gets _
  refine .bind (within_throwable (within_withCurl env _ _ ?_)) fun _ => .pure ()
  exact .bind (within_throwable (hscope.within fun _ => .inr (.inr trivial))) fun _ => .pure ()

theorem frozen_davCopy (from_ to_ : Path) :
    Ctl.Within (KeepsFrozen Q start 0) anyExit (davCopy env srv from_ to_ : Dav σ ρ ℤ) := by
  have hout (n : ℕ) : Outside env (KeepsFrozen Q start n) := hq.outside
  have hsend (n : ℕ) : Sends env (KeepsFrozen Q start n) .copy := hq.sends (by decide)
  refine .bind (within_withCurl env _ _ (.bind (within_throwable ?_) fun _ => .pure ()))
    fun _ => .gets _
  refine within_withBuffer (Moves.within ?_ fun _ => .inr (.inr trivial))
  refine .bind (.of_within (A := anyExit) (within_throwable (within_davHeaderDestination env _ _))) fun _ => ?_
  refine .bind (moves_rdlockHeaderIf hq huse _ _) fun _ => ?_
  exact .bind (.of_within (A := anyExit) (within_setAndPerform env _ _)) fun _ => moves_unlockIf huse

include hstart

theorem frozen_davDelete (path : Path) :
    Ctl.Within (KeepsFrozen Q start 0) anyExit (davDelete env srv path : Dav σ ρ ℤ) := by
  have hout : Outside env (KeepsFrozen Q start 0) := hq.outside
  refine .bind (within_withCurl env _ _ (Moves.within ?_ anyExit_orBreak)) fun _ => .gets _
  have huses : usesLock srv .write = true := by simp [usesLock, huse]
  rw [acquire, huses]
  exact moves_wrlock hstart _

theorem frozen_davMoveCore (from_ to_ : Path) (nooverwrite : Bool) :
    Ctl.Within (KeepsFrozen Q start 0) anyExit
      (davMoveCore env srv from_ to_ nooverwrite : Dav σ ρ ℤ) := by
  have hout (n : ℕ) : Outside env (KeepsFrozen Q start n) := hq.outside
  have hsend (n : ℕ) : Sends env (KeepsFrozen Q start n) .move := hq.sends (by decide)
  refine .bind (within_withCurl env _ _ (.bind (within_throwable ?_) fun _ => .pure ()))
    fun _ => .gets _
  refine within_withBuffer (Moves.within ?_ fun _ => .inr (.inr trivial))
  refine .bind (.of_within (A := anyExit) (within_throwable (within_davHeaderDestination env _ _))) fun _ => ?_
  refine .bind (.of_within (A := anyExit)
    (.ite (within_throwable (within_curlSlistAppendE env _ _)) (.pure _))) fun _ => ?_
  refine .bind (moves_moveLockLines hq huse hstart _ _ _) fun _ => ?_
  exact .bind (.of_within (A := anyExit) (within_setAndPerform env _ _)) fun _ => moves_unlockIf huse

omit huse in
/-- `dav_lock` gets as far as the lock for writing. -/
theorem frozen_lockCreate (path : Path) :
    Ctl.Within (KeepsFrozen Q start 0) anyExit (lockCreate env srv path : Dav σ ρ Unit) := by
  refine fun t => ⟨fun ht => ?_, fun _ _ => trivial⟩
  have hmalloc : Frozen Q start 0 (atEnv t (env.alloc .fileLock t.mem.env).2) :=
    hq.atEnv (hq.alloc ..) ht
  cases ha : (env.alloc .fileLock t.mem.env).1 with
  | false =>
    rw [lockCreate, Ctl.bind_error (throwable_pending (mallocFileLock_fail env ha) rfl)]
    exact ⟨hmalloc.held, hmalloc.locks, hmalloc.outside⟩
  | true =>
    have hblank : Frozen Q start 0 (blank env t) := ⟨hmalloc.held, hmalloc.locks, hmalloc.outside⟩
    cases hex : t.ex.has with
    | true =>
      rw [lockCreate, Ctl.bind_error (throwable_pending (mallocFileLock_pass env ha) hex)]
      exact hblank
    | false =>
      rw [lockCreate, Ctl.bind_ok (throwable_clean (mallocFileLock_pass env ha) hex)]
      have hdup : Frozen Q start 0
          (atEnv (blank env t) (env.alloc .pathDup (blank env t).mem.env).2) :=
        hq.atEnv (hq.alloc ..) hblank
      cases hd : (env.alloc .pathDup (blank env t).mem.env).1 with
      | true =>
        have hstuck : (lockFill env srv path : Dav σ ρ Unit) (blank env t) = (.error .fault, _) :=
          lockFill_stuck env srv hd (hblank.ne_nil hstart)
        rw [Ctl.bind_error (tryCatch_fault hstuck)]
        exact hdup
      | false =>
        set u := raised (atEnv (blank env t) (env.alloc .pathDup (blank env t).mem.env).2)
          (.malloc "path dup") with hu
        have hfill : (lockFill env srv path : Dav σ ρ Unit) (blank env t) = (.error .brk, u) := by
          rw [lockFill, Ctl.bind_ok (outside_apply _ _), hd]
          rfl
        -- there is no token to give back
        have hrollback : (lockRollback env srv path : Dav σ ρ Unit) u = (.ok (), u) := rfl
        rw [Ctl.bind_ok (tryCatch_brk hfill (handle_onerror_ok rfl hrollback))]
        exact ⟨hdup.held, hdup.locks, hdup.outside⟩

omit huse in
/-- An entry that is there may be counted; none is made. -/
theorem frozen_davLock (path : Path) :
    Ctl.Within (KeepsFrozen Q start 0) anyExit (davLock env srv path : Dav σ ρ ℤ) := by
  have hfind : Ctl.Within (KeepsFrozen Q start 1) anyExit (lockFind path : Dav σ ρ Bool) := by
    refine .bind (.gets _) fun r => ?_
    cases r with
    | none => exact .pure _
    | some e =>
      exact .bind (.modify fun t h => ⟨h.held, (tableLocks_addCnt ..).trans h.locks, h.outside⟩)
        fun _ => .pure _
  have hcreate : Ctl.Within (KeepsFrozen Q start 0) (Ctl.orBreak anyExit)
      (lockCreate env srv path : Dav σ ρ Unit) :=
    fun t => ⟨(frozen_lockCreate hq hstart path t).1, fun e _ => anyExit_orBreak e⟩
  refine .ite (.bind (within_readSection hfind fun _ => trivial) fun found => ?_) (.pure _)
  exact .ite (.pure _) (.bind (within_tryOnerror hcreate (.pure ())) fun _ => .gets _)

omit hq huse in
/-- An entry may be counted off; none is removed. -/
theorem frozen_davUnlock (path : Path) :
    Ctl.Within (KeepsFrozen Q start 0) anyExit (davUnlock env srv path : Dav σ ρ ℤ) := by
  have hdecrement : Ctl.Within (KeepsFrozen Q start 1) anyExit
      (unlockDecrement path : Dav σ ρ (Option FileLock)) := by
    refine .bind (.gets _) fun r => ?_
    cases r with
    | none => exact .bind (within_raise _) fun _ => .brk
    | some e =>
      exact .bind (.modify fun t h => ⟨h.held, (tableLocks_addCnt ..).trans h.locks, h.outside⟩)
        fun _ => .pure _
  refine .ite (.bind (within_readSection hdecrement fun _ => trivial) fun r => ?_) (.pure _)
  rcases r with _ | _ | filelock
  · exact .pure _
  · exact .pure _
  · exact within_writeSection hstart _ _ fun _ => trivial

omit hq huse hstart in
/-- The exits of `m` are known, and where it leaves. -/
theorem within_frozen {A : Exit ρ → Prop} {m : Dav σ ρ α} (hexits : Ctl.Within (fun _ _ => True) A m)
    (hm : Ctl.Within (KeepsFrozen Q start 0) anyExit m) : Ctl.Within (KeepsFrozen Q start 0) A m :=
  fun t => ⟨(hm t).1, (hexits t).2⟩

theorem keptByMethods_frozen : KeptByMethods env srv (KeepsFrozen Q start 0) fun _ => True where
  ex _ _ h := ⟨h.held, h.locks, h.outside⟩
  head path := by
    have : Outside env (KeepsFrozen Q start 0) := hq.outside
    have : Sends env (KeepsFrozen Q start 0) .head := hq.sends (by decide)
    exact within_davHead env srv path
  get path data offset := by
    have : Outside env (KeepsFrozen Q start 0) := hq.outside
    have : Sends env (KeepsFrozen Q start 0) .get := hq.sends (by decide)
    exact within_davGet env srv path data offset
  put path data offset := within_frozen (within_davPut env srv path data offset)
    (frozen_davPut hq huse path data offset)
  putSimple path := within_frozen (within_davMethod env srv path .put .read)
    (frozen_davMethod hq huse path .put (by decide) (by decide))
  mkcol path := within_frozen (within_davMethod env srv path .mkcol .none)
    (frozen_davMethod hq huse path .mkcol (by decide) (by decide))
  delete path _ := within_frozen (within_davMethod env srv path .delete .write)
    (frozen_davDelete hq huse hstart path)
  move from_ to_ nooverwrite _ := within_frozen (within_davMoveCore env srv from_ to_ nooverwrite)
    (frozen_davMoveCore hq huse hstart from_ to_ nooverwrite)
  copy from_ to_ := within_frozen (within_davCopy env srv from_ to_) (frozen_davCopy hq huse from_ to_)
  proppatch path key value := by
    have : Outside env (KeepsFrozen Q start 0) := hq.outside
    have : Sends env (KeepsFrozen Q start 0) .proppatch := hq.sends (by decide)
    exact within_davProppatch env srv path key value
  propfind path depth _ hfiller := by
    have : Outside env (KeepsFrozen Q start 0) := hq.outside
    have : Sends env (KeepsFrozen Q start 0) .propfind := hq.sends (by decide)
    exact within_davPropfind env srv hfiller path depth

/-- No callback gets past the hold. -/
theorem frozen_callback (c : Callback) :
    Ctl.Within (KeepsFrozen Q start 0) anyExit (c.run env srv : Dav σ ρ ℤ) := by
  have hk : KeptByMethods env srv (KeepsFrozen Q start 0) fun _ => True :=
    keptByMethods_frozen hq huse hstart
  have hopen (path : Path) : Ctl.Within (KeepsFrozen Q start 0) anyExit
      (davOpenCore env srv path : Dav σ ρ ℤ) :=
    .ite (.bind (frozen_davLock hq hstart path) fun _ => hk.test _) (.pure _)
  cases hlocks : c.locks with
  | false => exact within_callback hk hlocks fun _ _ => trivial
  | true =>
    cases c with
    | create path mode fi =>
      exact .bind (hk.mknod path mode 0) fun _ => .ite (.pure _) (.ite (hopen path) (.pure _))
    | open_ path fi =>
      refine .ite (.bind (.ite (hk.truncate path 0 fun _ _ => trivial) (.pure 0)) fun _ => ?_) (.pure _)
      exact .ite (hopen path) (.pure _)
    | release path fi =>
      exact .ite (.ite (.bind (frozen_davUnlock hstart path) fun _ => .pure _) (.pure _)) (.pure _)
    | _ => cases hlocks

end Methods

/-! ## Ever after -/

/-- A callback that returns leads from `t` to `t'`. -/
def ReturnsTo (env : Env σ) (srv : DavServer) (t t' : Thread (Mem σ)) : Prop :=
  ∃ (c : Callback) (v : ℤ), (c.run env srv : Dav σ Unit ℤ) t = (.ok v, t')

/-- Once a hold was left behind, it stays, and in every later state the table has the same paths
    and tokens, and the outside has kept what it keeps without `LOCK`, `UNLOCK` and `DELETE`. -/
theorem leaked_hold_freezes {env : Env σ} {srv : DavServer} {Q : σ → σ → Prop}
    (hq : KeptOtherwise env Q) (huse : srv.options.useLock = true) {t t' : Thread (Mem σ)}
    (hleak : t.mem.held ≠ []) (hrun : Relation.ReflTransGen (ReturnsTo env srv) t t') :
    t'.mem.held ≠ [] ∧ tableLocks t'.mem.table = tableLocks t.mem.table ∧
      Q t.mem.env t'.mem.env := by
  have hfrozen : Frozen Q t 0 t' := by
    induction hrun with
    | refl => exact ⟨⟨[], le_rfl, rfl⟩, rfl, hq.refl _⟩
    | tail _ hstep ih =>
      obtain ⟨c, v, hrun⟩ := hstep
      have hkept := (frozen_callback (ρ := Unit) hq huse hleak c _).1 ih
      rwa [hrun] at hkept
  exact ⟨hfrozen.ne_nil hleak, hfrozen.locks, hfrozen.outside⟩

/-- Stores nothing: each `PUT` is answered with 507. What it keeps is what is locked. -/
def noSpace : Env (Multiset (Path × Text)) := serving fun request s => match request.method with
  | .put => (plainReply 507, s)
  | .lock => (lockAnswered lockDocument, (request.path, ['a']) ::ₘ s)
  | .unlock | .delete => (plainReply 204, 0)
  | _ => (plainReply 204, s)

theorem keptOtherwise_noSpace : KeptOtherwise noSpace Eq where
  refl := Eq.refl
  trans _ _ _ := Eq.trans
  alloc _ _ := rfl
  urlSet _ _ := rfl
  urlGet _ := rfl
  setopt _ _ := rfl
  unescape _ _ := rfl
  perform request s hmem := by
    simp only [noSpace, serving]
    simp only [List.mem_cons, List.not_mem_nil, or_false, not_or] at hmem
    obtain ⟨hlock, hunlock, hdelete⟩ := hmem
    cases hm : request.method <;> first | rfl | contradiction

/-- A write of `/a` fails and leaves its hold. `/a` can be opened again, and nothing changes. -/
theorem leaked_hold_freezes_full :
    ∃ t t', ReturnsTo noSpace lockingServer
        (keeping {([47, 97], ['a'])} [keptA] [] ⟨0, 0, 0, 0, 0, 0, 0, 0, 0⟩) t ∧ t.mem.held = [.rd] ∧
      ReturnsTo noSpace lockingServer t t' ∧ t'.mem.held ≠ [] ∧
        tableLocks t'.mem.table = tableLocks t.mem.table ∧ t.mem.env = t'.mem.env := by
  obtain ⟨v, t, v', t', hwrite, hheld, hopen⟩ : ∃ v t v' t',
      ((Callback.write [47, 97] [1] 0).run noSpace lockingServer :
        Dav (Multiset (Path × Text)) Unit ℤ)
        (keeping {([47, 97], ['a'])} [keptA] [] ⟨0, 0, 0, 0, 0, 0, 0, 0, 0⟩) = (.ok v, t) ∧
      t.mem.held = [.rd] ∧
      ((Callback.open_ [47, 97] writeOnly).run noSpace lockingServer :
        Dav (Multiset (Path × Text)) Unit ℤ) t = (.ok v', t') := ⟨_, _, _, _, rfl, rfl, rfl⟩
  have hstep : ReturnsTo noSpace lockingServer t t' := ⟨.open_ [47, 97] writeOnly, v', hopen⟩
  exact ⟨t, t', ⟨.write [47, 97] [1] 0, v, hwrite⟩, hheld, hstep,
    leaked_hold_freezes keptOtherwise_noSpace rfl (by rw [hheld]; exact List.cons_ne_nil _ _)
      (.single hstep)⟩

end NetworkFs.Dav
