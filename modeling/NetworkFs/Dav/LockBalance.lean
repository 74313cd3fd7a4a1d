import NetworkFs.Dav.Frame
import NetworkFs.Dav.Steps

/-!
# Who gives the table lock back

`__dav_method`, `dav_put`, `__dav_move` and `dav_copy` take `filelock_tree_lock`
by hand and give it back at the end of a block that any exception leaves early;
`dav_lock` and `dav_unlock` take it with `synchronized`.

* `Balanced`: entered without a hold, the function returns without one.
* `lock_balance_iff`: the four functions are balanced exactly when no step between
  the acquisition and the release fails; the other two always are.
-/

namespace NetworkFs.Dav

open Control Grammar Wrapper Text

variable {σ ρ α : Type} (env : Env σ) (srv : DavServer)

/-- The thread holds no lock when the function returns. A function that does not
    return stopped at an absent pointer; to release a lock that is not held would
    stop it with no hold left. -/
def Balanced (m : Dav σ Unit α) (t : Thread (Mem σ)) : Prop :=
  match m t with
  | (.ok _, t') => t'.mem.held = []
  | (.error _, t') => t'.mem.held ≠ []

/-- If the attempts made before the lock is taken pass, so do those made while it
    is held. -/
def PassesWhileHeld (before locked : Attempt σ) (s : σ) : Prop :=
  (before s).1 = true → (before.andThen locked s).1 = true

theorem balanced_of_ok {m : Dav σ Unit α} {t t' : Thread (Mem σ)} {a : α} (h : m t = (.ok a, t')) :
    Balanced m t ↔ t'.mem.held = [] := by
  simp [Balanced, h]

/-! ## The attempts of each function -/

/-- What `__dav_method` attempts while it holds the lock. -/
def methodLocked (path : Path) (method : Method) (table : List FileLock) : Attempt σ :=
  (ifAttempt env path table).andThen
    (sendAttempt env .customrequest ⟨method, path, ifLines path table, none, .none⟩)

/-- What `dav_put` attempts while it holds the lock. -/
def putLocked (path : Path) (data : Bytes) (offset : ℤ) (table : List FileLock) : Attempt σ :=
  (ifAttempt env path table).andThen (sendAttempt env .range
    ⟨.put, path, ifLines path table, some ⟨offset, data.length⟩, .data data⟩)

/-- What `__dav_header_destination` attempts. -/
def destinationAttempt (path : Path) : Attempt σ :=
  (env.alloc .urlDup).andThen ((noError (env.urlSet (dropSlash path))).andThen
    ((noError env.urlGet).andThen (env.alloc .slist)))

/-- What `dav_copy` attempts before it takes the lock. -/
def copyBefore (from_ to_ : Path) : Attempt σ :=
  (initAttempt env srv.options from_).andThen (destinationAttempt env to_)

/-- What `dav_copy` attempts while it holds the lock. -/
def copyLocked (from_ to_ : Path) (table : List FileLock) : Attempt σ :=
  (ifAttempt env to_ table).andThen (sendAttempt env .customrequest
    ⟨.copy, from_, .destination to_ :: ifLines to_ table, none, .none⟩)

/-- What the `Overwrite` header attempts. -/
def overwriteAttempt (nooverwrite : Bool) : Attempt σ :=
  if nooverwrite then env.alloc .slist else .pass

/-- What `__dav_move` attempts before it takes the lock. -/
def moveBefore (from_ to_ : Path) (nooverwrite : Bool) : Attempt σ :=
  (initAttempt env srv.options from_).andThen
    ((destinationAttempt env to_).andThen (overwriteAttempt env nooverwrite))

/-- The header lines of `__dav_move` before the `If` lines. -/
def moveLines (to_ : Path) (nooverwrite : Bool) : List Header :=
  .destination to_ :: if nooverwrite then [.overwriteF] else []

/-- What `__dav_move` attempts while it holds the lock. The entry of `from` is gone
    from the table when it looks for `to`. -/
def moveLocked (from_ to_ : Path) (nooverwrite : Bool) (table : List FileLock) : Attempt σ :=
  (ifAttempt env from_ table).andThen ((ifAttempt env to_ (tdelete from_ table)).andThen
    (sendAttempt env .customrequest ⟨.move, from_, moveLines to_ nooverwrite ++ ifLines from_ table ++
      ifLines to_ (tdelete from_ table), none, .none⟩))

/-! ## Composing -/

/-- `m` runs from `t` to `t'` and stops there, with or without a `break`. -/
def EndsAt (m : Dav σ ρ α) (t t' : Thread (Mem σ)) : Prop :=
  (∃ a, m t = (.ok a, t')) ∨ m t = (.error .brk, t')

theorem EndsAt.throwable {m : Dav σ ρ α} {t t' : Thread (Mem σ)} (h : EndsAt m t t') :
    EndsAt (throwable m) t t' := by
  rcases h with ⟨a, h⟩ | h
  · cases hex : t'.ex.has with
    | false => exact .inl ⟨a, throwable_clean h hex⟩
    | true => exact .inr (throwable_pending h hex)
  · exact .inr (throwable_error h)

theorem EndsAt.bind_unit {m : Dav σ ρ α} {t t' : Thread (Mem σ)} (h : EndsAt m t t') :
    EndsAt (m >>= fun _ => pure ()) t t' := by
  rcases h with ⟨a, h⟩ | h
  · exact .inl ⟨(), by rw [Ctl.bind_ok h]; rfl⟩
  · exact .inr (Ctl.bind_error h)

theorem EndsAt.step {β : Type} {m : Dav σ ρ α} {f : α → Dav σ ρ β} {a : α}
    {t t₁ t' : Thread (Mem σ)} (hm : m t = (.ok a, t₁)) (h : EndsAt (f a) t₁ t') :
    EndsAt (m >>= f) t t' := by
  unfold EndsAt at h ⊢
  rw [Ctl.bind_ok hm]
  exact h

theorem EndsAt.doOnce {m : Dav σ ρ α} {t t' : Thread (Mem σ)} (h : EndsAt m t t') :
    ∃ a, Ctl.doOnce m t = (.ok a, t') := by
  rcases h with ⟨a, h⟩ | h
  · exact ⟨some a, Ctl.doOnce_ok h⟩
  · exact ⟨none, Ctl.doOnce_brk h⟩

/-- A section that was entered holding `mode` and releases it at its end: it ends
    without a hold exactly when every step passed. -/
theorem Goes.release {m : Dav σ ρ α} {t : Thread (Mem σ)} {passed : Bool} (hg : Goes m t passed)
    (mode : RwMode) (hheld : t.mem.held = [mode]) :
    ∃ t', EndsAt (m >>= fun _ => unlock) t t' ∧ (t'.mem.held = [] ↔ passed = true) := by
  cases passed with
  | true =>
    obtain ⟨_, t', hm, -, hh⟩ := hg
    have hh' : t'.mem.held = [mode] := by rw [hh, hheld]
    refine ⟨Dav.release t', .inl ⟨(), by rw [Ctl.bind_ok hm]; exact unlock_apply hh'⟩, ?_⟩
    simp [Dav.release, hh']
  | false =>
    obtain ⟨t', hm, -, hh⟩ := hg
    exact ⟨t', .inr (Ctl.bind_error hm), by simp [hh, hheld]⟩

theorem Goes.throwable_withBuffer {m : Dav σ ρ α} {t : Thread (Mem σ)} {passed : Bool}
    (hg : Goes m t passed) (h : t.ex.has = false) : Goes (throwable (withBuffer m)) t passed := by
  cases passed with
  | true =>
    obtain ⟨a, t', hm, hex, hheld⟩ := hg
    exact ⟨some a, t', throwable_clean (by rw [withBuffer_clean h, Ctl.doOnce_ok hm]) hex, hex,
      hheld⟩
  | false =>
    obtain ⟨t', hm, hex, hheld⟩ := hg
    exact .brk (throwable_pending (by rw [withBuffer_clean h, Ctl.doOnce_brk hm]) hex) hex hheld

/-- `m`, which takes the lock after the attempt `before` and makes the attempt
    `locked` while it holds it, ends without a hold exactly when it should. -/
def EndsBalanced (m : Dav σ ρ α) (t : Thread (Mem σ)) (before locked : Attempt σ) : Prop :=
  ∃ t', EndsAt m t t' ∧ (t'.mem.held = [] ↔ PassesWhileHeld before locked t.mem.env)

theorem EndsBalanced.scope {m : Dav σ ρ α} {t : Thread (Mem σ)} {before locked : Attempt σ}
    (hm : EndsBalanced m t before locked) (h : t.ex.has = false) :
    EndsBalanced (do let _ ← throwable (withBuffer m)) t before locked := by
  obtain ⟨t', hends, hiff⟩ := hm
  obtain ⟨a, ha⟩ := hends.doOnce
  have hbuf : EndsAt (withBuffer m) t t' := .inl ⟨a, by rw [withBuffer_clean h, ha]⟩
  exact ⟨t', hbuf.throwable.bind_unit, hiff⟩

/-- The lock is taken, the section runs, the lock is released. -/
theorem EndsBalanced.locked {m : Dav σ ρ α} {rest : Dav σ ρ Unit} {locked : Attempt σ}
    (mode : RwMode) {t : Thread (Mem σ)} (hheld : t.mem.held = [])
    (hg : Goes m (hold mode t) (locked t.mem.env).1)
    (hrest : rest t = (m >>= fun _ => unlock) (hold mode t)) :
    EndsBalanced rest t .pass locked := by
  obtain ⟨t', hends, hiff⟩ := hg.release mode (by rw [hold_held, hheld])
  refine ⟨t', ?_, by simp [hiff, PassesWhileHeld]⟩
  unfold EndsAt at hends ⊢
  rwa [hrest]

/-- An attempt made before the lock is taken. -/
theorem EndsBalanced.before {β : Type} {m : Dav σ ρ α} {f : α → Dav σ ρ β} {a : α}
    {p q locked : Attempt σ} (hm : Breaks m a p) {t : Thread (Mem σ)} (h : t.ex.has = false)
    (hheld : t.mem.held = []) (hf : ∀ s, EndsBalanced (f a) (atEnv t s) q locked) :
    EndsBalanced (m >>= f) t (p.andThen q) locked := by
  cases hp : (p t.mem.env).1 with
  | true =>
    obtain ⟨t', hends, hiff⟩ := hf (p t.mem.env).2
    refine ⟨t', .step ((hm t h).1 hp) hends, ?_⟩
    rw [hiff]
    simp [PassesWhileHeld, Attempt.andThen_fst, Attempt.andThen_of_pass hp]
  | false =>
    obtain ⟨e, he⟩ := (hm t h).2 hp
    refine ⟨_, .inr (Ctl.bind_error he), ?_⟩
    simp [hheld, PassesWhileHeld, Attempt.andThen_of_fail hp, hp]

/-- The frame that all four functions share: a handle, then the body. -/
theorem EndsBalanced.withCurl (path : Path) {body : Dav σ ρ α} {before locked : Attempt σ}
    {t : Thread (Mem σ)} (hheld : t.mem.held = [])
    (hbody : t.ex.has = false → ∀ s, EndsBalanced body (atEnv t s) before locked) :
    ∃ u t', withCurl env srv.options path body t = (.ok u, t') ∧
      (t'.mem.held = [] ↔ t.ex.has = true ∨
        PassesWhileHeld ((initAttempt env srv.options path).andThen before) locked t.mem.env) := by
  cases h : t.ex.has with
  | true =>
    obtain ⟨s, e, -, hw⟩ := withCurl_pending env body h
    exact ⟨none, _, hw, by simp [hheld]⟩
  | false =>
    cases hp : (initAttempt env srv.options path t.mem.env).1 with
    | false =>
      obtain ⟨e, hw⟩ := withCurl_failed env body h hp
      refine ⟨none, _, hw, ?_⟩
      simp [hheld, PassesWhileHeld, Attempt.andThen_of_fail hp, hp]
    | true =>
      obtain ⟨t', hends, hiff⟩ := hbody h (initAttempt env srv.options path t.mem.env).2
      obtain ⟨u, hu⟩ := hends.doOnce
      refine ⟨u, t', by rw [withCurl_entered env h hp, hu], ?_⟩
      rw [hiff]
      simp [PassesWhileHeld, Attempt.andThen_fst, Attempt.andThen_of_pass hp]

theorem balanced_testSuccess {m : Dav σ Unit α} {t : Thread (Mem σ)} {c : Prop}
    (h : ∃ u t', m t = (.ok u, t') ∧ (t'.mem.held = [] ↔ c)) :
    Balanced (m >>= fun _ => testSuccess) t ↔ c := by
  obtain ⟨u, t', hm, hc⟩ := h
  rw [balanced_of_ok (by rw [Ctl.bind_ok hm]; exact testSuccess_apply t'), hc]

/-! ## Ranges and destinations -/

theorem breaks_withBuffer {m : Dav σ ρ α} {a : α} {p : Attempt σ} (hm : Breaks m a p) :
    Raises (withBuffer m) (some a) p := by
  intro t ht
  obtain ⟨hpass, hfail⟩ := hm t ht
  rw [withBuffer_clean ht]
  refine ⟨fun hp => Ctl.doOnce_ok (hpass hp), fun hp => ?_⟩
  obtain ⟨e, he⟩ := hfail hp
  exact ⟨none, e, Ctl.doOnce_brk he⟩

theorem breaks_setRange : Breaks (setRange env : Dav σ ρ Unit) () (noError (env.setopt .range)) := by
  have h : Raises (withBuffer (curlEasySetoptOrDie env .range) : Dav σ ρ (Option Unit)) (some ())
      (noError (env.setopt .range)) :=
    breaks_withBuffer (breaks_curlEasySetoptOrDie env .range)
  exact breaks_bind_unit h.throwable

theorem raises_davHeaderDestination (list : List Header) (path : Path) :
    Raises (davHeaderDestination env list path : Dav σ ρ (List Header)) (list ++ [.destination path])
      (destinationAttempt env path) := by
  have hline : Raises (destinationLine env list path : Dav σ (List Header) _)
      (some (list ++ [.destination path])) ((noError env.urlGet).andThen (env.alloc .slist)) :=
    (breaks_curlUrlGetOrDie env).withSeperated (raises_curlSlistAppendE env list _).throwable
  have hscope : Raises (destinationScope env list path : Dav σ (List Header) _)
      (some (some (list ++ [.destination path]))) (destinationAttempt env path) :=
    (raises_curlUrlDupE env).withSeperated
      ((breaks_curlUrlSetOrDie env (dropSlash path)).bind hline.throwable)
  intro t ht
  obtain ⟨hpass, hfail⟩ := hscope.throwable t ht
  refine ⟨fun hp => ?_, fun hp => ?_⟩
  · refine Ctl.call_ok ?_
    rw [Ctl.bind_ok (tryCatch_ok (hpass hp) ht)]
    rfl
  · obtain ⟨e, he⟩ := hfail hp
    exact ⟨[], e, Ctl.call_ret (Ctl.bind_error (tryCatch_onerror_ret he rfl rfl))⟩

theorem breaks_overwriteLine (nooverwrite : Bool) (list : List Header) :
    Breaks (overwriteLine env nooverwrite list : Dav σ ρ (List Header))
      (list ++ if nooverwrite then [.overwriteF] else []) (overwriteAttempt env nooverwrite) := by
  cases nooverwrite with
  | false => simpa [overwriteLine, overwriteAttempt] using Breaks.pure list
  | true => exact (raises_curlSlistAppendE env list .overwriteF).throwable

/-! ## The four functions that lock by hand -/

/-- `__dav_move` while it holds the lock. -/
def moveSection (from_ to_ : Path) (list : List Header) : Dav σ ρ Reply := do
  let list ← throwable (davHeaderIf env list from_ .write)
  let list ← throwable (davHeaderIf env list to_ .read)
  setAndPerform env .customrequest ⟨.move, from_, list, none, .none⟩

theorem goes_moveSection (from_ to_ : Path) (nooverwrite : Bool) {t : Thread (Mem σ)}
    (h : t.ex.has = false) :
    Goes (moveSection env from_ to_ (moveLines to_ nooverwrite) : Dav σ ρ Reply) t
      (moveLocked env from_ to_ nooverwrite t.mem.table t.mem.env).1 := by
  refine Goes.headerIf env h fun s => ?_
  refine Goes.headerIf env (t := unlisted from_ .write (atEnv t s)) h fun s' => ?_
  exact goes_setAndPerform env _ _ (unlisted to_ .read (atEnv (unlisted from_ .write (atEnv t s)) s'))
    h

/-- `__dav_move` gives up its read lock for a write lock when `from` has an entry,
    and from then on does the same either way. -/
theorem moveLockLines_eq (from_ to_ : Path) (list : List Header) (t : Thread (Mem σ))
    (hlock : srv.options.useLock = true) (hheld : t.mem.held = []) (h : t.ex.has = false) :
    ∃ mode, (do
      let list ← moveLockLines env srv list from_ to_
      setAndPerform env .customrequest ⟨.move, from_, list, none, .none⟩ : Dav σ ρ Reply) t =
        moveSection env from_ to_ list (hold mode t) := by
  simp only [moveLockLines, hlock, if_true, bind_assoc, moveSection]
  rw [Ctl.bind_ok (rdlock_of_free hheld)]
  cases hf : tfind from_ t.mem.table with
  | none =>
    have hline : (moveFromLine env list from_ : Dav σ ρ (List Header)) (hold .rd t) =
        (.ok list, hold .rd t) := by
      simp [moveFromLine, Ctl.bind_apply, hf]
    have hif : (throwable (davHeaderIf env list from_ .write) : Dav σ ρ (List Header)) (hold .rd t) =
        (.ok list, hold .rd t) :=
      throwable_clean (by simp [davHeaderIf, Ctl.bind_apply, hf]) h
    exact ⟨.rd, by rw [Ctl.bind_ok hline, Ctl.bind_ok hif]⟩
  | some e =>
    have hline : (moveFromLine env list from_ : Dav σ ρ (List Header)) (hold .rd t) =
        throwable (davHeaderIf env list from_ .write) (hold .wr t) := by
      rw [moveFromLine, Ctl.bind_ok (Ctl.gets_apply _ _), hold_table, hf]
      show (unlock >>= fun _ => wrlock >>= fun _ => _) _ = _
      rw [Ctl.bind_ok (unlock_apply (hold_held .rd t)), release_hold,
        Ctl.bind_ok (wrlock_apply hheld)]
    exact ⟨.wr, by rw [Ctl.bind_apply, hline]; rfl⟩

section Locking

variable {t : Thread (Mem σ)} (hlock : srv.options.useLock = true) (hheld : t.mem.held = [])

include hlock hheld

theorem balanced_davMethod (path : Path) (method : Method) {lockType : LockType}
    (hl : lockType ≠ .none) : Balanced (davMethod env srv path method lockType) t ↔
      t.ex.has = true ∨ PassesWhileHeld (initAttempt env srv.options path)
        (methodLocked env path method t.mem.table) t.mem.env := by
  have hu : usesLock srv lockType = true := by simp [usesLock, hlock, hl]
  refine balanced_testSuccess ?_
  rw [← Attempt.andThen_pass (initAttempt env srv.options path)]
  refine EndsBalanced.withCurl env srv _ hheld fun h s => ?_
  obtain ⟨mode, hacq⟩ : ∃ mode, (acquire srv lockType : Dav σ Unit Unit) (atEnv t s) =
      (.ok (), hold mode (atEnv t s)) := by
    cases lockType with
    | none => exact absurd rfl hl
    | read =>
      refine ⟨.rd, ?_⟩
      rw [acquire, if_pos hu]
      exact rdlock_of_free hheld
    | write =>
      refine ⟨.wr, ?_⟩
      rw [acquire, if_pos hu]
      exact wrlock_apply hheld
  refine .locked (m := throwable (methodScope env srv path method lockType)) mode hheld ?_ ?_
  · refine Goes.throwable_withBuffer ?_ h
    simp only [headerIfWhen, hu, if_true]
    refine Goes.headerIf env h fun s' => ?_
    exact (goes_setAndPerform env _ _ (unlisted path lockType (atEnv (hold mode t) s')) h).bind_unit
  · rw [Ctl.bind_ok hacq]
    simp only [unlockIf, hu, if_true]

theorem balanced_davPut (path : Path) (data : Bytes) (offset : ℤ) :
    Balanced (davPut env srv path data offset) t ↔
      t.ex.has = true ∨ PassesWhileHeld (initAttempt env srv.options path)
        (putLocked env path data offset t.mem.table) t.mem.env := by
  refine balanced_testSuccess ?_
  cases h : t.ex.has with
  | true => exact ⟨none, t, withBuffer_pending h, by simp [hheld]⟩
  | false =>
    have hsection : ∀ s, EndsBalanced (do let _ ← throwable (putScope env srv path data offset) :
        Dav σ Unit Unit) (atEnv t s) .pass (putLocked env path data offset t.mem.table) := by
      refine fun s => .scope ?_ h
      refine .locked (m := do
        let list ← throwable (davHeaderIf env [] path .read)
        setRange env
        performChecked env ⟨.put, path, list, some ⟨offset, data.length⟩, .data data⟩) .rd hheld ?_ ?_
      · refine Goes.headerIf env h fun s' => ?_
        exact Goes.of_breaks (breaks_setRange env) h fun s'' =>
          goes_performChecked env _ (unlisted path .read (atEnv (hold .rd t) s'')) h
      · simp only [rdlockHeaderIf, unlockIf, hlock, if_true, bind_assoc, performChecked, pure_bind]
        exact Ctl.bind_ok (rdlock_of_free (t := atEnv t s) hheld)
    obtain ⟨u, t', hw, hiff⟩ := EndsBalanced.withCurl env srv path hheld
      fun _ => hsection
    have hends := (EndsAt.throwable (.inl ⟨u, hw⟩)).bind_unit
    obtain ⟨v, hv⟩ := hends.doOnce
    exact ⟨v, t', by rw [withBuffer_clean h, hv], by simpa [h] using hiff⟩

theorem balanced_davCopy (from_ to_ : Path) :
    Balanced (davCopy env srv from_ to_) t ↔
      t.ex.has = true ∨ PassesWhileHeld (copyBefore env srv from_ to_)
        (copyLocked env from_ to_ t.mem.table) t.mem.env := by
  refine balanced_testSuccess ?_
  refine EndsBalanced.withCurl env srv _ hheld fun h s => .scope ?_ h
  rw [← Attempt.andThen_pass (destinationAttempt env to_)]
  refine .before (raises_davHeaderDestination env [] to_).throwable h hheld fun s' => ?_
  refine .locked (m := do
    let list ← throwable (davHeaderIf env [.destination to_] to_ .read)
    setAndPerform env .customrequest ⟨.copy, from_, list, none, .none⟩) .rd hheld ?_ ?_
  · refine Goes.headerIf env h fun s'' => ?_
    exact goes_setAndPerform env _ _ (unlisted to_ .read (atEnv (hold .rd t) s'')) h
  · simp only [rdlockHeaderIf, unlockIf, hlock, if_true, bind_assoc]
    exact Ctl.bind_ok (rdlock_of_free (t := atEnv (atEnv t s) s') hheld)

theorem balanced_davMoveCore (from_ to_ : Path) (nooverwrite : Bool) :
    Balanced (davMoveCore env srv from_ to_ nooverwrite) t ↔
      t.ex.has = true ∨ PassesWhileHeld (moveBefore env srv from_ to_ nooverwrite)
        (moveLocked env from_ to_ nooverwrite t.mem.table) t.mem.env := by
  refine balanced_testSuccess ?_
  refine EndsBalanced.withCurl env srv _ hheld fun h s => .scope ?_ h
  refine .before (raises_davHeaderDestination env [] to_).throwable h hheld fun s' => ?_
  rw [← Attempt.andThen_pass (overwriteAttempt env nooverwrite)]
  refine .before (breaks_overwriteLine env nooverwrite _) h hheld fun s'' => ?_
  obtain ⟨mode, hmode⟩ := moveLockLines_eq (ρ := Unit) env srv from_ to_ (moveLines to_ nooverwrite)
    (atEnv t s'') hlock hheld h
  refine .locked (m := moveSection env from_ to_ (moveLines to_ nooverwrite)) mode hheld
    (goes_moveSection env from_ to_ nooverwrite h) ?_
  have hrest := Ctl.bind_congr hmode fun _ => unlock
  rw [bind_assoc] at hrest
  simp only [unlockIf, hlock, if_true]
  exact hrest

end Locking

/-! ## `dav_lock` and `dav_unlock` -/

/-- The two states have the same holds. -/
def SameHeld (t t' : Thread (Mem σ)) : Prop := t'.mem.held = t.mem.held

instance : Frame (SameHeld (σ := σ)) where
  refl _ := rfl
  trans _ _ _ h h' := Eq.trans h' h
  mem _ _ h _ := h
  raise _ _ := rfl
  clear _ := rfl

instance : OutsideFree (SameHeld (σ := σ)) := ⟨fun _ _ => rfl⟩

instance : HeldFrame (fun _ _ : Thread (Mem σ) => True) where
  refl _ := trivial
  trans _ _ _ _ _ := trivial
  mem _ _ _ _ := trivial
  raise _ _ := trivial
  clear _ := trivial
  held _ _ _ := trivial

instance : OutsideFree (fun _ _ : Thread (Mem σ) => True) := ⟨fun _ _ => trivial⟩

instance : Ctl.MayBreak (fun _ : Exit ρ => True) := ⟨trivial⟩

instance : Ctl.MayFault (fun _ : Exit ρ => True) := ⟨trivial⟩

/-- Entered without a hold, `m` ends without one, unless it stops for good. -/
def Tidy (m : Dav σ ρ α) : Prop := ∀ t, t.mem.held = [] →
  match m t with
  | (.ok _, t') => t'.mem.held = []
  | (.error .brk, t') => t'.mem.held = []
  | (.error _, t') => t'.mem.held ≠ []

theorem balanced_of_tidy {m : Dav σ Unit α} (hm : Tidy m)
    (hb : Ctl.Within (fun _ _ => True) (· = .fault) m) {t : Thread (Mem σ)}
    (hheld : t.mem.held = []) : Balanced m t := by
  have h := hm t hheld
  have hbt := (hb t).2
  unfold Balanced
  rcases hmt : m t with ⟨(_ | _ | _) | _, t'⟩ <;> rw [hmt] at h hbt
  · exact absurd (hbt .brk rfl) (by simp)
  · exact h
  · exact h
  · exact h

theorem Tidy.of_within {m : Dav σ ρ α} (hm : Ctl.Within SameHeld (· = .brk) m) : Tidy m := by
  intro t hheld
  have h := (hm t).1
  rcases hm.ok_or_brk t with ⟨a, t', hmt⟩ | ⟨t', hmt⟩ <;> rw [hmt] at h ⊢
  · exact Eq.trans h hheld
  · exact Eq.trans h hheld

theorem Tidy.bind {β : Type} {m : Dav σ ρ α} {f : α → Dav σ ρ β} (hm : Tidy m)
    (hf : ∀ a, Tidy (f a)) : Tidy (m >>= f) := by
  intro t hheld
  have h := hm t hheld
  rw [Ctl.bind_apply]
  rcases hmt : m t with ⟨(_ | _ | _) | a, t'⟩ <;> rw [hmt] at h
  · exact h
  · exact h
  · exact h
  · exact hf a t' h

theorem Tidy.doOnce {m : Dav σ ρ α} (hm : Tidy m) : Tidy (Ctl.doOnce m) := by
  intro t hheld
  have h := hm t hheld
  rcases hmt : m t with ⟨(_ | _ | _) | a, t'⟩ <;> rw [hmt] at h
  · rw [Ctl.doOnce_brk hmt]; exact h
  · rw [Ctl.doOnce_ret hmt]; exact h
  · rw [Ctl.doOnce_fault hmt]; exact h
  · rw [Ctl.doOnce_ok hmt]; exact h

theorem Tidy.ite {c : Prop} [Decidable c] {m m' : Dav σ ρ α} (h : Tidy m) (h' : Tidy m') :
    Tidy (if c then m else m') := by
  split_ifs
  · exact h
  · exact h'

theorem Tidy.pure (a : α) : Tidy (Pure.pure a : Dav σ ρ α) := .of_within (.pure a)

theorem Tidy.gets (f : Thread (Mem σ) → α) : Tidy (Ctl.gets f : Dav σ ρ α) :=
  .of_within (.gets f)

theorem Tidy.throwable {m : Dav σ ρ α} (hm : Tidy m) : Tidy (throwable m) :=
  .bind hm fun a => .bind (.of_within within_check) fun _ => .pure a

theorem Tidy.tryOnerror {m : Dav σ ρ α} {handler : Dav σ ρ Unit} (hm : Tidy m)
    (hh : Tidy handler) : Tidy (tryCatch m [onerror handler]) :=
  .bind hm.doOnce fun r => .bind (.bind (.gets _) fun _ =>
    .ite (.bind hh.doOnce fun _ => .pure ()) (.pure ())) fun _ => .pure r

/-- `synchronized` releases what it took, also when its body breaks. -/
theorem Tidy.synchronized {action : Dav σ ρ Unit} {mode : RwMode}
    (haction : ∀ {t}, t.mem.held = [] → action t = (.ok (), hold mode t)) {m : Dav σ ρ α}
    {A : Exit ρ → Prop} (hm : Ctl.Within SameHeld A m) : Tidy (synchronized action m) := by
  intro t hheld
  have h : (m (hold mode t)).2.mem.held = [mode] := by
    rw [show (m (hold mode t)).2.mem.held = (hold mode t).mem.held from (hm _).1,
      hold_held, hheld]
  rcases hmt : m (hold mode t) with ⟨r, t'⟩
  rw [hmt] at h
  replace h : t'.mem.held = [mode] := h
  rcases r with (_ | v | _) | a
  · rw [NetworkFs.synchronized, withTest_brk (haction hheld) rfl hmt (unlock_apply h)]
    simp [release, h]
  · have hret : NetworkFs.synchronized action m t = (.error (.ret v), t') := by
      simp [NetworkFs.synchronized, withTest, reflowBody, Ctl.bind_apply,
        Ctl.doOnce_ok (haction hheld), Ctl.doOnce_ret hmt]
    rw [hret]
    simp [h]
  · rw [NetworkFs.synchronized, withTest_fault (haction hheld) rfl hmt]
    simp [h]
  · rw [NetworkFs.synchronized, withTest_ok (haction hheld) rfl hmt (unlock_apply h)]
    simp [release, h]

/-- Without a lock type nothing is taken. -/
theorem balanced_davMethod_none (path : Path) (method : Method) {t : Thread (Mem σ)}
    (hheld : t.mem.held = []) : Balanced (davMethod env srv path method .none) t := by
  have hu : usesLock srv .none = false := by simp [usesLock]
  have hbody : (do
      acquire srv .none
      let _ ← throwable (methodScope env srv path method .none)
      unlockIf (usesLock srv .none) : Dav σ Unit Unit) = (do
      let _ ← throwable (withBuffer (do
        let _ ← setAndPerform env .customrequest ⟨method, path, [], none, .none⟩))) := by
    simp [acquire, unlockIf, methodScope, headerIfWhen, hu]
  refine balanced_of_tidy (.of_within ?_) (within_davMethod env srv path method .none) hheld
  unfold davMethod
  rw [hbody]
  refine .bind (within_withCurl env _ _ ?_) fun _ => .gets _
  refine .bind (within_throwable (within_withBuffer ?_)) fun _ => .pure ()
  exact .bind (within_setAndPerform env _ _) fun _ => .pure ()

theorem tidy_davUnlockCore (path : Path) (token : Text) :
    Tidy (davUnlockCore env srv path token : Dav σ ρ ℤ) :=
  .of_within (within_davUnlockCore env srv path token)

theorem tidy_lockCreate (path : Path) : Tidy (lockCreate env srv path : Dav σ ρ Unit) := by
  have hmalloc : Tidy (mallocFileLock env : Dav σ ρ Unit) :=
    .of_within (within_mallocFileLock env)
  have hfill : Tidy (lockFill env srv path : Dav σ ρ Unit) := by
    refine .bind (.of_within (within_alloc env _)) fun dup => ?_
    refine .bind (.ite (.pure ()) (.of_within (within_throw_raise _))) fun _ => ?_
    exact .bind (Tidy.synchronized (A := fun _ => True) wrlock_apply
      (within_lockInsert env srv path)).throwable fun _ => .pure ()
  have hrollback : Tidy (lockRollback env srv path : Dav σ ρ Unit) := by
    refine .bind (.gets _) fun r => ?_
    cases r with
    | none => exact .pure ()
    | some token => exact .bind (tidy_davUnlockCore env srv path token) fun _ => .pure ()
  exact .bind hmalloc.throwable fun _ => .bind (hfill.tryOnerror hrollback) fun _ => .pure ()

theorem balanced_davLock (path : Path) {t : Thread (Mem σ)} (hheld : t.mem.held = []) :
    Balanced (davLock env srv path) t := by
  refine balanced_of_tidy ?_ (within_davLock env srv path) hheld
  unfold davLock
  refine .ite (.bind (.synchronized (A := fun _ => True) rdlock_of_free (within_lockFind path))
    fun found => .ite (.pure _) ?_) (.pure _)
  exact .bind ((tidy_lockCreate env srv path).tryOnerror (.pure ())) fun _ => .gets _

theorem balanced_davUnlock (path : Path) {t : Thread (Mem σ)} (hheld : t.mem.held = []) :
    Balanced (davUnlock env srv path) t := by
  refine balanced_of_tidy ?_ (within_davUnlock env srv path) hheld
  unfold davUnlock
  refine .ite (.bind (.synchronized (A := fun _ => True) rdlock_of_free
    (within_unlockDecrement path)) fun r => ?_) (.pure _)
  rcases r with _ | _ | f
  · exact .pure _
  · exact .pure _
  · exact .bind (.synchronized (A := fun _ => True) wrlock_apply (within_unlockRemove path f))
      fun r => tidy_davUnlockCore env srv _ _

/-! ## All six -/

/-- The table lock is given back by `__dav_method`, `dav_put`, `__dav_move` and
    `dav_copy` exactly when an exception was pending on entry, no lock is asked
    for, a step before the acquisition fails, or every step after it succeeds;
    `dav_lock` and `dav_unlock` always give it back. -/
theorem lock_balance_iff (hlock : srv.options.useLock = true) (t : Thread (Mem σ))
    (hheld : t.mem.held = []) :
    (∀ path method lockType, Balanced (davMethod env srv path method lockType) t ↔
      t.ex.has = true ∨ lockType = .none ∨ PassesWhileHeld (initAttempt env srv.options path)
        (methodLocked env path method t.mem.table) t.mem.env) ∧
    (∀ path data offset, Balanced (davPut env srv path data offset) t ↔
      t.ex.has = true ∨ PassesWhileHeld (initAttempt env srv.options path)
        (putLocked env path data offset t.mem.table) t.mem.env) ∧
    (∀ from_ to_ nooverwrite, Balanced (davMoveCore env srv from_ to_ nooverwrite) t ↔
      t.ex.has = true ∨ PassesWhileHeld (moveBefore env srv from_ to_ nooverwrite)
        (moveLocked env from_ to_ nooverwrite t.mem.table) t.mem.env) ∧
    (∀ from_ to_, Balanced (davCopy env srv from_ to_) t ↔
      t.ex.has = true ∨ PassesWhileHeld (copyBefore env srv from_ to_)
        (copyLocked env from_ to_ t.mem.table) t.mem.env) ∧
    (∀ path, Balanced (davLock env srv path) t) ∧
    ∀ path, Balanced (davUnlock env srv path) t := by
  refine ⟨fun path method lockType => ?_, balanced_davPut env srv hlock hheld,
    balanced_davMoveCore env srv hlock hheld, balanced_davCopy env srv hlock hheld,
    fun path => balanced_davLock env srv path hheld,
    fun path => balanced_davUnlock env srv path hheld⟩
  by_cases hl : lockType = .none
  · rw [hl]
    simp [balanced_davMethod_none env srv path method hheld]
  · rw [balanced_davMethod env srv hlock hheld path method hl]
    simp [hl]

/-- The conditions meet at a thread that has done nothing and a server that has
    everything. -/
theorem lock_balance_idle :
    lockingServer.options.useLock = true ∧ (idle () : Thread (Mem Unit)).mem.held = [] ∧
      Balanced (davPut (answering (plainReply 201)) lockingServer [47, 97] [1] 0) (idle ()) :=
  ⟨rfl, rfl, ((lock_balance_iff (answering (plainReply 201)) lockingServer rfl (idle ()) rfl).2.1
    [47, 97] [1] 0).mpr (.inr fun _ => rfl)⟩

/-- `DELETE /a` answered with 404 leaves the write lock held. -/
theorem davMethod_delete_404_keeps_lock :
    ¬ Balanced (davMethod (answering (plainReply 404)) lockingServer [47, 97] .delete .write)
      (idle ()) := by
  show ¬ ([RwMode.wr] : List RwMode) = []
  decide

end NetworkFs.Dav
