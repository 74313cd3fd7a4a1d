import NetworkFs.Dav.Compensation
import NetworkFs.Dav.Truncation

/-!
# The lock table and the open handles

`filelock_tree` counts the write handles of each path: `dav_open` and `dav_create` add
one, `dav_release` takes one away. But a `DELETE`, which `dav_truncate` sends too, and a
`MOVE` drop the entry of their path with whatever it counts. A `Mount` is the thread
together with the handles that libfuse has open; `HandleRun` are its runs.

* `yields_davLock`, `yields_davUnlock`, ...: what each callback leaves of the table when
  requests succeed.
* `accounted_of_run`: the table counts the handles in every run that neither replaces nor
  renames a file with a write handle.
-/

namespace NetworkFs.Dav

open Control Grammar Wrapper Text Data

/-! ## The entries of a path -/

/-- The counts of the entries of `path`. -/
def cnts (path : Path) (table : List FileLock) : List ℤ :=
  (table.filter (·.path == path)).map (·.cnt)

theorem cnts_cons (path : Path) (e : FileLock) (table : List FileLock) :
    cnts path (e :: table) = if e.path = path then e.cnt :: cnts path table else cnts path table := by
  by_cases h : e.path = path <;> simp [cnts, h]

theorem tfind_cons (path : Path) (e : FileLock) (table : List FileLock) :
    tfind path (e :: table) = if e.path = path then some e else tfind path table := by
  by_cases h : e.path = path <;> simp [tfind, h]

/-- `tfind` gives the first entry. -/
theorem cnts_head (path : Path) (table : List FileLock) :
    (cnts path table).head? = (tfind path table).map (·.cnt) := by
  induction table with
  | nil => rfl
  | cons e table ih =>
    rw [cnts_cons, tfind_cons]
    split_ifs
    · rfl
    · exact ih

theorem tfind_eq_none_iff {path : Path} {table : List FileLock} :
    tfind path table = none ↔ cnts path table = [] := by
  rw [← List.head?_eq_none_iff, cnts_head, Option.map_eq_none_iff]

theorem cnts_addCnt (path other : Path) (d : ℤ) (table : List FileLock) :
    cnts other (addCnt path d table) =
      if other = path then (cnts other table).modifyHead (· + d) else cnts other table := by
  induction table with
  | nil => simp [addCnt, cnts]
  | cons e table ih =>
    rw [addCnt]
    by_cases he : e.path = path
    · rw [if_pos (by simpa using he), cnts_cons, cnts_cons]
      by_cases hother : other = path
      · simp [hother, he]
      · have hne : e.path ≠ other := fun h => hother (h.symm.trans he)
        simp [hother, hne]
    · rw [if_neg (by simpa using he), cnts_cons, cnts_cons, ih]
      by_cases hother : other = path
      · have hne : e.path ≠ other := fun h => he (h.trans hother)
        simp [hother, he]
      · simp [hother]

theorem cnts_tdelete (path other : Path) (table : List FileLock) :
    cnts other (tdelete path table) =
      if other = path then (cnts other table).tail else cnts other table := by
  induction table with
  | nil => simp [tdelete, cnts]
  | cons e table ih =>
    have hcons : tdelete path (e :: table) =
        if e.path = path then table else e :: tdelete path table := by
      by_cases he : e.path = path <;> simp [tdelete, he]
    rw [hcons]
    by_cases he : e.path = path
    · rw [if_pos he, cnts_cons]
      by_cases hother : other = path
      · simp [hother, he]
      · have hne : e.path ≠ other := fun h => hother (h.symm.trans he)
        simp [hother, hne]
    · rw [if_neg he, cnts_cons, cnts_cons, ih]
      by_cases hother : other = path
      · simp [hother, he]
      · simp [hother]

/-! ## Requests that succeed -/

/-- Every request succeeds, but a `HEAD` may say that there is nothing; a `LOCK` is answered
    with a token and a body that names it. The outside changes only by requests. -/
structure Succeeds {σ : Type} (env : Env σ) : Prop extends Steady env where
  answers : ∀ request s, request.method ≠ .head → (env.perform request s).1.code = .ok
  grants : ∀ request s, request.method = .lock →
    ∃ token, headerToken (env.perform request s).1.headers = some token ∧
      LockAccepted token (env.perform request s).1.xml
  unescape : ∀ text s, (env.unescape text s).2 = s

/-- The lock table is the same. -/
def SameTable {σ : Type} (t t' : Thread (Mem σ)) : Prop := t'.mem.table = t.mem.table

instance {σ : Type} : QuietFrame (SameTable (σ := σ)) where
  refl _ := rfl
  trans _ _ _ h h' := Eq.trans h' h
  quiet _ _ _ _ h := h
  raise _ _ := rfl
  clear _ := rfl

instance {σ : Type} : OutsideFree (SameTable (σ := σ)) := ⟨fun _ _ => rfl⟩

/-- No exception and no hold: between two callbacks. -/
structure AtRest {σ : Type} (t : Thread (Mem σ)) : Prop where
  clear : t.ex = .clear
  free : t.mem.held = []

theorem AtRest.clean {σ : Type} {t : Thread (Mem σ)} (h : AtRest t) : t.ex.has = false := by
  rw [h.clear]
  rfl

theorem AtRest.stays {σ : Type} {t t' : Thread (Mem σ)} (h : AtRest t) (hstays : StaysPlain t t')
    (hex : t'.ex.has = false) : t'.ex = .clear :=
  hstays (fun _ => h.clear) hex

/-- `m` returns `v` and leaves `table`, and the thread is at rest. -/
def Yields {σ ρ α : Type} (m : Dav σ ρ α) (t : Thread (Mem σ)) (v : α) (table : List FileLock) :
    Prop :=
  ∃ t', m t = (.ok v, t') ∧ AtRest t' ∧ t'.mem.table = table

theorem Yields.bind {σ ρ α β : Type} {m : Dav σ ρ α} {f : α → Dav σ ρ β} {t : Thread (Mem σ)}
    {v : α} {w : β} {table table' : List FileLock} (hm : Yields m t v table)
    (hf : ∀ t', AtRest t' → t'.mem.table = table → Yields (f v) t' w table') :
    Yields (m >>= f) t w table' := by
  obtain ⟨t', hrun, hrest, htable⟩ := hm
  obtain ⟨t'', hrun', hyields⟩ := hf t' hrest htable
  exact ⟨t'', (Ctl.bind_ok hrun).trans hrun', hyields⟩

theorem Yields.pure {σ ρ α : Type} {t : Thread (Mem σ)} (h : AtRest t) (v : α) :
    Yields (Pure.pure v : Dav σ ρ α) t v t.mem.table :=
  ⟨t, rfl, h, rfl⟩

section Methods

variable {σ ρ : Type} {env : Env σ} {srv : DavServer} (hs : Succeeds env)
  (hlock : srv.options.useLock = true) {path : Path} {t : Thread (Mem σ)} (h : AtRest t)

theorem AtRest.canLock (lockType : LockType) (h : AtRest t) : CanLock srv lockType t := by
  intro _
  rw [h.free]
  split_ifs <;> rfl

theorem yields_davExceptionCheck (h : AtRest t) (res : ℤ) :
    Yields (davExceptionCheck res : Dav σ ρ ℤ) t res t.mem.table :=
  ⟨t, davExceptionCheck_clean res h.clean, h, rfl⟩

include hs h

theorem yields_davPutSimple :
    Yields (davPutSimple env srv path : Dav σ ρ ℤ) t 0 t.mem.table := by
  have hput := davMethod_ok (ρ := ρ) srv hs.toSteady h.clean path .put (h.canLock .read)
    (hs.answers _ _ (by exact nofun))
  rw [listed_read] at hput
  exact ⟨_, hput, ⟨h.clear, h.free⟩, rfl⟩

theorem yields_davPut (data : Bytes) (offset : ℤ) :
    Yields (davPut env srv path data offset : Dav σ ρ ℤ) t 0 t.mem.table :=
  ⟨_, davPut_ok srv hs.toSteady h.clean (h.canLock .read) (hs.answers _ _ (by exact nofun)),
    ⟨h.clear, h.free⟩, rfl⟩

theorem yields_davProppatch (key : XmlName) (value : Option Text) :
    Yields (davProppatch env srv path key value : Dav σ ρ ℤ) t 0 t.mem.table :=
  ⟨_, davProppatch_ok srv hs.toSteady h.clean (hs.answers _ _ (by exact nofun)),
    ⟨h.clear, h.free⟩, rfl⟩

theorem yields_davChmod (mode : ℕ) :
    Yields (davChmod env srv path mode : Dav σ ρ ℤ) t 0 t.mem.table :=
  .bind (yields_davProppatch hs h _ _) fun _ h' htable =>
    htable ▸ yields_davExceptionCheck h' 0

include hlock

/-- A `DELETE` drops the entry. -/
theorem yields_davDelete :
    Yields (davDelete env srv path : Dav σ ρ ℤ) t 0 (tdelete path t.mem.table) := by
  have hdelete := davMethod_ok (ρ := ρ) srv hs.toSteady h.clean path .delete (h.canLock .write)
    (hs.answers _ _ (by exact nofun))
  refine ⟨_, hdelete, ⟨?_, ?_⟩, ?_⟩
  · rw [answered_ex, listed_ex]
    exact h.clear
  · rw [answered_held, listed_held]
    exact h.free
  · have huses : usesLock srv .write = true := by simp [usesLock, hlock]
    rw [answered_table, listed, if_pos huses]
    rfl

theorem yields_davUnlink :
    Yields (davUnlink env srv path : Dav σ ρ ℤ) t 0 (tdelete path t.mem.table) :=
  .bind (yields_davDelete hs hlock h) fun _ h' htable => htable ▸ yields_davExceptionCheck h' 0

/-! ## `dav_lock` and `dav_unlock` -/

omit hs in
/-- An entry that is there is counted. -/
theorem yields_davLock_found {e : FileLock} (hf : tfind path t.mem.table = some e) :
    Yields (davLock env srv path : Dav σ ρ ℤ) t 0 (addCnt path 1 t.mem.table) := by
  have hfind := lockFind_synchronized (ρ := ρ) path (t := t) (by rw [h.free]; rfl)
  rw [hf] at hfind
  refine ⟨counted path 1 t, ?_, ⟨h.clear, h.free⟩, rfl⟩
  rw [davLock, if_pos hlock, Ctl.bind_ok hfind]
  rfl

/-- An entry that is not there is made. -/
theorem yields_davLock_absent (hf : tfind path t.mem.table = none) :
    ∃ token, Yields (davLock env srv path : Dav σ ρ ℤ) t 0 (⟨path, token, 1⟩ :: t.mem.table) := by
  have hallocs : lockAllocs env = .pass := by
    rw [lockAllocs, hs.alloc, hs.alloc]
    rfl
  have hweak : weakAttempt env = .pass := by
    funext s
    rw [weakAttempt, hs.alloc]
    rfl
  have hbefore : lockBefore env srv path = .pass := by
    rw [lockBefore, hs.initAttempt, hs.alloc, hweak, hs.noError_setopt]
    rfl
  set reply := env.perform (lockRequest env srv path t.mem.env) t.mem.env with hreply
  obtain ⟨token, htoken, haccepted⟩ : ∃ token, headerToken reply.1.headers = some token ∧
    LockAccepted token reply.1.xml := hs.grants (lockRequest env srv path t.mem.env) t.mem.env rfl
  have hcode : reply.1.code = .ok := hs.answers _ _ (by rintro ⟨⟩)
  have hgrant : lockTaken env srv path (lockAllocs env t.mem.env).2 =
      some ⟨reply.1.code, token, reply.1.xml, reply.2⟩ := by
    rw [hallocs]
    show lockTaken env srv path t.mem.env = _
    rw [lockTaken, lockExchange, hbefore]
    show (if reply.1.code = .ok then replyGrant reply else none) = _
    rw [if_pos hcode, replyGrant, htoken]
    rfl
  have hentered : Grant.Entered env ⟨reply.1.code, token, reply.1.xml, reply.2⟩ := by
    refine ⟨hcode, ?_, haccepted, ?_⟩
    · rw [hs.alloc]
      rfl
    · rw [hs.alloc]
      rfl
  obtain ⟨t', hrun, hex, hheld, htable⟩ := davLock_enters (ρ := ρ) env srv hlock hf h.clean h.free
    (by rw [hallocs]; rfl) hgrant hentered
  have hplain := (within_davLock (R := StaysPlain) (A := anyExit (ρ := ρ)) env srv path t).1
  rw [hrun] at hplain
  exact ⟨token, t', hrun, ⟨h.stays hplain hex, hheld⟩, htable⟩

omit hlock in
theorem yields_davUnlockCore (token : Text) :
    Yields (davUnlockCore env srv path token : Dav σ ρ ℤ) t 0 t.mem.table := by
  have hpass : (unlockAttempt env srv path token t.mem.env).1 = true := by
    rw [unlockAttempt, hs.initAttempt, hs.alloc, sendAttempt, hs.noError_setopt]
    show ((env.perform _ t.mem.env).1.code == .ok) = true
    rw [hs.answers _ _ (by rintro ⟨⟩)]
    rfl
  obtain ⟨t', hrun, hex, -⟩ := davUnlockCore_pass (ρ := ρ) env srv path token h.clean hpass
  have hheld := (within_davUnlockCore (R := SameHeld) (A := anyExit (ρ := ρ)) env srv path token t).1
  have htable := (within_davUnlockCore (R := SameTable) (A := anyExit (ρ := ρ)) env srv path token
    t).1
  have hplain := (within_davUnlockCore (R := StaysPlain) (A := anyExit (ρ := ρ)) env srv path token
    t).1
  rw [hrun] at hheld htable hplain
  exact ⟨t', hrun, ⟨h.stays hplain hex, Eq.trans hheld h.free⟩, htable⟩

omit hs hlock in
/-- The read section of `dav_unlock`. -/
theorem unlockDecrement_synchronized {e : FileLock} (hf : tfind path t.mem.table = some e) :
    (synchronized rdlock (unlockDecrement path) : Dav σ ρ (Option (Option FileLock))) t =
      (.ok (some (if e.cnt - 1 > 0 then none else some e)), counted path (-1) t) := by
  have hdecrement : (unlockDecrement path : Dav σ ρ (Option FileLock)) (hold .rd t) =
      (.ok (if e.cnt - 1 > 0 then none else some e), counted path (-1) (hold .rd t)) := by
    simp [unlockDecrement, Ctl.bind_apply, hf]
    rfl
  exact synchronized_ok (rdlock_apply (by rw [h.free]; rfl)) hdecrement rfl

omit hs in
/-- One of several write handles is released. -/
theorem yields_davUnlock_shared {e : FileLock} (hf : tfind path t.mem.table = some e)
    (hcnt : e.cnt - 1 > 0) :
    Yields (davUnlock env srv path : Dav σ ρ ℤ) t 0 (addCnt path (-1) t.mem.table) := by
  have hread := unlockDecrement_synchronized (ρ := ρ) h hf
  rw [if_pos hcnt] at hread
  refine ⟨counted path (-1) t, ?_, ⟨h.clear, h.free⟩, rfl⟩
  rw [davUnlock, if_pos hlock, Ctl.bind_ok hread]
  rfl

/-- The last write handle is released. -/
theorem yields_davUnlock_last {e : FileLock} (hf : tfind path t.mem.table = some e)
    (hcnt : e.cnt - 1 ≤ 0) :
    Yields (davUnlock env srv path : Dav σ ρ ℤ) t 0
      (tdelete path (addCnt path (-1) t.mem.table)) := by
  have hread := unlockDecrement_synchronized (ρ := ρ) h hf
  rw [if_neg (by omega)] at hread
  set e' : FileLock := { e with cnt := e.cnt + -1 } with he'
  have hf' : tfind path (addCnt path (-1) t.mem.table) = some e' := by
    rw [tfind_addCnt, hf]
    rfl
  set t₁ := counted path (-1) t with ht₁
  set t₂ : Thread (Mem σ) :=
    { t₁ with mem := { t₁.mem with table := tdelete path t₁.mem.table } } with ht₂
  have hremove : (unlockRemove path e : Dav σ ρ FileLock) (hold .wr t₁) = (.ok e', hold .wr t₂) := by
    have hfound : tfind path (hold .wr t₁).mem.table = some e' := hf'
    have hle : e'.cnt ≤ 0 := by
      show e.cnt + -1 ≤ 0
      omega
    rw [unlockRemove, Ctl.bind_ok (Ctl.gets_apply _ _), hfound]
    show (if e'.cnt ≤ 0 then _ else _ : Dav σ ρ FileLock) _ = _
    rw [if_pos hle]
    rfl
  have hwrite : (synchronized wrlock (unlockRemove path e) : Dav σ ρ (Option FileLock)) t₁ =
      (.ok (some e'), t₂) := synchronized_ok (wrlock_apply (t := t₁) h.free) hremove rfl
  have hunlock : Yields (davUnlockCore env srv e'.path e'.token : Dav σ ρ ℤ) t₂ 0 t₂.mem.table :=
    yields_davUnlockCore hs (t := t₂) ⟨h.clear, h.free⟩ e'.token
  obtain ⟨t', hrun, hrest, htable⟩ := hunlock
  refine ⟨t', ?_, hrest, htable⟩
  rw [davUnlock, if_pos hlock, Ctl.bind_ok hread]
  exact (Ctl.bind_ok hwrite).trans hrun

/-! ## `dav_rename` -/

omit hs hlock h in
theorem clean_of_testSuccess {α : Type} {m : Dav σ ρ α} {t' : Thread (Mem σ)}
    (hrun : (m >>= fun _ => testSuccess : Dav σ ρ ℤ) t = (.ok 0, t')) : t'.ex.has = false := by
  obtain ⟨a, u, -, htest⟩ := Ctl.bind_eq_ok hrun
  rw [testSuccess_apply] at htest
  obtain ⟨hv, hu⟩ := Prod.mk.inj htest
  rw [← hu]
  cases hex : u.ex.has with
  | false => rfl
  | true =>
    rw [hex] at hv
    exact nomatch Except.ok.inj hv

/-- A `MOVE` drops the entry of its source. -/
theorem yields_davMoveCore (from_ to_ : Path) (nooverwrite : Bool) :
    Yields (davMoveCore env srv from_ to_ nooverwrite : Dav σ Unit ℤ) t 0
      (tdelete from_ t.mem.table) := by
  have hbefore : moveBefore env srv from_ to_ nooverwrite = .pass := by
    rw [moveBefore, hs.initAttempt, hs.destinationAttempt, overwriteAttempt, hs.alloc, ite_self]
    rfl
  have hlocked : (moveLocked env from_ to_ nooverwrite t.mem.table t.mem.env).1 = true := by
    rw [moveLocked, hs.ifAttempt, hs.ifAttempt, sendAttempt, hs.noError_setopt]
    show ((env.perform _ t.mem.env).1.code == .ok) = true
    rw [hs.answers _ _ (by rintro ⟨⟩)]
    rfl
  have hpass : ((moveBefore env srv from_ to_ nooverwrite).andThen
      (moveLocked env from_ to_ nooverwrite t.mem.table) t.mem.env).1 = true := by
    rw [hbefore]
    exact hlocked
  obtain ⟨v, t', hrun, hv⟩ := davMoveCore_returns (ρ := Unit) env srv hlock h.clean h.free from_ to_
    nooverwrite
  obtain rfl := hv.mpr hpass
  have hplain := (within_davMoveCore (R := StaysPlain) (A := anyExit (ρ := Unit)) env srv from_ to_
    nooverwrite t).1
  rw [hrun] at hplain
  refine ⟨t', hrun, ⟨h.stays hplain (clean_of_testSuccess hrun), ?_⟩, ?_⟩
  · refine (balanced_of_ok hrun).mp ?_
    exact (balanced_davMoveCore env srv hlock h.free from_ to_ nooverwrite).mpr (.inr fun _ => hpass)
  · have hif : ((moveBefore env srv from_ to_ nooverwrite).andThen (ifAttempt env from_ t.mem.table)
        t.mem.env).1 = true := by
      rw [hbefore, hs.ifAttempt]
      rfl
    have hleaves : Leaves (davMoveCore env srv from_ to_ nooverwrite : Dav σ Unit ℤ) t
        fun _ table => table = tdelete from_ t.mem.table :=
      leaves_davMoveCore env srv hlock from_ to_ nooverwrite
        (fun hn => absurd ⟨h.clean, h.free, hif⟩ hn) fun _ _ _ => ⟨rfl, rfl⟩
    rw [Leaves, hrun] at hleaves
    exact hleaves

/-- `dav_rename` drops the entry of its source when it sends its `MOVE`. -/
theorem yields_davRename (from_ to_ : Path) (flags : ℕ) :
    ∃ v, Yields (davRename env srv from_ to_ flags : Dav σ Unit ℤ) t v
      (if v = 0 then tdelete from_ t.mem.table else t.mem.table) ∧
      (v = 0 → srv.move = true ∧ (flags = 0 ∨ flags = 1)) := by
  have hmoved (nooverwrite : Bool) : Yields (do
      let _ ← davMoveCore env srv from_ to_ nooverwrite
      davExceptionCheck 0 : Dav σ Unit ℤ) t 0 (tdelete from_ t.mem.table) :=
    .bind (yields_davMoveCore hs hlock h from_ to_ nooverwrite) fun _ h' htable =>
      htable ▸ yields_davExceptionCheck h' 0
  unfold davRename
  split_ifs with hmove
  · split
    · exact ⟨0, hmoved false, fun _ => ⟨hmove, .inl rfl⟩⟩
    · exact ⟨0, hmoved true, fun _ => ⟨hmove, .inr rfl⟩⟩
    · exact ⟨-einval, .pure h _, fun hv => (nomatch hv)⟩
  · exact ⟨-eopnotsupp, .pure h _, fun hv => (nomatch hv)⟩

/-! ## `dav_write` and `dav_mknod` -/

omit hlock in
theorem yields_davWrite (buf : Bytes) (offset : ℤ) :
    Yields (davWrite env srv path buf offset : Dav σ ρ ℤ) t (toInt buf.length) t.mem.table := by
  have hput : Yields (davPut env srv path buf offset : Dav σ ρ ℤ) t 0 t.mem.table :=
    yields_davPut hs h buf offset
  obtain ⟨t', hrun, hrest, htable⟩ := hput
  refine ⟨t', ?_, hrest, htable⟩
  have hsteps : (writeSteps env srv path buf offset : Dav σ ρ ℤ) t = (.ok 0, t') := Ctl.bind_ok hrun
  exact Ctl.bind_ok hsteps

omit hlock in
/-- `dav_mknod` stops at what is there already, or makes the file. -/
theorem yields_davMknod (mode rdev : ℕ) :
    ∃ v, Yields (davMknod env srv path mode rdev : Dav σ ρ ℤ) t v t.mem.table := by
  cases hdir : isDir mode with
  | true =>
    refine ⟨-einval, t, ?_, h, rfl⟩
    refine Ctl.call_ok ?_
    rw [hdir, if_pos rfl]
    rfl
  | false =>
    by_cases hc : (env.perform (headRequest path) t.mem.env).1.code = .ok
    · have hhead := davHead_ok (ρ := ℤ) srv hs.toSteady h.clean hc
      exact ⟨_, _, davMknod_exists env srv rdev hdir hhead h.clean, ⟨h.clear, h.free⟩, rfl⟩
    · have hhead := davHead_failed (ρ := ℤ) srv hs.toSteady h.clean hc
      set t₁ := refused (env.perform (headRequest path) t.mem.env).1
        (answered env (headRequest path) t) with ht₁
      cases habsent : t₁.ex.isHttp 404 || t₁.ex.isHttp 403 with
      | false =>
        exact ⟨_, _, davMknod_failed env srv rdev hdir hhead rfl habsent, ⟨rfl, h.free⟩, rfl⟩
      | true =>
        have hrest : AtRest (⟨.clear, t₁.mem⟩ : Thread (Mem σ)) := ⟨rfl, h.free⟩
        have hmade : Yields (davPutSimple env srv path : Dav σ ℤ ℤ) ⟨.clear, t₁.mem⟩ 0
          t.mem.table := yields_davPutSimple hs hrest
        obtain ⟨t₂, hput, hrest₂, htable₂⟩ := hmade
        have hpatched : Yields (davChmod env srv path mode : Dav σ ℤ ℤ) t₂ 0 t₂.mem.table :=
          yields_davChmod hs hrest₂ mode
        obtain ⟨t₃, hchmod, hrest₃, htable₃⟩ := hpatched
        refine ⟨0, t₃, ?_, hrest₃, htable₃.trans htable₂⟩
        rw [davMknod_put env srv rdev hdir hhead rfl habsent hput hrest₂.clean]
        exact Ctl.call_ok hchmod

end Methods

/-! ## `dav_truncate` -/

section Truncate

variable {σ ρ : Type} (env : Env σ) (srv : DavServer)

/-- `dav_truncate` finds at least twice `size` and then reads nothing. -/
def ReadsNothing (path : Path) (size : ℤ) (s : σ) : Prop :=
  let head := env.perform (headRequest path) s
  let buf := (List.range size.toNat).map (env.stackByte head.2)
  let get := env.perform (getRequest path buf 0) head.2
  head.1.code = .ok ∧ toUnsigned size < headLength head.1 / 2 ∧
    (buf.length = 0 ∨ ((received buf get.1).1 = true ∧ toInt (received buf get.1).2.offset = 0))

/-- `dav_truncate` deletes the file and puts it again: `dav_getattr` reports another size, and
    the size is zero or nothing is read. -/
def Replaces (path : Path) (size : ℤ) (s : σ) : Prop :=
  let reply := env.perform (propfindRequest path 0) s
  (∃ st, Reports env srv.options (env.stackStat s) reply.1 reply.2 st ∧ st.size ≠ size) ∧
    (size = 0 ∨ ReadsNothing env path size reply.2)

variable {env srv} (hs : Succeeds env) {path : Path} {t : Thread (Mem σ)}

theorem clean_davExceptionCheck {res v : ℤ} {t' : Thread (Mem σ)}
    (hrun : (davExceptionCheck res : Dav σ ρ ℤ) t = (.ok v, t')) : t'.ex.has = false := by
  cases hex : t.ex.has with
  | false =>
    rw [davExceptionCheck_clean res hex] at hrun
    rw [← (Prod.mk.inj hrun).2]
    exact hex
  | true =>
    rw [davExceptionCheck_pending res hex] at hrun
    rw [← (Prod.mk.inj hrun).2]
    rfl

/-- `dav_getattr` always destroys its exception. -/
theorem clean_davGetattr {stbuf : Stat} {r : ℤ × Stat} {t' : Thread (Mem σ)}
    (hrun : (davGetattr env srv path stbuf : Dav σ ρ (ℤ × Stat)) t = (.ok r, t')) :
    t'.ex.has = false := by
  obtain ⟨_, t₁, -, hrun⟩ := Ctl.bind_eq_ok hrun
  obtain ⟨_, t₂, -, hrun⟩ := Ctl.bind_eq_ok hrun
  obtain ⟨res, t₃, hcheck, hrun⟩ := Ctl.bind_eq_ok hrun
  have hclean := clean_davExceptionCheck hcheck
  rw [← (Prod.mk.inj hrun).2]
  exact hclean

theorem Steady.outside (hs : Steady env) (hunescape : ∀ text s, (env.unescape text s).2 = s) :
    Outside env SameEnv where
  alloc a t := by
    rw [SameEnv, hs.alloc]
    rfl
  urlSet path t := congrArg Prod.snd (hs.urlSet path t.mem.env)
  urlGet t := congrArg Prod.snd (hs.urlGet t.mem.env)
  setopt option t := congrArg Prod.snd (hs.setopt option t.mem.env)
  unescape text t := hunescape text t.mem.env

/-- `dav_getattr` whose request is answered returns an error, or it reports attributes and the
    outside is as after its request. -/
theorem davGetattr_answered (hs : Steady env) (hunescape : ∀ text s, (env.unescape text s).2 = s)
    (hcode : (env.perform (propfindRequest path 0) t.mem.env).1.code = .ok) (h : AtRest t)
    {stbuf : Stat} {r : ℤ × Stat} {t' : Thread (Mem σ)}
    (hrun : (davGetattr env srv path stbuf : Dav σ ρ (ℤ × Stat)) t = (.ok r, t')) :
    AtRest t' ∧ t'.mem.table = t.mem.table ∧ (r.1 = 0 →
      Reports env srv.options stbuf (env.perform (propfindRequest path 0) t.mem.env).1
        (env.perform (propfindRequest path 0) t.mem.env).2 r.2 ∧
      t'.mem.env = (env.perform (propfindRequest path 0) t.mem.env).2) := by
  have hheld := (within_davGetattr (R := SameHeld) (A := anyExit (ρ := ρ)) env srv path stbuf t).1
  have htable := (within_davGetattr (R := SameTable) (A := anyExit (ρ := ρ)) env srv path stbuf t).1
  have hplain := (within_davGetattr (R := StaysPlain) (A := anyExit (ρ := ρ)) env srv path stbuf t).1
  rw [hrun] at hheld htable hplain
  refine ⟨⟨h.stays hplain (clean_davGetattr hrun), Eq.trans hheld h.free⟩, htable, fun hzero => ?_⟩
  have hreceived := hs.propfindReceived srv path 0 t.mem.env
  rw [if_pos hcode] at hreceived
  obtain ⟨-, v, st, u, hrun', hv⟩ | ⟨-, u, hrun'⟩ | ⟨st, u, hreports, hrun', -, t₀, henv, hlast⟩ :=
    davGetattr_cases (ρ := ρ) env srv h.clean hreceived stbuf
  · obtain ⟨heq, -⟩ := Prod.mk.inj (hrun.symm.trans hrun')
    rw [Except.ok.inj heq] at hzero
    exact absurd hzero hv.ne
  · exact nomatch (Prod.mk.inj (hrun.symm.trans hrun')).1
  · obtain ⟨heq, rfl⟩ := Prod.mk.inj (hrun.symm.trans hrun')
    have := hs.outside hunescape
    have hsame := (within_propfindReply (R := SameEnv) (A := anyExit (ρ := ρ)) env srv
      within_davGetattrCallback (env.perform (propfindRequest path 0) t.mem.env).1 t₀).1
    rw [hlast] at hsame
    rw [Except.ok.inj heq]
    exact ⟨hreports, Eq.trans hsame henv⟩

include hs

theorem davGetattr_atRest (h : AtRest t) {stbuf : Stat} {r : ℤ × Stat} {t' : Thread (Mem σ)}
    (hrun : (davGetattr env srv path stbuf : Dav σ ρ (ℤ × Stat)) t = (.ok r, t')) :
    AtRest t' ∧ t'.mem.table = t.mem.table ∧ (r.1 = 0 →
      Reports env srv.options stbuf (env.perform (propfindRequest path 0) t.mem.env).1
        (env.perform (propfindRequest path 0) t.mem.env).2 r.2 ∧
      t'.mem.env = (env.perform (propfindRequest path 0) t.mem.env).2) :=
  davGetattr_answered hs.toSteady hs.unescape (hs.answers _ _ (by exact nofun)) h hrun

/-- `dav_read` returns an error or a count, and zero only if nothing was stored. -/
theorem davRead_atRest (h : AtRest t) {data : Bytes} {r : ℤ × Bytes} {t' : Thread (Mem σ)}
    (hrun : (davRead env srv path data 0 : Dav σ ρ (ℤ × Bytes)) t = (.ok r, t')) :
    AtRest t' ∧ t'.mem.table = t.mem.table ∧ (r.1 = 0 → data.length = 0 ∨
      ((received data (env.perform (getRequest path data 0) t.mem.env).1).1 = true ∧
        toInt (received data (env.perform (getRequest path data 0) t.mem.env).1).2.offset = 0)) := by
  by_cases hdata : data.length = 0
  · rw [davRead, if_pos hdata] at hrun
    obtain ⟨-, rfl⟩ := Prod.mk.inj hrun
    exact ⟨h, rfl, fun _ => .inl hdata⟩
  set reply := (env.perform (getRequest path data 0) t.mem.env).1 with hreply
  have hcode : reply.code = .ok := hs.answers _ _ (by rintro ⟨⟩)
  by_cases hstored : (received data reply).1 = true
  · have hget := davGet_ok (ρ := ρ) srv hs.toSteady path data 0 h.clean hcode hstored
    by_cases hneg : toInt (received data reply).2.offset < 0
    · rw [davRead_neg srv hdata hget hneg] at hrun
      obtain ⟨heq, rfl⟩ := Prod.mk.inj hrun
      refine ⟨⟨rfl, h.free⟩, rfl, fun hzero => ?_⟩
      rw [← Except.ok.inj heq, answered_ex, h.clear] at hzero
      dsimp only at hzero
      exact absurd hzero (by decide)
    · rw [davRead_count srv hdata hget hneg] at hrun
      obtain ⟨heq, rfl⟩ := Prod.mk.inj hrun
      refine ⟨⟨h.clear, h.free⟩, rfl, fun hzero => .inr ⟨hstored, ?_⟩⟩
      rw [← Except.ok.inj heq] at hzero
      dsimp only at hzero
      exact hzero
  · have hget := davGet_failed (ρ := ρ) srv hs.toSteady path data 0 h.clean
      fun hall => hstored hall.2
    rw [davRead_neg srv hdata hget neg_one_lt_zero] at hrun
    obtain ⟨heq, rfl⟩ := Prod.mk.inj hrun
    refine ⟨⟨rfl, h.free⟩, rfl, fun hzero => ?_⟩
    rw [← Except.ok.inj heq, if_neg hstored] at hzero
    exact absurd hzero (exceptionErrno_neg (.init (.curl curleWriteError reply.status .perform))).ne

variable (hlock : srv.options.useLock = true)

include hlock

/-- To zero: a `DELETE`, a `PUT` and a `PROPPATCH`. -/
theorem yields_truncateZero (h : AtRest t) (mode : ℕ) :
    Yields (truncateZero env srv path mode : Dav σ ρ ℤ) t 0 (tdelete path t.mem.table) := by
  refine .bind (yields_davDelete hs hlock h) fun t₁ h₁ htable₁ => ?_
  rw [if_neg (not_not_intro rfl)]
  refine .bind (yields_davPutSimple hs h₁) fun t₂ h₂ htable₂ => ?_
  rw [if_neg (not_not_intro rfl), ← htable₁, ← htable₂]
  exact yields_davChmod hs h₂ mode

/-- Below half of the length: the file is replaced only after a read of nothing. -/
theorem truncateRewrite_atRest (h : AtRest t) {size v : ℤ} {t' : Thread (Mem σ)}
    (hrun : (truncateRewrite env srv path size : Dav σ ρ ℤ) t = (.ok v, t')) :
    let buf := (List.range size.toNat).map (env.stackByte t.mem.env)
    let get := env.perform (getRequest path buf 0) t.mem.env
    AtRest t' ∧ (t'.mem.table = t.mem.table ∨
      (buf.length = 0 ∨ (received buf get.1).1 = true ∧ toInt (received buf get.1).2.offset = 0) ∧
        t'.mem.table = tdelete path t.mem.table) := by
  intro buf get
  obtain ⟨_, t₁, hstack, hrun⟩ := Ctl.bind_eq_ok hrun
  obtain ⟨hbuf, rfl⟩ := Prod.mk.inj hstack
  obtain rfl : buf = _ := Except.ok.inj hbuf
  obtain ⟨r, t₂, hread, hrun⟩ := Ctl.bind_eq_ok hrun
  obtain ⟨h₂, htable₂, hzero⟩ := davRead_atRest hs h hread
  split_ifs at hrun with hr
  · obtain ⟨-, rfl⟩ := Prod.mk.inj hrun
    exact ⟨h₂, .inl htable₂⟩
  · have hreplaced : Yields (do
        let res ← davUnlink env srv path
        if res ≠ 0 then pure res else do
          let res ← davPut env srv path r.2 0
          davExceptionTest res : Dav σ ρ ℤ) t₂ 0 (tdelete path t.mem.table) := by
      refine .bind (yields_davUnlink hs hlock h₂) fun t₃ h₃ htable₃ => ?_
      rw [if_neg (not_not_intro rfl), ← htable₂, ← htable₃]
      exact .bind (yields_davPut hs h₃ r.2 0) fun t₄ h₄ htable₄ => htable₄ ▸ .pure h₄ 0
    obtain ⟨u, hrun', hrest, htable⟩ := hreplaced
    obtain ⟨-, rfl⟩ := Prod.mk.inj (hrun'.symm.trans hrun)
    exact ⟨hrest, .inr ⟨hzero (not_not.mp hr), htable⟩⟩

theorem truncateNonzero_atRest (h : AtRest t) {size v : ℤ} {t' : Thread (Mem σ)}
    (hrun : (truncateNonzero env srv path size : Dav σ ρ ℤ) t = (.ok v, t')) :
    AtRest t' ∧ (t'.mem.table = t.mem.table ∨
      ReadsNothing env path size t.mem.env ∧ t'.mem.table = tdelete path t.mem.table) := by
  by_cases hc : (env.perform (headRequest path) t.mem.env).1.code = .ok
  · set t₁ := answered env (headRequest path) t with ht₁
    have h₁ : AtRest t₁ := ⟨h.clear, h.free⟩
    have hhead := davHead_ok (ρ := ρ) srv hs.toSteady h.clean hc
    rw [truncateNonzero, Ctl.bind_ok hhead, if_neg (not_not_intro rfl)] at hrun
    split_ifs at hrun with hhalf
    · obtain ⟨hrest, hsame | ⟨hnothing, htable⟩⟩ := truncateRewrite_atRest hs hlock h₁ hrun
      · exact ⟨hrest, .inl hsame⟩
      · exact ⟨hrest, .inr ⟨⟨hc, hhalf, hnothing⟩, htable⟩⟩
    · have hpatched : Yields (truncateProp env srv path size : Dav σ ρ ℤ) t₁ 0 t₁.mem.table :=
        .bind (yields_davProppatch hs h₁ _ _) fun t₂ h₂ htable₂ => htable₂ ▸ .pure h₂ 0
      obtain ⟨u, hrun', hrest, htable⟩ := hpatched
      obtain ⟨-, rfl⟩ := Prod.mk.inj (hrun'.symm.trans hrun)
      exact ⟨hrest, .inl htable⟩
  · have hhead := davHead_failed (ρ := ρ) srv hs.toSteady h.clean hc
    rw [truncateNonzero, Ctl.bind_ok hhead, if_pos (by decide)] at hrun
    obtain ⟨-, rfl⟩ := Prod.mk.inj hrun
    exact ⟨⟨rfl, h.free⟩, .inl rfl⟩

/-- `dav_truncate` drops the entry when it replaces the file. -/
theorem davTruncate_atRest (h : AtRest t) {size v : ℤ} {t' : Thread (Mem σ)}
    (hrun : (davTruncate env srv path size : Dav σ ρ ℤ) t = (.ok v, t')) :
    AtRest t' ∧ (t'.mem.table = t.mem.table ∨
      Replaces env srv path size t.mem.env ∧ t'.mem.table = tdelete path t.mem.table) := by
  obtain ⟨_, _, hstack, hrun⟩ := Ctl.bind_eq_ok hrun
  obtain ⟨hst, rfl⟩ := Prod.mk.inj hstack
  obtain rfl := Except.ok.inj hst
  obtain ⟨r, t₁, hgetattr, hrun⟩ := Ctl.bind_eq_ok hrun
  obtain ⟨h₁, htable₁, hreports⟩ := davGetattr_atRest hs h hgetattr
  split_ifs at hrun with hr hsize hzero
  · obtain ⟨-, rfl⟩ := Prod.mk.inj hrun
    exact ⟨h₁, .inl htable₁⟩
  · obtain ⟨-, rfl⟩ := Prod.mk.inj hrun
    exact ⟨h₁, .inl htable₁⟩
  · obtain ⟨hrep, -⟩ := hreports (not_not.mp hr)
    have hreplaced : Yields (truncateZero env srv path r.2.mode : Dav σ ρ ℤ) t₁ 0
      (tdelete path t₁.mem.table) := yields_truncateZero hs hlock h₁ r.2.mode
    obtain ⟨u, hrun', hrest, htable⟩ := hreplaced
    obtain ⟨-, rfl⟩ := Prod.mk.inj (hrun'.symm.trans hrun)
    exact ⟨hrest, .inr ⟨⟨⟨r.2, hrep, hsize⟩, .inl hzero⟩, htable₁ ▸ htable⟩⟩
  · obtain ⟨hrep, henv⟩ := hreports (not_not.mp hr)
    obtain ⟨hrest, hsame | ⟨hnothing, htable⟩⟩ := truncateNonzero_atRest hs hlock h₁ hrun
    · exact ⟨hrest, .inl (hsame.trans htable₁)⟩
    · rw [henv] at hnothing
      exact ⟨hrest, .inr ⟨⟨⟨r.2, hrep, hsize⟩, .inr hnothing⟩, htable₁ ▸ htable⟩⟩

end Truncate

/-! ## The handles -/

/-- An open handle: the current name of its file, and its flags. -/
structure Handle where
  path : Path
  flags : OpenFlags
  deriving DecidableEq

/-- The thread, and the handles that libfuse has open. -/
structure Mount (σ : Type) where
  thread : Thread (Mem σ)
  opened : List Handle

/-- How many write handles `path` has. -/
def writers (path : Path) (opened : List Handle) : ℕ :=
  opened.countP fun h => h.path = path ∧ h.flags.writes

/-- What libfuse asks for: a release is of an open handle, an unlink of a file without one. -/
def Permitted (opened : List Handle) : Callback → Prop
  | .open_ _ _ => True
  | .create _ _ _ => True
  | .release path fi => ⟨path, fi⟩ ∈ opened
  | .write _ _ _ => True
  | .truncate _ _ => True
  | .rename _ _ _ => True
  | .unlink path => ∀ h ∈ opened, h.path ≠ path
  | _ => False

/-- The name of `path` after `from_` was renamed to `to_`: `from_` itself and what is below it
    move. -/
def renamed (from_ to_ path : Path) : Path :=
  if path = from_ ∨ from_ ++ [47] <+: path then to_ ++ path.drop from_.length else path

/-- The handles after a callback that returned `v`. -/
def handlesAfter (opened : List Handle) (v : ℤ) : Callback → List Handle
  | .open_ path fi => if v = 0 then ⟨path, fi⟩ :: opened else opened
  | .create path _ fi => if v = 0 then ⟨path, fi⟩ :: opened else opened
  | .release path fi => opened.erase ⟨path, fi⟩
  | .rename from_ to_ _ =>
    if v = 0 then opened.map fun h => { h with path := renamed from_ to_ h.path } else opened
  | _ => opened

/-- One entry with the count `k`, or none for zero. -/
def countOf (k : ℕ) : List ℤ := if k = 0 then [] else [(k : ℤ)]

/-- The table counts the write handles. -/
def Accounted (table : List FileLock) (opened : List Handle) : Prop :=
  ∀ path, cnts path table = countOf (writers path opened)

section Handles

variable {σ : Type} (env : Env σ) (srv : DavServer)

/-- No file with a write handle is replaced or renamed. -/
def Careful (x : Mount σ) : Callback → Prop
  | .truncate path size =>
    writers path x.opened = 0 ∨ ¬Replaces env srv path size x.thread.mem.env
  | .open_ path fi => fi.writes = true → fi.trunc = true →
    writers path x.opened = 0 ∨ ¬Replaces env srv path 0 x.thread.mem.env
  | .rename from_ to_ flags => srv.move = true → flags = 0 ∨ flags = 1 →
    ∀ h ∈ x.opened, h.flags.writes = true → h.path ≠ from_ ∧ renamed from_ to_ h.path = h.path
  | _ => True

/-- The runs of the callbacks on handles, from an empty table, in which every callback
    satisfies `ok`. -/
inductive HandleRun (ok : Mount σ → Callback → Prop) (s : σ) : Mount σ → Prop
  | start : HandleRun ok s ⟨entered s [], []⟩
  | serve {x : Mount σ} {c : Callback} {v : ℤ} {t : Thread (Mem σ)} (before : HandleRun ok s x)
      (permitted : Permitted x.opened c) (hok : ok x c)
      (run : (c.run env srv : Dav σ Unit ℤ) x.thread = (.ok v, t)) :
      HandleRun ok s ⟨t, handlesAfter x.opened v c⟩

variable {env srv} {table : List FileLock} {opened : List Handle} {path : Path} {fi : OpenFlags}

theorem writers_cons (path : Path) (h : Handle) (opened : List Handle) :
    writers path (h :: opened) =
      writers path opened + if h.path = path ∧ h.flags.writes then 1 else 0 := by
  simp [writers, List.countP_cons]

theorem writers_erase (path : Path) {h : Handle} (hmem : h ∈ opened) :
    writers path opened =
      writers path (opened.erase h) + if h.path = path ∧ h.flags.writes then 1 else 0 := by
  rw [← writers_cons]
  exact (List.perm_cons_erase hmem).countP_eq _

theorem writers_eq_zero : writers path opened = 0 ↔
    ∀ h ∈ opened, h.flags.writes = true → h.path ≠ path := by
  rw [writers, List.countP_eq_zero]
  refine forall₂_congr fun h _ => ?_
  rw [decide_eq_true_iff, not_and']

/-- A handle that was opened for writing finds its entry. -/
theorem Accounted.found (ha : Accounted table opened) {h : Handle} (hmem : h ∈ opened)
    (hwrites : h.flags.writes = true) : (tfind h.path table).isSome = true := by
  rw [Option.isSome_iff_ne_none]
  intro hnone
  rw [tfind_eq_none_iff, ha, countOf] at hnone
  split_ifs at hnone with hzero
  exact writers_eq_zero.mp hzero h hmem hwrites rfl

/-- The count of an entry. -/
theorem Accounted.cnt (ha : Accounted table opened) {e : FileLock}
    (hf : tfind path table = some e) :
    writers path opened ≠ 0 ∧ e.cnt = writers path opened := by
  have hhead := cnts_head path table
  rw [ha, hf, countOf] at hhead
  split_ifs at hhead with hzero
  · exact nomatch hhead
  · exact ⟨hzero, (Option.some.inj hhead).symm⟩

theorem Accounted.absent (ha : Accounted table opened) (hf : tfind path table = none) :
    writers path opened = 0 := by
  rw [tfind_eq_none_iff, ha, countOf] at hf
  split_ifs at hf with hzero
  exact hzero

/-- A handle that is not for writing does not count. -/
theorem Accounted.cons_reader (ha : Accounted table opened) (hfi : fi.writes = false) :
    Accounted table (⟨path, fi⟩ :: opened) := by
  intro other
  rw [ha, writers_cons, if_neg (by simp [hfi]), Nat.add_zero]

/-- A handle that is not for writing did not count. -/
theorem Accounted.erase_reader (ha : Accounted table opened) (hmem : ⟨path, fi⟩ ∈ opened)
    (hfi : fi.writes = false) : Accounted table (opened.erase ⟨path, fi⟩) := by
  intro other
  rw [ha, writers_erase other hmem, if_neg (by simp [hfi]), Nat.add_zero]

/-- One more write handle of a file that has an entry. -/
theorem Accounted.cons_counted (ha : Accounted table opened) {e : FileLock}
    (hf : tfind path table = some e) (hfi : fi.writes = true) :
    Accounted (addCnt path 1 table) (⟨path, fi⟩ :: opened) := by
  intro other
  obtain ⟨hne, -⟩ := ha.cnt hf
  rw [cnts_addCnt, ha, writers_cons]
  by_cases hother : other = path
  · subst hother
    simp [hfi, hne, countOf]
  · simp [hother, Ne.symm hother]

/-- The first write handle of a file. -/
theorem Accounted.cons_first (ha : Accounted table opened) (hf : tfind path table = none)
    (hfi : fi.writes = true) (token : Text) :
    Accounted (⟨path, token, 1⟩ :: table) (⟨path, fi⟩ :: opened) := by
  intro other
  have hzero := ha.absent hf
  rw [cnts_cons, ha, writers_cons]
  by_cases hother : path = other
  · subst hother
    simp [hfi, hzero, countOf]
  · simp [hother]

section Erase

variable (ha : Accounted table opened) (hmem : ⟨path, fi⟩ ∈ opened) (hfi : fi.writes = true)
  {e : FileLock} (hf : tfind path table = some e)

include hmem hfi

theorem writers_erase_writer (other : Path) :
    writers other opened = writers other (opened.erase ⟨path, fi⟩) + if path = other then 1 else 0 := by
  rw [writers_erase other hmem]
  simp [hfi]

include ha hf

/-- A write handle goes, and the file has another. -/
theorem Accounted.erase_counted (hshared : e.cnt - 1 > 0) :
    Accounted (addCnt path (-1) table) (opened.erase ⟨path, fi⟩) := by
  intro other
  have hlast := writers_erase_writer hmem hfi other
  obtain ⟨-, hcnt⟩ := ha.cnt hf
  rw [cnts_addCnt, ha]
  split_ifs with hother
  · subst hother
    rw [if_pos rfl] at hlast
    have hne : writers other (opened.erase ⟨other, fi⟩) ≠ 0 := by omega
    rw [hlast]
    simp [countOf, hne]
  · rw [hlast, if_neg (Ne.symm hother), Nat.add_zero]

/-- The last write handle of a file goes. -/
theorem Accounted.erase_last (hlast : ¬e.cnt - 1 > 0) :
    Accounted (Dav.tdelete path (addCnt path (-1) table)) (opened.erase ⟨path, fi⟩) := by
  intro other
  have hone := writers_erase_writer hmem hfi other
  obtain ⟨-, hcnt⟩ := ha.cnt hf
  rw [cnts_tdelete, cnts_addCnt, ha]
  split_ifs with hother
  · subst hother
    rw [if_pos rfl] at hone
    have hzero : writers other (opened.erase ⟨other, fi⟩) = 0 := by omega
    rw [hone, hzero]
    rfl
  · rw [hone, if_neg (Ne.symm hother), Nat.add_zero]

end Erase

/-- To drop the entry of a file without write handles changes nothing. -/
theorem Accounted.tdelete (ha : Accounted table opened) (hzero : writers path opened = 0) :
    Accounted (Dav.tdelete path table) opened := by
  intro other
  rw [cnts_tdelete, ha]
  split_ifs with hother
  · rw [hother, hzero]
    rfl
  · rfl

/-- A rename that moves no write handle. -/
theorem writers_renamed {from_ to_ : Path} (hmoved : ∀ h ∈ opened, h.flags.writes = true →
      h.path ≠ from_ ∧ renamed from_ to_ h.path = h.path) (path : Path) :
    writers path (opened.map fun h => { h with path := renamed from_ to_ h.path }) =
      writers path opened := by
  rw [writers, List.countP_map]
  refine List.countP_congr fun h hmem => ?_
  cases hwrites : h.flags.writes with
  | false => simp [hwrites]
  | true => simp [hwrites, (hmoved h hmem hwrites).2]

/-! ## One callback -/

variable (hs : Succeeds env) (huse : srv.options.useLock = true) {t : Thread (Mem σ)} (h : AtRest t)

include hs huse h

/-- `__dav_open` counts one more write handle. -/
theorem accounted_davOpenCore {ρ : Type} (hlock : srv.lock = true) (ha : Accounted t.mem.table opened)
    (hfi : fi.writes = true) :
    ∃ table, Yields (davOpenCore env srv path : Dav σ ρ ℤ) t 0 table ∧
      Accounted table (⟨path, fi⟩ :: opened) := by
  have hopen (table : List FileLock) (hlocked : Yields (davLock env srv path : Dav σ ρ ℤ) t 0 table) :
      Yields (davOpenCore env srv path : Dav σ ρ ℤ) t 0 table := by
    rw [davOpenCore, if_pos hlock]
    exact .bind hlocked fun t' h' htable => htable ▸ .pure h' 0
  rcases hf : tfind path t.mem.table with _ | e
  · obtain ⟨token, hlocked⟩ := yields_davLock_absent (ρ := ρ) hs huse h hf
    exact ⟨_, hopen _ hlocked, ha.cons_first hf hfi token⟩
  · exact ⟨_, hopen _ (yields_davLock_found huse h hf), ha.cons_counted hf hfi⟩

/-- `dav_release` of an open handle counts it no more. -/
theorem accounted_davRelease (hlock : srv.lock = true) (ha : Accounted t.mem.table opened)
    (hmem : ⟨path, fi⟩ ∈ opened) :
    ∃ v table, Yields (davRelease env srv path fi : Dav σ Unit ℤ) t v table ∧
      Accounted table (opened.erase ⟨path, fi⟩) := by
  cases hfi : fi.writes with
  | false =>
    refine ⟨0, t.mem.table, ?_, ha.erase_reader hmem hfi⟩
    rw [davRelease, if_pos hlock, hfi]
    exact .pure h 0
  | true =>
    have hrelease (table : List FileLock)
        (hunlocked : Yields (davUnlock env srv path : Dav σ Unit ℤ) t 0 table) :
        Yields (davRelease env srv path fi : Dav σ Unit ℤ) t 0 table := by
      rw [davRelease, if_pos hlock, if_pos hfi]
      exact .bind hunlocked fun t' h' htable => htable ▸ .pure h' 0
    obtain ⟨e, hf⟩ := Option.isSome_iff_exists.mp (ha.found hmem hfi)
    by_cases hshared : e.cnt - 1 > 0
    · exact ⟨0, _, hrelease _ (yields_davUnlock_shared huse h hf hshared),
        ha.erase_counted hmem hfi hf hshared⟩
    · exact ⟨0, _, hrelease _ (yields_davUnlock_last hs huse h hf (not_lt.mp hshared)),
        ha.erase_last hmem hfi hf hshared⟩

/-- `dav_create` opens the file that it made. -/
theorem accounted_davCreate (hlock : srv.lock = true)
    (ha : Accounted t.mem.table opened) (mode : ℕ) :
    ∃ v table, Yields (davCreate env srv path mode fi : Dav σ Unit ℤ) t v table ∧
      Accounted table (if v = 0 then ⟨path, fi⟩ :: opened else opened) := by
  obtain ⟨v, t₁, hmknod, h₁, htable₁⟩ : ∃ v, Yields (davMknod env srv path mode 0 : Dav σ Unit ℤ)
    t v t.mem.table := yields_davMknod hs h mode 0
  rw [← htable₁] at ha
  unfold davCreate Yields
  rw [Ctl.bind_ok hmknod]
  by_cases hv : v = 0
  · rw [if_neg (not_not_intro hv)]
    cases hfi : fi.writes with
    | false => exact ⟨v, _, ⟨t₁, rfl, h₁, rfl⟩, by rw [if_pos hv]; exact ha.cons_reader hfi⟩
    | true =>
      obtain ⟨table, hyields, hcounted⟩ := accounted_davOpenCore (ρ := Unit) hs huse h₁ hlock ha hfi
      exact ⟨0, table, hyields, hcounted⟩
  · rw [if_pos hv]
    exact ⟨v, _, ⟨t₁, rfl, h₁, rfl⟩, by rw [if_neg hv]; exact ha⟩

/-- `dav_truncate` of a file without write handles, or one that does not replace it. -/
theorem accounted_davTruncate {ρ : Type} (ha : Accounted t.mem.table opened) {size v : ℤ}
    (hcareful : writers path opened = 0 ∨ ¬Replaces env srv path size t.mem.env)
    {t' : Thread (Mem σ)}
    (hrun : (davTruncate env srv path size : Dav σ ρ ℤ) t = (.ok v, t')) :
    AtRest t' ∧ Accounted t'.mem.table opened := by
  obtain ⟨hrest, hsame | ⟨hreplaces, htable⟩⟩ := davTruncate_atRest hs huse h hrun
  · rw [hsame]
    exact ⟨hrest, ha⟩
  · obtain hzero | hnot := hcareful
    · rw [htable]
      exact ⟨hrest, ha.tdelete hzero⟩
    · exact absurd hreplaces hnot

/-- `dav_open`. -/
theorem accounted_davOpen (hlock : srv.lock = true) (ha : Accounted t.mem.table opened)
    (hcareful : Careful env srv ⟨t, opened⟩ (.open_ path fi)) {v : ℤ} {t' : Thread (Mem σ)}
    (hrun : (davOpen env srv path fi : Dav σ Unit ℤ) t = (.ok v, t')) :
    AtRest t' ∧ Accounted t'.mem.table (if v = 0 then ⟨path, fi⟩ :: opened else opened) := by
  cases hfi : fi.writes with
  | false =>
    rw [davOpen, hfi] at hrun
    obtain ⟨hv, rfl⟩ := Prod.mk.inj hrun
    rw [← Except.ok.inj hv]
    exact ⟨h, ha.cons_reader hfi⟩
  | true =>
    rw [davOpen, if_pos hfi] at hrun
    obtain ⟨res, t₁, htruncate, hrun⟩ := Ctl.bind_eq_ok hrun
    have hbefore : AtRest t₁ ∧ Accounted t₁.mem.table opened := by
      unfold openTruncate at htruncate
      split_ifs at htruncate with htrunc
      · exact accounted_davTruncate hs huse h ha (hcareful hfi htrunc) htruncate
      · obtain ⟨-, rfl⟩ := Prod.mk.inj htruncate
        exact ⟨h, ha⟩
    obtain ⟨h₁, ha₁⟩ := hbefore
    split_ifs at hrun with hopen
    · obtain ⟨table, ⟨u, hrun', hrest, htable⟩, hcounted⟩ :=
        accounted_davOpenCore (ρ := Unit) hs huse h₁ hlock ha₁ hfi
      obtain ⟨hv, rfl⟩ := Prod.mk.inj (hrun'.symm.trans hrun)
      rw [← Except.ok.inj hv, htable]
      exact ⟨hrest, hcounted⟩
    · obtain ⟨hv, rfl⟩ := Prod.mk.inj hrun
      have hne : v ≠ 0 := fun hzero => hopen (.inl ((Except.ok.inj hv).trans hzero))
      rw [if_neg hne]
      exact ⟨h₁, ha₁⟩

theorem accounted_davRename (ha : Accounted t.mem.table opened) {from_ to_ : Path} {flags : ℕ}
    (hcareful : Careful env srv ⟨t, opened⟩ (.rename from_ to_ flags)) :
    ∃ v table, Yields (davRename env srv from_ to_ flags : Dav σ Unit ℤ) t v table ∧
      Accounted table (handlesAfter opened v (.rename from_ to_ flags)) := by
  obtain ⟨v, hyields, hmoved⟩ := yields_davRename hs huse h from_ to_ flags
  refine ⟨v, _, hyields, ?_⟩
  unfold handlesAfter
  split_ifs with hv
  · obtain ⟨hmove, hflags⟩ := hmoved hv
    have hnone := hcareful hmove hflags
    have hzero : writers from_ opened = 0 :=
      writers_eq_zero.mpr fun h hmem hwrites => (hnone h hmem hwrites).1
    intro path
    rw [ha.tdelete hzero, writers_renamed hnone]
  · exact ha

/-- A permitted, careful callback keeps the account. -/
theorem accounted_serve (hlock : srv.lock = true) (ha : Accounted t.mem.table opened) {c : Callback}
    (hpermitted : Permitted opened c) (hcareful : Careful env srv ⟨t, opened⟩ c) {v : ℤ}
    {t' : Thread (Mem σ)} (hrun : (c.run env srv : Dav σ Unit ℤ) t = (.ok v, t')) :
    AtRest t' ∧ Accounted t'.mem.table (handlesAfter opened v c) := by
  have hyields {table : List FileLock} {w : ℤ} (hc : Yields (c.run env srv : Dav σ Unit ℤ) t w table)
      (hcounted : Accounted table (handlesAfter opened w c)) :
      AtRest t' ∧ Accounted t'.mem.table (handlesAfter opened v c) := by
    obtain ⟨u, hrun', hrest, rfl⟩ := hc
    obtain ⟨hw, rfl⟩ := Prod.mk.inj (hrun'.symm.trans hrun)
    rw [← Except.ok.inj hw]
    exact ⟨hrest, hcounted⟩
  cases c with
  | open_ path fi => exact accounted_davOpen hs huse h hlock ha hcareful hrun
  | create path mode fi =>
    obtain ⟨w, table, hc, hcounted⟩ : ∃ w table,
        Yields (davCreate env srv path mode fi : Dav σ Unit ℤ) t w table ∧
          Accounted table (if w = 0 then ⟨path, fi⟩ :: opened else opened) :=
      accounted_davCreate hs huse h hlock ha mode
    exact hyields hc hcounted
  | release path fi =>
    obtain ⟨w, table, hc, hcounted⟩ := accounted_davRelease hs huse h hlock ha hpermitted
    exact hyields hc hcounted
  | write path buf offset => exact hyields (yields_davWrite hs h buf offset) ha
  | truncate path size => exact accounted_davTruncate hs huse h ha hcareful hrun
  | rename from_ to_ flags =>
    obtain ⟨w, table, hc, hcounted⟩ := accounted_davRename hs huse h ha hcareful
    exact hyields hc hcounted
  | unlink path =>
    have hzero : writers path opened = 0 :=
      writers_eq_zero.mpr fun h hmem _ => hpermitted h hmem
    exact hyields (yields_davUnlink hs huse h) (ha.tdelete hzero)
  | readdir | getattr | read | mkdir | chmod | chown | mknod | readlink | symlink | copyFileRange =>
    exact hpermitted.elim

end Handles

/-- In every run that neither replaces nor renames a file with a write handle, each path has
    one entry with the count of its write handles, and none without one; and a release of a
    write handle finds its entry. -/
theorem accounted_of_run {σ : Type} {env : Env σ} {srv : DavServer} (hs : Succeeds env)
    (huse : srv.options.useLock = true) (hlock : srv.lock = true) {s : σ} {x : Mount σ}
    (hrun : HandleRun env srv (Careful env srv) s x) :
    Accounted x.thread.mem.table x.opened ∧
      ∀ h ∈ x.opened, h.flags.writes = true → (tfind h.path x.thread.mem.table).isSome = true := by
  have hinv : AtRest x.thread ∧ Accounted x.thread.mem.table x.opened := by
    induction hrun with
    | start => exact ⟨⟨rfl, rfl⟩, fun _ => rfl⟩
    | serve before permitted hok run ih =>
      exact accounted_serve hs huse ih.1 hlock ih.2 permitted hok run
  exact ⟨hinv.2, fun h hmem hwrites => hinv.2.found hmem hwrites⟩

/-- Grants every `LOCK`, reports one byte and accepts everything else. -/
def grantingServer : Env Unit := serving fun request _ => (match request.method with
  | .lock => lockAnswered lockDocument
  | .propfind => oneByteReply
  | _ => plainReply 204, ())

theorem succeeds_grantingServer : Succeeds grantingServer where
  alloc _ := rfl
  urlSet _ _ := rfl
  urlGet _ := rfl
  setopt _ _ := rfl
  answers request s _ := by
    simp only [grantingServer, serving]
    cases request.method <;> rfl
  grants request s hm := by
    simp only [grantingServer, serving, hm]
    exact ⟨['a'], rfl, lockAccepted_lockDocument⟩
  unescape _ _ := rfl

/-- Between two callbacks, with the entry of `/a` if `cnt` is given. -/
def lockedA (cnt : Option ℤ) (sent : List Request) (stbuf : Stat) : Thread (Mem Unit) :=
  ⟨.clear, { (idle ()).mem with
    table := cnt.toList.map fun k => ⟨[47, 97], ['a'], k⟩
    sent := sent
    stbuf := stbuf }⟩

theorem lockedA_first (sent : List Request) (stbuf : Stat) : ∃ sent',
    ((Callback.open_ [47, 97] writeOnly).run grantingServer lockingServer : Dav Unit Unit ℤ)
      (lockedA none sent stbuf) = (.ok 0, lockedA (some 1) sent' stbuf) :=
  ⟨_, rfl⟩

/-- Two write handles, one of them released. -/
theorem accounted_one_released :
    ∃ t, HandleRun grantingServer lockingServer (Careful grantingServer lockingServer) ()
        ⟨t, [⟨[47, 97], writeOnly⟩]⟩ ∧ Accounted t.mem.table [⟨[47, 97], writeOnly⟩] ∧
      (tfind [47, 97] t.mem.table).map (·.cnt) = some 1 := by
  obtain ⟨sent₁, hfirst⟩ := lockedA_first [] ⟨0, 0, 0, 0, 0, 0, 0, 0, 0⟩
  have hsecond : ((Callback.open_ [47, 97] writeOnly).run grantingServer lockingServer :
    Dav Unit Unit ℤ) (lockedA (some 1) sent₁ ⟨0, 0, 0, 0, 0, 0, 0, 0, 0⟩) =
      (.ok 0, lockedA (some 2) sent₁ ⟨0, 0, 0, 0, 0, 0, 0, 0, 0⟩) := rfl
  have hreleased : ((Callback.release [47, 97] writeOnly).run grantingServer lockingServer :
    Dav Unit Unit ℤ) (lockedA (some 2) sent₁ ⟨0, 0, 0, 0, 0, 0, 0, 0, 0⟩) =
      (.ok 0, lockedA (some 1) sent₁ ⟨0, 0, 0, 0, 0, 0, 0, 0, 0⟩) := rfl
  have hrun : HandleRun grantingServer lockingServer (Careful grantingServer lockingServer) ()
      ⟨_, [⟨[47, 97], writeOnly⟩]⟩ :=
    .serve (c := .release [47, 97] writeOnly)
      (.serve (c := .open_ [47, 97] writeOnly)
        (.serve (c := .open_ [47, 97] writeOnly) .start trivial (fun _ => nofun) hfirst)
        trivial (fun _ => nofun) hsecond)
      (List.mem_cons_self ..) trivial hreleased
  exact ⟨_, hrun, (accounted_of_run succeeds_grantingServer rfl rfl hrun).1, rfl⟩

/-- `/a` is opened for writing and truncated to zero: the handle is open, its entry is gone,
    and its release fails. -/
theorem truncate_drops_open_handle :
    ∃ t, HandleRun grantingServer lockingServer (fun _ _ => True) () ⟨t, [⟨[47, 97], writeOnly⟩]⟩ ∧
      tfind [47, 97] t.mem.table = none ∧ ¬Accounted t.mem.table [⟨[47, 97], writeOnly⟩] ∧
      (((Callback.release [47, 97] writeOnly).run grantingServer lockingServer : Dav Unit Unit ℤ)
        t).2.ex = .init (.unspecified "release cannot find file lock") := by
  obtain ⟨sent₁, hopened⟩ := lockedA_first [] ⟨0, 0, 0, 0, 0, 0, 0, 0, 0⟩
  obtain ⟨sent₂, stbuf, htruncated⟩ : ∃ sent stbuf,
    ((Callback.truncate [47, 97] 0).run grantingServer lockingServer : Dav Unit Unit ℤ)
      (lockedA (some 1) sent₁ ⟨0, 0, 0, 0, 0, 0, 0, 0, 0⟩) =
        (.ok 0, lockedA none sent stbuf) := ⟨_, _, rfl⟩
  have hrun : HandleRun grantingServer lockingServer (fun _ _ => True) ()
      ⟨_, [⟨[47, 97], writeOnly⟩]⟩ :=
    .serve (c := .truncate [47, 97] 0)
      (.serve (c := .open_ [47, 97] writeOnly) .start trivial trivial hopened)
      trivial trivial htruncated
  refine ⟨_, hrun, rfl, fun ha => ?_, rfl⟩
  have hfound := ha.found (List.mem_cons_self ..) rfl
  exact nomatch hfound

end NetworkFs.Dav
