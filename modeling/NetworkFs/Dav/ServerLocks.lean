import NetworkFs.Dav.Dealings

/-!
# The locks of the server

Every lock that the server holds for the client is in `filelock_tree`, in every state between two
callbacks: so `dav_destory` finds them all, and nothing stays locked after the mount is gone.

* `HoldsLocks`: what the requests do to the locks of the server.
* `Listed`: the table has every lock of the server.
* `HoldsLocks.dealt`: a callback keeps it.
* `locks_listed`: so it holds in every state of a run in which each release finds its entry, and
  `dav_destory` then unlocks everything.
-/

namespace NetworkFs.Dav

open Control Grammar Wrapper Text

variable {σ ρ : Type}

/-! ## The locks in the table -/

/-- The path and the token of each entry. -/
def tableLocks (table : List FileLock) : Multiset (Path × Text) :=
  (table : Multiset FileLock).map fun e => (e.path, e.token)

@[simp] theorem tableLocks_nil : tableLocks [] = 0 := rfl

@[simp] theorem tableLocks_cons (e : FileLock) (table : List FileLock) :
    tableLocks (e :: table) = (e.path, e.token) ::ₘ tableLocks table := rfl

theorem tableLocks_addCnt (path : Path) (d : ℤ) (table : List FileLock) :
    tableLocks (addCnt path d table) = tableLocks table := by
  induction table with
  | nil => rfl
  | cons e table ih =>
    rw [addCnt]
    split_ifs
    · rfl
    · rw [tableLocks_cons, tableLocks_cons, ih]

theorem tdelete_cons (path : Path) (e : FileLock) (table : List FileLock) :
    tdelete path (e :: table) = if e.path = path then table else e :: tdelete path table := by
  by_cases he : e.path = path <;> simp [tdelete, he]

/-- Only an entry of `path` goes. -/
theorem filter_tableLocks_le (path : Path) (table : List FileLock) :
    (tableLocks table).filter (·.1 ≠ path) ≤ tableLocks (tdelete path table) := by
  induction table with
  | nil => exact Multiset.zero_le _
  | cons e table ih =>
    rw [tableLocks_cons, tdelete_cons]
    split_ifs with he
    · rw [Multiset.filter_cons_of_neg (p := fun l : Path × Text => l.1 ≠ path) _ (not_not_intro he)]
      exact Multiset.filter_le _ _
    · rw [Multiset.filter_cons_of_pos (p := fun l : Path × Text => l.1 ≠ path) _ he, tableLocks_cons]
      exact Multiset.cons_le_cons _ ih

/-- The entry that is found is the one that goes. -/
theorem tableLocks_tdelete {path : Path} {table : List FileLock} {e : FileLock}
    (hf : tfind path table = some e) :
    tableLocks (tdelete path table) = (tableLocks table).erase (e.path, e.token) := by
  induction table with
  | nil => cases hf
  | cons e' table ih =>
    rw [tfind_cons] at hf
    rw [tdelete_cons, tableLocks_cons]
    split_ifs at hf ⊢ with he
    · obtain rfl := Option.some.inj hf
      rw [Multiset.erase_cons_head]
    · have hpath : e.path = path := by simpa using List.find?_some hf
      have hne : (e'.path, e'.token) ≠ (e.path, e.token) := fun heq =>
        he ((congrArg Prod.fst heq).trans hpath)
      rw [tableLocks_cons, ih hf, Multiset.erase_cons_tail _ hne]

/-- `dav_unlock` removes the entry of the lock that it gives back. -/
theorem tableLocks_unlocked {path : Path} {table : List FileLock} {e : FileLock}
    (hf : tfind path table = some e) :
    tableLocks (tdelete path (addCnt path (-1) table)) = (tableLocks table).erase (path, e.token) := by
  have hpath : e.path = path := by simpa using List.find?_some hf
  have hcounted : tfind path (addCnt path (-1) table) = some { e with cnt := e.cnt + -1 } := by
    rw [tfind_addCnt, hf]
    rfl
  rw [tableLocks_tdelete hcounted, tableLocks_addCnt, hpath]

/-! ## The server -/

/-- The server holds `locks` for the client. It may let go of a lock at any time, but takes one
    only when it grants a `LOCK`; `UNLOCK`, `DELETE` and `MOVE` remove what they name. -/
structure HoldsLocks (env : Env σ) (locks : σ → Multiset (Path × Text)) : Prop
    extends Tractable env where
  granted : ∀ request s token, request.method = .lock → (env.perform request s).1.code = .ok →
    headerToken (env.perform request s).1.headers = some token →
    locks (env.perform request s).2 ≤ (request.path, token) ::ₘ locks s
  refused : ∀ request s, request.method = .lock → (env.perform request s).1.code ≠ .ok →
    locks (env.perform request s).2 ≤ locks s
  unlock : ∀ path token s,
    locks (env.perform (unlockRequest path token) s).2 ≤ (locks s).erase (path, token)
  removed : ∀ request s, request.method = .delete ∨ request.method = .move →
    locks (env.perform request s).2 ≤ (locks s).filter (·.1 ≠ request.path)
  others : ∀ request s, request.method ∉ [.lock, .unlock, .delete, .move] →
    locks (env.perform request s).2 ≤ locks s

/-- The table has every lock of the server. -/
def Listed (locks : σ → Multiset (Path × Text)) (x : List FileLock × σ) : Prop :=
  locks x.2 ≤ tableLocks x.1

section Keeps

variable {env : Env σ} {srv : DavServer} {locks : σ → Multiset (Path × Text)}
  {x y : List FileLock × σ} {may : Path → Prop} {path : Path} (hk : HoldsLocks env locks)

include hk

theorem HoldsLocks.deal (hdeal : Deal env may x y) (h : Listed locks x) : Listed locks y := by
  cases hdeal with
  | sends request hother => exact (hk.others request _ hother).trans h
  | @drops table s request hmethod _ =>
    calc locks (env.perform request s).2
        ≤ (locks s).filter (·.1 ≠ request.path) := hk.removed request s hmethod
      _ ≤ (tableLocks table).filter (·.1 ≠ request.path) := Multiset.filter_le_filter _ h
      _ ≤ tableLocks (tdelete request.path table) := filter_tableLocks_le request.path table

theorem HoldsLocks.deals (hdeals : Relation.ReflTransGen (Deal env may) x y) (h : Listed locks x) :
    Listed locks y := by
  induction hdeals with
  | refl => exact h
  | tail _ hdeal ih => exact hk.deal hdeal ih

/-- The lock that `dav_lock` gets is listed. -/
theorem HoldsLocks.takes (htakes : TakesLock env path x y) (h : Listed locks x) : Listed locks y := by
  cases htakes with
  | @counts table s e hf =>
    show locks s ≤ tableLocks (addCnt path 1 table)
    rw [tableLocks_addCnt]
    exact h
  | grants hf hc htoken =>
    exact (hk.granted (plainLock path) _ _ rfl hc htoken).trans (Multiset.cons_le_cons _ h)

theorem HoldsLocks.denies (hdenies : DeniesLock env path x y) (h : Listed locks x) :
    Listed locks y := by
  cases hdenies with
  | refuses hf hc => exact (hk.refused (plainLock path) _ rfl hc).trans h

theorem HoldsLocks.gives (hgives : GivesLock env path x y) (h : Listed locks x) : Listed locks y := by
  cases hgives with
  | @counts table s e hf hc =>
    show locks s ≤ tableLocks (addCnt path (-1) table)
    rw [tableLocks_addCnt]
    exact h
  | @unlocks table s e hf hc =>
    calc locks (env.perform (unlockRequest path e.token) s).2
        ≤ (locks s).erase (path, e.token) := hk.unlock path e.token s
      _ ≤ (tableLocks table).erase (path, e.token) := Multiset.erase_le_erase _ h
      _ = tableLocks (tdelete path (addCnt path (-1) table)) := (tableLocks_unlocked hf).symm

/-- A callback that returns keeps every lock listed. -/
theorem HoldsLocks.dealt {c : Callback} {v : ℤ} (hdealt : Dealt env srv c v x y)
    (h : Listed locks x) : Listed locks y := by
  cases hdealt with
  | deals _ hdeals => exact hk.deals hdeals h
  | unlocked _ hdeals _ => exact hk.deals hdeals h
  | takes _ _ hdeals htakes => exact hk.takes htakes (hk.deals hdeals h)
  | denied _ hdeals hdenies _ => exact hk.denies hdenies (hk.deals hdeals h)
  | gives _ hgives => exact hk.gives hgives h
  | kept => exact h

end Keeps

/-! ## Whole runs -/

/-- A `dav_release` that unlocks finds the entry of its path. -/
def Finds (srv : DavServer) (t : Thread (Mem σ)) : Callback → Prop
  | .release path fi => srv.lock = true → fi.writes = true → (tfind path t.mem.table).isSome = true
  | _ => True

/-- What the thread comes to from a client without locks by callbacks that return, when every
    release that unlocks finds its entry. -/
inductive LockRun (env : Env σ) (srv : DavServer) (s : σ) : Thread (Mem σ) → Prop
  | start : LockRun env srv s (entered s [])
  | serve {t t' : Thread (Mem σ)} {c : Callback} {v : ℤ} (before : LockRun env srv s t)
      (hfinds : Finds srv t c) (run : (c.run env srv : Dav σ Unit ℤ) t = (.ok v, t')) :
      LockRun env srv s t'

/-- A callback whose release finds its entry leaves no exception. -/
theorem Tractable.clear {env : Env σ} {srv : DavServer} (ht : Tractable env) {t t' : Thread (Mem σ)}
    (hclear : Clear t) {c : Callback} (hfinds : Finds srv t c) {v : ℤ}
    (hrun : (c.run env srv : Dav σ Unit ℤ) t = (.ok v, t')) : Clear t' := by
  refine (callback_clears_iff env srv c hclear hrun).mpr ?_
  cases c with
  | release path fi =>
    intro hlock hwrites _
    obtain ⟨e, hf⟩ := Option.isSome_iff_exists.mp (hfinds hlock hwrites)
    exact ⟨e, hf, .inr (by rw [ht.unlockAttempt])⟩
  | _ => trivial

/-- What `dav_destory` leaves locked is not in the table. -/
theorem HoldsLocks.unlockNodes {env : Env σ} (srv : DavServer) {locks : σ → Multiset (Path × Text)}
    (hk : HoldsLocks env locks) (nodes : List FileLock) {t : Thread (Mem σ)} (hex : t.ex.has = false)
    (hle : locks t.mem.env ≤ tableLocks nodes) :
    ∃ t', (nodes.mapM (davUnlockNode env srv) : Dav σ ρ (List FileLock)) t = (.ok nodes, t') ∧
      locks t'.mem.env = 0 := by
  induction nodes generalizing t with
  | nil =>
    refine ⟨t, ?_, Multiset.le_zero.mp hle⟩
    rw [List.mapM_nil]
    rfl
  | cons e nodes ih =>
    obtain ⟨t₁, hrun, hclean, -, -, henv⟩ := hk.davUnlockCore (ρ := ρ) srv e.path e.token hex
    have hle₁ : locks t₁.mem.env ≤ tableLocks nodes := by
      rw [henv]
      refine (hk.unlock e.path e.token _).trans ((Multiset.erase_le_erase _ hle).trans ?_)
      rw [tableLocks_cons, Multiset.erase_cons_head]
    obtain ⟨t₂, hrest, hnone⟩ := ih hclean hle₁
    have hnode : (davUnlockNode env srv e : Dav σ ρ FileLock) t = (.ok e, t₁) := Ctl.bind_ok hrun
    refine ⟨t₂, ?_, hnone⟩
    rw [List.mapM_cons, Ctl.bind_ok hnode, Ctl.bind_ok hrest]
    rfl

theorem tableLocks_perm {nodes table : List FileLock} (hperm : nodes.Perm table) :
    tableLocks nodes = tableLocks table :=
  congrArg (Multiset.map _) (Multiset.coe_eq_coe.mpr hperm)

/-- In every run in which each release finds its entry, every lock that the server holds is in the
    table, with its token; and whichever order `tdestroy` takes, `dav_destory` leaves none. -/
theorem locks_listed {env : Env σ} {srv : DavServer} {locks : σ → Multiset (Path × Text)}
    (hk : HoldsLocks env locks) (huse : srv.options.useLock = true) {s : σ} (hnone : locks s = 0)
    {t : Thread (Mem σ)} (hrun : LockRun env srv s t) :
    locks t.mem.env ≤ tableLocks t.mem.table ∧
      ∀ nodes : List FileLock, nodes.Perm t.mem.table →
        ∃ t', (davDestory env srv nodes : Dav σ Unit (List FileLock)) t = (.ok nodes, t') ∧
          locks t'.mem.env = 0 := by
  have hinv : Clear t ∧ t.mem.held = [] ∧ Listed locks (books t) := by
    induction hrun with
    | start => exact ⟨rfl, rfl, hnone.le⟩
    | serve before hfinds run ih =>
      obtain ⟨hclear, hfree, hlisted⟩ := ih
      obtain ⟨hfree', hdealt⟩ := callback_dealt hk.toTractable huse hclear hfree run
      exact ⟨hk.toTractable.clear hclear hfinds run, hfree', hk.dealt hdealt hlisted⟩
  obtain ⟨hclear, -, hlisted⟩ := hinv
  refine ⟨hlisted, fun nodes hperm => ?_⟩
  obtain ⟨t', hdestory, hfree⟩ := hk.unlockNodes (ρ := Unit) srv nodes hclear.has
    (by rw [tableLocks_perm hperm]; exact hlisted)
  refine ⟨t', ?_, hfree⟩
  rw [davDestory, if_pos huse, hdestory]

/-- Grants every `LOCK` with the token `a`, reports one byte, and keeps what is locked. -/
def lockKeeper : Env (Multiset (Path × Text)) := serving fun request s => match request.method with
  | .lock => (lockAnswered lockDocument, (request.path, ['a']) ::ₘ s)
  | .unlock => (plainReply 204, match request.headers with
    | [.lockToken token] => s.erase (request.path, token)
    | _ => s)
  | .delete | .move => (plainReply 204, s.filter (·.1 ≠ request.path))
  | .propfind => (oneByteReply, s)
  | _ => (plainReply 204, s)

theorem holdsLocks_lockKeeper : HoldsLocks lockKeeper id where
  toSteady := steady_serving _
  unescape _ _ := rfl
  answers request s hmem := by
    simp only [lockKeeper, serving]
    simp only [List.mem_cons, List.not_mem_nil, or_false] at hmem
    rcases hmem with hm | hm | hm | hm | hm <;> rw [hm] <;> rfl
  grants request s hm _ := by
    simp only [lockKeeper, serving, hm]
    exact ⟨['a'], rfl, lockAccepted_lockDocument⟩
  granted request s token hm _ htoken := by
    simp only [lockKeeper, serving, hm] at htoken ⊢
    rw [← Option.some.inj htoken]
    exact le_rfl
  refused request s hm hc := by
    simp only [lockKeeper, serving, hm] at hc
    exact absurd rfl hc
  unlock path token s := le_rfl
  removed request s hm := by
    simp only [lockKeeper, serving]
    rcases hm with hm | hm <;> rw [hm] <;> exact le_rfl
  others request s hmem := by
    simp only [lockKeeper, serving]
    simp only [List.mem_cons, List.not_mem_nil, or_false, not_or] at hmem
    obtain ⟨hlock, hunlock, hdelete, hmove⟩ := hmem
    cases hm : request.method <;> first | exact le_rfl | contradiction

/-- Between two callbacks with the entries `table`, when `s` is locked. -/
def keeping (s : Multiset (Path × Text)) (table : List FileLock) (sent : List Request)
    (stbuf : Stat) : Thread (Mem (Multiset (Path × Text))) :=
  ⟨.clear, { (idle s).mem with table := table, sent := sent, stbuf := stbuf }⟩

/-- The entry of `/a`. -/
def keptA : FileLock := ⟨[47, 97], ['a'], 1⟩

/-- The entry of `/b`. -/
def keptB : FileLock := ⟨[47, 98], ['a'], 1⟩

theorem keeping_open_a (sent : List Request) (stbuf : Stat) : ∃ sent',
    ((Callback.open_ [47, 97] writeOnly).run lockKeeper lockingServer :
      Dav (Multiset (Path × Text)) Unit ℤ) (keeping 0 [] sent stbuf) =
        (.ok 0, keeping {([47, 97], ['a'])} [keptA] sent' stbuf) :=
  ⟨_, rfl⟩

theorem keeping_open_b (sent : List Request) (stbuf : Stat) : ∃ sent',
    ((Callback.open_ [47, 98] writeOnly).run lockKeeper lockingServer :
      Dav (Multiset (Path × Text)) Unit ℤ) (keeping {([47, 97], ['a'])} [keptA] sent stbuf) =
        (.ok 0, keeping {([47, 98], ['a']), ([47, 97], ['a'])} [keptB, keptA] sent' stbuf) :=
  ⟨_, rfl⟩

theorem keeping_close_a (sent : List Request) (stbuf : Stat) : ∃ sent',
    ((Callback.release [47, 97] writeOnly).run lockKeeper lockingServer :
      Dav (Multiset (Path × Text)) Unit ℤ)
        (keeping {([47, 98], ['a']), ([47, 97], ['a'])} [keptB, keptA] sent stbuf) =
        (.ok 0, keeping {([47, 98], ['a'])} [keptB] sent' stbuf) :=
  ⟨_, rfl⟩

/-- `/a` and `/b` are opened for writing. -/
theorem keeping_opens : ∃ sent,
    LockRun lockKeeper lockingServer 0 (keeping {([47, 98], ['a']), ([47, 97], ['a'])} [keptB, keptA]
      sent ⟨0, 0, 0, 0, 0, 0, 0, 0, 0⟩) := by
  obtain ⟨sent₁, hfirst⟩ := keeping_open_a [] ⟨0, 0, 0, 0, 0, 0, 0, 0, 0⟩
  obtain ⟨sent₂, hsecond⟩ := keeping_open_b sent₁ ⟨0, 0, 0, 0, 0, 0, 0, 0, 0⟩
  exact ⟨sent₂, .serve (c := .open_ [47, 98] writeOnly)
    (.serve (c := .open_ [47, 97] writeOnly) .start trivial hfirst) trivial hsecond⟩

/-- `/a` is closed again: `dav_destory` unlocks `/b`. -/
theorem locks_listed_closed :
    ∃ t, LockRun lockKeeper lockingServer 0 t ∧ t.mem.env = {([47, 98], ['a'])} ∧
      t.mem.table = [keptB] ∧ ∃ t', (davDestory lockKeeper lockingServer [keptB] :
        Dav (Multiset (Path × Text)) Unit (List FileLock)) t = (.ok [keptB], t') ∧
          t'.mem.env = 0 := by
  obtain ⟨sent₂, hopened⟩ := keeping_opens
  obtain ⟨sent₃, hclosed⟩ := keeping_close_a sent₂ ⟨0, 0, 0, 0, 0, 0, 0, 0, 0⟩
  have hrun : LockRun lockKeeper lockingServer 0
      (keeping {([47, 98], ['a'])} [keptB] sent₃ ⟨0, 0, 0, 0, 0, 0, 0, 0, 0⟩) :=
    .serve (c := .release [47, 97] writeOnly) hopened (fun _ _ => rfl) hclosed
  exact ⟨_, hrun, rfl, rfl,
    (locks_listed holdsLocks_lockKeeper rfl rfl hrun).2 [keptB] (List.Perm.refl _)⟩

/-- `/a` is truncated under its handle. Its release finds no entry; so the release of `/b` drops
    the entry and sends no `UNLOCK`. -/
theorem unfound_release_leaks :
    ∃ t₁ t₂ t₃, LockRun lockKeeper lockingServer 0 t₁ ∧
      ((Callback.release [47, 97] writeOnly).run lockKeeper lockingServer :
        Dav (Multiset (Path × Text)) Unit ℤ) t₁ = (.ok 0, t₂) ∧
      ((Callback.release [47, 98] writeOnly).run lockKeeper lockingServer :
        Dav (Multiset (Path × Text)) Unit ℤ) t₂ = (.ok 0, t₃) ∧
      t₃.mem.table = [] ∧ t₃.mem.env = {([47, 98], ['a'])} := by
  obtain ⟨sent₂, hopened⟩ := keeping_opens
  obtain ⟨sent₃, stbuf, htruncated⟩ : ∃ sent stbuf,
    ((Callback.truncate [47, 97] 0).run lockKeeper lockingServer :
      Dav (Multiset (Path × Text)) Unit ℤ)
      (keeping {([47, 98], ['a']), ([47, 97], ['a'])} [keptB, keptA] sent₂
        ⟨0, 0, 0, 0, 0, 0, 0, 0, 0⟩) =
      (.ok 0, keeping {([47, 98], ['a'])} [keptB] sent stbuf) := ⟨_, _, rfl⟩
  exact ⟨_, _, _, .serve (c := .truncate [47, 97] 0) hopened trivial htruncated, rfl, rfl, rfl, rfl⟩

end NetworkFs.Dav
