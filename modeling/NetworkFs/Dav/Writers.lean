import NetworkFs.Dav.ServerLocks

/-!
# Write handles and the locks of the server

`filelock_tree` stands between the handles that libfuse has open and the locks that the server
holds: it counts the first, and its entries are the second. So a file is locked exactly while it is
open for writing, whatever callbacks come between, if none of them deletes or moves such a file.
That takes a server that keeps a lock until it is given back.

* `KeepsLocks`: such a server.
* `Matched`, `KeepsLocks.dealt`: the table is right on both sides, and a callback keeps it so.
* `locks_are_writers`: the locks of the server are those of the files with a write handle.
-/

namespace NetworkFs.Dav

open Control Grammar Wrapper Text

variable {σ : Type}

/-! ## The table and its locks -/

theorem tableLocks_tdelete_le (path : Path) (table : List FileLock) :
    tableLocks (tdelete path table) ≤ tableLocks table := by
  have hsub : (tdelete path table).Sublist table := List.eraseP_sublist
  exact Multiset.map_le_map (Multiset.coe_le.mpr hsub.subperm)

theorem countP_tableLocks (path : Path) (table : List FileLock) :
    (tableLocks table).countP (·.1 = path) = (cnts path table).length := by
  induction table with
  | nil => rfl
  | cons e table ih =>
    rw [tableLocks_cons, Multiset.countP_cons, cnts_cons, ih]
    split_ifs <;> simp

theorem length_countOf (k : ℕ) : (countOf k).length = if k = 0 then 0 else 1 := by
  unfold countOf
  split_ifs <;> rfl

/-- A file has one lock in the table if it has a write handle, and else none. -/
theorem Accounted.countP {table : List FileLock} {opened : List Handle} (ha : Accounted table opened)
    (path : Path) :
    (tableLocks table).countP (·.1 = path) = if writers path opened = 0 then 0 else 1 := by
  rw [countP_tableLocks, ha, length_countOf]

/-- Each lock in the table is of a file with a write handle. -/
theorem Accounted.writer {table : List FileLock} {opened : List Handle} (ha : Accounted table opened)
    {l : Path × Text} (hl : l ∈ tableLocks table) :
    ∃ h ∈ opened, h.flags.writes = true ∧ h.path = l.1 := by
  by_contra hnone
  have hzero : (tableLocks table).countP (·.1 = l.1) = 0 := by
    rw [ha.countP, if_pos (writers_eq_zero.mpr fun h hmem hwrites hpath =>
      hnone ⟨h, hmem, hwrites, hpath⟩)]
  exact Multiset.countP_eq_zero.mp hzero l hl rfl

/-! ## The server -/

/-- The server keeps a lock until the client gives it back, or does away with the file. -/
structure KeepsLocks (env : Env σ) (locks : σ → Multiset (Path × Text)) : Prop
    extends HoldsLocks env locks where
  keeps_granted : ∀ request s token, request.method = .lock →
    (env.perform request s).1.code = .ok →
    headerToken (env.perform request s).1.headers = some token →
    (request.path, token) ::ₘ locks s ≤ locks (env.perform request s).2
  keeps_refused : ∀ request s, request.method = .lock → (env.perform request s).1.code ≠ .ok →
    locks s ≤ locks (env.perform request s).2
  keeps_unlock : ∀ path token s,
    (locks s).erase (path, token) ≤ locks (env.perform (unlockRequest path token) s).2
  keeps_spared : ∀ request s, request.method = .delete ∨ request.method = .move →
    ∀ spared ≤ locks s, (∀ l ∈ spared, ¬Wipes request l.1) → spared ≤ locks (env.perform request s).2
  keeps_others : ∀ request s, request.method ∉ [.lock, .unlock, .delete, .move] →
    locks s ≤ locks (env.perform request s).2

/-- The table counts the write handles, and its entries are the locks of the server. -/
structure Matched (locks : σ → Multiset (Path × Text)) (opened : List Handle)
    (x : List FileLock × σ) : Prop where
  accounted : Accounted x.1 opened
  listed : Listed locks x
  kept : tableLocks x.1 ≤ locks x.2

/-- The callback wipes no file with a write handle. -/
def Spares (opened : List Handle) (c : Callback) : Prop :=
  ∀ h ∈ opened, h.flags.writes = true → ¬c.wipes h.path

/-- A release is of an open handle. -/
def Releases (opened : List Handle) : Callback → Prop
  | .release path fi => ⟨path, fi⟩ ∈ opened
  | _ => True

theorem handlesAfter_opens {c : Callback} {h : Handle} (hc : c.opens = some h) (opened : List Handle)
    (v : ℤ) : handlesAfter opened v c = if v = 0 then h :: opened else opened := by
  cases c with
  | open_ path fi => exact Option.some.inj hc ▸ rfl
  | create path mode fi => exact Option.some.inj hc ▸ rfl
  | _ => cases hc

/-- A callback that does not lock changes no write handle. -/
theorem writers_handlesAfter {opened : List Handle} {c : Callback} (hspares : Spares opened c)
    (hc : c.locks = false) (v : ℤ) (path : Path) :
    writers path (handlesAfter opened v c) = writers path opened := by
  cases c with
  | rename from_ to_ flags =>
    unfold handlesAfter
    split_ifs with hv
    · refine writers_renamed (fun h hmem hwrites => ?_) path
      have hnot : ¬Covers from_ h.path := fun hcovers => hspares h hmem hwrites (.inl hcovers)
      exact ⟨fun heq => hnot (.inl heq), if_neg hnot⟩
    · rfl
  | create | open_ | release => cases hc
  | _ => rfl

section Keeps

variable {env : Env σ} {srv : DavServer} {locks : σ → Multiset (Path × Text)} {opened : List Handle}
  {x y : List FileLock × σ} {may : Path → Prop} {path : Path} {fi : OpenFlags}
  (hk : KeepsLocks env locks) (h : Matched locks opened x)

include hk h

theorem KeepsLocks.deal (hmay : ∀ h ∈ opened, h.flags.writes = true → ¬may h.path)
    (hdeal : Deal env may x y) : Matched locks opened y := by
  refine ⟨?_, hk.toHoldsLocks.deal hdeal h.listed, ?_⟩
  · cases hdeal with
    | sends request hother => exact h.accounted
    | drops request hmethod hwipes =>
      refine h.accounted.tdelete (writers_eq_zero.mpr fun w hmem hwrites hpath => ?_)
      exact hmay w hmem hwrites (hwipes w.path (.inl (.inl hpath)))
  · cases hdeal with
    | sends request hother => exact h.kept.trans (hk.keeps_others request _ hother)
    | drops request hmethod hwipes =>
      refine (tableLocks_tdelete_le request.path _).trans
        (hk.keeps_spared request _ hmethod _ h.kept fun l hl hwiped => ?_)
      obtain ⟨w, hmem, hwrites, hpath⟩ := h.accounted.writer hl
      exact hmay w hmem hwrites (hwipes w.path (hpath ▸ hwiped))

theorem KeepsLocks.deals (hmay : ∀ h ∈ opened, h.flags.writes = true → ¬may h.path)
    (hdeals : Relation.ReflTransGen (Deal env may) x y) : Matched locks opened y := by
  induction hdeals with
  | refl => exact h
  | tail _ hdeal ih => exact hk.deal ih hmay hdeal

/-- A write handle is opened. -/
theorem KeepsLocks.takes (hwrites : fi.writes = true) (htakes : TakesLock env path x y) :
    Matched locks (⟨path, fi⟩ :: opened) y := by
  have hlisted := hk.toHoldsLocks.takes htakes h.listed
  cases htakes with
  | @counts table s e hf =>
    refine ⟨h.accounted.cons_counted hf hwrites, hlisted, ?_⟩
    rw [tableLocks_addCnt]
    exact h.kept
  | @grants table s token hf hc htoken =>
    refine ⟨h.accounted.cons_first hf hwrites token, hlisted, ?_⟩
    calc tableLocks (⟨path, token, 1⟩ :: table)
        ≤ (path, token) ::ₘ locks s := Multiset.cons_le_cons _ h.kept
      _ ≤ locks (env.perform (plainLock path) s).2 :=
        hk.keeps_granted (plainLock path) s token rfl hc htoken

theorem KeepsLocks.denies (hdenies : DeniesLock env path x y) : Matched locks opened y := by
  have hlisted := hk.toHoldsLocks.denies hdenies h.listed
  cases hdenies with
  | refuses hf hc =>
    exact ⟨h.accounted, hlisted, h.kept.trans (hk.keeps_refused (plainLock path) _ rfl hc)⟩

/-- A write handle is closed. -/
theorem KeepsLocks.gives (hmem : ⟨path, fi⟩ ∈ opened) (hwrites : fi.writes = true)
    (hgives : GivesLock env path x y) : Matched locks (opened.erase ⟨path, fi⟩) y := by
  have hlisted := hk.toHoldsLocks.gives hgives h.listed
  cases hgives with
  | @counts table s e hf hshared =>
    refine ⟨h.accounted.erase_counted hmem hwrites hf hshared, hlisted, ?_⟩
    rw [tableLocks_addCnt]
    exact h.kept
  | @unlocks table s e hf hlast =>
    refine ⟨h.accounted.erase_last hmem hwrites hf hlast, hlisted, ?_⟩
    calc tableLocks (tdelete path (addCnt path (-1) table))
        = (tableLocks table).erase (path, e.token) := tableLocks_unlocked hf
      _ ≤ (locks s).erase (path, e.token) := Multiset.erase_le_erase _ h.kept
      _ ≤ locks (env.perform (unlockRequest path e.token) s).2 := hk.keeps_unlock path e.token s

omit hk in
/-- The handles change, but no write handle does. -/
theorem Matched.of_writers {opened' : List Handle}
    (hsame : ∀ path, writers path opened' = writers path opened) : Matched locks opened' x :=
  ⟨fun path => by rw [hsame, h.accounted], h.listed, h.kept⟩

omit hk in
/-- A handle that does not lock is opened. -/
theorem Matched.cons_reader (hreads : fi.writes = false) : Matched locks (⟨path, fi⟩ :: opened) x :=
  ⟨h.accounted.cons_reader hreads, h.listed, h.kept⟩

omit hk in
/-- A handle that does not lock is closed. -/
theorem Matched.erase_reader (hmem : ⟨path, fi⟩ ∈ opened) (hreads : fi.writes = false) :
    Matched locks (opened.erase ⟨path, fi⟩) x :=
  ⟨h.accounted.erase_reader hmem hreads, h.listed, h.kept⟩

/-- A callback that returns keeps the table right. -/
theorem KeepsLocks.dealt (hlock : srv.lock = true) {c : Callback} (hreleases : Releases opened c)
    (hspares : Spares opened c) {v : ℤ} (hdealt : Dealt env srv c v x y) :
    Matched locks (handlesAfter opened v c) y := by
  cases hdealt with
  | deals hc hdeals => exact (hk.deals h hspares hdeals).of_writers (writers_handlesAfter hspares hc v)
  | @unlocked _ w _ _ _ hc hdeals hv =>
    have hkept := hk.deals h hspares hdeals
    rw [handlesAfter_opens hc]
    split_ifs with hzero
    · exact hkept.cons_reader (hv hzero hlock)
    · exact hkept
  | takes hc hwrites hdeals htakes =>
    rw [handlesAfter_opens hc, if_pos rfl]
    exact hk.takes (hk.deals h hspares hdeals) hwrites htakes
  | denied hc hdeals hdenies hv =>
    rw [handlesAfter_opens hc, if_neg hv]
    exact hk.denies (hk.deals h hspares hdeals) hdenies
  | gives hwrites hgives => exact hk.gives h hreleases hwrites hgives
  | @kept path fi _ _ hnone =>
    refine h.erase_reader hreleases (Bool.eq_false_iff.mpr fun hwrites => ?_)
    have hfound := h.accounted.found hreleases hwrites
    rw [hnone hlock hwrites] at hfound
    cases hfound

end Keeps

/-! ## Whole runs -/

/-- The mounts that come from a client without locks by callbacks that return and wipe no file
    with a write handle. -/
inductive SparingRun (env : Env σ) (srv : DavServer) (s : σ) : Mount σ → Prop
  | start : SparingRun env srv s ⟨entered s [], []⟩
  | serve {x : Mount σ} {c : Callback} {v : ℤ} {t : Thread (Mem σ)} (before : SparingRun env srv s x)
      (releases : Releases x.opened c) (spares : Spares x.opened c)
      (run : (c.run env srv : Dav σ Unit ℤ) x.thread = (.ok v, t)) :
      SparingRun env srv s ⟨t, handlesAfter x.opened v c⟩

/-- In every run in which no file with a write handle is wiped, the locks that the server holds are
    those in the table, and a file has one exactly while it has a write handle. -/
theorem locks_are_writers {env : Env σ} {srv : DavServer} {locks : σ → Multiset (Path × Text)}
    (hk : KeepsLocks env locks) (huse : srv.options.useLock = true) (hlock : srv.lock = true) {s : σ}
    (hnone : locks s = 0) {x : Mount σ} (hrun : SparingRun env srv s x) :
    locks x.thread.mem.env = tableLocks x.thread.mem.table ∧
      ∀ path, (locks x.thread.mem.env).countP (·.1 = path) =
        if writers path x.opened = 0 then 0 else 1 := by
  have hinv : Clear x.thread ∧ x.thread.mem.held = [] ∧ Matched locks x.opened (books x.thread) := by
    induction hrun with
    | start => exact ⟨rfl, rfl, fun _ => rfl, hnone.le, Multiset.zero_le _⟩
    | @serve x c v t before releases spares run ih =>
      obtain ⟨hclear, hfree, hmatched⟩ := ih
      have hfinds : Finds srv x.thread c := by
        cases c with
        | release path fi => exact fun _ hwrites => hmatched.accounted.found releases hwrites
        | _ => trivial
      obtain ⟨hfree', hdealt⟩ := callback_dealt hk.toTractable huse hclear hfree run
      exact ⟨hk.toTractable.clear hclear hfinds run, hfree',
        hk.dealt hmatched hlock releases spares hdealt⟩
  obtain ⟨-, -, hmatched⟩ := hinv
  have hsame : locks x.thread.mem.env = tableLocks x.thread.mem.table :=
    le_antisymm hmatched.listed hmatched.kept
  exact ⟨hsame, fun path => hsame ▸ hmatched.accounted.countP path⟩

theorem keepsLocks_lockKeeper : KeepsLocks lockKeeper id where
  toHoldsLocks := holdsLocks_lockKeeper
  keeps_granted request s token hm _ htoken := by
    simp only [lockKeeper, serving, hm] at htoken ⊢
    rw [← Option.some.inj htoken]
    exact le_rfl
  keeps_refused request s hm hc := by
    simp only [lockKeeper, serving, hm] at hc
    exact absurd rfl hc
  keeps_unlock path token s := le_rfl
  keeps_spared request s hm spared hle hspared := by
    have hkept : spared ≤ s.filter (·.1 ≠ request.path) :=
      Multiset.le_filter.mpr ⟨hle, fun l hl hpath => hspared l hl (.inl (.inl hpath))⟩
    simp only [lockKeeper, serving]
    rcases hm with hm | hm <;> rw [hm] <;> exact hkept
  keeps_others request s hmem := by
    simp only [lockKeeper, serving]
    simp only [List.mem_cons, List.not_mem_nil, or_false, not_or] at hmem
    obtain ⟨hlock, hunlock, hdelete, hmove⟩ := hmem
    cases hm : request.method <;> first | exact le_rfl | contradiction

/-- `/a` and `/b` are opened for writing, and `/a` is closed: `/b` is locked once, and `/a` not. -/
theorem locks_are_writers_closed :
    ∃ t, SparingRun lockKeeper lockingServer 0 ⟨t, [⟨[47, 98], writeOnly⟩]⟩ ∧
      t.mem.env = {([47, 98], ['a'])} ∧ t.mem.env = tableLocks t.mem.table ∧
      t.mem.env.countP (·.1 = [47, 98]) = 1 ∧ t.mem.env.countP (·.1 = [47, 97]) = 0 := by
  obtain ⟨sent₁, hfirst⟩ := keeping_open_a [] ⟨0, 0, 0, 0, 0, 0, 0, 0, 0⟩
  obtain ⟨sent₂, hsecond⟩ := keeping_open_b sent₁ ⟨0, 0, 0, 0, 0, 0, 0, 0, 0⟩
  obtain ⟨sent₃, hclosed⟩ := keeping_close_a sent₂ ⟨0, 0, 0, 0, 0, 0, 0, 0, 0⟩
  have hspares (opened : List Handle) (path : Path) :
      Spares opened (.open_ path writeOnly) := fun _ _ _ hwipes => absurd hwipes.2.1 (by decide)
  have hrun : SparingRun lockKeeper lockingServer 0
      ⟨keeping {([47, 98], ['a'])} [keptB] sent₃ ⟨0, 0, 0, 0, 0, 0, 0, 0, 0⟩, [⟨[47, 98], writeOnly⟩]⟩ :=
    .serve (c := .release [47, 97] writeOnly)
      (.serve (c := .open_ [47, 98] writeOnly)
        (.serve (c := .open_ [47, 97] writeOnly) .start trivial (hspares _ _) hfirst)
        trivial (hspares _ _) hsecond)
      (List.mem_cons_of_mem _ (List.mem_cons_self ..)) (fun _ _ _ => id) hclosed
  obtain ⟨hsame, hcounts⟩ := locks_are_writers keepsLocks_lockKeeper rfl rfl rfl hrun
  exact ⟨_, hrun, rfl, hsame, hcounts [47, 98], hcounts [47, 97]⟩

end NetworkFs.Dav
