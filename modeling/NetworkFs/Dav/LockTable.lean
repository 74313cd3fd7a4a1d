import NetworkFs.Concurrency.Custody
import NetworkFs.World

/-!
# The table of locks, with threads in between

`dav_lock` and `dav_unlock` (`proto/dav/method.c` lines 612–711) as any number of threads run them.
A section under `filelock_tree_lock` is one step, and all requests succeed. `dav_unlock` decides in
its first section that an entry is unused, and removes it in its second; what it then gives back and
frees is the entry of the first section, unless the second one finds an unused entry.

* `Step`: one step of one thread.
* `Inv`, `inv_step`: the invariant, and that every orderly step keeps it.
* `lock_table_safe`: what it says in every state that orderly steps reach.
* `not_orderly_unsafe`: what the other steps lead to.
-/

namespace NetworkFs.Dav.LockTable

open Concurrency

variable {T L K : Type}

/-! ## The threads -/

/-- Where a thread is between two sections. -/
inductive Pc (L : Type) where
  /-- In neither function. -/
  | idle
  /-- `dav_lock` found no entry and comes to `malloc_et(struct FileLock)`. -/
  | malloc (path : Path)
  /-- `dav_lock` comes to its second section with a new `filelock`. -/
  | insert (path : Path) (filelock : L)
  /-- `dav_unlock` comes to its second section with the entry of the first one. -/
  | remove (path : Path) (filelock : L)
  /-- `__dav_unlock(server, filelock->path, filelock->token)`. -/
  | send (filelock : L)
  /-- `delete(FileLock) filelock`. -/
  | free (filelock : L)

/-- The entries that only this thread can reach. -/
def Pc.filelocks : Pc L → Multiset L
  | insert _ p => {p}
  | send p => {p}
  | free p => {p}
  | _ => 0

/-- The entries that were in the table and whose tokens are still to be given back. -/
def Pc.sending : Pc L → Multiset L
  | send p => {p}
  | _ => 0

/-- The table, the memory, the server, and the threads. A `filelock` is a block of memory: one that
    was freed is not given out again. -/
structure State (T L K : Type) where
  /-- `filelock_tree`. -/
  tree : List L
  /-- `filelock->path` of every `filelock`. -/
  path : L → Path
  /-- `filelock->cnt`. -/
  cnt : L → ℤ
  /-- `filelock->token`. -/
  token : L → K
  /-- The blocks that `malloc_et` has given. -/
  malloced : Set L
  /-- The blocks that were freed, as often as they were. -/
  freed : Multiset L
  /-- The tokens that the server gave out. -/
  granted : Set K
  /-- The tokens in the `UNLOCK` requests. -/
  unlocked : Multiset K
  /-- Which thread has which path locked, as often as it has: its `dav_lock` returned zero and it did
      not call `dav_unlock` yet. -/
  holds : Multiset (T × Path)
  pc : T → Pc L

namespace State

/-- Nothing was locked yet. -/
structure Initial (s : State T L K) : Prop where
  tree : s.tree = []
  malloced : s.malloced = ∅
  freed : s.freed = 0
  granted : s.granted = ∅
  unlocked : s.unlocked = 0
  holds : s.holds = 0
  pc : ∀ t, s.pc t = .idle

/-- `tfind(&path, &filelock_tree, __dav_strpcmp)`. -/
def tfind (s : State T L K) (path : Path) : Option L := s.tree.find? fun f => s.path f = path

/-- How often a path is locked. -/
def locks (s : State T L K) (path : Path) : ℕ := (s.holds.map Prod.snd).count path

/-- The next section of `t` is at `p`. -/
def goto [DecidableEq T] (s : State T L K) (t : T) (p : Pc L) : State T L K :=
  { s with pc := Function.update s.pc t p }

/-- `filelock->cnt += n`. -/
def addCnt [DecidableEq L] (s : State T L K) (f : L) (n : ℤ) : State T L K :=
  { s with cnt := Function.update s.cnt f (s.cnt f + n) }

/-- `dav_lock` of `t` has returned zero. -/
def lock (s : State T L K) (t : T) (path : Path) : State T L K :=
  { s with holds := (t, path) ::ₘ s.holds }

/-- `t` has called `dav_unlock`. -/
def unlock [DecidableEq T] (s : State T L K) (t : T) (path : Path) : State T L K :=
  { s with holds := s.holds.erase (t, path) }

end State

/-- One step of thread `t`. -/
inductive Step [DecidableEq T] [DecidableEq L] (t : T) : State T L K → State T L K → Prop
  /-- The first section of `dav_lock`, with an entry. -/
  | find {s path f} (h : s.pc t = .idle) (hf : s.tfind path = some f) :
      Step t s ((s.addCnt f 1).lock t path)
  | findMissing {s path} (h : s.pc t = .idle) (hf : s.tfind path = none) :
      Step t s (s.goto t (.malloc path))
  /-- A new `filelock` with its path, no token and the count 1. -/
  | malloc {s path p} (h : s.pc t = .malloc path) (hp : p ∉ s.malloced) :
      Step t s { s.goto t (.insert path p) with
        malloced := insert p s.malloced
        path := Function.update s.path p path
        cnt := Function.update s.cnt p 1 }
  /-- The second section of `dav_lock`: another thread was faster, and the new `filelock` is freed. -/
  | insertExists {s path p f} (h : s.pc t = .insert path p) (hf : s.tfind path = some f) :
      Step t s { ((s.addCnt f 1).lock t path).goto t .idle with freed := p ::ₘ s.freed }
  /-- The second section of `dav_lock`: `__dav_lock` gives a token, and `tsearch` enters it. -/
  | insert {s path p k} (h : s.pc t = .insert path p) (hf : s.tfind path = none)
      (hk : k ∉ s.granted) :
      Step t s { (s.lock t path).goto t .idle with
        token := Function.update s.token p k
        granted := insert k s.granted
        tree := p :: s.tree }
  /-- The first section of `dav_unlock`, without an entry: it returns 1. -/
  | releaseMissing {s path} (h : s.pc t = .idle) (hheld : (t, path) ∈ s.holds)
      (hf : s.tfind path = none) : Step t s (s.unlock t path)
  /-- The first section of `dav_unlock`, and others use the entry. -/
  | release {s path f} (h : s.pc t = .idle) (hheld : (t, path) ∈ s.holds)
      (hf : s.tfind path = some f) (hcnt : 0 < s.cnt f - 1) :
      Step t s ((s.addCnt f (-1)).unlock t path)
  /-- The first section of `dav_unlock`, and nobody uses the entry. -/
  | releaseLast {s path f} (h : s.pc t = .idle) (hheld : (t, path) ∈ s.holds)
      (hf : s.tfind path = some f) (hcnt : s.cnt f - 1 ≤ 0) :
      Step t s (((s.addCnt f (-1)).unlock t path).goto t (.remove path f))
  /-- The second section of `dav_unlock`, without an entry: `filelock` stays. -/
  | removeMissing {s path f} (h : s.pc t = .remove path f) (hf : s.tfind path = none) :
      Step t s (s.goto t (.send f))
  /-- The second section of `dav_unlock`: the entry is in use again, and `filelock` stays. -/
  | removeUsed {s path f e} (h : s.pc t = .remove path f) (hf : s.tfind path = some e)
      (hcnt : 0 < s.cnt e) : Step t s (s.goto t (.send f))
  /-- The second section of `dav_unlock`: the entry is taken out, and it is `filelock` now. -/
  | remove {s path f e} (h : s.pc t = .remove path f) (hf : s.tfind path = some e)
      (hcnt : s.cnt e ≤ 0) : Step t s { s.goto t (.send e) with tree := s.tree.erase e }
  | send {s f} (h : s.pc t = .send f) :
      Step t s { s.goto t (.free f) with unlocked := s.token f ::ₘ s.unlocked }
  | free {s f} (h : s.pc t = .free f) :
      Step t s { s.goto t .idle with freed := f ::ₘ s.freed }

/-- If `t` comes to the second section of `dav_unlock`, there is an entry, and it is not in use. -/
def Orderly (t : T) (s : State T L K) : Prop :=
  ∀ path f, s.pc t = .remove path f → ∃ e, s.tfind path = some e ∧ s.cnt e ≤ 0

/-- `s` is reached by orderly steps. -/
def Reaches [DecidableEq T] [DecidableEq L] : State T L K → State T L K → Prop :=
  Relation.ReflTransGen fun s s' => ∃ t, Orderly t s ∧ Step t s s'

/-- `s'` is reached by any steps. -/
def Runs [DecidableEq T] [DecidableEq L] : State T L K → State T L K → Prop :=
  Relation.ReflTransGen fun s s' => ∃ t, Step t s s'

/-- What the table promises. -/
structure Safe (s : State T L K) : Prop where
  /-- What the tree has is not freed. -/
  live : ∀ f ∈ s.tree, f ∉ s.freed
  freed_once : s.freed.Nodup
  unlocked_once : s.unlocked.Nodup
  /-- A token is given back only after its entry was taken out. -/
  unlocked_removed : ∀ f ∈ s.tree, s.token f ∉ s.unlocked
  /-- A path that a thread has locked has an entry that is in use. -/
  held : ∀ t path, (t, path) ∈ s.holds → ∃ f, s.tfind path = some f ∧ 1 ≤ s.cnt f

/-! ## The invariant -/

/-- The `filelock`s are in the tree or in the hands of one thread, an entry is in use as often as
    its path is locked, and no token is given back twice. -/
structure Inv (s : State T L K) : Prop where
  filelocks : Custody (s.tree : Multiset L) (fun t => (s.pc t).filelocks)
    fun f => f ∈ s.malloced ∧ f ∉ s.freed
  freed_malloced : ∀ f ∈ s.freed, f ∈ s.malloced
  freed_once : s.freed.Nodup
  /-- One entry for a path. -/
  paths : ∀ f ∈ s.tree, ∀ g ∈ s.tree, s.path f = s.path g → f = g
  /-- The count is how often the path is locked. -/
  counts : ∀ f ∈ s.tree, s.cnt f = s.locks (s.path f)
  entries : ∀ t path, (t, path) ∈ s.holds → ∃ f ∈ s.tree, s.path f = path
  /-- A new `filelock` that is not in the tree yet. -/
  fresh : ∀ t path p, s.pc t = .insert path p → s.path p = path ∧ s.cnt p = 1
  /-- The entry of the first section of `dav_unlock`, wherever it is now, was in the tree. -/
  removing : ∀ t path f, s.pc t = .remove path f → f ∈ s.malloced ∧ ∀ t' q, s.pc t' ≠ .insert q f
  /-- The tokens of the entries whose tokens were not given back. -/
  tokens : Custody ((s.tree : Multiset L).map s.token) (fun t => (s.pc t).sending.map s.token)
    fun k => k ∈ s.granted ∧ k ∉ s.unlocked
  unlocked_granted : ∀ k ∈ s.unlocked, k ∈ s.granted
  unlocked_once : s.unlocked.Nodup

theorem tfind_eq_some {s : State T L K} {path : Path} {f : L} (h : s.tfind path = some f) :
    f ∈ s.tree ∧ s.path f = path :=
  ⟨List.mem_of_find?_eq_some h, of_decide_eq_true (List.find?_some h :)⟩

theorem tfind_eq_none {s : State T L K} {path : Path} (h : s.tfind path = none) :
    ∀ f ∈ s.tree, s.path f ≠ path :=
  fun f hf heq => List.find?_eq_none.mp h f hf (decide_eq_true heq)

theorem Inv.tfind_eq {s : State T L K} (h : Inv s) {f : L} {path : Path} (hf : f ∈ s.tree)
    (hpath : s.path f = path) :
    s.tfind path = some f := by
  cases hfind : s.tfind path with
  | none => exact absurd hpath (tfind_eq_none hfind f hf)
  | some g =>
    obtain ⟨hg, hpath'⟩ := tfind_eq_some hfind
    rw [h.paths g hg f hf (hpath'.trans hpath.symm)]

theorem inv_initial {s : State T L K} (h : s.Initial) : Inv s where
  filelocks := by
    rw [h.tree]
    exact custody_zero (fun t => by rw [h.pc t]; rfl) fun f hf => by simp [h.malloced] at hf
  freed_malloced f hf := by simp [h.freed] at hf
  freed_once := by
    rw [h.freed]
    exact Multiset.nodup_zero
  paths f hf := by simp [h.tree] at hf
  counts f hf := by simp [h.tree] at hf
  entries t path hheld := by simp [h.holds] at hheld
  fresh t path p ht := by simp [h.pc t] at ht
  removing t path f ht := by simp [h.pc t] at ht
  tokens := by
    rw [h.tree]
    exact custody_zero (fun t => by rw [h.pc t]; rfl) fun k hk => by simp [h.granted] at hk
  unlocked_granted k hk := by simp [h.unlocked] at hk
  unlocked_once := by
    rw [h.unlocked]
    exact Multiset.nodup_zero

/-- The invariant implies what the table promises. -/
theorem Inv.safe {s : State T L K} (h : Inv s) : Safe s where
  live f hf := by
    intro hfreed
    refine (h.filelocks.absent ?_).1 (Multiset.mem_coe.mpr hf)
    exact fun hlive => hlive.2 hfreed
  freed_once := h.freed_once
  unlocked_once := h.unlocked_once
  unlocked_removed f hf := by
    intro hunlocked
    refine (h.tokens.absent ?_).1 (Multiset.mem_map_of_mem _ (Multiset.mem_coe.mpr hf))
    exact fun hlive => hlive.2 hunlocked
  held t path hheld := by
    obtain ⟨f, hf, hpath⟩ := h.entries t path hheld
    refine ⟨f, h.tfind_eq hf hpath, ?_⟩
    rw [h.counts f hf, hpath]
    have hpos : 0 < s.locks path := Multiset.count_pos.mpr (Multiset.mem_map_of_mem Prod.snd hheld)
    omega

/-! ## One step keeps it -/

section Keeps

variable [DecidableEq T] {s s' : State T L K} {t : T}

@[simp] theorem goto_pc_self (s : State T L K) (t : T) (p : Pc L) : (s.goto t p).pc t = p :=
  Function.update_self ..

theorem goto_pc_of_ne {t' : T} (h : t' ≠ t) (s : State T L K) (p : Pc L) :
    (s.goto t p).pc t' = s.pc t' := Function.update_of_ne h ..

/-- A property of the next section that `t` keeps is kept by all. -/
theorem goto_same {α : Sort*} (f : Pc L → α) {p : Pc L} (hp : f p = f (s.pc t)) (t' : T) :
    f ((s.goto t p).pc t') = f (s.pc t') := by
  by_cases ht : t' = t
  · rw [ht, goto_pc_self, hp]
  · rw [goto_pc_of_ne ht]

omit [DecidableEq T] in
/-- An entry that only `t` can reach is not in the tree. -/
theorem Inv.not_mem_tree (h : Inv s) {p : L} (hp : p ∈ (s.pc t).filelocks) : p ∉ s.tree :=
  fun hmem => h.filelocks.not_mem_stock hp (Multiset.mem_coe.mpr hmem)

omit [DecidableEq T] in
theorem Inv.live_of_mem (h : Inv s) {p : L} (hp : p ∈ (s.pc t).filelocks) :
    p ∈ s.malloced ∧ p ∉ s.freed := by
  by_contra hdead
  exact (h.filelocks.absent hdead).2 t hp

/-- A thread that is not at `p` was where it is before `t` went to `p`. -/
theorem pc_of_goto {p q : Pc L} {t' : T} (ht' : (s.goto t p).pc t' = q) (hne : p ≠ q) :
    s.pc t' = q := by
  by_cases ht : t' = t
  · rw [ht, goto_pc_self] at ht'
    exact absurd ht' hne
  · rwa [goto_pc_of_ne ht] at ht'

/-- What `removing` says after `t` went on to `p`. -/
theorem Inv.removing_goto (h : Inv s) {p : Pc L} (hp : ∀ path f, p ≠ .insert path f)
    (hremove : ∀ path f, p = .remove path f → f ∈ s.tree) {t' : T} {path : Path} {f : L}
    (ht' : (s.goto t p).pc t' = .remove path f) :
    f ∈ s.malloced ∧ ∀ t' q, (s.goto t p).pc t' ≠ .insert q f := by
  have hold : f ∈ s.malloced ∧ ∀ t' q, s.pc t' ≠ .insert q f := by
    by_cases hpf : p = .remove path f
    · have hmem := hremove path f hpf
      refine ⟨?_, fun t₁ q h₁ => ?_⟩
      · by_contra hnot
        exact (h.filelocks.absent fun hlive => hnot hlive.1).1 (Multiset.mem_coe.mpr hmem)
      · refine h.not_mem_tree (t := t₁) ?_ hmem
        rw [h₁]
        exact Multiset.mem_singleton_self f
    · exact h.removing t' path f (pc_of_goto ht' hpf)
  exact ⟨hold.1, fun t₁ q h₁ => hold.2 t₁ q (pc_of_goto h₁ (hp q f))⟩

/-- A thread that only goes on, and has no new `filelock` then. -/
theorem Inv.goto (h : Inv s) (p : Pc L) (hfilelocks : p.filelocks = (s.pc t).filelocks)
    (hsending : p.sending = (s.pc t).sending) (hp : ∀ path f, p ≠ .insert path f)
    (hremove : ∀ path f, p = .remove path f → f ∈ s.tree) : Inv (s.goto t p) where
  filelocks := h.filelocks.congr rfl (goto_same Pc.filelocks hfilelocks) fun _ => Iff.rfl
  freed_malloced := h.freed_malloced
  freed_once := h.freed_once
  paths := h.paths
  counts := h.counts
  entries := h.entries
  fresh t' path f ht' := h.fresh t' path f (pc_of_goto ht' (hp path f))
  removing _ _ _ ht' := h.removing_goto hp hremove ht'
  tokens := h.tokens.congr rfl
    (goto_same (fun p : Pc L => p.sending.map s.token) (congrArg (Multiset.map s.token) hsending))
    fun _ => Iff.rfl
  unlocked_granted := h.unlocked_granted
  unlocked_once := h.unlocked_once

/-- `t` frees an entry that only it can reach. -/
theorem Inv.free (h : Inv s) {p : L} {q : Pc L} (hp : (s.pc t).filelocks = p ::ₘ q.filelocks)
    (hsending : q.sending = (s.pc t).sending) (hq : ∀ path f, q ≠ .insert path f)
    (hremove : ∀ path f, q ≠ .remove path f) :
    Inv { s.goto t q with freed := p ::ₘ s.freed } := by
  have hmem : p ∈ (s.pc t).filelocks := hp ▸ Multiset.mem_cons_self p _
  obtain ⟨hmalloced, hnot⟩ := h.live_of_mem hmem
  have hgoto : ∀ t', t' ≠ t → ((s.goto t q).pc t').filelocks = (s.pc t').filelocks :=
    fun t' ht' => congrArg Pc.filelocks (goto_pc_of_ne ht' s q)
  refine ⟨?_, ?_, ?_, h.paths, h.counts, h.entries, ?_, ?_, ?_, h.unlocked_granted,
    h.unlocked_once⟩
  · refine h.filelocks.destroy (t := t) (x := p) hgoto ?_ fun f => ?_
    · show (s.pc t).filelocks = p ::ₘ ((s.goto t q).pc t).filelocks
      rw [goto_pc_self, hp]
    · show f ∈ s.malloced ∧ f ∉ p ::ₘ s.freed ↔ _
      rw [Multiset.mem_cons, not_or]
      tauto
  · intro f hf
    rcases Multiset.mem_cons.mp hf with rfl | hf
    · exact hmalloced
    · exact h.freed_malloced f hf
  · exact Multiset.nodup_cons.mpr ⟨hnot, h.freed_once⟩
  · exact fun t' path f ht' => h.fresh t' path f (pc_of_goto ht' (hq path f))
  · exact fun _ _ _ ht' => h.removing_goto hq (fun path f heq => absurd heq (hremove path f)) ht'
  · exact h.tokens.congr rfl
      (goto_same (fun p : Pc L => p.sending.map s.token) (congrArg (Multiset.map s.token) hsending))
      fun _ => Iff.rfl

variable [DecidableEq L]

omit [DecidableEq T] in
/-- The path is locked once more, or once less. -/
theorem Inv.count (h : Inv s) {path : Path} {f : L} (hf : s.tfind path = some f) {n : ℤ}
    {holds : Multiset (T × Path)}
    (hlocks : ∀ q, ((holds.map Prod.snd).count q : ℤ) = s.locks q + if q = path then n else 0)
    (hholds : ∀ t q, (t, q) ∈ holds → (t, q) ∈ s.holds ∨ q = path) :
    Inv { s.addCnt f n with holds := holds } := by
  obtain ⟨hmem, hpath⟩ := tfind_eq_some hf
  refine { h with counts := fun g hg => ?_, entries := fun t q hq => ?_, fresh := fun t q p ht => ?_ }
  · show Function.update s.cnt f (s.cnt f + n) g = ((holds.map Prod.snd).count (s.path g) : ℤ)
    rw [hlocks]
    by_cases hgf : g = f
    · rw [hgf, Function.update_self, h.counts f hmem, hpath, if_pos rfl]
    · have hne : s.path g ≠ path := fun heq => hgf (h.paths g hg f hmem (heq.trans hpath.symm))
      rw [Function.update_of_ne hgf, h.counts g hg, if_neg hne, add_zero]
  · rcases hholds t q hq with hold | rfl
    · exact h.entries t q hold
    · exact ⟨f, hmem, hpath⟩
  · obtain ⟨hq, hcnt⟩ := h.fresh t q p ht
    have hne : p ≠ f := by
      rintro rfl
      refine h.not_mem_tree (t := t) ?_ hmem
      rw [show s.pc t = .insert q p from ht]
      exact Multiset.mem_singleton_self p
    exact ⟨hq, (Function.update_of_ne hne _ _).trans hcnt⟩

omit [DecidableEq T] in
/-- `dav_lock` with an entry. -/
theorem Inv.lock (h : Inv s) (t : T) {path : Path} {f : L} (hf : s.tfind path = some f) :
    Inv ((s.addCnt f 1).lock t path) := by
  refine h.count hf (fun q => ?_) fun t' q hq => ?_
  · show (((((t, path) ::ₘ s.holds).map Prod.snd).count q : ℕ) : ℤ) = _
    rw [Multiset.map_cons, Multiset.count_cons]
    push_cast
    rfl
  · rcases Multiset.mem_cons.mp hq with heq | hq
    · exact .inr (congrArg Prod.snd heq)
    · exact .inl hq

/-- `dav_unlock` with an entry. -/
theorem Inv.unlock (h : Inv s) {path : Path} {f : L} (hheld : (t, path) ∈ s.holds)
    (hf : s.tfind path = some f) : Inv ((s.addCnt f (-1)).unlock t path) := by
  refine h.count hf (fun q => ?_) fun t' q hq => .inl (Multiset.mem_of_mem_erase hq)
  have hmem : path ∈ s.holds.map Prod.snd := Multiset.mem_map_of_mem Prod.snd hheld
  have hcons := Multiset.cons_erase hmem
  show (((s.holds.erase (t, path)).map Prod.snd).count q : ℤ) = s.locks q + _
  rw [Multiset.map_erase_of_mem Prod.snd s.holds hheld, State.locks]
  nth_rewrite 2 [← hcons]
  rw [Multiset.count_cons]
  split_ifs with hq
  · push_cast
    ring
  · push_cast
    ring

/-- A new `filelock`. -/
theorem Inv.malloc (h : Inv s) {path : Path} {p : L} (ht : s.pc t = .malloc path)
    (hp : p ∉ s.malloced) :
    Inv { s.goto t (.insert path p) with
      malloced := insert p s.malloced
      path := Function.update s.path p path
      cnt := Function.update s.cnt p 1 } := by
  have hdead : ¬(p ∈ s.malloced ∧ p ∉ s.freed) := fun hlive => hp hlive.1
  have hnot : ∀ f ∈ s.tree, f ≠ p := by
    rintro f hf rfl
    exact (h.filelocks.absent hdead).1 (Multiset.mem_coe.mpr hf)
  have hpath : ∀ f ∈ s.tree, Function.update s.path p path f = s.path f :=
    fun f hf => Function.update_of_ne (hnot f hf) _ _
  refine ⟨?_, fun f hf => .inr (h.freed_malloced f hf), h.freed_once, ?_, ?_, ?_, ?_, ?_, ?_,
    h.unlocked_granted, h.unlocked_once⟩
  · refine h.filelocks.create (t := t) (x := p) (fun t' ht' => ?_) hdead ?_ fun f => ?_
    · exact congrArg Pc.filelocks (goto_pc_of_ne ht' s _)
    · show ((s.goto t (.insert path p)).pc t).filelocks = p ::ₘ (s.pc t).filelocks
      rw [goto_pc_self, ht]
      rfl
    · show f ∈ insert p s.malloced ∧ f ∉ s.freed ↔ _
      rw [Set.mem_insert_iff]
      have hfreed : f = p → f ∉ s.freed := fun heq hfreed => hp (heq ▸ h.freed_malloced f hfreed)
      tauto
  · intro f hf g hg heq
    replace heq : Function.update s.path p path f = Function.update s.path p path g := heq
    rw [hpath f hf, hpath g hg] at heq
    exact h.paths f hf g hg heq
  · intro f hf
    show Function.update s.cnt p 1 f = s.locks (Function.update s.path p path f)
    rw [hpath f hf, Function.update_of_ne (hnot f hf)]
    exact h.counts f hf
  · intro t' q hq
    obtain ⟨f, hf, hfpath⟩ := h.entries t' q hq
    exact ⟨f, hf, (hpath f hf).trans hfpath⟩
  · intro t' q g ht'
    replace ht' : (s.goto t (.insert path p)).pc t' = .insert q g := ht'
    by_cases heq : t' = t
    · rw [heq, goto_pc_self] at ht'
      obtain ⟨rfl, rfl⟩ := Pc.insert.inj ht'
      exact ⟨Function.update_self .., Function.update_self ..⟩
    · rw [goto_pc_of_ne heq] at ht'
      have hne : g ≠ p := by
        rintro rfl
        refine hp (h.live_of_mem (t := t') ?_).1
        rw [ht']
        exact Multiset.mem_singleton_self g
      obtain ⟨hq, hcnt⟩ := h.fresh t' q g ht'
      exact ⟨(Function.update_of_ne hne _ _).trans hq, (Function.update_of_ne hne _ _).trans hcnt⟩
  · intro t' q f ht'
    obtain ⟨hf, hno⟩ := h.removing t' q f (pc_of_goto ht' (by simp))
    refine ⟨.inr hf, fun t₁ q₁ h₁ => hno t₁ q₁ (pc_of_goto h₁ ?_)⟩
    rintro ⟨⟩
    exact hp hf
  · refine h.tokens.congr rfl (goto_same (fun p : Pc L => p.sending.map s.token) ?_) fun _ => Iff.rfl
    rw [ht]
    rfl

/-- `dav_lock` frees its new `filelock`, because another thread was faster. -/
theorem Inv.insertExists (h : Inv s) {path : Path} {p f : L} (ht : s.pc t = .insert path p)
    (hf : s.tfind path = some f) :
    Inv { ((s.addCnt f 1).lock t path).goto t .idle with freed := p ::ₘ s.freed } := by
  have hlock := h.lock t hf
  refine Inv.free (q := .idle) hlock ?_ ?_ (by simp) (by simp)
  · show (s.pc t).filelocks = p ::ₘ 0
    rw [ht]
    rfl
  · show 0 = (s.pc t).sending
    rw [ht]
    rfl

/-- `dav_lock` enters its new `filelock`. -/
theorem Inv.insert (h : Inv s) {path : Path} {p : L} {k : K} (ht : s.pc t = .insert path p)
    (hf : s.tfind path = none) (hk : k ∉ s.granted) :
    Inv { (s.lock t path).goto t .idle with
      token := Function.update s.token p k
      granted := Insert.insert k s.granted
      tree := p :: s.tree } := by
  have hmem : p ∈ (s.pc t).filelocks := by
    rw [ht]
    exact Multiset.mem_singleton_self p
  have hnot : p ∉ s.tree := h.not_mem_tree hmem
  obtain ⟨hpath, hcnt⟩ := h.fresh t path p ht
  have hnone : ∀ f ∈ s.tree, s.path f ≠ path := tfind_eq_none hf
  have htoken : ∀ fs : Multiset L, p ∉ fs →
      fs.map (Function.update s.token p k) = fs.map s.token := fun fs hno =>
    Multiset.map_congr rfl fun f hf => Function.update_of_ne (ne_of_mem_of_not_mem hf hno) _ _
  have hlocks : ∀ q, ((((t, path) ::ₘ s.holds).map Prod.snd).count q : ℤ)
      = s.locks q + if q = path then 1 else 0 := by
    intro q
    rw [Multiset.map_cons, Multiset.count_cons]
    push_cast
    rfl
  have hunlocked : s.locks path = 0 := by
    refine Multiset.count_eq_zero.mpr fun hheld => ?_
    obtain ⟨⟨t', q⟩, hmem, rfl⟩ := Multiset.mem_map.mp hheld
    obtain ⟨f, hftree, hfpath⟩ := h.entries t' q hmem
    exact hnone f hftree hfpath
  refine ⟨?_, h.freed_malloced, h.freed_once, ?_, ?_, ?_, ?_, ?_, ?_, ?_, h.unlocked_once⟩
  · refine h.filelocks.put (t := t) (x := p) (fun t' ht' => ?_) ?_
    · exact congrArg Pc.filelocks (goto_pc_of_ne ht' (s.lock t path) _)
    · show (s.pc t).filelocks = p ::ₘ (((s.lock t path).goto t .idle).pc t).filelocks
      rw [goto_pc_self, ht]
      rfl
  · intro f hf g hg heq
    replace heq : s.path f = s.path g := heq
    rcases List.mem_cons.mp hf with rfl | hftree
    · rcases List.mem_cons.mp hg with rfl | hgtree
      · rfl
      · exact absurd (heq.symm.trans hpath) (hnone g hgtree)
    · rcases List.mem_cons.mp hg with rfl | hgtree
      · exact absurd (heq.trans hpath) (hnone f hftree)
      · exact h.paths f hftree g hgtree heq
  · intro f hf
    show s.cnt f = ((((t, path) ::ₘ s.holds).map Prod.snd).count (s.path f) : ℤ)
    rw [hlocks]
    rcases List.mem_cons.mp hf with rfl | hftree
    · rw [hcnt, hpath, hunlocked, if_pos rfl]
      rfl
    · rw [h.counts f hftree, if_neg (hnone f hftree), add_zero]
  · intro t' q hq
    rcases Multiset.mem_cons.mp hq with heq | hq
    · obtain ⟨rfl, rfl⟩ := Prod.mk.inj heq
      exact ⟨p, List.mem_cons_self, hpath⟩
    · obtain ⟨f, hftree, hfpath⟩ := h.entries t' q hq
      exact ⟨f, List.mem_cons_of_mem p hftree, hfpath⟩
  · exact fun t' q f ht' => h.fresh t' q f (pc_of_goto (s := s.lock t path) ht' (by simp))
  · intro t' q f ht'
    obtain ⟨hmalloced, hno⟩ := h.removing t' q f (pc_of_goto (s := s.lock t path) ht' (by simp))
    exact ⟨hmalloced, fun t₁ q₁ h₁ => hno t₁ q₁ (pc_of_goto (s := s.lock t path) h₁ (by simp))⟩
  · have hdead : ¬(k ∈ s.granted ∧ k ∉ s.unlocked) := fun hlive => hk hlive.1
    have hlive : ∀ x, (x ∈ Insert.insert k s.granted ∧ x ∉ s.unlocked) ↔
        (x ∈ s.granted ∧ x ∉ s.unlocked) ∨ x = k := by
      intro x
      have hknot : x = k → x ∉ s.unlocked := by
        rintro rfl hmem
        exact hk (h.unlocked_granted x hmem)
      rw [Set.mem_insert_iff]
      tauto
    refine (h.tokens.enter hdead hlive).congr ?_ (fun t' => ?_) fun _ => Iff.rfl
    · show Multiset.map (Function.update s.token p k) (p ::ₘ (s.tree : Multiset L)) = _
      rw [Multiset.map_cons, Function.update_self, htoken _ (by simpa using hnot)]
    · show (((s.lock t path).goto t .idle).pc t').sending.map (Function.update s.token p k) = _
      have hsending : (((s.lock t path).goto t .idle).pc t').sending = (s.pc t').sending := by
        refine goto_same (s := s.lock t path) Pc.sending ?_ t'
        show 0 = (s.pc t).sending
        rw [ht]
        rfl
      rw [hsending]
      refine htoken _ fun hsend => ?_
      have hne : t' ≠ t := by
        rintro rfl
        rw [ht] at hsend
        exact Multiset.notMem_zero p hsend
      refine h.filelocks.not_mem_held hmem hne ?_
      show p ∈ (s.pc t').filelocks
      cases hpc : s.pc t' <;> rw [hpc] at hsend <;>
        first | exact hsend | exact absurd hsend (Multiset.notMem_zero p)
  · exact fun x hx => .inr (h.unlocked_granted x hx)

/-- `dav_unlock` takes an entry that nobody uses out of the tree. -/
theorem Inv.remove (h : Inv s) {path : Path} {f e : L} (ht : s.pc t = .remove path f)
    (hf : s.tfind path = some e) (hcnt : s.cnt e ≤ 0) :
    Inv { s.goto t (.send e) with tree := s.tree.erase e } := by
  obtain ⟨hmem, hpath⟩ := tfind_eq_some hf
  have htree : (s.tree : Multiset L) = e ::ₘ ((s.tree.erase e : List L) : Multiset L) := by
    rw [← Multiset.coe_erase, Multiset.cons_erase (Multiset.mem_coe.mpr hmem)]
  have hunused : s.locks path = 0 := by
    have hcount := h.counts e hmem
    rw [hpath] at hcount
    omega
  refine ⟨?_, h.freed_malloced, h.freed_once, ?_, ?_, ?_, ?_, ?_, ?_, h.unlocked_granted,
    h.unlocked_once⟩
  · have hstock := h.filelocks
    rw [htree] at hstock
    refine Custody.take (t := t) (fun t' ht' => ?_) hstock ?_
    · exact congrArg Pc.filelocks (goto_pc_of_ne ht' s _)
    · show ((s.goto t (.send e)).pc t).filelocks = e ::ₘ (s.pc t).filelocks
      rw [goto_pc_self, ht]
      rfl
  · exact fun f hf g hg => h.paths f (List.mem_of_mem_erase hf) g (List.mem_of_mem_erase hg)
  · exact fun f hf => h.counts f (List.mem_of_mem_erase hf)
  · intro t' q hq
    obtain ⟨g, hg, hgpath⟩ := h.entries t' q hq
    refine ⟨g, (List.mem_erase_of_ne ?_).mpr hg, hgpath⟩
    rintro rfl
    rw [← hpath, hgpath] at hunused
    exact Multiset.count_eq_zero.mp hunused (Multiset.mem_map_of_mem Prod.snd hq)
  · exact fun t' q g ht' => h.fresh t' q g (pc_of_goto ht' (by simp))
  · exact fun _ _ _ ht' => h.removing_goto (by simp) (by simp) ht'
  · have hstock := h.tokens
    rw [htree, Multiset.map_cons] at hstock
    refine Custody.take (t := t) (fun t' ht' => ?_) hstock ?_
    · exact congrArg (fun p : Pc L => p.sending.map s.token) (goto_pc_of_ne ht' s _)
    · show ((s.goto t (.send e)).pc t).sending.map s.token
        = s.token e ::ₘ (s.pc t).sending.map s.token
      rw [goto_pc_self, ht]
      rfl

omit [DecidableEq L] in
/-- `dav_unlock` gives a token back. -/
theorem Inv.send (h : Inv s) {f : L} (ht : s.pc t = .send f) :
    Inv { s.goto t (.free f) with unlocked := s.token f ::ₘ s.unlocked } := by
  have hsame : (Pc.free f).filelocks = (s.pc t).filelocks := by
    rw [ht]
    rfl
  have hmem : s.token f ∈ (s.pc t).sending.map s.token := by
    rw [ht]
    exact Multiset.mem_singleton_self _
  have hlive : s.token f ∈ s.granted ∧ s.token f ∉ s.unlocked := by
    by_contra hdead
    exact (h.tokens.absent hdead).2 t hmem
  refine ⟨?_, h.freed_malloced, h.freed_once, h.paths, h.counts, h.entries, ?_, ?_, ?_, ?_, ?_⟩
  · exact h.filelocks.congr rfl (goto_same Pc.filelocks hsame) fun _ => Iff.rfl
  · exact fun t' q g ht' => h.fresh t' q g (pc_of_goto ht' (by simp))
  · exact fun _ _ _ ht' => h.removing_goto (by simp) (by simp) ht'
  · refine h.tokens.destroy (t := t) (x := s.token f) (fun t' ht' => ?_) ?_ fun k => ?_
    · exact congrArg (fun p : Pc L => p.sending.map s.token) (goto_pc_of_ne ht' s _)
    · show (s.pc t).sending.map s.token
        = s.token f ::ₘ ((s.goto t (.free f)).pc t).sending.map s.token
      rw [goto_pc_self, ht]
      rfl
    · show k ∈ s.granted ∧ k ∉ s.token f ::ₘ s.unlocked ↔ _
      rw [Multiset.mem_cons, not_or]
      tauto
  · intro k hk
    rcases Multiset.mem_cons.mp hk with rfl | hk
    · exact hlive.1
    · exact h.unlocked_granted k hk
  · exact Multiset.nodup_cons.mpr ⟨hlive.2, h.unlocked_once⟩

/-- Every orderly step keeps the invariant. -/
theorem inv_step (h : Inv s) (horderly : Orderly t s) (hstep : Step t s s') : Inv s' := by
  cases hstep with
  | find ht hf => exact h.lock t hf
  | findMissing ht hf =>
    refine h.goto _ ?_ ?_ (by simp) (by simp) <;>
    · rw [ht]
      rfl
  | malloc ht hp => exact h.malloc ht hp
  | insertExists ht hf => exact h.insertExists ht hf
  | insert ht hf hk => exact h.insert ht hf hk
  | releaseMissing ht hheld hf =>
    obtain ⟨f, hmem, hpath⟩ := h.entries _ _ hheld
    exact absurd hpath (tfind_eq_none hf f hmem)
  | release ht hheld hf hcnt => exact h.unlock hheld hf
  | releaseLast ht hheld hf hcnt =>
    obtain ⟨hmem, -⟩ := tfind_eq_some hf
    refine (h.unlock hheld hf).goto _ ?_ ?_ (by simp) ?_
    · show 0 = (s.pc t).filelocks
      rw [ht]
      rfl
    · show 0 = (s.pc t).sending
      rw [ht]
      rfl
    · rintro _ _ ⟨⟩
      exact hmem
  | removeMissing ht hf =>
    obtain ⟨e, he, -⟩ := horderly _ _ ht
    rw [hf] at he
    cases he
  | removeUsed ht hf hcnt =>
    obtain ⟨e, he, hle⟩ := horderly _ _ ht
    rw [hf] at he
    cases he
    omega
  | remove ht hf hcnt => exact h.remove ht hf hcnt
  | send ht => exact h.send ht
  | free ht =>
    refine h.free ?_ ?_ (by simp) (by simp) <;>
    · rw [ht]
      rfl

theorem inv_reaches {s₀ : State T L K} (h : Inv s₀) (hreaches : Reaches s₀ s) : Inv s := by
  induction hreaches with
  | refl => exact h
  | tail _ hstep ih =>
    obtain ⟨t, horderly, hstep⟩ := hstep
    exact inv_step ih horderly hstep

end Keeps

/-- In every state that orderly steps reach, what the table promises holds. -/
theorem lock_table_safe [DecidableEq T] [DecidableEq L] {s₀ s : State T L K} (h : s₀.Initial)
    (hreaches : Reaches s₀ s) : Safe s :=
  (inv_reaches (inv_initial h) hreaches).safe

/-- Two threads, and nothing is locked. -/
def opened : State Bool ℕ ℕ where
  tree := []
  path _ := []
  cnt _ := 0
  token _ := 0
  malloced := ∅
  freed := 0
  granted := ∅
  unlocked := 0
  holds := 0
  pc _ := .idle

theorem initial_opened : opened.Initial := ⟨rfl, rfl, rfl, rfl, rfl, rfl, fun _ => rfl⟩

/-- One thread locks a path. -/
theorem reaches_locked : ∃ s, Reaches opened s ∧ s.tree = [0] ∧ s.cnt 0 = 1 ∧ s.path 0 = [] ∧
    s.holds = {(true, [])} ∧ ∀ t, s.pc t = .idle := by
  have hfind : Step true opened (opened.goto true (.malloc [])) := .findMissing rfl rfl
  have hmalloc : Step true _ _ := .malloc (s := opened.goto true (.malloc [])) (p := 0)
    (goto_pc_self opened true _) (Set.notMem_empty 0)
  refine ⟨_, .tail (.tail (.single ⟨true, ?_, hfind⟩) ⟨true, ?_, hmalloc⟩)
    ⟨true, ?_, .insert rfl rfl (k := 0) (Set.notMem_empty 0)⟩, rfl, rfl, rfl, rfl, ?_⟩
  · rintro _ _ ⟨⟩
  · rintro _ _ ⟨⟩
  · rintro _ _ ⟨⟩
  · intro t
    cases t <;> rfl

theorem Reaches.step [DecidableEq T] [DecidableEq L] {s₀ s s' : State T L K} (h : Reaches s₀ s)
    (t : T) (horderly : Orderly t s) (hstep : Step t s s') : Reaches s₀ s' :=
  h.tail ⟨t, horderly, hstep⟩

/-- Two threads lock and unlock one path. The last to unlock it gives the token back and frees the
    entry, while the other one locks a second path. -/
theorem lock_table_safe_unlocked : ∃ s, Reaches opened s ∧ s.freed = {0} ∧ s.unlocked = {0} ∧
    s.tree = [1] ∧ s.holds = {(false, [47])} ∧ Safe s := by
  have h₀ : Reaches opened opened := .refl
  have h₁ := h₀.step true (by rintro _ _ ⟨⟩)
    (.findMissing rfl (show opened.tfind [] = none from rfl))
  have h₂ := h₁.step true (by rintro _ _ ⟨⟩) (.malloc rfl (Set.notMem_empty 0))
  have h₃ := h₂.step true (by rintro _ _ ⟨⟩) (.insert rfl rfl (Set.notMem_empty 0))
  have h₄ := h₃.step false (by rintro _ _ ⟨⟩) (.find rfl (show State.tfind _ [] = some 0 from rfl))
  have h₅ := h₄.step false (by rintro _ _ ⟨⟩) (.release rfl
    (show (false, []) ∈ State.holds _ by decide) (show State.tfind _ [] = some 0 from rfl) (by decide))
  have h₆ := h₅.step true (by rintro _ _ ⟨⟩)
    (.releaseLast rfl (show (true, []) ∈ State.holds _ by decide)
      (show State.tfind _ [] = some 0 from rfl) (by decide))
  -- the two threads at once, in the second sections of `dav_unlock` and `dav_lock`
  have h₇ := h₆.step false (by rintro _ _ ⟨⟩)
    (.findMissing rfl (show State.tfind _ [47] = none from rfl))
  have h₈ := h₇.step false (by rintro _ _ ⟨⟩) (.malloc rfl (show 1 ∉ insert 0 (∅ : Set ℕ) by simp))
  have h₉ := h₈.step true (by rintro _ _ ⟨⟩; exact ⟨0, rfl, by decide⟩)
    (.remove rfl (show State.tfind _ [] = some 0 from rfl) (by decide))
  have h₁₀ := h₉.step false (by rintro _ _ ⟨⟩)
    (.insert rfl rfl (show 1 ∉ insert 0 (∅ : Set ℕ) by simp))
  have h₁₁ := h₁₀.step true (by rintro _ _ ⟨⟩) (.send rfl)
  have h₁₂ := h₁₁.step true (by rintro _ _ ⟨⟩) (.free rfl)
  exact ⟨_, h₁₂, rfl, rfl, rfl, by decide, lock_table_safe initial_opened h₁₂⟩

/-- It unlocks the path again, and the other thread locks it in between. -/
theorem reaches_raced : ∃ s, Reaches opened s ∧ s.tree = [0] ∧ s.cnt 0 = 1 ∧ s.path 0 = [] ∧
    s.pc true = .remove [] 0 := by
  obtain ⟨s, hreaches, htree, hcnt, hpath, hholds, hpc⟩ := reaches_locked
  have hfind : s.tfind [] = some 0 := by simp [State.tfind, htree, hpath]
  have hrelease : Step true s (((s.addCnt 0 (-1)).unlock true []).goto true (.remove [] 0)) := by
    refine .releaseLast (hpc true) ?_ hfind ?_
    · rw [hholds]
      exact Multiset.mem_singleton_self _
    · rw [hcnt]
      rfl
  refine ⟨_, .tail (hreaches.tail ⟨true, ?_, hrelease⟩) ⟨false, ?_, .find (hpc false) hfind⟩,
    htree, ?_, hpath, rfl⟩
  · intro _ _ h
    rw [hpc true] at h
    cases h
  · intro _ _ h
    replace h : s.pc false = .remove _ _ := h
    rw [hpc false] at h
    cases h
  · show s.cnt 0 + -1 + 1 = 1
    rw [hcnt]
    rfl

/-- `dav_unlock` frees an entry that the tree still has. -/
theorem lock_table_unsafe : opened.Initial ∧ ¬ ∀ s, Runs opened s → Safe s := by
  refine ⟨initial_opened, fun hsafe => ?_⟩
  obtain ⟨s, hreaches, htree, hcnt, hpath, hpc⟩ := reaches_raced
  have hruns : Runs opened s := by
    refine Relation.ReflTransGen.mono ?_ _ _ hreaches
    rintro _ _ ⟨t, -, hstep⟩
    exact ⟨t, hstep⟩
  have hfind : s.tfind [] = some 0 := by simp [State.tfind, htree, hpath]
  have hused : Step true s (s.goto true (.send 0)) := by
    refine .removeUsed hpc hfind ?_
    rw [hcnt]
    exact Int.one_pos
  refine (hsafe _ (((hruns.tail ⟨true, hused⟩).tail ⟨true, .send rfl⟩).tail
    ⟨true, .free rfl⟩)).live 0 ?_ (Multiset.mem_cons_self 0 _)
  show 0 ∈ s.tree
  rw [htree]
  exact List.mem_singleton_self 0

/-! ## The other steps -/

section Disorderly

variable [DecidableEq T] [DecidableEq L] {s : State T L K} {t : T}

/-- A thread that comes to `delete(FileLock)` can go through it. -/
theorem runs_free {f : L} (h : s.pc t = .send f ∨ s.pc t = .free f) :
    ∃ s', Runs s s' ∧ s'.freed = f ::ₘ s.freed ∧ s'.tree = s.tree ∧
      ∀ t', t' ≠ t → s'.pc t' = s.pc t' := by
  rcases h with h | h
  · refine ⟨_, .tail (.single ⟨t, .send h⟩) ⟨t, .free (goto_pc_self s t _)⟩, rfl, rfl, ?_⟩
    intro t' ht'
    exact (goto_pc_of_ne ht' _ _).trans (goto_pc_of_ne ht' s _)
  · exact ⟨_, .single ⟨t, .free h⟩, rfl, rfl, fun t' ht' => goto_pc_of_ne ht' s _⟩

omit [DecidableEq T] [DecidableEq L] in
/-- Where the entry of the first section of `dav_unlock` is at its second. -/
theorem Inv.removing_cases (h : Inv s) {path : Path} {f : L} (ht : s.pc t = .remove path f) :
    f ∈ s.freed ∨ f ∈ s.tree ∨ ∃ t', t' ≠ t ∧ (s.pc t' = .send f ∨ s.pc t' = .free f) := by
  obtain ⟨hmalloced, hno⟩ := h.removing t path f ht
  by_cases hfreed : f ∈ s.freed
  · exact .inl hfreed
  · classical
    rcases h.filelocks.cases ⟨hmalloced, hfreed⟩ with ⟨hone, -⟩ | ⟨-, t', hone, -⟩
    · refine .inr (.inl (Multiset.mem_coe.mp (Multiset.count_pos.mp ?_)))
      omega
    · have hmem : f ∈ (s.pc t').filelocks := Multiset.count_pos.mp (by omega)
      refine .inr (.inr ⟨t', ?_, ?_⟩)
      · rintro rfl
        rw [ht] at hmem
        exact Multiset.notMem_zero f hmem
      · cases hpc : s.pc t' with
        | insert q p =>
          rw [hpc] at hmem
          obtain rfl := Multiset.mem_singleton.mp hmem
          exact absurd hpc (hno t' q)
        | send p =>
          rw [hpc] at hmem
          exact .inl (congrArg Pc.send (Multiset.mem_singleton.mp hmem).symm)
        | free p =>
          rw [hpc] at hmem
          exact .inr (congrArg Pc.free (Multiset.mem_singleton.mp hmem).symm)
        | idle | malloc | remove =>
          rw [hpc] at hmem
          exact absurd hmem (Multiset.notMem_zero f)

/-- A second section of `dav_unlock` that finds no entry, or one in use, can go on to a state where
    the tree has what was freed, or where something was freed twice. -/
theorem not_orderly_unsafe {s₀ : State T L K} (h : s₀.Initial) (hreaches : Reaches s₀ s)
    (hnot : ¬ Orderly t s) : ∃ s', Runs s s' ∧ ¬ Safe s' := by
  have hinv : Inv s := inv_reaches (inv_initial h) hreaches
  simp only [Orderly, not_forall] at hnot
  obtain ⟨path, f, ht, hnone⟩ := hnot
  have hsend : Step t s (s.goto t (.send f)) := by
    cases hfind : s.tfind path with
    | none => exact .removeMissing ht hfind
    | some e =>
      refine .removeUsed ht hfind ?_
      by_contra hle
      exact hnone ⟨e, hfind, by omega⟩
  obtain ⟨s₁, hruns, hfreed, htree, hpc⟩ := runs_free (s := s.goto t (.send f)) (t := t) (f := f)
    (.inl (goto_pc_self s t _))
  have hs₁ : Runs s s₁ := .head ⟨t, hsend⟩ hruns
  rcases hinv.removing_cases ht with hgone | hmem | ⟨t', hne, ht'⟩
  · refine ⟨s₁, hs₁, fun hsafe => ?_⟩
    have hnodup := hsafe.freed_once
    rw [hfreed] at hnodup
    exact (Multiset.nodup_cons.mp hnodup).1 hgone
  · refine ⟨s₁, hs₁, fun hsafe => ?_⟩
    refine hsafe.live f ?_ ?_
    · rw [htree]
      exact hmem
    · rw [hfreed]
      exact Multiset.mem_cons_self f _
  · obtain ⟨s₂, hruns₂, hfreed₂, -⟩ := runs_free (s := s₁) (t := t') (f := f) (by
      rw [hpc t' hne, goto_pc_of_ne hne]
      exact ht')
    refine ⟨s₂, hs₁.trans hruns₂, fun hsafe => ?_⟩
    have hnodup := hsafe.freed_once
    rw [hfreed₂, hfreed] at hnodup
    exact (Multiset.nodup_cons.mp hnodup).1 (Multiset.mem_cons_self f _)

end Disorderly

theorem not_orderly_unsafe_raced : ∃ s : State Bool ℕ ℕ, ¬ Orderly true s ∧
    ∃ s', Runs s s' ∧ ¬ Safe s' := by
  obtain ⟨s, hreaches, htree, hcnt, hpath, hpc⟩ := reaches_raced
  have hfind : s.tfind [] = some 0 := by simp [State.tfind, htree, hpath]
  have hnot : ¬ Orderly true s := by
    intro horderly
    obtain ⟨e, he, hle⟩ := horderly [] 0 hpc
    rw [hfind] at he
    cases he
    omega
  exact ⟨s, hnot, not_orderly_unsafe initial_opened hreaches hnot⟩

end NetworkFs.Dav.LockTable
