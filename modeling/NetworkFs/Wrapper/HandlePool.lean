import NetworkFs.Concurrency.Custody

/-!
# The pool of handles

`curl_easy_init_common` and `curl_easy_cleanup_common` (`common/wrapper/curl.c` lines 260–382)
keep idle handles in `curl_handler_stack`, with `Stack_push` and `Stack_pop`
(`common/template/stack.c`). Any number of threads call them; a step is one statement of one
thread.

`ensure_synchronized (spin, &this->lock, lock) body else ensure`
(`common/grammar/synchronized.h` lines 16–26) jumps between its parts:

* try the lock, then run `ensure`, with or without the lock;
* `ensure` leaves by `break` when the chain is empty, and the lock is released if it was taken;
* else, with the lock, `body` runs and the lock is released; without it, all starts again.

Memory that is free may be given out again, for nodes as for handles.

* `Inv`, `inv_step`: the invariant, and that every statement keeps it.
* `pool_safe`: what it says in every reachable state.
-/

namespace NetworkFs.Wrapper

open Concurrency

variable {T N H : Type}

/-! ## The threads -/

/-- The statement a thread comes to next. -/
inductive Pc (N H : Type) where
  /-- In neither function. -/
  | idle
  /-- `pthread_errno = pthread_spin_trylock(lock)`. -/
  | trylock
  /-- `if (this->next == NULL)`, with or without the lock. -/
  | ensure (locked : Bool)
  /-- `res = this->next`. -/
  | popRead
  /-- `this->next = res->next`. -/
  | popNext (res : Option N)
  /-- `res->next = NULL`. -/
  | popClear (res : N)
  /-- `this->size--`. -/
  | popSize (res : N)
  /-- `if (pthread_errno == 0) pthread_spin_unlock(lock)`, with the lock. -/
  | popUnlock (res : Option N)
  /-- `Stack_pop` has returned `res`. -/
  | popped (res : Option N)
  /-- The rest of `curl_easy_init_common` for a handle. -/
  | setup (this : H)
  /-- `malloc_t(LinkedList)` of `curl_easy_cleanup_common`. -/
  | malloc (this : H)
  /-- `while (pthread_spin_lock(lock));` of `Stack_push`. -/
  | pushLock (node : N)
  /-- `node->next = this->next`. -/
  | pushNext (node : N)
  /-- `this->next = node`. -/
  | pushHead (node : N)
  /-- `this->size++`. -/
  | pushSize
  /-- `pthread_spin_unlock(lock)` of `Stack_push`. -/
  | pushUnlock

namespace Pc

/-- Between the acquisition of the lock and its release. -/
def Inside : Pc N H → Prop
  | ensure locked => locked = true
  | popRead | popNext _ | popClear _ | popSize _ | popUnlock _ => True
  | pushNext _ | pushHead _ | pushSize | pushUnlock => True
  | _ => False

/-- Does the statement release the lock? -/
def unlocks : Pc N H → Bool
  | popUnlock _ | pushUnlock => true
  | _ => false

/-- The statements of the body of `Stack_pop`. -/
def InPopBody : Pc N H → Prop
  | popRead | popNext _ | popClear _ | popSize _ => True
  | _ => False

/-- The thread is in no function of the pool. -/
def isIdle : Pc N H → Bool
  | idle => true
  | _ => false

/-- The node that only this thread can reach. -/
def nodes : Pc N H → Multiset N
  | popClear n | popSize n | popUnlock (some n) | popped (some n) => {n}
  | pushLock n | pushNext n | pushHead n => {n}
  | _ => 0

/-- The handle in a local variable. -/
def handle : Pc N H → Multiset H
  | setup h | malloc h => {h}
  | _ => 0

end Pc

/-- The stack, the memory, and the threads. -/
structure State (T N H : Type) where
  /-- `this->next`, the head of the chain. -/
  head : Option N
  /-- `node->next` of every node. -/
  next : N → Option N
  /-- `node->value` of every node. -/
  value : N → H
  /-- `this->size`. -/
  size : ℕ
  /-- `this->lock`. -/
  locked : Bool
  /-- The nodes that are allocated. -/
  nodes : Set N
  /-- The handles that are not destroyed. -/
  live : Set H
  pc : T → Pc N H
  /-- The handles `curl_easy_init_common` gave to the thread and it did not give back. -/
  owned : T → Multiset H

namespace State

/-- After `curl_load`: nothing is allocated. -/
structure Initial (s : State T N H) : Prop where
  head : s.head = none
  size : s.size = 0
  locked : s.locked = false
  nodes : s.nodes = ∅
  live : s.live = ∅
  pc : ∀ t, s.pc t = .idle
  owned : ∀ t, s.owned t = 0

/-- The handles a thread has: those it was given, the one in a node it took or prepared, and the
    one in a local variable. -/
def handles (s : State T N H) (t : T) : Multiset H :=
  s.owned t + ((s.pc t).nodes.map s.value + (s.pc t).handle)

variable [DecidableEq T]

/-- Thread `t` comes to `p`. -/
def goto (s : State T N H) (t : T) (p : Pc N H) : State T N H :=
  { s with pc := Function.update s.pc t p }

end State

/-- One statement of thread `t`. -/
inductive Step [DecidableEq T] [DecidableEq N] (t : T) : State T N H → State T N H → Prop
  | callInit {s} (h : s.pc t = .idle) : Step t s (s.goto t .trylock)
  /-- `0` if the lock was free, and `EBUSY` if not. -/
  | trylock {s} (h : s.pc t = .trylock) :
      Step t s { s.goto t (.ensure (!s.locked)) with locked := true }
  | ensureEmpty {s locked} (h : s.pc t = .ensure locked) (hn : s.head = none) :
      Step t s (s.goto t (if locked then .popUnlock none else .popped none))
  | ensureLocked {s} (h : s.pc t = .ensure true) (hn : s.head ≠ none) : Step t s (s.goto t .popRead)
  | ensureBusy {s} (h : s.pc t = .ensure false) (hn : s.head ≠ none) :
      Step t s (s.goto t .trylock)
  | popRead {s} (h : s.pc t = .popRead) : Step t s (s.goto t (.popNext s.head))
  /-- There is no step for `res == NULL`. -/
  | popNext {s n} (h : s.pc t = .popNext (some n)) :
      Step t s { s.goto t (.popClear n) with head := s.next n }
  | popClear {s n} (h : s.pc t = .popClear n) :
      Step t s { s.goto t (.popSize n) with next := Function.update s.next n none }
  | popSize {s n} (h : s.pc t = .popSize n) :
      Step t s { s.goto t (.popUnlock (some n)) with size := s.size - 1 }
  | popUnlock {s res} (h : s.pc t = .popUnlock res) :
      Step t s { s.goto t (.popped res) with locked := false }
  /-- `this = node->value; free(node); curl_easy_reset(this)`. -/
  | takeNode {s n} (h : s.pc t = .popped (some n)) :
      Step t s { s.goto t (.setup (s.value n)) with nodes := s.nodes \ {n} }
  /-- `this = curl_easy_init()` gives a handle. -/
  | easyInit {s this} (h : s.pc t = .popped none) (hfresh : this ∉ s.live) :
      Step t s { s.goto t (.setup this) with live := insert this s.live }
  /-- `curl_easy_init()` gives `NULL`, and `curl_easy_cleanup(NULL)` does nothing. -/
  | easyInitFails {s} (h : s.pc t = .popped none) : Step t s (s.goto t .idle)
  | returnHandle {s this} (h : s.pc t = .setup this) :
      Step t s { s.goto t .idle with owned := Function.update s.owned t (this ::ₘ s.owned t) }
  /-- The `onerror` clause: `curl_easy_cleanup(this)`. -/
  | setupFails {s this} (h : s.pc t = .setup this) :
      Step t s { s.goto t .idle with live := s.live \ {this} }
  /-- The caller gives back a handle that it was given. For `NULL` there is nothing to do. -/
  | callCleanup {s this rest} (h : s.pc t = .idle) (hown : s.owned t = this ::ₘ rest) :
      Step t s { s.goto t (.malloc this) with owned := Function.update s.owned t rest }
  /-- `curl_easy_cleanup(this)` when there is no memory for a node. -/
  | mallocFails {s this} (h : s.pc t = .malloc this) :
      Step t s { s.goto t .idle with live := s.live \ {this} }
  /-- A node, and `node->value = this`. -/
  | malloc {s this n} (h : s.pc t = .malloc this) (hfresh : n ∉ s.nodes) :
      Step t s { s.goto t (.pushLock n) with
        nodes := insert n s.nodes, value := Function.update s.value n this }
  | pushLock {s n} (h : s.pc t = .pushLock n) (hfree : s.locked = false) :
      Step t s { s.goto t (.pushNext n) with locked := true }
  | pushNext {s n} (h : s.pc t = .pushNext n) :
      Step t s { s.goto t (.pushHead n) with next := Function.update s.next n s.head }
  | pushHead {s n} (h : s.pc t = .pushHead n) :
      Step t s { s.goto t .pushSize with head := some n }
  | pushSize {s} (h : s.pc t = .pushSize) :
      Step t s { s.goto t .pushUnlock with size := s.size + 1 }
  | pushUnlock {s} (h : s.pc t = .pushUnlock) :
      Step t s { s.goto t .idle with locked := false }

/-! ## The invariant -/

/-- What the thread with the lock knows of the stack. -/
def Pc.Knows (s : State T N H) (ns : List N) : Pc N H → Prop
  | ensure true | popUnlock _ | pushNext _ | pushUnlock => s.size = ns.length
  | popRead => s.size = ns.length ∧ s.head ≠ none
  | popNext res => s.size = ns.length ∧ res = s.head ∧ s.head ≠ none
  | popClear _ | popSize _ => s.size = ns.length + 1
  | pushHead n => s.size = ns.length ∧ s.next n = s.head
  | pushSize => s.size + 1 = ns.length
  | _ => True

/-- The invariant, for the nodes of the chain. -/
structure Inv (s : State T N H) (ns : List N) : Prop where
  mutex : Mutex s.locked fun t => (s.pc t).Inside
  chain : IsChain s.next s.head ns
  nodes : Custody (ns : Multiset N) (fun t => (s.pc t).nodes) (· ∈ s.nodes)
  handles : Custody (ns.map s.value : Multiset H) s.handles (· ∈ s.live)
  size : s.locked = false → s.size = ns.length
  knows : ∀ t, (s.pc t).Knows s ns

theorem Pc.knows_of_outside {p : Pc N H} (h : ¬ p.Inside) (s : State T N H) (ns : List N) :
    p.Knows s ns := by
  cases p with
  | ensure locked =>
    cases locked with
    | true => exact absurd rfl h
    | false => trivial
  | idle | trylock | popped | setup | malloc | pushLock => trivial
  | popRead | popNext | popClear | popSize | popUnlock => exact absurd trivial h
  | pushNext | pushHead | pushSize | pushUnlock => exact absurd trivial h

theorem inv_initial {s : State T N H} (h : s.Initial) : Inv s [] := by
  have hpc : ∀ t, ¬ (s.pc t).Inside := fun t => by rw [h.pc t]; exact id
  refine ⟨⟨fun t ht => absurd ht (hpc t), fun t _ ht => absurd ht (hpc t), ?_⟩, h.head, ?_, ?_,
    fun _ => h.size, fun t => Pc.knows_of_outside (hpc t) s []⟩
  · rw [h.locked]
    exact nofun
  · exact custody_zero (fun t => by simp [h.pc t, Pc.nodes]) (by simp [h.nodes])
  · refine custody_zero (fun t => ?_) (by simp [h.live])
    simp [State.handles, h.pc t, h.owned t, Pc.nodes, Pc.handle]

/-! ## One statement keeps it -/

section Keeps

variable {s s' : State T N H} {ns ns' : List N} {t : T}

/-- The parts of the invariant after a statement of `t`. What the other threads know is left to
    show only when `t` has no lock, and then `t` does not change the stack. -/
theorem Inv.after (h : Inv s ns) (hpc : ∀ t', t' ≠ t → s'.pc t' = s.pc t')
    (hmutex : Mutex s'.locked fun t => (s'.pc t).Inside) (hchain : IsChain s'.next s'.head ns')
    (hnodes : Custody (ns' : Multiset N) (fun t => (s'.pc t).nodes) (· ∈ s'.nodes))
    (hhandles : Custody (ns'.map s'.value : Multiset H) s'.handles (· ∈ s'.live))
    (hsize : s'.locked = false → s'.size = ns'.length) (hknows : (s'.pc t).Knows s' ns')
    (hstack : (s.pc t).Inside ∨
      s'.head = s.head ∧ s'.next = s.next ∧ s'.size = s.size ∧ ns' = ns) : Inv s' ns' := by
  refine ⟨hmutex, hchain, hnodes, hhandles, hsize, fun t' => ?_⟩
  by_cases ht : t' = t
  · rw [ht]
    exact hknows
  · rcases hstack with hinside | ⟨hhead, hnext, hsz, rfl⟩
    · refine Pc.knows_of_outside (fun hin => ht ?_) s' ns'
      rw [hpc t' ht] at hin
      exact h.mutex.alone t' t hin hinside
    · have hold := h.knows t'
      rw [← hpc t' ht] at hold
      unfold Pc.Knows at hold ⊢
      rw [hhead, hnext, hsz]
      exact hold

variable [DecidableEq T]

@[simp] theorem goto_pc_self (s : State T N H) (t : T) (p : Pc N H) : (s.goto t p).pc t = p :=
  Function.update_self ..

theorem goto_pc_of_ne {t' : T} (h : t' ≠ t) (s : State T N H) (p : Pc N H) :
    (s.goto t p).pc t' = s.pc t' := Function.update_of_ne h ..

/-- A property of the statement that `t` keeps is kept by all. -/
theorem goto_same {α : Sort*} (f : Pc N H → α) {p : Pc N H} (hp : f p = f (s.pc t)) (t' : T) :
    f ((s.goto t p).pc t') = f (s.pc t') := by
  by_cases ht : t' = t
  · rw [ht, goto_pc_self, hp]
  · rw [goto_pc_of_ne ht]

section Mutex

variable {p : Pc N H}

theorem goto_inside {t' : T} (ht : t' ≠ t) : ((s.goto t p).pc t').Inside ↔ (s.pc t').Inside := by
  rw [goto_pc_of_ne ht]

theorem mutex_stay (h : Mutex s.locked fun t => (s.pc t).Inside)
    (hp : p.Inside ↔ (s.pc t).Inside) :
    Mutex s.locked fun t' => ((s.goto t p).pc t').Inside :=
  h.stay fun t' => Iff.of_eq (goto_same Pc.Inside (propext hp) t')

theorem mutex_acquire (h : Mutex s.locked fun t => (s.pc t).Inside) (hfree : s.locked = false)
    (hp : p.Inside) : Mutex true fun t' => ((s.goto t p).pc t').Inside := by
  rw [hfree] at h
  refine h.acquire (fun t' ht => goto_inside ht) ?_
  rw [goto_pc_self]
  exact hp

theorem mutex_release (h : Mutex s.locked fun t => (s.pc t).Inside) (ht : (s.pc t).Inside)
    (hp : ¬ p.Inside) : Mutex false fun t' => ((s.goto t p).pc t').Inside := by
  refine h.release (fun t' ht' => goto_inside ht') ht ?_
  rw [goto_pc_self]
  exact hp

end Mutex

/-- A statement that moves no node and no handle and keeps the chain. -/
theorem Inv.quiet (h : Inv s ns) (p : Pc N H) (locked : Bool) (size : ℕ)
    (hnodes : p.nodes = (s.pc t).nodes) (hhandle : p.handle = (s.pc t).handle)
    (hmutex : Mutex locked fun t' => ((s.goto t p).pc t').Inside)
    (hsize : locked = false → size = ns.length)
    (hknows : p.Knows { s.goto t p with locked := locked, size := size } ns)
    (hstack : (s.pc t).Inside ∨ size = s.size) :
    Inv { s.goto t p with locked := locked, size := size } ns := by
  refine h.after (fun t' ht => goto_pc_of_ne ht s p) hmutex h.chain ?_ ?_ hsize ?_ ?_
  · exact h.nodes.congr rfl (goto_same Pc.nodes hnodes) fun _ => Iff.rfl
  · refine h.handles.congr rfl (fun t' => ?_) fun _ => Iff.rfl
    show s.owned t' + (((s.goto t p).pc t').nodes.map s.value + ((s.goto t p).pc t').handle) = _
    rw [goto_same Pc.nodes hnodes, goto_same Pc.handle hhandle]
    rfl
  · show ((s.goto t p).pc t).Knows _ ns
    rw [goto_pc_self]
    exact hknows
  · exact hstack.imp_right fun hsz => ⟨rfl, rfl, hsz, rfl⟩

/-- A statement that only goes on. -/
theorem Inv.goto (h : Inv s ns) (p : Pc N H) (hnodes : p.nodes = (s.pc t).nodes)
    (hhandle : p.handle = (s.pc t).handle) (hinside : p.Inside ↔ (s.pc t).Inside)
    (hknows : p.Knows (s.goto t p) ns) : Inv (s.goto t p) ns :=
  h.quiet p s.locked s.size hnodes hhandle (mutex_stay h.mutex hinside) h.size hknows (.inr rfl)

omit [DecidableEq T] in
/-- What the thread knows that is at its statement. -/
theorem Inv.knows_at (h : Inv s ns) {p : Pc N H} (ht : s.pc t = p) : p.Knows s ns :=
  ht ▸ h.knows t

omit [DecidableEq T] in
/-- A node that only `t` can reach is not in the chain. -/
theorem Inv.not_mem_chain (h : Inv s ns) {n : N} (hn : n ∈ (s.pc t).nodes) : n ∉ ns := by
  have hnot := h.nodes.not_mem_stock hn
  rwa [Multiset.mem_coe] at hnot

omit [DecidableEq T] in
/-- Nobody is inside while the lock is free. -/
theorem Inv.outside_free (h : Inv s ns) (hfree : s.locked = false) (t : T) : ¬ (s.pc t).Inside := by
  have hmutex := h.mutex
  rw [hfree] at hmutex
  exact hmutex.outside t

/-! ### `Stack_pop` -/

theorem Inv.trylock (h : Inv s ns) (ht : s.pc t = .trylock) :
    Inv { s.goto t (.ensure (!s.locked)) with locked := true } ns := by
  cases hlocked : s.locked with
  | false =>
    have hsize := h.size hlocked
    exact h.quiet (.ensure true) true s.size (by rw [ht]; rfl) (by rw [ht]; rfl)
      (mutex_acquire h.mutex hlocked rfl) nofun hsize (.inr rfl)
  | true =>
    have hmutex := h.mutex
    rw [hlocked] at hmutex
    refine h.quiet (.ensure false) true s.size (by rw [ht]; rfl) (by rw [ht]; rfl) ?_ nofun trivial
      (.inr rfl)
    rw [← hlocked]
    exact mutex_stay h.mutex (by rw [ht]; exact iff_of_false nofun id)

theorem Inv.ensureEmpty (h : Inv s ns) {locked : Bool} (ht : s.pc t = .ensure locked) :
    Inv (s.goto t (if locked then .popUnlock none else .popped none)) ns := by
  cases locked with
  | true =>
    exact h.goto (.popUnlock none) (by rw [ht]; rfl) (by rw [ht]; rfl)
      (by rw [ht]; exact iff_of_true trivial rfl) (h.knows_at ht)
  | false =>
    exact h.goto (.popped none) (by rw [ht]; rfl) (by rw [ht]; rfl)
      (by rw [ht]; exact iff_of_false id nofun) trivial

/-- `this->next = res->next`: the first node leaves the chain. -/
theorem Inv.popNext (h : Inv s ns) {n : N} (ht : s.pc t = .popNext (some n)) :
    ∃ ns', Inv { s.goto t (.popClear n) with head := s.next n } ns' := by
  obtain ⟨hsize, hres, hne⟩ := h.knows_at ht
  obtain ⟨n', ns', hhead, rfl, hchain⟩ := isChain_ne_none h.chain hne
  obtain rfl : n = n' := Option.some.inj (hres.trans hhead)
  have hinside : (s.pc t).Inside := by rw [ht]; trivial
  refine ⟨ns', h.after (fun t' ht' => goto_pc_of_ne ht' s _) ?_ hchain ?_ ?_ ?_ ?_ (.inl hinside)⟩
  · exact mutex_stay h.mutex (by rw [ht]; exact Iff.rfl)
  · refine Custody.take (t := t) (fun t' ht' => ?_) h.nodes ?_
    · exact congrArg Pc.nodes (goto_pc_of_ne ht' s _)
    · show ((s.goto t (.popClear n)).pc t).nodes = n ::ₘ (s.pc t).nodes
      rw [goto_pc_self, ht]
      rfl
  · refine Custody.take (t := t) (fun t' ht' => ?_) h.handles ?_
    · show s.owned t' + (((s.goto t (.popClear n)).pc t').nodes.map s.value + _) = _
      rw [goto_pc_of_ne ht']
      rfl
    · show s.owned t + (((s.goto t (.popClear n)).pc t).nodes.map s.value +
        ((s.goto t (.popClear n)).pc t).handle) = s.value n ::ₘ s.handles t
      rw [goto_pc_self, State.handles, ht]
      simp [Pc.nodes, Pc.handle, add_comm]
  · exact fun hfree => absurd hinside (h.outside_free hfree t)
  · show ((s.goto t (.popClear n)).pc t).Knows _ ns'
    rw [goto_pc_self]
    exact hsize

/-- A node that only `t` can reach is linked anew. -/
theorem Inv.relink [DecidableEq N] (h : Inv s ns) (p : Pc N H) {n : N} (link : Option N)
    (hn : n ∈ (s.pc t).nodes) (hnodes : p.nodes = (s.pc t).nodes)
    (hhandle : p.handle = (s.pc t).handle) (hin : p.Inside) (hinside : (s.pc t).Inside)
    (hknows : p.Knows { s.goto t p with next := Function.update s.next n link } ns) :
    Inv { s.goto t p with next := Function.update s.next n link } ns := by
  refine h.after (fun t' ht' => goto_pc_of_ne ht' s _) ?_ (h.chain.update (h.not_mem_chain hn) link)
    ?_ ?_ ?_ ?_ (.inl hinside)
  · exact mutex_stay h.mutex (iff_of_true hin hinside)
  · exact h.nodes.congr rfl (goto_same Pc.nodes hnodes) fun _ => Iff.rfl
  · refine h.handles.congr rfl (fun t' => ?_) fun _ => Iff.rfl
    show s.owned t' + (((s.goto t p).pc t').nodes.map s.value + ((s.goto t p).pc t').handle) = _
    rw [goto_same Pc.nodes hnodes, goto_same Pc.handle hhandle]
    rfl
  · exact fun hfree => absurd hinside (h.outside_free hfree t)
  · show ((s.goto t p).pc t).Knows _ ns
    rw [goto_pc_self]
    exact hknows

/-! ### The handles -/

/-- A statement outside the lock that leaves the stack alone. -/
theorem Inv.outside (h : Inv s ns) (p : Pc N H) (nodes : Set N) (live : Set H) (value : N → H)
    (owned : T → Multiset H) (hp : ¬ p.Inside) (ht : ¬ (s.pc t).Inside)
    (hnodes : Custody (ns : Multiset N) (fun t' => ((s.goto t p).pc t').nodes) (· ∈ nodes))
    (hhandles : Custody (ns.map value : Multiset H)
      (fun t' => owned t' + (((s.goto t p).pc t').nodes.map value + ((s.goto t p).pc t').handle))
      (· ∈ live)) :
    Inv { s.goto t p with nodes := nodes, live := live, value := value, owned := owned } ns := by
  refine h.after (fun t' ht' => goto_pc_of_ne ht' s _) ?_ h.chain hnodes hhandles h.size ?_
    (.inr ⟨rfl, rfl, rfl, rfl⟩)
  · exact mutex_stay h.mutex (iff_of_false hp ht)
  · show ((s.goto t p).pc t).Knows _ ns
    rw [goto_pc_self]
    exact Pc.knows_of_outside hp _ ns

/-- The other threads have what they had. -/
theorem handles_other {p : Pc N H} {owned : T → Multiset H} {t' : T} (ht' : t' ≠ t)
    (howned : owned t' = s.owned t') :
    owned t' + (((s.goto t p).pc t').nodes.map s.value + ((s.goto t p).pc t').handle) =
      s.handles t' := by
  rw [goto_pc_of_ne ht', howned]
  rfl

/-- The nodes stay with their threads. -/
theorem Inv.same_nodes (h : Inv s ns) {p : Pc N H} (hp : p.nodes = (s.pc t).nodes) :
    Custody (ns : Multiset N) (fun t' => ((s.goto t p).pc t').nodes) (· ∈ s.nodes) :=
  h.nodes.congr rfl (goto_same Pc.nodes hp) fun _ => Iff.rfl

/-- The handles stay with their threads. -/
theorem Inv.same_handles (h : Inv s ns) {p : Pc N H} {owned : T → Multiset H}
    (howned : ∀ t', t' ≠ t → owned t' = s.owned t')
    (hp : owned t + (p.nodes.map s.value + p.handle) = s.handles t) :
    Custody (ns.map s.value : Multiset H)
      (fun t' => owned t' + (((s.goto t p).pc t').nodes.map s.value + ((s.goto t p).pc t').handle))
      (· ∈ s.live) := by
  refine h.handles.congr rfl (fun t' => ?_) fun _ => Iff.rfl
  by_cases ht' : t' = t
  · rw [ht', goto_pc_self]
    exact hp
  · exact handles_other ht' (howned t' ht')

/-- `free(node)`. -/
theorem Inv.takeNode (h : Inv s ns) {n : N} (ht : s.pc t = .popped (some n)) :
    Inv { s.goto t (.setup (s.value n)) with nodes := s.nodes \ {n} } ns := by
  refine h.outside (.setup (s.value n)) (s.nodes \ {n}) s.live s.value s.owned id
    (by rw [ht]; exact id) ?_ (h.same_handles (fun _ _ => rfl) ?_)
  · refine Custody.destroy (t := t) (x := n) (fun t' ht' => ?_) h.nodes ?_ fun _ => Iff.rfl
    · exact congrArg Pc.nodes (goto_pc_of_ne ht' s _)
    · rw [goto_pc_self, ht]
      rfl
  · rw [State.handles, ht]
    simp [Pc.nodes, Pc.handle]

/-- `curl_easy_init()`. -/
theorem Inv.easyInit (h : Inv s ns) {this : H} (ht : s.pc t = .popped none)
    (hfresh : this ∉ s.live) :
    Inv { s.goto t (.setup this) with live := insert this s.live } ns := by
  refine h.outside (.setup this) s.nodes (insert this s.live) s.value s.owned id
    (by rw [ht]; exact id) (h.same_nodes (by rw [ht]; rfl)) ?_
  refine Custody.create (t := t) (fun t' ht' => handles_other ht' rfl) h.handles hfresh ?_
    (fun y => by simp [or_comm])
  rw [goto_pc_self, State.handles, ht]
  simp [Pc.nodes, Pc.handle, add_comm]

/-- `curl_easy_cleanup(this)`. -/
theorem Inv.easyCleanup (h : Inv s ns) {this : H} (hnodes : (s.pc t).nodes = 0)
    (hhandle : (s.pc t).handle = {this}) (hout : ¬ (s.pc t).Inside) :
    Inv { s.goto t .idle with live := s.live \ {this} } ns := by
  refine h.outside .idle s.nodes (s.live \ {this}) s.value s.owned id hout
    (h.same_nodes (by rw [hnodes]; rfl)) ?_
  refine Custody.destroy (t := t) (x := this) (fun t' ht' => handles_other ht' rfl) h.handles ?_
    fun _ => Iff.rfl
  rw [goto_pc_self, State.handles, hnodes, hhandle]
  simp [Pc.nodes, Pc.handle, add_comm]

/-- The handle goes to the caller. -/
theorem Inv.returnHandle (h : Inv s ns) {this : H} (ht : s.pc t = .setup this) :
    Inv { s.goto t .idle with owned := Function.update s.owned t (this ::ₘ s.owned t) } ns := by
  refine h.outside .idle s.nodes s.live s.value _ id (by rw [ht]; exact id)
    (h.same_nodes (by rw [ht]; rfl))
    (h.same_handles (fun t' ht' => Function.update_of_ne ht' _ _) ?_)
  rw [Function.update_self, State.handles, ht]
  simp [Pc.nodes, Pc.handle, add_comm]

/-- The handle comes back from the caller. -/
theorem Inv.callCleanup (h : Inv s ns) {this : H} {rest : Multiset H} (ht : s.pc t = .idle)
    (hown : s.owned t = this ::ₘ rest) :
    Inv { s.goto t (.malloc this) with owned := Function.update s.owned t rest } ns := by
  refine h.outside (.malloc this) s.nodes s.live s.value _ id (by rw [ht]; exact id)
    (h.same_nodes (by rw [ht]; rfl))
    (h.same_handles (fun t' ht' => Function.update_of_ne ht' _ _) ?_)
  rw [Function.update_self, State.handles, ht, hown]
  simp [Pc.nodes, Pc.handle, ← Multiset.singleton_add, add_comm]

/-- A node for the handle: it was with nobody, so nobody sees its value change. -/
theorem Inv.malloc [DecidableEq N] (h : Inv s ns) {this : H} {n : N} (ht : s.pc t = .malloc this)
    (hfresh : n ∉ s.nodes) :
    Inv { s.goto t (.pushLock n) with
      nodes := insert n s.nodes, value := Function.update s.value n this } ns := by
  obtain ⟨hchain, hother⟩ := h.nodes.absent hfresh
  refine h.outside (.pushLock n) (insert n s.nodes) s.live (Function.update s.value n this) s.owned
    id (by rw [ht]; exact id) ?_ ?_
  · refine Custody.create (t := t) (fun t' ht' => ?_) h.nodes hfresh ?_ (fun y => by simp [or_comm])
    · exact congrArg Pc.nodes (goto_pc_of_ne ht' s _)
    · rw [goto_pc_self, ht]
      rfl
  · refine h.handles.congr ?_ (fun t' => ?_) fun _ => Iff.rfl
    · refine congrArg _ (List.map_congr_left fun m hm => Function.update_of_ne ?_ _ _)
      rintro rfl
      exact hchain hm
    · by_cases ht' : t' = t
      · rw [ht', goto_pc_self, State.handles, ht]
        simp [Pc.nodes, Pc.handle]
      · have hmap : ((s.pc t').nodes.map (Function.update s.value n this)) =
            (s.pc t').nodes.map s.value := by
          refine Multiset.map_congr rfl fun m hm => Function.update_of_ne ?_ _ _
          rintro rfl
          exact hother t' hm
        rw [goto_pc_of_ne ht', hmap]
        rfl

/-! ### `Stack_push` -/

/-- `this->next = node`: the node enters the chain. -/
theorem Inv.pushHead (h : Inv s ns) {n : N} (ht : s.pc t = .pushHead n) :
    Inv { s.goto t .pushSize with head := some n } (n :: ns) := by
  obtain ⟨hsize, hnext⟩ := h.knows_at ht
  have hinside : (s.pc t).Inside := by rw [ht]; trivial
  refine h.after (fun t' ht' => goto_pc_of_ne ht' s _) ?_ ⟨rfl, ?_⟩ ?_ ?_ ?_ ?_ (.inl hinside)
  · exact mutex_stay h.mutex (by rw [ht]; exact Iff.rfl)
  · show IsChain s.next (s.next n) ns
    rw [hnext]
    exact h.chain
  · refine Custody.put (t := t) (fun t' ht' => ?_) h.nodes ?_
    · exact congrArg Pc.nodes (goto_pc_of_ne ht' s _)
    · show (s.pc t).nodes = n ::ₘ ((s.goto t .pushSize).pc t).nodes
      rw [goto_pc_self, ht]
      rfl
  · refine Custody.put (t := t) (fun t' ht' => handles_other ht' rfl) h.handles ?_
    show s.handles t = s.value n ::ₘ (s.owned t + (((s.goto t .pushSize).pc t).nodes.map s.value +
      ((s.goto t .pushSize).pc t).handle))
    rw [goto_pc_self, State.handles, ht]
    simp [Pc.nodes, Pc.handle, add_comm]
  · exact fun hfree => absurd hinside (h.outside_free hfree t)
  · show ((s.goto t .pushSize).pc t).Knows _ (n :: ns)
    rw [goto_pc_self]
    show s.size + 1 = ns.length + 1
    rw [hsize]

/-- Every statement keeps the invariant. -/
theorem inv_step [DecidableEq N] (h : Inv s ns) (hstep : Step t s s') : ∃ ns', Inv s' ns' := by
  cases hstep with
  | callInit ht => exact ⟨ns, h.goto .trylock (by rw [ht]; rfl) (by rw [ht]; rfl)
      (by rw [ht]; exact Iff.rfl) trivial⟩
  | trylock ht => exact ⟨ns, h.trylock ht⟩
  | ensureEmpty ht _ => exact ⟨ns, h.ensureEmpty ht⟩
  | ensureLocked ht hne => exact ⟨ns, h.goto .popRead (by rw [ht]; rfl) (by rw [ht]; rfl)
      (by rw [ht]; exact iff_of_true trivial rfl) ⟨h.knows_at ht, hne⟩⟩
  | ensureBusy ht _ => exact ⟨ns, h.goto .trylock (by rw [ht]; rfl) (by rw [ht]; rfl)
      (by rw [ht]; exact iff_of_false id nofun) trivial⟩
  | popRead ht =>
    obtain ⟨hsize, hne⟩ := h.knows_at ht
    exact ⟨ns, h.goto (.popNext s.head) (by rw [ht]; rfl) (by rw [ht]; rfl)
      (by rw [ht]; exact Iff.rfl) ⟨hsize, rfl, hne⟩⟩
  | popNext ht => exact h.popNext ht
  | popClear ht => exact ⟨ns, h.relink (.popSize _) none (by rw [ht]; exact Multiset.mem_singleton_self _)
      (by rw [ht]; rfl) (by rw [ht]; rfl) trivial (by rw [ht]; trivial) (h.knows_at ht)⟩
  | @popSize n ht =>
    have hinside : (s.pc t).Inside := by rw [ht]; trivial
    have hsize : s.size = ns.length + 1 := h.knows_at ht
    have hpred : s.size - 1 = ns.length := by omega
    exact ⟨ns, h.quiet (.popUnlock (some n)) s.locked (s.size - 1) (by rw [ht]; rfl)
      (by rw [ht]; rfl) (mutex_stay h.mutex (by rw [ht]; exact Iff.rfl)) (fun _ => hpred) hpred
      (.inl hinside)⟩
  | @popUnlock res ht =>
    have hinside : (s.pc t).Inside := by rw [ht]; trivial
    exact ⟨ns, h.quiet (.popped res) false s.size (by rw [ht]; cases res <;> rfl)
      (by rw [ht]; rfl) (mutex_release h.mutex hinside id) (fun _ => h.knows_at ht) trivial
      (.inr rfl)⟩
  | takeNode ht => exact ⟨ns, h.takeNode ht⟩
  | easyInit ht hfresh => exact ⟨ns, h.easyInit ht hfresh⟩
  | easyInitFails ht => exact ⟨ns, h.goto .idle (by rw [ht]; rfl) (by rw [ht]; rfl)
      (by rw [ht]; exact Iff.rfl) trivial⟩
  | returnHandle ht => exact ⟨ns, h.returnHandle ht⟩
  | setupFails ht => exact ⟨ns, h.easyCleanup (by rw [ht]; rfl) (by rw [ht]; rfl)
      (by rw [ht]; exact id)⟩
  | callCleanup ht hown => exact ⟨ns, h.callCleanup ht hown⟩
  | mallocFails ht => exact ⟨ns, h.easyCleanup (by rw [ht]; rfl) (by rw [ht]; rfl)
      (by rw [ht]; exact id)⟩
  | malloc ht hfresh => exact ⟨ns, h.malloc ht hfresh⟩
  | @pushLock n ht hfree =>
    exact ⟨ns, h.quiet (.pushNext n) true s.size (by rw [ht]; rfl) (by rw [ht]; rfl)
      (mutex_acquire h.mutex hfree trivial) nofun (h.size hfree) (.inr rfl)⟩
  | @pushNext n ht => exact ⟨ns, h.relink (.pushHead n) s.head
      (by rw [ht]; exact Multiset.mem_singleton_self _) (by rw [ht]; rfl) (by rw [ht]; rfl) trivial
      (by rw [ht]; trivial) ⟨h.knows_at ht, Function.update_self ..⟩⟩
  | pushHead ht => exact ⟨_, h.pushHead ht⟩
  | pushSize ht =>
    have hinside : (s.pc t).Inside := by rw [ht]; trivial
    have hsize : s.size + 1 = ns.length := h.knows_at ht
    exact ⟨ns, h.quiet .pushUnlock s.locked (s.size + 1) (by rw [ht]; rfl) (by rw [ht]; rfl)
      (mutex_stay h.mutex (by rw [ht]; exact Iff.rfl)) (fun _ => hsize) hsize (.inl hinside)⟩
  | pushUnlock ht =>
    have hinside : (s.pc t).Inside := by rw [ht]; trivial
    exact ⟨ns, h.quiet .idle false s.size (by rw [ht]; rfl) (by rw [ht]; rfl)
      (mutex_release h.mutex hinside id) (fun _ => h.knows_at ht) trivial (.inr rfl)⟩

end Keeps

/-! ## Runs -/

/-- A state with what its run has recorded for each thread: how often it took the lock from free,
    how often it released it, and whether the chain was empty at some instant of its last
    call. -/
structure Traced (T N H : Type) where
  state : State T N H
  acquires : T → ℕ
  releases : T → ℕ
  emptied : T → Bool

variable [DecidableEq T] [DecidableEq N]

/-- The record after a statement of `t` led to `s`. A call begins with an idle thread. -/
def Traced.after (x : Traced T N H) (t : T) (s : State T N H) : Traced T N H where
  state := s
  acquires :=
    if !x.state.locked && s.locked then Function.update x.acquires t (x.acquires t + 1)
    else x.acquires
  releases :=
    if (x.state.pc t).unlocks then Function.update x.releases t (x.releases t + 1) else x.releases
  emptied t' := s.head.isNone || (x.emptied t' && !(decide (t' = t) && (x.state.pc t).isIdle))

/-- The states of every run, in any order of the threads. -/
inductive Reachable : Traced T N H → Prop
  | initial {x} (h : x.state.Initial) (hacquires : ∀ t, x.acquires t = 0)
      (hreleases : ∀ t, x.releases t = 0) : Reachable x
  | step {x t s} (h : Reachable x) (hstep : Step t x.state s) : Reachable (x.after t s)

/-- The thread has the lock: it took it once more than it released it. -/
def Traced.Holds (x : Traced T N H) (t : T) : Prop :=
  x.state.locked = true ∧ x.acquires t = x.releases t + 1

/-- What a statement does to the lock. -/
theorem Step.lock_cases {s s' : State T N H} {t : T} (hstep : Step t s s') :
    (s.locked = false ∧ s'.locked = true ∧ (s.pc t).unlocks = false ∧
        ¬ (s.pc t).Inside ∧ (s'.pc t).Inside) ∨
      (s'.locked = false ∧ (s.pc t).unlocks = true ∧ (s.pc t).Inside ∧ ¬ (s'.pc t).Inside) ∨
      (s'.locked = s.locked ∧ (s.pc t).unlocks = false ∧
        ((s'.pc t).Inside ↔ (s.pc t).Inside)) := by
  cases hstep with
  | trylock ht =>
    cases hlocked : s.locked with
    | false =>
      refine .inl ⟨rfl, rfl, by rw [ht]; rfl, by rw [ht]; exact id, ?_⟩
      show ((s.goto t _).pc t).Inside
      rw [goto_pc_self]
      rfl
    | true =>
      refine .inr (.inr ⟨rfl, by rw [ht]; rfl, ?_⟩)
      show ((s.goto t _).pc t).Inside ↔ _
      rw [goto_pc_self, ht]
      exact iff_of_false nofun id
  | pushLock ht hfree =>
    refine .inl ⟨hfree, rfl, by rw [ht]; rfl, by rw [ht]; exact id, ?_⟩
    show ((s.goto t _).pc t).Inside
    rw [goto_pc_self]
    trivial
  | popUnlock ht | pushUnlock ht =>
    refine .inr (.inl ⟨rfl, by rw [ht]; rfl, by rw [ht]; trivial, ?_⟩)
    show ¬ ((s.goto t _).pc t).Inside
    rw [goto_pc_self]
    exact id
  | @ensureEmpty locked ht _ =>
    refine .inr (.inr ⟨rfl, by rw [ht]; rfl, ?_⟩)
    rw [goto_pc_self, ht]
    cases locked with
    | true => exact iff_of_true trivial rfl
    | false => exact iff_of_false id nofun
  | ensureLocked ht _ =>
    refine .inr (.inr ⟨rfl, by rw [ht]; rfl, ?_⟩)
    rw [goto_pc_self, ht]
    exact iff_of_true trivial rfl
  | ensureBusy ht _ =>
    refine .inr (.inr ⟨rfl, by rw [ht]; rfl, ?_⟩)
    rw [goto_pc_self, ht]
    exact iff_of_false id nofun
  | callInit ht | popRead ht | popNext ht | popClear ht | popSize ht | takeNode ht | easyInit ht _
  | easyInitFails ht | returnHandle ht | setupFails ht | callCleanup ht _ | mallocFails ht
  | malloc ht _ | pushNext ht | pushHead ht | pushSize ht =>
    refine .inr (.inr ⟨rfl, by rw [ht]; rfl, ?_⟩)
    show ((s.goto t _).pc t).Inside ↔ _
    rw [goto_pc_self, ht]
    exact Iff.rfl

/-- A statement of one thread does not move the others. -/
theorem Step.pc_other {s s' : State T N H} {t t' : T} (hstep : Step t s s') (hne : t' ≠ t) :
    s'.pc t' = s.pc t' := by
  cases hstep <;> exact goto_pc_of_ne hne _ _

/-- How a thread comes to leave `Stack_pop` with `NULL`. -/
theorem Step.null_cases {s s' : State T N H} {t : T} (hstep : Step t s s')
    (hnull : s'.pc t = .popUnlock none ∨ s'.pc t = .popped none) :
    s'.head = none ∨ (s.pc t = .popUnlock none ∧ s'.head = s.head) := by
  cases hstep with
  | ensureEmpty ht hn => exact .inl hn
  | @popUnlock res ht =>
    have hself : ((s.goto t (.popped res)).pc t) = .popped res := goto_pc_self s t _
    rcases hnull with hnull | hnull
    · exact nomatch hself.symm.trans hnull
    · obtain rfl : res = none := Pc.popped.inj (hself.symm.trans hnull)
      exact .inr ⟨ht, rfl⟩
  | callInit | trylock | ensureLocked | ensureBusy | popRead | popNext | popClear | popSize
  | takeNode | easyInit | easyInitFails | returnHandle | setupFails | callCleanup | mallocFails
  | malloc | pushLock | pushNext | pushHead | pushSize | pushUnlock =>
    rcases hnull with hnull | hnull
    · exact nomatch (goto_pc_self s t _).symm.trans hnull
    · exact nomatch (goto_pc_self s t _).symm.trans hnull

/-- The record agrees with the statement each thread is at. -/
structure Traced.Recorded (x : Traced T N H) : Prop where
  inside : ∀ t, (x.state.pc t).Inside → x.acquires t = x.releases t + 1
  outside : ∀ t, ¬ (x.state.pc t).Inside → x.acquires t = x.releases t
  null : ∀ t, x.state.pc t = .popUnlock none ∨ x.state.pc t = .popped none → x.emptied t = true

theorem Traced.Recorded.after {x : Traced T N H} {t : T} {s : State T N H} (h : x.Recorded)
    (hstep : Step t x.state s) : (x.after t s).Recorded := by
  have hother : ∀ t', t' ≠ t → (x.after t s).acquires t' = x.acquires t' ∧
      (x.after t s).releases t' = x.releases t' := by
    intro t' hne
    unfold Traced.after
    constructor
    · dsimp only
      split_ifs
      · exact Function.update_of_ne hne _ _
      · rfl
    · dsimp only
      split_ifs
      · exact Function.update_of_ne hne _ _
      · rfl
  -- the counts of `t` follow from what it does to the lock
  have hself : ((s.pc t).Inside → (x.after t s).acquires t = (x.after t s).releases t + 1) ∧
      (¬ (s.pc t).Inside → (x.after t s).acquires t = (x.after t s).releases t) := by
    rcases hstep.lock_cases with ⟨hfree, htaken, hun, hout, hin⟩ | ⟨hfree, hun, hin, hout⟩ |
      ⟨hlock, hun, hiff⟩
    · have hcount := h.outside t hout
      simp [Traced.after, hfree, htaken, hun, hin, hcount]
    · have hcount := h.inside t hin
      simp [Traced.after, hfree, hun, hout, hcount]
    · have hsame : (!x.state.locked && s.locked) = false := by
        rw [hlock]
        simp
      have hin := h.inside t
      have hout := h.outside t
      rw [← hiff] at hin hout
      simpa [Traced.after, hsame, hun] using ⟨hin, hout⟩
  refine ⟨fun t' hin => ?_, fun t' hout => ?_, fun t' hnull => ?_⟩
  · by_cases ht : t' = t
    · rw [ht] at hin ⊢
      exact hself.1 hin
    · rw [(hother t' ht).1, (hother t' ht).2]
      refine h.inside t' ?_
      rwa [← hstep.pc_other ht]
  · by_cases ht : t' = t
    · rw [ht] at hout ⊢
      exact hself.2 hout
    · rw [(hother t' ht).1, (hother t' ht).2]
      refine h.outside t' ?_
      rwa [← hstep.pc_other ht]
  · by_cases ht : t' = t
    · rw [ht] at hnull ⊢
      rcases hstep.null_cases hnull with hempty | ⟨hpc, -⟩
      · simp [Traced.after, hempty]
      · have hold := h.null t (.inl hpc)
        simp [Traced.after, hold, hpc, Pc.isIdle]
    · have hpc := hstep.pc_other ht
      have hold := h.null t' (by rw [← hpc]; exact hnull)
      simp [Traced.after, hold, ht]

theorem Reachable.recorded {x : Traced T N H} (h : Reachable x) : x.Recorded := by
  induction h with
  | @initial x h hacquires hreleases =>
    refine ⟨fun t hin => ?_, fun t _ => by rw [hacquires, hreleases], fun t hnull => ?_⟩
    · rw [h.pc t] at hin
      exact hin.elim
    · rw [h.pc t] at hnull
      rcases hnull with hnull | hnull
      · exact nomatch hnull
      · exact nomatch hnull
  | step _ hstep ih => exact ih.after hstep

theorem Reachable.inv {x : Traced T N H} (h : Reachable x) : ∃ ns, Inv x.state ns := by
  induction h with
  | initial h => exact ⟨[], inv_initial h⟩
  | step _ hstep ih =>
    obtain ⟨ns, hinv⟩ := ih
    exact inv_step hinv hstep

open Classical in
/-- What holds of the pool, for the nodes `ns` of the chain. -/
structure Traced.Safe (x : Traced T N H) (ns : List N) : Prop where
  chain : IsChain x.state.next x.state.head ns
  /-- A live handle is in the chain once and with no thread, or not in the chain and with exactly
      one thread. -/
  live : ∀ this ∈ x.state.live,
    ((ns.map x.state.value).count this = 1 ∧ ∀ t, this ∉ x.state.handles t) ∨
      (this ∉ ns.map x.state.value ∧ ∃ t, (x.state.handles t).count this = 1 ∧
        ∀ t', t' ≠ t → this ∉ x.state.handles t')
  /-- A destroyed handle is in neither. -/
  destroyed : ∀ this ∉ x.state.live,
    this ∉ ns.map x.state.value ∧ ∀ t, this ∉ x.state.handles t
  size : x.state.locked = false → x.state.size = ns.length
  /-- The body of `Stack_pop` runs with the lock; it starts on a chain that is not empty, and
      does not follow a `NULL`. -/
  body : ∀ t, (x.state.pc t).InPopBody → x.Holds t
  start : ∀ t, x.state.pc t = .popRead → ns ≠ []
  follow : ∀ t, x.state.pc t ≠ .popNext none
  /-- One thread at a time has the lock, only that one releases it, and out of the part with the
      lock a thread has released it as often as it took it. -/
  alone : ∀ t t', x.Holds t → x.Holds t' → t = t'
  releases : ∀ t, (x.state.pc t).unlocks = true → x.Holds t
  balance : ∀ t, ¬ (x.state.pc t).Inside → x.acquires t = x.releases t
  /-- `Stack_pop` returns `NULL` only if the chain was empty during the call. -/
  null : ∀ t, x.state.pc t = .popped none → x.emptied t = true

omit [DecidableEq T] [DecidableEq N] in
theorem Pc.InPopBody.inside {p : Pc N H} (h : p.InPopBody) : p.Inside := by
  cases p <;> trivial

omit [DecidableEq T] [DecidableEq N] in
theorem Pc.inside_of_unlocks {p : Pc N H} (h : p.unlocks = true) : p.Inside := by
  cases p <;> trivial

/-- In every reachable state the pool is safe. -/
theorem pool_safe (x : Traced T N H) (h : Reachable x) : ∃ ns, x.Safe ns := by
  classical
  obtain ⟨ns, hinv⟩ := h.inv
  have hrec := h.recorded
  have hholds : ∀ t, (x.state.pc t).Inside → x.Holds t :=
    fun t hin => ⟨hinv.mutex.taken t hin, hrec.inside t hin⟩
  have hinside : ∀ t, x.Holds t → (x.state.pc t).Inside := by
    rintro t ⟨-, hcount⟩
    by_contra hout
    have hequal := hrec.outside t hout
    omega
  refine ⟨ns, hinv.chain, fun this hlive => ?_, fun this hdead => ?_, hinv.size,
    fun t hbody => hholds t hbody.inside, fun t ht => ?_, fun t ht => ?_,
    fun t t' ht ht' => hinv.mutex.alone t t' (hinside t ht) (hinside t' ht'),
    fun t hun => hholds t (Pc.inside_of_unlocks hun), hrec.outside,
    fun t ht => hrec.null t (.inr ht)⟩
  · have hcases := hinv.handles.cases hlive
    rwa [Multiset.coe_count, Multiset.mem_coe] at hcases
  · have habsent := hinv.handles.absent hdead
    rwa [Multiset.mem_coe] at habsent
  · obtain ⟨-, hne⟩ := hinv.knows_at ht
    obtain ⟨n, ns', -, rfl, -⟩ := isChain_ne_none hinv.chain hne
    exact List.cons_ne_nil n ns'
  · obtain ⟨-, hres, hne⟩ := hinv.knows_at ht
    exact hne hres.symm

/-- Nothing has happened yet. -/
def freshPool : Traced Bool ℕ ℕ :=
  ⟨⟨none, fun _ => none, fun _ => 0, 0, false, ∅, ∅, fun _ => .idle, fun _ => 0⟩, fun _ => 0,
    fun _ => 0, fun _ => false⟩

/-- Two threads come for the handle `7` in the pool. One takes it, the other meets it inside, finds
    the pool empty without the lock, and is given the new handle `8`. -/
theorem pool_safe_two_threads :
    ∃ x y : Traced Bool ℕ ℕ, x.state.pc true = .popClear 0 ∧ x.state.pc false = .ensure false ∧
      (∃ ns, x.Safe ns) ∧ y.state.owned true = {7} ∧ y.state.owned false = {8} ∧ ∃ ns, y.Safe ns := by
  have h₀ : Reachable freshPool :=
    .initial ⟨rfl, rfl, rfl, rfl, rfl, fun _ => rfl, fun _ => rfl⟩ (fun _ => rfl) fun _ => rfl
  -- the first handle is made and given back
  have h₁ := h₀.step (.callInit (t := true) rfl)
  have h₂ := h₁.step (.trylock (t := true) rfl)
  have h₃ := h₂.step (.ensureEmpty (t := true) rfl rfl)
  have h₄ := h₃.step (.popUnlock (t := true) rfl)
  have h₅ := h₄.step (.easyInit (t := true) rfl (Set.notMem_empty 7))
  have h₆ := h₅.step (.returnHandle (t := true) rfl)
  have h₇ := h₆.step (.callCleanup (t := true) rfl (show _ = 7 ::ₘ 0 from rfl))
  have h₈ := h₇.step (.malloc (t := true) rfl (Set.notMem_empty 0))
  have h₉ := h₈.step (.pushLock (t := true) rfl rfl)
  have h₁₀ := h₉.step (.pushNext (t := true) rfl)
  have h₁₁ := h₁₀.step (.pushHead (t := true) rfl)
  have h₁₂ := h₁₁.step (.pushSize (t := true) rfl)
  have h₁₃ := h₁₂.step (.pushUnlock (t := true) rfl)
  -- both come for it, and the second does not get the lock
  have h₁₄ := h₁₃.step (.callInit (t := true) rfl)
  have h₁₅ := h₁₄.step (.callInit (t := false) rfl)
  have h₁₆ := h₁₅.step (.trylock (t := true) rfl)
  have h₁₇ := h₁₆.step (.trylock (t := false) rfl)
  have h₁₈ := h₁₇.step (.ensureBusy (t := false) rfl (by decide))
  have h₁₉ := h₁₈.step (.ensureLocked (t := true) rfl (by decide))
  have h₂₀ := h₁₉.step (.popRead (t := true) rfl)
  have h₂₁ := h₂₀.step (.trylock (t := false) rfl)
  have h₂₂ := h₂₁.step (.popNext (t := true) rfl)
  -- the chain is empty now, and the second leaves without the lock
  have h₂₃ := h₂₂.step (.ensureEmpty (t := false) rfl rfl)
  have h₂₄ := h₂₃.step (.popClear (t := true) rfl)
  have h₂₅ := h₂₄.step (.popSize (t := true) rfl)
  have h₂₆ := h₂₅.step (.popUnlock (t := true) rfl)
  have h₂₇ := h₂₆.step (.takeNode (t := true) rfl)
  have h₂₈ := h₂₇.step (.easyInit (t := false) rfl (show 8 ∉ insert 7 (∅ : Set ℕ) by simp))
  have h₂₉ := h₂₈.step (.returnHandle (t := true) rfl)
  have h₃₀ := h₂₉.step (.returnHandle (t := false) rfl)
  exact ⟨_, _, rfl, rfl, pool_safe _ h₂₂, rfl, rfl, pool_safe _ h₃₀⟩

end NetworkFs.Wrapper
