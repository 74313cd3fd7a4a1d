import NetworkFs.Concurrency.Atomic
import NetworkFs.Wrapper.HandlePool

/-!
# The pool is an atomic stack

`Stack_pop` and `Stack_push` take effect at one statement each: `this->next = res->next`,
`this->next = node`, and the test `this->next == NULL` that `Stack_pop` may make without the lock.
So however the threads interleave, what they call and what they get is what a stack of handles
would give them, with each operation in one step.

* `Pc.phase`: whether the operation of a thread has taken effect.
* `simulation_pool`: the statements are matched by the steps of the atomic stack.
* `pool_linearizable`: so every history of the pool is one of the stack.
-/

namespace NetworkFs.Wrapper

open Concurrency

variable {T N H : Type}

/-! ## What the threads are in -/

/-- A call of `Stack_pop` or `Stack_push` takes effect when the chain is read or changed. -/
def Pc.phase (value : N → H) : Pc N H → Phase (StackOp H) (Option H)
  | trylock | ensure _ | popRead | popNext _ => .called .pop
  | popClear n | popSize n => .done (some (value n))
  | popUnlock res | popped res => .done (res.map value)
  | pushLock n | pushNext n | pushHead n => .called (.push (value n))
  | pushSize | pushUnlock => .done none
  | idle | setup _ | malloc _ => .idle

/-- Where each thread is. -/
def State.phases (s : State T N H) (t : T) : Phase (StackOp H) (Option H) :=
  (s.pc t).phase s.value

/-- The handles in the chain, and where the threads are. -/
def State.abstract (s : State T N H) (ns : List N) :
    Atomic T (List H) (StackOp H) (Option H) := ⟨ns.map s.value, s.phases⟩

/-- The pool as its clients see it. -/
def pool (T N H : Type) [DecidableEq T] [DecidableEq N] :
    Lts (State T N H) (Event T (StackOp H) (Option H)) where
  step s e s' := ∃ t, Step t s s' ∧ e = Phase.event t (s.phases t) (s'.phases t)

/-! ## Every statement is matched -/

/-- The phase depends on the values of the thread's own nodes. -/
theorem Pc.phase_congr {p : Pc N H} {value value' : N → H} (h : ∀ n ∈ p.nodes, value n = value' n) :
    p.phase value = p.phase value' := by
  cases p with
  | popClear n | popSize n | pushLock n | pushNext n | pushHead n =>
    have hn := h n (Multiset.mem_singleton_self n)
    simp only [Pc.phase, hn]
  | popUnlock res | popped res =>
    cases res with
    | none => rfl
    | some n =>
      have hn := h n (Multiset.mem_singleton_self n)
      simp only [Pc.phase, Option.map_some, hn]
  | _ => rfl

section Matched

variable [DecidableEq T] {s s' : State T N H} {ns ns' : List N} {t : T} {p : Pc N H}

theorem phases_goto (hpc : s'.pc = (s.goto t p).pc) (hvalue : s'.value = s.value) :
    s'.phases = Function.update s.phases t (p.phase s.value) := by
  funext t'
  rw [State.phases, hpc, hvalue]
  by_cases ht : t' = t
  · subst ht
    rw [Function.update_self, goto_pc_self]
  · rw [Function.update_of_ne ht, goto_pc_of_ne ht]
    rfl

/-- A run of the atomic stack that does what the statement does. -/
theorem matched_by {q : Phase (StackOp H) (Option H)} {l : List H}
    (hphases : s'.phases = Function.update s.phases t q) (hstate : ns'.map s'.value = l)
    (hmove : (atomic T stackApply).Runs (s.abstract ns) (Phase.event t (s.phases t) q).toList
      ((s.abstract ns).goto t q l)) :
    (atomic T stackApply).Runs (s.abstract ns) (Phase.event t (s.phases t) (s'.phases t)).toList
      (s'.abstract ns') := by
  have hafter : s'.phases t = q := by rw [hphases, Function.update_self]
  have habstract : s'.abstract ns' = (s.abstract ns).goto t q l := by
    rw [State.abstract, hphases, hstate]
    rfl
  rw [hafter, habstract]
  exact hmove

/-- A statement that takes no effect on the stack. -/
theorem matched_stays (hinv : Inv s' ns') (hchain : IsChain s'.next s'.head ns)
    (hpc : s'.pc = (s.goto t p).pc) (hvalue : s'.value = s.value)
    (hp : p.phase s.value = s.phases t) :
    (atomic T stackApply).Runs (s.abstract ns) (Phase.event t (s.phases t) (s'.phases t)).toList
      (s'.abstract ns') := by
  obtain rfl := hchain.unique hinv.chain
  refine matched_by (phases_goto hpc hvalue) (by rw [hvalue]) ?_
  rw [hp]
  exact atomic_stays rfl

/-- A statement that returns. -/
theorem matched_returns {r : Option H} (hinv : Inv s' ns') (hchain : IsChain s'.next s'.head ns)
    (hpc : s'.pc = (s.goto t p).pc) (hvalue : s'.value = s.value)
    (hbefore : s.phases t = .done r) (hp : p.phase s.value = .idle) :
    (atomic T stackApply).Runs (s.abstract ns) (Phase.event t (s.phases t) (s'.phases t)).toList
      (s'.abstract ns') := by
  obtain rfl := hchain.unique hinv.chain
  refine matched_by (phases_goto hpc hvalue) (by rw [hvalue]) ?_
  rw [hp, hbefore]
  exact atomic_returns hbefore

/-- A statement that takes effect. -/
theorem matched_effects {op : StackOp H} {r : Option H} (hpc : s'.pc = (s.goto t p).pc)
    (hvalue : s'.value = s.value) (hbefore : s.phases t = .called op) (hp : p.phase s.value = .done r)
    (happly : stackApply op (ns.map s.value) = (r, ns'.map s.value)) :
    (atomic T stackApply).Runs (s.abstract ns) (Phase.event t (s.phases t) (s'.phases t)).toList
      (s'.abstract ns') := by
  refine matched_by (phases_goto hpc hvalue) (by rw [hvalue]) ?_
  rw [hp, hbefore]
  exact atomic_effects hbefore happly

omit [DecidableEq T] in
theorem phases_at (ht : s.pc t = p) : s.phases t = p.phase s.value := by rw [State.phases, ht]

variable [DecidableEq N]

/-- `malloc_t(LinkedList)`: nobody else sees the value of the new node. -/
theorem matched_malloc {this : H} {n : N} (h : Inv s ns) (ht : s.pc t = .malloc this)
    (hfresh : n ∉ s.nodes)
    (hinv : Inv { s.goto t (.pushLock n) with
      nodes := insert n s.nodes, value := Function.update s.value n this } ns') :
    (atomic T stackApply).Runs (s.abstract ns) (Phase.event t (s.phases t)
      (({ s.goto t (.pushLock n) with
        nodes := insert n s.nodes, value := Function.update s.value n this } :
          State T N H).phases t)).toList
      (({ s.goto t (.pushLock n) with
        nodes := insert n s.nodes, value := Function.update s.value n this } :
          State T N H).abstract ns') := by
  obtain ⟨hchain, hother⟩ := h.nodes.absent hfresh
  have hsame : ns = ns' := h.chain.unique hinv.chain
  subst hsame
  refine matched_by (q := .called (.push this)) (l := ns.map s.value) (funext fun t' => ?_) ?_ ?_
  · by_cases ht' : t' = t
    · subst ht'
      rw [Function.update_self, State.phases, goto_pc_self]
      simp only [Pc.phase, Function.update_self]
    · rw [Function.update_of_ne ht', State.phases, goto_pc_of_ne ht']
      refine Pc.phase_congr fun m hm => Function.update_of_ne ?_ _ _
      rintro rfl
      exact hother t' hm
  · refine List.map_congr_left fun m hm => Function.update_of_ne ?_ _ _
    rintro rfl
    exact hchain hm
  · have hbefore := phases_at ht
    rw [hbefore]
    exact atomic_calls (StackOp.push this) hbefore

/-- Every statement is matched: at most one of the steps of the atomic stack. -/
theorem Step.matched (h : Inv s ns) (hstep : Step t s s') : ∃ ns', Inv s' ns' ∧
    (atomic T stackApply).Runs (s.abstract ns) (Phase.event t (s.phases t) (s'.phases t)).toList
      (s'.abstract ns') := by
  obtain ⟨ns', hinv⟩ := inv_step h hstep
  refine ⟨ns', hinv, ?_⟩
  cases hstep with
  | callInit ht =>
    obtain rfl := h.chain.unique hinv.chain
    refine matched_by (phases_goto rfl rfl) rfl ?_
    rw [phases_at ht]
    exact atomic_calls StackOp.pop (phases_at ht)
  | trylock ht | ensureLocked ht | ensureBusy ht | popRead ht | popSize ht | popUnlock ht
  | returnHandle ht | setupFails ht | callCleanup ht | mallocFails ht | pushLock ht | pushSize ht =>
    exact matched_stays hinv h.chain rfl rfl (phases_at ht).symm
  | @ensureEmpty locked ht hn =>
    obtain rfl := h.chain.unique hinv.chain
    have hnil : ns = [] := h.chain.unique hn
    refine matched_effects rfl rfl (phases_at ht) (r := none) ?_ ?_
    · cases locked <;> rfl
    · rw [hnil]
      rfl
  | @popNext n ht =>
    obtain ⟨-, hres, hne⟩ := h.knows_at ht
    obtain ⟨n', ns₁, hhead, rfl, hchain⟩ := isChain_ne_none h.chain hne
    obtain rfl : n = n' := Option.some.inj (hres.trans hhead)
    obtain rfl := hchain.unique hinv.chain
    exact matched_effects rfl rfl (phases_at ht) rfl rfl
  | @popClear n ht =>
    have hmem : n ∈ (s.pc t).nodes := by rw [ht]; exact Multiset.mem_singleton_self n
    exact matched_stays hinv (h.chain.update (h.not_mem_chain hmem) none) rfl rfl (phases_at ht).symm
  | @pushNext n ht =>
    have hmem : n ∈ (s.pc t).nodes := by rw [ht]; exact Multiset.mem_singleton_self n
    exact matched_stays hinv (h.chain.update (h.not_mem_chain hmem) s.head) rfl rfl
      (phases_at ht).symm
  | takeNode ht | easyInit ht | easyInitFails ht | pushUnlock ht =>
    exact matched_returns hinv h.chain rfl rfl (phases_at ht) rfl
  | malloc ht hfresh => exact matched_malloc h ht hfresh hinv
  | pushHead ht =>
    obtain rfl := (h.pushHead ht).chain.unique hinv.chain
    exact matched_effects rfl rfl (phases_at ht) rfl rfl

/-- The pool is simulated by the atomic stack of its handles. -/
theorem simulation_pool : Simulation (pool T N H) (atomic T stackApply)
    fun s x => ∃ ns, Inv s ns ∧ x = s.abstract ns where
  step := by
    rintro s e s' x ⟨ns, hinv, rfl⟩ ⟨t, hstep, rfl⟩
    obtain ⟨ns', hinv', hruns⟩ := hstep.matched hinv
    exact ⟨s'.abstract ns', hruns, ns', hinv', rfl⟩

end Matched

/-! ## Histories -/

/-- Whatever any number of threads call and get back, in any interleaving of their statements, a
    stack of handles gives them, with each operation in one step; and it has the handles of the
    chain. -/
theorem pool_linearizable [DecidableEq T] [DecidableEq N] {s s' : State T N H} (h : s.Initial)
    {es : List (Event T (StackOp H) (Option H))} (hrun : (pool T N H).Runs s es s') :
    ∃ x, (atomic T stackApply).Runs ⟨[], fun _ => .idle⟩ es x ∧
      ∃ ns, IsChain s'.next s'.head ns ∧ x.state = ns.map s'.value := by
  obtain ⟨x, hruns, ns, hinv, rfl⟩ := simulation_pool.runs ⟨[], inv_initial h, rfl⟩ hrun
  have hstart : s.abstract [] = ⟨[], fun _ => .idle⟩ := by
    have hphases : s.phases = fun _ => .idle := funext fun t => phases_at (h.pc t)
    rw [State.abstract, hphases]
    rfl
  rw [hstart] at hruns
  exact ⟨_, hruns, ns, hinv.chain, rfl⟩

/-- A thread is given the new handle `7`, gives it back, and is given it again. -/
theorem pool_linearizable_again :
    ∃ s', (pool Bool ℕ ℕ).Runs freshPool.state [.call true .pop, .ret true none,
        .call true (.push 7), .ret true none, .call true .pop, .ret true (some 7)] s' ∧
      ∃ x, (atomic Bool stackApply).Runs ⟨[], fun _ => .idle⟩ [.call true .pop, .ret true none,
          .call true (.push 7), .ret true none, .call true .pop, .ret true (some 7)] x ∧
        ∃ ns, IsChain s'.next s'.head ns ∧ x.state = ns.map s'.value := by
  have hpc : ∀ t, freshPool.state.pc t = .idle := fun _ => rfl
  have h₀ : (pool Bool ℕ ℕ).Runs freshPool.state [] freshPool.state := .refl
  have h₁ := h₀.step ⟨true, .callInit rfl, rfl⟩
  have h₂ := h₁.step ⟨true, .trylock rfl, rfl⟩
  have h₃ := h₂.step ⟨true, .ensureEmpty rfl rfl, rfl⟩
  have h₄ := h₃.step ⟨true, .popUnlock rfl, rfl⟩
  have h₅ := h₄.step ⟨true, .easyInit rfl (Set.notMem_empty 7), rfl⟩
  have h₆ := h₅.step ⟨true, .returnHandle rfl, rfl⟩
  have h₇ := h₆.step ⟨true, .callCleanup rfl (show _ = 7 ::ₘ 0 from rfl), rfl⟩
  have h₈ := h₇.step ⟨true, .malloc rfl (Set.notMem_empty 0), rfl⟩
  have h₉ := h₈.step ⟨true, .pushLock rfl rfl, rfl⟩
  have h₁₀ := h₉.step ⟨true, .pushNext rfl, rfl⟩
  have h₁₁ := h₁₀.step ⟨true, .pushHead rfl, rfl⟩
  have h₁₂ := h₁₁.step ⟨true, .pushSize rfl, rfl⟩
  have h₁₃ := h₁₂.step ⟨true, .pushUnlock rfl, rfl⟩
  have h₁₄ := h₁₃.step ⟨true, .callInit rfl, rfl⟩
  have h₁₅ := h₁₄.step ⟨true, .trylock rfl, rfl⟩
  have h₁₆ := h₁₅.step ⟨true, .ensureLocked rfl (by decide), rfl⟩
  have h₁₇ := h₁₆.step ⟨true, .popRead rfl, rfl⟩
  have h₁₈ := h₁₇.step ⟨true, .popNext rfl, rfl⟩
  have h₁₉ := h₁₈.step ⟨true, .popClear rfl, rfl⟩
  have h₂₀ := h₁₉.step ⟨true, .popSize rfl, rfl⟩
  have h₂₁ := h₂₀.step ⟨true, .popUnlock rfl, rfl⟩
  have h₂₂ := h₂₁.step ⟨true, .takeNode rfl, rfl⟩
  exact ⟨_, h₂₂, pool_linearizable ⟨rfl, rfl, rfl, rfl, rfl, hpc, fun _ => rfl⟩ h₂₂⟩

end NetworkFs.Wrapper
