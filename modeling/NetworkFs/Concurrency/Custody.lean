import Mathlib

/-!
# Locks and custody

Two invariants of threads that share things, each with one rule for every kind of step.

* `Mutex locked inside`: at most one thread is inside, and the lock is taken exactly while one
  is. A step acquires, releases, or stays where it is.
* `Custody stock held live`: every live thing is either in the common stock once or with one
  thread once, and a thing that is not live is nowhere. A step creates, destroys, takes or puts
  back one thing.
* `IsChain next head ns`: the nodes `ns` are linked from `head`.
-/

namespace NetworkFs.Concurrency

variable {T X N : Type}

/-! ## A lock -/

/-- The lock is taken exactly while a thread is inside, and then by that thread only. -/
structure Mutex (locked : Bool) (inside : T → Prop) : Prop where
  taken : ∀ t, inside t → locked = true
  alone : ∀ t t', inside t → inside t' → t = t'
  someone : locked = true → ∃ t, inside t

section Mutex

variable {locked : Bool} {inside inside' : T → Prop} {t : T}

/-- Nobody is inside while the lock is free. -/
theorem Mutex.outside (h : Mutex false inside) (t : T) : ¬ inside t :=
  fun ht => nomatch h.taken t ht

theorem Mutex.acquire (h : Mutex false inside) (hother : ∀ t', t' ≠ t → (inside' t' ↔ inside t'))
    (ht : inside' t) : Mutex true inside' := by
  have honly : ∀ t', inside' t' → t' = t := by
    intro t' ht'
    by_contra hne
    exact h.outside t' ((hother t' hne).mp ht')
  exact ⟨fun _ _ => rfl, fun t₁ t₂ h₁ h₂ => (honly t₁ h₁).trans (honly t₂ h₂).symm,
    fun _ => ⟨t, ht⟩⟩

theorem Mutex.release (h : Mutex locked inside) (hother : ∀ t', t' ≠ t → (inside' t' ↔ inside t'))
    (ht : inside t) (ht' : ¬ inside' t) : Mutex false inside' := by
  have hnone : ∀ t', ¬ inside' t' := by
    intro t₁ h₁
    by_cases heq : t₁ = t
    · exact ht' (heq ▸ h₁)
    · exact heq (h.alone t₁ t ((hother t₁ heq).mp h₁) ht)
  exact ⟨fun t₁ h₁ => absurd h₁ (hnone t₁), fun t₁ _ h₁ => absurd h₁ (hnone t₁),
    fun h => nomatch h⟩

theorem Mutex.stay (h : Mutex locked inside) (hsame : ∀ t, inside' t ↔ inside t) :
    Mutex locked inside' := by
  have heq : inside' = inside := funext fun t => propext (hsame t)
  rw [heq]
  exact h

end Mutex

/-! ## Custody -/

/-- Where a thing is. -/
inductive Place (T : Type) where
  | nowhere
  | stock
  | holder (t : T)

open Classical in
/-- Each live thing is in one place, once. -/
def Custody (stock : Multiset X) (held : T → Multiset X) (live : X → Prop) : Prop :=
  ∃ place : X → Place T,
    (∀ x, stock.count x = if place x = .stock then 1 else 0) ∧
    (∀ t x, (held t).count x = if place x = .holder t then 1 else 0) ∧
    ∀ x, live x ↔ place x ≠ .nowhere

section Custody

variable {stock stock' : Multiset X} {held held' : T → Multiset X} {live live' : X → Prop} {t : T}
  {x : X}

/-- Nothing is live yet. -/
theorem custody_zero (hheld : ∀ t, held t = 0) (hlive : ∀ x, ¬ live x) : Custody 0 held live :=
  ⟨fun _ => .nowhere, by simp, by simp [hheld], by simp [hlive]⟩

open Classical in
/-- A live thing is in the stock once and with nobody, or not in the stock and with one thread
    once. -/
theorem Custody.cases (h : Custody stock held live) (hx : live x) :
    (stock.count x = 1 ∧ ∀ t, x ∉ held t) ∨
      (x ∉ stock ∧ ∃ t, (held t).count x = 1 ∧ ∀ t', t' ≠ t → x ∉ held t') := by
  obtain ⟨place, hstock, hheld, hlive⟩ := h
  have hnot : place x ≠ .nowhere := (hlive x).mp hx
  cases hp : place x with
  | nowhere => exact absurd hp hnot
  | stock =>
    refine .inl ⟨by rw [hstock, if_pos hp], fun t => ?_⟩
    rw [← Multiset.count_eq_zero, hheld, if_neg (by rw [hp]; exact nofun)]
  | holder t =>
    refine .inr ⟨?_, t, by rw [hheld, if_pos hp], fun t' hne => ?_⟩
    · rw [← Multiset.count_eq_zero, hstock, if_neg (by rw [hp]; exact nofun)]
    · rw [← Multiset.count_eq_zero, hheld, if_neg]
      rw [hp]
      rintro ⟨⟩
      exact hne rfl

open Classical in
theorem Custody.absent (h : Custody stock held live) (hx : ¬ live x) :
    x ∉ stock ∧ ∀ t, x ∉ held t := by
  obtain ⟨place, hstock, hheld, hlive⟩ := h
  have hp : place x = .nowhere := not_not.mp fun hp => hx ((hlive x).mpr hp)
  refine ⟨?_, fun t => ?_⟩
  · rw [← Multiset.count_eq_zero, hstock, if_neg (by rw [hp]; exact nofun)]
  · rw [← Multiset.count_eq_zero, hheld, if_neg (by rw [hp]; exact nofun)]

/-- What a thread has is not in the stock. -/
theorem Custody.not_mem_stock (h : Custody stock held live) (hx : x ∈ held t) : x ∉ stock := by
  by_cases hlive : live x
  · rcases h.cases hlive with ⟨-, hno⟩ | ⟨hno, -⟩
    · exact absurd hx (hno t)
    · exact hno
  · exact (h.absent hlive).1

/-- What a thread has, no other has. -/
theorem Custody.not_mem_held {t' : T} (h : Custody stock held live) (hx : x ∈ held t)
    (hne : t' ≠ t) : x ∉ held t' := by
  by_cases hlive : live x
  · rcases h.cases hlive with ⟨-, hno⟩ | ⟨-, t₀, -, hno⟩
    · exact absurd hx (hno t)
    · by_cases h₀ : t = t₀
      · exact hno t' (h₀ ▸ hne)
      · exact absurd hx (hno t h₀)
  · exact (h.absent hlive).2 t'

/-- The same things in the same places. -/
theorem Custody.congr (h : Custody stock held live) (hstock : stock' = stock)
    (hheld : ∀ t, held' t = held t) (hlive : ∀ x, live' x ↔ live x) :
    Custody stock' held' live' := by
  obtain rfl := hstock
  obtain rfl : held' = held := funext hheld
  obtain rfl : live' = live := funext fun x => propext (hlive x)
  exact h

open Classical in
/-- One thing moves to `p`, everything else stays. -/
theorem Custody.move (p : Place T) (h : Custody stock held live)
    (hstock : ∀ y, y ≠ x → stock'.count y = stock.count y)
    (hheld : ∀ t y, y ≠ x → (held' t).count y = (held t).count y)
    (hlive : ∀ y, y ≠ x → (live' y ↔ live y))
    (hstock' : stock'.count x = if p = .stock then 1 else 0)
    (hheld' : ∀ t, (held' t).count x = if p = .holder t then 1 else 0)
    (hlive' : live' x ↔ p ≠ .nowhere) : Custody stock' held' live' := by
  obtain ⟨place, h₁, h₂, h₃⟩ := h
  refine ⟨Function.update place x p, fun y => ?_, fun t y => ?_, fun y => ?_⟩
  · rcases eq_or_ne y x with rfl | hne
    · rw [Function.update_self, hstock']
    · rw [Function.update_of_ne hne, hstock y hne, h₁]
  · rcases eq_or_ne y x with rfl | hne
    · rw [Function.update_self, hheld']
    · rw [Function.update_of_ne hne, hheld t y hne, h₂]
  · rcases eq_or_ne y x with rfl | hne
    · rw [Function.update_self, hlive']
    · rw [Function.update_of_ne hne, hlive y hne, h₃]

/-- A new thing comes into the stock. -/
theorem Custody.enter (h : Custody stock held live) (hx : ¬ live x)
    (hlive : ∀ y, live' y ↔ live y ∨ y = x) : Custody (x ::ₘ stock) held live' := by
  classical
  obtain ⟨hno, hnot⟩ := h.absent hx
  refine h.move (x := x) .stock (fun y hne => ?_) (fun _ _ _ => rfl)
    (fun y hne => by simp [hlive, hne]) ?_ (fun t' => ?_) ?_
  · rw [Multiset.count_cons_of_ne hne]
  · rw [Multiset.count_cons_self, Multiset.count_eq_zero.mpr hno, if_pos rfl]
  · rw [Multiset.count_eq_zero.mpr (hnot t'), if_neg (by rintro ⟨⟩)]
  · simp [hlive]

section Steps

variable (hother : ∀ t', t' ≠ t → held' t' = held t')

include hother

open Classical in
/-- Only `t`'s things change, and of them only `x`. -/
theorem count_of_other (hself : ∀ y, y ≠ x → (held' t).count y = (held t).count y) (t' : T) (y : X)
    (hne : y ≠ x) : (held' t').count y = (held t').count y := by
  by_cases ht : t' = t
  · rw [ht]
    exact hself y hne
  · rw [hother t' ht]

/-- `t` gets a new thing. -/
theorem Custody.create (h : Custody stock held live) (hx : ¬ live x)
    (hself : held' t = x ::ₘ held t) (hlive : ∀ y, live' y ↔ live y ∨ y = x) :
    Custody stock held' live' := by
  classical
  obtain ⟨hno, hnot⟩ := h.absent hx
  refine h.move (x := x) (.holder t) (fun _ _ => rfl) (count_of_other hother fun y hne => ?_)
    (fun y hne => by simp [hlive, hne]) ?_ (fun t' => ?_) ?_
  · rw [hself, Multiset.count_cons_of_ne hne]
  · rw [Multiset.count_eq_zero.mpr hno, if_neg nofun]
  · by_cases ht : t' = t
    · rw [ht, hself, Multiset.count_cons_self, Multiset.count_eq_zero.mpr (hnot t), if_pos rfl]
    · rw [hother t' ht, Multiset.count_eq_zero.mpr (hnot t'), if_neg]
      rintro ⟨⟩
      exact ht rfl
  · simp [hlive]

open Classical in
/-- A thing that `t` has once is gone when `t` lost it. -/
theorem Custody.count_rest (h : Custody stock held live) (hself : held t = x ::ₘ held' t) :
    live x ∧ x ∉ stock ∧ ∀ t', (held' t').count x = 0 := by
  have hmem : x ∈ held t := hself ▸ Multiset.mem_cons_self x _
  have hlivex : live x := by
    by_contra hdead
    exact (h.absent hdead).2 t hmem
  refine ⟨hlivex, h.not_mem_stock hmem, fun t' => ?_⟩
  by_cases ht : t' = t
  · rcases h.cases hlivex with ⟨-, hno⟩ | ⟨-, t₀, hone, hno⟩
    · exact absurd hmem (hno t)
    · have ht₀ : t = t₀ := by
        by_contra hne
        exact hno t hne hmem
      rw [← ht₀, hself, Multiset.count_cons_self] at hone
      rw [ht]
      omega
  · rw [hother t' ht, Multiset.count_eq_zero]
    exact h.not_mem_held hmem ht

/-- `t` destroys a thing it has. -/
theorem Custody.destroy (h : Custody stock held live) (hself : held t = x ::ₘ held' t)
    (hlive : ∀ y, live' y ↔ live y ∧ y ≠ x) : Custody stock held' live' := by
  classical
  obtain ⟨-, hnot, hzero⟩ := h.count_rest hother hself
  refine h.move (x := x) .nowhere (fun _ _ => rfl) (count_of_other hother fun y hne => ?_)
    (fun y hne => by simp [hlive, hne]) ?_ (fun t' => ?_) ?_
  · rw [hself, Multiset.count_cons_of_ne hne]
  · rw [Multiset.count_eq_zero.mpr hnot, if_neg nofun]
  · rw [hzero, if_neg nofun]
  · simp [hlive]

/-- `t` takes a thing from the stock. -/
theorem Custody.take (h : Custody (x ::ₘ stock) held live) (hself : held' t = x ::ₘ held t) :
    Custody stock held' live := by
  classical
  have hlivex : live x := by
    by_contra hdead
    exact (h.absent hdead).1 (Multiset.mem_cons_self x stock)
  rcases h.cases hlivex with ⟨hone, hno⟩ | ⟨hnot, -⟩
  · rw [Multiset.count_cons_self] at hone
    refine h.move (x := x) (.holder t) (fun y hne => ?_) (count_of_other hother fun y hne => ?_)
      (fun _ _ => Iff.rfl) ?_ (fun t' => ?_) ?_
    · rw [Multiset.count_cons_of_ne hne]
    · rw [hself, Multiset.count_cons_of_ne hne]
    · rw [if_neg nofun]
      omega
    · by_cases ht : t' = t
      · rw [ht, hself, Multiset.count_cons_self, Multiset.count_eq_zero.mpr (hno t), if_pos rfl]
      · rw [hother t' ht, Multiset.count_eq_zero.mpr (hno t'), if_neg]
        rintro ⟨⟩
        exact ht rfl
    · simp [hlivex]
  · exact absurd (Multiset.mem_cons_self x stock) hnot

/-- `t` puts a thing it has into the stock. -/
theorem Custody.put (h : Custody stock held live) (hself : held t = x ::ₘ held' t) :
    Custody (x ::ₘ stock) held' live := by
  classical
  obtain ⟨hlivex, hnot, hzero⟩ := h.count_rest hother hself
  refine h.move (x := x) .stock (fun y hne => ?_) (count_of_other hother fun y hne => ?_)
    (fun _ _ => Iff.rfl) ?_ (fun t' => ?_) ?_
  · rw [Multiset.count_cons_of_ne hne]
  · rw [hself, Multiset.count_cons_of_ne hne]
  · rw [Multiset.count_cons_self, Multiset.count_eq_zero.mpr hnot, if_pos rfl]
  · rw [hzero, if_neg nofun]
  · simp [hlivex]

end Steps

end Custody

/-! ## A linked list -/

/-- The nodes `ns`, linked from `head`. -/
def IsChain (next : N → Option N) : Option N → List N → Prop
  | head, [] => head = none
  | head, n :: ns => head = some n ∧ IsChain next (next n) ns

theorem isChain_ne_none {next : N → Option N} {head : Option N} {ns : List N}
    (h : IsChain next head ns) (hne : head ≠ none) :
    ∃ n ns', head = some n ∧ ns = n :: ns' ∧ IsChain next (next n) ns' := by
  cases ns with
  | nil => exact absurd h hne
  | cons n ns' => exact ⟨n, ns', h.1, rfl, h.2⟩

/-- A chain has one list of nodes. -/
theorem IsChain.unique {next : N → Option N} {head : Option N} {ns ns' : List N}
    (h : IsChain next head ns) (h' : IsChain next head ns') : ns = ns' := by
  induction ns generalizing head ns' with
  | nil =>
    cases ns' with
    | nil => rfl
    | cons n' ns' => cases h.symm.trans h'.1
  | cons n ns ih =>
    cases ns' with
    | nil => cases h.1.symm.trans h'
    | cons n' ns' =>
      obtain rfl : n = n' := Option.some.inj (h.1.symm.trans h'.1)
      rw [ih h.2 h'.2]

/-- A node outside the chain may be linked anew. -/
theorem IsChain.update [DecidableEq N] {next : N → Option N} {head : Option N} {ns : List N} {n : N}
    (h : IsChain next head ns) (hn : n ∉ ns) (p : Option N) :
    IsChain (Function.update next n p) head ns := by
  induction ns generalizing head with
  | nil => exact h
  | cons m ns ih =>
    have hne : m ≠ n := fun heq => hn (heq ▸ List.mem_cons_self)
    refine ⟨h.1, ?_⟩
    rw [Function.update_of_ne hne]
    exact ih h.2 fun hmem => hn (List.mem_cons_of_mem m hmem)

end NetworkFs.Concurrency
