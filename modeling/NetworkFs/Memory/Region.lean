import NetworkFs.Control.Ctl

/-!
# Checked access to a region of memory

A `Region` is an array of cells with its exact length, next to whatever else a function
works on. `load` and `store` fault outside of it, so a run that ends without a fault has
touched nothing else. The loops over the cells are those of the C string functions:

* `startsWith`: a comparison with a constant, which stops at the first difference.
* `scan`: go on to the first cell that satisfies `p`.
* `retreat`: go back over the cells that satisfy `p`, but not before the start.
-/

namespace NetworkFs.Memory

open Control

/-- A region of memory, and everything else. -/
structure Region (β γ : Type) where
  cells : List β
  rest : γ

/-- A statement on a region. -/
abbrev Access (β γ ρ α : Type) := Ctl (Region β γ) ρ α

variable {β γ ρ α : Type}

/-- The cell `i`. -/
def load (i : ℕ) : Access β γ ρ β := do
  let cell ← Ctl.gets (·.cells[i]?)
  Ctl.deref cell

/-- Write the cell `i`. -/
def store (i : ℕ) (b : β) : Access β γ ρ Unit := do
  let n ← Ctl.gets (·.cells.length)
  if i < n then Ctl.modify fun r => { r with cells := r.cells.set i b } else Ctl.leave .fault

/-- Change what is not the region. -/
def modifyRest (f : γ → γ) : Access β γ ρ Unit := Ctl.modify fun r => { r with rest := f r.rest }

/-- Do the cells from `i` on start with a constant? -/
def startsWith [DecidableEq β] : List β → ℕ → Access β γ ρ Bool
  | [], _ => pure true
  | c :: cs, i => do
    let b ← load i
    if b = c then startsWith cs (i + 1) else pure false

/-- `scan` with at most `fuel` rounds. -/
def scanFuel (p : β → Bool) : ℕ → ℕ → Access β γ ρ ℕ
  | 0, _ => Ctl.leave .fault
  | fuel + 1, i => do
    let b ← load i
    if p b then pure i else scanFuel p fuel (i + 1)

/-- `while (!p(*s)) s++` from the cell `i` on. A round beyond the region faults, so there are
    not more rounds than cells and one. -/
def scan (p : β → Bool) (i : ℕ) : Access β γ ρ ℕ := do
  let n ← Ctl.gets (·.cells.length)
  scanFuel p (n + 1) i

/-- `while (end >= s && p(*end)) end--`, on the number of cells from `s` up to `end`. -/
def retreat (p : β → Bool) : ℕ → Access β γ ρ ℕ
  | 0 => pure 0
  | n + 1 => do
    let b ← load n
    if p b then retreat p n else pure (n + 1)

/-! ## Single cells -/

variable {r : Region β γ} {i : ℕ} {b : β}

/-- The first of the cells from `i` on, and the others. -/
theorem cell_of_drop {tail : List β} (h : r.cells.drop i = b :: tail) :
    r.cells[i]? = some b ∧ r.cells.drop (i + 1) = tail := by
  constructor
  · rw [← List.head?_drop, h]
    rfl
  · rw [← List.tail_drop, h]
    rfl

theorem load_some (h : r.cells[i]? = some b) : (load i : Access β γ ρ β) r = (.ok b, r) := by
  rw [load, Ctl.bind_ok (Ctl.gets_apply _ _), h]
  rfl

theorem load_none (h : r.cells[i]? = none) : (load i : Access β γ ρ β) r = (.error .fault, r) := by
  rw [load, Ctl.bind_ok (Ctl.gets_apply _ _), h]
  rfl

theorem store_inside (h : i < r.cells.length) :
    (store i b : Access β γ ρ Unit) r = (.ok (), ⟨r.cells.set i b, r.rest⟩) := by
  rw [store, Ctl.bind_ok (Ctl.gets_apply _ _), if_pos h]
  rfl

theorem modifyRest_apply (f : γ → γ) :
    (modifyRest f : Access β γ ρ Unit) r = (.ok (), ⟨r.cells, f r.rest⟩) := rfl

/-! ## `startsWith` -/

section StartsWith

variable [DecidableEq β]

theorem startsWith_prefix {cs tail : List β} : ∀ {i : ℕ}, r.cells.drop i = cs ++ tail →
    (startsWith cs i : Access β γ ρ Bool) r = (.ok true, r) := by
  induction cs with
  | nil =>
    intro i _
    rfl
  | cons c cs ih =>
    intro i h
    obtain ⟨hcell, hdrop⟩ := cell_of_drop h
    rw [startsWith, Ctl.bind_ok (load_some hcell), if_pos rfl]
    exact ih hdrop

/-- A cell that the constant does not have stops the comparison. -/
theorem startsWith_other {cs : List β} : ∀ {i : ℕ}, ¬cs <+: r.cells.drop i →
    (∃ b ∈ r.cells.drop i, b ∉ cs) → (startsWith cs i : Access β γ ρ Bool) r = (.ok false, r) := by
  induction cs with
  | nil =>
    intro i h _
    exact absurd List.nil_prefix h
  | cons c cs ih =>
    intro i h hother
    rcases hdrop : r.cells.drop i with _ | ⟨b, tail⟩
    · rw [hdrop] at hother
      obtain ⟨b, hb, -⟩ := hother
      exact absurd hb List.not_mem_nil
    · obtain ⟨hcell, htail⟩ := cell_of_drop hdrop
      rw [hdrop] at h hother
      rw [startsWith, Ctl.bind_ok (load_some hcell)]
      by_cases hbc : b = c
      · subst hbc
        rw [if_pos rfl]
        apply ih
        · rw [htail]
          intro hprefix
          exact h (List.cons_prefix_cons.mpr ⟨rfl, hprefix⟩)
        · rw [htail]
          obtain ⟨d, hd, hne⟩ := hother
          rcases List.mem_cons.mp hd with rfl | hd
          · exact absurd List.mem_cons_self hne
          · exact ⟨d, hd, fun hmem => hne (List.mem_cons_of_mem _ hmem)⟩
      · rw [if_neg hbc]
        rfl

end StartsWith

/-! ## `scan` -/

/-- A list is its longest front with `p`, and then nothing or an element without `p`. -/
theorem takeWhile_split (p : β → Bool) (s : List β) : ∃ rest,
    s = s.takeWhile p ++ rest ∧ ∀ c tail, rest = c :: tail → p c = false := by
  refine ⟨s.dropWhile p, List.takeWhile_append_dropWhile.symm, fun c tail h => ?_⟩
  have hnot := List.head_dropWhile_not (l := s) p (by rw [h]; exact List.cons_ne_nil _ _)
  simpa [h] using hnot

theorem drop_length_takeWhile (p : β → Bool) (s : List β) :
    s.drop (s.takeWhile p).length = s.dropWhile p := by
  have h : (s.takeWhile p ++ s.dropWhile p).drop (s.takeWhile p).length = s.dropWhile p :=
    List.drop_left
  rwa [List.takeWhile_append_dropWhile] at h

section Scan

variable {p : β → Bool}

theorem scanFuel_found {tail : List β} (hb : p b = true) (front : List β) : ∀ {fuel i : ℕ},
    r.cells.drop i = front ++ b :: tail → (∀ c ∈ front, p c = false) → front.length < fuel →
    (scanFuel p fuel i : Access β γ ρ ℕ) r = (.ok (i + front.length), r) := by
  induction front with
  | nil =>
    intro fuel i h _ hfuel
    obtain ⟨fuel, rfl⟩ := Nat.exists_eq_succ_of_ne_zero (Nat.ne_of_gt hfuel)
    obtain ⟨hcell, -⟩ := cell_of_drop h
    rw [scanFuel, Ctl.bind_ok (load_some hcell), if_pos hb]
    rfl
  | cons c front ih =>
    intro fuel i h hfront hfuel
    obtain ⟨fuel, rfl⟩ := Nat.exists_eq_succ_of_ne_zero (Nat.ne_of_gt (Nat.zero_lt_of_lt hfuel))
    obtain ⟨hcell, hdrop⟩ := cell_of_drop h
    have hc : ¬p c = true := by
      rw [hfront c List.mem_cons_self]
      exact Bool.false_ne_true
    rw [scanFuel, Ctl.bind_ok (load_some hcell), if_neg hc,
      ih hdrop (fun d hd => hfront d (List.mem_cons_of_mem _ hd)) (Nat.lt_of_succ_lt_succ hfuel),
      List.length_cons, Nat.add_right_comm, Nat.add_assoc]

/-- The first cell that satisfies `p`. -/
theorem scan_found {front tail : List β} (h : r.cells.drop i = front ++ b :: tail)
    (hfront : ∀ c ∈ front, p c = false) (hb : p b = true) :
    (scan p i : Access β γ ρ ℕ) r = (.ok (i + front.length), r) := by
  rw [scan, Ctl.bind_ok (Ctl.gets_apply _ _)]
  refine scanFuel_found hb front h hfront ?_
  have hlength := congrArg List.length h
  simp only [List.length_drop, List.length_append, List.length_cons] at hlength
  omega

/-- The loop goes over the cells without `p`. -/
theorem scan_takeWhile (h : ∃ c ∈ r.cells.drop i, p c = true) :
    (scan p i : Access β γ ρ ℕ) r = (.ok (i + ((r.cells.drop i).takeWhile (!p ·)).length), r) := by
  have hfront : ∀ c ∈ (r.cells.drop i).takeWhile (!p ·), p c = false := by
    intro c hc
    simpa using List.mem_takeWhile_imp hc
  obtain ⟨rest, hsplit, hrest⟩ := takeWhile_split (!p ·) (r.cells.drop i)
  rcases rest with _ | ⟨c, rest⟩
  · rw [List.append_nil] at hsplit
    obtain ⟨c, hc, hp⟩ := h
    rw [hsplit] at hc
    rw [hfront c hc] at hp
    exact absurd hp Bool.false_ne_true
  · exact scan_found hsplit hfront (by simpa using hrest c rest rfl)

theorem scanFuel_beyond : ∀ {fuel i : ℕ}, (∀ c ∈ r.cells.drop i, p c = false) →
    (scanFuel p fuel i : Access β γ ρ ℕ) r = (.error .fault, r) := by
  intro fuel
  induction fuel with
  | zero =>
    intro i _
    rfl
  | succ fuel ih =>
    intro i h
    rcases hcell : r.cells[i]? with _ | b
    · rw [scanFuel, Ctl.bind_error (load_none hcell)]
    · have hmem : b ∈ r.cells.drop i := by
        rw [← List.head?_drop] at hcell
        exact List.mem_of_head? hcell
      have hb : ¬p b = true := by
        rw [h b hmem]
        exact Bool.false_ne_true
      rw [scanFuel, Ctl.bind_ok (load_some hcell), if_neg hb]
      apply ih
      intro c hc
      rw [← List.tail_drop] at hc
      exact h c (List.mem_of_mem_tail hc)

/-- Without such a cell the loop leaves the region. -/
theorem scan_beyond (h : ∀ c ∈ r.cells.drop i, p c = false) :
    (scan p i : Access β γ ρ ℕ) r = (.error .fault, r) := by
  rw [scan, Ctl.bind_ok (Ctl.gets_apply _ _)]
  exact scanFuel_beyond h

end Scan

/-! ## `retreat` -/

theorem retreat_apply {p : β → Bool} : ∀ {n : ℕ}, n ≤ r.cells.length →
    (retreat p n : Access β γ ρ ℕ) r = (.ok ((r.cells.take n).rdropWhile p).length, r) := by
  intro n
  induction n with
  | zero =>
    intro _
    rfl
  | succ n ih =>
    intro hn
    have hcell : r.cells[n]? = some r.cells[n] := List.getElem?_eq_getElem (by omega)
    rw [retreat, Ctl.bind_ok (load_some hcell), ← List.take_concat_get' _ _ (by omega)]
    split_ifs with hp
    · rw [List.rdropWhile_concat_pos _ _ _ hp]
      exact ih (by omega)
    · rw [List.rdropWhile_concat_neg _ _ _ hp, List.length_append, List.length_take]
      simp only [List.length_cons, List.length_nil]
      rw [Nat.min_eq_left (by omega)]
      rfl

end NetworkFs.Memory
