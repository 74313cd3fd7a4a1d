import NetworkFs.Memory.Region
import NetworkFs.Text.Tokens

/-!
# Strings with a NUL in a region of memory

The string functions of the C library on the cells of a `Region`, every access checked.
`HasString r i s`: the string at the cell `i` is `s`. With that none of them faults, and
what they return is the list function on `s`.

* `strlen_apply`, `strchr_found`, `strchr_absent`
* `forTokens_apply`: the loop over `strtok_r` runs over the tokens, in order.
-/

namespace NetworkFs.Memory

open Control Text

/-- The character that ends a string. -/
def nul : Char := Char.ofNat 0

variable {γ ρ : Type}

/-- The string at the cell `i` is `s`. -/
def HasString (r : Region Char γ) (i : ℕ) (s : List Char) : Prop :=
  nul ∉ s ∧ ∃ tail, r.cells.drop i = s ++ nul :: tail

/-! ## The functions -/

/-- `strlen(s)`. -/
def strlen (i : ℕ) : Access Char γ ρ ℕ := do
  let stop ← scan (· == nul) i
  pure (stop - i)

/-- `strchr(s, c)`, for another character than the NUL. -/
def strchr (i : ℕ) (c : Char) : Access Char γ ρ (Option ℕ) := do
  let stop ← scan (fun d => d == c || d == nul) i
  let d ← load stop
  pure (if d == c then some stop else none)

/-- The `n` characters from the cell `i` on, which were loaded before. -/
def textAt (i n : ℕ) : Access Char γ ρ (List Char) := Ctl.gets fun r => (r.cells.drop i).take n

/-- Put a NUL at the end of a token, unless the string ends there: where to go on. -/
def endToken (stop : ℕ) : Access Char γ ρ ℕ := do
  let c ← load stop
  if c == nul then pure stop else do
    store stop nul
    pure (stop + 1)

/-- `for (tok = strtok_r(s, delim, &save); tok; tok = strtok_r(NULL, delim, &save)) body`, with at
    most `fuel` tokens. A round goes on by at least one cell, so there are fewer than cells. -/
def forTokens (delim : Char → Bool) (body : List Char → Access Char γ ρ Unit) :
    ℕ → ℕ → Access Char γ ρ Unit
  | 0, _ => Ctl.leave .fault
  | fuel + 1, i => do
    let start ← scan (fun c => !delim c) i
    let c ← load start
    if c == nul then pure () else do
      let stop ← scan (fun c => delim c || c == nul) start
      let next ← endToken stop
      let token ← textAt start (stop - start)
      body token
      forTokens delim body fuel next

/-! ## Strings -/

section Strings

variable {r : Region Char γ} {i : ℕ} {s : List Char}

/-- What stands before the first NUL is a string. -/
theorem hasString_of_drop {text tail : List Char} (h : r.cells.drop i = text ++ nul :: tail) :
    HasString r i (text.takeWhile (· ≠ nul)) := by
  refine ⟨fun hmem => ?_, ?_⟩
  · have hne := List.mem_takeWhile_imp hmem
    simp at hne
  · obtain ⟨rest, hsplit, hrest⟩ := takeWhile_split (· ≠ nul) text
    rcases rest with _ | ⟨c, rest⟩
    · refine ⟨tail, ?_⟩
      rw [List.append_nil] at hsplit
      rw [h, ← hsplit]
    · obtain rfl : c = nul := by simpa using hrest c rest rfl
      refine ⟨rest ++ nul :: tail, ?_⟩
      rw [h, ← List.cons_append, ← List.append_assoc, ← hsplit]

theorem HasString.drop (h : HasString r i s) {front rest : List Char} (hs : s = front ++ rest) :
    HasString r (i + front.length) rest := by
  obtain ⟨hnul, tail, htail⟩ := h
  subst hs
  refine ⟨fun hmem => hnul (List.mem_append_right _ hmem), tail, ?_⟩
  rw [← List.drop_drop, htail, List.append_assoc, List.drop_left]

/-- The first character, or the NUL of an empty string. -/
theorem HasString.load (h : HasString r i s) :
    (load i : Access Char γ ρ Char) r = (.ok (s.head?.getD nul), r) := by
  obtain ⟨-, tail, htail⟩ := h
  refine load_some ?_
  rw [← List.head?_drop, htail]
  cases s <;> rfl

/-- A loop that stops at the NUL at the latest. -/
theorem HasString.scan (h : HasString r i s) {p : Char → Bool} (hp : p nul = true) :
    (scan p i : Access Char γ ρ ℕ) r = (.ok (i + (s.takeWhile (!p ·)).length), r) := by
  obtain ⟨-, tail, htail⟩ := h
  have hstops : ∃ c ∈ r.cells.drop i, p c = true := by
    rw [htail]
    exact ⟨nul, by simp, hp⟩
  have hfront : (s ++ nul :: tail).takeWhile (!p ·) = s.takeWhile (!p ·) := by
    rw [List.takeWhile_append]
    split_ifs with hall
    · simp [hp, List.IsPrefix.eq_of_length (List.takeWhile_prefix _) hall]
    · rfl
  rw [scan_takeWhile hstops, htail, hfront]

theorem strlen_apply (h : HasString r i s) :
    (strlen i : Access Char γ ρ ℕ) r = (.ok s.length, r) := by
  have hall : s.takeWhile (fun c => !(c == nul)) = s := by
    rw [List.takeWhile_eq_self_iff]
    intro c hc
    have : c ≠ nul := fun heq => h.1 (heq ▸ hc)
    simp [this]
  have hscan := h.scan (ρ := ρ) (p := (· == nul)) rfl
  rw [hall] at hscan
  rw [strlen, Ctl.bind_ok hscan, Nat.add_sub_cancel_left]
  rfl

theorem textAt_apply {tail : List Char} (h : r.cells.drop i = s ++ tail) :
    (textAt i s.length : Access Char γ ρ (List Char)) r = (.ok s, r) := by
  rw [textAt, Ctl.gets_apply, h, List.take_left]

theorem strchr_found {c : Char} {rest : List Char} (h : HasString r i (s ++ c :: rest)) (hc : c ∉ s) :
    (strchr i c : Access Char γ ρ (Option ℕ)) r = (.ok (some (i + s.length)), r) := by
  have hfront : (s ++ c :: rest).takeWhile (fun d => !(d == c || d == nul)) = s := by
    rw [List.takeWhile_append_of_pos]
    · simp
    · intro d hd
      have hdc : d ≠ c := fun heq => hc (heq ▸ hd)
      have hdn : d ≠ nul := fun heq => h.1 (List.mem_append_left _ (heq ▸ hd))
      simp [hdc, hdn]
  have hscan := h.scan (ρ := ρ) (p := fun d => d == c || d == nul) (by simp)
  rw [hfront] at hscan
  rw [strchr, Ctl.bind_ok hscan, Ctl.bind_ok (h.drop rfl).load]
  simp

theorem strchr_absent {c : Char} (h : HasString r i s) (hc : c ∉ s) (hn : c ≠ nul) :
    (strchr i c : Access Char γ ρ (Option ℕ)) r = (.ok none, r) := by
  have hall : s.takeWhile (fun d => !(d == c || d == nul)) = s := by
    rw [List.takeWhile_eq_self_iff]
    intro d hd
    have hdc : d ≠ c := fun heq => hc (heq ▸ hd)
    have hdn : d ≠ nul := fun heq => h.1 (heq ▸ hd)
    simp [hdc, hdn]
  have hscan := h.scan (ρ := ρ) (p := fun d => d == c || d == nul) (by simp)
  rw [hall] at hscan
  rw [strchr, Ctl.bind_ok hscan, Ctl.bind_ok (h.drop (List.append_nil s).symm).load]
  simp [Ne.symm hn]

/-! ## The loop over `strtok_r` -/

/-- To put a character at the end of what stands before it changes nothing before it. -/
theorem drop_set_after {cells front tail : List Char} {c d : Char}
    (h : cells.drop i = front ++ c :: tail) :
    (cells.set (i + front.length) d).drop i = front ++ d :: tail := by
  rw [List.drop_set, if_neg (by omega), Nat.add_sub_cancel_left, h, List.set_append_right _ _ le_rfl]
  simp

/-- A NUL in the place of a character makes two strings. -/
theorem store_cut {front rest : List Char} {d : Char} (h : HasString r i (front ++ d :: rest)) :
    ∃ cells, (store (i + front.length) nul : Access Char γ ρ Unit) r = (.ok (), ⟨cells, r.rest⟩) ∧
      HasString (⟨cells, r.rest⟩ : Region Char γ) i front ∧
      HasString (⟨cells, r.rest⟩ : Region Char γ) (i + front.length + 1) rest := by
  obtain ⟨hnul, tail, htail⟩ := h
  rw [List.append_assoc, List.cons_append] at htail
  have hinside : i + front.length < r.cells.length := by
    have hlength := congrArg List.length htail
    simp only [List.length_drop, List.length_append, List.length_cons] at hlength
    omega
  have hset := drop_set_after (d := nul) htail
  refine ⟨r.cells.set (i + front.length) nul, store_inside hinside, ⟨?_, _, hset⟩, ?_, tail, ?_⟩
  · intro hmem
    exact hnul (List.mem_append_left _ hmem)
  · intro hmem
    exact hnul (List.mem_append_right _ (List.mem_cons_of_mem _ hmem))
  · show (r.cells.set (i + front.length) nul).drop (i + front.length + 1) = _
    rw [Nat.add_assoc, ← List.drop_drop, hset, List.drop_append]
    simp

/-- The end of a token, before another character: it is cut off. -/
theorem endToken_delim {token rest : List Char} {d : Char} (h : HasString r i (token ++ d :: rest)) :
    ∃ cells, (endToken (i + token.length) : Access Char γ ρ ℕ) r =
        (.ok (i + token.length + 1), ⟨cells, r.rest⟩) ∧
      HasString (⟨cells, r.rest⟩ : Region Char γ) (i + token.length + 1) rest ∧
      ∃ tail, cells.drop i = token ++ tail := by
  have hd : d ≠ nul := fun heq => h.1 (by rw [heq]; simp)
  obtain ⟨cells, hstore, ⟨-, tail, htail⟩, hrest⟩ := store_cut (ρ := ρ) h
  refine ⟨cells, ?_, hrest, _, htail⟩
  rw [endToken, Ctl.bind_ok (h.drop rfl).load, if_neg (by simpa using hd), Ctl.bind_ok hstore]
  rfl

/-- The loop over the tokens of a string, with a body that works outside of the region. -/
theorem forTokens_apply {delim : Char → Bool} (hdelim : delim nul = false) (f : List Char → γ → γ) :
    ∀ {fuel i : ℕ} {s : List Char} {r : Region Char γ}, s.length < fuel → HasString r i s →
      ∃ cells, (forTokens delim (fun token => modifyRest (f token)) fuel i : Access Char γ ρ Unit) r =
        (.ok (), ⟨cells, (tokens delim s).foldl (fun x token => f token x) r.rest⟩) := by
  intro fuel
  induction fuel with
  | zero =>
    intro i s r hfuel
    omega
  | succ fuel ih =>
    intro i s r hfuel h
    obtain ⟨rest, hsplit, hrest⟩ := takeWhile_split delim s
    have hfront : ∀ c ∈ s.takeWhile delim, delim c = true := fun c hc => List.mem_takeWhile_imp hc
    have hstart := h.scan (ρ := ρ) (p := fun c => !delim c) (by simp [hdelim])
    simp only [Bool.not_not] at hstart
    have hrun := h.drop hsplit
    obtain ⟨front, hfronteq⟩ : ∃ front, front = s.takeWhile delim := ⟨_, rfl⟩
    rw [← hfronteq] at hsplit hfront hstart hrun
    subst hsplit
    rw [tokens_delims hfront, forTokens, Ctl.bind_ok hstart, Ctl.bind_ok hrun.load]
    rcases rest with _ | ⟨c, rest⟩
    · rw [tokens_nil]
      exact ⟨r.cells, rfl⟩
    · have hc : c ≠ nul := fun heq => hrun.1 (by rw [heq]; exact List.mem_cons_self)
      have hcdelim : delim c = false := hrest c rest rfl
      have hstop := hrun.scan (ρ := ρ) (p := fun c => delim c || c == nul) (by simp)
      obtain ⟨rest₂, hsplit₂, hrest₂⟩ :=
        takeWhile_split (fun c => !(delim c || c == nul)) (c :: rest)
      obtain ⟨token, htoken⟩ : ∃ token,
        token = (c :: rest).takeWhile (fun c => !(delim c || c == nul)) := ⟨_, rfl⟩
      have hne : token ≠ [] := by
        rw [htoken, List.takeWhile_cons, if_pos (by simp [hc, hcdelim])]
        exact List.cons_ne_nil _ _
      have hfree : ∀ d ∈ token, delim d = false := by
        intro d hd
        rw [htoken] at hd
        have hboth := List.mem_takeWhile_imp hd
        simp only [Bool.not_or, Bool.and_eq_true, Bool.not_eq_true'] at hboth
        exact hboth.1
      rw [← htoken] at hstop hsplit₂
      rw [if_neg (by simpa using hc), Ctl.bind_ok hstop, Nat.add_sub_cancel_left]
      rw [hsplit₂] at hrun hfuel ⊢
      rw [List.length_append, List.length_append] at hfuel
      rcases rest₂ with _ | ⟨d, rest₂⟩
      · -- the token ends the string
        rw [List.append_nil] at hrun ⊢
        have hlast : HasString r (i + front.length + token.length) [] :=
          hrun.drop (List.append_nil token).symm
        have hend : (endToken (i + front.length + token.length) : Access Char γ ρ ℕ) r =
            (.ok (i + front.length + token.length), r) := by
          rw [endToken, Ctl.bind_ok hlast.load]
          rfl
        obtain ⟨-, tail, htail⟩ := hrun
        rw [Ctl.bind_ok hend, Ctl.bind_ok (textAt_apply htail), Ctl.bind_ok (modifyRest_apply _),
          tokens_run hne hfree]
        have hlength : token.length ≠ 0 := fun hzero => hne (List.eq_nil_of_length_eq_zero hzero)
        obtain ⟨cells, hdone⟩ := ih (s := []) (r := ⟨r.cells, f token r.rest⟩) (by simp; omega) hlast
        rw [tokens_nil] at hdone
        exact ⟨cells, hdone⟩
      · have hd : delim d = true := by
          have hdn : d ≠ nul := fun heq => hrun.1 (by rw [heq]; simp)
          simpa [hdn] using hrest₂ d rest₂ rfl
        obtain ⟨cells, hend, hstring, tail, htail⟩ := endToken_delim (ρ := ρ) hrun
        have htext : (textAt (i + front.length) token.length : Access Char γ ρ (List Char))
            ⟨cells, r.rest⟩ = (.ok token, ⟨cells, r.rest⟩) := textAt_apply htail
        rw [Ctl.bind_ok hend, Ctl.bind_ok htext, Ctl.bind_ok (modifyRest_apply _),
          tokens_append hne hfree hd]
        rw [List.length_cons] at hfuel
        exact ih (r := ⟨cells, f token r.rest⟩) (by omega) hstring

end Strings

end NetworkFs.Memory
