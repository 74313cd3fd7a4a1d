import Mathlib

/-!
# The tokens of a list

`tokens delim s` are the maximal runs of elements that are not delimiters, in order: what
`strtok_r` gives one after the other.

* `tokens_cons_delim`, `tokens_append`: how a list is split at its first delimiter.
* `mem_tokens_iff`: a token is a non-empty run that cannot be made longer.
-/

namespace NetworkFs.Text

variable {α : Type} {delim : α → Bool}

/-- The non-empty parts between delimiters. -/
def tokens (delim : α → Bool) (s : List α) : List (List α) := (s.splitOnP delim).filter (· ≠ [])

theorem tokens_nil : tokens delim ([] : List α) = [] := by
  simp [tokens]

theorem tokens_cons_delim {d : α} (hd : delim d = true) (s : List α) :
    tokens delim (d :: s) = tokens delim s := by
  rw [tokens, List.splitOnP_cons_eq_if_modifyHead, if_pos hd]
  simp [tokens]

theorem tokens_delims {front : List α} (hfront : ∀ c ∈ front, delim c = true) (s : List α) :
    tokens delim (front ++ s) = tokens delim s := by
  induction front with
  | nil => rfl
  | cons d front ih =>
    rw [List.cons_append, tokens_cons_delim (hfront d List.mem_cons_self)]
    exact ih fun c hc => hfront c (List.mem_cons_of_mem _ hc)

section Run

variable {token : List α} (hne : token ≠ []) (hrun : ∀ c ∈ token, delim c = false)

include hne hrun

theorem tokens_run : tokens delim token = [token] := by
  rw [tokens, List.splitOnP_eq_singleton hrun]
  simp [hne]

theorem tokens_append {d : α} (hd : delim d = true) (s : List α) :
    tokens delim (token ++ d :: s) = token :: tokens delim s := by
  rw [tokens, List.splitOnP_append_cons_of_forall_mem hrun d hd]
  simp [tokens, hne]

end Run

/-! ## Maximal runs -/

/-- `run` stands in `s` between the start or a delimiter and the end or a delimiter. -/
def Bounded (delim : α → Bool) (s run : List α) : Prop :=
  ∃ a b, s = a ++ run ++ b ∧ (∀ c ∈ run, delim c = false) ∧ (∀ d ∈ a.getLast?, delim d = true) ∧
    ∀ d ∈ b.head?, delim d = true

/-- A non-empty run of elements that are not delimiters and that cannot be made longer. -/
def MaximalRun (delim : α → Bool) (s run : List α) : Prop := run ≠ [] ∧ Bounded delim s run

theorem bounded_of_free {s run : List α} (hs : ∀ c ∈ s, delim c = false) :
    Bounded delim s run ↔ run = s := by
  constructor
  · rintro ⟨a, b, rfl, -, ha, hb⟩
    obtain rfl : a = [] := by
      rcases List.eq_nil_or_concat a with rfl | ⟨a, d, rfl⟩
      · rfl
      · have hd := ha d (by simp)
        rw [hs d (by simp)] at hd
        exact absurd hd Bool.false_ne_true
    rcases b with _ | ⟨d, b⟩
    · simp
    · have hd := hb d (by simp)
      rw [hs d (by simp)] at hd
      exact absurd hd Bool.false_ne_true
  · rintro rfl
    exact ⟨[], [], by simp, hs, by simp, by simp⟩

/-- The first delimiter of a list is determined. -/
theorem first_delim_unique : ∀ {xs ys as bs : List α} {d e : α}, (∀ c ∈ xs, delim c = false) →
    (∀ c ∈ ys, delim c = false) → delim d = true → delim e = true →
    xs ++ d :: as = ys ++ e :: bs → xs = ys ∧ as = bs := by
  intro xs
  induction xs with
  | nil =>
    intro ys as bs d e _ hys hd _ heq
    rcases ys with _ | ⟨y, ys⟩
    · exact ⟨rfl, (List.cons.inj heq).2⟩
    · obtain ⟨rfl, -⟩ := List.cons.inj heq
      rw [hys d List.mem_cons_self] at hd
      exact absurd hd Bool.false_ne_true
  | cons x xs ih =>
    intro ys as bs d e hxs hys hd he heq
    rcases ys with _ | ⟨y, ys⟩
    · obtain ⟨rfl, -⟩ := List.cons.inj heq
      rw [hxs x List.mem_cons_self] at he
      exact absurd he Bool.false_ne_true
    · obtain ⟨rfl, htail⟩ := List.cons.inj heq
      obtain ⟨rfl, rfl⟩ := ih (fun c hc => hxs c (List.mem_cons_of_mem _ hc))
        (fun c hc => hys c (List.mem_cons_of_mem _ hc)) hd he htail
      exact ⟨rfl, rfl⟩

/-- A list that ends with a delimiter, up to the first one. -/
theorem first_delim {a : List α} (hne : a ≠ []) (ha : ∀ d ∈ a.getLast?, delim d = true) :
    ∃ ys e rest, a = ys ++ e :: rest ∧ (∀ c ∈ ys, delim c = false) ∧ delim e = true ∧
      ∀ d ∈ rest.getLast?, delim d = true := by
  induction a with
  | nil => exact absurd rfl hne
  | cons x a ih =>
    cases hx : delim x with
    | true =>
      refine ⟨[], x, a, rfl, by simp, hx, fun d hd => ha d ?_⟩
      rcases a with _ | ⟨y, a⟩
      · exact absurd hd (by simp)
      · rw [List.getLast?_cons_cons]
        exact hd
    | false =>
      rcases a with _ | ⟨y, a⟩
      · have := ha x (by simp)
        rw [hx] at this
        exact absurd this Bool.false_ne_true
      · obtain ⟨ys, e, rest, heq, hys, he, hrest⟩ := ih (List.cons_ne_nil _ _) fun d hd =>
          ha d (by rw [List.getLast?_cons_cons]; exact hd)
        refine ⟨x :: ys, e, rest, by rw [heq]; rfl, fun c hc => ?_, he, hrest⟩
        rcases List.mem_cons.mp hc with rfl | hc
        · exact hx
        · exact hys c hc

theorem bounded_append {xs as run : List α} {d : α} (hxs : ∀ c ∈ xs, delim c = false)
    (hd : delim d = true) :
    Bounded delim (xs ++ d :: as) run ↔ run = xs ∨ Bounded delim as run := by
  constructor
  · rintro ⟨a, b, heq, hrun, ha, hb⟩
    rcases eq_or_ne a [] with rfl | hne
    · rcases b with _ | ⟨e, b⟩
      · have hmem : d ∈ run := by
          rw [List.nil_append, List.append_nil] at heq
          rw [← heq]
          simp
        rw [hrun d hmem] at hd
        exact absurd hd Bool.false_ne_true
      · exact .inl (first_delim_unique hxs hrun hd (hb e (by simp)) heq).1.symm
    · obtain ⟨ys, e, rest, rfl, hys, he, hrest⟩ := first_delim hne ha
      rw [List.append_assoc, List.append_assoc, List.cons_append] at heq
      obtain ⟨-, rfl⟩ := first_delim_unique hxs hys hd he heq
      exact .inr ⟨rest, b, by rw [List.append_assoc], hrun, hrest, hb⟩
  · rintro (rfl | ⟨a, b, rfl, hrun, ha, hb⟩)
    · exact ⟨[], d :: as, by simp, hxs, by simp, by simpa using hd⟩
    · refine ⟨xs ++ d :: a, b, by simp, hrun, fun e he => ?_, hb⟩
      rcases List.eq_nil_or_concat a with rfl | ⟨a, x, rfl⟩
      · obtain rfl : d = e := by simpa using he
        exact hd
      · have hlast : xs ++ d :: a.concat x = (xs ++ d :: a) ++ [x] := by simp
        rw [hlast, List.getLast?_concat] at he
        exact ha e (by simpa using he)

theorem mem_splitOnP_iff (s : List α) : ∀ run, run ∈ s.splitOnP delim ↔ Bounded delim s run := by
  induction hlength : s.length using Nat.strong_induction_on generalizing s with
  | _ n ih =>
    intro run
    by_cases hfree : ∀ c ∈ s, delim c = false
    · rw [List.splitOnP_eq_singleton hfree, List.mem_singleton, bounded_of_free hfree]
    · -- split at the first delimiter
      obtain ⟨xs, d, as, rfl, hxs, hd⟩ : ∃ xs d as, s = xs ++ d :: as ∧
          (∀ c ∈ xs, delim c = false) ∧ delim d = true := by
        push Not at hfree
        obtain ⟨c, hc, hdelim⟩ := hfree
        obtain ⟨as, bs, rfl⟩ := List.append_of_mem hc
        have hdelim' : delim c = true := by simpa using hdelim
        obtain ⟨ys, e, rest, heq, hys, he, -⟩ := first_delim (a := as ++ [c]) (by simp)
          (by simpa using hdelim')
        refine ⟨ys, e, rest ++ bs, ?_, hys, he⟩
        rw [← List.cons_append, ← List.append_assoc, ← heq]
        simp
      rw [List.splitOnP_append_cons_of_forall_mem hxs d hd, List.mem_cons, bounded_append hxs hd,
        ih as.length (by rw [← hlength]; simp; omega) as rfl]

/-- The tokens are the maximal runs. -/
theorem mem_tokens_iff {s run : List α} : run ∈ tokens delim s ↔ MaximalRun delim s run := by
  rw [tokens, List.mem_filter, mem_splitOnP_iff, MaximalRun, and_comm]
  simp

end NetworkFs.Text
