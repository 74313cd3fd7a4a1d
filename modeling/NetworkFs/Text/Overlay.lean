import Mathlib

/-!
# Overwriting parts of a text

A span is a range of positions of a text. To overlay a text is to put one letter at every
position that some span covers.

* `overlay_eq_iff`: two overlays of one text agree exactly when the letters that one of them
  changes are covered by both.
* `overlay_single`, `overlay_shift`: one span, and a text behind another.
* `overlay_congr`: texts that agree outside the spans have the same overlay.
-/

namespace NetworkFs.Text

/-- The positions from the first number to the one before the second. -/
abbrev Span := ℕ × ℕ

/-- Position `i` is in one of the spans. -/
def Covered (spans : List Span) (i : ℕ) : Prop := ∃ s ∈ spans, s.1 ≤ i ∧ i < s.2

instance (spans : List Span) (i : ℕ) : Decidable (Covered spans i) :=
  inferInstanceAs (Decidable (∃ s ∈ spans, s.1 ≤ i ∧ i < s.2))

/-- `text` with `fill` at every covered position. -/
def overlay (fill : Char) (spans : List Span) (text : List Char) : List Char :=
  text.mapIdx fun i c => if Covered spans i then fill else c

/-- The spans of a text that stands behind `n` other letters. -/
def shift (n : ℕ) (spans : List Span) : List Span := spans.map fun s => (n + s.1, n + s.2)

variable {fill : Char} {spans spans' : List Span} {text text' : List Char} {i n a b : ℕ}

theorem not_covered_nil : ¬ Covered [] i := by
  rintro ⟨s, hs, -⟩
  cases hs

theorem covered_single : Covered [(a, b)] i ↔ a ≤ i ∧ i < b := by
  simp [Covered]

theorem covered_shift : Covered (shift n spans) i ↔ n ≤ i ∧ Covered spans (i - n) := by
  constructor
  · rintro ⟨s, hs, hlow, hhigh⟩
    obtain ⟨r, hr, rfl⟩ := List.mem_map.mp hs
    simp only at hlow hhigh
    exact ⟨by omega, r, hr, by omega, by omega⟩
  · rintro ⟨hn, r, hr, hlow, hhigh⟩
    refine ⟨_, List.mem_map.mpr ⟨r, hr, rfl⟩, ?_, ?_⟩
    · show n + r.1 ≤ i
      omega
    · show i < n + r.2
      omega

@[simp] theorem length_overlay : (overlay fill spans text).length = text.length :=
  List.length_mapIdx

theorem getElem?_overlay :
    (overlay fill spans text)[i]? = text[i]?.map fun c => if Covered spans i then fill else c :=
  List.getElem?_mapIdx

theorem overlay_nil : overlay fill [] text = text := by
  apply List.ext_getElem?
  intro i
  rw [getElem?_overlay]
  simp [not_covered_nil]

/-- A letter that is not `fill` shows whether its position is covered. -/
theorem overlay_eq_iff :
    overlay fill spans text = overlay fill spans' text ↔
      ∀ i c, text[i]? = some c → c ≠ fill → (Covered spans i ↔ Covered spans' i) := by
  constructor
  · intro heq i c hc hne
    have hi := congrArg (fun t : List Char => t[i]?) heq
    simp only [getElem?_overlay, hc, Option.map_some, Option.some.injEq] at hi
    constructor
    · intro hcov
      by_contra hnot
      rw [if_pos hcov, if_neg hnot] at hi
      exact hne hi.symm
    · intro hcov
      by_contra hnot
      rw [if_neg hnot, if_pos hcov] at hi
      exact hne hi
  · intro hall
    apply List.ext_getElem?
    intro i
    rw [getElem?_overlay, getElem?_overlay]
    rcases hc : text[i]? with _ | c
    · rfl
    · simp only [Option.map_some, Option.some.injEq]
      by_cases hne : c = fill
      · rw [hne, ite_self, ite_self]
      · rw [if_congr (hall i c hc hne) rfl rfl]

theorem overlay_single (hab : a ≤ b) (hb : b ≤ text.length) :
    overlay fill [(a, b)] text = text.take a ++ List.replicate (b - a) fill ++ text.drop b := by
  have htake : (text.take a).length = a := List.length_take_of_le (hab.trans hb)
  apply List.ext_getElem?
  intro i
  rw [getElem?_overlay]
  simp only [covered_single]
  by_cases hlow : i < a
  · have hout : ¬ (a ≤ i ∧ i < b) := by omega
    simp only [if_neg hout]
    rw [List.append_assoc, List.getElem?_append_left (by omega), List.getElem?_take_of_lt hlow]
    simp
  · by_cases hhigh : i < b
    · have hin : a ≤ i ∧ i < b := by omega
      simp only [if_pos hin]
      rw [List.append_assoc, List.getElem?_append_right (by omega),
        List.getElem?_append_left (by simp [htake]; omega), List.getElem?_replicate,
        if_pos (by omega), List.getElem?_eq_getElem (by omega)]
      rfl
    · have hout : ¬ (a ≤ i ∧ i < b) := by omega
      have hlen : (text.take a ++ List.replicate (b - a) fill).length = b := by
        simp [htake]
        omega
      simp only [if_neg hout]
      rw [List.getElem?_append_right (by omega), hlen, List.getElem?_drop,
        Nat.add_sub_cancel' (by omega)]
      simp

theorem overlay_shift (pre : List Char) (hn : pre.length = n) :
    overlay fill (shift n spans) (pre ++ text) = pre ++ overlay fill spans text := by
  apply List.ext_getElem?
  intro i
  rw [getElem?_overlay]
  simp only [covered_shift]
  by_cases hi : i < n
  · have hout : ¬ (n ≤ i ∧ Covered spans (i - n)) := by omega
    simp only [if_neg hout]
    rw [List.getElem?_append_left (by omega), List.getElem?_append_left (by omega)]
    simp
  · rw [List.getElem?_append_right (by omega), List.getElem?_append_right (by omega), hn,
      getElem?_overlay]
    have hin : n ≤ i := by omega
    simp only [hin, true_and]

/-- Texts of one length that agree outside the spans are the same under the overlay. -/
theorem overlay_congr (hlen : text.length = text'.length)
    (hout : ∀ i, ¬ Covered spans i → text[i]? = text'[i]?) :
    overlay fill spans text = overlay fill spans text' := by
  apply List.ext_getElem?
  intro i
  rw [getElem?_overlay, getElem?_overlay]
  by_cases hcov : Covered spans i
  · simp only [if_pos hcov]
    by_cases hi : i < text.length
    · rw [List.getElem?_eq_getElem hi, List.getElem?_eq_getElem (hlen ▸ hi)]
      rfl
    · rw [List.getElem?_eq_none (by omega), List.getElem?_eq_none (by omega)]
  · simp only [if_neg hcov]
    rw [hout i hcov]

end NetworkFs.Text
