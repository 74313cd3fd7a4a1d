import Mathlib

/-!
# Overwriting a part of a list

`splice fill xs i ys` is `xs`, extended with `fill` up to `i` when it is shorter, with
the elements from `i` on replaced by `ys` and everything after them kept. With bytes
and zero this is what `pwrite` does to a file.

* `splice_of_le`: no extension is needed up to the end of `xs`.
* `splice_fill`: extending first and overwriting then is the same.
* `length_splice`, `getElem?_splice`: the length, and every element;
  `getElem?_splice_outside` and `getElem?_splice_inside` for the parts.
-/

namespace NetworkFs.Data

variable {α : Type} (fill : α)

/-- `xs`, extended with `fill` to at least `n` elements. -/
def extend (n : ℕ) (xs : List α) : List α := xs ++ List.replicate (n - xs.length) fill

/-- `xs` with the elements from `i` on replaced by `ys`. -/
def splice (xs : List α) (i : ℕ) (ys : List α) : List α :=
  (extend fill i xs).take i ++ ys ++ xs.drop (i + ys.length)

@[simp] theorem length_extend (n : ℕ) (xs : List α) :
    (extend fill n xs).length = max xs.length n := by
  rw [extend, List.length_append, List.length_replicate]
  omega

theorem extend_of_le {n : ℕ} {xs : List α} (h : n ≤ xs.length) : extend fill n xs = xs := by
  rw [extend, Nat.sub_eq_zero_of_le h, List.replicate_zero, List.append_nil]

theorem splice_of_le {xs : List α} {i : ℕ} (ys : List α) (h : i ≤ xs.length) :
    splice fill xs i ys = xs.take i ++ ys ++ xs.drop (i + ys.length) := by
  rw [splice, extend_of_le fill h]

@[simp] theorem length_splice (xs : List α) (i : ℕ) (ys : List α) :
    (splice fill xs i ys).length = max xs.length (i + ys.length) := by
  rw [splice, List.length_append, List.length_append, List.length_take, List.length_drop,
    length_extend]
  omega

theorem splice_nil {xs : List α} {i : ℕ} (h : i ≤ xs.length) : splice fill xs i [] = xs := by
  rw [splice_of_le fill [] h, List.append_nil, List.length_nil, Nat.add_zero, List.take_append_drop]

/-- Overwriting changes nothing exactly if the elements are there already. -/
theorem splice_eq_self_iff {xs : List α} {i : ℕ} {ys : List α} (hys : ys ≠ []) :
    splice fill xs i ys = xs ↔ i + ys.length ≤ xs.length ∧ (xs.drop i).take ys.length = ys := by
  have hpos : 0 < ys.length := List.length_pos_iff.mpr hys
  constructor
  · intro heq
    have hle : i + ys.length ≤ xs.length := by
      have hlen := congrArg List.length heq
      rw [length_splice] at hlen
      omega
    refine ⟨hle, ?_⟩
    rw [splice_of_le fill ys (by omega)] at heq
    rw [← heq, List.append_assoc, List.drop_left' (List.length_take_of_le (by omega)),
      List.take_left' rfl]
  · rintro ⟨hle, hthere⟩
    rw [splice_of_le fill ys (by omega)]
    nth_rewrite 1 [← hthere]
    rw [List.append_assoc, ← List.drop_drop, List.take_append_drop, List.take_append_drop]

theorem splice_head (xs ys : List α) : splice fill xs 0 ys = ys ++ xs.drop ys.length := by
  rw [splice_of_le fill ys (Nat.zero_le _), List.take_zero, List.nil_append, Nat.zero_add]

/-- Two parts one after the other at the beginning. -/
theorem splice_splice_head (xs ys zs : List α) :
    splice fill (splice fill xs 0 ys) ys.length zs = ys ++ zs ++ xs.drop (ys.length + zs.length) := by
  have hle : ys.length ≤ (ys ++ xs.drop ys.length).length := by
    rw [List.length_append]
    omega
  rw [splice_head, splice_of_le fill zs hle, List.take_left' rfl, ← List.drop_drop,
    List.drop_left' rfl, List.drop_drop]

/-- To append at the end is to overwrite there. -/
theorem splice_length (xs ys : List α) : splice fill xs xs.length ys = xs ++ ys := by
  rw [splice_of_le fill ys le_rfl, List.take_length, List.drop_eq_nil_of_le (by omega),
    List.append_nil]

/-- To overwrite beyond the end is to append the missing elements first. -/
theorem splice_fill {xs : List α} {i : ℕ} (ys : List α) (h : xs.length ≤ i) :
    splice fill (splice fill xs xs.length (List.replicate (i - xs.length) fill)) i ys =
      splice fill xs i ys := by
  have hext : splice fill xs xs.length (List.replicate (i - xs.length) fill) =
      extend fill i xs := splice_length fill xs _
  have hlen : (extend fill i xs).length = i := by
    rw [length_extend]
    omega
  rw [hext, splice_of_le fill ys (by omega), splice, List.drop_eq_nil_of_le (by omega),
    List.drop_eq_nil_of_le (by omega)]

/-- The elements before `i`, from `ys`, and after. -/
theorem getElem?_splice (xs : List α) (i : ℕ) (ys : List α) (k : ℕ) :
    (splice fill xs i ys)[k]? =
      if k < i then (extend fill i xs)[k]?
      else if k < i + ys.length then ys[k - i]? else xs[k]? := by
  have htake : ((extend fill i xs).take i).length = i := by
    rw [List.length_take, length_extend]
    omega
  rw [splice, List.append_assoc]
  split_ifs with h h'
  · rw [List.getElem?_append_left (by omega), List.getElem?_take_of_lt h]
  · rw [List.getElem?_append_right (by omega), htake, List.getElem?_append_left (by omega)]
  · rw [List.getElem?_append_right (by omega), htake, List.getElem?_append_right (by omega),
      List.getElem?_drop]
    congr 1
    omega

/-- The elements that `ys` does not cover. -/
theorem getElem?_splice_outside {xs : List α} {i : ℕ} {ys : List α} (h : i ≤ xs.length) {k : ℕ}
    (hk : ¬(i ≤ k ∧ k < i + ys.length)) : (splice fill xs i ys)[k]? = xs[k]? := by
  rw [getElem?_splice, extend_of_le fill h]
  split_ifs with hlt hlt'
  · rfl
  · exact absurd ⟨by omega, hlt'⟩ hk
  · rfl

/-- The elements of `ys`. -/
theorem getElem?_splice_inside (xs : List α) (i : ℕ) {ys : List α} {k : ℕ} (hk : k < ys.length) :
    (splice fill xs i ys)[i + k]? = ys[k]? := by
  rw [getElem?_splice, if_neg (by omega), if_pos (by omega), Nat.add_sub_cancel_left]

end NetworkFs.Data
