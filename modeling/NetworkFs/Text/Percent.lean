import Mathlib

/-!
# Percent-encoding

A character of a URL stands for itself or is written as `%` and two hexadecimal digits.

* `percentDecode`: every well-formed `%hh` is decoded, all else is left as it is.
* `Encodes`: a text is some percent-encoding of a name; which characters are escaped,
  and in which case the digits are, is free.
* `percentDecode_append`: an encoded name is read back, and the rest is left.
-/

namespace NetworkFs.Text

/-- The value of a hexadecimal digit. -/
def hexValue (c : Char) : Option ℕ :=
  if '0' ≤ c ∧ c ≤ '9' then some (c.toNat - 48)
  else if 'A' ≤ c ∧ c ≤ 'F' then some (c.toNat - 55)
  else if 'a' ≤ c ∧ c ≤ 'f' then some (c.toNat - 87)
  else none

/-- The character that two hexadecimal digits stand for. -/
def hexPair (a b : Char) : Option Char := do
  let high ← hexValue a
  let low ← hexValue b
  pure (Char.ofNat (16 * high + low))

/-- Every `%hh` replaced by its character. -/
def percentDecode : List Char → List Char
  | c :: a :: b :: rest =>
    if c = '%' then
      match hexPair a b with
      | some d => d :: percentDecode rest
      | none => c :: percentDecode (a :: b :: rest)
    else c :: percentDecode (a :: b :: rest)
  | [c, a] => [c, a]
  | [c] => [c]
  | [] => []

/-- `text` is a percent-encoding of `name`. -/
inductive Encodes : List Char → List Char → Prop where
  | nil : Encodes [] []
  | literal {c : Char} {name text : List Char} (hc : c ≠ '%') (h : Encodes name text) :
    Encodes (c :: name) (c :: text)
  | escape {a b c : Char} {name text : List Char} (hc : hexPair a b = some c)
    (h : Encodes name text) : Encodes (c :: name) ('%' :: a :: b :: text)

theorem percentDecode_literal {c : Char} (hc : c ≠ '%') (text : List Char) :
    percentDecode (c :: text) = c :: percentDecode text := by
  match text with
  | [] => rfl
  | [a] => rfl
  | a :: b :: rest => rw [percentDecode, if_neg hc]

theorem percentDecode_escape {a b c : Char} (hc : hexPair a b = some c) (text : List Char) :
    percentDecode ('%' :: a :: b :: text) = c :: percentDecode text := by
  rw [percentDecode, if_pos rfl, hc]

/-- An encoded name is read back, whatever follows it. -/
theorem percentDecode_append {name text : List Char} (h : Encodes name text) (rest : List Char) :
    percentDecode (text ++ rest) = name ++ percentDecode rest := by
  induction h with
  | nil => rfl
  | literal hc h ih => rw [List.cons_append, percentDecode_literal hc, ih, List.cons_append]
  | escape hc h ih =>
    rw [List.cons_append, List.cons_append, List.cons_append, percentDecode_escape hc, ih,
      List.cons_append]

/-- Where no escape starts, the `%` stands for itself. -/
theorem percentDecode_percent {text : List Char}
    (h : ∀ a b rest, text = a :: b :: rest → hexPair a b = none) :
    percentDecode ('%' :: text) = '%' :: percentDecode text := by
  match text with
  | [] => rfl
  | [a] => rfl
  | a :: b :: rest => rw [percentDecode, if_pos rfl, h a b rest rfl]

theorem hexPair_eq_none_left {a : Char} (h : hexValue a = none) (b : Char) : hexPair a b = none := by
  rw [hexPair, h]
  rfl

theorem hexPair_eq_none_right {b : Char} (h : hexValue b = none) (a : Char) : hexPair a b = none := by
  rw [hexPair, h]
  cases hexValue a <;> rfl

/-- No escape reaches over a character that is neither `%` nor a digit. -/
theorem percentDecode_append_cons {c : Char} (hc : c ≠ '%') (hhex : hexValue c = none)
    (text rest : List Char) :
    percentDecode (text ++ c :: rest) = percentDecode text ++ c :: percentDecode rest := by
  induction hn : text.length using Nat.strong_induction_on generalizing text with
  | h n ih =>
    subst hn
    match text with
    | [] => exact percentDecode_literal hc rest
    | d :: text =>
      by_cases hd : d = '%'
      swap
      · rw [List.cons_append, percentDecode_literal hd, percentDecode_literal hd,
          ih text.length (Nat.lt_succ_self _) text rfl, List.cons_append]
      subst hd
      have hplain (h : ∀ a b after, text ++ c :: rest = a :: b :: after → hexPair a b = none)
          (h' : ∀ a b after, text = a :: b :: after → hexPair a b = none) :
          percentDecode ('%' :: text ++ c :: rest) =
            percentDecode ('%' :: text) ++ c :: percentDecode rest := by
        rw [List.cons_append, percentDecode_percent h, percentDecode_percent h',
          ih text.length (Nat.lt_succ_self _) text rfl, List.cons_append]
      match text with
      | [] =>
        refine hplain (fun a b after heq => ?_) nofun
        rw [← (List.cons.inj heq).1]
        exact hexPair_eq_none_left hhex b
      | [x] =>
        refine hplain (fun a b after heq => ?_) nofun
        rw [← (List.cons.inj (List.cons.inj heq).2).1]
        exact hexPair_eq_none_right hhex a
      | x :: y :: text =>
        rcases hpair : hexPair x y with _ | e
        · refine hplain (fun a b after heq => ?_) fun a b after heq => ?_
          · rw [← (List.cons.inj heq).1, ← (List.cons.inj (List.cons.inj heq).2).1]
            exact hpair
          · rw [← (List.cons.inj heq).1, ← (List.cons.inj (List.cons.inj heq).2).1]
            exact hpair
        · show percentDecode ('%' :: x :: y :: (text ++ c :: rest)) = _
          rw [percentDecode_escape hpair, percentDecode_escape hpair,
            ih text.length (by simp only [List.length_cons]; omega) text rfl, List.cons_append]

example : percentDecode "a%2Fb%2".toList = "a/b%2".toList := by decide

end NetworkFs.Text
