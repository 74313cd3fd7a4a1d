import Mathlib

/-!
# Printing and reading numbers

`strtol` on lists of characters, the conversions `%o`, `%d` and `%zd` of
`printf`, and the truncation of `snprintf`.

* `strtol_toDigits`, `strtol_showInt`: a printed number that fits in a `long`,
  followed by anything that does not go on with a digit, is read back and the
  rest is left.
-/

namespace NetworkFs.Text

/-- `isspace` in the C locale. -/
def isSpace (c : Char) : Bool :=
  c == ' ' || (9 ≤ c.toNat && c.toNat ≤ 13)

/-- The digits `strtol` accepts in a base up to ten. -/
def isDigitOf (base : ℕ) (c : Char) : Bool := c.isDigit && decide (c.toNat - 48 < base)

/-- `LONG_MAX` for a 64-bit `long`. -/
def longMax : ℤ := 2 ^ 63 - 1

/-- A value out of range is replaced by `LONG_MIN` or `LONG_MAX`. -/
def clampLong (x : ℤ) : ℤ := max (-(2 ^ 63)) (min x longMax)

/-- The sign `strtol` reads after the white space: is it negative, and the rest. -/
def takeSign (s : List Char) : Bool × List Char :=
  match s with
  | '-' :: r => (true, r)
  | '+' :: r => (false, r)
  | r => (false, r)

/-- `strtol(s, &end, base)`: the value and the text at `end`. Without a digit
    the value is `0` and `end` is `s`. -/
def strtol (base : ℕ) (s : List Char) : ℤ × List Char :=
  let sign := takeSign (s.dropWhile isSpace)
  let digits := sign.2.takeWhile (isDigitOf base)
  let value : ℤ := Nat.ofDigitChars base digits 0
  if digits = [] then (0, s)
  else (clampLong (if sign.1 then -value else value), sign.2.dropWhile (isDigitOf base))

/-- `%d` and `%zd`. -/
def showInt (x : ℤ) : List Char :=
  if x < 0 then '-' :: Nat.toDigits 10 x.natAbs else Nat.toDigits 10 x.natAbs

/-- What `snprintf(buf, n, ...)` leaves of a text in `buf`. -/
def snprintf (n : ℕ) (s : List Char) : List Char := s.take (n - 1)

/-! ## Digits -/

theorem isDigitOf_of_mem_toDigits {b n : ℕ} (hb : 1 < b) (hb' : b ≤ 10) :
    ∀ c ∈ Nat.toDigits b n, isDigitOf b c = true := by
  induction n using Nat.strong_induction_on with
  | _ n ih =>
    intro c hc
    have key : ∀ d < b, isDigitOf b d.digitChar = true := by
      intro d hd
      have h10 : d < 10 := by omega
      have h48 := Nat.toNat_digitChar_sub_48_of_lt_ten h10
      have hdig : d.digitChar.isDigit = true := by interval_cases d <;> rfl
      simp [isDigitOf, hdig, h48, hd]
    rcases Nat.lt_or_ge n b with h | h
    · rw [Nat.toDigits_of_lt_base h, List.mem_singleton] at hc
      rw [hc]
      exact key n h
    · rw [Nat.toDigits_of_base_le hb h, List.mem_append, List.mem_singleton] at hc
      rcases hc with hc | hc
      · exact ih (n / b) (Nat.div_lt_self (by omega) hb) c hc
      · rw [hc]
        exact key _ (Nat.mod_lt _ (by omega))

/-- A digit is neither white space nor a sign. -/
theorem isDigitOf_plain {b : ℕ} {c : Char} (h : isDigitOf b c = true) :
    isSpace c = false ∧ c ≠ '-' ∧ c ≠ '+' := by
  simp only [isDigitOf, Char.isDigit, Bool.and_eq_true, decide_eq_true_eq] at h
  have h1 : 48 ≤ c.toNat := by simpa [UInt32.le_iff_toNat_le] using h.1.1
  refine ⟨?_, ?_, ?_⟩
  · have hne : c ≠ ' ' := by rintro rfl; simp at h1
    simp only [isSpace, Bool.or_eq_false_iff, Bool.and_eq_false_iff, decide_eq_false_iff_not]
    exact ⟨by simpa using hne, .inr (by omega)⟩
  · rintro rfl; simp at h1
  · rintro rfl; simp at h1

theorem clampLong_of_mem {x : ℤ} (h0 : -(2 ^ 63) ≤ x) (h1 : x < 2 ^ 63) : clampLong x = x := by
  unfold clampLong longMax
  omega

/-! ## Reading back -/

/-- The digits of a number are taken whole when what follows is not a digit. -/
theorem takeWhile_toDigits {b n : ℕ} (hb : 1 < b) (hb' : b ≤ 10) {rest : List Char}
    (hrest : ∀ c, rest.head? = some c → isDigitOf b c = false) :
    (Nat.toDigits b n ++ rest).takeWhile (isDigitOf b) = Nat.toDigits b n ∧
      (Nat.toDigits b n ++ rest).dropWhile (isDigitOf b) = rest := by
  have hd := isDigitOf_of_mem_toDigits (n := n) hb hb'
  rw [List.takeWhile_append_of_pos hd, List.dropWhile_append_of_pos hd]
  cases rest with
  | nil => simp
  | cons c r => simp [hrest c rfl]

/-- The text of a number begins with a digit. -/
theorem head_toDigits {b n : ℕ} (hb : 1 < b) (hb' : b ≤ 10) (rest : List Char) :
    ∃ c r, Nat.toDigits b n ++ rest = c :: r ∧ isDigitOf b c = true := by
  rcases h : Nat.toDigits b n with _ | ⟨c, r⟩
  · exact absurd h Nat.toDigits_ne_nil
  · exact ⟨c, r ++ rest, rfl, isDigitOf_of_mem_toDigits (n := n) hb hb' c (by simp [h])⟩

theorem strtol_toDigits {b n : ℕ} (hb : 1 < b) (hb' : b ≤ 10) (hn : n < 2 ^ 63) {rest : List Char}
    (hrest : ∀ c, rest.head? = some c → isDigitOf b c = false) :
    strtol b (Nat.toDigits b n ++ rest) = ((n : ℤ), rest) := by
  obtain ⟨ht, hd⟩ := takeWhile_toDigits (n := n) hb hb' hrest
  obtain ⟨c, r, hcr, hc⟩ := head_toDigits (n := n) hb hb' rest
  obtain ⟨h1, h2, h3⟩ := isDigitOf_plain hc
  have hs : (Nat.toDigits b n ++ rest).dropWhile isSpace = Nat.toDigits b n ++ rest := by
    rw [hcr]; simp [h1]
  have hsign : takeSign (Nat.toDigits b n ++ rest) = (false, Nat.toDigits b n ++ rest) := by
    rw [hcr]; unfold takeSign; split <;> simp_all
  simp only [strtol, hs, hsign, ht, hd, Nat.toDigits_ne_nil, ite_false,
    Nat.ofDigitChars_toDigits hb hb', Bool.false_eq_true]
  rw [clampLong_of_mem (by omega) (by exact_mod_cast hn)]

theorem strtol_neg_toDigits {n : ℕ} (hn : n ≤ 2 ^ 63) {rest : List Char}
    (hrest : ∀ c, rest.head? = some c → isDigitOf 10 c = false) :
    strtol 10 ('-' :: Nat.toDigits 10 n ++ rest) = (-(n : ℤ), rest) := by
  obtain ⟨ht, hd⟩ := takeWhile_toDigits (n := n) (b := 10) (by norm_num) le_rfl hrest
  have hs : ('-' :: (Nat.toDigits 10 n ++ rest)).dropWhile isSpace =
      '-' :: (Nat.toDigits 10 n ++ rest) := by
    simp [show isSpace '-' = false by decide]
  simp only [List.cons_append, strtol, hs, takeSign, ht, hd, Nat.toDigits_ne_nil, ite_false,
    Nat.ofDigitChars_ten_toDigits, ite_true]
  rw [clampLong_of_mem (by omega) (by omega)]

/-- `strtol(..., 10)` reads back what `%d` or `%zd` printed. -/
theorem strtol_showInt {x : ℤ} (h0 : -(2 ^ 63) ≤ x) (h1 : x < 2 ^ 63) {rest : List Char}
    (hrest : ∀ c, rest.head? = some c → isDigitOf 10 c = false) :
    strtol 10 (showInt x ++ rest) = (x, rest) := by
  unfold showInt
  split_ifs with h
  · rw [strtol_neg_toDigits (by omega) hrest, show -(x.natAbs : ℤ) = x by omega]
  · rw [strtol_toDigits (by norm_num) le_rfl (by omega) hrest, show (x.natAbs : ℤ) = x by omega]

/-- Text that does not begin with a number is read as `0`. -/
theorem strtol_of_not_digit {b : ℕ} {c : Char} {rest : List Char} (hs : isSpace c = false)
    (hm : c ≠ '-') (hp : c ≠ '+') (hc : isDigitOf b c = false) :
    strtol b (c :: rest) = (0, c :: rest) := by
  have h1 : (c :: rest).dropWhile isSpace = c :: rest := by simp [hs]
  have h2 : takeSign (c :: rest) = (false, c :: rest) := by
    unfold takeSign; split <;> simp_all
  simp [strtol, h1, h2, hc]

@[simp] theorem strtol_nil (b : ℕ) : strtol b [] = (0, []) := by simp [strtol, takeSign]

/-! ## Lengths -/

theorem length_showInt_le {x : ℤ} {k : ℕ} (hk : 0 < k) (h : x.natAbs < 10 ^ k) :
    (showInt x).length ≤ k + 1 := by
  have := (Nat.length_toDigits_le_iff (n := x.natAbs) (b := 10) (by norm_num) hk).mpr h
  unfold showInt
  split_ifs <;> simp <;> omega

/-- `snprintf` keeps a text that fits with its NUL. -/
theorem snprintf_of_lt {n : ℕ} {s : List Char} (h : s.length < n) : snprintf n s = s :=
  List.take_of_length_le (by omega)

end NetworkFs.Text
