import Mathlib

/-!
# Checksums driven by a table

A checksum of 32 bits that takes one byte at a time: the state is shifted by a byte, and the
byte that falls out, combined with the byte of the input, selects an entry of a table. All that
is needed of the table is that its entries differ in their low bytes.

* `run_injective`: the bytes that follow do not lose a difference of the states.
* `run_window`: up to four bytes are determined by the state before and the state after.
* `run_detects`: a change within a window of four bytes changes the checksum.
-/

namespace NetworkFs.Data

/-- The byte that a shift drops. -/
def topByte (crc : BitVec 32) : BitVec 8 := crc.extractLsb' 24 8

/-- One byte. -/
def crcStep (table : BitVec 8 → BitVec 32) (crc : BitVec 32) (b : BitVec 8) : BitVec 32 :=
  (crc <<< 8) ^^^ table (topByte crc ^^^ b)

/-- The state after all bytes. -/
def crcRun (table : BitVec 8 → BitVec 32) (crc : BitVec 32) (bytes : List (BitVec 8)) : BitVec 32 :=
  bytes.foldl (crcStep table) crc

/-- The entries differ in their low bytes. -/
def LowInjective (table : BitVec 8 → BitVec 32) : Prop :=
  Function.Injective fun i => (table i).setWidth 8

/-- The low `k` bits are the same. -/
def LowAgree (k : ℕ) (x y : BitVec 32) : Prop := ∀ i < k, x.getLsbD i = y.getLsbD i

variable {table : BitVec 8 → BitVec 32} {c c' : BitVec 32} {b b' : BitVec 8}
  {bytes bytes' : List (BitVec 8)}

theorem LowAgree.eq (h : LowAgree 32 c c') : c = c' := by
  apply BitVec.eq_of_getLsbD_eq
  intro i hi
  exact h i hi

theorem lowAgree_of_eq {k : ℕ} (h : c = c') : LowAgree k c c' := by
  intro i _
  rw [h]

/-- The low byte of the next state is that of the entry. -/
theorem getLsbD_step_low {i : ℕ} (hi : i < 8) :
    (crcStep table c b).getLsbD i = (table (topByte c ^^^ b)).getLsbD i := by
  simp [crcStep, hi]

theorem getLsbD_step_high {i : ℕ} (hi : i + 8 < 32) :
    (crcStep table c b).getLsbD (i + 8) =
      (c.getLsbD i ^^ (table (topByte c ^^^ b)).getLsbD (i + 8)) := by
  rw [crcStep, BitVec.getLsbD_xor, BitVec.getLsbD_shiftLeft, Nat.add_sub_cancel]
  simp only [hi, decide_true, Bool.true_and]
  simp

section Injective

variable (htable : LowInjective table)

include htable

/-- The low bits of the next state determine the entry, and the low bits of the state. -/
theorem step_agree {k : ℕ} (hk : k + 8 ≤ 32)
    (h : LowAgree (k + 8) (crcStep table c b) (crcStep table c' b')) :
    topByte c ^^^ b = topByte c' ^^^ b' ∧ LowAgree k c c' := by
  have hindex : topByte c ^^^ b = topByte c' ^^^ b' := by
    apply htable
    apply BitVec.eq_of_getLsbD_eq
    intro i hi
    have hbit := h i (by omega)
    rw [getLsbD_step_low hi, getLsbD_step_low hi] at hbit
    simpa [BitVec.getLsbD_setWidth, hi] using hbit
  refine ⟨hindex, ?_⟩
  intro i hi
  have hbit := h (i + 8) (by omega)
  rw [getLsbD_step_high (by omega), getLsbD_step_high (by omega), hindex] at hbit
  exact Bool.xor_right_inj.mp (by rw [Bool.xor_comm, hbit, Bool.xor_comm])

/-- A byte can be undone. -/
theorem step_injective (h : crcStep table c b = crcStep table c' b) : c = c' := by
  obtain ⟨hindex, hlow⟩ := step_agree htable (k := 24) (by omega) (lowAgree_of_eq h)
  have htop : topByte c = topByte c' := (BitVec.xor_left_inj b).mp hindex
  apply LowAgree.eq
  intro i hi
  by_cases hi' : i < 24
  · exact hlow i hi'
  · have hbit := congrArg (fun x : BitVec 8 => x.getLsbD (i - 24)) htop
    simp only [topByte, BitVec.getLsbD_extractLsb'] at hbit
    have hback : 24 + (i - 24) = i := by omega
    rw [hback] at hbit
    simpa [show i - 24 < 8 by omega] using hbit

/-- Equal bytes do not lose a difference of the states. -/
theorem run_injective (h : crcRun table c bytes = crcRun table c' bytes) : c = c' := by
  induction bytes generalizing c c' with
  | nil => exact h
  | cons b bytes ih => exact step_injective htable (ih h)

/-- The entries that two runs select are the same. -/
def SameIndices (table : BitVec 8 → BitVec 32) :
    BitVec 32 → List (BitVec 8) → BitVec 32 → List (BitVec 8) → Prop
  | c, b :: bytes, c', b' :: bytes' =>
    topByte c ^^^ b = topByte c' ^^^ b' ∧
      SameIndices table (crcStep table c b) bytes (crcStep table c' b') bytes'
  | _, _, _, _ => True

/-- Each byte at the end gives up eight bits of what is known of the states. -/
theorem run_agree {j : ℕ} (hlen : bytes.length = bytes'.length) (hj : 8 * bytes.length + j ≤ 32)
    (h : LowAgree (8 * bytes.length + j) (crcRun table c bytes) (crcRun table c' bytes')) :
    LowAgree j c c' ∧ SameIndices table c bytes c' bytes' := by
  induction bytes generalizing bytes' c c' j with
  | nil =>
    rw [List.length_eq_zero_iff.mp hlen.symm] at h
    rw [List.length_nil, Nat.mul_zero, Nat.zero_add] at h
    exact ⟨h, by simp [SameIndices]⟩
  | cons b bytes ih =>
    obtain ⟨b', bytes', rfl⟩ := List.exists_cons_of_length_eq_add_one hlen.symm
    have hbits : 8 * (b :: bytes).length + j = 8 * bytes.length + (j + 8) := by
      rw [List.length_cons]
      omega
    have hshort : bytes.length = bytes'.length := by simpa using hlen
    have hlater : LowAgree (8 * bytes.length + (j + 8)) (crcRun table (crcStep table c b) bytes)
        (crcRun table (crcStep table c' b') bytes') := hbits ▸ h
    obtain ⟨hfirst, hrest⟩ := ih hshort (hbits ▸ hj) hlater
    obtain ⟨hindex, hlow⟩ := step_agree htable (by omega) hfirst
    exact ⟨hlow, hindex, hrest⟩

omit htable in
/-- From one state the entries determine the bytes. -/
theorem eq_of_sameIndices (hlen : bytes.length = bytes'.length)
    (h : SameIndices table c bytes c bytes') : bytes = bytes' := by
  induction bytes generalizing bytes' c with
  | nil => rw [List.length_eq_zero_iff.mp hlen.symm]
  | cons b bytes ih =>
    obtain ⟨b', bytes', rfl⟩ := List.exists_cons_of_length_eq_add_one hlen.symm
    obtain ⟨hindex, hrest⟩ := h
    obtain rfl : b = b' := (BitVec.xor_right_inj _).mp hindex
    rw [ih (by simpa using hlen) hrest]

/-- Up to four bytes are determined by the states around them. -/
theorem run_window (hlen : bytes.length = bytes'.length) (hwindow : bytes.length ≤ 4)
    (h : crcRun table c bytes = crcRun table c bytes') : bytes = bytes' := by
  have hagree := run_agree htable (j := 32 - 8 * bytes.length) hlen (by omega) (lowAgree_of_eq h)
  exact eq_of_sameIndices hlen hagree.2

/-- A change within a window of four bytes is a change of the checksum. -/
theorem run_detects {before window window' after : List (BitVec 8)}
    (hlen : window'.length = window.length) (hwindow : window.length ≤ 4) (hne : window' ≠ window) :
    crcRun table c (before ++ window' ++ after) ≠ crcRun table c (before ++ window ++ after) := by
  intro heq
  simp only [crcRun, List.foldl_append] at heq
  have hstate := run_injective htable heq
  exact hne (run_window htable hlen (by omega) hstate)

end Injective

end NetworkFs.Data
