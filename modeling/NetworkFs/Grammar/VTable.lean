import NetworkFs.Data.TableCrc

/-!
# The checksum of a vtable

Model of `crc32` and `xcrc32` (`common/crc32.c`, `common/crc32.h`), of `VTable_checksum`,
`VTable_vaild` and `VTable_init` (`common/grammar/vtable.h` lines 52–73) and of
`VTable_rand_init` (`common/grammar/vtable.c` lines 17–24).

* `crc32Table_lowInjective`: the entries of the table differ in their low bytes.
* `runConstructors_checksum`: all constructors use one random mask, whatever their order.
* `vtable_guard`: a vtable is accepted as it is, and not after a change within four bytes.
-/

namespace NetworkFs.Grammar

open Data

/-! ## The model -/

/-- `crc32_table`. -/
def crc32Table : List (BitVec 32) :=
   [0x00000000, 0x04c11db7, 0x09823b6e, 0x0d4326d9, 0x130476dc, 0x17c56b6b, 0x1a864db2, 0x1e475005,
    0x2608edb8, 0x22c9f00f, 0x2f8ad6d6, 0x2b4bcb61, 0x350c9b64, 0x31cd86d3, 0x3c8ea00a, 0x384fbdbd,
    0x4c11db70, 0x48d0c6c7, 0x4593e01e, 0x4152fda9, 0x5f15adac, 0x5bd4b01b, 0x569796c2, 0x52568b75,
    0x6a1936c8, 0x6ed82b7f, 0x639b0da6, 0x675a1011, 0x791d4014, 0x7ddc5da3, 0x709f7b7a, 0x745e66cd,
    0x9823b6e0, 0x9ce2ab57, 0x91a18d8e, 0x95609039, 0x8b27c03c, 0x8fe6dd8b, 0x82a5fb52, 0x8664e6e5,
    0xbe2b5b58, 0xbaea46ef, 0xb7a96036, 0xb3687d81, 0xad2f2d84, 0xa9ee3033, 0xa4ad16ea, 0xa06c0b5d,
    0xd4326d90, 0xd0f37027, 0xddb056fe, 0xd9714b49, 0xc7361b4c, 0xc3f706fb, 0xceb42022, 0xca753d95,
    0xf23a8028, 0xf6fb9d9f, 0xfbb8bb46, 0xff79a6f1, 0xe13ef6f4, 0xe5ffeb43, 0xe8bccd9a, 0xec7dd02d,
    0x34867077, 0x30476dc0, 0x3d044b19, 0x39c556ae, 0x278206ab, 0x23431b1c, 0x2e003dc5, 0x2ac12072,
    0x128e9dcf, 0x164f8078, 0x1b0ca6a1, 0x1fcdbb16, 0x018aeb13, 0x054bf6a4, 0x0808d07d, 0x0cc9cdca,
    0x7897ab07, 0x7c56b6b0, 0x71159069, 0x75d48dde, 0x6b93dddb, 0x6f52c06c, 0x6211e6b5, 0x66d0fb02,
    0x5e9f46bf, 0x5a5e5b08, 0x571d7dd1, 0x53dc6066, 0x4d9b3063, 0x495a2dd4, 0x44190b0d, 0x40d816ba,
    0xaca5c697, 0xa864db20, 0xa527fdf9, 0xa1e6e04e, 0xbfa1b04b, 0xbb60adfc, 0xb6238b25, 0xb2e29692,
    0x8aad2b2f, 0x8e6c3698, 0x832f1041, 0x87ee0df6, 0x99a95df3, 0x9d684044, 0x902b669d, 0x94ea7b2a,
    0xe0b41de7, 0xe4750050, 0xe9362689, 0xedf73b3e, 0xf3b06b3b, 0xf771768c, 0xfa325055, 0xfef34de2,
    0xc6bcf05f, 0xc27dede8, 0xcf3ecb31, 0xcbffd686, 0xd5b88683, 0xd1799b34, 0xdc3abded, 0xd8fba05a,
    0x690ce0ee, 0x6dcdfd59, 0x608edb80, 0x644fc637, 0x7a089632, 0x7ec98b85, 0x738aad5c, 0x774bb0eb,
    0x4f040d56, 0x4bc510e1, 0x46863638, 0x42472b8f, 0x5c007b8a, 0x58c1663d, 0x558240e4, 0x51435d53,
    0x251d3b9e, 0x21dc2629, 0x2c9f00f0, 0x285e1d47, 0x36194d42, 0x32d850f5, 0x3f9b762c, 0x3b5a6b9b,
    0x0315d626, 0x07d4cb91, 0x0a97ed48, 0x0e56f0ff, 0x1011a0fa, 0x14d0bd4d, 0x19939b94, 0x1d528623,
    0xf12f560e, 0xf5ee4bb9, 0xf8ad6d60, 0xfc6c70d7, 0xe22b20d2, 0xe6ea3d65, 0xeba91bbc, 0xef68060b,
    0xd727bbb6, 0xd3e6a601, 0xdea580d8, 0xda649d6f, 0xc423cd6a, 0xc0e2d0dd, 0xcda1f604, 0xc960ebb3,
    0xbd3e8d7e, 0xb9ff90c9, 0xb4bcb610, 0xb07daba7, 0xae3afba2, 0xaafbe615, 0xa7b8c0cc, 0xa379dd7b,
    0x9b3660c6, 0x9ff77d71, 0x92b45ba8, 0x9675461f, 0x8832161a, 0x8cf30bad, 0x81b02d74, 0x857130c3,
    0x5d8a9099, 0x594b8d2e, 0x5408abf7, 0x50c9b640, 0x4e8ee645, 0x4a4ffbf2, 0x470cdd2b, 0x43cdc09c,
    0x7b827d21, 0x7f436096, 0x7200464f, 0x76c15bf8, 0x68860bfd, 0x6c47164a, 0x61043093, 0x65c52d24,
    0x119b4be9, 0x155a565e, 0x18197087, 0x1cd86d30, 0x029f3d35, 0x065e2082, 0x0b1d065b, 0x0fdc1bec,
    0x3793a651, 0x3352bbe6, 0x3e119d3f, 0x3ad08088, 0x2497d08d, 0x2056cd3a, 0x2d15ebe3, 0x29d4f654,
    0xc5a92679, 0xc1683bce, 0xcc2b1d17, 0xc8ea00a0, 0xd6ad50a5, 0xd26c4d12, 0xdf2f6bcb, 0xdbee767c,
    0xe3a1cbc1, 0xe760d676, 0xea23f0af, 0xeee2ed18, 0xf0a5bd1d, 0xf464a0aa, 0xf9278673, 0xfde69bc4,
    0x89b8fd09, 0x8d79e0be, 0x803ac667, 0x84fbdbd0, 0x9abc8bd5, 0x9e7d9662, 0x933eb0bb, 0x97ffad0c,
    0xafb010b1, 0xab710d06, 0xa6322bdf, 0xa2f33668, 0xbcb4666d, 0xb8757bda, 0xb5365d03, 0xb1f740b4]

/-- One round of the loop of `xcrc32`. -/
def xcrc32Step (crc : BitVec 32) (b : BitVec 8) : BitVec 32 :=
  (crc <<< 8) ^^^ crc32Table.getD (((crc >>> 24) ^^^ b.setWidth 32) &&& 255#32).toNat 0

/-- `xcrc32(buf, len, init)`, with `len` the number of bytes. -/
def xcrc32 (buf : List (BitVec 8)) (init : BitVec 32) : BitVec 32 := buf.foldl xcrc32Step init

/-- `crc32(buf, len)`. -/
def crc32 (buf : List (BitVec 8)) : BitVec 32 := xcrc32 buf 0xffffffff

/-- A vtable: the stored checksum, and the bytes behind it. -/
structure VTable where
  checksum : BitVec 32
  body : List (BitVec 8)
  deriving DecidableEq

/-- What `rand()` returns after `srand(time(0))`: at some time it is not zero. -/
structure Generator where
  rand : ℕ → BitVec 32
  nonzero : ∃ n, rand n ≠ 0

/-- `VTable_rand`, and the vtables of the program. -/
structure VTables (ι : Type) where
  rand : BitVec 32
  tables : ι → VTable

/-- `VTable_rand_init()`: the first number that is not zero, unless there is one already. -/
def vtableRandInit (g : Generator) (rand : BitVec 32) : BitVec 32 :=
  if rand = 0 then g.rand (Nat.find g.nonzero) else rand

/-- `VTable_checksum(this, size)`. -/
def vtableChecksum (rand : BitVec 32) (this : VTable) : BitVec 32 := crc32 this.body ^^^ rand

/-- `VTable_vaild(this, size)`; absent when it ends in `VTable_crash`. -/
def vtableVaild (rand : BitVec 32) : Option VTable → Option Bool
  | none => some false
  | some this => if this.checksum ≠ vtableChecksum rand this then none else some true

variable {ι : Type} [DecidableEq ι]

/-- `VTable_init(this, size)`. -/
def vtableInit (g : Generator) (s : VTables ι) (this : ι) : VTables ι :=
  let rand := vtableRandInit g s.rand
  ⟨rand, Function.update s.tables this
    { s.tables this with checksum := vtableChecksum rand (s.tables this) }⟩

/-- The constructors, in the order in which they run. -/
def runConstructors (g : Generator) (order : List ι) (s : VTables ι) : VTables ι :=
  order.foldl (vtableInit g) s

/-! ## The table -/

/-- The entry that a byte selects. -/
def crc32Entry (i : BitVec 8) : BitVec 32 := crc32Table.getD i.toNat 0

theorem crc32Table_nodup : (crc32Table.map fun entry => entry.setWidth 8).Nodup := by
  decide +kernel

theorem crc32Table_lowInjective : LowInjective crc32Entry := by
  intro i j h
  have hlength : crc32Table.length = 256 := by decide +kernel
  have hi : i.toNat < crc32Table.length := by rw [hlength]; exact i.isLt
  have hj : j.toNat < crc32Table.length := by rw [hlength]; exact j.isLt
  simp only [crc32Entry, List.getD_eq_getElem _ _ hi, List.getD_eq_getElem _ _ hj] at h
  apply BitVec.eq_of_toNat_eq
  have hi' : i.toNat < (crc32Table.map fun entry => entry.setWidth 8).length := by
    rwa [List.length_map]
  have hj' : j.toNat < (crc32Table.map fun entry => entry.setWidth 8).length := by
    rwa [List.length_map]
  have hlow : (crc32Table.map fun entry => entry.setWidth 8)[i.toNat] =
      (crc32Table.map fun entry => entry.setWidth 8)[j.toNat] := by
    rw [List.getElem_map, List.getElem_map]
    exact h
  exact (List.Nodup.getElem_inj_iff crc32Table_nodup).mp hlow

theorem getLsbD_mask (i : ℕ) : (255#32).getLsbD i = decide (i < 8) := by
  rw [BitVec.getLsbD_ofNat, show (255 : ℕ) = 2 ^ 8 - 1 from rfl, Nat.testBit_two_pow_sub_one]
  by_cases hi : i < 8
  · simp [hi, show i < 32 by omega]
  · simp [hi]

/-- The index of the entry, as the source computes it. -/
theorem index_eq (crc : BitVec 32) (b : BitVec 8) :
    ((crc >>> 24) ^^^ b.setWidth 32) &&& 255#32 = (topByte crc ^^^ b).setWidth 32 := by
  apply BitVec.eq_of_getLsbD_eq
  intro i hi
  simp only [BitVec.getLsbD_and, BitVec.getLsbD_xor, BitVec.getLsbD_ushiftRight,
    BitVec.getLsbD_setWidth, getLsbD_mask, topByte, BitVec.getLsbD_extractLsb', hi, decide_true,
    Bool.true_and]
  by_cases hbyte : i < 8
  · simp [hbyte]
  · have hout : b.getLsbD i = false := BitVec.getLsbD_of_ge b i (by omega)
    simp [hbyte, hout]

theorem xcrc32Step_eq (crc : BitVec 32) (b : BitVec 8) :
    xcrc32Step crc b = crcStep crc32Entry crc b := by
  have hindex : ((topByte crc ^^^ b).setWidth 32).toNat = (topByte crc ^^^ b).toNat := by
    rw [BitVec.toNat_setWidth]
    exact Nat.mod_eq_of_lt ((topByte crc ^^^ b).isLt.trans (by decide))
  rw [xcrc32Step, crcStep, crc32Entry, index_eq, hindex]

theorem xcrc32_eq (buf : List (BitVec 8)) (init : BitVec 32) :
    xcrc32 buf init = crcRun crc32Entry init buf := by
  have hstep : xcrc32Step = crcStep crc32Entry := by
    funext crc b
    exact xcrc32Step_eq crc b
  rw [xcrc32, crcRun, hstep]

/-- A change within four bytes changes the checksum. -/
theorem crc32_detects {before window window' after : List (BitVec 8)}
    (hlen : window'.length = window.length) (hwindow : window.length ≤ 4)
    (hne : window' ≠ window) :
    crc32 (before ++ window' ++ after) ≠ crc32 (before ++ window ++ after) := by
  unfold crc32
  rw [xcrc32_eq, xcrc32_eq]
  exact run_detects crc32Table_lowInjective hlen hwindow hne

/-! ## The constructors -/

theorem vtableRandInit_ne_zero (g : Generator) (rand : BitVec 32) : vtableRandInit g rand ≠ 0 := by
  unfold vtableRandInit
  split
  · exact Nat.find_spec g.nonzero
  · assumption

/-- The mask is drawn once. -/
theorem vtableRandInit_of_ne_zero (g : Generator) {rand : BitVec 32} (h : rand ≠ 0) :
    vtableRandInit g rand = rand := by
  rw [vtableRandInit, if_neg h]

/-- A vtable has the checksum of its body under the mask. -/
def Checked (rand : BitVec 32) (this : VTable) : Prop := this.checksum = vtableChecksum rand this

theorem vtableInit_rand {g : Generator} {s : VTables ι} (this : ι) (h : s.rand ≠ 0) :
    (vtableInit g s this).rand = s.rand :=
  vtableRandInit_of_ne_zero g h

/-- A constructor checks its own vtable. -/
theorem vtableInit_self (g : Generator) (s : VTables ι) (i : ι) :
    Checked (vtableInit g s i).rand ((vtableInit g s i).tables i) := by
  simp [vtableInit, Checked, vtableChecksum]

/-- A constructor leaves a checked vtable checked. -/
theorem vtableInit_checked {g : Generator} {s : VTables ι} {i : ι} (this : ι) (h : s.rand ≠ 0)
    (hi : Checked s.rand (s.tables i)) : Checked s.rand ((vtableInit g s this).tables i) := by
  by_cases heq : i = this
  · subst heq
    have hself := vtableInit_self g s i
    rwa [vtableInit_rand i h] at hself
  · simpa [vtableInit, Function.update_of_ne heq] using hi

/-- With a mask, more constructors change neither the mask nor what is checked. -/
theorem runConstructors_keeps {g : Generator} (order : List ι) {s : VTables ι} {i : ι}
    (h : s.rand ≠ 0) (hi : Checked s.rand (s.tables i)) :
    (runConstructors g order s).rand = s.rand ∧
      Checked s.rand ((runConstructors g order s).tables i) := by
  induction order generalizing s with
  | nil => exact ⟨rfl, hi⟩
  | cons this order ih =>
    have hrand : (vtableInit g s this).rand = s.rand := vtableInit_rand this h
    have hrest := @ih (vtableInit g s this)
    rw [hrand] at hrest
    exact hrest h (vtableInit_checked this h hi)

/-- Every vtable whose constructor has run is checked, with the one mask of them all. -/
theorem runConstructors_checksum (g : Generator) (order : List ι) (s : VTables ι) {i : ι}
    (hi : i ∈ order) :
    Checked (runConstructors g order s).rand ((runConstructors g order s).tables i) := by
  obtain ⟨before, after, rfl⟩ := List.append_of_mem hi
  have hsplit : runConstructors g (before ++ i :: after) s =
      runConstructors g after (vtableInit g (runConstructors g before s) i) := by
    simp [runConstructors]
  rw [hsplit]
  obtain ⟨hrand, hchecked⟩ := runConstructors_keeps after (g := g)
    (vtableRandInit_ne_zero g (runConstructors g before s).rand)
    (vtableInit_self g (runConstructors g before s) i)
  rw [hrand]
  exact hchecked

/-- The constructors leave the bodies alone. -/
theorem runConstructors_body (g : Generator) (order : List ι) (s : VTables ι) (i : ι) :
    ((runConstructors g order s).tables i).body = (s.tables i).body := by
  induction order generalizing s with
  | nil => rfl
  | cons this order ih =>
    refine (ih (vtableInit g s this)).trans ?_
    by_cases heq : i = this
    · subst heq
      simp [vtableInit]
    · simp [vtableInit, Function.update_of_ne heq]

theorem vtableVaild_of_checked {rand : BitVec 32} {this : VTable} (h : Checked rand this) :
    vtableVaild rand (some this) = some true := by
  unfold Checked at h
  rw [vtableVaild, if_neg (not_not_intro h)]

/-- A checked vtable whose body changes within four bytes is not accepted. -/
theorem vtableVaild_changed {rand : BitVec 32} {this : VTable} (h : Checked rand this)
    {before window window' after : List (BitVec 8)} (hbody : this.body = before ++ window ++ after)
    (hlen : window'.length = window.length) (hwindow : window.length ≤ 4) (hne : window' ≠ window) :
    vtableVaild rand (some { this with body := before ++ window' ++ after }) = none := by
  rw [vtableVaild, if_pos]
  intro heq
  have hsame : crc32 (before ++ window' ++ after) = crc32 (before ++ window ++ after) := by
    rw [Checked, vtableChecksum, hbody] at h
    rw [vtableChecksum, h] at heq
    exact ((BitVec.xor_left_inj rand).mp heq).symm
  exact crc32_detects hlen hwindow hne hsame

/-- After the constructors have run, in whatever order, every vtable is accepted; one whose
    body is then changed within a window of four bytes is not. -/
theorem vtable_guard (g : Generator) (order : List ι) (s : VTables ι) (i : ι) (hi : i ∈ order) :
    let rand := (runConstructors g order s).rand
    let this := (runConstructors g order s).tables i
    vtableVaild rand (some this) = some true ∧ this.body = (s.tables i).body ∧
      ∀ before window window' after, this.body = before ++ window ++ after →
        window'.length = window.length → window.length ≤ 4 → window' ≠ window →
          vtableVaild rand (some { this with body := before ++ window' ++ after }) ≠ some true := by
  have hchecked := runConstructors_checksum g order s hi
  refine ⟨vtableVaild_of_checked hchecked, runConstructors_body g order s i, ?_⟩
  intro before window window' after hbody hlen hwindow hne
  rw [vtableVaild_changed hchecked hbody hlen hwindow hne]
  exact nofun

/-- Two vtables, the second six bytes long. -/
def twoVTables : VTables Bool :=
  ⟨0, fun i => if i then ⟨0, [1, 2, 3, 4, 5, 6]⟩ else ⟨0, [7]⟩⟩

/-- A generator that starts with a zero. -/
def zeroFirst : Generator := ⟨fun n => if n = 0 then 0 else 42, 1, by decide⟩

theorem vtable_guard_two :
    let s := runConstructors zeroFirst [false, true] twoVTables
    vtableVaild s.rand (some (s.tables true)) = some true ∧
      vtableVaild s.rand (some { s.tables true with body := [1, 2, 9, 4, 5, 6] }) ≠ some true := by
  obtain ⟨haccepted, hbody, hchanged⟩ :=
    vtable_guard zeroFirst [false, true] twoVTables true (by decide)
  exact ⟨haccepted, hchanged [1, 2] [3] [9] [4, 5, 6] hbody rfl (by decide) (by decide)⟩

end NetworkFs.Grammar
