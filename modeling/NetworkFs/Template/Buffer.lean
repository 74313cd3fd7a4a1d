import NetworkFs.World

/-!
# Buffers

Model of `common/template/buffer.c`. libcurl hands the body of a reply to `Buffer_append` and
takes the body of a request from `Buffer_fetch`, in pieces of its own choice. The array behind
`data` is a list of cells, and to copy outside it is a fault.

* `bufferAppend_spec`, `bufferFetch_spec`: one call.
* `appendAll_fixed`, `appendAll_extensible`, `fetchAll_spec`: any sequence of calls.
* `buffer_chunks`: the pieces do not matter.
-/

namespace NetworkFs.Template

variable {α : Type}

/-! ## The model -/

/-- `struct Buffer`. -/
structure Buffer (α : Type) where
  data : List α
  size : ℕ
  offset : ℤ
  extensible : Bool

/-- A buffer, and whether an exception is pending. -/
structure Sink (α : Type) where
  buffer : Buffer α
  pending : Bool

/-- What `realloc` returns: `NULL`, or an array where the new cells hold anything. -/
abbrev Realloc (α : Type) := Option (ℕ → α)

/-- The array `realloc` returns. -/
def reallocated (fresh : ℕ → α) (data : List α) (newSize : ℕ) : List α :=
  data.take newSize ++ (List.range (newSize - data.length)).map fresh

/-- `Buffer_resize(this, new_size)` (lines 10–21). -/
def bufferResize (this : Sink α) (newSize : ℕ) (realloc : Realloc α) : ℕ × Sink α :=
  if this.buffer.extensible then
    match realloc with
    | none => (this.buffer.size, { this with pending := true })
    | some fresh =>
      (newSize, { this with buffer := { this.buffer with
        size := newSize
        data := reallocated fresh this.buffer.data newSize } })
  else (this.buffer.size, this)

/-- `this->offset += n`. -/
def advance (offset : ℤ) (n : ℕ) : ℤ := toSsize (toSize (offset + n))

/-- `memcpy(data + offset, ptr, n)`. -/
def copyIn (data : List α) (offset : ℤ) (ptr : List α) (n : ℕ) : Option (List α) :=
  if 0 ≤ offset ∧ offset + n ≤ data.length ∧ n ≤ ptr.length then
    some (data.take offset.toNat ++ ptr.take n ++ data.drop (offset.toNat + n))
  else none

/-- `memcpy(ptr, data + offset, n)`. -/
def copyOut (data : List α) (offset : ℤ) (n : ℕ) : Option (List α) :=
  if 0 ≤ offset ∧ offset + n ≤ data.length then some ((data.drop offset.toNat).take n) else none

/-- `Buffer_append(ptr, 1, nmemb, this)` (lines 24–37), with `nmemb` the length of `ptr`: the
    result, and the buffer afterwards. -/
def bufferAppend (this : Sink α) (ptr : List α) (realloc : Realloc α) : Option (ℕ × Sink α) :=
  if ptr.length = 0 then some (ptr.length, this)
  else do
    let newSize := toSize (this.buffer.offset + ptr.length)
    let (nmemb, this) :=
      if newSize > this.buffer.size then
        let resized := bufferResize this newSize realloc
        (toSize (resized.1 - this.buffer.offset), resized.2)
      else (ptr.length, this)
    let data ← copyIn this.buffer.data this.buffer.offset ptr nmemb
    some (nmemb, { this with buffer := { this.buffer with
      data := data
      offset := advance this.buffer.offset nmemb } })

/-- `Buffer_fetch(ptr, 1, nitems, this)` (lines 40–52): the items copied to `ptr`, whose number
    is the result, and the buffer afterwards. -/
def bufferFetch (this : Buffer α) (nitems : ℕ) : Option (List α × Buffer α) :=
  if nitems = 0 then some ([], this)
  else do
    let nitems :=
      if toSize (this.offset + nitems) > this.size then toSize (this.size - this.offset) else nitems
    let items ← copyOut this.data this.offset nitems
    some (items, { this with offset := advance this.offset nitems })

/-- Calls of `Buffer_append`, each with what `realloc` would return. -/
def appendAll : Sink α → List (List α × Realloc α) → Option (Sink α)
  | this, [] => some this
  | this, (ptr, realloc) :: calls => do
    let (_, this) ← bufferAppend this ptr realloc
    appendAll this calls

/-- Calls of `Buffer_fetch`: the pieces. -/
def fetchAll : Buffer α → List ℕ → Option (List (List α) × Buffer α)
  | this, [] => some ([], this)
  | this, nitems :: requests => do
    let (items, this) ← bufferFetch this nitems
    let (pieces, this) ← fetchAll this requests
    some (items :: pieces, this)

/-! ## One call -/

/-- The array has `size` cells, and `offset` is inside it. No object has `2^63` bytes. -/
structure Buffer.Valid (b : Buffer α) : Prop where
  cells : b.data.length = b.size
  low : 0 ≤ b.offset
  high : b.offset ≤ b.size
  small : b.size < 2 ^ 63

/-- What has been stored. -/
def Buffer.stored (b : Buffer α) : List α := b.data.take b.offset.toNat

/-- How many of `n` items a call takes. -/
def Buffer.takes (b : Buffer α) (realloc : Realloc α) (n : ℕ) : ℕ :=
  if b.extensible ∧ realloc.isSome then n else min n (b.size - b.offset.toNat)

/-- `realloc` is called, and fails. -/
def Buffer.Fails (b : Buffer α) (realloc : Realloc α) (n : ℕ) : Prop :=
  b.extensible = true ∧ realloc = none ∧ b.size < b.offset + n

variable {b : Buffer α} {this : Sink α} {ptr : List α} {realloc : Realloc α}

theorem Buffer.Valid.length_stored (h : b.Valid) : b.stored.length = b.offset.toNat := by
  have := h.cells
  have := h.high
  rw [Buffer.stored, List.length_take]
  omega

theorem toSize_natCast {n : ℕ} (h : n < 2 ^ 64) : toSize (n : ℤ) = n := by
  unfold toSize
  omega

theorem advance_eq {offset : ℤ} {n : ℕ} (hlow : 0 ≤ offset) (h : offset + n < 2 ^ 63) :
    advance offset n = offset + n := by
  obtain ⟨k, rfl⟩ := Int.eq_ofNat_of_zero_le hlow
  rw [advance, ← Nat.cast_add, toSize_natCast (by omega), toSsize, Int.bmod_eq_of_le] <;> omega

/-- What is copied stands behind what was there. -/
theorem copyIn_eq (data : List α) {k n : ℕ} (hk : k + n ≤ data.length) (hn : n ≤ ptr.length) :
    ∃ data', copyIn data k ptr n = some data' ∧ data'.length = data.length ∧
      data'.take (k + n) = data.take k ++ ptr.take n ∧ data'.drop (k + n) = data.drop (k + n) := by
  have hfront : (data.take k ++ ptr.take n).length = k + n := by
    rw [List.length_append, List.length_take, List.length_take]
    omega
  refine ⟨data.take k ++ ptr.take n ++ data.drop (k + n), ?_, ?_, ?_, ?_⟩
  · rw [copyIn, if_pos ⟨by omega, by omega, hn⟩, Int.toNat_natCast]
  · rw [List.length_append, hfront, List.length_drop]
    omega
  · rw [List.take_append_of_le_length (by omega), List.take_of_length_le (by omega)]
  · rw [List.drop_append_of_le_length (by omega), List.drop_eq_nil_of_le (by omega),
      List.nil_append]

/-- `b'` is `b` after `n` items of `ptr` were stored behind the others. -/
structure Appended (b : Buffer α) (ptr : List α) (n : ℕ) (b' : Buffer α) : Prop where
  valid : b'.Valid
  offset : b'.offset = b.offset + n
  stored : b'.stored = b.stored ++ ptr.take n
  extensible : b'.extensible = b.extensible
  size : b.extensible = false → b'.size = b.size
  rest : b.extensible = false → b'.data.drop b'.offset.toNat = b.data.drop b'.offset.toNat

/-- The last two lines of `Buffer_append`. -/
theorem copy_appended (h : b.Valid) {n : ℕ} (hn : n ≤ ptr.length) (hroom : b.offset + n ≤ b.size) :
    ∃ data, copyIn b.data b.offset ptr n = some data ∧
      Appended b ptr n { b with data := data, offset := advance b.offset n } := by
  have hadvance : advance b.offset n = b.offset + n :=
    advance_eq h.low (by have := h.small; omega)
  obtain ⟨k, hk⟩ := Int.eq_ofNat_of_zero_le h.low
  have hcells := h.cells
  have hinside : k + n ≤ b.data.length := by omega
  obtain ⟨data, hcopy, hlength, htake, hdrop⟩ := copyIn_eq b.data hinside hn
  have hfirst : b.offset.toNat = k := by omega
  have hnext : (b.offset + n).toNat = k + n := by omega
  refine ⟨data, by rw [hk]; exact hcopy, ?_⟩
  rw [hadvance]
  constructor
  · exact ⟨hlength.trans hcells, by simp only; omega, hroom, h.small⟩
  · rfl
  · simp only [Buffer.stored, hnext, hfirst, htake]
  · rfl
  · intro _
    rfl
  · intro _
    simp only [hnext, hdrop]

theorem length_reallocated (fresh : ℕ → α) (data : List α) {newSize : ℕ}
    (h : data.length ≤ newSize) : (reallocated fresh data newSize).length = newSize := by
  simp [reallocated]
  omega

/-- `realloc` keeps what is stored. -/
theorem take_reallocated (fresh : ℕ → α) (data : List α) {k newSize : ℕ} (hk : k ≤ data.length)
    (h : data.length ≤ newSize) : (reallocated fresh data newSize).take k = data.take k := by
  rw [reallocated, List.take_of_length_le h, List.take_append_of_le_length hk]

/-- `Buffer_resize` with an array that `realloc` returned. -/
theorem resized_valid (h : b.Valid) {n : ℕ} (hgrows : b.size < b.offset + n)
    (hsmall : b.offset + n < 2 ^ 63) (fresh : ℕ → α) :
    let newSize := toSize (b.offset + n)
    let b' : Buffer α := { b with size := newSize, data := reallocated fresh b.data newSize }
    b'.Valid ∧ b'.stored = b.stored ∧ (newSize : ℤ) = b.offset + n := by
  obtain ⟨k, hk⟩ := Int.eq_ofNat_of_zero_le h.low
  have hcells := h.cells
  have hhigh := h.high
  have hsize : toSize (b.offset + n) = k + n := by
    rw [hk, ← Nat.cast_add, toSize_natCast (by omega)]
  simp only [hsize]
  refine ⟨⟨?_, h.low, ?_, ?_⟩, ?_, ?_⟩
  · exact length_reallocated fresh b.data (by omega)
  · simp only
    omega
  · simp only
    omega
  · simp only [Buffer.stored]
    exact take_reallocated fresh b.data (by omega) (by omega)
  · omega

section Append

variable (h : this.buffer.Valid) (hsmall : this.buffer.offset + ptr.length < 2 ^ 63)

include h hsmall

theorem toSize_newSize :
    (toSize (this.buffer.offset + ptr.length) : ℤ) = this.buffer.offset + ptr.length := by
  have hlow := h.low
  unfold toSize
  omega

/-- There is room for all of it. -/
theorem bufferAppend_fits (hempty : ptr.length ≠ 0)
    (hfits : this.buffer.offset + ptr.length ≤ this.buffer.size) (realloc : Realloc α) :
    ∃ buffer, bufferAppend this ptr realloc = some (ptr.length, { this with buffer := buffer }) ∧
      Appended this.buffer ptr ptr.length buffer := by
  have hsum := toSize_newSize h hsmall
  have hnot : ¬ toSize (this.buffer.offset + ptr.length) > this.buffer.size := by omega
  obtain ⟨data, hcopy, happended⟩ := copy_appended h le_rfl hfits
  refine ⟨_, ?_, happended⟩
  unfold bufferAppend
  rw [if_neg hempty]
  simp only [if_neg hnot, hcopy]
  rfl

/-- The buffer does not grow: what fits is stored. -/
theorem bufferAppend_short (hempty : ptr.length ≠ 0)
    (hover : this.buffer.size < this.buffer.offset + ptr.length) {realloc : Realloc α}
    {pending : Bool} (hresize : ∀ newSize, bufferResize this newSize realloc =
      (this.buffer.size, { this with pending := pending })) :
    ∃ buffer, bufferAppend this ptr realloc =
        some (this.buffer.size - this.buffer.offset.toNat, ⟨buffer, pending⟩) ∧
      Appended this.buffer ptr (this.buffer.size - this.buffer.offset.toNat) buffer := by
  have hsum := toSize_newSize h hsmall
  have hlow := h.low
  have hhigh := h.high
  have hlarge := h.small
  have hgreater : toSize (this.buffer.offset + ptr.length) > this.buffer.size := by omega
  have hrest : toSize (this.buffer.size - this.buffer.offset) =
      this.buffer.size - this.buffer.offset.toNat := by
    unfold toSize
    omega
  have hroom : this.buffer.offset + (this.buffer.size - this.buffer.offset.toNat : ℕ) ≤
      this.buffer.size := by omega
  have hshort : this.buffer.size - this.buffer.offset.toNat ≤ ptr.length := by omega
  obtain ⟨data, hcopy, happended⟩ := copy_appended h hshort hroom
  refine ⟨_, ?_, happended⟩
  unfold bufferAppend
  rw [if_neg hempty]
  simp only [if_pos hgreater, hresize, hrest, hcopy]
  rfl

/-- The buffer grows, and all of it is stored. -/
theorem bufferAppend_grows (hempty : ptr.length ≠ 0)
    (hover : this.buffer.size < this.buffer.offset + ptr.length)
    (hext : this.buffer.extensible = true) (fresh : ℕ → α) :
    ∃ buffer, bufferAppend this ptr (some fresh) =
        some (ptr.length, { this with buffer := buffer }) ∧
      Appended this.buffer ptr ptr.length buffer := by
  have hlow := h.low
  have hsum := toSize_newSize h hsmall
  have hgreater : toSize (this.buffer.offset + ptr.length) > this.buffer.size := by omega
  obtain ⟨hvalid, hstored, hsize⟩ := resized_valid h hover hsmall fresh
  have hrest : toSize (toSize (this.buffer.offset + ptr.length) - this.buffer.offset) =
      ptr.length := by
    rw [hsize, add_sub_cancel_left]
    exact toSize_natCast (by omega)
  obtain ⟨data, hcopy, happended⟩ := copy_appended hvalid le_rfl hsize.ge
  refine ⟨_, ?_, happended.valid, happended.offset, ?_, happended.extensible, ?_, ?_⟩
  · unfold bufferAppend
    rw [if_neg hempty]
    simp only [if_pos hgreater, bufferResize, if_pos hext, hrest]
    simp only at hcopy
    rw [hcopy]
    rfl
  · exact happended.stored.trans (by rw [hstored])
  · intro hfixed
    exact absurd hext (by simp [hfixed])
  · intro hfixed
    exact absurd hext (by simp [hfixed])

end Append

theorem appended_nil (h : b.Valid) (ptr : List α) : Appended b ptr 0 b where
  valid := h
  offset := by simp
  stored := by simp
  extensible := rfl
  size _ := rfl
  rest _ := rfl

theorem Buffer.takes_of_fits (h : b.Valid) {n : ℕ} (hfits : b.offset + n ≤ b.size)
    (realloc : Realloc α) : b.takes realloc n = n := by
  have hlow := h.low
  unfold Buffer.takes
  split
  · rfl
  · omega

theorem Buffer.takes_of_short (h : b.Valid) {n : ℕ} (hover : b.size < b.offset + n)
    {realloc : Realloc α} (hshort : ¬(b.extensible ∧ realloc.isSome)) :
    b.takes realloc n = b.size - b.offset.toNat := by
  have hlow := h.low
  rw [Buffer.takes, if_neg hshort]
  omega

/-- One call of `Buffer_append`. -/
theorem bufferAppend_spec (h : this.buffer.Valid) (hsmall : this.buffer.offset + ptr.length < 2 ^ 63)
    (realloc : Realloc α) :
    ∃ after, bufferAppend this ptr realloc =
        some (this.buffer.takes realloc ptr.length, after) ∧
      Appended this.buffer ptr (this.buffer.takes realloc ptr.length) after.buffer ∧
      (after.pending = true ↔
        this.pending = true ∨ this.buffer.Fails realloc ptr.length) := by
  have hhigh := h.high
  by_cases hempty : ptr.length = 0
  · have hfits : this.buffer.offset + ptr.length ≤ this.buffer.size := by omega
    have hfails : ¬ this.buffer.Fails realloc ptr.length := fun hf => absurd hf.2.2 (by omega)
    rw [Buffer.takes_of_fits h hfits]
    refine ⟨this, by rw [bufferAppend, if_pos hempty], ?_, by simp [hfails]⟩
    rw [hempty]
    exact appended_nil h ptr
  by_cases hfits : this.buffer.offset + ptr.length ≤ this.buffer.size
  · have hfails : ¬ this.buffer.Fails realloc ptr.length := fun hf => absurd hf.2.2 (by omega)
    obtain ⟨buffer, hrun, happended⟩ := bufferAppend_fits h hsmall hempty hfits realloc
    rw [Buffer.takes_of_fits h hfits]
    exact ⟨_, hrun, happended, by simp [hfails]⟩
  have hover : this.buffer.size < this.buffer.offset + ptr.length := by omega
  by_cases hext : this.buffer.extensible = true
  · rcases realloc with _ | fresh
    · -- `realloc` fails, and `Buffer_resize` returns the old size
      have hresize : ∀ newSize, bufferResize this newSize none =
          (this.buffer.size, { this with pending := true }) := by
        intro newSize
        simp [bufferResize, hext]
      obtain ⟨buffer, hrun, happended⟩ := bufferAppend_short h hsmall hempty hover hresize
      rw [Buffer.takes_of_short h hover (by simp)]
      exact ⟨_, hrun, happended, by simp [Buffer.Fails, hext, hover]⟩
    · obtain ⟨buffer, hrun, happended⟩ := bufferAppend_grows h hsmall hempty hover hext fresh
      have htakes : this.buffer.takes (some fresh) ptr.length = ptr.length := by
        simp [Buffer.takes, hext]
      rw [htakes]
      exact ⟨_, hrun, happended, by simp [Buffer.Fails]⟩
  · have hresize : ∀ newSize, bufferResize this newSize realloc =
        (this.buffer.size, { this with pending := this.pending }) := by
      intro newSize
      simp [bufferResize, hext]
    obtain ⟨buffer, hrun, happended⟩ := bufferAppend_short h hsmall hempty hover hresize
    rw [Buffer.takes_of_short h hover (fun hboth => hext hboth.1)]
    exact ⟨_, hrun, happended, by simp [Buffer.Fails, hext]⟩

/-- One call of `Buffer_fetch`. -/
theorem bufferFetch_spec (h : b.Valid) {n : ℕ} (hsmall : n < 2 ^ 63) :
    ∃ items, bufferFetch b n =
        some (items, { b with offset := b.offset + (min n (b.size - b.offset.toNat) : ℕ) }) ∧
      items = (b.data.drop b.offset.toNat).take (min n (b.size - b.offset.toNat)) := by
  have hlow := h.low
  have hhigh := h.high
  have hcells := h.cells
  have hlarge := h.small
  refine ⟨_, ?_, rfl⟩
  unfold bufferFetch
  by_cases hzero : n = 0
  · rw [if_pos hzero]
    simp [hzero]
  · have hsum : (toSize (b.offset + n) : ℤ) = b.offset + n := by
      unfold toSize
      omega
    have hrest : toSize (b.size - b.offset) = b.size - b.offset.toNat := by
      unfold toSize
      omega
    have hnumber : (if toSize (b.offset + n) > b.size then toSize (b.size - b.offset) else n) =
        min n (b.size - b.offset.toNat) := by
      rw [hrest]
      split
      · omega
      · omega
    rw [if_neg hzero]
    simp only [hnumber]
    rw [copyOut, if_pos ⟨hlow, by omega⟩, advance_eq hlow (by omega)]
    rfl

/-! ## Any sequence of calls -/

/-- What the calls of `Buffer_append` bring. -/
def sent (calls : List (List α × Realloc α)) : List α := (calls.map Prod.fst).flatten

@[simp] theorem sent_cons (ptr : List α) (realloc : Realloc α) (calls : List (List α × Realloc α)) :
    sent ((ptr, realloc) :: calls) = ptr ++ sent calls := rfl

theorem Buffer.takes_le (b : Buffer α) (realloc : Realloc α) (n : ℕ) : b.takes realloc n ≤ n := by
  unfold Buffer.takes
  split
  · exact le_rfl
  · exact min_le_left _ _

theorem appendAll_cons {ptr : List α} {realloc : Realloc α} {calls : List (List α × Realloc α)}
    {ret : ℕ} {after : Sink α} (h : bufferAppend this ptr realloc = some (ret, after)) :
    appendAll this ((ptr, realloc) :: calls) = appendAll after calls := by
  rw [appendAll, h]
  rfl

/-- After any calls the buffer is as it should be. -/
theorem appendAll_valid (calls : List (List α × Realloc α)) (h : this.buffer.Valid)
    (hsmall : this.buffer.offset + (sent calls).length < 2 ^ 63) :
    ∃ after, appendAll this calls = some after ∧ after.buffer.Valid ∧
      after.buffer.extensible = this.buffer.extensible ∧
      after.buffer.offset ≤ this.buffer.offset + (sent calls).length := by
  induction calls generalizing this with
  | nil => exact ⟨this, rfl, h, rfl, by simp [sent]⟩
  | cons call calls ih =>
    obtain ⟨ptr, realloc⟩ := call
    simp only [sent_cons, List.length_append, Nat.cast_add] at hsmall ⊢
    obtain ⟨middle, hrun, happended, -⟩ := bufferAppend_spec h
      (by omega : this.buffer.offset + ptr.length < 2 ^ 63) realloc
    have htakes := this.buffer.takes_le realloc ptr.length
    have hoffset := happended.offset
    obtain ⟨after, hrest, hvalid, hext, hle⟩ := ih happended.valid (by omega)
    refine ⟨after, (appendAll_cons hrun).trans hrest, hvalid, hext.trans happended.extensible, ?_⟩
    omega

theorem take_take_append (n : ℕ) (xs ys : List α) : (xs.take n ++ ys).take n = (xs ++ ys).take n := by
  rw [List.take_append, List.take_append, List.take_take, min_self, List.length_take]
  by_cases hn : n ≤ xs.length
  · rw [min_eq_left hn, Nat.sub_self, Nat.sub_eq_zero_of_le hn]
  · rw [min_eq_right (by omega)]

/-- What one call stores in a fixed buffer. -/
theorem Appended.fixed {after : Buffer α} (h : b.Valid) (hfixed : b.extensible = false)
    (happended : Appended b ptr (b.takes realloc ptr.length) after) :
    after.stored = (b.stored ++ ptr).take b.size ∧
      after.offset = min (b.size : ℤ) (b.offset + ptr.length) := by
  have hlow := h.low
  have hhigh := h.high
  have hlength := h.length_stored
  have htakes : b.takes realloc ptr.length = min ptr.length (b.size - b.offset.toNat) := by
    simp [Buffer.takes, hfixed]
  have hoffset := happended.offset
  constructor
  · have hall : b.stored.take b.size = b.stored := List.take_of_length_le (by omega)
    have hpart : ptr.take (min ptr.length (b.size - b.offset.toNat)) =
        ptr.take (b.size - b.offset.toNat) := by
      rw [min_comm, ← List.take_eq_take_min]
    rw [happended.stored, htakes, hpart, List.take_append, hall, hlength]
  · omega

/-- Calls of `Buffer_append` on a fixed buffer. -/
theorem appendAll_fixed (calls : List (List α × Realloc α)) (h : this.buffer.Valid)
    (hfixed : this.buffer.extensible = false)
    (hsmall : this.buffer.offset + (sent calls).length < 2 ^ 63) :
    ∃ after, appendAll this calls = some after ∧ after.pending = this.pending ∧
      after.buffer.Valid ∧ after.buffer.size = this.buffer.size ∧
      after.buffer.extensible = false ∧
      after.buffer.stored = (this.buffer.stored ++ sent calls).take this.buffer.size ∧
      after.buffer.offset =
        min (this.buffer.size : ℤ) (this.buffer.offset + (sent calls).length) ∧
      after.buffer.data.drop after.buffer.offset.toNat =
        this.buffer.data.drop after.buffer.offset.toNat := by
  have hhigh := h.high
  have hlow := h.low
  induction calls generalizing this with
  | nil =>
    have hlength := h.length_stored
    refine ⟨this, rfl, rfl, h, rfl, hfixed, ?_, ?_, rfl⟩
    · rw [sent, List.map_nil, List.flatten_nil, List.append_nil, List.take_of_length_le (by omega)]
    · simp [sent, hhigh]
  | cons call calls ih =>
    obtain ⟨ptr, realloc⟩ := call
    simp only [sent_cons, List.length_append, Nat.cast_add] at hsmall ⊢
    obtain ⟨middle, hrun, happended, hpending⟩ := bufferAppend_spec h
      (by omega : this.buffer.offset + ptr.length < 2 ^ 63) realloc
    obtain ⟨hstored, hoffset⟩ := happended.fixed h hfixed
    have hsize := happended.size hfixed
    have hsame : middle.pending = this.pending := by
      have hfails : ¬ this.buffer.Fails realloc ptr.length := by simp [Buffer.Fails, hfixed]
      simpa [hfails] using hpending
    obtain ⟨after, hrest, hpending', hvalid, hsize', hfixed', hstored', hoffset', hdrop⟩ :=
      ih happended.valid (happended.extensible.trans hfixed) (by omega) happended.valid.high
        happended.valid.low
    refine ⟨after, (appendAll_cons hrun).trans hrest, hpending'.trans hsame, hvalid,
      hsize'.trans hsize, hfixed', ?_, by omega, ?_⟩
    · rw [hstored', hsize, hstored, take_take_append, List.append_assoc]
    · have hle : middle.buffer.offset.toNat ≤ after.buffer.offset.toNat := by omega
      obtain ⟨d, hd⟩ := Nat.exists_eq_add_of_le hle
      rw [hdrop, hd, ← List.drop_drop, happended.rest hfixed, List.drop_drop]

/-- Calls of `Buffer_append` on an extensible buffer, as long as it can grow. -/
theorem appendAll_extensible (calls : List (List α × Realloc α)) (h : this.buffer.Valid)
    (hext : this.buffer.extensible = true) (hgrows : ∀ call ∈ calls, call.2.isSome = true)
    (hsmall : this.buffer.offset + (sent calls).length < 2 ^ 63) :
    ∃ after, appendAll this calls = some after ∧ after.pending = this.pending ∧
      after.buffer.Valid ∧ after.buffer.extensible = true ∧
      after.buffer.stored = this.buffer.stored ++ sent calls ∧
      after.buffer.offset = this.buffer.offset + (sent calls).length := by
  induction calls generalizing this with
  | nil => exact ⟨this, rfl, rfl, h, hext, by simp [sent], by simp [sent]⟩
  | cons call calls ih =>
    obtain ⟨ptr, realloc⟩ := call
    have hsome : realloc.isSome = true := hgrows _ List.mem_cons_self
    simp only [sent_cons, List.length_append, Nat.cast_add] at hsmall ⊢
    obtain ⟨middle, hrun, happended, hpending⟩ := bufferAppend_spec h
      (by omega : this.buffer.offset + ptr.length < 2 ^ 63) realloc
    have htakes : this.buffer.takes realloc ptr.length = ptr.length := by
      rw [Buffer.takes, if_pos ⟨hext, hsome⟩]
    have hsame : middle.pending = this.pending := by
      have hfails : ¬ this.buffer.Fails realloc ptr.length := by
        rintro ⟨-, hnone, -⟩
        simp [hnone] at hsome
      simpa [hfails] using hpending
    rw [htakes] at happended
    have hoffset := happended.offset
    obtain ⟨after, hrest, hpending', hvalid, hext', hstored', hoffset'⟩ := ih happended.valid
      (happended.extensible.trans hext) (fun c hc => hgrows c (List.mem_cons_of_mem _ hc)) (by omega)
    refine ⟨after, (appendAll_cons hrun).trans hrest, hpending'.trans hsame, hvalid, hext', ?_,
      by omega⟩
    rw [hstored', happended.stored, List.take_of_length_le le_rfl, List.append_assoc]

theorem fetchAll_cons {n : ℕ} {requests : List ℕ} {items : List α} {middle after : Buffer α}
    {pieces : List (List α)} (hfirst : bufferFetch b n = some (items, middle))
    (hrest : fetchAll middle requests = some (pieces, after)) :
    fetchAll b (n :: requests) = some (items :: pieces, after) := by
  rw [fetchAll, hfirst]
  simp only [Option.bind_eq_bind, Option.bind_some, hrest]

/-- Calls of `Buffer_fetch`. -/
theorem fetchAll_spec (requests : List ℕ) (h : b.Valid) (hsmall : requests.sum < 2 ^ 63) :
    ∃ pieces after, fetchAll b requests = some (pieces, after) ∧ after.Valid ∧
      after.data = b.data ∧ after.size = b.size ∧
      after.offset = min (b.size : ℤ) (b.offset + requests.sum) ∧
      pieces.flatten = (b.data.drop b.offset.toNat).take requests.sum := by
  have hlow := h.low
  have hhigh := h.high
  have hcells := h.cells
  induction requests generalizing b with
  | nil => exact ⟨[], b, rfl, h, rfl, rfl, by simp [hhigh], by simp⟩
  | cons n requests ih =>
    rw [List.sum_cons] at hsmall
    obtain ⟨items, hfirst, hitems⟩ := bufferFetch_spec h (by omega : n < 2 ^ 63)
    have hvalid : Buffer.Valid
        { b with offset := b.offset + (min n (b.size - b.offset.toNat) : ℕ) } :=
      ⟨hcells, by simp only; omega, by simp only; omega, h.small⟩
    obtain ⟨pieces, after, hrest, hvalid', hdata, hsize, hoffset, hflatten⟩ :=
      ih hvalid (by omega) hvalid.low hvalid.high hvalid.cells
    simp only at hdata hsize hoffset hflatten
    refine ⟨items :: pieces, after, fetchAll_cons hfirst hrest, hvalid', hdata, hsize, ?_, ?_⟩
    · rw [hoffset, List.sum_cons]
      omega
    · have hnext : (b.offset + (min n (b.size - b.offset.toNat) : ℕ)).toNat =
          b.offset.toNat + min n (b.size - b.offset.toNat) := by omega
      rw [List.flatten_cons, hflatten, hitems, hnext, ← List.drop_drop, ← List.take_add,
        List.sum_cons]
      by_cases hn : n ≤ b.size - b.offset.toNat
      · rw [min_eq_left hn]
      · have hlength : (b.data.drop b.offset.toNat).length = b.size - b.offset.toNat := by
          rw [List.length_drop, hcells]
        rw [List.take_of_length_le (by omega), List.take_of_length_le (by omega)]

/-! ## The pieces do not matter -/

/-- A buffer that is still empty. -/
def emptyBuffer (data : List α) (extensible : Bool) : Buffer α := ⟨data, data.length, 0, extensible⟩

/-- After the calls the data are the first items of what was sent, and then what they were
    before; the next call with items is short exactly when these do not fit. -/
def StoresFront (data : List α) (pending : Bool) (calls : List (List α × Realloc α)) : Prop :=
  ∃ after, appendAll ⟨emptyBuffer data false, pending⟩ calls = some after ∧ after.buffer.Valid ∧
    after.buffer.data = (sent calls).take data.length ++ data.drop (sent calls).length ∧
    ∀ ptr realloc, ptr ≠ [] → (sent calls).length + ptr.length < 2 ^ 63 →
      ∃ ret next, bufferAppend after ptr realloc = some (ret, next) ∧
        (ret < ptr.length ↔ data.length < (sent calls).length + ptr.length)

/-- After the calls all of what was sent is stored. -/
def StoresAll (data : List α) (pending : Bool) (calls : List (List α × Realloc α)) : Prop :=
  ∃ after, appendAll ⟨emptyBuffer data true, pending⟩ calls = some after ∧ after.buffer.Valid ∧
    after.pending = pending ∧ after.buffer.stored = sent calls

/-- A call after these whose `realloc` fails raises, keeps what is stored and is short. -/
def KeepsStored (data : List α) (pending : Bool) (calls : List (List α × Realloc α)) : Prop :=
  ∃ after, appendAll ⟨emptyBuffer data true, pending⟩ calls = some after ∧ after.buffer.Valid ∧
    ∀ ptr, (sent calls).length + ptr.length < 2 ^ 63 →
      after.buffer.size < after.buffer.offset + ptr.length →
        ∃ ret next, bufferAppend after ptr none = some (ret, next) ∧ next.buffer.Valid ∧
          next.pending = true ∧ after.buffer.stored <+: next.buffer.stored ∧ ret < ptr.length

/-- The pieces are the data in order; the next one is empty exactly when all are delivered. -/
def DeliversFront (data : List α) (extensible : Bool) (requests : List ℕ) : Prop :=
  ∃ pieces after, fetchAll (emptyBuffer data extensible) requests = some (pieces, after) ∧
    after.Valid ∧ pieces.flatten = data.take requests.sum ∧
    ∀ n, 0 < n → n < 2 ^ 63 → ∃ items next, bufferFetch after n = some (items, next) ∧
      (items.length = 0 ↔ data.length ≤ requests.sum)

section Empty

variable {data : List α} (hdata : data.length < 2 ^ 63)

include hdata

theorem valid_emptyBuffer (extensible : Bool) : (emptyBuffer data extensible).Valid :=
  ⟨rfl, le_rfl, by simp [emptyBuffer], hdata⟩

theorem storesFront (pending : Bool) {calls : List (List α × Realloc α)}
    (hsmall : (sent calls).length < 2 ^ 63) : StoresFront data pending calls := by
  obtain ⟨after, hrun, -, hvalid, hsize, hfixed, hstored, hoffset, hdrop⟩ :=
    @appendAll_fixed _ ⟨emptyBuffer data false, pending⟩ calls
      (valid_emptyBuffer hdata false) rfl (by simpa [emptyBuffer] using hsmall)
  simp only [emptyBuffer, Buffer.stored] at hsize hstored hoffset hdrop
  refine ⟨after, hrun, hvalid, ?_, ?_⟩
  · have htail : data.drop after.buffer.offset.toNat = data.drop (sent calls).length := by
      by_cases hover : data.length ≤ (sent calls).length
      · rw [List.drop_eq_nil_of_le (by omega), List.drop_eq_nil_of_le hover]
      · congr 1
        omega
    rw [← List.take_append_drop after.buffer.offset.toNat after.buffer.data, hstored, hdrop, htail]
    simp
  · intro ptr realloc hne hnext
    have hroom : after.buffer.offset + ptr.length < 2 ^ 63 := by omega
    obtain ⟨next, hcall, -, -⟩ := bufferAppend_spec hvalid hroom realloc
    refine ⟨_, next, hcall, ?_⟩
    have hpos : 0 < ptr.length := List.length_pos_of_ne_nil hne
    rw [Buffer.takes, if_neg (by simp [hfixed])]
    omega

theorem storesAll (pending : Bool) {calls : List (List α × Realloc α)}
    (hgrows : ∀ call ∈ calls, call.2.isSome = true) (hsmall : (sent calls).length < 2 ^ 63) :
    StoresAll data pending calls := by
  obtain ⟨after, hrun, hpending, hvalid, -, hstored, -⟩ :=
    @appendAll_extensible _ ⟨emptyBuffer data true, pending⟩ calls
      (valid_emptyBuffer hdata true) rfl hgrows (by simpa [emptyBuffer] using hsmall)
  exact ⟨after, hrun, hvalid, hpending, by simpa [emptyBuffer, Buffer.stored] using hstored⟩

theorem keepsStored (pending : Bool) {calls : List (List α × Realloc α)}
    (hsmall : (sent calls).length < 2 ^ 63) : KeepsStored data pending calls := by
  obtain ⟨after, hrun, hvalid, hext, hoffset⟩ :=
    @appendAll_valid _ ⟨emptyBuffer data true, pending⟩ calls
      (valid_emptyBuffer hdata true) (by simpa [emptyBuffer] using hsmall)
  simp only [emptyBuffer] at hext hoffset
  refine ⟨after, hrun, hvalid, ?_⟩
  intro ptr hnext hover
  have hlow := hvalid.low
  have hhigh := hvalid.high
  have hroom : after.buffer.offset + ptr.length < 2 ^ 63 := by omega
  obtain ⟨next, hcall, happended, hpending⟩ := bufferAppend_spec hvalid hroom none
  refine ⟨_, next, hcall, happended.valid, hpending.mpr (.inr ⟨hext, rfl, hover⟩), ?_, ?_⟩
  · rw [happended.stored]
    exact List.prefix_append _ _
  · rw [Buffer.takes_of_short hvalid hover (by simp)]
    omega

theorem deliversFront (extensible : Bool) {requests : List ℕ} (hsmall : requests.sum < 2 ^ 63) :
    DeliversFront data extensible requests := by
  obtain ⟨pieces, after, hrun, hvalid, hdata', hsize, hoffset, hflatten⟩ :=
    fetchAll_spec requests (valid_emptyBuffer hdata extensible) hsmall
  simp only [emptyBuffer] at hdata' hsize hoffset hflatten
  refine ⟨pieces, after, hrun, hvalid, by simpa using hflatten, ?_⟩
  intro n hpos hn
  obtain ⟨items, hcall, hitems⟩ := bufferFetch_spec hvalid hn
  refine ⟨items, _, hcall, ?_⟩
  have hcells := hvalid.cells
  rw [hitems, List.length_take, List.length_drop]
  omega

end Empty

/-- The pieces in which a body comes or goes do not matter, and an empty piece is returned as
    it came, whatever was stored before. -/
theorem buffer_chunks (data : List α) (hdata : data.length < 2 ^ 63) (pending : Bool) :
    (∀ calls, (sent calls).length < 2 ^ 63 → StoresFront data pending calls) ∧
      (∀ calls, (∀ call ∈ calls, call.2.isSome = true) → (sent calls).length < 2 ^ 63 →
        StoresAll data pending calls) ∧
      (∀ calls, (sent calls).length < 2 ^ 63 → KeepsStored data pending calls) ∧
      (∀ extensible requests, (∀ n ∈ requests, 0 < n) → requests.sum < 2 ^ 63 →
        DeliversFront data extensible requests) ∧
      ∀ (this : Sink α) (realloc : Realloc α), bufferAppend this [] realloc = some (0, this) := by
  refine ⟨?_, ?_, ?_, ?_, fun _ _ => rfl⟩
  · intro calls hsmall
    exact storesFront hdata pending hsmall
  · intro calls hgrows hsmall
    exact storesAll hdata pending hgrows hsmall
  · intro calls hsmall
    exact keepsStored hdata pending hsmall
  · intro extensible requests _ hsmall
    exact deliversFront hdata extensible hsmall

theorem buffer_chunks_page : StoresFront [0, 0, 0] false [([1, 2], none), ([3, 4], none)] ∧
    StoresAll ([] : List ℕ) false [([1, 2], some id), ([3, 4], some id)] := by
  obtain ⟨hfront, -⟩ := buffer_chunks [0, 0, 0] (by decide) false
  obtain ⟨-, hall, -⟩ := buffer_chunks ([] : List ℕ) (by decide) false
  exact ⟨hfront _ (by decide), hall _ (by simp) (by decide)⟩

/-- An empty piece after the buffer has overflowed is not short. -/
theorem empty_chunk_not_short :
    ∃ after, appendAll ⟨emptyBuffer [0] false, false⟩ [([1, 2], none)] = some after ∧
      1 < (sent [([1, 2], (none : Realloc ℕ))]).length + ([] : List ℕ).length ∧
      bufferAppend after [] none = some (0, after) ∧ ¬ 0 < ([] : List ℕ).length :=
  ⟨_, rfl, by decide, rfl, by decide⟩

end NetworkFs.Template
