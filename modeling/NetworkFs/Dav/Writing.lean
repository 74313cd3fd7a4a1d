import NetworkFs.Dav.Interleaving

/-!
# One writer

`dav_write` against a server with one file. A `PUT` past the end is answered with 416; `dav_write`
then fills the gap with zeros, if the length from `HEAD` is below the offset cut to 32 bits.

* `returns_direct`, `returns_padded`, `returns_refused`: the client of `dav_write` alone.
* `davWrite_pwrite_iff`: when `dav_write` does what `pwrite` does.
-/

namespace NetworkFs.Dav

open Control Grammar Wrapper Text Data Concurrency

section Alone

variable {σ : Type} {serve : Request → σ → Reply × σ} {path : Path} {content : σ → Bytes}
  (hserve : ServesFile serve path content) {c : WriteCall}

include hserve

/-- The last `PUT`, in the file or at its end. -/
theorem returns_last {s : σ} (h : c.offset ≤ (content s).length) :
    ∃ s', (writeClient path c).Returns serve .last s (toInt c.buf.length) s' ∧
      content s' = splice 0 (content s) c.offset c.buf := by
  obtain ⟨hcode, hput⟩ := hserve.put c c.buf c.offset s h
  exact ⟨_, .ask (x := WriteStage.last) rfl (.done (congrArg (writeClient path c).view (if_pos hcode))), hput⟩

/-- The first `PUT` succeeds. -/
theorem returns_direct {s : σ} (h : c.offset ≤ (content s).length) :
    ∃ s', (writeClient path c).Returns serve .first s (toInt c.buf.length) s' ∧
      content s' = splice 0 (content s) c.offset c.buf := by
  obtain ⟨hcode, hput⟩ := hserve.put c c.buf c.offset s h
  exact ⟨_, .ask (x := WriteStage.first) rfl (.done (congrArg (writeClient path c).view (if_pos hcode))), hput⟩

/-- Past the end, up to the reply to the `HEAD`. -/
theorem returns_past {s : σ} (h : (content s).length < c.offset) (hoff : c.offset < 2 ^ 63) :
    ∃ s₁, content s₁ = content s ∧ ∀ v s',
      (writeClient path c).Returns serve
        (if (content s).length < c.offset % 2 ^ 32 then .pad (content s).length else .last) s₁ v s' →
      (writeClient path c).Returns serve .first s v s' := by
  obtain ⟨hcode, hstatus, hsame⟩ := hserve.past c c.buf c.offset s h
  have hfirst : (writeClient path c).resume .first (serve (c.put path c.buf c.offset) s).1 = .head := by
    refine (if_neg (by rw [hcode]; exact nofun)).trans (if_pos ?_)
    rw [replyException, hcode, hstatus]
    rfl
  set s₀ := (serve (c.put path c.buf c.offset) s).2 with hs₀
  obtain ⟨hok, hlength, hsame'⟩ := hserve.head s₀ (by rw [hsame]; omega)
  have hhead : (writeClient path c).resume .head (serve (headRequest path) s₀).1 =
      if (content s).length < c.offset % 2 ^ 32 then .pad (content s).length else .last := by
    rw [← toUnsigned_natCast, ← hsame, ← hlength]
    exact if_pos hok
  refine ⟨(serve (headRequest path) s₀).2, hsame'.trans hsame, fun v s' hrest => ?_⟩
  refine .ask (x := WriteStage.first) rfl ?_
  rw [hfirst]
  refine .ask (x := WriteStage.head) rfl ?_
  rw [hhead]
  exact hrest

/-- The gap is filled. -/
theorem returns_padded {s : σ} (h : (content s).length < c.offset)
    (hlow : (content s).length < c.offset % 2 ^ 32) (hoff : c.offset < 2 ^ 63) :
    ∃ s', (writeClient path c).Returns serve .first s (toInt c.buf.length) s' ∧
      content s' = splice 0 (content s) c.offset c.buf := by
  obtain ⟨s₁, hsame, hrest⟩ := returns_past hserve h hoff
  rw [if_pos hlow] at hrest
  have hview : (writeClient path c).view (.pad (content s).length) =
      .inr (c.put path (List.replicate (c.offset - (content s).length) 0) (content s).length) := by
    show Sum.inr (c.put path (c.zeros _) (toSsize _)) = _
    rw [WriteCall.zeros, toSize_natCast_sub h.le (by omega), toSsize_natCast (by omega)]
  obtain ⟨hcode, hput⟩ := hserve.put c (List.replicate (c.offset - (content s).length) 0)
    (content s).length s₁ (by rw [hsame])
  rw [hsame] at hput
  obtain ⟨s', hlast, hput'⟩ := returns_last hserve (c := c) (s := (serve (c.put path
    (List.replicate (c.offset - (content s).length) 0) (content s).length) s₁).2) (by
      rw [hput, length_splice, List.length_replicate]
      omega)
  refine ⟨s', hrest _ _ (.ask hview ?_), ?_⟩
  · have hstage : (writeClient path c).resume (.pad (content s).length) (serve (c.put path
        (List.replicate (c.offset - (content s).length) 0) (content s).length) s₁).1 = .last :=
      if_pos hcode
    rw [hstage]
    exact hlast
  · rw [hput', hput, splice_fill 0 c.buf h.le]

/-- The gap is not filled: the low 32 bits of the offset are not above the length. -/
theorem returns_refused {s : σ} (h : (content s).length < c.offset)
    (hlow : c.offset % 2 ^ 32 ≤ (content s).length) (hoff : c.offset < 2 ^ 63) :
    ∃ v s', (writeClient path c).Returns serve .first s v s' ∧ v < 0 := by
  obtain ⟨s₁, hsame, hrest⟩ := returns_past hserve h hoff
  rw [if_neg (Nat.not_lt.mpr hlow)] at hrest
  obtain ⟨hcode, -, -⟩ := hserve.past c c.buf c.offset s₁ (by rw [hsame]; exact h)
  have hne : (serve (c.put path c.buf c.offset) s₁).1.code ≠ .ok := by
    rw [hcode]
    exact nofun
  exact ⟨_, _, hrest _ _ (.ask (x := WriteStage.last) rfl
    (.done (congrArg (writeClient path c).view (if_neg hne)))), exceptionErrno_neg _⟩

end Alone

section Pwrite

variable {σ ρ : Type} {env : Env σ} (srv : DavServer) (hs : Steady env) {path : Path}
  {content : σ → Bytes} (hserve : ServesFile env.perform path content) {t : Thread (Mem σ)}
  (h : t.ex.has = false) (hl : CanLock srv .read t)

include hs hserve h hl

/-- `dav_write` refuses a write past the end whose offset, cut to 32 bits, is not. -/
theorem davWrite_refused (buf : Bytes) {offset : ℕ} (hpast : (content t.mem.env).length < offset)
    (hlow : offset % 2 ^ 32 ≤ (content t.mem.env).length) (hoff : offset < 2 ^ 63) :
    ∃ v t', (davWrite env srv path buf offset : Dav σ ρ ℤ) t = (.ok v, t') ∧ v < 0 := by
  set c : WriteCall := ⟨lockLines srv path .read t.mem.table, buf, offset⟩ with hc
  obtain ⟨v, t', hrun, hreturns, -⟩ := davWrite_returns (ρ := ρ) srv hs path h hl (c := c) rfl
  obtain ⟨v', s', hs', hneg⟩ := returns_refused hserve (c := c) hpast hlow hoff
  rw [← (hreturns.unique hs').1] at hneg
  exact ⟨v, t', hrun, hneg⟩

/-- Any other write is stored. -/
theorem davWrite_stored {buf : Bytes} {offset : ℕ} (hsize : buf.length < 2 ^ 31)
    (hoff : offset < 2 ^ 63) (hcond : offset ≤ (content t.mem.env).length ∨
      (content t.mem.env).length < offset % 2 ^ 32) :
    ∃ t', (davWrite env srv path buf offset : Dav σ ρ ℤ) t = (.ok (buf.length : ℤ), t') ∧
      content t'.mem.env = splice 0 (content t.mem.env) offset buf := by
  set c : WriteCall := ⟨lockLines srv path .read t.mem.table, buf, offset⟩ with hc
  obtain ⟨v, t', hrun, hreturns, -⟩ := davWrite_returns (ρ := ρ) srv hs path h hl (c := c) rfl
  have hstored : ∃ s', (writeClient path c).Returns env.perform .first t.mem.env
      (toInt buf.length) s' ∧ content s' = splice 0 (content t.mem.env) offset buf := by
    by_cases hin : offset ≤ (content t.mem.env).length
    · exact returns_direct hserve (c := c) hin
    · exact returns_padded hserve (c := c) (Nat.lt_of_not_le hin) (hcond.resolve_left hin) hoff
  obtain ⟨s', hs', hcontent⟩ := hstored
  obtain ⟨hv, hst⟩ := hreturns.unique hs'
  rw [toInt_natCast hsize] at hv
  exact ⟨t', hrun.trans (by rw [hv]), by rw [hst, hcontent]⟩

/-- `dav_write` returns the size and leaves what `pwrite` does in the file, exactly if the write
    starts in the file or at its end, or the offset cut to 32 bits is still past the end. -/
theorem davWrite_pwrite_iff (buf : Bytes) (offset : ℕ) (hsize : 1 ≤ buf.length)
    (hsize' : buf.length < 2 ^ 31) (hoff : offset < 2 ^ 63) :
    (∃ t', (davWrite env srv path buf offset : Dav σ ρ ℤ) t = (.ok (buf.length : ℤ), t') ∧
      content t'.mem.env = splice 0 (content t.mem.env) offset buf) ↔
    offset ≤ (content t.mem.env).length ∨ (content t.mem.env).length < offset % 2 ^ 32 := by
  constructor
  · rintro ⟨t', hrun, -⟩
    by_contra hbad
    push Not at hbad
    obtain ⟨v, t'', hrun', hneg⟩ := davWrite_refused (ρ := ρ) srv hs hserve h hl buf
      hbad.1 hbad.2 hoff
    have hv : (buf.length : ℤ) = v := Except.ok.inj (Prod.mk.inj (hrun.symm.trans hrun')).1
    omega
  · exact davWrite_stored srv hs hserve h hl hsize' hoff

end Pwrite

/-- Two bytes behind a gap of two. -/
theorem davWrite_gap :
    ∃ t', (davWrite (serving serveFile) lockingServer [47, 97] [1, 2] (3 : ℕ) : Dav Bytes ℤ ℤ)
      (entered [7] []) = (.ok 2, t') ∧ t'.mem.env = [7, 0, 0, 1, 2] :=
  (davWrite_pwrite_iff (ρ := ℤ) lockingServer (steady_serving serveFile)
    (servesFile_serveFile [47, 97]) (t := entered [7] []) rfl (fun _ => rfl) [1, 2] 3 (by decide)
    (by decide) (by decide)).mpr (.inr (by decide))

/-- A byte at 2³² of an empty file is refused. -/
theorem davWrite_far_refused :
    ¬∃ t', (davWrite (serving serveFile) lockingServer [47, 97] [1] (2 ^ 32 : ℕ) : Dav Bytes ℤ ℤ)
      (entered [] []) = (.ok 1, t') ∧ t'.mem.env = splice 0 [] (2 ^ 32) [1] := by
  rintro ⟨t', hrun, -⟩
  have hpast : (id ([] : Bytes)).length < 2 ^ 32 := by decide
  obtain ⟨v, t'', hrun', hneg⟩ := davWrite_refused (ρ := ℤ) lockingServer (steady_serving serveFile)
    (servesFile_serveFile [47, 97]) (t := entered [] []) rfl (fun _ => rfl) [1] hpast (by decide)
    (by decide)
  have hv : (1 : ℤ) = v := Except.ok.inj (Prod.mk.inj (hrun.symm.trans hrun')).1
  omega

end NetworkFs.Dav
