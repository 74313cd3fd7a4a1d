import NetworkFs.Concurrency.Client
import NetworkFs.Data.Splice
import NetworkFs.Dav.Creation

/-!
# Two writers of one file

`dav_write` as a client of the server: a `PUT`, and after a 416 a `HEAD`, a `PUT` of
zeros up to the offset and the `PUT` again. The zeros start at the length that the `HEAD`
gave, whatever the other writer stored in the meantime.

* `davWrite_returns`: `dav_write` is this client.
* `write_turns_iff`: when two writes of disjoint ranges both survive.
-/

namespace NetworkFs.Dav

open Control Grammar Wrapper Text Data Concurrency

/-! ## `dav_write` as a client -/

/-- A call of `dav_write`, with the `If` lines of its mount. -/
structure WriteCall where
  lines : List Header
  buf : Bytes
  offset : ℕ

/-- Between two requests of `dav_write`. -/
inductive WriteStage where
  /-- Before the first `PUT`. -/
  | first
  /-- After a 416. -/
  | head
  /-- After a `HEAD` that gave a length below the offset. -/
  | pad (realSize : ℕ)
  /-- Before the second `PUT` of the buffer. -/
  | last
  | ended (v : ℤ)
  deriving DecidableEq

/-- The exception of a request that was answered with `reply`. -/
def replyException (reply : Reply) : Exception := .init (.curl reply.code reply.status .perform)

/-- A `PUT` of `data` at `offset`. -/
def WriteCall.put (c : WriteCall) (path : Path) (data : Bytes) (offset : ℤ) : Request :=
  ⟨.put, path, c.lines, some ⟨offset, data.length⟩, .data data⟩

/-- The zeros from `realSize` up to the offset. -/
def WriteCall.zeros (c : WriteCall) (realSize : ℕ) : Bytes :=
  List.replicate (toSize (c.offset - realSize)) 0

/-- `dav_write` (lines 141–185) from request to request. -/
def writeClient (path : Path) (c : WriteCall) : Client WriteStage Request Reply ℤ where
  view
    | .first => .inr (c.put path c.buf c.offset)
    | .head => .inr (headRequest path)
    | .pad realSize => .inr (c.put path (c.zeros realSize) (toSsize realSize))
    | .last => .inr (c.put path c.buf c.offset)
    | .ended v => .inl v
  resume
    | .first, reply =>
      if reply.code = .ok then .ended (toInt c.buf.length)
      else if (replyException reply).isHttp 416 then .head
      else .ended (exceptionErrno (replyException reply))
    | .head, reply =>
      if reply.code = .ok then
        if headLength reply < toUnsigned c.offset then .pad (headLength reply) else .last
      else .ended (exceptionErrno (replyException reply))
    | .pad _, reply =>
      if reply.code = .ok then .last else .ended (exceptionErrno (replyException reply))
    | .last, reply =>
      if reply.code = .ok then .ended (toInt c.buf.length)
      else .ended (exceptionErrno (replyException reply))
    | .ended v, _ => .ended v

section Returns

variable {σ ρ : Type} {env : Env σ} (srv : DavServer) (hs : Steady env) (path : Path)

/-- `m` leaves in `res` what `dav_write` makes of the client from stage `x` on. -/
def Writes (env : Env σ) (c : WriteCall) (m : Dav σ ρ ℤ) (x : WriteStage) (t : Thread (Mem σ)) :
    Prop :=
  ∃ res t', m t = (.ok res, t') ∧ (writeClient path c).Returns env.perform x t.mem.env
      (if res ≠ 0 then exceptionErrno t'.ex else toInt c.buf.length) t'.mem.env ∧
    (res = 0 → t'.ex.has = false) ∧ CanLock srv .read t' ∧ t'.mem.table = t.mem.table

variable {t : Thread (Mem σ)} (h : t.ex.has = false) (hl : CanLock srv .read t)

theorem canLock_locked (hl : CanLock srv .read t) : CanLock srv .read (locked srv .read t) := by
  intro hu
  have hfree := hl hu
  rw [locked, if_pos hu]
  simpa [lockMode] using hfree

include hs h hl

/-- One `PUT` at stage `x`, if it succeeds and if it fails. -/
theorem davPut_resume {c : WriteCall} (hlines : c.lines = lockLines srv path .read t.mem.table)
    {x : WriteStage} {data : Bytes} {offset : ℤ}
    (hview : (writeClient path c).view x = .inr (c.put path data offset)) :
    ∃ res t' reply, (davPut env srv path data offset : Dav σ ρ ℤ) t = (.ok res, t') ∧
      (res = 0 ↔ reply.code = .ok) ∧ t'.ex = (if reply.code = .ok then t.ex else replyException reply) ∧
      CanLock srv .read t' ∧ t'.mem.table = t.mem.table ∧
      ∀ a s', (writeClient path c).Returns env.perform ((writeClient path c).resume x reply)
        t'.mem.env a s' → (writeClient path c).Returns env.perform x t.mem.env a s' := by
  have hrequest : c.put path data offset = putRequest srv path data offset t.mem.table := by
    rw [WriteCall.put, hlines]
    rfl
  set request := putRequest srv path data offset t.mem.table with hr
  by_cases hc : (env.perform request t.mem.env).1.code = .ok
  · refine ⟨_, _, _, davPut_ok srv hs h hl hc, iff_of_true rfl hc, (if_pos hc).symm, hl, rfl, ?_⟩
    intro a s' hrest
    rw [hrequest] at hview
    exact .ask hview hrest
  · refine ⟨_, _, _, davPut_failed srv hs h hl hc, iff_of_false (by decide) hc, ?_, ?_, ?_, ?_⟩
    · rw [if_neg hc]
      rfl
    · exact canLock_locked srv hl
    · rw [refused_mem, locked_table, answered_table]
    · intro a s' hrest
      rw [hrequest] at hview
      rw [refused_mem, locked_env, answered_env] at hrest
      exact .ask hview hrest

variable {c : WriteCall} (hlines : c.lines = lockLines srv path .read t.mem.table)

include hlines

/-- The last `PUT`. -/
theorem writes_last : Writes srv path env c (davPut env srv path c.buf c.offset : Dav σ ρ ℤ) .last t := by
  obtain ⟨res, t', reply, hrun, hres, hex, hl', htable, hreturns⟩ :=
    davPut_resume (ρ := ρ) srv hs path h hl hlines (x := .last) rfl
  refine ⟨res, t', hrun, hreturns _ _ (.done ?_), fun hzero => ?_, hl', htable⟩
  · by_cases hc : reply.code = .ok
    · rw [if_neg (not_not_intro (hres.mpr hc))]
      show (writeClient path c).view (if _ then _ else _) = _
      rw [if_pos hc]
      rfl
    · rw [if_pos (fun hzero => hc (hres.mp hzero)), hex, if_neg hc]
      show (writeClient path c).view (if _ then _ else _) = _
      rw [if_neg hc]
      rfl
  · rw [hex, if_pos (hres.mp hzero)]
    exact h

/-- The zeros, and the last `PUT`. -/
theorem writes_pad {realSize : ℕ} : Writes srv path env c (do
      let res ← davPut env srv path (c.zeros realSize) (toSsize realSize)
      if res ≠ 0 then pure res else davPut env srv path c.buf c.offset : Dav σ ρ ℤ)
    (.pad realSize) t := by
  obtain ⟨res, t', reply, hrun, hres, hex, hl', htable, hreturns⟩ :=
    davPut_resume (ρ := ρ) srv hs path h hl hlines (x := .pad realSize) rfl
  have hstage : (writeClient path c).resume (.pad realSize) reply =
    if reply.code = .ok then .last else .ended (exceptionErrno (replyException reply)) := rfl
  rw [hstage] at hreturns
  by_cases hc : reply.code = .ok
  · rw [if_pos hc] at hex hreturns
    obtain ⟨res', t'', hrun', hlast, hclean, hl'', htable'⟩ := writes_last (ρ := ρ) srv hs path
      (by rw [hex]; exact h) hl' (hlines.trans (by rw [htable]))
    refine ⟨res', t'', (Ctl.bind_ok hrun).trans ?_, hreturns _ _ hlast, hclean, hl'',
      htable'.trans htable⟩
    rw [if_neg (not_not_intro (hres.mpr hc))]
    exact hrun'
  · have hne : res ≠ 0 := fun hzero => hc (hres.mp hzero)
    rw [if_neg hc] at hex hreturns
    refine ⟨res, t', (Ctl.bind_ok hrun).trans ?_, ?_, fun hzero => absurd hzero hne, hl', htable⟩
    · rw [if_pos hne]
      rfl
    · rw [if_pos hne, hex]
      exact hreturns _ _ (.done rfl)

/-- After the `HEAD`. -/
theorem writes_padding (realSize : ℕ) : Writes srv path env c (do
      let res ← writePadding env srv path c.offset realSize
      if res ≠ 0 then pure res else davPut env srv path c.buf c.offset : Dav σ ρ ℤ)
    (if realSize < toUnsigned c.offset then .pad realSize else .last) t := by
  unfold writePadding
  split_ifs
  · exact writes_pad srv hs path h hl hlines
  · rw [pure_bind, if_neg (not_not_intro rfl)]
    exact writes_last srv hs path h hl hlines

omit h in
/-- After a 416. -/
theorem writes_padded : Writes srv path env c (writePadded env srv path c.buf c.offset : Dav σ ρ ℤ)
    .head t := by
  set t₁ : Thread (Mem σ) := ⟨.clear, t.mem⟩ with ht₁
  have hclear : (exceptionDestory : Dav σ ρ Unit) t = (.ok (), t₁) := rfl
  have hstage (reply : Reply) : (writeClient path c).resume .head reply =
    if reply.code = .ok then
      if headLength reply < toUnsigned c.offset then .pad (headLength reply) else .last
    else .ended (exceptionErrno (replyException reply)) := rfl
  by_cases hc : (env.perform (headRequest path) t₁.mem.env).1.code = .ok
  · have hhead := davHead_ok (ρ := ρ) srv hs (t := t₁) rfl hc
    obtain ⟨res, t', hrun, hrest, hclean, hl', htable⟩ := writes_padding (ρ := ρ) srv hs path
      (t := answered env (headRequest path) t₁) rfl hl hlines
      (headLength (env.perform (headRequest path) t₁.mem.env).1)
    refine ⟨res, t', ?_, .ask (q := headRequest path) rfl ?_, hclean, hl', htable⟩
    · refine (Ctl.bind_ok hclear).trans ((Ctl.bind_ok hhead).trans ?_)
      dsimp only
      rw [if_neg (not_not_intro rfl)]
      exact hrun
    · rw [hstage, if_pos hc]
      exact hrest
  · have hhead := davHead_failed (ρ := ρ) srv hs (t := t₁) rfl hc
    refine ⟨1, refused (env.perform (headRequest path) t₁.mem.env).1
      (answered env (headRequest path) t₁), ?_, .ask (q := headRequest path) rfl (.done ?_),
      fun hzero => (nomatch hzero), hl, rfl⟩
    · refine (Ctl.bind_ok hclear).trans ((Ctl.bind_ok hhead).trans ?_)
      rw [if_pos (by decide)]
      rfl
    · rw [hstage, if_neg hc, if_pos (by decide)]
      rfl

theorem writes_first : Writes srv path env c (writeSteps env srv path c.buf c.offset : Dav σ ρ ℤ)
    .first t := by
  obtain ⟨res, t', reply, hrun, hres, hex, hl', htable, hreturns⟩ :=
    davPut_resume (ρ := ρ) srv hs path h hl hlines (x := .first) rfl
  have hstage : (writeClient path c).resume .first reply =
    if reply.code = .ok then .ended (toInt c.buf.length)
    else if (replyException reply).isHttp 416 then .head
    else .ended (exceptionErrno (replyException reply)) := rfl
  have hgets : (Ctl.gets (·.ex.isHttp 416) : Dav σ ρ Bool) t' = (.ok (t'.ex.isHttp 416), t') := rfl
  rw [hstage] at hreturns
  by_cases hc : reply.code = .ok
  · have hzero : res = 0 := hres.mpr hc
    rw [if_pos hc] at hex hreturns
    refine ⟨res, t', (Ctl.bind_ok hrun).trans ?_, ?_, fun _ => by rw [hex]; exact h, hl', htable⟩
    · rw [if_pos hzero]
      rfl
    · rw [if_neg (not_not_intro hzero)]
      exact hreturns _ _ (.done rfl)
  · have hne : res ≠ 0 := fun hzero => hc (hres.mp hzero)
    rw [if_neg hc] at hex hreturns
    by_cases h416 : (replyException reply).isHttp 416 = true
    · rw [if_pos h416] at hreturns
      obtain ⟨res', t'', hrun', hrest, hclean, hl'', htable'⟩ := writes_padded (ρ := ρ) srv hs path
        hl' (hlines.trans (by rw [htable]))
      refine ⟨res', t'', (Ctl.bind_ok hrun).trans ?_, hreturns _ _ hrest, hclean, hl'',
        htable'.trans htable⟩
      rw [if_neg hne, Ctl.bind_ok hgets, hex, if_pos h416]
      exact hrun'
    · rw [if_neg h416] at hreturns
      refine ⟨res, t', (Ctl.bind_ok hrun).trans ?_, ?_, fun hzero => absurd hzero hne, hl', htable⟩
      · rw [if_neg hne, Ctl.bind_ok hgets, hex, if_neg h416]
        rfl
      · rw [if_pos hne, hex]
        exact hreturns _ _ (.done rfl)

/-- `dav_write` is this client. -/
theorem davWrite_returns : ∃ v t',
    (davWrite env srv path c.buf c.offset : Dav σ ρ ℤ) t = (.ok v, t') ∧
      (writeClient path c).Returns env.perform .first t.mem.env v t'.mem.env ∧
      t'.ex.has = false ∧ CanLock srv .read t' ∧ t'.mem.table = t.mem.table := by
  obtain ⟨res, t', hrun, hreturns, hclean, hl', htable⟩ :=
    writes_first (ρ := ρ) srv hs path h hl hlines
  by_cases hzero : res = 0
  · rw [if_neg (not_not_intro hzero)] at hreturns
    refine ⟨_, t', (Ctl.bind_ok hrun).trans ?_, hreturns, hclean hzero, hl', htable⟩
    rw [if_neg (not_not_intro hzero)]
    rfl
  · rw [if_pos hzero] at hreturns
    refine ⟨_, ⟨.clear, t'.mem⟩, (Ctl.bind_ok hrun).trans ?_, hreturns, rfl, hl', htable⟩
    rw [if_pos hzero]
    rfl

end Returns

/-! ## The file -/

/-- What the server keeps at `path`: a `PUT` that starts in the file or at its end
    overwrites it from there, past the end it is answered with 416, and `HEAD` gives the
    length. -/
structure ServesFile {σ : Type} (serve : Request → σ → Reply × σ) (path : Path)
    (content : σ → Bytes) : Prop where
  put : ∀ (c : WriteCall) (data : Bytes) (offset : ℕ) (s : σ), offset ≤ (content s).length →
    (serve (c.put path data offset) s).1.code = .ok ∧
      content (serve (c.put path data offset) s).2 = splice 0 (content s) offset data
  past : ∀ (c : WriteCall) (data : Bytes) (offset : ℕ) (s : σ), (content s).length < offset →
    (serve (c.put path data offset) s).1.code = .httpReturnedError ∧
      (serve (c.put path data offset) s).1.status = 416 ∧
      content (serve (c.put path data offset) s).2 = content s
  head : ∀ s, (content s).length < 2 ^ 63 → (serve (headRequest path) s).1.code = .ok ∧
    headLength (serve (headRequest path) s).1 = (content s).length ∧
    content (serve (headRequest path) s).2 = content s

/-- One turn of a write on the content of the file. -/
inductive WriteTurn (c : WriteCall) : WriteStage → Bytes → WriteStage → Bytes → Prop
  | ended {v : ℤ} {F : Bytes} : WriteTurn c (.ended v) F (.ended v) F
  | stored {x : WriteStage} {F : Bytes} (hx : x = .first ∨ x = .last) (h : c.offset ≤ F.length) :
    WriteTurn c x F (.ended (toInt c.buf.length)) (splice 0 F c.offset c.buf)
  | past {F : Bytes} (h : F.length < c.offset) : WriteTurn c .first F .head F
  | failed {v : ℤ} {F : Bytes} (hv : v < 0) : WriteTurn c .last F (.ended v) F
  | short {F : Bytes} (h : F.length < c.offset) : WriteTurn c .head F (.pad F.length) F
  | long {F : Bytes} : WriteTurn c .head F .last F
  | padded {n : ℕ} {F : Bytes} (hn : n ≤ F.length) (h : n < c.offset) :
    WriteTurn c (.pad n) F .last (splice 0 F n (List.replicate (c.offset - n) 0))

/-- The length a `HEAD` gave is not above the length now, and below the offset. -/
def PadsWithin (c : WriteCall) (x : WriteStage) (F : Bytes) : Prop :=
  ∀ n, x = .pad n → n ≤ F.length ∧ n < c.offset

/-- Only the buffer is still to be put, if anything. -/
def WriteStage.Late (x : WriteStage) : Prop := x = .last ∨ ∃ v, x = .ended v

theorem padsWithin_mono {c : WriteCall} {x : WriteStage} {F F' : Bytes} (h : PadsWithin c x F)
    (hle : F.length ≤ F'.length) : PadsWithin c x F' := by
  intro n hx
  obtain ⟨hn, hlt⟩ := h n hx
  exact ⟨hn.trans hle, hlt⟩

theorem padsWithin_late {c : WriteCall} {x : WriteStage} {F : Bytes} (h : x.Late) :
    PadsWithin c x F := by
  intro n hx
  rw [hx] at h
  rcases h with h | ⟨v, h⟩ <;> exact nomatch h

/-- The file holds the buffer of the call at its range. -/
def WriteCall.Holds (c : WriteCall) (F : Bytes) : Prop :=
  ∀ k < c.buf.length, F[c.offset + k]? = c.buf[k]?

/-- No byte is in the range of both. -/
def WriteCall.Apart (c c' : WriteCall) : Prop :=
  ∀ k, ¬((c.offset ≤ k ∧ k < c.offset + c.buf.length) ∧
    (c'.offset ≤ k ∧ k < c'.offset + c'.buf.length))

/-- The bytes of `c'` from `n` up to the offset of `c` are zero. -/
def WriteCall.ZeroFrom (c c' : WriteCall) (n : ℕ) : Prop :=
  ∀ k < c'.buf.length, n ≤ c'.offset + k → c'.offset + k < c.offset → c'.buf[k]? = some 0

namespace WriteTurn

variable {c c' : WriteCall} {x y : WriteStage} {F F' : Bytes}

theorem length_le (h : WriteTurn c x F y F') : F.length ≤ F'.length := by
  cases h with
  | ended => exact le_rfl
  | stored => rw [length_splice]; omega
  | past => exact le_rfl
  | failed => exact le_rfl
  | short => exact le_rfl
  | long => exact le_rfl
  | padded => rw [length_splice]; omega

theorem length_lt (h : WriteTurn c x F y F') (hbound : c.offset + c.buf.length < 2 ^ 63)
    (hF : F.length < 2 ^ 63) : F'.length < 2 ^ 63 := by
  cases h with
  | ended => exact hF
  | stored => rw [length_splice]; omega
  | past => exact hF
  | failed => exact hF
  | short => exact hF
  | long => exact hF
  | padded hn hlt => rw [length_splice, List.length_replicate]; omega

theorem padsWithin (h : WriteTurn c x F y F') : PadsWithin c y F' := by
  intro n hy
  cases h with
  | ended => exact nomatch hy
  | stored => exact nomatch hy
  | past => exact nomatch hy
  | failed => exact nomatch hy
  | short hlt =>
    obtain rfl := WriteStage.pad.inj hy
    exact ⟨le_rfl, hlt⟩
  | long => exact nomatch hy
  | padded => exact nomatch hy

/-- A call that returns its size has stored its buffer. -/
theorem holds (h : WriteTurn c x F y F') (hx : x = .ended c.buf.length → c.Holds F)
    (hy : y = .ended c.buf.length) : c.Holds F' := by
  cases h with
  | ended => exact hx hy
  | stored => exact fun k hk => getElem?_splice_inside 0 F c.offset hk
  | past => exact nomatch hy
  | failed hv =>
    have hnonneg := WriteStage.ended.inj hy
    omega
  | short => exact nomatch hy
  | long => exact nomatch hy
  | padded => exact nomatch hy

/-- A turn that is not a padding changes no byte of the other call. -/
theorem getElem?_other (h : WriteTurn c x F y F') (hapart : c.Apart c') (hx : ∀ n, x ≠ .pad n)
    {k : ℕ} (hk : k < c'.buf.length) : F'[c'.offset + k]? = F[c'.offset + k]? := by
  cases h with
  | ended => rfl
  | stored _ hoff =>
    exact getElem?_splice_outside 0 hoff fun hin => hapart _ ⟨hin, by omega⟩
  | past => rfl
  | failed => rfl
  | short => rfl
  | long => rfl
  | padded => exact absurd rfl (hx _)

/-- A padding writes zeros over the other call. -/
theorem getElem?_padded {n : ℕ} (h : WriteTurn c (.pad n) F y F') (k : ℕ) :
    F'[k]? = if n ≤ k ∧ k < c.offset then some 0 else F[k]? := by
  cases h with
  | stored hx => exact nomatch hx
  | padded hn hlt =>
    split_ifs with hin
    · obtain ⟨j, rfl⟩ := Nat.exists_eq_add_of_le hin.1
      rw [getElem?_splice_inside 0 F n (by rw [List.length_replicate]; omega),
        List.getElem?_replicate_of_lt (by omega)]
    · refine getElem?_splice_outside 0 hn fun hcovered => hin ⟨hcovered.1, ?_⟩
      rw [List.length_replicate] at hcovered
      omega

/-- The other call keeps its bytes, if those that are padded over are zero. -/
theorem holds_other (h : WriteTurn c x F y F') (hapart : c.Apart c')
    (hzero : ∀ n, x = .pad n → c.ZeroFrom c' n) (hF : c'.Holds F) : c'.Holds F' := by
  intro k hk
  by_cases hx : ∃ n, x = .pad n
  · obtain ⟨n, rfl⟩ := hx
    rw [h.getElem?_padded]
    split_ifs with hin
    · exact (hzero n rfl k hk hin.1 hin.2).symm
    · exact hF k hk
  · rw [h.getElem?_other hapart (fun n hn => hx ⟨n, hn⟩) hk]
    exact hF k hk

theorem not_holds_padded {n : ℕ} (h : WriteTurn c (.pad n) F y F') (hzero : ¬c.ZeroFrom c' n) :
    ¬c'.Holds F' := by
  intro hF
  refine hzero fun k hk hn hlt => ?_
  rw [← hF k hk, h.getElem?_padded, if_pos ⟨hn, hlt⟩]

theorem late_padded {n : ℕ} (h : WriteTurn c (.pad n) F y F') : y.Late := by
  cases h with
  | stored hx => exact nomatch hx
  | padded => exact .inl rfl

theorem late (h : WriteTurn c x F y F') (hx : x.Late) : y.Late := by
  cases h with
  | ended => exact hx
  | stored => exact .inr ⟨_, rfl⟩
  | past => rcases hx with hx | ⟨v, hx⟩ <;> exact nomatch hx
  | failed => exact .inr ⟨_, rfl⟩
  | short => rcases hx with hx | ⟨v, hx⟩ <;> exact nomatch hx
  | long => exact .inl rfl
  | padded => exact .inl rfl

/-- What is lost stays lost. -/
theorem not_holds_late (h : WriteTurn c x F y F') (hapart : c.Apart c') (hx : x.Late)
    (hF : ¬c'.Holds F) : ¬c'.Holds F' := by
  intro hF'
  refine hF fun k hk => ?_
  rw [← hF' k hk, h.getElem?_other hapart ?_ hk]
  rintro n rfl
  rcases hx with hx | ⟨v, hx⟩ <;> exact nomatch hx

end WriteTurn

section Turns

variable {σ : Type} {serve : Request → σ → Reply × σ} {path : Path} {content : σ → Bytes}
  (hserve : ServesFile serve path content) {calls : Bool → WriteCall}
  (hbound : ∀ i, (calls i).offset + (calls i).buf.length < 2 ^ 63)

include hserve hbound

omit hbound in
/-- The buffer is put at stage `x`. -/
theorem put_buf (c : WriteCall) (s : σ) :
    (c.offset ≤ (content s).length ∧ (serve (c.put path c.buf c.offset) s).1.code = .ok ∧
      content (serve (c.put path c.buf c.offset) s).2 = splice 0 (content s) c.offset c.buf) ∨
    ((content s).length < c.offset ∧ (serve (c.put path c.buf c.offset) s).1.code ≠ .ok ∧
      (replyException (serve (c.put path c.buf c.offset) s).1).isHttp 416 = true ∧
      content (serve (c.put path c.buf c.offset) s).2 = content s) := by
  by_cases hoff : c.offset ≤ (content s).length
  · exact .inl ⟨hoff, hserve.put c c.buf c.offset s hoff⟩
  · obtain ⟨hcode, hstatus, hsame⟩ := hserve.past c c.buf c.offset s (by omega)
    refine .inr ⟨by omega, by rw [hcode]; exact nofun, ?_, hsame⟩
    rw [replyException, hcode, hstatus]
    rfl

theorem writeTurn_of_step (x : System Bool WriteStage σ) (i : Bool)
    (hsmall : (content x.server).length < 2 ^ 63)
    (hpad : PadsWithin (calls i) (x.stage i) (content x.server)) :
    WriteTurn (calls i) (x.stage i) (content x.server)
      ((System.step (fun i => writeClient path (calls i)) serve x i).stage i)
      (content (System.step (fun i => writeClient path (calls i)) serve x i).server) := by
  set c := calls i with hc
  cases hx : x.stage i with
  | ended v =>
    have hview : (writeClient path c).view (x.stage i) = .inl v := by rw [hx]; rfl
    rw [System.step_done hview, hx]
    exact .ended
  | first =>
    have hview : (writeClient path c).view (x.stage i) = .inr (c.put path c.buf c.offset) := by
      rw [hx]
      rfl
    rw [System.step_ask_stage hview, System.step_ask_server hview, hx]
    obtain ⟨hoff, hcode, hput⟩ | ⟨hoff, hcode, h416, hsame⟩ := put_buf hserve c x.server
    · have hstage : (writeClient path c).resume .first (serve (c.put path c.buf c.offset) x.server).1 =
          .ended (toInt c.buf.length) := if_pos hcode
      rw [hstage, hput]
      exact .stored (.inl rfl) hoff
    · have hstage : (writeClient path c).resume .first (serve (c.put path c.buf c.offset) x.server).1 =
          .head := (if_neg hcode).trans (if_pos h416)
      rw [hstage, hsame]
      exact .past hoff
  | head =>
    have hview : (writeClient path c).view (x.stage i) = .inr (headRequest path) := by
      rw [hx]
      rfl
    rw [System.step_ask_stage hview, System.step_ask_server hview, hx]
    obtain ⟨hcode, hlength, hsame⟩ := hserve.head x.server hsmall
    have hstage : (writeClient path c).resume .head (serve (headRequest path) x.server).1 =
        if (content x.server).length < toUnsigned c.offset then .pad (content x.server).length
        else .last := by
      rw [← hlength]
      exact if_pos hcode
    rw [hstage, hsame]
    split_ifs with hlt
    · exact .short (hlt.trans_le (toUnsigned_natCast_le c.offset))
    · exact .long
  | pad n =>
    obtain ⟨hn, hlt⟩ := hpad n hx
    have hoff : c.offset + c.buf.length < 2 ^ 63 := hbound i
    have hview : (writeClient path c).view (x.stage i) =
        .inr (c.put path (List.replicate (c.offset - n) 0) n) := by
      rw [hx]
      show Sum.inr (c.put path (c.zeros n) (toSsize n)) = _
      rw [WriteCall.zeros, toSize_natCast_sub hlt.le (by omega), toSsize_natCast (by omega)]
    rw [System.step_ask_stage hview, System.step_ask_server hview, hx]
    obtain ⟨hcode, hput⟩ := hserve.put c (List.replicate (c.offset - n) 0) n x.server hn
    have hstage : (writeClient path c).resume (.pad n)
        (serve (c.put path (List.replicate (c.offset - n) 0) n) x.server).1 = .last := if_pos hcode
    rw [hstage, hput]
    exact .padded hn hlt
  | last =>
    have hview : (writeClient path c).view (x.stage i) = .inr (c.put path c.buf c.offset) := by
      rw [hx]
      rfl
    rw [System.step_ask_stage hview, System.step_ask_server hview, hx]
    obtain ⟨hoff, hcode, hput⟩ | ⟨hoff, hcode, h416, hsame⟩ := put_buf hserve c x.server
    · have hstage : (writeClient path c).resume .last (serve (c.put path c.buf c.offset) x.server).1 =
          .ended (toInt c.buf.length) := if_pos hcode
      rw [hstage, hput]
      exact .stored (.inr rfl) hoff
    · have hstage : (writeClient path c).resume .last (serve (c.put path c.buf c.offset) x.server).1 =
          .ended (exceptionErrno (replyException
            (serve (c.put path c.buf c.offset) x.server).1)) := if_neg hcode
      rw [hstage, hsame]
      exact .failed (exceptionErrno_neg _)

/-! ## Both writes -/

/-- Call `i` returned its size. -/
def Returned (calls : Bool → WriteCall) (x : System Bool WriteStage σ) (i : Bool) : Prop :=
  x.stage i = .ended (calls i).buf.length

/-- Unless the turn of `i` pads over bytes other than zero that the other call has
    stored. -/
def SparesOther (calls : Bool → WriteCall) (x : System Bool WriteStage σ) (i : Bool) : Prop :=
  ∀ n, x.stage i = .pad n → Returned calls x (!i) → (calls i).ZeroFrom (calls !i) n

/-- Nothing is lost so far. -/
structure BothSafe (content : σ → Bytes) (calls : Bool → WriteCall)
    (x : System Bool WriteStage σ) : Prop where
  small : (content x.server).length < 2 ^ 63
  pads : ∀ i, PadsWithin (calls i) (x.stage i) (content x.server)
  holds : ∀ i, Returned calls x i → (calls i).Holds (content x.server)

/-- A call returned its size and its buffer is gone for good. -/
structure GoneFor (content : σ → Bytes) (calls : Bool → WriteCall) (x : System Bool WriteStage σ)
    (i : Bool) : Prop where
  small : (content x.server).length < 2 ^ 63
  returned : Returned calls x i
  late : (x.stage !i).Late
  gone : ¬(calls i).Holds (content x.server)

variable (hapart : ∀ i, (calls i).Apart (calls !i))

include hapart

theorem bothSafe_step {x : System Bool WriteStage σ} {i : Bool} (h : BothSafe content calls x)
    (hspares : SparesOther calls x i) :
    BothSafe content calls (System.step (fun i => writeClient path (calls i)) serve x i) := by
  have hturn := writeTurn_of_step hserve hbound x i h.small (h.pads i)
  have hother : (System.step (fun i => writeClient path (calls i)) serve x i).stage (!i) =
      x.stage (!i) := System.step_stage_ne x (Bool.not_ne_self i)
  refine ⟨hturn.length_lt (hbound i) h.small, fun j => ?_, fun j hreturned => ?_⟩
  · obtain rfl | rfl : j = i ∨ j = !i := Bool.eq_or_eq_not j i
    · exact hturn.padsWithin
    · rw [hother]
      exact padsWithin_mono (h.pads _) hturn.length_le
  · obtain rfl | rfl : j = i ∨ j = !i := Bool.eq_or_eq_not j i
    · exact hturn.holds (h.holds j) hreturned
    · rw [Returned, hother] at hreturned
      exact hturn.holds_other (hapart i) (fun n hn => hspares n hn hreturned)
        (h.holds _ hreturned)

omit hapart in
theorem goneFor_of_not_spares {x : System Bool WriteStage σ} {i : Bool}
    (h : BothSafe content calls x) (hspares : ¬SparesOther calls x i) :
    GoneFor content calls (System.step (fun i => writeClient path (calls i)) serve x i) (!i) := by
  have hturn := writeTurn_of_step hserve hbound x i h.small (h.pads i)
  have hother : (System.step (fun i => writeClient path (calls i)) serve x i).stage (!i) =
      x.stage (!i) := System.step_stage_ne x (Bool.not_ne_self i)
  unfold SparesOther at hspares
  push Not at hspares
  obtain ⟨n, hpad, hreturned, hzero⟩ := hspares
  have hlength := hturn.length_lt (hbound i) h.small
  rw [hpad] at hturn
  refine ⟨hlength, hother.trans hreturned, ?_, hturn.not_holds_padded hzero⟩
  rw [Bool.not_not]
  exact hturn.late_padded

theorem goneFor_step {x : System Bool WriteStage σ} {i j : Bool} (h : GoneFor content calls x i) :
    GoneFor content calls (System.step (fun i => writeClient path (calls i)) serve x j) i := by
  obtain rfl | rfl : j = i ∨ j = !i := Bool.eq_or_eq_not j i
  · have hview : (writeClient path (calls j)).view (x.stage j) = .inl ((calls j).buf.length : ℤ) := by
      rw [h.returned]
      rfl
    rw [System.step_done hview]
    exact h
  · have hturn := writeTurn_of_step hserve hbound x (!i) h.small (padsWithin_late h.late)
    have hself : (System.step (fun i => writeClient path (calls i)) serve x (!i)).stage i =
        x.stage i := System.step_stage_ne x (Bool.self_ne_not i)
    have happart := hapart (!i)
    rw [Bool.not_not] at happart
    exact ⟨hturn.length_lt (hbound _) h.small, hself.trans h.returned, hturn.late h.late,
      hturn.not_holds_late happart h.late h.gone⟩

/-- Two writes of disjoint ranges that both return their size: the file holds both buffers
    at the end exactly when no turn pads over the other's bytes. -/
theorem write_turns_iff {s : σ} (hs : (content s).length < 2 ^ 63) (turns : List Bool)
    (hreturned : ∀ i, Returned calls
      (System.run (fun i => writeClient path (calls i)) serve ⟨fun _ => .first, s⟩ turns) i) :
    (∀ i, (calls i).Holds (content (System.run (fun i => writeClient path (calls i)) serve
      ⟨fun _ => .first, s⟩ turns).server)) ↔
    System.Along (fun i => writeClient path (calls i)) serve (SparesOther calls)
      ⟨fun _ => .first, s⟩ turns := by
  have hstart : BothSafe content calls ⟨fun _ => .first, s⟩ :=
    ⟨hs, fun _ _ hpad => (nomatch hpad), fun _ hended => (nomatch hended)⟩
  obtain ⟨halong, hsafe⟩ | ⟨halong, i, hgone⟩ := System.along_cases
    (B := fun x => ∃ i, GoneFor content calls x i)
    (fun x i h hspares => bothSafe_step hserve hbound hapart h hspares)
    (fun x i h hspares => ⟨!i, goneFor_of_not_spares hserve hbound h hspares⟩)
    (fun x j ⟨i, h⟩ => ⟨i, goneFor_step hserve hbound hapart h⟩) hstart turns
  · exact iff_of_true (fun i => hsafe.holds i (hreturned i)) halong
  · exact iff_of_false (fun hboth => hgone.gone (hboth i)) halong

end Turns

/-- A call that returned in such a run is a call of `dav_write` that got the same
    replies. -/
theorem davWrite_of_run {σ : Type} {serve : Request → σ → Reply × σ} {path : Path}
    {calls : Bool → WriteCall} (srv : DavServer) {table : List FileLock} {i : Bool}
    (hlines : (calls i).lines = lockLines srv path .read table) {s : σ} {turns : List Bool} {v : ℤ}
    (hended : (System.run (fun i => writeClient path (calls i)) serve ⟨fun _ => .first, s⟩
      turns).stage i = .ended v) :
    ∃ replies t', (davWrite (serving scripted) srv path (calls i).buf (calls i).offset :
      Dav (ℕ → Reply) ℤ ℤ) (entered replies table) = (.ok v, t') := by
  have hview : (writeClient path (calls i)).view ((System.run (fun i => writeClient path (calls i))
      serve ⟨fun _ => .first, s⟩ turns).stage i) = .inl v := by
    rw [hended]
    rfl
  have hnonempty : Nonempty Reply := ⟨plainReply 200⟩
  obtain ⟨replies, rest, hreturns⟩ := System.returns_of_run
    (c := fun i => writeClient path (calls i)) (i := i) turns ⟨fun _ => .first, s⟩ hview
  have hsteady : Steady (serving scripted : Env (ℕ → Reply)) := steady_serving scripted
  obtain ⟨v', t', hrun, hreturns', -⟩ := davWrite_returns (ρ := ℤ) (t := entered replies table) srv
    hsteady path rfl (fun _ => rfl) hlines
  refine ⟨replies, t', ?_⟩
  rw [hrun, (hreturns'.unique hreturns).1]

/-! ## A server -/

/-- The header lines of a reply about `n` bytes. -/
def lengthLine (n : ℕ) : Text := contentLength ++ ' ' :: Nat.toDigits 10 n ++ ['\r', '\n']

theorem davHeadCallback_lengthLine {n : ℕ} (hn : n < 2 ^ 63) (size : ℕ) :
    davHeadCallback size (lengthLine n) = n := by
  have hline : lengthLine n = contentLength ++ (' ' :: (Nat.toDigits 10 n ++ ['\r', '\n'])) := by
    simp [lengthLine]
  have hprefix : contentLength.isPrefixOf (lengthLine n) = true := by
    rw [hline, List.isPrefixOf_iff_prefix]
    exact List.prefix_append _ _
  obtain ⟨d, r, hdigits, hd⟩ := head_toDigits (n := n) (by decide : 1 < 10) le_rfl ['\r', '\n']
  have hstrip : strlstrip (' ' :: (Nat.toDigits 10 n ++ ['\r', '\n'])) =
      Nat.toDigits 10 n ++ ['\r', '\n'] := by
    rw [hdigits, strlstrip, List.dropWhile_cons_of_pos (by decide),
      List.dropWhile_cons_of_neg (by rw [(isDigitOf_plain hd).1]; exact Bool.false_ne_true)]
  have hrest : ∀ c, (['\r', '\n'] : List Char).head? = some c → isDigitOf 10 c = false := by
    intro c hc
    rw [← Option.some.inj hc]
    decide
  rw [davHeadCallback, if_pos hprefix, hline, List.drop_left, hstrip,
    strtol_toDigits (by decide) le_rfl hn hrest]
  unfold toSize
  omega

/-- A server with one file. -/
def serveFile (request : Request) (F : Bytes) : Reply × Bytes :=
  match request.method, request.range, request.body with
  | .put, some range, .data d =>
    if range.offset.toNat ≤ F.length then (plainReply 204, splice 0 F range.offset.toNat d)
    else (plainReply 416, F)
  | .head, _, _ => (⟨.ok, 200, [lengthLine F.length], [], [], none⟩, F)
  | _, _, _ => (plainReply 501, F)

theorem servesFile_serveFile (path : Path) : ServesFile serveFile path id where
  put c data offset F h := by
    have hserve : serveFile (c.put path data offset) F = if offset ≤ F.length then
      (plainReply 204, splice 0 F offset data) else (plainReply 416, F) := rfl
    have hle : offset ≤ F.length := h
    rw [hserve, if_pos hle]
    exact ⟨rfl, rfl⟩
  past c data offset F h := by
    have hserve : serveFile (c.put path data offset) F = if offset ≤ F.length then
      (plainReply 204, splice 0 F offset data) else (plainReply 416, F) := rfl
    rw [hserve, if_neg (by exact Nat.not_le.mpr h)]
    exact ⟨rfl, rfl, rfl⟩
  head F h := ⟨rfl, davHeadCallback_lengthLine h 0, rfl⟩

theorem sparesOther_of_stage {σ : Type} {calls : Bool → WriteCall} {x : System Bool WriteStage σ}
    {i : Bool} {y : WriteStage} (hx : x.stage i = y) (hy : ∀ n, y ≠ .pad n) :
    SparesOther calls x i := by
  intro n hn
  exact absurd (hx.symm.trans hn) (hy n)

/-- A byte at 0 and a byte at 2 of an empty file. -/
def twoBytes : Bool → WriteCall
  | false => ⟨[], [1], 0⟩
  | true => ⟨[], [2], 2⟩

theorem twoBytes_apart (i : Bool) : (twoBytes i).Apart (twoBytes !i) := by
  rintro k ⟨⟨h₁, h₂⟩, h₃, h₄⟩
  cases i <;> simp [twoBytes] at h₁ h₂ h₃ h₄ <;> omega

theorem twoBytes_bound (i : Bool) : (twoBytes i).offset + (twoBytes i).buf.length < 2 ^ 63 := by
  cases i <;> decide

/-- One call after the other. -/
theorem twoBytes_in_turn : (∀ i, (twoBytes i).Apart (twoBytes !i)) ∧
    ∀ i, (twoBytes i).Holds (System.run (fun i => writeClient [47, 97] (twoBytes i)) serveFile
      ⟨fun _ => .first, []⟩ [false, true, true, true, true]).server := by
  refine ⟨twoBytes_apart, (write_turns_iff (servesFile_serveFile [47, 97]) twoBytes_bound twoBytes_apart
    (by decide) [false, true, true, true, true] ?_).mpr ?_⟩
  · intro i
    show (_ : WriteStage) = _
    cases i <;> decide +kernel
  · refine ⟨sparesOther_of_stage rfl nofun, sparesOther_of_stage rfl nofun,
      sparesOther_of_stage (y := .head) (by decide +kernel) nofun, fun n hn _ k hk hle _ => ?_,
      sparesOther_of_stage (y := .last) (by decide +kernel) nofun, trivial⟩
    -- the zeros start behind the byte of the other call
    have hpad : (1 : ℕ) = n := by
      refine WriteStage.pad.inj (Eq.trans ?_ hn)
      decide +kernel
    have hone : k < 1 := hk
    have hzero : n ≤ 0 + k := hle
    omega

/-- The byte at 0 is stored between the `HEAD` and the padding of the other call, and both
    calls return 1: it is overwritten with a zero. -/
theorem twoBytes_overwritten : (∀ i, (twoBytes i).Apart (twoBytes !i)) ∧
    (∀ i, Returned twoBytes (System.run (fun i => writeClient [47, 97] (twoBytes i)) serveFile
      ⟨fun _ => .first, []⟩ [true, true, false, true, true]) i) ∧
    ¬(twoBytes false).Holds (System.run (fun i => writeClient [47, 97] (twoBytes i)) serveFile
      ⟨fun _ => .first, []⟩ [true, true, false, true, true]).server := by
  refine ⟨twoBytes_apart, fun i => ?_, fun hholds => ?_⟩
  · show (_ : WriteStage) = _
    cases i <;> decide +kernel
  · exact absurd (hholds 0 (by decide)) (by decide +kernel)

end NetworkFs.Dav
