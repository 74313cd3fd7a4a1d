import NetworkFs.Dav.Exceptions
import NetworkFs.Dav.Steady

/-!
# What a read returns

`dav_read` asks for `size` bytes from `offset` on and takes whatever `Buffer_append`
stored. It does not look at the status of the reply: the whole file, which a server may
send when it ignores the range, is taken for the part that was asked for.

* `bufferAppendAll_fits`, `bufferAppendAll_full`: what the chunks leave in the array depends
  only on their concatenation.
* `davRead_neg`, `davRead_count`: `dav_read` after `dav_get`.
* `read_returns_iff`: when `dav_read` returns the bytes that were asked for.
-/

namespace NetworkFs.Dav

open Control Grammar Wrapper Text

/-! ## The array -/

theorem bufferAppend_fits {buf : Buffer} {chunk : Bytes}
    (h : buf.offset + chunk.length ≤ buf.data.length) :
    bufferAppend buf chunk = (chunk.length, ⟨buf.data.take buf.offset ++ chunk ++
      buf.data.drop (buf.offset + chunk.length), buf.offset + chunk.length⟩) := by
  have hmin : min chunk.length (buf.data.length - buf.offset) = chunk.length := by omega
  unfold bufferAppend
  simp only [hmin, List.take_length]

/-- Chunks that fit are stored one after the other. -/
theorem bufferAppendAll_fits (chunks : List Bytes) : ∀ {buf : Buffer},
    buf.offset + chunks.flatten.length ≤ buf.data.length →
    bufferAppendAll buf chunks = (true, ⟨buf.data.take buf.offset ++ chunks.flatten ++
      buf.data.drop (buf.offset + chunks.flatten.length),
      buf.offset + chunks.flatten.length⟩) := by
  induction chunks with
  | nil =>
    intro buf _
    simp [bufferAppendAll]
  | cons chunk chunks ih =>
    intro buf hfits
    rw [List.flatten_cons, List.length_append] at hfits
    obtain ⟨front, hfront⟩ : ∃ front, front = buf.data.take buf.offset ++ chunk := ⟨_, rfl⟩
    obtain ⟨rest, hrest⟩ : ∃ rest, rest = buf.data.drop (buf.offset + chunk.length) := ⟨_, rfl⟩
    have hlength : front.length = buf.offset + chunk.length := by
      rw [hfront, List.length_append, List.length_take]
      omega
    have hstep : bufferAppendAll buf (chunk :: chunks) =
        bufferAppendAll ⟨front ++ rest, front.length⟩ chunks := by
      rw [bufferAppendAll, bufferAppend_fits (by omega), if_neg (lt_irrefl _), hlength, hfront, hrest]
    have hfits' : front.length + chunks.flatten.length ≤ (front ++ rest).length := by
      rw [List.length_append, hrest, List.length_drop]
      omega
    have hdrop : (front ++ rest).drop (front.length + chunks.flatten.length) =
        buf.data.drop (buf.offset + (chunk ++ chunks.flatten).length) := by
      rw [List.drop_append, List.drop_eq_nil_of_le (by omega), List.nil_append,
        Nat.add_sub_cancel_left, hrest, List.drop_drop, List.length_append, Nat.add_assoc]
    rw [hstep, ih hfits', List.take_left, hdrop, hlength, hfront, List.flatten_cons]
    simp only [List.length_append, List.append_assoc, Nat.add_assoc]

/-- Chunks that do not fit stop the transfer. -/
theorem bufferAppendAll_full (chunks : List Bytes) : ∀ {buf : Buffer},
    buf.data.length < buf.offset + chunks.flatten.length → buf.offset ≤ buf.data.length →
    (bufferAppendAll buf chunks).1 = false := by
  induction chunks with
  | nil =>
    intro buf hfull hle
    simp only [List.flatten_nil, List.length_nil] at hfull
    omega
  | cons chunk chunks ih =>
    intro buf hfull hle
    rw [List.flatten_cons, List.length_append] at hfull
    by_cases hfits : buf.offset + chunk.length ≤ buf.data.length
    · rw [bufferAppendAll, bufferAppend_fits hfits, if_neg (lt_irrefl _)]
      apply ih
      · simp only [List.length_append, List.length_take, List.length_drop]
        omega
      · simp only [List.length_append, List.length_take, List.length_drop]
        omega
    · have hstored : (bufferAppend buf chunk).1 < chunk.length := by
        show min chunk.length (buf.data.length - buf.offset) < chunk.length
        omega
      rw [bufferAppendAll, if_pos hstored]

/-- What a reply that fits leaves. -/
theorem received_fits {data : Bytes} {reply : Reply}
    (h : reply.chunks.flatten.length ≤ data.length) :
    received data reply = (true, ⟨reply.chunks.flatten ++ data.drop reply.chunks.flatten.length,
      reply.chunks.flatten.length⟩) := by
  rw [received, bufferAppendAll_fits]
  · simp
  · simpa using h

theorem received_full {data : Bytes} {reply : Reply}
    (h : data.length < reply.chunks.flatten.length) : (received data reply).1 = false := by
  apply bufferAppendAll_full
  · simpa using h
  · exact Nat.zero_le _

/-! ## `dav_read` after `dav_get` -/

/-- `dav_read` after a negative count. -/
theorem readFailed_apply {σ ρ : Type} (buf : Bytes) (t : Thread (Mem σ)) :
    (readFailed buf : Dav σ ρ (ℤ × Bytes)) t =
      (.ok (if t.ex.isHttp 416 then 0 else exceptionErrno t.ex, buf), ⟨.clear, t.mem⟩) := by
  rw [readFailed, Ctl.bind_ok (Ctl.gets_apply _ t)]
  split_ifs <;> rfl

section Read

variable {σ ρ : Type} {env : Env σ} (srv : DavServer) {path : Path} {data : Bytes} {offset : ℤ}
  {t : Thread (Mem σ)} (hdata : data.length ≠ 0)

include hdata

theorem davRead_neg {count : ℤ} {buf : Bytes} {t₁ : Thread (Mem σ)}
    (hget : (davGet env srv path data offset : Dav σ ρ (ℤ × Bytes)) t = (.ok (count, buf), t₁))
    (hr : count < 0) :
    (davRead env srv path data offset : Dav σ ρ (ℤ × Bytes)) t =
      (.ok (if t₁.ex.isHttp 416 then 0 else exceptionErrno t₁.ex, buf), ⟨.clear, t₁.mem⟩) := by
  rw [davRead, if_neg hdata, Ctl.bind_ok hget, if_pos hr, readFailed_apply]

theorem davRead_count {count : ℤ} {buf : Bytes} {t₁ : Thread (Mem σ)}
    (hget : (davGet env srv path data offset : Dav σ ρ (ℤ × Bytes)) t = (.ok (count, buf), t₁))
    (hr : ¬count < 0) :
    (davRead env srv path data offset : Dav σ ρ (ℤ × Bytes)) t = (.ok (count, buf), t₁) := by
  rw [davRead, if_neg hdata, Ctl.bind_ok hget, if_neg hr]
  rfl

end Read

/-! ## The replies to a ranged `GET` -/

/-- A reply that HTTP permits to a `GET` of `size` bytes from `offset` on of a file that holds
    `content`, in chunks of any sizes: the part of it that exists, 416 if there is none, or the
    whole file. Nothing of the body of an error is delivered (`CURLOPT_FAILONERROR`). -/
inductive GetReply (content : Bytes) (offset size : ℕ) (reply : Reply) : Prop
  | part (hoffset : offset < content.length) (hcode : reply.code = .ok) (hstatus : reply.status = 206)
      (hbody : reply.chunks.flatten = (content.drop offset).take size)
  | beyond (hoffset : content.length ≤ offset) (hcode : reply.code = .httpReturnedError)
      (hstatus : reply.status = 416) (hbody : reply.chunks = [])
  | whole (hcode : reply.code = .ok) (hstatus : reply.status = 200)
      (hbody : reply.chunks.flatten = content)

section Replies

variable {σ ρ : Type} {env : Env σ} (srv : DavServer) (path : Path)

/-- A count that `dav_read` returns is that of the bytes asked for which exist, and they are
    in `buf`. -/
def ReadsRight (env : Env σ) (content buf : Bytes) (offset : ℕ) (t : Thread (Mem σ)) : Prop :=
  ∀ n buf' t', (davRead env srv path buf offset : Dav σ Unit (ℤ × Bytes)) t = (.ok (n, buf'), t') →
    0 ≤ n → n = min buf.length (content.length - offset) ∧
      buf'.take n.toNat = (content.drop offset).take n.toNat

variable {srv path} {content buf : Bytes} {offset : ℕ} {t : Thread (Mem σ)}

theorem readsRight_of_run {n : ℤ} {buf' : Bytes} {t' : Thread (Mem σ)}
    (hrun : (davRead env srv path buf offset : Dav σ Unit (ℤ × Bytes)) t = (.ok (n, buf'), t')) :
    ReadsRight srv path env content buf offset t ↔ (0 ≤ n →
      n = min buf.length (content.length - offset) ∧
        buf'.take n.toNat = (content.drop offset).take n.toNat) := by
  constructor
  · intro hright
    exact hright n buf' t' hrun
  · intro hright m buf'' t'' hrun'
    obtain ⟨hr, -⟩ := Prod.mk.inj (hrun.symm.trans hrun')
    obtain ⟨rfl, rfl⟩ := Prod.mk.inj (Except.ok.inj hr)
    exact hright

variable (hs : Steady env) (h : t.ex = .clear) (hsize : 1 ≤ buf.length) (hlt : buf.length < 2 ^ 31)

include hs h hsize

/-- The body fits in the array, and is what `dav_read` returns. -/
theorem davRead_fits {body : Bytes} (hlt : buf.length < 2 ^ 31)
    (hcode : (env.perform (getRequest path buf offset) t.mem.env).1.code = .ok)
    (hbody : (env.perform (getRequest path buf offset) t.mem.env).1.chunks.flatten = body)
    (hfits : body.length ≤ buf.length) :
    (davRead env srv path buf offset : Dav σ ρ (ℤ × Bytes)) t =
      (.ok (body.length, body ++ buf.drop body.length),
        answered env (getRequest path buf offset) t) := by
  set reply := (env.perform (getRequest path buf offset) t.mem.env).1 with hreply
  have hreceived : received buf reply = (true, ⟨body ++ buf.drop body.length, body.length⟩) := by
    rw [received_fits (by rw [hbody]; exact hfits), hbody]
  have hcount : toInt body.length = body.length := toInt_natCast (by omega)
  have hget := davGet_ok (ρ := ρ) srv hs path buf offset (by rw [h]; rfl) hcode
    (by rw [← hreply, hreceived])
  rw [← hreply, hreceived, hcount] at hget
  exact davRead_count srv (by omega) hget (by omega)

theorem readsRight_fits {body : Bytes} (hlt : buf.length < 2 ^ 31)
    (hcode : (env.perform (getRequest path buf offset) t.mem.env).1.code = .ok)
    (hbody : (env.perform (getRequest path buf offset) t.mem.env).1.chunks.flatten = body)
    (hfits : body.length ≤ buf.length) :
    ReadsRight srv path env content buf offset t ↔
      body.length = min buf.length (content.length - offset) ∧
        body = (content.drop offset).take body.length := by
  rw [readsRight_of_run (davRead_fits hs h hsize hlt hcode hbody hfits)]
  simp only [Int.natCast_nonneg, forall_const, Int.toNat_natCast, Nat.cast_inj, List.take_left]

/-- The body does not fit, and `dav_read` fails. -/
theorem readsRight_full
    (hfull : buf.length < (env.perform (getRequest path buf offset) t.mem.env).1.chunks.flatten.length) :
    ReadsRight srv path env content buf offset t := by
  set reply := (env.perform (getRequest path buf offset) t.mem.env).1 with hreply
  have hstored : ¬(received buf reply).1 = true := by
    rw [received_full hfull]
    exact Bool.false_ne_true
  have hget := davGet_failed (ρ := Unit) srv hs path buf offset (by rw [h]; rfl)
    fun hall => hstored hall.2
  rw [← hreply, if_neg hstored] at hget
  rw [readsRight_of_run (davRead_neg srv (by omega) hget neg_one_lt_zero)]
  intro hn
  have hneg := exceptionErrno_neg (.init (.curl curleWriteError reply.status .perform))
  exact absurd hn (not_le_of_gt hneg)

/-- A 416 is the end of the file. -/
theorem readsRight_beyond (hoffset : content.length ≤ offset)
    (hcode : (env.perform (getRequest path buf offset) t.mem.env).1.code = .httpReturnedError)
    (hstatus : (env.perform (getRequest path buf offset) t.mem.env).1.status = 416)
    (hbody : (env.perform (getRequest path buf offset) t.mem.env).1.chunks = []) :
    ReadsRight srv path env content buf offset t := by
  set reply := (env.perform (getRequest path buf offset) t.mem.env).1 with hreply
  have hstored : (received buf reply).1 = true := by
    rw [received, hbody]
    rfl
  have hget := davGet_failed (ρ := Unit) srv hs path buf offset (by rw [h]; rfl)
    fun hall => by rw [← hreply, hcode] at hall; exact nomatch hall.1
  rw [← hreply, if_pos hstored, hcode, hstatus] at hget
  have hrun := davRead_neg srv (by omega) hget neg_one_lt_zero
  rw [if_pos (show (raised _ (ExType.curl .httpReturnedError 416 .perform)).ex.isHttp 416 = true
    from rfl)] at hrun
  have hzero : content.length - offset = 0 := by omega
  rw [readsRight_of_run hrun, hzero]
  simp

include hlt

/-- `dav_read` returns what was asked for unless the server sent the whole file, which fits in
    the array, for a part that does not start at its beginning. -/
theorem read_returns_iff
    (hreply : GetReply content offset buf.length (env.perform (getRequest path buf offset) t.mem.env).1) :
    ReadsRight srv path env content buf offset t ↔
      ¬((env.perform (getRequest path buf offset) t.mem.env).1.status = 200 ∧ 0 < offset ∧
        0 < content.length ∧ content.length ≤ buf.length) := by
  rcases hreply with ⟨hoffset, hcode, hstatus, hbody⟩ | ⟨hoffset, hcode, hstatus, hbody⟩ |
    ⟨hcode, hstatus, hbody⟩
  · have hlength : ((content.drop offset).take buf.length).length =
        min buf.length (content.length - offset) := by
      rw [List.length_take, List.length_drop]
    have hfits : ((content.drop offset).take buf.length).length ≤ buf.length := by omega
    rw [readsRight_fits hs h hsize hlt hcode hbody hfits, hstatus]
    refine iff_of_true ⟨hlength, ?_⟩ (by simp)
    rw [List.length_take, ← List.take_take, List.take_length]
  · exact iff_of_true (readsRight_beyond hs h hsize hoffset hcode hstatus hbody) (by simp [hstatus])
  · by_cases hfits : content.length ≤ buf.length
    · rw [readsRight_fits hs h hsize hlt hcode hbody hfits, hstatus]
      constructor
      · rintro ⟨hlength, -⟩ ⟨-, hoffset, hne, -⟩
        omega
      · intro hnot
        by_cases hoffset : offset = 0
        · subst hoffset
          simpa using hfits
        · have hempty : content = [] := List.eq_nil_of_length_eq_zero (by omega)
          subst hempty
          simp
    · refine iff_of_true (readsRight_full hs h hsize ?_) fun hall => hfits hall.2.2.2
      rw [hbody]
      omega

end Replies

/-- A reply with `status` and a body in two chunks. -/
def chunked (status : ℕ) (first second : Bytes) : Reply :=
  { plainReply status with chunks := [first, second] }

theorem steady_answering (reply : Reply) : Steady (answering reply) :=
  ⟨fun _ => rfl, fun _ _ => rfl, fun _ => rfl, fun _ _ => rfl⟩

/-- Two bytes from the second on, as they were asked for. -/
theorem read_returns_part :
    ReadsRight lockingServer [47, 97] (answering (chunked 206 [2] [3])) [1, 2, 3] [0, 0] 1 (idle ()) :=
  (read_returns_iff (steady_answering _) rfl (by decide) (by decide)
    (.part (by decide) rfl rfl rfl)).mpr fun hall => absurd hall.1 (by decide)

/-- The whole file of two bytes for a read from the second on: two bytes are returned where
    there is one, and the first of them is the first of the file. -/
theorem read_returns_whole :
    GetReply [1, 2] 1 2 (chunked 200 [1] [2]) ∧
    (∃ t', (davRead (answering (chunked 200 [1] [2])) lockingServer [47, 97] [0, 0] 1 :
      Dav Unit Unit (ℤ × Bytes)) (idle ()) = (.ok (2, [1, 2]), t')) ∧
    ¬ReadsRight lockingServer [47, 97] (answering (chunked 200 [1] [2])) [1, 2] [0, 0] 1 (idle ()) := by
  have hrun : (davRead (answering (chunked 200 [1] [2])) lockingServer [47, 97] [0, 0] (1 : ℕ) :
      Dav Unit Unit (ℤ × Bytes)) (idle ()) = (.ok (2, [1, 2]), _) :=
    davRead_fits (steady_answering _) rfl (by decide) (by decide) rfl rfl (by decide)
  refine ⟨.whole rfl rfl rfl, ⟨_, hrun⟩, fun hright => ?_⟩
  obtain ⟨hcount, -⟩ := hright _ _ _ hrun (by decide)
  exact absurd hcount (by decide)

end NetworkFs.Dav
