import NetworkFs.Dav.Resizing

/-!
# What `dav_copy_file_range` copies

`dav_copy_file_range` saves the beginning and the end of the output, replaces it as a whole by a
copy of the input and writes the saved parts back. The counts that `dav_read` and `dav_write`
return are taken for errors, so the first one that is not zero as an `int` is the result. The end is
read from `offset` on and not from `offset + len` on.

* `Copied`: what is returned and what is then in the output.
* `davCopyFileRange_copied`: `dav_copy_file_range` does one of these.
* `copy_range_iff`: when the result and the output agree.
-/

namespace NetworkFs.Dav

open Control Grammar Wrapper Text Data

variable {σ ρ : Type}

/-! ## The server -/

/-- The server also copies files, and it has nothing to say about a path without a file. -/
structure CopiesFiles (env : Env σ) (files : σ → Files) (url href : Path → Text) : Prop
    extends KeepsFiles env files url href where
  copy : ∀ from_ to_ lines s r, from_ ≠ to_ → files s from_ = some r →
    (env.perform ⟨.copy, from_, .destination to_ :: lines, none, .none⟩ s).1.code = .ok ∧
      files (env.perform ⟨.copy, from_, .destination to_ :: lines, none, .none⟩ s).2 =
        Function.update (files s) to_ (some r)
  propfind_absent : ∀ path s, files s path = none →
    (env.perform (propfindRequest path 0) s).1.code = .httpReturnedError ∧
      (env.perform (propfindRequest path 0) s).1.status = 404 ∧
      files (env.perform (propfindRequest path 0) s).2 = files s
  get_absent : ∀ path (data : Bytes) (offset : ℕ) s, files s path = none → 1 ≤ data.length →
    (env.perform (getRequest path data offset) s).1.code = .httpReturnedError ∧
      (env.perform (getRequest path data offset) s).1.status = 404 ∧
      (env.perform (getRequest path data offset) s).1.chunks = [] ∧
      files (env.perform (getRequest path data offset) s).2 = files s

/-! ## What is left -/

/-- After the copy of `content` the saved parts are written back: the result and the output. -/
inductive Restored (content before after : Bytes) (len : ℕ) : ℤ → Bytes → Prop
  | head (hhead : toInt before.length ≠ 0) :
    Restored content before after len (toInt before.length) (splice 0 content 0 before)
  | tail (hhead : toInt before.length = 0) (htail : toInt after.length ≠ 0) :
    Restored content before after len (toInt after.length)
      (splice 0 (splice 0 content 0 before) before.length after)
  | whole (hhead : toInt before.length = 0) (htail : toInt after.length = 0) :
    Restored content before after len (toSsize len)
      (splice 0 (splice 0 content 0 before) before.length after)

/-- What `dav_copy_file_range` returns and makes of the output `out`, if `dav_getattr` gave it the
    length `size` and `head` and `tail` are in the two arrays. -/
inductive Copied (content : Bytes) (out : Option Bytes) (size : ℤ) (offset len : ℕ)
    (head tail : Bytes) : ℤ → Option Bytes → Prop
  | refused (hlen : len < toUnsigned size / 2) :
    Copied content out size offset len head tail (-eopnotsupp) out
  | missing (hlen : ¬len < toUnsigned size / 2) (hout : out = none) (hoffset : offset ≠ 0) :
    Copied content out size offset len head tail (-enoent) out
  | headRead (hlen : ¬len < toUnsigned size / 2) (hout : ¬(out = none ∧ offset ≠ 0))
      (hread : toInt (min offset (out.getD []).length : ℕ) ≠ 0) :
    Copied content out size offset len head tail (readResult (min offset (out.getD []).length)) out
  | tailRead (hlen : ¬len < toUnsigned size / 2) (hout : ¬(out = none ∧ offset ≠ 0))
      (hread : toInt (min offset (out.getD []).length : ℕ) = 0)
      (hread' : toInt (min tail.length ((out.getD []).length - offset) : ℕ) ≠ 0) :
    Copied content out size offset len head tail
      (readResult (min tail.length ((out.getD []).length - offset))) out
  | restored {v : ℤ} {new : Bytes} (hlen : ¬len < toUnsigned size / 2)
      (hout : ¬(out = none ∧ offset ≠ 0))
      (hread : toInt (min offset (out.getD []).length : ℕ) = 0)
      (hread' : toInt (min tail.length ((out.getD []).length - offset) : ℕ) = 0)
      (hnew : Restored content (overlaid (out.getD []) 0 head) (overlaid (out.getD []) offset tail)
        len v new) :
    Copied content out size offset len head tail v (some new)

section Functions

variable {env : Env σ} {files : σ → Files} {url href : Path → Text}
  (hk : CopiesFiles env files url href) (srv : DavServer) {path : Path} {r : Resource}
  {t : Thread (Mem σ)} (h : AtRest t)

include hk h

theorem davCopy_found {from_ to_ : Path} (hne : from_ ≠ to_) (hr : files t.mem.env from_ = some r) :
    Makes files (davCopy env srv from_ to_ : Dav σ ρ ℤ) t 0
      (Function.update (files t.mem.env) to_ (some r)) := by
  obtain ⟨hcode, hsame⟩ := hk.copy from_ to_ (lockLines srv to_ .read t.mem.table) t.mem.env r hne hr
  exact ⟨_, davCopy_ok srv hk.toSteady h.clean (h.canLock .read) hcode, ⟨h.clear, h.free⟩, hsame⟩

/-- `dav_getattr` of nothing. -/
theorem davGetattr_missing (hr : files t.mem.env path = none) (stbuf : Stat) :
    ∃ t', (davGetattr env srv path stbuf : Dav σ ρ (ℤ × Stat)) t = (.ok (-enoent, stbuf), t') ∧
      AtRest t' ∧ t'.mem.env = (env.perform (propfindRequest path 0) t.mem.env).2 := by
  obtain ⟨hcode, hstatus, -⟩ := hk.propfind_absent path t.mem.env hr
  have hne : (env.perform (propfindRequest path 0) t.mem.env).1.code ≠ .ok := by
    rw [hcode]
    exact nofun
  obtain ⟨v, hrun⟩ := davPropfind_failed (ρ := ρ) srv hk.toSteady (t := withStat stbuf t) h.clean
    davGetattrCallback hne
  set t₁ := refused (env.perform (propfindRequest path 0) t.mem.env).1
    (answered env (propfindRequest path 0) (withStat stbuf t)) with ht₁
  have herrno : exceptionErrno t₁.ex = -enoent := by
    rw [ht₁, refused, hcode, hstatus]
    rfl
  refine ⟨⟨.clear, t₁.mem⟩, ?_, ⟨rfl, h.free⟩, rfl⟩
  rw [davGetattr, Ctl.bind_ok (modifyMem_apply _ t)]
  refine (Ctl.bind_ok hrun).trans ((Ctl.bind_ok (davExceptionCheck_pending 0 rfl)).trans ?_)
  rw [← herrno]
  rfl

/-- `dav_read` of nothing. -/
theorem davRead_missing (hr : files t.mem.env path = none) {data : Bytes} (hdata : data.length ≠ 0)
    (offset : ℕ) :
    Makes files (davRead env srv path data offset : Dav σ ρ (ℤ × Bytes)) t (-enoent, data)
      (files t.mem.env) := by
  obtain ⟨hcode, hstatus, hbody, hsame⟩ := hk.get_absent path data offset t.mem.env hr (by omega)
  set reply := (env.perform (getRequest path data offset) t.mem.env).1 with hreply
  have hstored : (received data reply).1 = true := by
    rw [received, hbody]
    rfl
  have hget := davGet_failed (ρ := ρ) srv hk.toSteady path data offset h.clean
    fun hall => by rw [← hreply, hcode] at hall; cases hall.1
  have hkept : (received data reply).2.data = data := by
    rw [received, hbody]
    rfl
  rw [← hreply, if_pos hstored, hcode, hstatus, hkept] at hget
  exact ⟨_, davRead_neg srv hdata hget neg_one_lt_zero, ⟨rfl, h.free⟩, hsame⟩

/-- The outside after a part of the output was saved in `array`. -/
def afterSaving (env : Env σ) (path : Path) (array : Bytes) (offset : ℕ) (s : σ) : σ :=
  if array.length = 0 then s else (env.perform (getRequest path array offset) s).2

/-- A part of the output is saved; without a file there is none. -/
theorem saveOut_found {old : Bytes} {size : ℕ}
    (hold : size = 0 ∨ ∃ r, files t.mem.env path = some r ∧ r.content = old) (offset : ℕ) :
    ∃ t', (saveOut env srv path size offset : Dav σ ρ (ℤ × Bytes)) t =
        (.ok (readResult (min size (old.length - offset)),
          overlaid old offset (arrayBytes env size t.mem.env)), t') ∧ AtRest t' ∧
      t'.mem.env = afterSaving env path (arrayBytes env size t.mem.env) offset t.mem.env ∧
      files t'.mem.env = files t.mem.env := by
  set array := arrayBytes env size t.mem.env with harray
  have hlen : array.length = size := length_arrayBytes env size t.mem.env
  have hstack : (env.stackArray size : Dav σ ρ Bytes) t = (.ok array, t) := rfl
  rw [saveOut, Ctl.bind_ok hstack, afterSaving, hlen]
  by_cases hsize : size = 0
  · have hnil : array = [] := List.length_eq_zero_iff.mp (hlen.trans hsize)
    rw [if_pos hsize, if_pos hsize, hnil, hsize, Nat.zero_min, overlaid, List.length_nil,
      List.take_zero, List.drop_nil]
    exact ⟨t, rfl, h, rfl, rfl⟩
  · obtain ⟨r, hr, rfl⟩ := hold.resolve_left hsize
    rw [if_neg hsize, if_neg hsize]
    obtain ⟨t', hrun, h', henv, hfs⟩ := davRead_anywhere (ρ := ρ) hk.toKeepsFiles srv h hr offset
      (by rw [hlen]; exact hsize : array.length ≠ 0)
    rw [hlen] at hrun
    exact ⟨t', hrun, h', henv, hfs⟩

/-- A saved part is written back. -/
theorem restoreOut_found (hr : files t.mem.env path = some r) {buf : Bytes} {offset : ℕ}
    (hle : offset ≤ r.content.length) :
    Makes files (restoreOut env srv path buf offset : Dav σ ρ ℤ) t (toInt buf.length)
      (Function.update (files t.mem.env) path
        (some { r with content := splice 0 r.content offset buf })) := by
  rw [restoreOut]
  by_cases hbuf : buf.length = 0
  · rw [if_pos hbuf, List.length_eq_zero_iff.mp hbuf, splice_nil 0 hle, ← hr,
      Function.update_eq_self]
    exact .pure h _
  · rw [if_neg hbuf]
    exact davWrite_found hk.toKeepsFiles srv h hr hle

/-- The copy, and what is written back. -/
theorem copyAndRestore_restored {pathIn pathOut : Path} (hne : pathIn ≠ pathOut)
    (hr : files t.mem.env pathIn = some r) (before after : Bytes) (len : ℕ) :
    ∃ v new, Makes files (copyAndRestore env srv pathIn pathOut before after before.length len :
        Dav σ ρ ℤ) t v
        (Function.update (files t.mem.env) pathOut (some { r with content := new })) ∧
      Restored r.content before after len v new := by
  obtain ⟨t₁, hcopy, h₁, hfs₁⟩ := davCopy_found (ρ := ρ) hk srv h hne hr
  have hr₁ : files t₁.mem.env pathOut = some r := by
    rw [hfs₁, Function.update_self]
  obtain ⟨t₂, hhead, h₂, hfs₂⟩ : Makes files (restoreOut env srv pathOut before (0 : ℕ) : Dav σ ρ ℤ)
      t₁ _ _ := restoreOut_found hk srv h₁ hr₁ (Nat.zero_le _)
  rw [hfs₁, Function.update_idem] at hfs₂
  have hcopied : (copyAndRestore env srv pathIn pathOut before after before.length len : Dav σ ρ ℤ) t =
      (if toInt before.length ≠ 0 then pure (toInt before.length) else do
        let res ← restoreOut env srv pathOut after before.length
        if res ≠ 0 then pure res else pure (toSsize len) : Dav σ ρ ℤ) t₂ := by
    refine (Ctl.bind_ok hcopy).trans ((Ctl.bind_ok (show (davExceptionTest 0 : Dav σ ρ ℤ) t₁ =
      (.ok 0, t₁) from rfl)).trans ?_)
    rw [if_neg (not_not_intro rfl)]
    exact Ctl.bind_ok hhead
  by_cases hzero : toInt before.length = 0
  · have hr₂ : files t₂.mem.env pathOut = some { r with content := splice 0 r.content 0 before } := by
      rw [hfs₂, Function.update_self]
    have hle : before.length ≤ (splice 0 r.content 0 before).length := by
      rw [length_splice]
      omega
    obtain ⟨t₃, htail, h₃, hfs₃⟩ : Makes files (restoreOut env srv pathOut after before.length :
        Dav σ ρ ℤ) t₂ _ _ := restoreOut_found hk srv h₂ hr₂ hle
    rw [hfs₂, Function.update_idem] at hfs₃
    rw [if_neg (not_not_intro hzero), Ctl.bind_ok htail] at hcopied
    by_cases hzero' : toInt after.length = 0
    · rw [if_neg (not_not_intro hzero')] at hcopied
      exact ⟨_, _, ⟨t₃, hcopied, h₃, hfs₃⟩, .whole hzero hzero'⟩
    · rw [if_pos hzero'] at hcopied
      exact ⟨_, _, ⟨t₃, hcopied, h₃, hfs₃⟩, .tail hzero hzero'⟩
  · rw [if_pos hzero] at hcopied
    exact ⟨_, _, ⟨t₂, hcopied, h₂, hfs₂⟩, .head hzero⟩

omit hk h in
theorem afterSize_zero (offset : ℤ) (len : ℕ) : afterSize offset len 0 = 0 :=
  if_neg (Nat.not_lt_zero _)

/-- The array for the end of the output, on entry. -/
def tailArray (env : Env σ) (path : Path) (offset len : ℕ) (size : ℤ) (s : σ) : Bytes :=
  arrayBytes env (afterSize offset len size) (afterSaving env path (arrayBytes env offset s) 0 s)

/-- The result, and the output afterwards; the input is kept. -/
def Leaving (files : σ → Files) (m : Dav σ ρ ℤ) (t : Thread (Mem σ)) (pathIn pathOut : Path) (v : ℤ)
    (new : Option Bytes) : Prop :=
  ∃ t', m t = (.ok v, t') ∧ files t'.mem.env pathIn = files t.mem.env pathIn ∧
    (files t'.mem.env pathOut).map (·.content) = new

/-- `dav_copy_file_range` after the beginning is saved. -/
theorem saveTail_copied {pathIn pathOut : Path} (hne : pathIn ≠ pathOut)
    (hr : files t.mem.env pathIn = some r) {size : ℤ}
    (hsize : files t.mem.env pathOut = none → size = 0) {offset len : ℕ} {out : Option Bytes}
    (hout : (files t.mem.env pathOut).map (·.content) = out) {head tail : Bytes}
    (hhead : head.length = offset)
    (htail : arrayBytes env (afterSize offset len size) t.mem.env = tail)
    (hlen : ¬len < toUnsigned size / 2) (hmissing : ¬(out = none ∧ offset ≠ 0))
    (hzero : toInt (min offset (out.getD []).length : ℕ) = 0) :
    ∃ v new, Leaving files (do
        let after ← saveOut env srv pathOut (afterSize offset len size) offset
        if after.1 ≠ 0 then pure after.1
        else copyAndRestore env srv pathIn pathOut (overlaid (out.getD []) 0 head) after.2 offset len :
          Dav σ ρ ℤ) t pathIn pathOut v new ∧
      Copied r.content out size offset len head tail v new := by
  have hlenTail : afterSize offset len size = tail.length := by
    rw [← htail, length_arrayBytes]
  have hfile : afterSize offset len size = 0 ∨
      ∃ r', files t.mem.env pathOut = some r' ∧ r'.content = out.getD [] := by
    rcases hfile : files t.mem.env pathOut with _ | r'
    · left
      rw [hsize hfile]
      exact afterSize_zero offset len
    · right
      exact ⟨r', rfl, by rw [← hout, hfile]; rfl⟩
  obtain ⟨t₁, hsave, h₁, -, hfs₁⟩ := saveOut_found (ρ := ρ) hk srv h hfile offset
  rw [htail] at hsave
  rw [hlenTail] at hsave ⊢
  obtain ⟨v₁, hv₁⟩ : ∃ v, v = readResult (min tail.length ((out.getD []).length - offset)) := ⟨_, rfl⟩
  rw [← hv₁] at hsave
  by_cases hzero' : toInt (min tail.length ((out.getD []).length - offset) : ℕ) = 0
  · have hzero₁ : v₁ = 0 := by
      rw [hv₁]
      exact readResult_eq_zero_iff.mpr hzero'
    have hr₁ : files t₁.mem.env pathIn = some r := by
      rw [hfs₁]
      exact hr
    have hlenHead : (overlaid (out.getD []) 0 head).length = offset := by
      rw [length_overlaid]
      exact hhead
    obtain ⟨v, new, ⟨t₂, hrun, h₂, hfs₂⟩, hnew⟩ := copyAndRestore_restored (ρ := ρ) hk srv h₁ hne hr₁
      (overlaid (out.getD []) 0 head) (overlaid (out.getD []) offset tail) len
    rw [hlenHead] at hrun
    refine ⟨v, some new, ⟨t₂, ?_, ?_, ?_⟩, .restored hlen hmissing hzero hzero' hnew⟩
    · rw [Ctl.bind_ok hsave, if_neg (not_not_intro hzero₁)]
      exact hrun
    · rw [hfs₂, Function.update_of_ne hne, hfs₁]
    · rw [hfs₂, Function.update_self]
      rfl
  · have hne₁ : v₁ ≠ 0 := by
      rw [hv₁, ne_eq, readResult_eq_zero_iff]
      exact hzero'
    refine ⟨v₁, out, ⟨t₁, ?_, ?_, ?_⟩, ?_⟩
    · rw [Ctl.bind_ok hsave, if_pos hne₁]
      rfl
    · rw [hfs₁]
    · rw [hfs₁]
      exact hout
    · rw [hv₁]
      exact .tailRead hlen hmissing hzero hzero'

/-- Nothing can be saved of an output that does not exist. -/
theorem saveOut_missing (hr : files t.mem.env path = none) {size : ℕ} (hsize : size ≠ 0)
    (offset : ℕ) :
    Makes files (saveOut env srv path size offset : Dav σ ρ (ℤ × Bytes)) t
      (-enoent, arrayBytes env size t.mem.env) (files t.mem.env) := by
  have hlen : (arrayBytes env size t.mem.env).length ≠ 0 := by
    rw [length_arrayBytes]
    exact hsize
  refine (stackArray_makes h size).bind fun t' h' hfs => ?_
  rw [if_neg hsize, ← hfs]
  exact davRead_missing hk srv h' (by rw [hfs]; exact hr) hlen offset

/-- `dav_copy_file_range` after the length is known. -/
theorem copyRange_copied {pathIn pathOut : Path} (hne : pathIn ≠ pathOut)
    (hr : files t.mem.env pathIn = some r) {size : ℤ}
    (hsize : files t.mem.env pathOut = none → size = 0) (offset len : ℕ) :
    ∃ v new, Leaving files (copyRange env srv pathIn pathOut offset len size : Dav σ ρ ℤ) t
        pathIn pathOut v new ∧
      Copied r.content ((files t.mem.env pathOut).map (·.content)) size offset len
        (arrayBytes env offset t.mem.env) (tailArray env pathOut offset len size t.mem.env) v new := by
  set out := (files t.mem.env pathOut).map (·.content) with hout
  set head := arrayBytes env offset t.mem.env with hhead
  by_cases hlen : len < toUnsigned size / 2
  · refine ⟨_, _, ⟨t, ?_, rfl, rfl⟩, .refused hlen⟩
    rw [copyRange, if_pos hlen]
    rfl
  have hbegin : (copyRange env srv pathIn pathOut offset len size : Dav σ ρ ℤ) t = (do
      let before ← saveOut env srv pathOut offset (0 : ℕ)
      if before.1 ≠ 0 then pure before.1 else do
        let after ← saveOut env srv pathOut (afterSize offset len size) offset
        if after.1 ≠ 0 then pure after.1
        else copyAndRestore env srv pathIn pathOut before.2 after.2 offset len : Dav σ ρ ℤ) t := by
    rw [copyRange, if_neg hlen]
    rfl
  by_cases hmissing : out = none ∧ offset ≠ 0
  · obtain ⟨hnone, hoffset⟩ := hmissing
    obtain ⟨t₁, hsave, -, hfs₁⟩ := saveOut_missing (ρ := ρ) hk srv h (Option.map_eq_none_iff.mp hnone)
      hoffset 0
    refine ⟨_, _, ⟨t₁, ?_, congrFun hfs₁ pathIn, congrArg _ (congrFun hfs₁ pathOut)⟩,
      .missing hlen hnone hoffset⟩
    rw [hbegin, Ctl.bind_ok hsave, if_pos (show (-enoent : ℤ) ≠ 0 by decide)]
    rfl
  have hfile : offset = 0 ∨ ∃ r', files t.mem.env pathOut = some r' ∧ r'.content = out.getD [] := by
    rcases hfile : files t.mem.env pathOut with _ | r'
    · left
      by_contra hoffset
      exact hmissing ⟨by rw [hout, hfile]; rfl, hoffset⟩
    · right
      exact ⟨r', rfl, by rw [hout, hfile]; rfl⟩
  obtain ⟨t₁, hsave, h₁, henv₁, hfs₁⟩ := saveOut_found (ρ := ρ) hk srv h hfile 0
  rw [Nat.sub_zero] at hsave
  obtain ⟨v₁, hv₁⟩ : ∃ v, v = readResult (min offset (out.getD []).length) := ⟨_, rfl⟩
  rw [← hv₁] at hsave
  rw [Ctl.bind_ok hsave] at hbegin
  by_cases hzero : toInt (min offset (out.getD []).length : ℕ) = 0
  · have hzero₁ : v₁ = 0 := by
      rw [hv₁]
      exact readResult_eq_zero_iff.mpr hzero
    rw [if_neg (not_not_intro hzero₁)] at hbegin
    have htail : arrayBytes env (afterSize offset len size) t₁.mem.env =
        tailArray env pathOut offset len size t.mem.env := by
      rw [henv₁]
      rfl
    obtain ⟨v, new, ⟨t₂, hrun, hin, hnew⟩, hcopied⟩ := saveTail_copied (ρ := ρ) hk srv h₁ hne
      (by rw [hfs₁]; exact hr) (by rw [hfs₁]; exact hsize) (by rw [hfs₁])
      (length_arrayBytes env offset t.mem.env) htail hlen hmissing hzero
    rw [hfs₁] at hin
    exact ⟨v, new, ⟨t₂, hbegin.trans hrun, hin, hnew⟩, hcopied⟩
  · have hne₁ : v₁ ≠ 0 := by
      rw [hv₁, ne_eq, readResult_eq_zero_iff]
      exact hzero
    rw [if_pos hne₁] at hbegin
    refine ⟨v₁, out, ⟨t₁, hbegin, congrFun hfs₁ pathIn, ?_⟩, ?_⟩
    · rw [hfs₁]
    · rw [hv₁]
      exact .headRead hlen hmissing hzero

end Functions

/-- The length that `dav_copy_file_range` goes by. -/
def outLength (url href : Path → Text) (path : Path) (out : Option Resource) : ℤ :=
  if url path <+: href path then out.elim 0 reportedLength else 0

/-- `dav_copy_file_range` does one of the ways. -/
theorem davCopyFileRange_copied {env : Env σ} {files : σ → Files} {url href : Path → Text}
    (hk : CopiesFiles env files url href) (srv : DavServer) {pathIn pathOut : Path} {r : Resource}
    {t : Thread (Mem σ)} (h : AtRest t) (hne : pathIn ≠ pathOut)
    (hr : files t.mem.env pathIn = some r)
    (hlt : ∀ r', files t.mem.env pathOut = some r' → r'.content.length < 2 ^ 63) (offset len : ℕ) :
    ∃ v new, Leaving files (davCopyFileRange env srv pathIn offset pathOut offset len : Dav σ ρ ℤ) t
        pathIn pathOut v new ∧
      Copied r.content ((files t.mem.env pathOut).map (·.content))
        (outLength url href pathOut (files t.mem.env pathOut)) offset len
        (arrayBytes env offset (env.perform (propfindRequest pathOut 0) t.mem.env).2)
        (tailArray env pathOut offset len (outLength url href pathOut (files t.mem.env pathOut))
          (env.perform (propfindRequest pathOut 0) t.mem.env).2) v new := by
  have hlength : ∃ v st t₁, (davGetattr env srv pathOut zeroStat : Dav σ ρ (ℤ × Stat)) t =
      (.ok (v, st), t₁) ∧ ¬(v ≠ 0 ∧ v ≠ -enoent) ∧ AtRest t₁ ∧
      t₁.mem.env = (env.perform (propfindRequest pathOut 0) t.mem.env).2 ∧
      files t₁.mem.env = files t.mem.env ∧
      st.size = outLength url href pathOut (files t.mem.env pathOut) := by
    rcases hout : files t.mem.env pathOut with _ | r'
    · obtain ⟨t₁, hget, h₁, henv⟩ := davGetattr_missing (ρ := ρ) hk srv h hout zeroStat
      refine ⟨_, _, t₁, hget, fun hall => hall.2 rfl, h₁, henv, ?_, ?_⟩
      · rw [henv]
        exact (hk.propfind_absent pathOut t.mem.env hout).2.2
      · rw [outLength, Option.elim_none, ite_self]
        rfl
    · obtain ⟨st, t₁, hget, h₁, henv, hextends, hunfilled⟩ := davGetattr_reports (ρ := ρ)
        hk.toKeepsFiles srv h hout zeroStat
      refine ⟨_, _, t₁, hget, fun hall => hall.1 rfl, h₁, henv, ?_, ?_⟩
      · rw [henv]
        exact (hk.propfind pathOut t.mem.env r' hout).2
      · rw [outLength]
        split_ifs with hpre
        · exact (hextends hpre).size_eq (hlt r' hout)
        · rw [hunfilled hpre]
          rfl
  obtain ⟨v₀, st, t₁, hget, hgoes, h₁, henv, hfs, hst⟩ := hlength
  have hnone : files t₁.mem.env pathOut = none → st.size = 0 := by
    intro hnone
    rw [hst, ← hfs, hnone, outLength, Option.elim_none, ite_self]
  obtain ⟨v, new, ⟨t₂, hrun, hin, hnew⟩, hcopied⟩ := copyRange_copied (ρ := ρ) hk srv h₁ hne
    (by rw [hfs]; exact hr) hnone offset len
  rw [hst, hfs, henv] at hcopied
  rw [hfs] at hin
  refine ⟨v, new, ⟨t₂, ?_, hin, hnew⟩, hcopied⟩
  rw [davCopyFileRange, if_neg (not_not_intro rfl), Ctl.bind_ok hget, if_neg hgoes]
  exact hrun

/-! ## What is copied -/

/-- `v` bytes from `offset` on were copied and nothing else was changed, or `v` is an error and
    nothing was changed. -/
def CopiesExactly (content : Bytes) (out : Option Bytes) (offset len : ℕ) (v : ℤ)
    (new : Option Bytes) : Prop :=
  (0 ≤ v ∧ v ≤ len ∧ ((content.drop offset).take v.toNat).length = v.toNat ∧
    new = some (splice 0 (out.getD []) offset ((content.drop offset).take v.toNat))) ∨
  (v < 0 ∧ new = out)

/-- A count returned by mistake is right if it is negative or the output holds these bytes
    already. -/
def HoldsAlready (content old : Bytes) (offset len : ℕ) (v : ℤ) : Prop :=
  v < 0 ∨ (v ≤ len ∧ offset + v ≤ content.length ∧ offset + v ≤ old.length ∧
    (old.drop offset).take v.toNat = (content.drop offset).take v.toNat)

/-- The output is made of `head`, with the old content over it, of `part` and of what the input has
    after them, and `v` is returned. This is right if the output is zero between its old end and
    `offset`, and from `offset` on it is `v` bytes of the input and what was there. -/
def RewritesRight (content : Bytes) (out : Option Bytes) (offset len : ℕ) (head part : Bytes)
    (v : ℤ) : Prop :=
  (0 ≤ v ∧ v ≤ len ∧ (v = 0 ∨ offset + v ≤ content.length) ∧
    (∀ b ∈ head.drop (out.getD []).length, b = 0) ∧
    part ++ content.drop (offset + part.length) =
      (content.drop offset).take v.toNat ++ (out.getD []).drop (offset + v.toNat)) ∨
  (v < 0 ∧ out = some (overlaid (out.getD []) 0 head ++ part ++ content.drop (offset + part.length)))

/-- When `dav_copy_file_range` copies what it reports, in the order of its exits. -/
def CopyHolds (content : Bytes) (out : Option Bytes) (size : ℤ) (offset len : ℕ)
    (head tail : Bytes) : Prop :=
  if len < toUnsigned size / 2 ∨ (out = none ∧ offset ≠ 0) then True
  else if toInt (min offset (out.getD []).length : ℕ) ≠ 0 then
    HoldsAlready content (out.getD []) offset len (toInt (min offset (out.getD []).length : ℕ))
  else if toInt (min tail.length ((out.getD []).length - offset) : ℕ) ≠ 0 then
    HoldsAlready content (out.getD []) offset len
      (toInt (min tail.length ((out.getD []).length - offset) : ℕ))
  else if toInt offset ≠ 0 then
    RewritesRight content out offset len head [] (toInt offset)
  else if toInt tail.length ≠ 0 then
    RewritesRight content out offset len head (overlaid (out.getD []) offset tail)
      (toInt tail.length)
  else RewritesRight content out offset len head (overlaid (out.getD []) offset tail) (toSsize len)

section Exactly

variable {content : Bytes} {out : Option Bytes} {offset len : ℕ}

theorem length_range_eq_iff (content : Bytes) (offset : ℕ) {v : ℤ} (hv : 0 ≤ v) :
    ((content.drop offset).take v.toNat).length = v.toNat ↔ v = 0 ∨ offset + v ≤ content.length := by
  rw [List.length_take, List.length_drop]
  omega

/-- A count that `dav_read` returned, with the output as it was. -/
theorem copiesExactly_same_iff {n : ℕ} (hn : toInt n ≠ 0) (hout : out ≠ none) :
    CopiesExactly content out offset len (readResult n) out ↔
      HoldsAlready content (out.getD []) offset len (toInt n) := by
  obtain ⟨old, rfl⟩ := Option.ne_none_iff_exists'.mp hout
  rw [readResult]
  by_cases hneg : toInt n < 0
  · rw [if_pos hneg]
    exact iff_of_true (.inr ⟨by decide, rfl⟩) (.inl hneg)
  rw [if_neg hneg, CopiesExactly, HoldsAlready, or_iff_left (fun hall => hneg hall.1),
    or_iff_right hneg, length_range_eq_iff content offset (by omega), Option.some.injEq, Option.getD_some]
  have hpos : 0 < toInt n := by omega
  set v := toInt n with hv
  have hthere : offset + v ≤ content.length →
      (old = splice 0 old offset ((content.drop offset).take v.toNat) ↔
        offset + v ≤ old.length ∧ (old.drop offset).take v.toNat = (content.drop offset).take v.toNat) := by
    intro hle
    have hlen := (length_range_eq_iff content offset hpos.le).mpr (.inr hle)
    have hne : (content.drop offset).take v.toNat ≠ [] := by
      intro hnil
      rw [hnil, List.length_nil] at hlen
      omega
    rw [eq_comm, splice_eq_self_iff 0 hne, hlen]
    exact and_congr_left fun _ => by omega
  constructor
  · rintro ⟨-, hle, hrange, heq⟩
    have hle' := hrange.resolve_left hpos.ne'
    exact ⟨hle, hle', (hthere hle').mp heq⟩
  · rintro ⟨hle, hle', hold⟩
    exact ⟨hpos.le, hle, .inr hle', (hthere hle').mpr hold⟩

/-- An output that was written again. -/
theorem copiesExactly_rewritten_iff {head : Bytes} (hhead : head.length = offset) (part : Bytes)
    (v : ℤ) :
    CopiesExactly content out offset len v
        (some (overlaid (out.getD []) 0 head ++ part ++ content.drop (offset + part.length))) ↔
      RewritesRight content out offset len head part v := by
  rw [CopiesExactly, RewritesRight]
  refine or_congr ?_ (and_congr_right fun _ => eq_comm)
  set old := out.getD [] with hold
  refine and_congr_right fun hpos => and_congr_right fun _ => ?_
  rw [length_range_eq_iff content offset hpos]
  refine and_congr_right fun hrange => ?_
  have hlen := (length_range_eq_iff content offset hpos).mpr hrange
  have hzeros := rewritten_eq_resize_iff hhead old
  rw [← hzeros, Option.some.injEq, splice, hlen]
  have hbefore : overlaid old 0 head = old.take offset ++ head.drop (min offset old.length) := by
    rw [overlaid_zero, hhead]
  rw [← hbefore, List.append_assoc, List.append_assoc, ← resize]
  constructor
  · intro heq
    refine List.append_inj heq ?_
    rw [length_overlaid, hhead, resize, List.length_take, length_extend]
    omega
  · rintro ⟨hfirst, hrest⟩
    rw [hfirst, hrest]

end Exactly

/-- What was done is right exactly under the condition. -/
theorem Copied.exactly_iff {content : Bytes} {out : Option Bytes} {size : ℤ} {offset len : ℕ}
    {head tail : Bytes} (hhead : head.length = offset) {v : ℤ} {new : Option Bytes}
    (h : Copied content out size offset len head tail v new) :
    CopiesExactly content out offset len v new ↔ CopyHolds content out size offset len head tail := by
  have hsome : ∀ {n m : ℕ}, toInt (min n ((out.getD []).length - m) : ℕ) ≠ 0 → out ≠ none := by
    rintro n m hne rfl
    apply hne
    rw [Option.getD_none, List.length_nil, Nat.zero_sub, Nat.min_zero]
    rfl
  have hbefore : (overlaid (out.getD []) 0 head).length = offset := by
    rw [length_overlaid]
    exact hhead
  rw [CopyHolds]
  cases h with
  | refused hlen =>
    rw [if_pos (.inl hlen)]
    exact iff_of_true (.inr ⟨by decide, rfl⟩) trivial
  | missing hlen hout hoffset =>
    rw [if_pos (.inr ⟨hout, hoffset⟩)]
    exact iff_of_true (.inr ⟨by decide, rfl⟩) trivial
  | headRead hlen hout hread =>
    rw [if_neg (not_or.mpr ⟨hlen, hout⟩), if_pos hread]
    exact copiesExactly_same_iff hread (hsome (m := 0) hread)
  | tailRead hlen hout hread hread' =>
    rw [if_neg (not_or.mpr ⟨hlen, hout⟩), if_neg (not_not_intro hread), if_pos hread']
    exact copiesExactly_same_iff hread' (hsome hread')
  | restored hlen hout hread hread' hnew =>
    rw [if_neg (not_or.mpr ⟨hlen, hout⟩), if_neg (not_not_intro hread),
      if_neg (not_not_intro hread')]
    cases hnew with
    | head hne =>
      rw [hbefore] at hne ⊢
      rw [if_pos hne, ← copiesExactly_rewritten_iff hhead, splice_head, hbefore, List.append_nil]
      rfl
    | tail heq hne =>
      rw [hbefore] at heq
      rw [length_overlaid] at hne ⊢
      rw [if_neg (not_not_intro heq), if_pos hne, ← copiesExactly_rewritten_iff hhead,
        splice_splice_head, hbefore]
    | whole heq heq' =>
      rw [hbefore] at heq
      rw [length_overlaid] at heq'
      rw [if_neg (not_not_intro heq), if_neg (not_not_intro heq'),
        ← copiesExactly_rewritten_iff hhead, splice_splice_head, hbefore]

/-- `dav_copy_file_range` copies what it reports from the file with `content`. -/
def CopiesRange (ρ : Type) (env : Env σ) (srv : DavServer) (files : σ → Files) (pathIn pathOut : Path)
    (content : Bytes) (offset len : ℕ) (t : Thread (Mem σ)) : Prop :=
  ∃ v t', (davCopyFileRange env srv pathIn offset pathOut offset len : Dav σ ρ ℤ) t = (.ok v, t') ∧
    files t'.mem.env pathIn = files t.mem.env pathIn ∧
    CopiesExactly content ((files t.mem.env pathOut).map (·.content)) offset len v
      ((files t'.mem.env pathOut).map (·.content))

section Range

variable {env : Env σ} {files : σ → Files} {url href : Path → Text}
  (hk : CopiesFiles env files url href) (srv : DavServer) {pathIn pathOut : Path} {r : Resource}
  {t : Thread (Mem σ)} (h : AtRest t) (hne : pathIn ≠ pathOut)
  (hr : files t.mem.env pathIn = some r)
  (hlt : ∀ r', files t.mem.env pathOut = some r' → r'.content.length < 2 ^ 63) (offset len : ℕ)

include hk h hne hr hlt

theorem copiesRange_copied :
    ∃ v new, Copied r.content ((files t.mem.env pathOut).map (·.content))
        (outLength url href pathOut (files t.mem.env pathOut)) offset len
        (arrayBytes env offset (env.perform (propfindRequest pathOut 0) t.mem.env).2)
        (tailArray env pathOut offset len (outLength url href pathOut (files t.mem.env pathOut))
          (env.perform (propfindRequest pathOut 0) t.mem.env).2) v new ∧
      (CopiesRange ρ env srv files pathIn pathOut r.content offset len t ↔
        CopiesExactly r.content ((files t.mem.env pathOut).map (·.content)) offset len v new) := by
  obtain ⟨v, new, ⟨t', hrun, hin, hnew⟩, hcopied⟩ := davCopyFileRange_copied (ρ := ρ) hk srv h hne hr
    hlt offset len
  refine ⟨v, new, hcopied, ?_, fun hall => ?_⟩
  · rintro ⟨w, t'', hrun', -, hall⟩
    obtain ⟨hv, rfl⟩ := Prod.mk.inj (hrun.symm.trans hrun')
    rw [← Except.ok.inj hv, hnew] at hall
    exact hall
  · rw [← hnew] at hall
    exact ⟨v, t', hrun, hin, hall⟩

/-- `dav_copy_file_range` copies what it reports exactly under the condition. -/
theorem copy_range_iff :
    CopiesRange ρ env srv files pathIn pathOut r.content offset len t ↔
      CopyHolds r.content ((files t.mem.env pathOut).map (·.content))
        (outLength url href pathOut (files t.mem.env pathOut)) offset len
        (arrayBytes env offset (env.perform (propfindRequest pathOut 0) t.mem.env).2)
        (tailArray env pathOut offset len (outLength url href pathOut (files t.mem.env pathOut))
          (env.perform (propfindRequest pathOut 0) t.mem.env).2) := by
  obtain ⟨v, new, hcopied, hiff⟩ := copiesRange_copied (ρ := ρ) hk srv h hne hr hlt offset len
  rw [hiff]
  exact hcopied.exactly_iff (length_arrayBytes env offset _)

end Range

/-! ## Such a server -/

/-- The server of `keepFiles`, which also copies. -/
def copyFiles (url href : Path → Text) (request : Request) (fs : Files) : Reply × Files :=
  match request.method, request.headers, fs request.path with
  | .copy, .destination to_ :: _, some r => (plainReply 201, Function.update fs to_ (some r))
  | _, _, _ => keepFiles url href request fs

theorem copyFiles_of_ne (url href : Path → Text) {request : Request} (h : request.method ≠ .copy)
    (fs : Files) : copyFiles url href request fs = keepFiles url href request fs := by
  unfold copyFiles
  split
  · exact absurd ‹request.method = .copy› h
  · rfl

theorem keepsFiles_copyFiles (url href : Path → Text) :
    KeepsFiles (serving (copyFiles url href)) id url href := by
  refine (keepsFiles_keepFiles url href).congr (steady_serving _) (fun _ _ => ⟨rfl, rfl⟩) ?_
  intro request fs hon
  refine copyFiles_of_ne url href (fun hcopy => ?_) fs
  rw [hcopy] at hon
  cases hon

theorem copiesFiles_copyFiles (url href : Path → Text) :
    CopiesFiles (serving (copyFiles url href)) id url href where
  toKeepsFiles := keepsFiles_copyFiles url href
  copy from_ to_ lines s r _ hr := by
    have hserve : copyFiles url href ⟨.copy, from_, .destination to_ :: lines, none, .none⟩ s =
        (plainReply 201, Function.update s to_ (some r)) := by
      simp only [copyFiles, show s from_ = some r from hr]
    rw [show (serving (copyFiles url href)).perform = copyFiles url href from rfl, hserve]
    exact ⟨rfl, rfl⟩
  propfind_absent path s hr := by
    have hserve : copyFiles url href (propfindRequest path 0) s = (plainReply 404, s) := by
      rw [copyFiles_of_ne url href (show (propfindRequest path 0).method ≠ .copy by rintro ⟨⟩)]
      simp only [keepFiles, propfindRequest, show s path = none from hr]
    rw [show (serving (copyFiles url href)).perform = copyFiles url href from rfl, hserve]
    exact ⟨rfl, rfl, rfl⟩
  get_absent path data offset s hr hdata := by
    have hserve : copyFiles url href (getRequest path data offset) s = (plainReply 404, s) := by
      have hrange : getRange data offset = some ⟨offset, data.length⟩ :=
        if_neg fun hall => absurd hall.2 (by omega)
      rw [copyFiles_of_ne url href (show (getRequest path data offset).method ≠ .copy by rintro ⟨⟩)]
      simp only [keepFiles, getRequest, hrange, show s path = none from hr]
    rw [show (serving (copyFiles url href)).perform = copyFiles url href from rfl, hserve]
    exact ⟨rfl, rfl, rfl, rfl⟩

/-- Files at `/a` and `/b`, without properties. -/
def twoFiles (content out : Bytes) : Files :=
  Function.update (onlyFile content) [47, 98] (some (.plain out))

/-- Two bytes over one from the beginning on. -/
theorem copy_range_whole :
    CopiesRange ℤ (serving (copyFiles (fun _ => []) fun _ => [])) lockingServer id [47, 97] [47, 98]
      [1, 2] 0 2 (entered (twoFiles [1, 2] [3]) []) := by
  have hfile : id (entered (twoFiles [1, 2] [3]) []).mem.env [47, 97] = some (.plain [1, 2]) := rfl
  have hout : id (entered (twoFiles [1, 2] [3]) []).mem.env [47, 98] = some (.plain [3]) := rfl
  refine (copy_range_iff (ρ := ℤ) (copiesFiles_copyFiles (fun _ => []) fun _ => []) lockingServer
    ⟨rfl, rfl⟩ (by decide) hfile (fun r' hr' => ?_) 0 2).mpr ?_
  · rw [hout, Option.some.injEq] at hr'
    rw [← hr']
    decide
  · rw [hout]
    refine (if_neg (by decide)).mpr ((if_neg (by decide)).mpr ((if_neg (by decide)).mpr ?_))
    refine (if_neg (by decide)).mpr ((if_neg (by decide)).mpr (.inl ?_))
    exact ⟨by decide, by decide, .inr (by decide), nofun, by decide⟩

theorem copyHolds_twoFiles {out : Bytes} (hlt : out.length < 2 ^ 63) {offset len : ℕ}
    (hcopies : CopiesRange ℤ (serving (copyFiles (fun _ => []) fun _ => [])) lockingServer id [47, 97]
      [47, 98] [1, 2] offset len (entered (twoFiles [1, 2] out) [])) :
    ∃ head tail : Bytes, tail.length = afterSize offset len out.length ∧
      CopyHolds [1, 2] (some out) out.length offset len head tail := by
  have hne : ([47, 97] : Path) ≠ [47, 98] := by decide
  have hfile : id (entered (twoFiles [1, 2] out) []).mem.env [47, 97] = some (.plain [1, 2]) := rfl
  have hout : id (entered (twoFiles [1, 2] out) []).mem.env [47, 98] = some (.plain out) := rfl
  obtain ⟨v, new, hcopied, hiff⟩ := copiesRange_copied (ρ := ℤ)
    (copiesFiles_copyFiles (fun _ => []) fun _ => []) lockingServer ⟨rfl, rfl⟩ hne hfile
    (fun r' hr' => by rw [hout, Option.some.injEq] at hr'; rw [← hr']; exact hlt) offset len
  exact ⟨_, _, length_arrayBytes _ _ _,
    (hcopied.exactly_iff (length_arrayBytes _ offset _)).mp (hiff.mp hcopies)⟩

/-- One byte at offset 1 is reported and not copied, and one byte at offset 0 into an empty file
    brings the next one with it. -/
theorem copy_range_wrong :
    ¬CopiesRange ℤ (serving (copyFiles (fun _ => []) fun _ => [])) lockingServer id [47, 97] [47, 98]
        [1, 2] 1 1 (entered (twoFiles [1, 2] [3]) []) ∧
      ¬CopiesRange ℤ (serving (copyFiles (fun _ => []) fun _ => [])) lockingServer id [47, 97] [47, 98]
        [1, 2] 0 1 (entered (twoFiles [1, 2] []) []) := by
  constructor
  · intro hcopies
    obtain ⟨head, tail, hall⟩ := copyHolds_twoFiles (by decide) hcopies
    refine absurd hall.2 ?_
    have hnot : ¬HoldsAlready [1, 2] [3] 1 1 1 := by
      rintro (hneg | ⟨-, -, hlen, -⟩)
      · exact absurd hneg (by decide)
      · exact absurd hlen (by decide)
    rw [CopyHolds, if_neg (by decide), if_pos (by decide)]
    exact hnot
  · intro hcopies
    obtain ⟨head, tail, hall⟩ := copyHolds_twoFiles (by decide) hcopies
    obtain rfl : tail = [] := List.length_eq_zero_iff.mp hall.1
    refine absurd hall.2 ?_
    have hnot : ¬RewritesRight [1, 2] (some []) 0 1 head [] 1 := by
      rintro (⟨-, -, -, -, hrest⟩ | ⟨hneg, -⟩)
      · exact absurd hrest (by decide)
      · exact absurd hneg (by decide)
    rw [CopyHolds, if_neg (by decide), if_neg (by decide), if_neg (by decide), if_neg (by decide),
      if_neg (by decide)]
    exact hnot

end NetworkFs.Dav
