import NetworkFs.Dav.Metadata

/-!
# The length that `dav_truncate` sets

`dav_truncate` has four ways to set a length. Nothing is done if `dav_getattr` reports it already.
Length zero deletes the file and creates it again. Below half of the length, cut to 32 bits, the
beginning is read; the count that `dav_read` returns is taken for an error, so the file is written
again only if the count, cut to an `int`, is zero. Any other length is stored as a property that
`dav_propfind` does not ask for.

* `Truncated`: these ways, and what they leave.
* `davTruncate_truncated`: `dav_truncate` takes one of them.
* `truncate_sets_iff`: when the length is set.
-/

namespace NetworkFs.Dav

open Control Grammar Wrapper Text Data

variable {σ ρ : Type}

/-- `content`, cut or extended with zeros to `n` bytes. -/
def resize (n : ℕ) (content : Bytes) : Bytes := (extend 0 n content).take n

/-- The bytes in the array of `dav_truncate` on entry. -/
def arrayBytes (env : Env σ) (n : ℕ) (s : σ) : Bytes := (List.range n).map (env.stackByte s)

@[simp] theorem length_arrayBytes (env : Env σ) (n : ℕ) (s : σ) : (arrayBytes env n s).length = n := by
  rw [arrayBytes, List.length_map, List.length_range]

/-- The bytes in it after the requests before it. -/
def truncateArray (env : Env σ) (path : Path) (size : ℕ) (s : σ) : Bytes :=
  arrayBytes env size
    (env.perform (headRequest path) (env.perform (propfindRequest path 0) s).2).2

@[simp] theorem length_truncateArray (env : Env σ) (path : Path) (size : ℕ) (s : σ) :
    (truncateArray env path size s).length = size :=
  length_arrayBytes env size _

/-- What `dav_truncate` returns and makes of the file `r`, if `dav_getattr` gave the length
    `reported` and the mode `mode` and `array` is in the array. -/
inductive Truncated (r : Resource) (size : ℕ) (reported : ℤ) (mode : ℕ) (array : Bytes) :
    ℤ → Resource → Prop
  | same (hsize : reported = size) : Truncated r size reported mode array 0 r
  | emptied (hsize : reported ≠ size) (hzero : size = 0) :
    Truncated r size reported mode array 0
      ((Resource.plain []).patch (own "mode") (some (modeValue mode)))
  | refused {v : ℤ} (hsize : reported ≠ size) (hzero : size ≠ 0)
      (hlow : size % 2 ^ 32 < r.content.length / 2)
      (hcount : toInt (min size r.content.length : ℕ) ≠ 0) (hv : v ≠ 0) :
    Truncated r size reported mode array v r
  | rewritten (hsize : reported ≠ size) (hzero : size ≠ 0)
      (hlow : size % 2 ^ 32 < r.content.length / 2)
      (hcount : toInt (min size r.content.length : ℕ) = 0) :
    Truncated r size reported mode array 0
      (.plain (r.content.take size ++ array.drop (min size r.content.length)))
  | noted (hsize : reported ≠ size) (hzero : size ≠ 0)
      (hlow : r.content.length / 2 ≤ size % 2 ^ 32) :
    Truncated r size reported mode array 0
      (r.patch ⟨none, "size".toList⟩ (some (sizeValue size)))

section Truncate

variable {env : Env σ} {files : σ → Files} {url href : Path → Text}
  (hk : KeepsFiles env files url href) (srv : DavServer) {path : Path} {r : Resource}
  {t : Thread (Mem σ)} (h : AtRest t)

include hk h

theorem davPut_new (hr : files t.mem.env path = none) (data : Bytes) :
    Makes files (davPut env srv path data 0 : Dav σ ρ ℤ) t 0
      (Function.update (files t.mem.env) path (some (.plain data))) := by
  obtain ⟨hcode, hsame⟩ := hk.put_new path (lockLines srv path .read t.mem.table) data t.mem.env hr
  exact ⟨_, davPut_ok srv hk.toSteady h.clean (h.canLock .read) hcode, ⟨h.clear, h.free⟩, hsame⟩

/-- `dav_truncate` to zero. -/
theorem truncateZero_found (hr : files t.mem.env path = some r) (mode : ℕ) :
    Makes files (truncateZero env srv path mode : Dav σ ρ ℤ) t 0 (Function.update (files t.mem.env)
      path (some ((Resource.plain []).patch (own "mode") (some (modeValue mode))))) := by
  refine (davDelete_found hk srv h hr).bind fun t₁ h₁ hfs₁ => ?_
  rw [if_neg (not_not_intro rfl)]
  refine (davPutSimple_makes hk srv h₁).bind fun t₂ h₂ hfs₂ => ?_
  rw [if_neg (not_not_intro rfl)]
  rw [hfs₁, Function.update_self, Function.update_idem] at hfs₂
  have hnew : files t₂.mem.env path = some (Resource.plain []) := by
    rw [hfs₂, Function.update_self]
    rfl
  have hmode := davChmod_found (ρ := ρ) hk srv h₂ hnew mode
  rw [hfs₂, Function.update_idem] at hmode
  exact hmode

omit hk in
theorem stackArray_makes (n : ℕ) :
    Makes files (env.stackArray n : Dav σ ρ Bytes) t (arrayBytes env n t.mem.env)
      (files t.mem.env) :=
  ⟨t, rfl, h, rfl⟩

theorem davUnlink_found (hr : files t.mem.env path = some r) :
    Makes files (davUnlink env srv path : Dav σ ρ ℤ) t 0
      (Function.update (files t.mem.env) path none) := by
  refine (davDelete_found hk srv h hr).bind fun t' h' hfs => ?_
  rw [← hfs]
  exact davExceptionCheck_makes h' 0

/-- The count is zero: the file is written again with what is in the array. -/
theorem truncateRewrite_zero (hr : files t.mem.env path = some r) {size : ℕ} (hsize : size ≠ 0)
    (hcount : toInt (min size r.content.length : ℕ) = 0) :
    Makes files (truncateRewrite env srv path size : Dav σ ρ ℤ) t 0
      (Function.update (files t.mem.env) path (some (.plain (r.content.take size ++
        (arrayBytes env size t.mem.env).drop (min size r.content.length))))) := by
  set array := arrayBytes env size t.mem.env with harray
  have hlen : array.length = size := length_arrayBytes env size t.mem.env
  refine (stackArray_makes h size).bind fun t₁ h₁ hfs₁ => ?_
  rw [← hfs₁] at hr ⊢
  obtain ⟨t₂, hread, h₂, -, hfs₂⟩ := davRead_anywhere (ρ := ρ) hk srv h₁ hr 0
    (by rw [hlen]; exact hsize : array.length ≠ 0)
  rw [Nat.cast_zero, Nat.sub_zero, hlen, overlaid_zero, hlen, readResult_eq_zero_iff.mpr hcount] at hread
  refine Makes.bind ⟨t₂, hread, h₂, hfs₂⟩ fun t₂ h₂ hfs₂ => ?_
  rw [← hfs₂] at hr ⊢
  rw [if_neg (not_not_intro rfl)]
  refine (davUnlink_found hk srv h₂ hr).bind fun t₃ h₃ hfs₃ => ?_
  rw [if_neg (not_not_intro rfl)]
  have hnone : files t₃.mem.env path = none := by
    rw [hfs₃, Function.update_self]
  refine (davPut_new hk srv h₃ hnone _).bind fun t₄ h₄ hfs₄ => ?_
  rw [hfs₃, Function.update_idem] at hfs₄
  rw [davExceptionTest, if_pos rfl, ← hfs₄]
  exact .pure h₄ 0

/-- The count is taken for an error. -/
theorem truncateRewrite_count (hr : files t.mem.env path = some r) {size : ℕ} (hsize : size ≠ 0)
    (hcount : toInt (min size r.content.length : ℕ) ≠ 0) :
    ∃ v, v ≠ 0 ∧ Makes files (truncateRewrite env srv path size : Dav σ ρ ℤ) t v
      (files t.mem.env) := by
  set array := arrayBytes env size t.mem.env with harray
  have hlen : array.length = size := length_arrayBytes env size t.mem.env
  obtain ⟨t₁, hread, h₁, -, hfs₁⟩ := davRead_anywhere (ρ := ρ) hk srv h hr 0
    (by rw [hlen]; exact hsize : array.length ≠ 0)
  rw [Nat.cast_zero, Nat.sub_zero, hlen] at hread
  have hne : readResult (min size r.content.length) ≠ 0 := by
    rw [ne_eq, readResult_eq_zero_iff]
    exact hcount
  generalize readResult (min size r.content.length) = v at hread hne
  refine ⟨v, hne, t₁, ?_, h₁, hfs₁⟩
  refine (Ctl.bind_ok (show (env.stackArray (size : ℤ).toNat : Dav σ ρ Bytes) t =
    (.ok array, t) from rfl)).trans ((Ctl.bind_ok hread).trans ?_)
  rw [if_pos hne]
  rfl

/-- `dav_truncate` to a length that is not zero, after `dav_getattr` reported another one. -/
theorem truncateNonzero_found (hr : files t.mem.env path = some r) (hlt : r.content.length < 2 ^ 63)
    {size : ℕ} (hzero : size ≠ 0) {reported : ℤ} (hsize : reported ≠ size) (mode : ℕ) :
    ∃ v r', Makes files (truncateNonzero env srv path size : Dav σ ρ ℤ) t v
        (Function.update (files t.mem.env) path (some r')) ∧
      Truncated r size reported mode
        (arrayBytes env size (env.perform (headRequest path) t.mem.env).2) v r' := by
  have hsame : Function.update (files t.mem.env) path (some r) = files t.mem.env := by
    rw [← hr]
    exact Function.update_eq_self _ _
  obtain ⟨hcode, hlength, hfs₁⟩ := hk.head path t.mem.env r hr hlt
  have hhead := davHead_ok (ρ := ρ) srv hk.toSteady h.clean hcode
  rw [← headLength, hlength] at hhead
  set t₁ := answered env (headRequest path) t with ht₁
  have h₁ : AtRest t₁ := ⟨h.clear, h.free⟩
  have hr₁ : files t₁.mem.env path = some r := by
    rw [← hr]
    exact congrFun hfs₁ path
  have hrest : ∀ v fs, Makes files (if toUnsigned size < r.content.length / 2 then
      truncateRewrite env srv path size else truncateProp env srv path size : Dav σ ρ ℤ) t₁ v fs →
      Makes files (truncateNonzero env srv path size : Dav σ ρ ℤ) t v fs := by
    rintro v fs ⟨t₂, hrun, hmakes⟩
    refine ⟨t₂, (Ctl.bind_ok hhead).trans ?_, hmakes⟩
    rw [if_neg (not_not_intro rfl)]
    exact hrun
  rw [toUnsigned_natCast] at hrest
  by_cases hlow : size % 2 ^ 32 < r.content.length / 2
  · rw [if_pos hlow] at hrest
    by_cases hcount : toInt (min size r.content.length : ℕ) = 0
    · have hmakes := truncateRewrite_zero (ρ := ρ) hk srv h₁ hr₁ hzero hcount
      rw [show files t₁.mem.env = files t.mem.env from hfs₁] at hmakes
      exact ⟨0, _, hrest _ _ hmakes, .rewritten hsize hzero hlow hcount⟩
    · obtain ⟨v, hv, hmakes⟩ := truncateRewrite_count (ρ := ρ) hk srv h₁ hr₁ hzero hcount
      rw [show files t₁.mem.env = files t.mem.env from hfs₁, ← hsame] at hmakes
      exact ⟨v, r, hrest _ _ hmakes, .refused hsize hzero hlow hcount hv⟩
  · rw [if_neg hlow] at hrest
    refine ⟨0, _, hrest _ _ ?_, .noted hsize hzero (Nat.not_lt.mp hlow)⟩
    rw [← show files t₁.mem.env = files t.mem.env from hfs₁]
    refine (davProppatch_found hk srv h₁ hr₁ _ _).bind fun t₂ h₂ hfs₂ => ?_
    rw [davExceptionTest, if_pos rfl, ← hfs₂]
    exact .pure h₂ 0

/-- `dav_truncate` takes one of its ways. -/
theorem davTruncate_truncated (hr : files t.mem.env path = some r) (hlt : r.content.length < 2 ^ 63)
    (size : ℕ) :
    ∃ st v r', Makes files (davTruncate env srv path size : Dav σ ρ ℤ) t v
        (Function.update (files t.mem.env) path (some r')) ∧
      Truncated r size st.size st.mode (truncateArray env path size t.mem.env) v r' ∧
      (url path <+: href path → Attributes srv.options r st) := by
  have hsame : Function.update (files t.mem.env) path (some r) = files t.mem.env := by
    rw [← hr]
    exact Function.update_eq_self _ _
  obtain ⟨st, t₁, hget, h₁, henv, hattr, -⟩ := davGetattr_reports (ρ := ρ) hk srv h hr
    (env.stackStat t.mem.env)
  have hfs₁ : files t₁.mem.env = files t.mem.env := by
    rw [henv]
    exact (hk.propfind path t.mem.env r hr).2
  have hr₁ : files t₁.mem.env path = some r := by
    rw [hfs₁]
    exact hr
  have hrest : ∀ v fs, Makes files (if st.size = size then pure 0
      else if (size : ℤ) = 0 then truncateZero env srv path st.mode
      else truncateNonzero env srv path size : Dav σ ρ ℤ) t₁ v fs →
      Makes files (davTruncate env srv path size : Dav σ ρ ℤ) t v fs := by
    rintro v fs ⟨t₂, hrun, hmakes⟩
    refine ⟨t₂, ?_, hmakes⟩
    refine (Ctl.bind_ok (Ctl.gets_apply _ t)).trans ((Ctl.bind_ok hget).trans ?_)
    rw [if_neg (not_not_intro rfl)]
    exact hrun
  by_cases hsize : st.size = size
  · rw [if_pos hsize] at hrest
    refine ⟨st, 0, r, hrest _ _ ?_, .same hsize, hattr⟩
    rw [hsame, ← hfs₁]
    exact .pure h₁ 0
  · rw [if_neg hsize] at hrest
    by_cases hzero : size = 0
    · rw [if_pos (by omega)] at hrest
      have hmakes := truncateZero_found (ρ := ρ) hk srv h₁ hr₁ st.mode
      rw [hfs₁] at hmakes
      exact ⟨st, 0, _, hrest _ _ hmakes, .emptied hsize hzero, hattr⟩
    · rw [if_neg (by omega)] at hrest
      obtain ⟨v, r', hmakes, hway⟩ := truncateNonzero_found (ρ := ρ) hk srv h₁ hr₁ hlt hzero hsize
        st.mode
      rw [hfs₁] at hmakes
      rw [henv] at hway
      exact ⟨st, v, r', hrest _ _ hmakes, hway, hattr⟩

end Truncate

/-! ## The length afterwards -/

/-- The length that `dav_getattr` reports of a file. -/
def reportedLength (r : Resource) : ℤ :=
  (r.dead (own "size")).elim (r.content.length : ℤ) fun v => (strtol 10 v).1

theorem Attributes.size_eq {o : Opts} {r : Resource} {st : Stat} (h : Attributes o r st)
    (hlt : r.content.length < 2 ^ 63) : st.size = reportedLength r := by
  have hread : strtol 10 (Nat.toDigits 10 r.content.length ++ []) = ((r.content.length : ℤ), []) :=
    strtol_toDigits (by norm_num) (by norm_num) hlt nofun
  rw [List.append_nil] at hread
  rw [h.size, hread]
  rfl

theorem resize_eq_take_append (n : ℕ) (content : Bytes) :
    resize n content = content.take n ++ List.replicate (n - content.length) 0 := by
  rw [resize, extend, List.take_append, List.take_replicate, Nat.min_self]

section Ways

variable {r r' : Resource} {size mode : ℕ} {reported v : ℤ} {array : Bytes}
  (harray : array.length = size)

include harray

theorem Truncated.length_lt (h : Truncated r size reported mode array v r')
    (hlt : r.content.length < 2 ^ 63) (hsize : size < 2 ^ 63) : r'.content.length < 2 ^ 63 := by
  cases h with
  | same _ => exact hlt
  | emptied _ _ => exact Nat.two_pow_pos 63
  | refused _ _ _ _ _ => exact hlt
  | rewritten _ _ _ _ =>
    show (r.content.take size ++ array.drop (min size r.content.length)).length < 2 ^ 63
    rw [List.length_append, List.length_take, List.length_drop, harray]
    omega
  | noted _ _ _ => exact hlt

/-- The rest of the array must be zero, where it is longer than the file. -/
theorem rewritten_eq_resize_iff (content : Bytes) :
    content.take size ++ array.drop (min size content.length) = resize size content ↔
      ∀ b ∈ array.drop content.length, b = 0 := by
  have hdrop : array.drop (min size content.length) = array.drop content.length := by
    rcases Nat.le_total size content.length with hle | hle
    · rw [Nat.min_eq_left hle, List.drop_of_length_le harray.le,
        List.drop_of_length_le (harray.le.trans hle)]
    · rw [Nat.min_eq_right hle]
  have hcount : size - content.length = (array.drop content.length).length := by
    rw [List.length_drop, harray]
  rw [resize_eq_take_append, List.append_cancel_left_eq, hdrop, hcount, List.eq_replicate_iff]
  exact and_iff_right rfl

/-- The length is set by two of the ways, and by doing nothing if the length is there already. -/
theorem Truncated.sets_iff (h : Truncated r size reported mode array v r')
    (hreported : reported = reportedLength r) :
    (v = 0 ∧ r'.content = resize size r.content ∧ reportedLength r' = size) ↔
      (reportedLength r = size ∧ r.content.length = size) ∨
      (reportedLength r ≠ size ∧ (size = 0 ∨ size % 2 ^ 32 < r.content.length / 2 ∧
        toInt (min size r.content.length : ℕ) = 0 ∧ ∀ b ∈ array.drop r.content.length, b = 0)) := by
  subst hreported
  cases h with
  | same hsize =>
    have hkept : r.content = resize size r.content ↔ r.content.length = size := by
      rw [resize_eq_take_append]
      constructor
      · intro heq
        have hlen := congrArg List.length heq
        rw [List.length_append, List.length_take, List.length_replicate] at hlen
        omega
      · rintro rfl
        rw [List.take_length, Nat.sub_self, List.replicate_zero, List.append_nil]
    rw [hkept]
    exact ⟨fun hall => .inl ⟨hsize, hall.2.1⟩, fun hor => ⟨rfl,
      (hor.resolve_right fun hno => hno.1 hsize).2, hsize⟩⟩
  | emptied hsize hzero =>
    subst hzero
    refine iff_of_true ⟨rfl, ?_, rfl⟩ (.inr ⟨hsize, .inl rfl⟩)
    exact (List.take_zero).symm
  | refused hsize hzero _ hcount hv =>
    refine iff_of_false (fun hall => hv hall.1) ?_
    rintro (⟨heq, -⟩ | ⟨-, heq | ⟨-, heq, -⟩⟩)
    · exact hsize heq
    · exact hzero heq
    · exact hcount heq
  | rewritten hsize hzero hlow hcount =>
    have hlength : reportedLength (.plain (r.content.take size ++
        array.drop (min size r.content.length))) = size := by
      show ((r.content.take size ++ array.drop (min size r.content.length)).length : ℤ) = size
      rw [List.length_append, List.length_take, List.length_drop, harray]
      omega
    rw [hlength]
    refine Iff.trans (and_iff_right rfl) (Iff.trans (and_iff_left rfl) ?_)
    refine (rewritten_eq_resize_iff harray r.content).trans ⟨fun hall => .inr ⟨hsize, .inr
      ⟨hlow, hcount, hall⟩⟩, ?_⟩
    rintro (⟨heq, -⟩ | ⟨-, heq | ⟨-, -, hall⟩⟩)
    · exact absurd heq hsize
    · exact absurd heq hzero
    · exact hall
  | noted hsize hzero hlow =>
    -- the property is stored without a namespace, and `dav_getattr` reads the one with it
    have hkept : reportedLength (r.patch ⟨none, "size".toList⟩ (some (sizeValue size))) =
        reportedLength r := by
      rw [reportedLength, r.patch_other (by decide), Resource.patch_content]
      rfl
    rw [hkept]
    refine iff_of_false (fun hall => hsize hall.2.2) ?_
    rintro (⟨heq, -⟩ | ⟨-, heq | ⟨hlt, -⟩⟩)
    · exact hsize heq
    · exact hzero heq
    · omega

end Ways

/-- `dav_truncate` returns zero, the content is cut or extended to `size` bytes, and `dav_getattr`
    reports that length. -/
def Truncates (ρ : Type) (env : Env σ) (srv : DavServer) (files : σ → Files) (path : Path) (size : ℕ)
    (content : Bytes) (t : Thread (Mem σ)) : Prop :=
  AfterwardsReports env srv path (davTruncate env srv path size : Dav σ ρ ℤ)
      (fun st => st.size = size) t ∧
    ∃ v t' r, (davTruncate env srv path size : Dav σ ρ ℤ) t = (.ok v, t') ∧
      files t'.mem.env path = some r ∧ r.content = resize size content

section Sets

variable {env : Env σ} {files : σ → Files} {url href : Path → Text}
  (hk : KeepsFiles env files url href) (srv : DavServer) {path : Path} {r : Resource}
  {t : Thread (Mem σ)} (h : AtRest t) (hr : files t.mem.env path = some r)
  (hlt : r.content.length < 2 ^ 63) {size : ℕ} (hsize : size < 2 ^ 63)

include hk h hr hlt hsize

/-- Whether the length is set depends on the way that is taken. -/
theorem truncates_truncated :
    ∃ reported mode v r', Truncated r size reported mode (truncateArray env path size t.mem.env) v r' ∧
      (url path <+: href path → reported = reportedLength r) ∧
      (Truncates ρ env srv files path size r.content t ↔ url path <+: href path ∧
        v = 0 ∧ r'.content = resize size r.content ∧ reportedLength r' = size) := by
  obtain ⟨st, v, r', hmakes, hway, hattr⟩ := davTruncate_truncated (ρ := ρ) hk srv h hr hlt size
  have hlt' := hway.length_lt (length_truncateArray env path size t.mem.env) hlt hsize
  refine ⟨st.size, st.mode, v, r', hway, fun hpre => (hattr hpre).size_eq hlt, ?_⟩
  have hreports : v = 0 → (AfterwardsReports env srv path (davTruncate env srv path size : Dav σ ρ ℤ)
      (fun st => st.size = size) t ↔ url path <+: href path ∧ reportedLength r' = size) := by
    rintro rfl
    refine afterwardsReports_iff hk srv hmakes (Function.update_self _ _ _) (fun st hst => ?_) ?_
    · rw [hst.size_eq hlt']
    · exact ⟨{ zeroStat with size := size + 1 }, by simp⟩
  constructor
  · rintro ⟨hafter, w, t', r'', hrun, hr'', hcontent⟩
    obtain ⟨t₁, _, _, hzero, -, -⟩ := hafter zeroStat
    have hv : v = 0 := (hmakes.unique hzero).1.symm
    obtain ⟨-, -, hfs⟩ := hmakes.unique hrun
    rw [hfs, Function.update_self, Option.some.injEq] at hr''
    obtain ⟨hpre, hlength⟩ := (hreports hv).mp hafter
    rw [← hr''] at hcontent
    exact ⟨hpre, hv, hcontent, hlength⟩
  · rintro ⟨hpre, hv, hcontent, hlength⟩
    obtain ⟨t', hrun, -, hfs⟩ := hmakes
    refine ⟨(hreports hv).mpr ⟨hpre, hlength⟩, v, t', r', hrun, ?_, hcontent⟩
    rw [hfs, Function.update_self]

/-- The length is set exactly if the server calls the file by its URL and the length is there
    already; or it is not reported and the new length is zero; or it is not reported, the number of
    bytes to keep is zero as an `int` and the array is zero where it is longer than the file. -/
theorem truncate_sets_iff :
    Truncates ρ env srv files path size r.content t ↔ url path <+: href path ∧
      ((reportedLength r = size ∧ r.content.length = size) ∨
      (reportedLength r ≠ size ∧ (size = 0 ∨ size % 2 ^ 32 < r.content.length / 2 ∧
        toInt (min size r.content.length : ℕ) = 0 ∧
        ∀ b ∈ (truncateArray env path size t.mem.env).drop r.content.length, b = 0))) := by
  obtain ⟨reported, mode, v, r', hway, hreported, hiff⟩ := truncates_truncated (ρ := ρ) hk srv h hr hlt
    hsize
  rw [hiff]
  refine and_congr_right fun hpre => ?_
  exact hway.sets_iff (length_truncateArray env path size t.mem.env) (hreported hpre)

end Sets

/-- A file of three bytes is emptied. -/
theorem truncate_sets_zero :
    Truncates ℤ (serving (keepFiles (fun _ => []) fun _ => [])) lockingServer id [47, 97] 0 [1, 2, 3]
      (entered (onlyFile [1, 2, 3]) []) := by
  have hfile : id (entered (onlyFile [1, 2, 3]) []).mem.env [47, 97] = some (.plain [1, 2, 3]) := rfl
  refine (truncate_sets_iff (ρ := ℤ) (keepsFiles_keepFiles (fun _ => []) fun _ => []) lockingServer
    ⟨rfl, rfl⟩ hfile (by decide) (by decide)).mpr ?_
  exact ⟨List.prefix_rfl, .inr ⟨by decide, .inl rfl⟩⟩

/-- Four bytes cannot be cut to one, and one byte cannot be extended to two. -/
theorem truncate_not_set :
    ¬Truncates ℤ (serving (keepFiles (fun _ => []) fun _ => [])) lockingServer id [47, 97] 1
        [1, 2, 3, 4] (entered (onlyFile [1, 2, 3, 4]) []) ∧
      ¬Truncates ℤ (serving (keepFiles (fun _ => []) fun _ => [])) lockingServer id [47, 97] 2
        [1] (entered (onlyFile [1]) []) := by
  have hnot : ∀ (content : Bytes) (size : ℕ), content.length < 2 ^ 63 → size < 2 ^ 63 →
      content.length ≠ size → size ≠ 0 →
      (size % 2 ^ 32 < content.length / 2 → toInt (min size content.length : ℕ) ≠ 0) →
      ¬Truncates ℤ (serving (keepFiles (fun _ => []) fun _ => [])) lockingServer id [47, 97] size
        content (entered (onlyFile content) []) := by
    intro content size hlt hsize hne hzero hcount hsets
    have hfile : id (entered (onlyFile content) []).mem.env [47, 97] = some (.plain content) := rfl
    obtain ⟨reported, mode, v, r', hway, hreported, hiff⟩ := truncates_truncated (ρ := ℤ)
      (keepsFiles_keepFiles (fun _ => []) fun _ => []) lockingServer ⟨rfl, rfl⟩ hfile hlt hsize
    obtain ⟨hpre, hall⟩ := hiff.mp hsets
    have hcond := (hway.sets_iff (length_truncateArray _ _ _ _) (hreported hpre)).mp hall
    rcases hcond with ⟨-, heq⟩ | ⟨-, heq | ⟨hlow, heq, -⟩⟩
    · exact hne heq
    · exact hzero heq
    · exact hcount hlow heq
  constructor
  · exact hnot _ 1 (by decide) (by decide) (by decide) (by decide) fun _ => by decide
  · exact hnot _ 2 (by decide) (by decide) (by decide) (by decide) fun hlow => absurd hlow (by decide)

end NetworkFs.Dav
