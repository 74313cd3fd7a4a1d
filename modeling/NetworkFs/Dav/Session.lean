import NetworkFs.Dav.FileSystem
import NetworkFs.Dav.Moving
import NetworkFs.Dav.Symlinks

/-!
# Sessions

Without `use_lock`, and against a server that keeps files, the callbacks serve any sequence of
covered calls as `FileCall.spec` says.

* `Stands`: how the files of the server stand for a file system.
* `Serves`: a callback follows the specification; one lemma for each call.
* `session_follows_spec`: so does every session.
-/

namespace NetworkFs.Dav

open Control Grammar Wrapper Text Data

variable {σ ρ α β : Type}

/-! ## Files and what they stand for -/

/-- The file of the server is the file `i` of the mount. -/
structure Means (o : Opts) (r : Resource) (i : Inode) : Prop where
  content : r.content = i.content
  fits : r.content.length < 2 ^ 63
  size : r.dead (own "size") = none
  mode : (r.dead (own "mode")).elim (maskMode (sIFREG ||| 0o777) o.fmask)
    (fun v => toUnsigned (strtol 8 v).1) = i.mode
  uid : (r.dead (own "owner")).elim o.uid (fun v => toUnsigned (strtol 10 v).1) = i.uid
  gid : (r.dead (own "owner")).elim o.gid
    (fun v => toUnsigned (strtol 10 (strtol 10 v).2).1) = i.gid

/-- The files of the server stand for a file system. -/
def Stands (o : Opts) (files : Files) (fs : FileSystem) : Prop :=
  ∀ path, Option.Rel (Means o) (files path) (fs path)

section Means

variable {o : Opts} {r : Resource} {i : Inode}

theorem toUnsigned_lt (x : ℤ) : toUnsigned x < 2 ^ 32 := by
  unfold toUnsigned
  omega

theorem Means.mode_lt (h : Means o r i) : i.mode < 2 ^ 32 := by
  rw [← h.mode]
  cases r.dead (own "mode") with
  | none => exact (Nat.and_le_left.trans_lt (by decide : sIFREG ||| 0o777 < 2 ^ 32))
  | some v => exact toUnsigned_lt _

theorem Means.attributes (h : Means o r i) {st : Stat} (hst : Attributes o r st) :
    st.mode = i.mode ∧ st.uid = i.uid ∧ st.gid = i.gid ∧ st.size = i.content.length := by
  refine ⟨hst.mode.trans h.mode, hst.uid.trans h.uid, hst.gid.trans h.gid, ?_⟩
  rw [hst.size_eq h.fits, reportedLength, h.size, h.content]
  rfl

/-- The content is written. -/
theorem Means.write (h : Means o r i) {content : Bytes} (hfits : content.length < 2 ^ 63) :
    Means o { r with content := content } { i with content := content } :=
  ⟨rfl, hfits, h.size, h.mode, h.uid, h.gid⟩

theorem own_ne {name name' : String} (h : name.toList ≠ name'.toList) : own name ≠ own name' :=
  fun heq => h (congrArg XmlName.loc heq)

theorem Means.chmod (h : Means o r i) {mode : ℕ} (hmode : mode < 2 ^ 32) :
    Means o (r.patch (own "mode") (some (modeValue mode))) { i with mode := mode } where
  content := h.content
  fits := h.fits
  size := (r.patch_other (own_ne (by decide)) _).trans h.size
  mode := by
    rw [Resource.patch_same, Option.elim_some, strtol_modeValue hmode, toUnsigned_natCast,
      Nat.mod_eq_of_lt hmode]
  uid := by
    rw [r.patch_other (own_ne (by decide))]
    exact h.uid
  gid := by
    rw [r.patch_other (own_ne (by decide))]
    exact h.gid

theorem Means.chown (h : Means o r i) {uid : ℕ} (huid : uid < 2 ^ 32) (gid : ℕ) :
    Means o (r.patch (own "owner") (some (ownerValue uid gid))) { i with uid := uid, gid := 0 } where
  content := h.content
  fits := h.fits
  size := (r.patch_other (own_ne (by decide)) _).trans h.size
  mode := by
    rw [r.patch_other (own_ne (by decide))]
    exact h.mode
  uid := by
    rw [Resource.patch_same, Option.elim_some]
    exact (strtol_ownerValue huid gid).1
  gid := by
    rw [Resource.patch_same, Option.elim_some]
    exact (strtol_ownerValue huid gid).2

/-- A new file. -/
theorem means_new (o : Opts) {mode : ℕ} (hmode : mode < 2 ^ 32) :
    Means o ((Resource.plain []).patch (own "mode") (some (modeValue mode)))
      ⟨[], mode, o.uid, o.gid⟩ where
  content := rfl
  fits := Nat.two_pow_pos 63
  size := (Resource.plain []).patch_other (own_ne (by decide)) _
  mode := by
    rw [Resource.patch_same, Option.elim_some, strtol_modeValue hmode, toUnsigned_natCast,
      Nat.mod_eq_of_lt hmode]
  uid := by
    rw [(Resource.plain []).patch_other (own_ne (by decide))]
    rfl
  gid := by
    rw [(Resource.plain []).patch_other (own_ne (by decide))]
    rfl

theorem means_linkTo (o : Opts) {target : Bytes} (htarget : target.length < 2 ^ 63) :
    Means o (linkTo target) ⟨target, sIFLNK ||| 0o777, o.uid, o.gid⟩ :=
  (means_new o (by decide : sIFLNK ||| 0o777 < 2 ^ 32)).write htarget

end Means

section Stands

variable {o : Opts} {files : Files} {fs : FileSystem}

theorem Stands.cases (h : Stands o files fs) (path : Path) :
    (files path = none ∧ fs path = none) ∨
      ∃ r i, files path = some r ∧ fs path = some i ∧ Means o r i := by
  have hpath := h path
  generalize files path = x, fs path = y at hpath ⊢
  cases hpath with
  | none => exact .inl ⟨rfl, rfl⟩
  | some hm => exact .inr ⟨_, _, rfl, rfl, hm⟩

theorem Stands.change (h : Stands o files fs) (path : Path) {x : Option Resource} {y : Option Inode}
    (hxy : Option.Rel (Means o) x y) : Stands o (Function.update files path x) (fs.change path y) := by
  intro path'
  by_cases hpath : path' = path
  · rw [hpath, FileSystem.change, Function.update_self, Function.update_self]
    exact hxy
  · rw [FileSystem.change, Function.update_of_ne hpath, Function.update_of_ne hpath]
    exact h path'

end Stands

/-! ## Serving a call -/

theorem Makes.map {files : σ → Files} {m : Dav σ ρ α} {t : Thread (Mem σ)} {v : α} {fs : Files}
    (h : Makes files m t v fs) (f : α → β) : Makes files (f <$> m) t (f v) fs := by
  obtain ⟨t', hrun, hrest⟩ := h
  exact ⟨t', Ctl.map_ok hrun, hrest⟩

/-- The callback answers the call as the specification does, and leaves files that stand for the
    file system that the specification leaves. -/
def Serves (ρ : Type) (env : Env σ) (srv : DavServer) (files : σ → Files) (c : FileCall)
    (t : Thread (Mem σ)) (fs : FileSystem) : Prop :=
  ∃ fs', Makes files (c.answer env srv : Dav σ ρ Answer) t (c.spec srv.options fs).1 fs' ∧
    Stands srv.options fs' (c.spec srv.options fs).2

section Serves

variable {env : Env σ} {files : σ → Files} {srv : DavServer} {c : FileCall} {t : Thread (Mem σ)}
  {fs : FileSystem}

theorem Serves.of_eq {a : Answer} {fs' : FileSystem} {fs'' : Files}
    (hspec : c.spec srv.options fs = (a, fs'))
    (hrun : Makes files (c.answer env srv : Dav σ ρ Answer) t a fs'')
    (hstands : Stands srv.options fs'' fs') : Serves ρ env srv files c t fs := by
  refine ⟨fs'', ?_, ?_⟩
  · rw [hspec]
    exact hrun
  · rw [hspec]
    exact hstands

/-- A call on a file that has to be there. -/
theorem Serves.onFile {path : Path} {f : Inode → Answer × FileSystem}
    (hspec : c.spec srv.options fs = fs.onFile path f)
    (hstands : Stands srv.options (files t.mem.env) fs)
    (hmissing : files t.mem.env path = none →
      Makes files (c.answer env srv : Dav σ ρ Answer) t (failed enoent) (files t.mem.env))
    (hfound : ∀ r i, files t.mem.env path = some r → fs path = some i → Means srv.options r i →
      ∃ fs', Makes files (c.answer env srv : Dav σ ρ Answer) t (f i).1 fs' ∧
        Stands srv.options fs' (f i).2) : Serves ρ env srv files c t fs := by
  obtain ⟨hr, hi⟩ | ⟨r, i, hr, hi, hm⟩ := hstands.cases path
  · refine .of_eq (hspec.trans ?_) (hmissing hr) hstands
    rw [FileSystem.onFile, hi]
  · obtain ⟨fs', hrun, hafter⟩ := hfound r i hr hi hm
    refine .of_eq (hspec.trans ?_) hrun hafter
    rw [FileSystem.onFile, hi]

/-- A call that makes a file. -/
theorem Serves.make {path : Path} {new : Resource} {i : Inode}
    (hspec : c.spec srv.options fs = fs.make path i) (hnew : Means srv.options new i)
    (hstands : Stands srv.options (files t.mem.env) fs)
    (hfree : files t.mem.env path = none → Makes files (c.answer env srv : Dav σ ρ Answer) t done
      (Function.update (files t.mem.env) path (some new)))
    (htaken : ∀ r, files t.mem.env path = some r → r.content.length < 2 ^ 63 →
      Makes files (c.answer env srv : Dav σ ρ Answer) t (failed eexist) (files t.mem.env)) :
    Serves ρ env srv files c t fs := by
  obtain ⟨hr, hi⟩ | ⟨r, i', hr, hi, hm⟩ := hstands.cases path
  · refine .of_eq (hspec.trans ?_) (hfree hr) (hstands.change path (.some hnew))
    rw [FileSystem.make, hi]
  · refine .of_eq (hspec.trans ?_) (htaken r hr hm.fits) hstands
    rw [FileSystem.make, hi]

end Serves

/-! ## The calls -/

section Calls

variable {env : Env σ} {files : σ → Files} {url href : Path → Text}
  (hk : KeepsTree env files url href) (srv : DavServer) {t : Thread (Mem σ)} (h : AtRest t)
  {fs : FileSystem} (hstands : Stands srv.options (files t.mem.env) fs)

include hk h hstands

theorem serves_getattr (hextends : ∀ path, url path <+: href path) (path : Path) (stbuf : Stat) :
    Serves ρ env srv files (.getattr path stbuf) t fs := by
  refine .onFile (c := .getattr path stbuf) rfl hstands (fun hr => ?_) fun r i hr hi hm => ?_
  · obtain ⟨t', hrun, h', henv⟩ := davGetattr_missing (ρ := ρ) hk.toCopiesFiles srv h hr stbuf
    refine Makes.map (v := (-enoent, stbuf)) ⟨t', hrun, h', ?_⟩ attrAnswer
    rw [henv]
    exact (hk.propfind_absent path t.mem.env hr).2.2
  · obtain ⟨st, hmakes, hattr, -⟩ := davGetattr_found (ρ := ρ) hk.toKeepsFiles srv h hr stbuf
    obtain ⟨hmode, huid, hgid, hsize⟩ := hm.attributes (hattr (hextends path))
    refine ⟨_, ?_, hstands⟩
    rw [← hmode, ← huid, ← hgid, ← hsize]
    exact hmakes.map attrAnswer

omit hk h hstands in
theorem readAnswer_overlaid (content buf : Bytes) (offset : ℕ) :
    readAnswer ((min buf.length (content.length - offset) : ℕ), overlaid content offset buf) =
      ((((content.drop offset).take buf.length).length : ℤ),
        Output.data ((content.drop offset).take buf.length)) := by
  have hlen : min buf.length (content.length - offset) =
      ((content.drop offset).take buf.length).length := by
    rw [List.length_take, List.length_drop]
  rw [readAnswer, hlen, if_neg (by dsimp only; omega), Int.toNat_natCast, overlaid, List.take_left]

theorem serves_read (path : Path) {buf : Bytes} (offset : ℕ) (hbuf : 1 ≤ buf.length)
    (hbuf' : buf.length < 2 ^ 31) : Serves ρ env srv files (.read path buf offset) t fs := by
  have hne : buf.length ≠ 0 := by omega
  refine .onFile (c := .read path buf offset) rfl hstands (fun hr => ?_) fun r i hr hi hm => ?_
  · exact (davRead_missing hk.toCopiesFiles srv h hr hne offset).map readAnswer
  · obtain ⟨t', hrun, h', -, hsame⟩ := davRead_anywhere (ρ := ρ) hk.toKeepsFiles srv h hr offset hne
    rw [readResult_of_lt (by omega)] at hrun
    refine ⟨_, ?_, hstands⟩
    rw [← hm.content, ← readAnswer_overlaid]
    exact Makes.map ⟨t', hrun, h', hsame⟩ readAnswer

theorem serves_write (huse : srv.options.useLock = false) {path : Path} {buf : Bytes} {offset : ℕ}
    (hcovered : (FileCall.write path buf offset).Covered srv.options fs) :
    Serves ρ env srv files (.write path buf offset) t fs := by
  obtain ⟨-, hbuf, hoff, i, hi, hwhere⟩ := hcovered
  obtain ⟨hr, hi'⟩ | ⟨r, i', hr, hi', hm⟩ := hstands.cases path
  · rw [hi] at hi'
    cases hi'
  obtain rfl : i = i' := Option.some.inj (hi.symm.trans hi')
  have hfits : (splice 0 r.content offset buf).length < 2 ^ 63 := by
    have := hm.fits
    rw [length_splice]
    omega
  have hmakes : Makes files (davWrite env srv path buf offset : Dav σ ρ ℤ) t (toInt buf.length)
      (Function.update (files t.mem.env) path
        (some { r with content := splice 0 r.content offset buf })) := by
    rw [← hm.content] at hwhere
    rcases Nat.lt_or_ge r.content.length offset with hpast | hle
    · exact davWrite_past hk srv h hr hpast (by omega) (by omega) huse
    · exact davWrite_found hk.toKeepsFiles srv h hr hle
  rw [toInt_natCast hbuf] at hmakes
  refine .of_eq (c := .write path buf offset) ?_ (hmakes.map bare)
    (hstands.change path (.some (hm.write hfits)))
  rw [hm.content, FileCall.spec, FileSystem.onFile, hi]

theorem serves_rename (huse : srv.options.useLock = false) (hmove : srv.move = true)
    {from_ to_ : Path} (hne : from_ ≠ to_) (flags : ℕ) :
    Serves ρ env srv files (.rename from_ to_ flags) t fs := by
  rcases Nat.lt_or_ge flags 2 with hflags | hflags
  · refine .onFile (c := .rename from_ to_ flags) (if_neg (by omega)) hstands (fun hr => ?_)
      fun r i hr hi hm => ?_
    · exact (davRename_missing hk srv huse h hmove hne hr hflags).map bare
    · by_cases htaken : flags = 1 ∧ (fs to_).isSome = true
      · obtain ⟨rfl, hsome⟩ := htaken
        rw [if_pos ⟨rfl, hsome⟩]
        obtain ⟨-, hnone⟩ | ⟨r', i', hr', -, -⟩ := hstands.cases to_
        · rw [hnone] at hsome
          cases hsome
        · exact ⟨_, (davRename_taken hk srv huse h hmove hne hr hr').map bare, hstands⟩
      · rw [if_neg htaken]
        refine ⟨_, (davRename_found hk srv huse h hmove hne hr hflags fun hone => ?_).map bare,
          (hstands.change from_ .none).change to_ (.some hm)⟩
        obtain ⟨hnone, -⟩ | ⟨r', i', -, hi', -⟩ := hstands.cases to_
        · exact hnone
        · rw [hi'] at htaken
          exact absurd ⟨hone, rfl⟩ htaken
  · have hinvalid : (davRename env srv from_ to_ flags : Dav σ ρ ℤ) = pure (-einval) := by
      obtain ⟨n, rfl⟩ := Nat.exists_eq_add_of_le hflags
      unfold davRename
      rw [if_pos hmove, Nat.add_comm]
      rfl
    refine .of_eq (c := .rename from_ to_ flags) (if_pos hflags) ?_ hstands
    show Makes files (bare <$> davRename env srv from_ to_ flags) t (failed einval) _
    rw [hinvalid]
    exact (Makes.pure h (-einval)).map bare

theorem serves_unlink (huse : srv.options.useLock = false) (path : Path) :
    Serves ρ env srv files (.unlink path) t fs := by
  refine .onFile (c := .unlink path) rfl hstands (fun hr => ?_) fun r i hr hi hm => ?_
  · exact (davUnlink_missing hk srv huse h hr).map bare
  · exact ⟨_, (davUnlink_found hk.toKeepsFiles srv h hr).map bare, hstands.change path .none⟩

theorem serves_chmod (path : Path) {mode : ℕ} (hmode : mode < 2 ^ 32) :
    Serves ρ env srv files (.chmod path mode) t fs := by
  refine .onFile (c := .chmod path mode) rfl hstands (fun hr => ?_) fun r i hr hi hm => ?_
  · exact (davChmod_missing hk srv h hr mode).map bare
  · exact ⟨_, (davChmod_found hk.toKeepsFiles srv h hr mode).map bare,
      hstands.change path (.some (hm.chmod hmode))⟩

theorem serves_chown (path : Path) {uid : ℕ} (huid : uid < 2 ^ 32) :
    Serves ρ env srv files (.chown path uid 0) t fs := by
  refine .onFile (c := .chown path uid 0) rfl hstands (fun hr => ?_) fun r i hr hi hm => ?_
  · exact (davChown_missing hk srv h hr uid 0).map bare
  · exact ⟨_, (davChown_found hk.toKeepsFiles srv h hr uid 0).map bare,
      hstands.change path (.some (hm.chown huid 0))⟩

theorem serves_symlink {target : Bytes} (htarget : target.length < 2 ^ 31) (path : Path) :
    Serves ρ env srv files (.symlink target path) t fs :=
  .make (c := .symlink target path) rfl (means_linkTo srv.options (by omega)) hstands
    (fun hr => (davSymlink_absent hk.toKeepsFiles srv h hr htarget).map bare)
    fun _ hr hlt => (davSymlink_found hk srv h hr hlt target).map bare

/-- `dav_mknod`, whichever callback calls it. -/
theorem davMknod_serves (path : Path) {mode : ℕ} (hmode : mode < 2 ^ 32) (rdev : ℕ) :
    ∃ v fs', Makes files (davMknod env srv path mode rdev : Dav σ ρ ℤ) t v fs' ∧
      (fs.makeNode srv.options path mode).1 = bare v ∧
      Stands srv.options fs' (fs.makeNode srv.options path mode).2 := by
  by_cases hdir : isDir mode = true
  · refine ⟨-einval, _, ⟨t, Ctl.call_ok ?_, h, rfl⟩, ?_⟩
    · rw [if_pos hdir]
      rfl
    · rw [FileSystem.makeNode, if_pos hdir]
      exact ⟨rfl, hstands⟩
  rw [FileSystem.makeNode, if_neg hdir, FileSystem.make]
  rw [Bool.not_eq_true] at hdir
  obtain ⟨hr, hi⟩ | ⟨r, i, hr, hi, hm⟩ := hstands.cases path
  · rw [hi]
    exact ⟨0, _, davMknod_absent hk.toKeepsFiles srv h hr hdir rdev, rfl,
      hstands.change path (.some (means_new srv.options hmode))⟩
  · rw [hi]
    exact ⟨-eexist, _, davMknod_found hk srv h hr hm.fits hdir rdev, rfl, hstands⟩

theorem serves_mknod (path : Path) {mode : ℕ} (hmode : mode < 2 ^ 32) (rdev : ℕ) :
    Serves ρ env srv files (.mknod path mode rdev) t fs := by
  obtain ⟨v, fs', hmakes, hanswer, hafter⟩ := davMknod_serves (ρ := ρ) hk srv h hstands path hmode rdev
  exact .of_eq (c := .mknod path mode rdev) (Prod.ext hanswer rfl) (hmakes.map bare) hafter

omit hk h hstands in
theorem davOpenCore_unused (huse : srv.options.useLock = false) (path : Path) :
    (davOpenCore env srv path : Dav σ ρ ℤ) = pure 0 := by
  rw [davOpenCore, davLock, huse, if_neg Bool.false_ne_true, pure_bind]
  exact ite_self _

theorem serves_create (huse : srv.options.useLock = false) (path : Path) {mode : ℕ}
    (hmode : mode < 2 ^ 32) (fi : OpenFlags) :
    Serves ρ env srv files (.create path mode fi) t fs := by
  obtain ⟨v, fs', ⟨t', hrun, hmakes⟩, hanswer, hafter⟩ :=
    davMknod_serves (ρ := ρ) hk srv h hstands path hmode 0
  have hcreate : (davCreate env srv path mode fi : Dav σ ρ ℤ) t = (.ok v, t') := by
    rw [davCreate, Ctl.bind_ok hrun, davOpenCore_unused srv huse]
    by_cases hv : v = 0
    · rw [if_neg (not_not_intro hv), hv, ite_self]
      rfl
    · rw [if_pos hv]
      rfl
  exact .of_eq (c := .create path mode fi) (Prod.ext hanswer rfl)
    (Makes.map ⟨t', hcreate, hmakes⟩ bare) hafter

omit hk in
theorem serves_release (huse : srv.options.useLock = false) (path : Path) (fi : OpenFlags) :
    Serves ρ env srv files (.release path fi) t fs := by
  have hzero : (davRelease env srv path fi : Dav σ ρ ℤ) = pure 0 := by
    rw [davRelease, davUnlock, huse, if_neg Bool.false_ne_true, pure_bind, ite_self, ite_self]
  refine .of_eq (c := .release path fi) rfl ?_ hstands
  show Makes files (bare <$> davRelease env srv path fi) t done _
  rw [hzero]
  exact (Makes.pure h 0).map bare

omit hk h hstands in
/-- What `setLength` leaves of the content. -/
theorem content_setLength {content : Bytes} {size : ℕ} (h : size = content.length ∨ size = 0) :
    (extend 0 size content).take size = if size = 0 then [] else content := by
  split_ifs with hzero
  · rw [hzero, List.take_zero]
  · obtain rfl := h.resolve_right hzero
    rw [extend_of_le 0 le_rfl, List.take_length]

/-- `dav_truncate`, whichever callback calls it. -/
theorem davTruncate_serves (hextends : ∀ path, url path <+: href path) (path : Path) (size : ℕ)
    (hcovered : (FileCall.truncate path size).Covered srv.options fs) :
    ∃ v fs', Makes files (davTruncate env srv path size : Dav σ ρ ℤ) t v fs' ∧
      (fs.setLength path size).1 = bare v ∧
      Stands srv.options fs' (fs.setLength path size).2 := by
  rw [FileSystem.setLength, FileSystem.onFile]
  obtain ⟨hr, hi⟩ | ⟨r, i, hr, hi, hm⟩ := hstands.cases path
  · rw [hi]
    exact ⟨-enoent, _, davTruncate_missing hk srv h hr size, rfl, hstands⟩
  rw [hi]
  have hsize := hcovered i hi
  obtain ⟨st, v, r', hmakes, hway, hattr⟩ :=
    davTruncate_truncated (ρ := ρ) hk.toKeepsFiles srv h hr hm.fits size
  obtain ⟨hmode, -, -, hlength⟩ := hm.attributes (hattr (hextends path))
  dsimp only
  rw [content_setLength (hsize.imp_right And.left)]
  cases hway with
  | same hsame =>
    refine ⟨0, _, hmakes, rfl, hstands.change path (.some ?_)⟩
    have hcontent : (if size = 0 then [] else i.content) = i.content := by
      split_ifs with hzero
      · rw [eq_comm, ← List.length_eq_zero_iff]
        omega
      · rfl
    rw [hcontent]
    exact hm
  | emptied hsame hzero =>
    refine ⟨0, _, hmakes, rfl, hstands.change path (.some ?_)⟩
    have hnew := means_new srv.options (hmode ▸ hm.mode_lt : st.mode < 2 ^ 32)
    obtain hnil | ⟨huid, hgid⟩ := (hsize.resolve_left (by omega)).2
    · rw [hnil] at hlength
      exact absurd (by rw [hlength, hzero]; rfl) hsame
    · rw [if_pos hzero, huid, hgid, ← hmode]
      exact hnew
  | refused hsame hzero | rewritten hsame hzero | noted hsame hzero =>
    exact absurd (by omega) hsame

theorem serves_truncate (hextends : ∀ path, url path <+: href path) {path : Path} {size : ℕ}
    (hcovered : (FileCall.truncate path size).Covered srv.options fs) :
    Serves ρ env srv files (.truncate path size) t fs := by
  obtain ⟨v, fs', hmakes, hanswer, hafter⟩ :=
    davTruncate_serves (ρ := ρ) hk srv h hstands hextends path size hcovered
  exact .of_eq (c := .truncate path size) (Prod.ext hanswer rfl) (hmakes.map bare) hafter

theorem serves_open (huse : srv.options.useLock = false) (hextends : ∀ path, url path <+: href path)
    {path : Path} {fi : OpenFlags} (hcovered : (FileCall.open_ path fi).Covered srv.options fs) :
    Serves ρ env srv files (.open_ path fi) t fs := by
  obtain ⟨i, hi, hempty⟩ := hcovered
  have hspec : (FileCall.open_ path fi).spec srv.options fs =
      if fi.writes && fi.trunc then fs.setLength path 0 else (done, fs) := by
    rw [FileCall.spec, FileSystem.onFile, hi]
  by_cases hboth : (fi.writes && fi.trunc) = true
  · rw [if_pos hboth] at hspec
    rw [Bool.and_eq_true] at hboth
    have hzero : (FileCall.truncate path 0).Covered srv.options fs := by
      intro i' hi'
      obtain rfl : i = i' := Option.some.inj (hi.symm.trans hi')
      exact .inr ⟨rfl, hempty hboth.1 hboth.2⟩
    obtain ⟨v, fs', hmakes, hanswer, hafter⟩ :=
      davTruncate_serves (ρ := ρ) hk srv h hstands hextends path 0 hzero
    have hv : v = 0 := by
      rw [FileSystem.setLength, FileSystem.onFile, hi] at hanswer
      exact (congrArg Prod.fst hanswer).symm
    have hopen : (davOpen env srv path fi : Dav σ ρ ℤ) = (do
        let res ← davTruncate env srv path 0
        if res = 0 ∨ (fi.creat = true ∧ res = -enoent) then pure 0 else pure res) := by
      rw [davOpen, if_pos hboth.1, openTruncate, if_pos hboth.2, davOpenCore_unused srv huse]
    refine .of_eq (c := .open_ path fi) (hspec.trans (Prod.ext hanswer rfl)) ?_ hafter
    refine Makes.map (m := davOpen env srv path fi) ?_ bare
    rw [hopen, hv]
    rw [hv] at hmakes
    refine Makes.bind hmakes fun t' h' hfs => ?_
    rw [if_pos (.inl rfl), ← hfs]
    exact .pure h' 0
  · rw [if_neg hboth] at hspec
    have hopen : (davOpen env srv path fi : Dav σ ρ ℤ) = pure 0 := by
      rw [davOpen, davOpenCore_unused srv huse, openTruncate]
      by_cases hwrites : fi.writes = true
      · rw [if_pos hwrites, if_neg (by rw [hwrites] at hboth; exact hboth), pure_bind, if_pos (.inl rfl)]
      · rw [if_neg hwrites]
    refine .of_eq (c := .open_ path fi) hspec ?_ hstands
    refine Makes.map (m := davOpen env srv path fi) ?_ bare
    rw [hopen]
    exact .pure h 0

omit hk h hstands in
/-- A list that begins with `as` and a zero. -/
theorem takeWhile_of_take {xs as : Bytes} {n : ℕ} (h : xs.take n = as ++ [0]) :
    xs.takeWhile (· ≠ 0) = as.takeWhile (· ≠ 0) := by
  rw [← List.take_append_drop n xs, h, List.append_assoc, List.takeWhile_append]
  split_ifs with hall
  · rw [List.singleton_append, List.takeWhile_cons_of_neg (by decide), List.append_nil]
    exact ((List.takeWhile_prefix _).eq_of_length hall).symm
  · rfl

theorem serves_readlink (path : Path) {buf : Bytes} (hbuf : 2 ≤ buf.length)
    (hbuf' : buf.length < 2 ^ 31) : Serves ρ env srv files (.readlink path buf) t fs := by
  have hne : (buf.take (buf.length - 1)).length ≠ 0 := by
    rw [List.length_take]
    omega
  refine .onFile (c := .readlink path buf) rfl hstands (fun hr => ?_) fun r i hr hi hm => ?_
  · refine Makes.map (m := davReadlink env srv path buf) (v := (-enoent, buf)) ?_ linkAnswer
    refine (davRead_missing hk.toCopiesFiles srv h hr hne 0).bind fun t' h' hfs => ?_
    rw [if_pos (show (-enoent : ℤ) < 0 by decide), ← hfs]
    exact .pure h' _
  refine ⟨_, ?_, hstands⟩
  obtain ⟨buf', hlink, htake⟩ :=
    davReadlink_found (ρ := ρ) hk.toKeepsFiles srv h hr (by omega) hbuf'
  rw [← hm.content, ← takeWhile_of_take htake]
  exact hlink.map linkAnswer

end Calls

/-! ## Sessions -/

/-- The mount is at rest, and the files of its server stand for the file system. -/
def SameState (srv : DavServer) (files : σ → Files) (t : Thread (Mem σ)) (fs : FileSystem) : Prop :=
  AtRest t ∧ Stands srv.options (files t.mem.env) fs

section Session

variable {env : Env σ} {files : σ → Files} {url href : Path → Text}
  (hk : KeepsTree env files url href) (srv : DavServer) (huse : srv.options.useLock = false)
  (hmove : srv.move = true) (hextends : ∀ path, url path <+: href path)

include hk huse hmove hextends

theorem follows_spec :
    Implements (fun c => (c.answer env srv : Dav σ ρ Answer)) (FileCall.spec srv.options)
      (FileCall.Covered srv.options) (SameState srv files) := by
  rintro c t fs ⟨h, hstands⟩ hcovered
  have hserves : Serves ρ env srv files c t fs := by
    cases c with
    | getattr path stbuf => exact serves_getattr hk srv h hstands hextends path stbuf
    | read path buf offset => exact serves_read hk srv h hstands path offset hcovered.1 hcovered.2
    | write path buf offset => exact serves_write hk srv h hstands huse hcovered
    | rename from_ to_ flags => exact serves_rename hk srv h hstands huse hmove hcovered flags
    | unlink path => exact serves_unlink hk srv h hstands huse path
    | chmod path mode => exact serves_chmod hk srv h hstands path hcovered
    | chown path uid gid =>
      obtain ⟨huid, rfl⟩ := hcovered
      exact serves_chown hk srv h hstands path huid
    | mknod path mode rdev => exact serves_mknod hk srv h hstands path hcovered.1 rdev
    | readlink path buf => exact serves_readlink hk srv h hstands path hcovered.1 hcovered.2
    | symlink target path => exact serves_symlink hk srv h hstands hcovered path
    | create path mode fi => exact serves_create hk srv h hstands huse path hcovered fi
    | open_ path fi => exact serves_open hk srv h hstands huse hextends hcovered
    | release path fi => exact serves_release srv h hstands huse path fi
    | truncate path size => exact serves_truncate hk srv h hstands hextends hcovered
  obtain ⟨fs', ⟨t', hrun, hrest, hfs⟩, hafter⟩ := hserves
  rw [← hfs] at hafter
  exact ⟨t', hrun, hrest, hafter⟩

/-- A session of covered calls has the answers that the specification gives, and at its end the
    files of the server stand for the file system that the specification leaves. -/
theorem session_follows_spec (cs : List FileCall) {t : Thread (Mem σ)} (h : AtRest t)
    {fs : FileSystem} (hstands : Stands srv.options (files t.mem.env) fs)
    (hcovered : AllCovered (FileCall.spec srv.options) (FileCall.Covered srv.options) cs fs) :
    ∃ t', cs.mapM (fun c => (c.answer env srv : Dav σ ρ Answer)) t =
        (.ok (answers (FileCall.spec srv.options) cs fs).1, t') ∧ AtRest t' ∧
      Stands srv.options (files t'.mem.env) (answers (FileCall.spec srv.options) cs fs).2 :=
  (follows_spec hk srv huse hmove hextends).answers cs ⟨h, hstands⟩ hcovered

end Session

/-- A mount without `use_lock`. -/
def plainServer : DavServer := ⟨{ lockingOpts with useLock := false }, true, true, true⟩

/-- A file is made, written, renamed, read and removed. -/
def shortSession : List FileCall :=
  [.create [47, 97] (sIFREG ||| 0o644) ⟨false, true, false, true⟩, .write [47, 97] [1, 2, 3] 0,
    .chmod [47, 97] (sIFREG ||| 0o600), .rename [47, 97] [47, 98] 1, .read [47, 98] [9, 9, 9] 1,
    .getattr [47, 98] zeroStat, .unlink [47, 98], .getattr [47, 98] zeroStat]

theorem session_follows_spec_short :
    ∃ t', shortSession.mapM (fun c => (c.answer (serving (moveFiles (fun _ => []) fun _ => []))
        plainServer : Dav Files ℤ Answer)) (entered (fun _ => none) []) =
      (.ok [done, bare 3, done, done, (2, .data [2, 3]),
        (0, .attributes (sIFREG ||| 0o600) 0 0 3), done, failed enoent], t') := by
  have hcovered : AllCovered (FileCall.spec plainServer.options) (FileCall.Covered plainServer.options)
      shortSession fun _ => none := by
    refine ⟨(by decide : sIFREG ||| 0o644 < 2 ^ 32), ⟨by decide, by decide, by decide, _, rfl, ?_⟩,
      (by decide : sIFREG ||| 0o600 < 2 ^ 32), (by decide : ([47, 97] : Path) ≠ [47, 98]),
      ⟨by decide, by decide⟩, trivial, trivial, trivial, trivial⟩
    exact .inl (Nat.zero_le _)
  obtain ⟨t', hrun, -⟩ := session_follows_spec (ρ := ℤ)
    (keepsTree_moveFiles (fun _ => []) fun _ => []) plainServer rfl rfl (fun _ => List.prefix_rfl)
    shortSession (t := entered (fun _ => none) []) ⟨rfl, rfl⟩ (fun _ => .none) hcovered
  exact ⟨t', hrun⟩

end NetworkFs.Dav
