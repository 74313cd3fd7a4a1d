import NetworkFs.Dav.Copying

/-!
# A server that also moves and refuses

A server that keeps files, moves them, and refuses what is asked of a path without one; and what the
functions of the client do against it without `use_lock`.

* `KeepsTree`: what the server does on each request.
* `Refuses.checked`: a function whose only request is refused returns the `errno` of the status.
* `davWrite_past`: a write past the end fills the gap.
* `davRename_found`, `davRename_missing`, `davRename_taken`: the ways of `dav_rename`.
-/

namespace NetworkFs.Dav

open Control Grammar Wrapper Text Data

variable {σ ρ : Type}

/-! ## The server -/

/-- The request is answered with `status`, and the files stay. -/
def Refuses (env : Env σ) (files : σ → Files) (request : Request) (status : ℕ) (s : σ) : Prop :=
  (env.perform request s).1.code = .httpReturnedError ∧ (env.perform request s).1.status = status ∧
    files (env.perform request s).2 = files s

/-- The request of `__dav_move` without `use_lock`. -/
def moveRequest (from_ to_ : Path) (nooverwrite : Bool) : Request :=
  ⟨.move, from_, moveLines to_ nooverwrite, none, .none⟩

/-- The server moves files, and every request for a path without one is refused. -/
structure KeepsTree (env : Env σ) (files : σ → Files) (url href : Path → Text) : Prop
    extends CopiesFiles env files url href where
  delete_absent : ∀ path lines s, files s path = none →
    Refuses env files ⟨.delete, path, lines, none, .none⟩ 404 s
  proppatch_absent : ∀ path key value s, files s path = none →
    Refuses env files (proppatchRequest path key value) 404 s
  move : ∀ from_ to_ nooverwrite s r, from_ ≠ to_ → files s from_ = some r →
    (nooverwrite = true → files s to_ = none) →
    (env.perform (moveRequest from_ to_ nooverwrite) s).1.code = .ok ∧
      files (env.perform (moveRequest from_ to_ nooverwrite) s).2 =
        Function.update (Function.update (files s) from_ none) to_ (some r)
  move_absent : ∀ from_ to_ nooverwrite s, from_ ≠ to_ → files s from_ = none →
    Refuses env files (moveRequest from_ to_ nooverwrite) 404 s
  /-- `Overwrite: F`. -/
  move_taken : ∀ from_ to_ s r r', from_ ≠ to_ → files s from_ = some r → files s to_ = some r' →
    Refuses env files (moveRequest from_ to_ true) 412 s

/-! ## `__dav_move` -/

section Move

variable {env : Env σ} (srv : DavServer) (hs : Steady env) (huse : srv.options.useLock = false)
  {from_ to_ : Path} {nooverwrite : Bool} {t : Thread (Mem σ)} (h : t.ex.has = false)

include hs huse h

theorem moveScope_apply : (moveScope env srv from_ to_ nooverwrite : Dav σ ρ (Option Unit)) t =
    Ctl.doOnce (do
      let _ ← performChecked env (moveRequest from_ to_ nooverwrite)) t := by
  have hdestination : (throwable (davHeaderDestination env [] to_) : Dav σ ρ (List Header)) t =
      (.ok [.destination to_], t) := by
    rw [((raises_davHeaderDestination (ρ := ρ) env [] to_).throwable t h).1
      (by rw [hs.destinationAttempt]; rfl), hs.destinationAttempt]
    rfl
  have hpass : overwriteAttempt env nooverwrite = .pass := by
    rw [overwriteAttempt, hs.alloc, ite_self]
  have hoverwrite : (overwriteLine env nooverwrite [.destination to_] : Dav σ ρ (List Header)) t =
      (.ok (moveLines to_ nooverwrite), t) := by
    rw [(breaks_overwriteLine (ρ := ρ) env nooverwrite [.destination to_] t h).1
      (by rw [hpass]; rfl), hpass]
    rfl
  have hlock : (moveLockLines env srv (moveLines to_ nooverwrite) from_ to_ :
      Dav σ ρ (List Header)) = pure (moveLines to_ nooverwrite) := by
    rw [moveLockLines, huse]
    rfl
  rw [moveScope, withBuffer_clean h]
  unfold Ctl.doOnce
  rw [Ctl.bind_ok hdestination, Ctl.bind_ok hoverwrite, hlock, pure_bind, Ctl.bind_apply,
    hs.setAndPerform _ _ h, huse]
  rfl

theorem davMoveCore_ok
    (hc : (env.perform (moveRequest from_ to_ nooverwrite) t.mem.env).1.code = .ok) :
    (davMoveCore env srv from_ to_ nooverwrite : Dav σ ρ ℤ) t =
      (.ok 0, answered env (moveRequest from_ to_ nooverwrite) t) := by
  have hscope := (moveScope_apply (ρ := ρ) srv hs huse h).trans
    (Ctl.doOnce_ok (Ctl.bind_ok (f := fun _ => pure ()) (performChecked_ok env hc)))
  have hex : (answered env (moveRequest from_ to_ nooverwrite) t).ex.has = false := h
  have hwith := (hs.withCurl srv.options from_ h).trans
    (Ctl.doOnce_ok (Ctl.bind_ok (f := fun _ => pure ()) (throwable_clean hscope hex)))
  rw [davMoveCore, Ctl.bind_ok hwith, testSuccess_apply]
  simp [h, logged, atEnv, answered]

theorem davMoveCore_failed
    (hc : (env.perform (moveRequest from_ to_ nooverwrite) t.mem.env).1.code ≠ .ok) :
    (davMoveCore env srv from_ to_ nooverwrite : Dav σ ρ ℤ) t =
      (.ok 1, refused (env.perform (moveRequest from_ to_ nooverwrite) t.mem.env).1
        (answered env (moveRequest from_ to_ nooverwrite) t)) := by
  have hscope := (moveScope_apply (ρ := ρ) srv hs huse h).trans
    (Ctl.doOnce_brk (Ctl.bind_error (f := fun _ => pure ()) (performChecked_error env hc)))
  have hwith := (hs.withCurl srv.options from_ h).trans
    (Ctl.doOnce_brk (Ctl.bind_error (f := fun _ => pure ()) (throwable_pending hscope rfl)))
  rw [davMoveCore, Ctl.bind_ok hwith, testSuccess_apply]
  rfl

end Move

/-! ## What is refused -/

section Refused

variable {env : Env σ} {files : σ → Files} {t : Thread (Mem σ)}

/-- The only request of `m` is refused. -/
theorem Refuses.checked {request : Request} {status : ℕ} {e : ℤ} {m : Dav σ ρ ℤ}
    (hrefuses : Refuses env files request status t.mem.env) (h : AtRest t)
    (hm : (env.perform request t.mem.env).1.code ≠ .ok → m t =
      (.ok 1, refused (env.perform request t.mem.env).1 (answered env request t)))
    (herrno : statusErrno status = some e) :
    Makes files (do let _ ← m; davExceptionCheck 0) t e (files t.mem.env) := by
  obtain ⟨hcode, hstatus, hsame⟩ := hrefuses
  have hne : (env.perform request t.mem.env).1.code ≠ .ok := by
    rw [hcode]
    rintro ⟨⟩
  refine ⟨⟨.clear, (answered env request t).mem⟩,
    (Ctl.bind_ok (hm hne)).trans ((davExceptionCheck_pending 0 rfl).trans ?_), ⟨rfl, h.free⟩, hsame⟩
  have hmap : exceptionErrno (refused (env.perform request t.mem.env).1 (answered env request t)).ex
      = e := by
    show exceptionErrno (.init (.curl _ _ _)) = e
    rw [hcode, hstatus]
    show (statusErrno status).getD (-eio) = e
    rw [herrno]
    rfl
  rw [hmap]
  rfl

end Refused

section Callbacks

variable {env : Env σ} {files : σ → Files} {url href : Path → Text}
  (hk : KeepsTree env files url href) (srv : DavServer) (huse : srv.options.useLock = false)
  {path : Path} {r : Resource} {t : Thread (Mem σ)} (h : AtRest t)

omit hk h in
include huse in
theorem usesLock_unused (lockType : LockType) : usesLock srv lockType = false := by
  rw [usesLock, huse]
  rfl

include huse in
theorem locked_unused (lockType : LockType) : locked srv lockType t = t :=
  if_neg (by rw [usesLock_unused srv huse]; exact Bool.false_ne_true)

include huse in
theorem listed_unused (lockType : LockType) : listed srv path lockType t = t :=
  if_neg (by rw [usesLock_unused srv huse]; exact Bool.false_ne_true)

include hk h

theorem davChmod_missing (hr : files t.mem.env path = none) (mode : ℕ) :
    Makes files (davChmod env srv path mode : Dav σ ρ ℤ) t (-enoent) (files t.mem.env) :=
  (hk.proppatch_absent path _ _ t.mem.env hr).checked h
    (davProppatch_failed srv hk.toSteady h.clean) rfl

theorem davChown_missing (hr : files t.mem.env path = none) (uid gid : ℕ) :
    Makes files (davChown env srv path uid gid : Dav σ ρ ℤ) t (-enoent) (files t.mem.env) :=
  (hk.proppatch_absent path _ _ t.mem.env hr).checked h
    (davProppatch_failed srv hk.toSteady h.clean) rfl

/-- `dav_mknod` of something that is there. -/
theorem davMknod_found (hr : files t.mem.env path = some r) (hlt : r.content.length < 2 ^ 63)
    {mode : ℕ} (hdir : isDir mode = false) (rdev : ℕ) :
    Makes files (davMknod env srv path mode rdev : Dav σ ρ ℤ) t (-eexist) (files t.mem.env) := by
  obtain ⟨t₁, hhead, h₁, hfs⟩ := davHead_found (ρ := ℤ) hk.toKeepsFiles srv h hr hlt
  exact ⟨t₁, davMknod_exists env srv rdev hdir hhead h₁.clean, h₁, hfs⟩

/-- `dav_symlink` where there is something. -/
theorem davSymlink_found (hr : files t.mem.env path = some r) (hlt : r.content.length < 2 ^ 63)
    (target : Bytes) :
    Makes files (davSymlink env srv target path : Dav σ ρ ℤ) t (-eexist) (files t.mem.env) := by
  obtain ⟨t₁, hhead, h₁, hfs⟩ := davHead_found (ρ := ℤ) hk.toKeepsFiles srv h hr hlt
  refine ⟨t₁, Ctl.call_ret ?_, h₁, hfs⟩
  rw [Ctl.bind_error (probe_exists env srv hhead h₁.clean)]

/-- `dav_truncate` of nothing. -/
theorem davTruncate_missing (hr : files t.mem.env path = none) (size : ℤ) :
    Makes files (davTruncate env srv path size : Dav σ ρ ℤ) t (-enoent) (files t.mem.env) := by
  obtain ⟨t₁, hget, h₁, henv⟩ := davGetattr_missing (ρ := ρ) hk.toCopiesFiles srv h hr
    (env.stackStat t.mem.env)
  refine ⟨t₁, ?_, h₁, ?_⟩
  · refine (Ctl.bind_ok (Ctl.gets_apply _ t)).trans ((Ctl.bind_ok hget).trans ?_)
    rw [if_pos (show (-enoent : ℤ) ≠ 0 by decide)]
    rfl
  · rw [henv]
    exact (hk.propfind_absent path t.mem.env hr).2.2

/-- `dav_write` past the end: the gap is filled. -/
theorem davWrite_past (hr : files t.mem.env path = some r) {data : Bytes} {offset : ℕ}
    (hpast : r.content.length < offset) (hlow : r.content.length < offset % 2 ^ 32)
    (hoff : offset < 2 ^ 63) (huse : srv.options.useLock = false) :
    Makes files (davWrite env srv path data offset : Dav σ ρ ℤ) t (toInt data.length)
      (Function.update (files t.mem.env) path
        (some { r with content := splice 0 r.content offset data })) := by
  obtain ⟨hcode, hstatus, hsame⟩ := hk.put_past path (lockLines srv path .read t.mem.table) data offset
    t.mem.env r hr hpast
  set request := putRequest srv path data offset t.mem.table with hrequest
  have hput : (davPut env srv path data offset : Dav σ ρ ℤ) t =
      (.ok 1, refused (env.perform request t.mem.env).1 (locked srv .read (answered env request t))) :=
    davPut_failed srv hk.toSteady h.clean (h.canLock .read) (by
      rw [← hrequest, show (env.perform request t.mem.env).1.code = .httpReturnedError from hcode]
      rintro ⟨⟩)
  rw [locked_unused srv huse] at hput
  set t₁ := refused (env.perform request t.mem.env).1 (answered env request t) with ht₁
  have h416 : t₁.ex.isHttp 416 = true := by
    show Exception.isHttp (.init (.curl _ _ _)) 416 = true
    rw [show (env.perform request t.mem.env).1.code = .httpReturnedError from hcode,
      show (env.perform request t.mem.env).1.status = 416 from hstatus]
    rfl
  set t₂ : Thread (Mem σ) := ⟨.clear, t₁.mem⟩ with ht₂
  have h₂ : AtRest t₂ := ⟨rfl, h.free⟩
  have hfs₂ : files t₂.mem.env = files t.mem.env := hsame
  have hr₂ : files t₂.mem.env path = some r := by rw [hfs₂, hr]
  have hpadded : Makes files (do
      let head ← davHead env srv path
      if head.1 ≠ 0 then pure head.1 else do
        let res ← writePadding env srv path offset head.2
        if res ≠ 0 then pure res else davPut env srv path data offset : Dav σ ρ ℤ) t₂ 0
      (Function.update (files t.mem.env) path
        (some { r with content := splice 0 r.content offset data })) := by
    refine (davHead_found hk.toKeepsFiles srv h₂ hr₂ (by omega)).bind fun t₃ h₃ hfs₃ => ?_
    rw [if_neg (not_not_intro rfl), writePadding, toUnsigned_natCast, if_pos hlow,
      toSize_natCast_sub hpast.le (by omega), toSsize_natCast (by omega)]
    have hr₃ : files t₃.mem.env path = some r := by rw [hfs₃, hr₂]
    refine (davPut_found hk.toKeepsFiles srv h₃ hr₃ le_rfl).bind fun t₄ h₄ hfs₄ => ?_
    rw [if_neg (not_not_intro rfl)]
    set zeros : Bytes := List.replicate (offset - r.content.length) 0 with hzeros
    have hr₄ : files t₄.mem.env path =
        some { r with content := splice 0 r.content r.content.length zeros } := by
      rw [hfs₄, Function.update_self]
    have hend : offset ≤ (splice 0 r.content r.content.length zeros).length := by
      rw [length_splice, hzeros, List.length_replicate]
      omega
    have hlast : Makes files (davPut env srv path data offset : Dav σ ρ ℤ) t₄ 0 _ :=
      davPut_found hk.toKeepsFiles srv h₄ hr₄ hend
    rw [hfs₄, Function.update_idem, hfs₃, hfs₂] at hlast
    dsimp only at hlast
    rwa [hzeros, splice_fill 0 data hpast.le] at hlast
  obtain ⟨t₃, hrun, h₃, hfs₃⟩ := hpadded
  have hsteps : (writeSteps env srv path data offset : Dav σ ρ ℤ) t = (.ok 0, t₃) := by
    rw [writeSteps, Ctl.bind_ok hput, if_neg one_ne_zero, Ctl.bind_ok (Ctl.gets_apply _ t₁), h416,
      if_pos rfl, writePadded]
    exact (Ctl.bind_ok rfl).trans hrun
  refine ⟨t₃, (Ctl.bind_ok hsteps).trans ?_, h₃, hfs₃⟩
  rw [if_neg (not_not_intro rfl)]
  rfl

include huse

theorem davUnlink_missing (hr : files t.mem.env path = none) :
    Makes files (davUnlink env srv path : Dav σ ρ ℤ) t (-enoent) (files t.mem.env) := by
  refine (hk.delete_absent path (lockLines srv path .write t.mem.table) t.mem.env hr).checked h
    (fun hne => ?_) rfl
  have hrun := davMethod_failed (ρ := ρ) srv hk.toSteady h.clean path .delete (h.canLock .write) hne
  rwa [locked_unused srv huse, listed_unused srv huse] at hrun

variable {from_ to_ : Path} (hmove : srv.move = true) (hne : from_ ≠ to_)

include hmove hne

/-- `dav_rename` of nothing. -/
theorem davRename_missing (hr : files t.mem.env from_ = none) {flags : ℕ} (hflags : flags < 2) :
    Makes files (davRename env srv from_ to_ flags : Dav σ ρ ℤ) t (-enoent) (files t.mem.env) := by
  have hcore : ∀ nooverwrite, Makes files (do
      let _ ← davMoveCore env srv from_ to_ nooverwrite
      davExceptionCheck 0 : Dav σ ρ ℤ) t (-enoent) (files t.mem.env) := fun nooverwrite =>
    (hk.move_absent from_ to_ nooverwrite t.mem.env hne hr).checked h
      (davMoveCore_failed srv hk.toSteady huse h.clean) rfl
  unfold davRename
  rw [if_pos hmove]
  interval_cases flags
  · exact hcore false
  · exact hcore true

/-- `dav_rename` with `RENAME_NOREPLACE` where there is something. -/
theorem davRename_taken {r' : Resource} (hr : files t.mem.env from_ = some r)
    (hr' : files t.mem.env to_ = some r') :
    Makes files (davRename env srv from_ to_ 1 : Dav σ ρ ℤ) t (-eexist) (files t.mem.env) := by
  unfold davRename
  rw [if_pos hmove]
  exact (hk.move_taken from_ to_ t.mem.env r r' hne hr hr').checked h
    (davMoveCore_failed srv hk.toSteady huse h.clean) rfl

theorem davRename_found (hr : files t.mem.env from_ = some r) {flags : ℕ} (hflags : flags < 2)
    (hfree : flags = 1 → files t.mem.env to_ = none) :
    Makes files (davRename env srv from_ to_ flags : Dav σ ρ ℤ) t 0
      (Function.update (Function.update (files t.mem.env) from_ none) to_ (some r)) := by
  have hcore : ∀ nooverwrite, (nooverwrite = true → files t.mem.env to_ = none) → Makes files (do
      let _ ← davMoveCore env srv from_ to_ nooverwrite
      davExceptionCheck 0 : Dav σ ρ ℤ) t 0
      (Function.update (Function.update (files t.mem.env) from_ none) to_ (some r)) := by
    intro nooverwrite hno
    obtain ⟨hcode, hsame⟩ := hk.move from_ to_ nooverwrite t.mem.env r hne hr hno
    have hmoved : Makes files (davMoveCore env srv from_ to_ nooverwrite : Dav σ ρ ℤ) t 0 _ :=
      ⟨_, davMoveCore_ok srv hk.toSteady huse h.clean hcode, ⟨h.clear, h.free⟩, hsame⟩
    refine hmoved.bind fun t' h' hfs => ?_
    rw [← hfs]
    exact davExceptionCheck_makes h' 0
  unfold davRename
  rw [if_pos hmove]
  interval_cases flags
  · exact hcore false (by rintro ⟨⟩)
  · exact hcore true fun _ => hfree rfl

end Callbacks

/-! ## Such a server -/

/-- The server of `copyFiles`, which also moves. -/
def moveFiles (url href : Path → Text) (request : Request) (fs : Files) : Reply × Files :=
  match request.method, request.headers, fs request.path with
  | .move, .destination to_ :: lines, some r =>
    if Header.overwriteF ∈ lines ∧ (fs to_).isSome = true then (plainReply 412, fs)
    else (plainReply 201, Function.update (Function.update fs request.path none) to_ (some r))
  | _, _, _ => copyFiles url href request fs

theorem moveFiles_of_ne (url href : Path → Text) {request : Request} (h : request.method ≠ .move)
    (fs : Files) : moveFiles url href request fs = copyFiles url href request fs := by
  unfold moveFiles
  split
  · exact absurd ‹request.method = .move› h
  · rfl

section Serves

variable {url href : Path → Text} {from_ to_ : Path} {fs : Files} {r : Resource}

theorem refuses_absent {request : Request} (hr : fs request.path = none)
    (hmethod : request.method ∈ [Method.delete, .proppatch, .move]) :
    Refuses (serving (moveFiles url href)) id request 404 fs := by
  have hserve : moveFiles url href request fs = (plainReply 404, fs) := by
    obtain ⟨method, path, headers, range, body⟩ := request
    simp only [List.mem_cons, List.not_mem_nil, or_false] at hr hmethod
    rcases hmethod with rfl | rfl | rfl <;> simp only [moveFiles, copyFiles, keepFiles, hr]
  rw [Refuses, show (serving (moveFiles url href)).perform = moveFiles url href from rfl, hserve]
  exact ⟨rfl, rfl, rfl⟩

theorem moveFiles_move (hr : fs from_ = some r) (nooverwrite : Bool) :
    moveFiles url href (moveRequest from_ to_ nooverwrite) fs =
      if nooverwrite = true ∧ (fs to_).isSome = true then (plainReply 412, fs)
      else (plainReply 201, Function.update (Function.update fs from_ none) to_ (some r)) := by
  cases nooverwrite <;> simp [moveFiles, moveRequest, moveLines, hr]

end Serves

theorem copiesFiles_moveFiles (url href : Path → Text) :
    CopiesFiles (serving (moveFiles url href)) id url href := by
  have hk := copiesFiles_copyFiles url href
  have hsame : ∀ request (s : Files), request.method ≠ .move →
      (serving (moveFiles url href)).perform request s =
        (serving (copyFiles url href)).perform request s :=
    fun request s hne => moveFiles_of_ne url href hne s
  refine ⟨hk.toKeepsFiles.congr (steady_serving _) (fun _ _ => ⟨rfl, rfl⟩) fun request s hon => ?_,
    fun from_ to_ lines s r hne hr => ?_, fun path s hr => ?_, fun path data offset s hr hdata => ?_⟩
  · refine hsame request s fun hmove => ?_
    rw [hmove] at hon
    cases hon
  · rw [hsame ⟨.copy, from_, .destination to_ :: lines, none, .none⟩ s (by rintro ⟨⟩)]
    exact hk.copy from_ to_ lines s r hne hr
  · rw [hsame (propfindRequest path 0) s (by rintro ⟨⟩)]
    exact hk.propfind_absent path s hr
  · rw [hsame (getRequest path data offset) s (by rintro ⟨⟩)]
    exact hk.get_absent path data offset s hr hdata

theorem keepsTree_moveFiles (url href : Path → Text) :
    KeepsTree (serving (moveFiles url href)) id url href where
  toCopiesFiles := copiesFiles_moveFiles url href
  delete_absent _ _ _ hr := refuses_absent hr (by simp)
  proppatch_absent _ _ _ _ hr := refuses_absent hr (by simp [proppatchRequest])
  move from_ to_ nooverwrite s r _ hr hfree := by
    rw [show (serving (moveFiles url href)).perform = moveFiles url href from rfl,
      moveFiles_move (show s from_ = some r from hr), if_neg]
    · exact ⟨rfl, rfl⟩
    · rintro ⟨hno, htaken⟩
      rw [show s to_ = none from hfree hno] at htaken
      cases htaken
  move_absent _ _ _ _ _ hr := refuses_absent hr (by simp [moveRequest])
  move_taken from_ to_ s r r' _ hr hr' := by
    rw [Refuses, show (serving (moveFiles url href)).perform = moveFiles url href from rfl,
      moveFiles_move (show s from_ = some r from hr), if_pos]
    · exact ⟨rfl, rfl, rfl⟩
    · exact ⟨rfl, by rw [show s to_ = some r' from hr']; rfl⟩

end NetworkFs.Dav
