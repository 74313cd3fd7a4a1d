import NetworkFs.Dav.Frame

/-!
# What no callback touches

A preorder on the memory that every method of the client keeps is kept by the callbacks, except
those that lock: `dav_open`, `dav_create` and `dav_release` call `dav_lock` and `dav_unlock`, which
not every such preorder allows for.

* `KeptByMethods`: the preorder is kept by every method of the client that the callbacks call, if
  `DELETE` and `MOVE` wipe only paths that they may.
* `Callback.wipes`: the paths that a callback may wipe.
* `within_callback`: so the preorder is kept by every callback that does not lock.
-/

namespace NetworkFs.Dav

open Control Grammar Wrapper Text

variable {σ ρ : Type} {env : Env σ} {srv : DavServer}

/-- `path` itself or what is below it. -/
def Covers (path other : Path) : Prop := other = path ∨ path ++ [47] <+: other

instance (path other : Path) : Decidable (Covers path other) := by
  unfold Covers
  infer_instance

/-- The preorder does not look at the exception, and the methods keep it that delete and move only
    what they may. -/
structure KeptByMethods (env : Env σ) (srv : DavServer) (R : Thread (Mem σ) → Thread (Mem σ) → Prop)
    (may : Path → Prop) : Prop extends QuietFrame R where
  ex : ∀ t e, R t { t with ex := e }
  head : ∀ {ρ : Type} {A : Exit ρ → Prop} [Ctl.MayFault A] path,
    Ctl.Within R A (davHead env srv path)
  get : ∀ {ρ : Type} {A : Exit ρ → Prop} [Ctl.MayFault A] path data offset,
    Ctl.Within R A (davGet env srv path data offset)
  put : ∀ {ρ : Type} {A : Exit ρ → Prop} [Ctl.MayFault A] path data offset,
    Ctl.Within R A (davPut env srv path data offset)
  putSimple : ∀ {ρ : Type} {A : Exit ρ → Prop} [Ctl.MayFault A] path,
    Ctl.Within R A (davPutSimple env srv path)
  mkcol : ∀ {ρ : Type} {A : Exit ρ → Prop} [Ctl.MayFault A] path,
    Ctl.Within R A (davMkcol env srv path)
  delete : ∀ {ρ : Type} {A : Exit ρ → Prop} [Ctl.MayFault A] path,
    (∀ p, Covers path p → may p) → Ctl.Within R A (davDelete env srv path)
  move : ∀ {ρ : Type} {A : Exit ρ → Prop} [Ctl.MayFault A] from_ to_ nooverwrite,
    (∀ p, Covers from_ p ∨ Covers to_ p → may p) →
    Ctl.Within R A (davMoveCore env srv from_ to_ nooverwrite)
  copy : ∀ {ρ : Type} {A : Exit ρ → Prop} [Ctl.MayFault A] from_ to_,
    Ctl.Within R A (davCopy env srv from_ to_)
  proppatch : ∀ {ρ : Type} {A : Exit ρ → Prop} [Ctl.MayFault A] path key value,
    Ctl.Within R A (davProppatch env srv path key value)
  propfind : ∀ {ρ : Type} {A : Exit ρ → Prop} [Ctl.MayFault A] path depth
    {filler : Text → Stat → Dav σ ρ Unit},
    (∀ {A : Exit ρ → Prop} name st, Ctl.Within R A (filler name st)) →
    Ctl.Within R A (davPropfind env srv path depth filler)

namespace KeptByMethods

variable {R : Thread (Mem σ) → Thread (Mem σ) → Prop} {may : Path → Prop}
  (hk : KeptByMethods env srv R may) {A : Exit ρ → Prop}

include hk

theorem toMap : Ctl.Within R A (davExceptionMap : Dav σ ρ ℤ) :=
  have := hk.toQuietFrame
  .bind (.gets _) fun _ => .bind (.modify fun t => hk.ex t _) fun _ => .pure _

theorem check (res : ℤ) : Ctl.Within R A (davExceptionCheck res : Dav σ ρ ℤ) :=
  have := hk.toQuietFrame
  .bind (.gets _) fun _ => .ite hk.toMap (.pure _)

theorem test (res : ℤ) : Ctl.Within R A (davExceptionTest res : Dav σ ρ ℤ) :=
  have := hk.toQuietFrame
  .ite (.pure _) hk.toMap

variable [Ctl.MayFault A]

theorem getattr (path : Path) (stbuf : Stat) :
    Ctl.Within R A (davGetattr env srv path stbuf : Dav σ ρ (ℤ × Stat)) := by
  have := hk.toQuietFrame
  refine .bind (within_modifyQuiet fun _ => ⟨rfl, rfl, rfl⟩) fun _ => ?_
  refine .bind (hk.propfind path 0 within_davGetattrCallback) fun _ => ?_
  exact .bind (hk.check 0) fun _ => .bind (.gets _) fun _ => .pure _

theorem readdir (path : Path) : Ctl.Within R A (davReaddir env srv path : Dav σ ρ ℤ) := by
  have := hk.toQuietFrame
  refine .bind (within_modifyQuiet fun _ => ⟨rfl, rfl, rfl⟩) fun _ => ?_
  exact .bind (hk.propfind path 1 fun _ _ => within_modifyQuiet fun _ => ⟨rfl, rfl, rfl⟩) fun _ =>
    hk.check 0

theorem read (path : Path) (buf : Bytes) (offset : ℤ) :
    Ctl.Within R A (davRead env srv path buf offset : Dav σ ρ (ℤ × Bytes)) := by
  have := hk.toQuietFrame
  have hfailed : ∀ buf, Ctl.Within R A (readFailed buf : Dav σ ρ (ℤ × Bytes)) := fun _ =>
    .bind (.gets _) fun _ => .ite (.bind (.modify fun t => hk.ex t _) fun _ => .pure _)
      (.bind hk.toMap fun _ => .pure _)
  exact .ite (.pure _) (.bind (hk.get path buf offset) fun _ => .ite (hfailed _) (.pure _))

theorem write (path : Path) (buf : Bytes) (offset : ℤ) :
    Ctl.Within R A (davWrite env srv path buf offset : Dav σ ρ ℤ) := by
  have := hk.toQuietFrame
  have hpadded : Ctl.Within R A (writePadded env srv path buf offset : Dav σ ρ ℤ) := by
    refine .bind (.modify fun t => hk.ex t _) fun _ => .bind (hk.head path) fun _ => ?_
    refine .ite (.pure _) (.bind (.ite (hk.put _ _ _) (.pure _)) fun _ => ?_)
    exact .ite (.pure _) (hk.put _ _ _)
  refine .bind (.bind (hk.put _ _ _) fun _ => .ite (.pure _) ?_) fun _ => .ite hk.toMap (.pure _)
  exact .bind (.gets _) fun _ => .ite hpadded (.pure _)

theorem rename (from_ to_ : Path) (flags : ℕ) (hmay : ∀ p, Covers from_ p ∨ Covers to_ p → may p) :
    Ctl.Within R A (davRename env srv from_ to_ flags : Dav σ ρ ℤ) := by
  have := hk.toQuietFrame
  refine .ite ?_ (.pure _)
  split
  · exact .bind (hk.move from_ to_ false hmay) fun _ => hk.check 0
  · exact .bind (hk.move from_ to_ true hmay) fun _ => hk.check 0
  · exact .pure _

theorem unlink (path : Path) (hmay : ∀ p, Covers path p → may p) :
    Ctl.Within R A (davUnlink env srv path : Dav σ ρ ℤ) :=
  have := hk.toQuietFrame
  .bind (hk.delete path hmay) fun _ => hk.check 0

theorem chmod (path : Path) (mode : ℕ) : Ctl.Within R A (davChmod env srv path mode : Dav σ ρ ℤ) :=
  have := hk.toQuietFrame
  .bind (hk.proppatch path _ _) fun _ => hk.check 0

theorem chown (path : Path) (uid gid : ℕ) :
    Ctl.Within R A (davChown env srv path uid gid : Dav σ ρ ℤ) :=
  have := hk.toQuietFrame
  .bind (hk.proppatch path _ _) fun _ => hk.check 0

omit [Ctl.MayFault A] in
theorem probe {A : Exit ℤ → Prop} [Ctl.MayFault A] [Ctl.MayReturn A] (path : Path) :
    Ctl.Within R A (probe env srv path) := by
  have := hk.toQuietFrame
  refine within_tryCatch hk.ex ?_ fun c hc => ?_
  · exact .bind (within_throwable (hk.head path)) fun _ => .leave (Ctl.MayReturn.ret _)
  · simp only [List.mem_cons, List.not_mem_nil, or_false] at hc
    rcases hc with rfl | rfl
    · exact .bind (.gets _) fun _ => .ite (.pure ()) (within_throw (fun t _ => hk.ex t _) (.pure ()))
    · exact .pure ()

theorem mknod (path : Path) (mode rdev : ℕ) :
    Ctl.Within R A (davMknod env srv path mode rdev : Dav σ ρ ℤ) := by
  have := hk.toQuietFrame
  refine .call (.ite (.pure _) (.bind (within_tryOnerror ?_ ?_) fun _ => hk.chmod path mode))
  · exact .bind (within_throwable (hk.probe path)) fun _ => .bind (hk.putSimple path) fun _ => .pure ()
  · exact .bind hk.toMap fun _ => .leave (Ctl.MayReturn.ret _)

theorem readlink (path : Path) (buf : Bytes) :
    Ctl.Within R A (davReadlink env srv path buf : Dav σ ρ (ℤ × Bytes)) :=
  have := hk.toQuietFrame
  .bind (hk.read path _ 0) fun _ => .ite (.pure _) (.pure _)

theorem symlink (from_ : Bytes) (to_ : Path) (hmay : ∀ p, Covers to_ p → may p) :
    Ctl.Within R A (davSymlink env srv from_ to_ : Dav σ ρ ℤ) := by
  have := hk.toQuietFrame
  refine .call (.bind (hk.probe to_) fun _ => .bind ?_ fun _ => .bind ?_ fun _ => .pure _)
  · refine .bind (hk.mknod to_ _ 0) fun _ => .ite (.pure _) (.bind (hk.write to_ from_ 0) fun _ => ?_)
    exact .ite (.pure _) (.leave (Ctl.MayReturn.ret _))
  · refine .bind (within_tryCatch hk.ex (hk.unlink to_ hmay) fun c hc => ?_) fun _ => .pure ()
    rw [List.mem_singleton.mp hc]
    exact .pure ()

theorem truncate (path : Path) (size : ℤ) (hmay : ∀ p, Covers path p → may p) :
    Ctl.Within R A (davTruncate env srv path size : Dav σ ρ ℤ) := by
  have := hk.toQuietFrame
  have hzero : ∀ mode, Ctl.Within R A (truncateZero env srv path mode : Dav σ ρ ℤ) := fun _ =>
    .bind (hk.delete path hmay) fun _ => .ite hk.toMap (.bind (hk.putSimple path) fun _ =>
      .ite hk.toMap (hk.chmod path _))
  have hrewrite : Ctl.Within R A (truncateRewrite env srv path size : Dav σ ρ ℤ) :=
    .bind (.gets _) fun _ => .bind (hk.read path _ 0) fun _ => .ite (.pure _)
      (.bind (hk.unlink path hmay) fun _ => .ite (.pure _) (.bind (hk.put path _ 0) fun _ => hk.test _))
  have hprop : Ctl.Within R A (truncateProp env srv path size : Dav σ ρ ℤ) :=
    .bind (hk.proppatch path _ _) fun _ => hk.test _
  refine .bind (.gets _) fun _ => .bind (hk.getattr path _) fun _ => .ite (.pure _) (.ite (.pure _)
    (.ite (hzero _) (.bind (hk.head path) fun _ => .ite hk.toMap (.ite hrewrite hprop))))

theorem copyFileRange (pathIn : Path) (offsetIn : ℤ) (pathOut : Path) (offsetOut : ℤ) (len : ℕ) :
    Ctl.Within R A (davCopyFileRange env srv pathIn offsetIn pathOut offsetOut len : Dav σ ρ ℤ) := by
  have := hk.toQuietFrame
  have hsave : ∀ size offset,
      Ctl.Within R A (saveOut env srv pathOut size offset : Dav σ ρ (ℤ × Bytes)) := fun _ _ =>
    .bind (.gets _) fun _ => .ite (.pure _) (hk.read pathOut _ _)
  have hrestore : ∀ buf offset,
      Ctl.Within R A (restoreOut env srv pathOut buf offset : Dav σ ρ ℤ) := fun _ _ =>
    .ite (.pure _) (hk.write pathOut _ _)
  refine .ite (.pure _) (.bind (hk.getattr pathOut zeroStat) fun _ => .ite (.pure _) (.ite (.pure _) ?_))
  refine .bind (hsave _ _) fun _ => .ite (.pure _) (.bind (hsave _ _) fun _ => .ite (.pure _) ?_)
  refine .bind (hk.copy pathIn pathOut) fun _ => .bind (hk.test _) fun _ => .ite (.pure _) ?_
  refine .bind (hrestore _ _) fun _ => .ite (.pure _) (.bind (hrestore _ _) fun _ => ?_)
  exact .ite (.pure _) (.pure _)

end KeptByMethods

/-- The callbacks that call `dav_lock` or `dav_unlock`. -/
def Callback.locks : Callback → Bool
  | .create _ _ _ | .open_ _ _ | .release _ _ => true
  | _ => false

/-- The paths that the callback may delete or move, or what it moves onto them. -/
def Callback.wipes : Callback → Path → Prop
  | .rename from_ to_ _, p => Covers from_ p ∨ Covers to_ p
  | .unlink path, p => Covers path p
  | .symlink _ to_, p => Covers to_ p
  | .truncate path _, p => Covers path p
  | .open_ path fi, p => fi.writes = true ∧ fi.trunc = true ∧ Covers path p
  | _, _ => False

/-- A callback that does not lock stays within a preorder that the methods keep. -/
theorem within_callback {R : Thread (Mem σ) → Thread (Mem σ) → Prop} {may : Path → Prop}
    (hk : KeptByMethods env srv R may) {A : Exit ρ → Prop} [Ctl.MayFault A] {c : Callback}
    (hc : c.locks = false) (hmay : ∀ p, c.wipes p → may p) :
    Ctl.Within R A (c.run env srv : Dav σ ρ ℤ) := by
  have := hk.toQuietFrame
  have hfst {α : Type} {m : Dav σ ρ (ℤ × α)} (hm : Ctl.Within R A m) :
      Ctl.Within R A (Prod.fst <$> m : Dav σ ρ ℤ) := .bind hm fun _ => .pure _
  cases c with
  | readdir path => exact hk.readdir path
  | getattr path stbuf => exact hfst (hk.getattr path stbuf)
  | read path buf offset => exact hfst (hk.read path buf offset)
  | write path buf offset => exact hk.write path buf offset
  | mkdir path => exact .ite (.bind (hk.mkcol path) fun _ => hk.check 0) (.pure _)
  | rename from_ to_ flags => exact hk.rename from_ to_ flags hmay
  | unlink path => exact hk.unlink path hmay
  | chmod path mode => exact hk.chmod path mode
  | chown path uid gid => exact hk.chown path uid gid
  | mknod path mode rdev => exact hk.mknod path mode rdev
  | readlink path buf => exact hfst (hk.readlink path buf)
  | symlink from_ to_ => exact hk.symlink from_ to_ hmay
  | truncate path size => exact hk.truncate path size hmay
  | copyFileRange pathIn offsetIn pathOut offsetOut len =>
    exact hk.copyFileRange pathIn offsetIn pathOut offsetOut len
  | create | open_ | release => cases hc

end NetworkFs.Dav
