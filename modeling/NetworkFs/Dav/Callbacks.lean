import NetworkFs.Dav.Lock
import NetworkFs.Dav.Propfind

/-!
# The FUSE callbacks

Models of `proto/dav/dav.c`. A buffer argument `buf, size` is the array `buf`
with its contents on entry; a callback that fills one returns it with its result.
`static struct DavServer server` is the parameter `srv`, and `filelock_tree` and
`ex` are in the state.
-/

namespace NetworkFs.Dav

open Control Grammar Wrapper Text

variable {σ ρ α : Type} (env : Env σ) (srv : DavServer)

def enoent : ℤ := 2
def eio : ℤ := 5
def enomem : ℤ := 12
def ebusy : ℤ := 16
def eexist : ℤ := 17
def einval : ℤ := 22
def enospc : ℤ := 28
def eopnotsupp : ℤ := 95

/-! ## Mapping the exception -/

/-- The `errno` of an HTTP status, where `dav_exception_map` has one. -/
def statusErrno (status : ℕ) : Option ℤ :=
  match status with
  | 404 => some (-enoent)
  | 412 => some (-eexist)
  | 423 => some (-ebusy)
  | 501 => some (-eopnotsupp)
  | 507 => some (-enospc)
  | _ => none

/-- The result of `dav_exception_map`. -/
def exceptionErrno (e : Exception) : ℤ :=
  match e.vtable with
  | some (.curl .httpReturnedError status _) => (statusErrno status).getD (-eio)
  | some (.malloc _) => -enomem
  | _ => -eio

/-- `dav_exception_map()` (lines 33–71). -/
def davExceptionMap : Dav σ ρ ℤ := do
  let e ← Ctl.gets (·.ex)
  exceptionDestory
  pure (exceptionErrno e)

/-- `dav_exception_test(res)` (lines 74–80). -/
def davExceptionTest (res : ℤ) : Dav σ ρ ℤ := if res = 0 then pure 0 else davExceptionMap

/-- `dav_exception_check(res)` (lines 83–89). -/
def davExceptionCheck (res : ℤ) : Dav σ ρ ℤ := do
  if ← Ctl.gets (·.ex.has) then davExceptionMap else pure res

/-! ## Attributes -/

/-- `filler` of `dav_readdir`. -/
def readdirFiller (name : Text) (st : Stat) : Dav σ ρ Unit :=
  modifyMem fun m => { m with entries := m.entries ++ [(name, some st)] }

/-- `dav_readdir` (lines 92–99). -/
def davReaddir (path : Path) : Dav σ ρ ℤ := do
  modifyMem fun m => { m with entries := m.entries ++ [("..".toList, none)] }
  let _ ← davPropfind env srv path 1 readdirFiller
  davExceptionCheck 0

/-- `dav_getattr_callback` (lines 102–107). -/
def davGetattrCallback (_name : Text) (st : Stat) : Dav σ ρ Unit :=
  modifyMem fun m => { m with stbuf := st }

/-- `dav_getattr` (lines 110–115): the result and `*stbuf`, which holds `stbuf`
    on entry. -/
def davGetattr (path : Path) (stbuf : Stat) : Dav σ ρ (ℤ × Stat) := do
  modifyMem fun m => { m with stbuf := stbuf }
  let _ ← davPropfind env srv path 0 davGetattrCallback
  let res ← davExceptionCheck 0
  let st ← Ctl.gets (·.mem.stbuf)
  pure (res, st)

/-! ## Reading and writing -/

/-- `dav_read` after `dav_get` gave a negative count (lines 126–134). -/
def readFailed (buf : Bytes) : Dav σ ρ (ℤ × Bytes) := do
  if ← Ctl.gets (·.ex.isHttp 416) then do
    exceptionDestory
    pure (0, buf)
  else do
    let res ← davExceptionMap
    pure (res, buf)

/-- `dav_read` (lines 118–138). -/
def davRead (path : Path) (buf : Bytes) (offset : ℤ) : Dav σ ρ (ℤ × Bytes) :=
  if buf.length = 0 then pure (0, buf) else do
    let r ← davGet env srv path buf offset
    if r.1 < 0 then readFailed r.2 else pure r

/-- The padding of `dav_write` (lines 169–176). -/
def writePadding (path : Path) (offset : ℤ) (realSize : ℕ) : Dav σ ρ ℤ :=
  if realSize < toUnsigned offset then
    davPut env srv path (List.replicate (toSize (offset - realSize)) 0) (toSsize realSize)
  else pure 0

/-- `dav_write` after a 416 (lines 162–177). -/
def writePadded (path : Path) (buf : Bytes) (offset : ℤ) : Dav σ ρ ℤ := do
  exceptionDestory
  let head ← davHead env srv path
  if head.1 ≠ 0 then pure head.1 else do
    let res ← writePadding env srv path offset head.2
    if res ≠ 0 then pure res else davPut env srv path buf offset

/-- The `do_once` of `dav_write` (lines 146–178), which leaves `res`. -/
def writeSteps (path : Path) (buf : Bytes) (offset : ℤ) : Dav σ ρ ℤ := do
  let res ← davPut env srv path buf offset
  if res = 0 then pure res
  else if ← Ctl.gets (·.ex.isHttp 416) then writePadded env srv path buf offset
  else pure res

/-- `dav_write` (lines 141–185). -/
def davWrite (path : Path) (buf : Bytes) (offset : ℤ) : Dav σ ρ ℤ := do
  let res ← writeSteps env srv path buf offset
  if res ≠ 0 then davExceptionMap else pure (toInt buf.length)

/-! ## Directories, names, properties -/

/-- `dav_mkdir` (lines 188–196). -/
def davMkdir (path : Path) : Dav σ ρ ℤ :=
  if srv.mkcol then do
    let _ ← davMkcol env srv path
    davExceptionCheck 0
  else pure (-eopnotsupp)

/-- `dav_rename` (lines 199–217); `RENAME_NOREPLACE` is `1`. -/
def davRename (from_ to_ : Path) (flags : ℕ) : Dav σ ρ ℤ :=
  if srv.move then
    match flags with
    | 0 => do
      let _ ← davMove env srv from_ to_
      davExceptionCheck 0
    | 1 => do
      let _ ← davMoveNooverwrite env srv from_ to_
      davExceptionCheck 0
    | _ => pure (-einval)
  else pure (-eopnotsupp)

/-- `dav_unlink` (lines 220–224), also installed as `rmdir`. -/
def davUnlink (path : Path) : Dav σ ρ ℤ := do
  let _ ← davDelete env srv path
  davExceptionCheck 0

/-- `snprintf(value, sizeof(value), "%o", mode)` into `char value[19]`. -/
def modeValue (mode : ℕ) : Text := snprintf 19 (Nat.toDigits 8 mode)

/-- `dav_chmod` (lines 227–233). -/
def davChmod (path : Path) (mode : ℕ) : Dav σ ρ ℤ := do
  let _ ← davProppatch env srv path ⟨some "N".toList, "mode".toList⟩ (some (modeValue mode))
  davExceptionCheck 0

/-- `snprintf(value, sizeof(value), "%d:%d", uid, gid)` into `char value[22]`. -/
def ownerValue (uid gid : ℕ) : Text :=
  snprintf 22 (showInt (toInt uid) ++ ':' :: showInt (toInt gid))

/-- `dav_chown` (lines 236–242). -/
def davChown (path : Path) (uid gid : ℕ) : Dav σ ρ ℤ := do
  let _ ← davProppatch env srv path ⟨some "N".toList, "owner".toList⟩ (some (ownerValue uid gid))
  davExceptionCheck 0

/-! ## Creating -/

/-- The body of the existence test: `throwable dav_head(...); return -EEXIST;`. -/
def probeBody (path : Path) : Dav σ ℤ Unit := do
  let _ ← throwable (davHead env srv path)
  Ctl.leave (.ret (-eexist))

/-- Its `catch (CurlException, e)`: rethrow what is not a 404 or a 403. -/
def probeCatch : Dav σ ρ Unit := do
  let e ← Ctl.gets (·.ex)
  if e.isHttp 404 || e.isHttp 403 then pure () else throw (pure ())

/-- The existence test, which `dav_mknod` (lines 252–259) and `dav_symlink` (lines
    285–292) both have: `try { ... } catch (CurlException, e) { ... } onerror (e) { }`. -/
def probe (path : Path) : Dav σ ℤ (Option Unit) :=
  tryCatch (probeBody env srv path) [catchType (·.isCurl) probeCatch, onerror (pure ())]

/-- The outer `try` body of `dav_mknod` (lines 251–261). -/
def mknodBody (path : Path) : Dav σ ℤ Unit := do
  let _ ← throwable (probe env srv path)
  let _ ← davPutSimple env srv path

/-- `onerror (e) { return dav_exception_map(); }`. -/
def returnMapped : Dav σ ℤ Unit := do
  let res ← davExceptionMap
  Ctl.leave (.ret res)

/-- `dav_mknod` (lines 245–266). `rdev` is not used. -/
def davMknod (path : Path) (mode : ℕ) (_rdev : ℕ) : Dav σ ρ ℤ :=
  Ctl.call (ρ := ℤ) (if isDir mode then pure (-einval) else do
    let _ ← tryCatch (mknodBody env srv path) [onerror returnMapped]
    davChmod env srv path mode)

/-- `dav_readlink` (lines 269–279): the result and `buf`. -/
def davReadlink (path : Path) (buf : Bytes) : Dav σ ρ (ℤ × Bytes) := do
  let r ← davRead env srv path (buf.take (buf.length - 1)) 0
  if r.1 < 0 then pure (r.1, buf)
  else pure (0, (r.2 ++ buf.drop (buf.length - 1)).set r.1.toNat 0)

/-- The `do_once` of `dav_symlink` (lines 294–304), which leaves `res`. -/
def symlinkSteps (from_ : Bytes) (to_ : Path) : Dav σ ℤ ℤ := do
  let res ← davMknod env srv to_ (sIFLNK ||| 0o777) 0
  if res ≠ 0 then pure res else do
    let res ← davWrite env srv to_ from_ 0
    if res < 0 then pure res else Ctl.leave (.ret 0)

/-- `try { dav_unlink(to); } catch (e) { Exception_fputs(e, stderr); }`. -/
def symlinkRollback (to_ : Path) : Dav σ ρ Unit := do
  let _ ← tryCatch (davUnlink env srv to_) [catchDefault (pure ())]

/-- `dav_symlink` (lines 282–312). -/
def davSymlink (from_ : Bytes) (to_ : Path) : Dav σ ρ ℤ :=
  Ctl.call (ρ := ℤ) (do
    let _ ← probe env srv to_
    let res ← symlinkSteps env srv from_ to_
    symlinkRollback env srv to_
    pure res)

/-! ## Truncating -/

/-- `dav_truncate` to `0` (lines 329–338). -/
def truncateZero (path : Path) (mode : ℕ) : Dav σ ρ ℤ := do
  let res ← davDelete env srv path
  if res ≠ 0 then davExceptionMap else do
    let res ← davPutSimple env srv path
    if res ≠ 0 then davExceptionMap else davChmod env srv path mode

/-- `dav_truncate` below half of the length (lines 346–355). -/
def truncateRewrite (path : Path) (size : ℤ) : Dav σ ρ ℤ := do
  let buf ← env.stackArray size.toNat
  let r ← davRead env srv path buf 0
  if r.1 ≠ 0 then pure r.1 else do
    let res ← davUnlink env srv path
    if res ≠ 0 then pure res else do
      let res ← davPut env srv path r.2 0
      davExceptionTest res

/-- `snprintf(s_size, sizeof(s_size), "%zd", size)` into `char s_size[11]`. -/
def sizeValue (size : ℤ) : Text := snprintf 11 (showInt size)

/-- `dav_truncate` to any other size (lines 356–360); the key has no namespace. -/
def truncateProp (path : Path) (size : ℤ) : Dav σ ρ ℤ := do
  let res ← davProppatch env srv path ⟨none, "size".toList⟩ (some (sizeValue size))
  davExceptionTest res

/-- `dav_truncate` to a size other than `0` (lines 340–361). -/
def truncateNonzero (path : Path) (size : ℤ) : Dav σ ρ ℤ := do
  let head ← davHead env srv path
  if head.1 ≠ 0 then davExceptionMap
  else if toUnsigned size < head.2 / 2 then truncateRewrite env srv path size
  else truncateProp env srv path size

/-- `dav_truncate` (lines 315–364). -/
def davTruncate (path : Path) (size : ℤ) : Dav σ ρ ℤ := do
  let st ← Ctl.gets fun t => env.stackStat t.mem.env
  let r ← davGetattr env srv path st
  if r.1 ≠ 0 then pure r.1
  else if r.2.size = size then pure 0
  else if size = 0 then truncateZero env srv path r.2.mode
  else truncateNonzero env srv path size

/-! ## Opening and closing -/

/-- The bits of `fi->flags` the callbacks test. -/
structure OpenFlags where
  wronly : Bool
  rdwr : Bool
  trunc : Bool
  creat : Bool
  deriving DecidableEq

/-- `fi->flags & O_WRONLY || fi->flags & O_RDWR`. -/
def OpenFlags.writes (fi : OpenFlags) : Bool := fi.wronly || fi.rdwr

/-- `__dav_open` (lines 368–374). -/
def davOpenCore (path : Path) : Dav σ ρ ℤ :=
  if srv.lock then do
    let res ← davLock env srv path
    davExceptionTest res
  else pure 0

/-- `if (fi->flags & O_TRUNC) res = dav_truncate(path, 0, fi)`. -/
def openTruncate (path : Path) (fi : OpenFlags) : Dav σ ρ ℤ :=
  if fi.trunc then davTruncate env srv path 0 else pure 0

/-- `dav_open` (lines 377–391). -/
def davOpen (path : Path) (fi : OpenFlags) : Dav σ ρ ℤ :=
  if fi.writes then do
    let res ← openTruncate env srv path fi
    if res = 0 ∨ (fi.creat = true ∧ res = -enoent) then davOpenCore env srv path else pure res
  else pure 0

/-- `dav_create` (lines 394–407). -/
def davCreate (path : Path) (mode : ℕ) (fi : OpenFlags) : Dav σ ρ ℤ := do
  let res ← davMknod env srv path mode 0
  if res ≠ 0 then pure res
  else if fi.writes then davOpenCore env srv path
  else pure res

/-- `dav_release` (lines 410–421): the result of `dav_unlock` is dropped. -/
def davRelease (path : Path) (fi : OpenFlags) : Dav σ ρ ℤ :=
  if srv.lock then
    if fi.writes then do
      let _ ← davUnlock env srv path
      pure 0
    else pure 0
  else pure 0

/-! ## `dav_copy_file_range` -/

/-- `struct stat st_out = {.st_size = 0}`. -/
def zeroStat : Stat := ⟨0, 0, 0, 0, 0, 0, 0, 0, 0⟩

/-- `if (sizeof(buf)) { res = dav_read(path_out, buf, sizeof(buf), offset, fi_out); ... }`:
    `res` and the array. -/
def saveOut (pathOut : Path) (size : ℕ) (offset : ℤ) : Dav σ ρ (ℤ × Bytes) := do
  let buf ← env.stackArray size
  if size = 0 then pure (0, buf) else davRead env srv pathOut buf offset

/-- `if (sizeof(buf)) { res = dav_write(path_out, buf, sizeof(buf), offset, fi_out); ... }`. -/
def restoreOut (pathOut : Path) (buf : Bytes) (offset : ℤ) : Dav σ ρ ℤ :=
  if buf.length = 0 then pure 0 else davWrite env srv pathOut buf offset

/-- The size of `file_out_after` (line 450); `+` and `-` are on `size_t`. -/
def afterSize (offsetOut : ℤ) (len : ℕ) (stSize : ℤ) : ℕ :=
  if toSize (offsetOut + len) < toUnsigned stSize then toSize (stSize - len - offsetOut) else 0

/-- `dav_copy_file_range` after both parts were saved (lines 459–476). -/
def copyAndRestore (pathIn pathOut : Path) (before after : Bytes) (offsetOut : ℤ) (len : ℕ) :
    Dav σ ρ ℤ := do
  let copied ← davCopy env srv pathIn pathOut
  let res ← davExceptionTest copied
  if res ≠ 0 then pure res else do
    let res ← restoreOut env srv pathOut before 0
    if res ≠ 0 then pure res else do
      let res ← restoreOut env srv pathOut after offsetOut
      if res ≠ 0 then pure res else pure (toSsize len)

/-- `dav_copy_file_range` after the size of the output is known (lines 440–476). -/
def copyRange (pathIn pathOut : Path) (offsetOut : ℤ) (len : ℕ) (stSize : ℤ) : Dav σ ρ ℤ :=
  if len < toUnsigned stSize / 2 then pure (-eopnotsupp) else do
    let before ← saveOut env srv pathOut offsetOut.toNat 0
    if before.1 ≠ 0 then pure before.1 else do
      let after ← saveOut env srv pathOut (afterSize offsetOut len stSize) offsetOut
      if after.1 ≠ 0 then pure after.1
      else copyAndRestore env srv pathIn pathOut before.2 after.2 offsetOut len

/-- `dav_copy_file_range` (lines 424–477). -/
def davCopyFileRange (pathIn : Path) (offsetIn : ℤ) (pathOut : Path) (offsetOut : ℤ) (len : ℕ) :
    Dav σ ρ ℤ :=
  if offsetIn ≠ offsetOut then pure (-eopnotsupp) else do
    let r ← davGetattr env srv pathOut zeroStat
    if r.1 ≠ 0 ∧ r.1 ≠ -enoent then pure r.1
    else copyRange env srv pathIn pathOut offsetOut len r.2.size

/-! ## The operations table -/

/-- A call of one of the callbacks `dav_getoper` installs (lines 502–538), with its
    arguments. -/
inductive Callback where
  | readdir (path : Path)
  | getattr (path : Path) (stbuf : Stat)
  | read (path : Path) (buf : Bytes) (offset : ℤ)
  | write (path : Path) (buf : Bytes) (offset : ℤ)
  | mkdir (path : Path)
  | rename (from_ to_ : Path) (flags : ℕ)
  | unlink (path : Path)
  | chmod (path : Path) (mode : ℕ)
  | chown (path : Path) (uid gid : ℕ)
  | mknod (path : Path) (mode rdev : ℕ)
  | readlink (path : Path) (buf : Bytes)
  | symlink (from_ : Bytes) (to_ : Path)
  | create (path : Path) (mode : ℕ) (fi : OpenFlags)
  | open_ (path : Path) (fi : OpenFlags)
  | release (path : Path) (fi : OpenFlags)
  | truncate (path : Path) (size : ℤ)
  | copyFileRange (pathIn : Path) (offsetIn : ℤ) (pathOut : Path) (offsetOut : ℤ) (len : ℕ)

/-- What the callback returns to libfuse. -/
def Callback.run : Callback → Dav σ ρ ℤ
  | .readdir path => davReaddir env srv path
  | .getattr path stbuf => Prod.fst <$> davGetattr env srv path stbuf
  | .read path buf offset => Prod.fst <$> davRead env srv path buf offset
  | .write path buf offset => davWrite env srv path buf offset
  | .mkdir path => davMkdir env srv path
  | .rename from_ to_ flags => davRename env srv from_ to_ flags
  | .unlink path => davUnlink env srv path
  | .chmod path mode => davChmod env srv path mode
  | .chown path uid gid => davChown env srv path uid gid
  | .mknod path mode rdev => davMknod env srv path mode rdev
  | .readlink path buf => Prod.fst <$> davReadlink env srv path buf
  | .symlink from_ to_ => davSymlink env srv from_ to_
  | .create path mode fi => davCreate env srv path mode fi
  | .open_ path fi => davOpen env srv path fi
  | .release path fi => davRelease env srv path fi
  | .truncate path size => davTruncate env srv path size
  | .copyFileRange pathIn offsetIn pathOut offsetOut len =>
    davCopyFileRange env srv pathIn offsetIn pathOut offsetOut len

end NetworkFs.Dav
