import NetworkFs.Control.Simulate
import NetworkFs.Dav.Callbacks
import NetworkFs.Data.Splice

/-!
# What a mount is for

A file system of files and links without directories, as POSIX has it, and what each call does to
it. Nothing here is about requests or servers, and the only source it follows is the meaning of the
calls; `Dav/Session.lean` relates it to the callbacks.

* `FileCall`: a call on files, and what libfuse takes from the callback.
* `FileCall.spec`: what the call answers, and the file system afterwards.
* `FileCall.Covered`: the calls that the callbacks get right.
-/

namespace NetworkFs.Dav

open Control Grammar Data

/-! ## The calls -/

/-- A call on files, with its arguments. An `offset` or a `size` is not negative. -/
inductive FileCall where
  | getattr (path : Path) (stbuf : Stat)
  | read (path : Path) (buf : Bytes) (offset : ℕ)
  | write (path : Path) (buf : Bytes) (offset : ℕ)
  | rename (from_ to_ : Path) (flags : ℕ)
  | unlink (path : Path)
  | chmod (path : Path) (mode : ℕ)
  | chown (path : Path) (uid gid : ℕ)
  | mknod (path : Path) (mode rdev : ℕ)
  | readlink (path : Path) (buf : Bytes)
  | symlink (target : Bytes) (path : Path)
  | create (path : Path) (mode : ℕ) (fi : OpenFlags)
  | open_ (path : Path) (fi : OpenFlags)
  | release (path : Path) (fi : OpenFlags)
  | truncate (path : Path) (size : ℕ)

/-- The callback that is called. -/
def FileCall.callback : FileCall → Callback
  | getattr path stbuf => .getattr path stbuf
  | read path buf offset => .read path buf offset
  | write path buf offset => .write path buf offset
  | rename from_ to_ flags => .rename from_ to_ flags
  | unlink path => .unlink path
  | chmod path mode => .chmod path mode
  | chown path uid gid => .chown path uid gid
  | mknod path mode rdev => .mknod path mode rdev
  | readlink path buf => .readlink path buf
  | symlink target path => .symlink target path
  | create path mode fi => .create path mode fi
  | open_ path fi => .open_ path fi
  | release path fi => .release path fi
  | truncate path size => .truncate path size

/-- What a call gives besides its result. -/
inductive Output where
  | nothing
  | attributes (mode uid gid : ℕ) (size : ℤ)
  | data (bytes : Bytes)
  deriving DecidableEq

/-- What a call gives: its result, and the output. -/
abbrev Answer := ℤ × Output

/-- Nothing but a result. -/
def bare (result : ℤ) : Answer := (result, .nothing)

/-- A negative `errno`. -/
def failed (errno : ℤ) : Answer := bare (-errno)

/-- Zero. -/
def done : Answer := bare 0

section Answer

variable {σ ρ : Type} (env : Env σ) (srv : DavServer)

/-- What libfuse takes of `*stbuf`. -/
def attrAnswer (r : ℤ × Stat) : Answer :=
  (r.1, if r.1 = 0 then .attributes r.2.mode r.2.uid r.2.gid r.2.size else .nothing)

/-- What libfuse takes of `buf` after a `read`. -/
def readAnswer (r : ℤ × Bytes) : Answer :=
  (r.1, if r.1 < 0 then .nothing else .data (r.2.take r.1.toNat))

/-- The string in `buf` after a `readlink`. -/
def linkAnswer (r : ℤ × Bytes) : Answer :=
  (r.1, if r.1 = 0 then .data (r.2.takeWhile (· ≠ 0)) else .nothing)

/-- The call as the callback serves it. -/
def FileCall.answer : FileCall → Dav σ ρ Answer
  | getattr path stbuf => attrAnswer <$> davGetattr env srv path stbuf
  | read path buf offset => readAnswer <$> davRead env srv path buf offset
  | readlink path buf => linkAnswer <$> davReadlink env srv path buf
  | c => bare <$> c.callback.run env srv

/-- The result is that of the callback. -/
theorem FileCall.fst_answer (c : FileCall) :
    Prod.fst <$> (c.answer env srv : Dav σ ρ Answer) = c.callback.run env srv := by
  cases c with
  | getattr | read | readlink =>
    simp only [answer, callback, Callback.run, Functor.map_map, attrAnswer, readAnswer, linkAnswer]
  | _ => simp only [answer, Functor.map_map, bare, id_map']

end Answer

/-! ## The file system -/

/-- A file. -/
structure Inode where
  content : Bytes
  mode : ℕ
  uid : ℕ
  gid : ℕ
  deriving DecidableEq

/-- The files by their paths. -/
abbrev FileSystem := Path → Option Inode

namespace FileSystem

/-- The file at `path` is `i` now. -/
def change (fs : FileSystem) (path : Path) (i : Option Inode) : FileSystem :=
  Function.update fs path i

/-- A call on a file that has to be there. -/
def onFile (fs : FileSystem) (path : Path) (f : Inode → Answer × FileSystem) : Answer × FileSystem :=
  match fs path with
  | none => (failed enoent, fs)
  | some i => f i

/-- A call that makes a file. -/
def make (fs : FileSystem) (path : Path) (i : Inode) : Answer × FileSystem :=
  match fs path with
  | none => (done, fs.change path (some i))
  | some _ => (failed eexist, fs)

/-- A file that is made cannot be a directory. -/
def makeNode (o : Opts) (fs : FileSystem) (path : Path) (mode : ℕ) : Answer × FileSystem :=
  if isDir mode then (failed einval, fs) else fs.make path ⟨[], mode, o.uid, o.gid⟩

/-- The file gets another length. -/
def setLength (fs : FileSystem) (path : Path) (size : ℕ) : Answer × FileSystem :=
  fs.onFile path fun i =>
    (done, fs.change path (some { i with content := (extend 0 size i.content).take size }))

end FileSystem

/-- What the call answers, and the file system afterwards. -/
def FileCall.spec (o : Opts) : FileCall → FileSystem → Answer × FileSystem
  | getattr path _, fs => fs.onFile path fun i =>
    ((0, .attributes i.mode i.uid i.gid i.content.length), fs)
  | read path buf offset, fs => fs.onFile path fun i =>
    ((((i.content.drop offset).take buf.length).length,
      .data ((i.content.drop offset).take buf.length)), fs)
  | write path buf offset, fs => fs.onFile path fun i =>
    (bare buf.length,
      fs.change path (some { i with content := splice 0 i.content offset buf }))
  | rename from_ to_ flags, fs =>
    if 2 ≤ flags then (failed einval, fs)
    else fs.onFile from_ fun i =>
      if flags = 1 ∧ (fs to_).isSome = true then (failed eexist, fs)
      else (done, (fs.change from_ none).change to_ (some i))
  | unlink path, fs => fs.onFile path fun _ => (done, fs.change path none)
  | chmod path mode, fs => fs.onFile path fun i => (done, fs.change path (some { i with mode := mode }))
  | chown path uid gid, fs => fs.onFile path fun i =>
    (done, fs.change path (some { i with uid := uid, gid := gid }))
  | mknod path mode _, fs => fs.makeNode o path mode
  | readlink path buf, fs => fs.onFile path fun i =>
    ((0, .data ((i.content.take (buf.length - 1)).takeWhile (· ≠ 0))), fs)
  | symlink target path, fs => fs.make path ⟨target, sIFLNK ||| 0o777, o.uid, o.gid⟩
  | create path mode _, fs => fs.makeNode o path mode
  | open_ path fi, fs => fs.onFile path fun _ =>
    if fi.writes && fi.trunc then fs.setLength path 0 else (done, fs)
  | release _ _, fs => (done, fs)
  | truncate path size, fs => fs.setLength path size

/-! ## What is covered -/

/-- To be emptied, a file must be empty already, or belong to whom a new file would: it is made
    anew. -/
def CanEmpty (o : Opts) (i : Inode) : Prop := i.content = [] ∨ (i.uid = o.uid ∧ i.gid = o.gid)

/-- The calls that are covered: lengths and modes within the types of the source, no devices, a file
    to be opened or written to is there, and none of the cases in which a callback does something
    else than is asked for. -/
def FileCall.Covered (o : Opts) : FileCall → FileSystem → Prop
  | read _ buf _, _ => 1 ≤ buf.length ∧ buf.length < 2 ^ 31
  | write path buf offset, fs => 1 ≤ buf.length ∧ buf.length < 2 ^ 31 ∧
    offset + buf.length < 2 ^ 63 ∧
    ∃ i, fs path = some i ∧ (offset ≤ i.content.length ∨ i.content.length < offset % 2 ^ 32)
  | rename from_ to_ _, _ => from_ ≠ to_
  | chmod _ mode, _ => mode < 2 ^ 32
  | chown _ uid gid, _ => uid < 2 ^ 32 ∧ gid = 0
  | mknod _ mode _, _ => mode < 2 ^ 32 ∧ isDevice mode = false
  | readlink _ buf, _ => 2 ≤ buf.length ∧ buf.length < 2 ^ 31
  | symlink target _, _ => target.length < 2 ^ 31
  | create _ mode _, _ => mode < 2 ^ 32
  | open_ path fi, fs => ∃ i, fs path = some i ∧ (fi.writes = true → fi.trunc = true → CanEmpty o i)
  | truncate path size, fs => ∀ i, fs path = some i →
    size = i.content.length ∨ (size = 0 ∧ CanEmpty o i)
  | _, _ => True

end NetworkFs.Dav
