import NetworkFs.Text.Numeral
import NetworkFs.Wrapper.Curl

/-!
# The DAV methods

Models of `proto/dav/method.c` except `dav_propfind`. Each method builds a handle
(`with_curl`), its header list (`scope (curl_slist, list)`) and one request, and
returns `TEST_SUCCESS`. The `with` over a `Buffer` that is only read never skips
its body by itself; it is kept because a pending exception skips it.

`buf`, `list` and `ctxt` are values here. What `curl_easy_setopt` sets without
`_or_die` cannot raise and is part of the `Request`.
-/

namespace NetworkFs.Dav

open Control Grammar Wrapper Text

variable {σ ρ α : Type} (env : Env σ) (srv : DavServer)

/-! ## The lock table -/

/-- `tfind(&path, &server->filelock_tree, __dav_strpcmp)`. -/
def tfind (path : Path) (table : List FileLock) : Option FileLock :=
  table.find? (·.path == path)

/-- `tdelete(&path, &server->filelock_tree, __dav_strpcmp)`. -/
def tdelete (path : Path) (table : List FileLock) : List FileLock :=
  table.eraseP (·.path == path)

/-- Add `d` to the `cnt` of the entry `tfind` gives. -/
def addCnt (path : Path) (d : ℤ) : List FileLock → List FileLock
  | [] => []
  | e :: es => if e.path == path then { e with cnt := e.cnt + d } :: es else e :: addCnt path d es

/-- `with (Buffer buf, Buffer(&buf, data, size, false), Buffer_destory(&buf)) body`
    and `scope (curl_slist, list) body`: the initialisation cannot fail. -/
def withBuffer (body : Dav σ ρ α) : Dav σ ρ (Option α) :=
  withSeperated (pure ()) (fun _ => pure ()) fun _ => body

/-- `scope (curl_slist, list, line) body`. -/
def scopeList (line : Header) (body : List Header → Dav σ ρ α) : Dav σ ρ (Option α) :=
  withSeperated (curlSlistAppendE env [] line) (fun _ => pure ()) body

/-- `if (lock_type == RW_LOCK_WRITE) { tdelete(...); delete(FileLock) filelock; }`. -/
def headerIfDelete (path : Path) (lockType : LockType) : Dav σ ρ Unit :=
  if lockType == .write then modifyMem fun m => { m with table := tdelete path m.table }
  else pure ()

/-- The part of `__dav_header_if` after `tfind` found `filelock` (lines 48–58);
    `list == NULL` after the append means that it failed. -/
def headerIfFound (list : List Header) (path : Path) (lockType : LockType) (filelock : FileLock) :
    Dav σ ρ (List Header) := do
  let list ← curlSlistAppendE env list (.ifToken filelock.token)
  if list.isEmpty then pure list else do
    headerIfDelete path lockType
    pure list

/-- `__dav_header_if(server, list, path, lock_type)` (lines 43–63). -/
def davHeaderIf (list : List Header) (path : Path) (lockType : LockType) :
    Dav σ ρ (List Header) := do
  match ← Ctl.gets (fun t => tfind path t.mem.table) with
  | none => pure list
  | some filelock => headerIfFound env list path lockType filelock

/-! ## `__dav_method` -/

/-- `server->options->use_lock && lock_type`. -/
def usesLock (lockType : LockType) : Bool := srv.options.useLock && lockType != .none

/-- The `switch (lock_type)` of `__dav_method` (lines 69–80). -/
def acquire (lockType : LockType) : Dav σ ρ Unit :=
  if usesLock srv lockType then
    match lockType with
    | .none => pure ()
    | .read => rdlock
    | .write => wrlock
  else pure ()

/-- `if (server->options->use_lock) pthread_rwlock_unlock(...)`. -/
def unlockIf (b : Bool) : Dav σ ρ Unit := if b then unlock else pure ()

/-- `if (server->options->use_lock && lock_type) throwable list = __dav_header_if(...)`. -/
def headerIfWhen (b : Bool) (list : List Header) (path : Path) (lockType : LockType) :
    Dav σ ρ (List Header) :=
  if b then throwable (davHeaderIf env list path lockType) else pure list

/-- Set an option, send the request, and throw unless it succeeded. -/
def setAndPerform (option : CurlOption) (request : Request) : Dav σ ρ Reply := do
  curlEasySetoptOrDie env option
  let reply ← curlEasyPerform env request
  performOrDie reply.code reply.status
  pure reply

/-- The `scope (curl_slist, list)` of `__dav_method` (lines 82–90). -/
def methodScope (path : Path) (method : Method) (lockType : LockType) : Dav σ ρ (Option Unit) :=
  withBuffer do
    let list ← headerIfWhen env (usesLock srv lockType) [] path lockType
    let _ ← setAndPerform env .customrequest ⟨method, path, list, none, .none⟩

/-- `__dav_method(server, path, method, lock_type)` (lines 66–97). -/
def davMethod (path : Path) (method : Method) (lockType : LockType) : Dav σ ρ ℤ := do
  let _ ← withCurl env srv.options path do
    acquire srv lockType
    let _ ← throwable (methodScope env srv path method lockType)
    unlockIf (usesLock srv lockType)
  testSuccess

/-- `dav_mkcol` (`method.h` lines 55–57). -/
def davMkcol (path : Path) : Dav σ ρ ℤ := davMethod env srv path .mkcol .none

/-- `dav_put_simple` (`method.h` lines 59–61): a `PUT` without a body. -/
def davPutSimple (path : Path) : Dav σ ρ ℤ := davMethod env srv path .put .read

/-- `dav_delete` (`method.h` lines 63–65). -/
def davDelete (path : Path) : Dav σ ρ ℤ := davMethod env srv path .delete .write

/-! ## `dav_head`, `dav_get`, `dav_put` -/

/-- `strlstrip` (`common/utils.h` lines 27–32). -/
def strlstrip (s : Text) : Text := s.dropWhile isSpace

/-- `"Content-Length:"` -/
def contentLength : Text := "Content-Length:".toList

/-- `__dav_head_callback` (lines 105–115) on `*sizep` and one header line. -/
def davHeadCallback (size : ℕ) (line : Text) : ℕ :=
  if contentLength.isPrefixOf line then
    toSize (strtol 10 (strlstrip (line.drop contentLength.length))).1
  else size

/-- `dav_head(server, path, sizep)` (lines 118–130): the result and `*sizep`. A
    caller that passes `NULL` does not look at the size. -/
def davHead (path : Path) : Dav σ ρ (ℤ × ℕ) := do
  let size ← withCurl env srv.options path do
    let reply ← setAndPerform env .customrequest ⟨.head, path, [], none, .none⟩
    pure (reply.headers.foldl davHeadCallback 0)
  let res ← testSuccess
  pure (res, size.getD 0)

/-- A fixed `Buffer` (`common/template/buffer.h`): the array and `offset`. -/
structure Buffer where
  data : Bytes
  offset : ℕ

/-- `Buffer_append` (`common/template/buffer.c` lines 24–37) on a fixed buffer,
    where `Buffer_resize` gives the old size: the number of bytes stored. -/
def bufferAppend (buf : Buffer) (chunk : Bytes) : ℕ × Buffer :=
  let nmemb := min chunk.length (buf.data.length - buf.offset)
  (nmemb, { data := buf.data.take buf.offset ++ chunk.take nmemb ++
              buf.data.drop (buf.offset + nmemb)
            offset := buf.offset + nmemb })

/-- libcurl hands the chunks to `Buffer_append` and stops with
    `CURLE_WRITE_ERROR` when one is not stored whole. -/
def bufferAppendAll (buf : Buffer) : List Bytes → Bool × Buffer
  | [] => (true, buf)
  | c :: cs =>
    let r := bufferAppend buf c
    if r.1 < c.length then (false, r.2) else bufferAppendAll r.2 cs

/-- `throwable with_range (range, offset, size) curl_easy_setopt_or_die(curl,
    CURLOPT_RANGE, range)`. -/
def setRange : Dav σ ρ Unit := do
  let _ ← throwable (withBuffer (curlEasySetoptOrDie env .range))

/-- The range `dav_get` asks for: none when `offset` and `size` are both `0`. -/
def getRange (data : Bytes) (offset : ℤ) : Option Range :=
  if offset = 0 ∧ data.length = 0 then none else some ⟨offset, data.length⟩

/-- `if (offset != 0 || size != 0) throwable with_range (...) ...`. -/
def setGetRange (data : Bytes) (offset : ℤ) : Dav σ ρ Unit :=
  if (getRange data offset).isSome then setRange env else pure ()

/-- `CURLE_WRITE_ERROR`. -/
def curleWriteError : CurlCode := .other 23

/-- The `with_curl` of `dav_get` (lines 136–145), which leaves the buffer. -/
def getBody (path : Path) (data : Bytes) (offset : ℤ) : Dav σ ρ Buffer := do
  setGetRange env data offset
  let reply ← curlEasyPerform env ⟨.get, path, [], getRange data offset, .none⟩
  let stored := bufferAppendAll ⟨data, 0⟩ reply.chunks
  -- the last statement: its `break` ends `with_curl` too, and what was stored stays
  let _ ← Ctl.doOnce (performOrDie (if stored.1 then reply.code else curleWriteError) reply.status)
  pure stored.2

/-- `dav_get(server, path, data, size, offset)` (lines 133–149), where `size` is
    the length of the array `data`: the result and the array afterwards. `res`
    is an `int`, and is not set when an exception was pending on entry. -/
def davGet (path : Path) (data : Bytes) (offset : ℤ) : Dav σ ρ (ℤ × Bytes) := do
  let uninitialised ← Ctl.gets fun t => env.stackInt t.mem.env
  let r ← withBuffer do
    let buf ← withCurl env srv.options path (getBody env path data offset)
    let failed ← Ctl.gets (·.ex.has)
    let buf := buf.getD ⟨data, 0⟩
    pure (if failed then (-1 : ℤ) else toInt buf.offset, buf.data)
  pure (r.getD (uninitialised, data))

/-- `if (use_lock) { rdlock; throwable list = __dav_header_if(...); }`. -/
def rdlockHeaderIf (list : List Header) (path : Path) : Dav σ ρ (List Header) :=
  if srv.options.useLock then do
    rdlock
    throwable (davHeaderIf env list path .read)
  else pure list

/-- The body of the `scope (curl_slist, list)` of `dav_put` (lines 155–172). -/
def putScope (path : Path) (data : Bytes) (offset : ℤ) : Dav σ ρ (Option Unit) :=
  withBuffer do
    let list ← rdlockHeaderIf env srv [] path
    setRange env
    let reply ← curlEasyPerform env ⟨.put, path, list, some ⟨offset, data.length⟩, .data data⟩
    performOrDie reply.code reply.status
    unlockIf srv.options.useLock

/-- `dav_put(server, path, data, size, offset)` (lines 152–176), where `size` is
    the length of `data`. -/
def davPut (path : Path) (data : Bytes) (offset : ℤ) : Dav σ ρ ℤ := do
  let _ ← withBuffer do
    let _ ← throwable (withCurl env srv.options path do
      let _ ← throwable (putScope env srv path data offset))
  testSuccess

/-! ## `__dav_move` and `dav_copy` -/

/-- The inner `with` of `__dav_header_destination` (lines 187–193). -/
def destinationLine (list : List Header) (path : Path) : Dav σ ρ (Option (List Header)) :=
  withSeperated (curlUrlGetOrDie env) (fun _ => pure ()) fun _ =>
    throwable (curlSlistAppendE env list (.destination path))

/-- The `scope (CURLU, path_uh, server->baseuh)` of `__dav_header_destination`
    (lines 182–194). Unlike `curl_easy_init_common` it sets also an empty path. -/
def destinationScope (list : List Header) (path : Path) :
    Dav σ ρ (Option (Option (List Header))) :=
  withSeperated (curlUrlDupE env) (fun _ => pure ()) fun _ => do
    curlUrlSetOrDie env (dropSlash path)
    throwable (destinationLine env list path)

/-- `__dav_header_destination(server, list, path)` (lines 179–200). -/
def davHeaderDestination (list : List Header) (path : Path) : Dav σ ρ (List Header) :=
  Ctl.call do
    let r ← tryCatch (throwable (destinationScope env list path)) [onerror (Ctl.leave (.ret []))]
    pure (r.join.join.getD list)

/-- `if (nooverwrite) throwable list = curl_slist_append_e(list, "Overwrite: F")`. -/
def overwriteLine (nooverwrite : Bool) (list : List Header) : Dav σ ρ (List Header) :=
  if nooverwrite then throwable (curlSlistAppendE env list .overwriteF) else pure list

/-- `if (tfind(&from, ...)) { unlock; wrlock; throwable list = __dav_header_if(from,
    RW_LOCK_WRITE); }` of `__dav_move` (lines 213–217). -/
def moveFromLine (list : List Header) (from_ : Path) : Dav σ ρ (List Header) := do
  match ← Ctl.gets (fun t => tfind from_ t.mem.table) with
  | none => pure list
  | some _ => do
    unlock
    wrlock
    throwable (davHeaderIf env list from_ .write)

/-- The `if (server->options->use_lock)` block of `__dav_move` (lines 211–219). -/
def moveLockLines (list : List Header) (from_ to_ : Path) : Dav σ ρ (List Header) :=
  if srv.options.useLock then do
    rdlock
    let list ← moveFromLine env list from_
    throwable (davHeaderIf env list to_ .read)
  else pure list

/-- The `scope (curl_slist, list)` of `__dav_move` (lines 205–227). -/
def moveScope (from_ to_ : Path) (nooverwrite : Bool) : Dav σ ρ (Option Unit) :=
  withBuffer do
    let list ← throwable (davHeaderDestination env [] to_)
    let list ← overwriteLine env nooverwrite list
    let list ← moveLockLines env srv list from_ to_
    let _ ← setAndPerform env .customrequest ⟨.move, from_, list, none, .none⟩
    unlockIf srv.options.useLock

/-- `__dav_move(server, from, to, nooverwrite)` (lines 203–230). -/
def davMoveCore (from_ to_ : Path) (nooverwrite : Bool) : Dav σ ρ ℤ := do
  let _ ← withCurl env srv.options from_ do
    let _ ← throwable (moveScope env srv from_ to_ nooverwrite)
  testSuccess

/-- `dav_move` (`method.h` lines 73–75). -/
def davMove (from_ to_ : Path) : Dav σ ρ ℤ := davMoveCore env srv from_ to_ false

/-- `dav_move_nooverwrite` (`method.h` lines 77–79). -/
def davMoveNooverwrite (from_ to_ : Path) : Dav σ ρ ℤ := davMoveCore env srv from_ to_ true

/-- The `scope (curl_slist, list)` of `dav_copy` (lines 239–252). -/
def copyScope (from_ to_ : Path) : Dav σ ρ (Option Unit) :=
  withBuffer do
    let list ← throwable (davHeaderDestination env [] to_)
    let list ← rdlockHeaderIf env srv list to_
    let _ ← setAndPerform env .customrequest ⟨.copy, from_, list, none, .none⟩
    unlockIf srv.options.useLock

/-- `dav_copy(server, from, to)` (lines 237–255). -/
def davCopy (from_ to_ : Path) : Dav σ ρ ℤ := do
  let _ ← withCurl env srv.options from_ do
    let _ ← throwable (copyScope env srv from_ to_)
  testSuccess

/-! ## `dav_proppatch` -/

/-- `dav_proppatch(server, path, key, value)` (lines 438–470). -/
def davProppatch (path : Path) (key : XmlName) (value : Option Text) : Dav σ ρ ℤ := do
  let _ ← withBuffer do
    let _ ← throwable (withCurl env srv.options path do
      let _ ← throwable (scopeList env .contentTypeXml fun list => do
        let list ← curlSlistAppendWeak env list .preferMinimal
        let _ ← setAndPerform env .customrequest
          ⟨.proppatch, path, list, none, .propertyupdate key value⟩))
  testSuccess

end NetworkFs.Dav
