import NetworkFs.Dav.Method

/-!
# `dav_lock` and `dav_unlock`

Models of `__dav_lock`, `__dav_unlock`, `dav_lock` and `dav_unlock`
(`proto/dav/method.c` lines 473–711) as one thread runs them without
interference; `NetworkFs.Dav.LockTable` has the interleavings.
-/

namespace NetworkFs.Dav

open Control Grammar Wrapper Text

variable {σ ρ α : Type} (env : Env σ) (srv : DavServer)

/-! ## `__dav_lock` -/

/-- `strnrstrip(s, strlen(s))` (`common/utils.h` lines 12–19). -/
def strrstrip (s : Text) : Text := (s.reverse.dropWhile isSpace).reverse

/-- The token `__dav_lock_callback` takes from a header line (lines 477–485); an
    unbracketed token is taken as it is (lighttpd). -/
def lockTokenText (line : Text) : Option Text :=
  if "Lock-Token:".toList.isPrefixOf line then
    match strlstrip ((strrstrip line).drop "Lock-Token:".toList.length) with
    | '<' :: rest => some rest.dropLast
    | s => some s
  else none

/-- `__dav_lock_callback` (lines 473–491) on the token and one header line: the
    first token wins. -/
def davLockCallback (token : Option Text) (line : Text) : Dav σ ρ (Option Text) :=
  match token, lockTokenText line with
  | none, some s => do
    if ← outside (env.alloc .simpleString) then pure (some s) else do
      raise (.malloc "SimpleString")
      pure none
  | token, _ => pure token

/-- `xmlStrscmp(content, token) == 0`: `token` is at the start of `content`. An
    absent content equals only the empty token. -/
def xmlStrscmp (content : Option Text) (token : Text) : Bool :=
  match content with
  | some c => token.isPrefixOf c
  | none => token.isEmpty

/-- The loop over the children of `activelock` (lines 553–571), on `timeout` and
    on `locktoken` with its `href`. -/
def scanActivelock : List Node → Option Node → Option (Option Node) →
    Option Node × Option (Option Node)
  | [], timeout, locktoken => (timeout, locktoken)
  | n :: ns, none, locktoken =>
    scanActivelock ns (if n.name == "timeout".toList then some n else none) locktoken
  | n :: ns, some timeout, none =>
    scanActivelock ns (some timeout)
      (if n.name == "locktoken".toList then some (n.children.find? (·.name == "href".toList))
       else none)
  | _ :: _, some timeout, some locktoken => (some timeout, some locktoken)

/-- The loop over the children of `lockdiscovery` (lines 550–574): it looks at the
    first child only. The `href`, if all four pointers are set. -/
def scanLockdiscovery (lockdiscovery : Node) : Option Node := do
  let first ← lockdiscovery.firstChild
  if first.name = "activelock".toList then
    match scanActivelock first.children none none with
    | (some _, some href) => href
    | _ => none
  else none

/-- One round of the loop over the children of the root (lines 541–582). -/
def lockRound (token : Text) (lockdiscovery : Node) : Dav σ ρ Unit :=
  if lockdiscovery.name == "lockdiscovery".toList then
    match scanLockdiscovery lockdiscovery with
    | none => throw (raise (.unspecified "prop unexpected"))
    | some href => do
      let text ← Ctl.deref href.firstChild
      if xmlStrscmp text.content token then pure ()
      else throw (raise (.unspecified "lock href mismatched"))
  else pure ()

/-- After the request (lines 533–582): the token and the reply body. -/
def lockReply (token : Option Text) (xml : Option XmlCtxt) : Dav σ ρ (Option Text) :=
  match token with
  | none => do
    throw (raise (.unspecified "LOCK doesn't return a token"))
    pure none
  | some token => do
    match ← Ctl.deref xml with
    | .malformed => do
      throw (raise (.unspecified "Failed to parse"))
      pure none
    | .document root => do
      Ctl.forEach root.children (lockRound token)
      pure (some token)

/-- `curl_easy_perform_or_die(curl)` of `__dav_lock`: the header lines go to
    `__dav_lock_callback` before the code is tested. -/
def lockPerform (request : Request) : Dav σ ρ (Option Text × Option XmlCtxt) := do
  let reply ← curlEasyPerform env request
  let token ← reply.headers.foldlM (davLockCallback env) none
  performOrDie reply.code reply.status
  pure (token, reply.xml)

/-- The body of the `scope (curl_slist, list, "Timeout: Second-600")` of `__dav_lock`
    (lines 514–529). -/
def lockSend (path : Path) (list : List Header) : Dav σ ρ (Option Text × Option XmlCtxt) := do
  let list ← curlSlistAppendWeak env list .contentTypeXml
  curlEasySetoptOrDie env .customrequest
  lockPerform env ⟨.lock, path, list, none, .lockinfo⟩

/-- The `scope (curl_slist, list, "Timeout: Second-600")` of `__dav_lock` (lines
    513–530). -/
def lockScope (path : Path) : Dav σ ρ (Option (Option Text × Option XmlCtxt)) :=
  scopeList env .timeout (lockSend env path)

/-- The body of the `with (xmlParserCtxtPtr ctxt = NULL, ...)` of `__dav_lock`
    (lines 511–586). -/
def lockBody (path : Path) : Dav σ ρ (Option Text) := do
  let r ← throwable (withCurl env srv.options path (throwable (lockScope env path)))
  let r := r.join.getD (none, none)
  lockReply r.1 r.2

/-- `__dav_lock(server, path)` (lines 494–595). -/
def davLockCore (path : Path) : Dav σ ρ (Option Text) := do
  let token ← tryCatch (withBuffer (throwable (withBuffer (lockBody env srv path))))
    [onerror (pure ())]
  if ← Ctl.gets (·.ex.has) then pure none else pure token.join.join.join

/-- `__dav_unlock(server, path, token)` (lines 598–609). -/
def davUnlockCore (path : Path) (token : Text) : Dav σ ρ ℤ := do
  let _ ← withCurl env srv.options path do
    let _ ← throwable (scopeList env (.lockToken token) fun list =>
      setAndPerform env .customrequest ⟨.unlock, path, list, none, .none⟩)
  testSuccess

/-! ## `dav_lock` -/

/-- The read section of `dav_lock` (lines 618–624): was an entry found? -/
def lockFind (path : Path) : Dav σ ρ Bool := do
  match ← Ctl.gets (fun t => tfind path t.mem.table) with
  | none => pure false
  | some _ => do
    modifyMem fun m => { m with table := addCnt path 1 m.table }
    pure true

/-- `tsearch` and the check of its result (lines 650–652). -/
def lockEnter (path : Path) (token : Option Text) : Dav σ ρ Unit := do
  if ← outside (env.alloc .treeNode) then
    modifyMem fun m => { m with table := ⟨path, token.getD [], 1⟩ :: m.table, newToken := none }
  else throw (raise (.malloc "filelock table insert"))

/-- The write section of `dav_lock` (lines 639–652). -/
def lockInsert (path : Path) : Dav σ ρ Unit := do
  match ← Ctl.gets (fun t => tfind path t.mem.table) with
  | some _ => do
    modifyMem fun m => { m with table := addCnt path 1 m.table }
    Ctl.leave .brk
  | none => do
    let token ← throwable (davLockCore env srv path)
    modifyMem fun m => { m with newToken := token }
    lockEnter env path token

/-- The inner `onerror` of `dav_lock` (lines 654–659). -/
def lockRollback (path : Path) : Dav σ ρ Unit := do
  match ← Ctl.gets (·.mem.newToken) with
  | none => pure ()
  | some token => do
    let _ ← davUnlockCore env srv path token

/-- The inner `try` body of `dav_lock` (lines 633–653). -/
def lockFill (path : Path) : Dav σ ρ Unit := do
  let dup ← outside (env.alloc .pathDup)
  conditionThrow dup (raise (.malloc "path dup"))
  let _ ← throwable (synchronized wrlock (lockInsert env srv path))

/-- `throwable filelock = malloc_et(struct FileLock)`; the fields start as `NULL`. -/
def mallocFileLock : Dav σ ρ Unit := do
  if ← outside (env.alloc .fileLock) then modifyMem fun m => { m with newToken := none }
  else raise (.malloc "struct FileLock")

/-- The outer `try` body of `dav_lock` (lines 631–659). -/
def lockCreate (path : Path) : Dav σ ρ Unit := do
  throwable (mallocFileLock env)
  let _ ← tryCatch (lockFill env srv path) [onerror (lockRollback env srv path)]

/-- `dav_lock(server, path)` (lines 612–664). -/
def davLock (path : Path) : Dav σ ρ ℤ :=
  if srv.options.useLock then do
    let found ← synchronized rdlock (lockFind path)
    if found = some true then pure 0 else do
      let _ ← tryCatch (lockCreate env srv path) [onerror (pure ())]
      testSuccess
  else pure 0

/-! ## `dav_unlock` -/

/-- The read section of `dav_unlock` (lines 675–689): the entry, if its count
    went to zero. -/
def unlockDecrement (path : Path) : Dav σ ρ (Option FileLock) := do
  match ← Ctl.gets (fun t => tfind path t.mem.table) with
  | none => do
    raise (.unspecified "release cannot find file lock")
    Ctl.leave .brk
  | some filelock => do
    modifyMem fun m => { m with table := addCnt path (-1) m.table }
    pure (if filelock.cnt - 1 > 0 then none else some filelock)

/-- The write section of `dav_unlock` (lines 694–703): the `filelock` to free. It
    keeps the one from the read section when the entry is gone or in use again. -/
def unlockRemove (path : Path) (filelock : FileLock) : Dav σ ρ FileLock := do
  match ← Ctl.gets (fun t => tfind path t.mem.table) with
  | none => Ctl.leave .brk
  | some e =>
    if e.cnt ≤ 0 then do
      modifyMem fun m => { m with table := tdelete path m.table }
      pure e
    else pure filelock

/-- `dav_unlock(server, path)` (lines 667–711). -/
def davUnlock (path : Path) : Dav σ ρ ℤ :=
  if srv.options.useLock then do
    match ← synchronized rdlock (unlockDecrement path) with
    | none => pure 1
    | some none => pure 0
    | some (some filelock) => do
      let r ← synchronized wrlock (unlockRemove path filelock)
      let filelock := r.getD filelock
      davUnlockCore env srv filelock.path filelock.token
  else pure 0

/-! ## `dav_destory` -/

/-- `__dav_unlock_node(nodep)` (lines 805–809): what it frees. -/
def davUnlockNode (filelock : FileLock) : Dav σ ρ FileLock := do
  let _ ← davUnlockCore env srv filelock.path filelock.token
  pure filelock

/-- `dav_destory(server)` (lines 812–819): what it frees. `tdestroy` comes to the entries
    of the tree in the order `nodes`. -/
def davDestory (nodes : List FileLock) : Dav σ ρ (List FileLock) :=
  if srv.options.useLock then nodes.mapM (davUnlockNode env srv) else pure []

end NetworkFs.Dav
