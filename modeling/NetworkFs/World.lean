import NetworkFs.Grammar.Try

/-!
# What the DAV client reads and writes

* The thread's memory `Mem σ`: the locks it holds on `filelock_tree_lock`, the
  lock table, the requests it has sent, and the state `σ` of everything outside.
* `Env σ`: the outside as functions on `σ`: allocation, libcurl, the server,
  `strptime`, and the contents of uninitialised stack memory. A theorem for
  every `Env` and every `σ` is a theorem for every sequence of outcomes, also
  for outcomes that depend on what was asked before.

Paths and file contents are byte strings; header lines, XML names and XML texts
are lists of characters. A request carries the FUSE path it was built from; the
URL text of a path is `NetworkFs.Url`.
-/

namespace NetworkFs

open Control Grammar

abbrev Byte := UInt8
abbrev Bytes := List Byte

/-- A FUSE path. -/
abbrev Path := Bytes

/-- A NUL-terminated text, without its NUL. -/
abbrev Text := List Char

/-! ## Machine integers -/

/-- Conversion to `int`. -/
def toInt (x : ℤ) : ℤ := x.bmod (2 ^ 32)

/-- Conversion to `unsigned`, also to `mode_t`, `uid_t` and `gid_t`. -/
def toUnsigned (x : ℤ) : ℕ := (x % 2 ^ 32).toNat

/-- Conversion to `size_t`. -/
def toSize (x : ℤ) : ℕ := (x % 2 ^ 64).toNat

/-- Conversion to `ssize_t` and `off_t`. -/
def toSsize (x : ℤ) : ℤ := x.bmod (2 ^ 64)

theorem toInt_natCast {n : ℕ} (h : n < 2 ^ 31) : toInt n = n := by
  rw [toInt, Int.bmod_eq_of_le] <;> omega

theorem toUnsigned_natCast (n : ℕ) : toUnsigned n = n % 2 ^ 32 := by
  unfold toUnsigned
  omega

theorem toUnsigned_natCast_le (n : ℕ) : toUnsigned n ≤ n := by
  rw [toUnsigned_natCast]
  exact Nat.mod_le n (2 ^ 32)

theorem toSize_natCast_sub {m n : ℕ} (h : n ≤ m) (hm : m < 2 ^ 64) : toSize ((m : ℤ) - n) = m - n := by
  unfold toSize
  omega

theorem toSsize_natCast {n : ℕ} (h : n < 2 ^ 63) : toSsize n = n := by
  rw [toSsize, Int.bmod_eq_of_le] <;> omega

/-! ## XML documents -/

/-- A node as libxml2 builds it. `ns` is `node->ns->href`, absent when the node
    has no namespace; `content` is absent on elements; `properties` are the
    attributes with the nodes of their values. -/
inductive Node where
  | mk (name : Text) (ns : Option Text) (content : Option Text)
      (properties : List (Text × List Node)) (children : List Node)

namespace Node

def name : Node → Text
  | mk n _ _ _ _ => n

def ns : Node → Option Text
  | mk _ n _ _ _ => n

def content : Node → Option Text
  | mk _ _ c _ _ => c

def properties : Node → List (Text × List Node)
  | mk _ _ _ p _ => p

def children : Node → List Node
  | mk _ _ _ _ c => c

/-- `node->children`, the pointer to the first child. -/
def firstChild (n : Node) : Option Node := n.children.head?

end Node

/-- The parser context after the last chunk: `ctxt->wellFormed` with the root
    element, or not well formed. -/
inductive XmlCtxt where
  | malformed
  | document (root : Node)

/-! ## Requests and replies -/

/-- The methods the client sends. -/
inductive Method where
  | options
  | head
  | get
  | put
  | delete
  | mkcol
  | move
  | copy
  | propfind
  | proppatch
  | lock
  | unlock
  deriving DecidableEq

/-- An XML name as it is written: an optional namespace abbreviation and the
    local name, `N:mode` or `size`. -/
structure XmlName where
  abbr : Option Text
  loc : Text
  deriving DecidableEq

/-- The header lines the client adds. -/
inductive Header where
  /-- `If: (<token>)` -/
  | ifToken (token : Text)
  /-- `Destination: url` for the URL of a path -/
  | destination (path : Path)
  /-- `Overwrite: F` -/
  | overwriteF
  /-- `Depth: n` -/
  | depth (n : ℤ)
  /-- `Prefer: return=minimal` -/
  | preferMinimal
  /-- `Content-Type: application/xml; charset="utf-8"` -/
  | contentTypeXml
  /-- `Timeout: Second-600` -/
  | timeout
  /-- `Lock-Token: <token>` -/
  | lockToken (token : Text)
  deriving DecidableEq

/-- The interval `with_range` is given: `size` bytes from `offset`. -/
structure Range where
  offset : ℤ
  size : ℕ
  deriving DecidableEq

/-- What the client sends with a request: bytes, or one of its XML documents. -/
inductive Body where
  | none
  /-- The bytes of a file. -/
  | data (d : Bytes)
  /-- The constant `propfind_body`. -/
  | propfind
  /-- `proppatch_body`: set `key` to the value, or remove it. -/
  | propertyupdate (key : XmlName) (value : Option Text)
  /-- The constant `lock_body`. -/
  | lockinfo
  deriving DecidableEq

/-- One request, as it is handed to libcurl. The path stands for the URL made of it. -/
structure Request where
  method : Method
  path : Path
  headers : List Header
  range : Option Range
  body : Body
  deriving DecidableEq

/-- What one `curl_easy_perform` yields: its code, the status, the header lines
    and the body in the chunks given to the callbacks, the effective URL, and
    the parser context after the body (`none` if the body was empty). -/
structure Reply where
  code : CurlCode
  status : ℕ
  headers : List Text
  chunks : List Bytes
  effectiveUrl : Text
  xml : Option XmlCtxt

/-! ## The server record -/

/-- The fields of `struct networkfs_opts` the DAV client reads. A pointer or
    number that is only tested is a `Bool`. -/
structure Opts where
  useLock : Bool
  uid : ℕ
  gid : ℕ
  fmask : ℕ
  dmask : ℕ
  interface : Bool
  proxy : Bool
  proxytype : Bool
  proxyauth : Bool
  useSsl : Bool
  sslVersion : Bool
  noVerifyHostname : Bool
  cacert : Bool
  capath : Bool
  ciphers : Bool
  timeout : Bool
  connectTimeout : Bool

/-- The fields of `struct DavServer` that do not change between callbacks. -/
structure DavServer where
  options : Opts
  lock : Bool
  move : Bool
  mkcol : Bool

/-- `enum LockType`. -/
inductive LockType where
  | none
  | read
  | write
  deriving DecidableEq

/-- `struct FileLock` as an entry of the lock table. -/
structure FileLock where
  path : Path
  token : Text
  cnt : ℤ
  deriving DecidableEq

/-- `struct stat`. -/
@[ext]
structure Stat where
  mode : ℕ
  nlink : ℕ
  uid : ℕ
  gid : ℕ
  rdev : ℕ
  size : ℤ
  atime : ℤ
  mtime : ℤ
  ctime : ℤ
  deriving DecidableEq

/-! ## Memory and outside -/

/-- How a thread holds a rwlock. -/
inductive RwMode where
  | rd
  | wr
  deriving DecidableEq

/-- The memory a call of the DAV client works on. -/
structure Mem (σ : Type) where
  /-- The holds this thread has on `filelock_tree_lock`, last one first. -/
  held : List RwMode
  /-- `filelock_tree`. -/
  table : List FileLock
  /-- `token` of the `FileLock` that `dav_lock` has allocated and not yet
      entered in the table. -/
  newToken : Option Text
  /-- The requests sent so far. -/
  sent : List Request
  /-- The `struct stat` a `dav_getattr` fills. -/
  stbuf : Stat
  /-- The entries a `dav_readdir` passed to its filler. -/
  entries : List (Text × Option Stat)
  env : σ

/-- What is allocated or created outside the model and can fail. -/
inductive Alloc where
  | handle
  | urlDup
  | slist
  | fileLock
  | pathDup
  | treeNode
  | simpleString
  deriving DecidableEq

/-- The options that are set with `curl_easy_setopt_or_die`. -/
inductive CurlOption where
  | url
  | username
  | password
  | interface
  | proxy
  | proxytype
  | proxyauth
  | proxyuserpwd
  | useSsl
  | sslversion
  | sslVerifyhost
  | cainfo
  | capath
  | sslCipherList
  | sslcert
  | sslcerttype
  | sslkey
  | sslkeytype
  | sslkeypasswd
  | timeout
  | connecttimeout
  | useragent
  | customrequest
  | range
  deriving DecidableEq

/-- The two formats `xmlParserTimeNode` knows. -/
inductive TimeFormat where
  | tz
  | rfc1123
  deriving DecidableEq

/-- The outside of the client. -/
structure Env (σ : Type) where
  alloc : Alloc → Attempt σ
  /-- `curl_url_set` of the URL: a `CURLUcode` on failure. -/
  urlSet : Path → σ → Option ℕ × σ
  /-- `curl_url_get` of the URL: a `CURLUcode` on failure. -/
  urlGet : σ → Option ℕ × σ
  /-- `curl_easy_setopt`: a `CURLcode` on failure. -/
  setopt : CurlOption → σ → Option ℕ × σ
  perform : Request → σ → Reply × σ
  /-- `curl_easy_unescape`. -/
  unescape : Text → σ → Option Text × σ
  /-- `mktime(&tm) - timezone` after `strptime`, if `strptime` succeeds. -/
  strptime : TimeFormat → Text → σ → Option ℤ
  /-- The bytes an uninitialised array holds. -/
  stackByte : σ → ℕ → Byte
  /-- What an uninitialised `struct stat` holds. -/
  stackStat : σ → Stat
  /-- What an uninitialised `int` holds. -/
  stackInt : σ → ℤ

/-- A statement of the DAV client. -/
abbrev Dav (σ ρ α : Type) := Ctl (Thread (Mem σ)) ρ α

variable {σ ρ α : Type}

/-- Ask the outside. -/
def outside (f : σ → α × σ) : Dav σ ρ α :=
  Ctl.ask fun t => ((f t.mem.env).1, { t with mem := { t.mem with env := (f t.mem.env).2 } })

/-- Change the memory. -/
def modifyMem (f : Mem σ → Mem σ) : Dav σ ρ Unit := Ctl.modify fun t => { t with mem := f t.mem }

/-- An uninitialised array of `n` bytes. -/
def Env.stackArray (env : Env σ) (n : ℕ) : Dav σ ρ Bytes :=
  Ctl.gets fun t => (List.range n).map (env.stackByte t.mem.env)

/-! ## `filelock_tree_lock` -/

/-- `while (pthread_rwlock_rdlock(&server->filelock_tree_lock));` never ends for a
    thread that holds the lock for writing. -/
def rdlock : Dav σ ρ Unit := do
  if ← Ctl.gets (·.mem.held.contains .wr) then Ctl.leave .fault
  else modifyMem fun m => { m with held := .rd :: m.held }

/-- `while (pthread_rwlock_wrlock(&server->filelock_tree_lock));` never ends for a
    thread that holds the lock. -/
def wrlock : Dav σ ρ Unit := do
  match ← Ctl.gets (·.mem.held) with
  | [] => modifyMem fun m => { m with held := .wr :: m.held }
  | _ :: _ => Ctl.leave .fault

/-- `pthread_rwlock_unlock(&server->filelock_tree_lock)`; to release a lock that
    is not held is undefined. -/
def unlock : Dav σ ρ Unit := do
  match ← Ctl.gets (·.mem.held) with
  | [] => Ctl.leave .fault
  | _ :: held => modifyMem fun m => { m with held := held }

/-- `synchronized (rwlock, &server->filelock_tree_lock, action) body`
    (`common/grammar/synchronized.h` lines 9–10). -/
def synchronized (action : Dav σ ρ Unit) (body : Dav σ ρ α) : Dav σ ρ (Option α) :=
  withTest action (fun _ => true) (fun _ => unlock) (fun _ => body)

end NetworkFs
