import NetworkFs.Dav.Method

/-!
# `dav_propfind`

Model of `dav_propfind` (`proto/dav/method.c` lines 258–435) and of
`xmlParserTimeNode` (`proto/dav/parser.c` lines 18–48). The scans over children
are pure; where the code dereferences a pointer that may be absent they return
`none`, and `Ctl.deref` turns that into a fault.
-/

namespace NetworkFs.Dav

open Control Grammar Wrapper Text

variable {σ ρ α : Type} (env : Env σ) (srv : DavServer)

/-! ## Modes -/

def sIFMT : ℕ := 0o170000
def sIFREG : ℕ := 0o100000
def sIFDIR : ℕ := 0o040000
def sIFLNK : ℕ := 0o120000
def sIFCHR : ℕ := 0o020000
def sIFBLK : ℕ := 0o060000

/-- `S_ISCHR(m) || S_ISBLK(m)`. -/
def isDevice (mode : ℕ) : Bool := mode &&& sIFMT == sIFCHR || mode &&& sIFMT == sIFBLK

/-- `S_ISDIR(m)`. -/
def isDir (mode : ℕ) : Bool := mode &&& sIFMT == sIFDIR

/-- `mode & ~mask`. -/
def maskMode (mode mask : ℕ) : ℕ := mode &&& (2 ^ 32 - 1 - mask % 2 ^ 32)

/-! ## Times -/

/-- The format named by the `dt` attribute's value, after `dateTime.`. -/
def timeFormat (datetime : Text) : Option TimeFormat :=
  if "dateTime.".toList.isPrefixOf datetime then
    let name := datetime.drop "dateTime.".toList.length
    if "tz".toList.isPrefixOf name then some .tz
    else if "rfc1123".toList.isPrefixOf name then some .rfc1123
    else none
  else none

/-- `xmlParserTimeNode(node)`: the first attribute `dt` decides; whatever is
    missing gives `0`. -/
def xmlParserTimeNode (strptime : TimeFormat → Text → Option ℤ) (node : Node) : ℤ :=
  let result : Option ℤ := do
    let attr ← node.properties.find? (fun a => a.1 == "dt".toList)
    let datetime ← attr.2.head?
    let format ← timeFormat (← datetime.content)
    let text ← node.firstChild
    strptime format (← text.content)
  result.getD 0

/-! ## Scanning a `response` -/

/-- `xmlStrcmp(status->children->content, BAD_CAST "HTTP/1.1 200 OK") == 0`, with
    `status->children` not `NULL`. -/
def statusOk (status : Node) : Bool :=
  match status.firstChild with
  | none => false
  | some text => text.content == some "HTTP/1.1 200 OK".toList

/-- The loop over the children of a `propstat` (lines 334–346), on `prop` and
    `status`. -/
def scanPropstat : List Node → Option Node → Option Node → Option Node × Option Node
  | [], prop, status => (prop, status)
  | n :: ns, none, status => scanPropstat ns (if n.name == "prop".toList then some n else none) status
  | n :: ns, some prop, none =>
    scanPropstat ns (some prop) (if n.name == "status".toList then some n else none)
  | _ :: _, some prop, some status => (some prop, some status)

/-- The pointers the loop over the children of a `response` sets; `propstat`
    comes with its `prop` and `status`. -/
structure ResponseScan where
  href : Option Node
  propstat : Option (Option Node × Node)

/-- The loop over the children of a `response` (lines 324–357). It dereferences
    `status` of every `propstat` it looks at, and forgets a `propstat` whose
    status is not OK. -/
def scanResponse : List Node → ResponseScan → Option ResponseScan
  | [], scan => some scan
  | n :: ns, ⟨none, propstat⟩ =>
    scanResponse ns ⟨if n.name == "href".toList then some n else none, propstat⟩
  | n :: ns, ⟨some href, none⟩ =>
    if n.name == "propstat".toList then
      match scanPropstat n.children none none with
      | (_, none) => none
      | (prop, some status) =>
        scanResponse ns ⟨some href, if statusOk status then some (prop, status) else none⟩
    else scanResponse ns ⟨some href, none⟩
  | _ :: _, ⟨some href, some propstat⟩ => some ⟨some href, some propstat⟩

/-! ## Decoding the properties -/

/-- `prop_entry->children->content`. -/
def entryText (entry : Node) : Option Text := entry.firstChild.bind Node.content

/-- `st` before the properties (lines 360–365). -/
def initialStat (o : Opts) : Stat where
  mode := maskMode (sIFREG ||| 0o777) o.fmask
  nlink := 1
  uid := o.uid
  gid := o.gid
  rdev := 0
  size := 0
  atime := 0
  mtime := 0
  ctime := 0

/-- One round of the first loop over the properties (lines 367–385). -/
def davProp (o : Opts) (time : Node → ℤ) (st : Stat) (entry : Node) : Option Stat := do
  let ns ← entry.ns
  if ns ≠ "DAV:".toList then some st
  else if entry.name = "getcontentlength".toList then
    some { st with size := (strtol 10 (← entryText entry)).1 }
  else if entry.name = "resourcetype".toList then
    if entry.firstChild.map Node.name = some "collection".toList then
      some { st with mode := maskMode (sIFDIR ||| 0o777) o.dmask, nlink := 2 }
    else some st
  else if entry.name = "creationdate".toList then some { st with ctime := time entry }
  else if entry.name = "getlastmodified".toList then some { st with mtime := time entry }
  else some st

/-- `mode`: `strtol(content, &rdev, 8)`, and for a device `strtol(rdev, NULL, 10)`. -/
def setMode (st : Stat) (content : Text) : Stat :=
  let m := strtol 8 content
  if isDevice (toUnsigned m.1) then
    { st with mode := toUnsigned m.1, rdev := toSize (strtol 10 m.2).1 }
  else { st with mode := toUnsigned m.1 }

/-- `owner`: `strtol(content, &gid, 10)` and `strtol(gid, NULL, 10)`. -/
def setOwner (st : Stat) (content : Text) : Stat :=
  let u := strtol 10 content
  { st with uid := toUnsigned u.1, gid := toUnsigned (strtol 10 u.2).1 }

/-- `time`: three numbers in a row. -/
def setTime (st : Stat) (content : Text) : Stat :=
  let c := strtol 10 content
  let m := strtol 10 c.2
  { st with ctime := c.1, mtime := m.1, atime := (strtol 10 m.2).1 }

/-- One round of the second loop over the properties (lines 387–410). -/
def networkfsProp (st : Stat) (entry : Node) : Option Stat := do
  let ns ← entry.ns
  if ns ≠ "NETWORKFS:".toList then some st
  else if entry.name = "mode".toList then some (setMode st (← entryText entry))
  else if entry.name = "size".toList then
    some { st with size := (strtol 10 (← entryText entry)).1 }
  else if entry.name = "owner".toList then some (setOwner st (← entryText entry))
  else if entry.name = "time".toList then some (setTime st (← entryText entry))
  else some st

/-- The two loops over the properties of `prop`. -/
def decodeStat (o : Opts) (time : Node → ℤ) (prop : Node) : Option Stat := do
  let st ← prop.children.foldlM (davProp o time) (initialStat o)
  prop.children.foldlM networkfsProp st

/-! ## The function -/

/-- The name given to `filler`: up to the first `/`, or `.` if that is empty. -/
def entryName (filename : Text) : Text :=
  let name := filename.takeWhile (· ≠ '/')
  if name = [] then ".".toList else name

/-- `with (auto filename = curl_easy_unescape_e(...), ...)` around the filler (lines
    419–426). -/
def fillEntry (filler : Text → Stat → Dav σ ρ Unit) (url : Text) (st : Stat) :
    Dav σ ρ (Option Unit) :=
  withSeperated (curlEasyUnescapeE env url) (fun _ => pure ()) fun filename => do
    let filename ← Ctl.deref filename
    filler (entryName filename) st

/-- A `response` with `href` and `prop` set (lines 360–426); `continue` when the
    href does not extend the effective URL. -/
def propfindEntry (filler : Text → Stat → Dav σ ρ Unit) (baseurl : Text) (href prop : Node) :
    Dav σ ρ Unit := do
  let s ← Ctl.gets (·.mem.env)
  let st ← Ctl.deref (decodeStat srv.options (xmlParserTimeNode (env.strptime · · s)) prop)
  let fullurl ← Ctl.deref (entryText href)
  if baseurl.isPrefixOf fullurl then do
    let _ ← throwable (fillEntry env filler (fullurl.drop baseurl.length) st)
  else pure ()

/-- One round of the loop over the children of the root (lines 315–427). -/
def propfindResponse (filler : Text → Stat → Dav σ ρ Unit) (baseurl : Text) (response : Node) :
    Dav σ ρ Unit :=
  if response.name == "response".toList then do
    let scan ← Ctl.deref (scanResponse response.children ⟨none, none⟩)
    match scan with
    | ⟨some href, some (some prop, _)⟩ => propfindEntry env srv filler baseurl href prop
    | _ => throw (raise (.unspecified "response unexpected"))
  else pure ()

/-- After the request (lines 301–427): nothing unless the status is 207. -/
def propfindReply (filler : Text → Stat → Dav σ ρ Unit) (reply : Reply) : Dav σ ρ Unit :=
  if reply.status = 207 then do
    match ← Ctl.deref reply.xml with
    | .malformed => throw (raise (.unspecified "Failed to parse"))
    | .document root =>
      Ctl.forEach root.children (propfindResponse env srv filler reply.effectiveUrl)
  else Ctl.leave .brk

/-- The body of the `scope (curl_slist, list, depth_header)` of `dav_propfind` (lines
    286–299). -/
def propfindSend (path : Path) (list : List Header) : Dav σ ρ Reply := do
  let list ← curlSlistAppendWeak env list .preferMinimal
  let list ← curlSlistAppendWeak env list .contentTypeXml
  setAndPerform env .customrequest ⟨.propfind, path, list, none, .propfind⟩

/-- The `scope (curl_slist, list, depth_header)` of `dav_propfind` (lines 285–299). -/
def propfindScope (path : Path) (depth : ℤ) : Dav σ ρ (Option Reply) :=
  scopeList env (.depth depth) (propfindSend env path)

/-- The body of the `with_curl` of `dav_propfind` (lines 284–427). -/
def propfindBody (path : Path) (depth : ℤ) (filler : Text → Stat → Dav σ ρ Unit) :
    Dav σ ρ Unit := do
  -- without an exception the scope ran to its end, so the reply is there
  let reply ← throwable (propfindScope env path depth)
  propfindReply env srv filler (← Ctl.deref reply)

/-- `dav_propfind(server, path, depth, buf, filler)`; `buf` is the memory that
    `filler` writes. -/
def davPropfind (path : Path) (depth : ℤ) (filler : Text → Stat → Dav σ ρ Unit) : Dav σ ρ ℤ := do
  let _ ← withBuffer do
    withBuffer do
      let _ ← throwable (withCurl env srv.options path (propfindBody env srv path depth filler))
  testSuccess

end NetworkFs.Dav
