import NetworkFs.Dav.Accounting
import NetworkFs.Dav.Decoding
import NetworkFs.Dav.Interleaving

/-!
# A server that keeps files and their properties

A server with a file and its dead properties at each path, and what the functions of the client do
against it. It fails no request, except that it has nothing to say about a path without a file.

* `KeepsFiles`: what the server does on each request, whatever the header lines are.
* `Makes`: a function returns and leaves the files so; one lemma for each function.
* `davGetattr_found`: the attributes are those of the file, if the `href` that the server gives
  extends the effective URL, and otherwise nothing is reported.
-/

namespace NetworkFs.Dav

open Control Grammar Wrapper Text Data

variable {σ ρ α β : Type}

/-! ## The server -/

/-- A file, and its dead properties by qualified name. -/
structure Resource where
  content : Bytes
  dead : XmlName → Option Text

/-- The files of a server by their paths. -/
abbrev Files := Path → Option Resource

/-- A file without properties. -/
def Resource.plain (content : Bytes) : Resource := ⟨content, fun _ => none⟩

/-- A property in the namespace `NETWORKFS:`. -/
def own (name : String) : XmlName := ⟨some "N".toList, name.toList⟩

/-- The file with a property set or removed. -/
def Resource.patch (r : Resource) (key : XmlName) (value : Option Text) : Resource :=
  { r with dead := Function.update r.dead key value }

@[simp] theorem Resource.patch_content (r : Resource) (key : XmlName) (value : Option Text) :
    (r.patch key value).content = r.content := rfl

@[simp] theorem Resource.patch_same (r : Resource) (key : XmlName) (value : Option Text) :
    (r.patch key value).dead key = value := Function.update_self _ _ _

theorem Resource.patch_other (r : Resource) {key key' : XmlName} (h : key' ≠ key)
    (value : Option Text) : (r.patch key value).dead key' = r.dead key' :=
  Function.update_of_ne h _ _

/-- The properties that the server gives for a file: its length, and those of its dead ones that
    `dav_propfind` asks for. -/
structure PropertiesOfFile (r : Resource) (props : Properties) : Prop where
  own : ∀ name ∈ ["mode", "size", "owner", "time"],
    (props "NETWORKFS:".toList name.toList).map textOf = r.dead (own name)
  length : (props "DAV:".toList "getcontentlength".toList).map textOf =
    some (Nat.toDigits 10 r.content.length)
  file : (props "DAV:".toList "resourcetype".toList).any isCollection = false

/-- The reply to a `PROPFIND` of one file: one `response`, with the properties in a `propstat` with
    status 200. -/
structure DescribesFile (r : Resource) (url href : Text) (reply : Reply) : Prop where
  code : reply.code = .ok
  status : reply.status = 207
  effectiveUrl : reply.effectiveUrl = url
  document : ∃ root response prop, reply.xml = some (.document root) ∧
    responsesOf root = [response] ∧ ResponseForm response ∧ hrefText response = some href ∧
    okProp response = some prop ∧ PropertiesOfFile r (propertiesOf prop.children)

/-- The outside is a server with the files `files`; `url` is the effective URL of a path and `href`
    what the server calls it. -/
structure KeepsFiles (env : Env σ) (files : σ → Files) (url href : Path → Text) : Prop
    extends Steady env where
  unescape : ∀ text s, (env.unescape text s).1.isSome ∧ (env.unescape text s).2 = s
  head : ∀ path s r, files s path = some r → r.content.length < 2 ^ 63 →
    (env.perform (headRequest path) s).1.code = .ok ∧
      headLength (env.perform (headRequest path) s).1 = r.content.length ∧
      files (env.perform (headRequest path) s).2 = files s
  head_absent : ∀ path s, files s path = none →
    (env.perform (headRequest path) s).1.code = .httpReturnedError ∧
      (env.perform (headRequest path) s).1.status = 404 ∧
      files (env.perform (headRequest path) s).2 = files s
  /-- An empty `PUT` creates the file or empties it. -/
  put : ∀ path lines s, (env.perform ⟨.put, path, lines, none, .none⟩ s).1.code = .ok ∧
    files (env.perform ⟨.put, path, lines, none, .none⟩ s).2 =
      Function.update (files s) path (some ⟨[], fun key => (files s path).bind (·.dead key)⟩)
  put_range : ∀ path lines (data : Bytes) (offset : ℕ) s r, files s path = some r →
    offset ≤ r.content.length →
    (env.perform ⟨.put, path, lines, some ⟨offset, data.length⟩, .data data⟩ s).1.code = .ok ∧
      files (env.perform ⟨.put, path, lines, some ⟨offset, data.length⟩, .data data⟩ s).2 =
        Function.update (files s) path (some { r with content := splice 0 r.content offset data })
  put_new : ∀ path lines (data : Bytes) s, files s path = none →
    (env.perform ⟨.put, path, lines, some ⟨0, data.length⟩, .data data⟩ s).1.code = .ok ∧
      files (env.perform ⟨.put, path, lines, some ⟨0, data.length⟩, .data data⟩ s).2 =
        Function.update (files s) path (some (.plain data))
  put_past : ∀ path lines (data : Bytes) (offset : ℕ) s r, files s path = some r →
    r.content.length < offset →
    (env.perform ⟨.put, path, lines, some ⟨offset, data.length⟩, .data data⟩ s).1.code =
        .httpReturnedError ∧
      (env.perform ⟨.put, path, lines, some ⟨offset, data.length⟩, .data data⟩ s).1.status = 416 ∧
      files (env.perform ⟨.put, path, lines, some ⟨offset, data.length⟩, .data data⟩ s).2 = files s
  get : ∀ path (data : Bytes) (offset : ℕ) s r, files s path = some r → 1 ≤ data.length →
    offset < r.content.length →
    (env.perform (getRequest path data offset) s).1.code = .ok ∧
      (env.perform (getRequest path data offset) s).1.chunks.flatten =
        (r.content.drop offset).take data.length ∧
      files (env.perform (getRequest path data offset) s).2 = files s
  get_past : ∀ path (data : Bytes) (offset : ℕ) s r, files s path = some r → 1 ≤ data.length →
    r.content.length ≤ offset →
    (env.perform (getRequest path data offset) s).1.code = .httpReturnedError ∧
      (env.perform (getRequest path data offset) s).1.status = 416 ∧
      (env.perform (getRequest path data offset) s).1.chunks = [] ∧
      files (env.perform (getRequest path data offset) s).2 = files s
  delete : ∀ path lines s r, files s path = some r →
    (env.perform ⟨.delete, path, lines, none, .none⟩ s).1.code = .ok ∧
      files (env.perform ⟨.delete, path, lines, none, .none⟩ s).2 =
        Function.update (files s) path none
  proppatch : ∀ path key value s r, files s path = some r →
    (env.perform (proppatchRequest path key value) s).1.code = .ok ∧
      files (env.perform (proppatchRequest path key value) s).2 =
        Function.update (files s) path (some (r.patch key value))
  propfind : ∀ path s r, files s path = some r →
    DescribesFile r (url path) (href path) (env.perform (propfindRequest path 0) s).1 ∧
      files (env.perform (propfindRequest path 0) s).2 = files s

/-! ## The attributes of a file -/

/-- `st` has the attributes that the content and the properties of a file stand for; the times are
    left out. -/
structure Attributes (o : Opts) (r : Resource) (st : Stat) : Prop where
  mode : st.mode = (r.dead (own "mode")).elim (maskMode (sIFREG ||| 0o777) o.fmask)
    fun v => toUnsigned (strtol 8 v).1
  uid : st.uid = (r.dead (own "owner")).elim o.uid fun v => toUnsigned (strtol 10 v).1
  gid : st.gid = (r.dead (own "owner")).elim o.gid
    fun v => toUnsigned (strtol 10 (strtol 10 v).2).1
  rdev : st.rdev = (r.dead (own "mode")).elim 0 fun v =>
    if isDevice (toUnsigned (strtol 8 v).1) then toSize (strtol 10 (strtol 8 v).2).1 else 0
  size : st.size = (r.dead (own "size")).elim (strtol 10 (Nat.toDigits 10 r.content.length)).1
    fun v => (strtol 10 v).1

theorem attributes_statOf (o : Opts) (time : Node → ℤ) {r : Resource} {props : Properties}
    (h : PropertiesOfFile r props) : Attributes o r (statOf o time props) where
  mode := by
    rw [← h.own "mode" (by simp), Option.elim_map]
    simp only [statOf, h.file, Bool.false_eq_true, if_false]
    rfl
  uid := by
    rw [← h.own "owner" (by simp), Option.elim_map]
    rfl
  gid := by
    rw [← h.own "owner" (by simp), Option.elim_map]
    rfl
  rdev := by
    rw [← h.own "mode" (by simp), Option.elim_map]
    rfl
  size := by
    have hlength : (props "DAV:".toList "getcontentlength".toList).elim 0 numberOf =
        (strtol 10 (Nat.toDigits 10 r.content.length)).1 := by
      obtain ⟨entry, hentry, htext⟩ := Option.map_eq_some_iff.mp h.length
      rw [hentry, Option.elim_some, numberOf, htext]
    rw [← h.own "size" (by simp), Option.elim_map, ← hlength]
    rfl

/-- What `dav_getattr` reports on the description of a file. -/
theorem reports_described {env : Env σ} (hunescape : ∀ text s, (env.unescape text s).1.isSome)
    (o : Opts) (stbuf : Stat) {r : Resource} {url href : Text} {reply : Reply}
    (hreply : DescribesFile r url href reply) (s : σ) :
    ∃ st, Reports env o stbuf reply s st ∧ (url <+: href → Attributes o r st) ∧
      (¬url <+: href → st = stbuf) := by
  obtain ⟨root, response, prop, hxml, hone, hform, hhref, hok, hprops⟩ := hreply.document
  have hall : ∀ n ∈ root.children, n.name = "response".toList → ResponseForm n := by
    intro n hn hname
    have hmem : n ∈ responsesOf root := List.mem_filter.mpr ⟨hn, decide_eq_true hname⟩
    rw [hone, List.mem_singleton] at hmem
    rw [hmem]
    exact hform
  obtain ⟨hsafe, hmade⟩ := madeCalls_eq env hunescape o url root.children hall s
  have hhas : hasOk response = true := by
    rw [hasOk, hok]
    rfl
  rw [← responsesOf, hone, List.takeWhile_cons_of_pos hhas, List.any_cons, hhas] at hmade
  have hcalls := fillCalls_eq env o url root.children s
  rw [hmade] at hcalls
  set st := statOf o (xmlParserTimeNode (env.strptime · · s)) (propertiesOf prop.children) with hst
  have hreports : Reports env o stbuf reply s
      (((callsOf env o url [response] s).getLast?.map Prod.snd).getD stbuf) := by
    refine .inr ⟨hreply.status, root, _, hxml, ?_, ?_, rfl⟩
    · rw [hreply.effectiveUrl]
      exact hsafe
    · rw [hreply.effectiveUrl]
      exact hcalls
  rw [callsOf_of_some env o url hok hhref] at hreports
  by_cases hextends : url <+: href
  · rw [if_pos hextends] at hreports
    exact ⟨st, hreports, fun _ => attributes_statOf o _ hprops, fun hnot => absurd hextends hnot⟩
  · rw [if_neg hextends] at hreports
    exact ⟨stbuf, hreports, fun h => absurd h hextends, fun _ => rfl⟩

/-! ## The functions -/

/-- `m` returns `v` and leaves the files `fs`, and the thread is at rest. -/
def Makes (files : σ → Files) (m : Dav σ ρ α) (t : Thread (Mem σ)) (v : α) (fs : Files) : Prop :=
  ∃ t', m t = (.ok v, t') ∧ AtRest t' ∧ files t'.mem.env = fs

theorem Makes.bind {files : σ → Files} {m : Dav σ ρ α} {f : α → Dav σ ρ β} {t : Thread (Mem σ)}
    {v : α} {w : β} {fs fs' : Files} (hm : Makes files m t v fs)
    (hf : ∀ t', AtRest t' → files t'.mem.env = fs → Makes files (f v) t' w fs') :
    Makes files (m >>= f) t w fs' := by
  obtain ⟨t', hrun, hrest, hfs⟩ := hm
  obtain ⟨t'', hrun', hmakes⟩ := hf t' hrest hfs
  exact ⟨t'', (Ctl.bind_ok hrun).trans hrun', hmakes⟩

theorem Makes.pure {files : σ → Files} {t : Thread (Mem σ)} (h : AtRest t) (v : α) :
    Makes files (Pure.pure v : Dav σ ρ α) t v (files t.mem.env) :=
  ⟨t, rfl, h, rfl⟩

/-- A function that returns in one way. -/
theorem Makes.unique {files : σ → Files} {m : Dav σ ρ α} {t t' : Thread (Mem σ)} {v w : α}
    {fs : Files} (h : Makes files m t v fs) (hrun : m t = (.ok w, t')) :
    w = v ∧ AtRest t' ∧ files t'.mem.env = fs := by
  obtain ⟨t'', hrun', hrest, hfs⟩ := h
  obtain ⟨hv, rfl⟩ := Prod.mk.inj (hrun.symm.trans hrun')
  exact ⟨Except.ok.inj hv, hrest, hfs⟩

/-- What `dav_read` returns if `n` bytes came: the count is cut to an `int`, and a negative one is
    taken for a failure. -/
def readResult (n : ℕ) : ℤ := if toInt n < 0 then -eio else toInt n

theorem readResult_of_lt {n : ℕ} (h : n < 2 ^ 31) : readResult n = n := by
  rw [readResult, toInt_natCast h, if_neg (by omega)]

theorem readResult_eq_zero_iff {n : ℕ} : readResult n = 0 ↔ toInt n = 0 := by
  unfold readResult
  split_ifs with hneg
  · exact iff_of_false (by decide) hneg.ne
  · exact Iff.rfl

/-- The array `data` after `content` was read into it from `offset` on. -/
def overlaid (content : Bytes) (offset : ℕ) (data : Bytes) : Bytes :=
  (content.drop offset).take data.length ++ data.drop (min data.length (content.length - offset))

theorem overlaid_zero (content data : Bytes) : overlaid content 0 data =
    content.take data.length ++ data.drop (min data.length content.length) := rfl

theorem overlaid_beyond {content : Bytes} {offset : ℕ} (h : content.length ≤ offset) (data : Bytes) :
    overlaid content offset data = data := by
  rw [overlaid, List.drop_of_length_le h, List.take_nil, Nat.sub_eq_zero_of_le h, Nat.min_zero]
  rfl

@[simp] theorem length_overlaid (content : Bytes) (offset : ℕ) (data : Bytes) :
    (overlaid content offset data).length = data.length := by
  rw [overlaid, List.length_append, List.length_take, List.length_drop, List.length_drop]
  omega

section Functions

variable {env : Env σ} {files : σ → Files} {url href : Path → Text}
  (hk : KeepsFiles env files url href) (srv : DavServer) {path : Path} {r : Resource}
  {t : Thread (Mem σ)} (h : AtRest t)

include hk h

theorem davHead_found (hr : files t.mem.env path = some r) (hlt : r.content.length < 2 ^ 63) :
    Makes files (davHead env srv path : Dav σ ρ (ℤ × ℕ)) t (0, r.content.length)
      (files t.mem.env) := by
  obtain ⟨hcode, hlength, hsame⟩ := hk.head path t.mem.env r hr hlt
  have hrun := davHead_ok (ρ := ρ) srv hk.toSteady h.clean hcode
  rw [← headLength, hlength] at hrun
  exact ⟨_, hrun, ⟨h.clear, h.free⟩, hsame⟩

theorem davProppatch_found (hr : files t.mem.env path = some r) (key : XmlName)
    (value : Option Text) :
    Makes files (davProppatch env srv path key value : Dav σ ρ ℤ) t 0
      (Function.update (files t.mem.env) path (some (r.patch key value))) := by
  obtain ⟨hcode, hsame⟩ := hk.proppatch path key value t.mem.env r hr
  exact ⟨_, davProppatch_ok srv hk.toSteady h.clean hcode, ⟨h.clear, h.free⟩, hsame⟩

theorem davPutSimple_makes :
    Makes files (davPutSimple env srv path : Dav σ ρ ℤ) t 0 (Function.update (files t.mem.env) path
      (some ⟨[], fun key => (files t.mem.env path).bind (·.dead key)⟩)) := by
  obtain ⟨hcode, hsame⟩ := hk.put path (lockLines srv path .read t.mem.table) t.mem.env
  have hrun := davMethod_ok (ρ := ρ) srv hk.toSteady h.clean path .put (h.canLock .read) hcode
  rw [listed_read] at hrun
  exact ⟨_, hrun, ⟨h.clear, h.free⟩, hsame⟩

omit hk in
theorem davExceptionCheck_makes (res : ℤ) :
    Makes files (davExceptionCheck res : Dav σ ρ ℤ) t res (files t.mem.env) :=
  ⟨t, davExceptionCheck_clean res h.clean, h, rfl⟩

theorem davChmod_found (hr : files t.mem.env path = some r) (mode : ℕ) :
    Makes files (davChmod env srv path mode : Dav σ ρ ℤ) t 0 (Function.update (files t.mem.env) path
      (some (r.patch (own "mode") (some (modeValue mode))))) := by
  refine (davProppatch_found hk srv h hr _ _).bind fun t' h' hfs => ?_
  rw [own, ← hfs]
  exact davExceptionCheck_makes h' 0

theorem davChown_found (hr : files t.mem.env path = some r) (uid gid : ℕ) :
    Makes files (davChown env srv path uid gid : Dav σ ρ ℤ) t 0
      (Function.update (files t.mem.env) path
        (some (r.patch (own "owner") (some (ownerValue uid gid))))) := by
  refine (davProppatch_found hk srv h hr _ _).bind fun t' h' hfs => ?_
  rw [own, ← hfs]
  exact davExceptionCheck_makes h' 0

/-- `dav_getattr` of a file, and the outside then. -/
theorem davGetattr_reports (hr : files t.mem.env path = some r) (stbuf : Stat) :
    ∃ st t', (davGetattr env srv path stbuf : Dav σ ρ (ℤ × Stat)) t = (.ok (0, st), t') ∧ AtRest t' ∧
      t'.mem.env = (env.perform (propfindRequest path 0) t.mem.env).2 ∧
      (url path <+: href path → Attributes srv.options r st) ∧
      (¬url path <+: href path → st = stbuf) := by
  obtain ⟨hreply, -⟩ := hk.propfind path t.mem.env r hr
  have hreceived := hk.toSteady.propfindReceived srv path 0 t.mem.env
  rw [if_pos hreply.code] at hreceived
  obtain ⟨st, hreports, hcases⟩ := reports_described (fun text s => (hk.unescape text s).1)
    srv.options stbuf hreply (env.perform (propfindRequest path 0) t.mem.env).2
  obtain ⟨hno, -⟩ | ⟨hno, -⟩ | ⟨st', t', hreports', hrun, -⟩ :=
    davGetattr_cases (ρ := ρ) env srv h.clean hreceived stbuf
  · exact absurd hreports (hno st)
  · exact absurd hreports (hno st)
  · obtain ⟨hrest, -, hzero⟩ := davGetattr_answered hk.toSteady (fun text s => (hk.unescape text s).2)
      hreply.code h hrun
    rw [hreports'.unique hreports] at hrun
    exact ⟨st, t', hrun, hrest, (hzero rfl).2, hcases⟩

theorem davGetattr_found (hr : files t.mem.env path = some r) (stbuf : Stat) :
    ∃ st, Makes files (davGetattr env srv path stbuf : Dav σ ρ (ℤ × Stat)) t (0, st)
        (files t.mem.env) ∧ (url path <+: href path → Attributes srv.options r st) ∧
      (¬url path <+: href path → st = stbuf) := by
  obtain ⟨st, t', hrun, hrest, henv, hcases⟩ := davGetattr_reports (ρ := ρ) hk srv h hr stbuf
  refine ⟨st, ⟨t', hrun, hrest, ?_⟩, hcases⟩
  rw [henv]
  exact (hk.propfind path t.mem.env r hr).2

/-- `dav_mknod` of something new. -/
theorem davMknod_absent (hr : files t.mem.env path = none) {mode : ℕ} (hdir : isDir mode = false)
    (rdev : ℕ) :
    Makes files (davMknod env srv path mode rdev : Dav σ ρ ℤ) t 0 (Function.update (files t.mem.env)
      path (some ((Resource.plain []).patch (own "mode") (some (modeValue mode))))) := by
  obtain ⟨hcode, hstatus, hsame⟩ := hk.head_absent path t.mem.env hr
  have hne : (env.perform (headRequest path) t.mem.env).1.code ≠ .ok := by
    rw [hcode]
    exact nofun
  have hhead := davHead_failed (ρ := ℤ) srv hk.toSteady h.clean hne
  set t₁ : Thread (Mem σ) := ⟨.clear, (answered env (headRequest path) t).mem⟩ with ht₁
  have h₁ : AtRest t₁ := ⟨rfl, h.free⟩
  obtain ⟨t₂, hput, h₂, hfs₂⟩ : Makes files (davPutSimple env srv path : Dav σ ℤ ℤ) t₁ 0 _ :=
    davPutSimple_makes hk srv h₁
  have hnew : files t₂.mem.env path = some (Resource.plain []) := by
    have hnone : files t₁.mem.env path = none := by
      rw [← hr]
      exact congrFun hsame path
    rw [hfs₂, Function.update_self, hnone]
    rfl
  obtain ⟨t₃, hchmod, h₃, hfs₃⟩ := davChmod_found (ρ := ℤ) hk srv h₂ hnew mode
  refine ⟨t₃, ?_, h₃, ?_⟩
  · refine (davMknod_put env srv rdev hdir hhead rfl ?_ hput h₂.clean).trans (Ctl.call_ok hchmod)
    show (Exception.isHttp (.init (.curl _ _ _)) 404 || _) = true
    rw [hcode, hstatus]
    rfl
  · rw [hfs₃, hfs₂, Function.update_idem]
    exact congrArg (fun fs => Function.update fs path _) hsame

/-- The existence test finds nothing. -/
theorem probe_missing (hr : files t.mem.env path = none) :
    Makes files (probe env srv path) t none (files t.mem.env) := by
  obtain ⟨hcode, hstatus, hsame⟩ := hk.head_absent path t.mem.env hr
  have hne : (env.perform (headRequest path) t.mem.env).1.code ≠ .ok := by
    rw [hcode]
    exact nofun
  have hhead := davHead_failed (ρ := ℤ) srv hk.toSteady h.clean hne
  refine ⟨_, probe_absent env srv hhead rfl ?_, ⟨rfl, h.free⟩, hsame⟩
  show (Exception.isHttp (.init (.curl _ _ _)) 404 || _) = true
  rw [hcode, hstatus]
  rfl

theorem davPut_found (hr : files t.mem.env path = some r) {data : Bytes} {offset : ℕ}
    (hle : offset ≤ r.content.length) :
    Makes files (davPut env srv path data offset : Dav σ ρ ℤ) t 0 (Function.update (files t.mem.env)
      path (some { r with content := splice 0 r.content offset data })) := by
  obtain ⟨hcode, hsame⟩ := hk.put_range path (lockLines srv path .read t.mem.table) data offset
    t.mem.env r hr hle
  exact ⟨_, davPut_ok srv hk.toSteady h.clean (h.canLock .read) hcode, ⟨h.clear, h.free⟩, hsame⟩

/-- `dav_write` in the file or at its end. -/
theorem davWrite_found (hr : files t.mem.env path = some r) {data : Bytes} {offset : ℕ}
    (hle : offset ≤ r.content.length) :
    Makes files (davWrite env srv path data offset : Dav σ ρ ℤ) t (toInt data.length)
      (Function.update (files t.mem.env) path
        (some { r with content := splice 0 r.content offset data })) := by
  have hsteps : Makes files (writeSteps env srv path data offset : Dav σ ρ ℤ) t 0
      (Function.update (files t.mem.env) path
        (some { r with content := splice 0 r.content offset data })) := by
    refine (davPut_found hk srv h hr hle).bind fun t' h' hfs => ?_
    rw [if_pos rfl, ← hfs]
    exact .pure h' 0
  refine hsteps.bind fun t' h' hfs => ?_
  rw [if_neg (not_not_intro rfl), ← hfs]
  exact .pure h' _

/-- `dav_read` from inside the file; the count is cut to an `int`, and the outside is as after the
    request. -/
theorem davRead_inside (hr : files t.mem.env path = some r) {data : Bytes} {offset : ℕ}
    (hdata : data.length ≠ 0) (hlt : offset < r.content.length) :
    ∃ t', (davRead env srv path data offset : Dav σ ρ (ℤ × Bytes)) t =
        (.ok (readResult (min data.length (r.content.length - offset)),
          overlaid r.content offset data), t') ∧ AtRest t' ∧
      t'.mem.env = (env.perform (getRequest path data offset) t.mem.env).2 := by
  obtain ⟨hcode, hbody, -⟩ := hk.get path data offset t.mem.env r hr (by omega) hlt
  set reply := (env.perform (getRequest path data offset) t.mem.env).1 with hreply
  have hlength : ((r.content.drop offset).take data.length).length =
      min data.length (r.content.length - offset) := by
    rw [List.length_take, List.length_drop]
  have hreceived : received data reply = (true, ⟨overlaid r.content offset data,
      min data.length (r.content.length - offset)⟩) := by
    rw [received_fits (by rw [hbody, hlength]; exact Nat.min_le_left _ _), hbody, hlength]
    rfl
  have hget := davGet_ok (ρ := ρ) srv hk.toSteady path data offset h.clean hcode
    (by rw [← hreply, hreceived])
  rw [← hreply, hreceived] at hget
  dsimp only at hget
  by_cases hneg : toInt (min data.length (r.content.length - offset) : ℕ) < 0
  · have hrun := davRead_neg srv hdata hget hneg
    rw [answered_ex, h.clear] at hrun
    rw [readResult, if_pos hneg]
    exact ⟨_, hrun, ⟨rfl, h.free⟩, rfl⟩
  · have hrun := davRead_count srv hdata hget hneg
    rw [readResult, if_neg hneg]
    exact ⟨_, hrun, ⟨h.clear, h.free⟩, rfl⟩

/-- `dav_read` from the end of the file on. -/
theorem davRead_beyond (hr : files t.mem.env path = some r) {data : Bytes} {offset : ℕ}
    (hdata : data.length ≠ 0) (hle : r.content.length ≤ offset) :
    ∃ t', (davRead env srv path data offset : Dav σ ρ (ℤ × Bytes)) t = (.ok (0, data), t') ∧
      AtRest t' ∧ t'.mem.env = (env.perform (getRequest path data offset) t.mem.env).2 := by
  obtain ⟨hcode, hstatus, hbody, -⟩ := hk.get_past path data offset t.mem.env r hr (by omega) hle
  set reply := (env.perform (getRequest path data offset) t.mem.env).1 with hreply
  have hstored : (received data reply).1 = true := by
    rw [received, hbody]
    rfl
  have hget := davGet_failed (ρ := ρ) srv hk.toSteady path data offset h.clean
    fun hall => by rw [← hreply, hcode] at hall; cases hall.1
  have hkept : (received data reply).2.data = data := by
    rw [received, hbody]
    rfl
  rw [← hreply, if_pos hstored, hcode, hstatus, hkept] at hget
  have hrun := davRead_neg srv hdata hget neg_one_lt_zero
  rw [if_pos (show (raised _ (ExType.curl .httpReturnedError 416 .perform)).ex.isHttp 416 = true
    from rfl)] at hrun
  exact ⟨_, hrun, ⟨rfl, h.free⟩, rfl⟩

/-- `dav_read` from anywhere. -/
theorem davRead_anywhere (hr : files t.mem.env path = some r) {data : Bytes} (offset : ℕ)
    (hdata : data.length ≠ 0) :
    ∃ t', (davRead env srv path data offset : Dav σ ρ (ℤ × Bytes)) t =
        (.ok (readResult (min data.length (r.content.length - offset)),
          overlaid r.content offset data), t') ∧ AtRest t' ∧
      t'.mem.env = (env.perform (getRequest path data offset) t.mem.env).2 ∧
      files t'.mem.env = files t.mem.env := by
  rcases Nat.lt_or_ge offset r.content.length with hlt | hle
  · obtain ⟨t', hrun, h', henv⟩ := davRead_inside (ρ := ρ) hk srv h hr hdata hlt
    refine ⟨t', hrun, h', henv, ?_⟩
    rw [henv]
    exact (hk.get path data offset t.mem.env r hr (by omega) hlt).2.2
  · obtain ⟨t', hrun, h', henv⟩ := davRead_beyond (ρ := ρ) hk srv h hr hdata hle
    rw [Nat.sub_eq_zero_of_le hle, Nat.min_zero, overlaid_beyond hle]
    refine ⟨t', hrun, h', henv, ?_⟩
    rw [henv]
    exact (hk.get_past path data offset t.mem.env r hr (by omega) hle).2.2.2

/-- `dav_read` into an array whose length is an `int`. -/
theorem davRead_found (hr : files t.mem.env path = some r) {data : Bytes} {offset : ℕ}
    (hdata : 1 ≤ data.length) (hdata' : data.length < 2 ^ 31) :
    Makes files (davRead env srv path data offset : Dav σ ρ (ℤ × Bytes)) t
      ((min data.length (r.content.length - offset) : ℕ), overlaid r.content offset data)
      (files t.mem.env) := by
  have hne : data.length ≠ 0 := by omega
  obtain ⟨t', hrun, h', -, hsame⟩ := davRead_anywhere (ρ := ρ) hk srv h hr offset hne
  rw [readResult_of_lt (by omega)] at hrun
  exact ⟨t', hrun, h', hsame⟩

theorem davDelete_found (hr : files t.mem.env path = some r) :
    Makes files (davDelete env srv path : Dav σ ρ ℤ) t 0
      (Function.update (files t.mem.env) path none) := by
  obtain ⟨hcode, hsame⟩ := hk.delete path (lockLines srv path .write t.mem.table) t.mem.env r hr
  have hrun := davMethod_ok (ρ := ρ) srv hk.toSteady h.clean path .delete (h.canLock .write) hcode
  refine ⟨_, hrun, ⟨?_, ?_⟩, ?_⟩
  · rw [answered_ex, listed_ex, h.clear]
  · rw [answered_held, listed_held, h.free]
  · rw [answered_env, listed_env]
    exact hsame

end Functions

/-! ## Such a server -/

/-- A property with a text. -/
def valueNode (ns name value : Text) : Node :=
  .mk name (some ns) none [] [.mk "text".toList none (some value) [] []]

/-- The properties of a file that `dav_propfind` asks for and that there are. -/
def fileEntries (r : Resource) : List Node :=
  valueNode "DAV:".toList "getcontentlength".toList (Nat.toDigits 10 r.content.length) ::
    ["mode", "size", "owner", "time"].filterMap fun name =>
      (r.dead (own name)).map (valueNode "NETWORKFS:".toList name.toList)

/-- The `response` a server sends for a file. -/
def fileResponse (href : Text) (r : Resource) : Node :=
  davNode "response" [valueNode "DAV:".toList "href".toList href,
    davNode "propstat" [davNode "prop" (fileEntries r),
      davNode "status" [textNode "HTTP/1.1 200 OK"]]]

/-- The reply to a `PROPFIND` for a file. -/
def fileReply (url href : Text) (r : Resource) : Reply :=
  ⟨.ok, 207, [], [], url, some (.document (davNode "multistatus" [fileResponse href r]))⟩

theorem names_fileEntries (r : Resource) : ((fileEntries r).map qname).Nodup := by
  rcases hm : r.dead (own "mode") with _ | m <;> rcases hs : r.dead (own "size") with _ | s <;>
    rcases ho : r.dead (own "owner") with _ | o <;> rcases ht : r.dead (own "time") with _ | t <;>
    simp only [fileEntries, List.filterMap_cons, List.filterMap_nil, hm, hs, ho, ht, Option.map_none,
      Option.map_some, List.map_cons, List.map_nil, qname, valueNode, Node.ns, Node.name] <;>
    decide

theorem isProperty_valueNode (ns name value : Text) : IsProperty (valueNode ns name value) :=
  ⟨rfl, fun _ => rfl⟩

theorem mem_fileEntries {r : Resource} {entry : Node} (h : entry ∈ fileEntries r) :
    IsProperty entry := by
  rcases List.mem_cons.mp h with rfl | h
  · exact isProperty_valueNode _ _ _
  · obtain ⟨name, -, hname⟩ := List.mem_filterMap.mp h
    obtain ⟨value, -, rfl⟩ := Option.map_eq_some_iff.mp hname
    exact isProperty_valueNode _ _ _

theorem propertiesOfFile_fileEntries (r : Resource) :
    PropertiesOfFile r (propertiesOf (fileEntries r)) where
  own name hname := by
    have hnames := names_fileEntries r
    rcases hdead : r.dead (own name) with _ | value
    · rw [Option.map_eq_none_iff, propertiesOf, List.find?_eq_none]
      intro entry hentry hq
      rcases List.mem_cons.mp hentry with rfl | hentry
      · have hns : some "DAV:".toList = some "NETWORKFS:".toList :=
          congrArg Prod.fst (of_decide_eq_true hq)
        exact absurd hns (by decide)
      · obtain ⟨name', -, hname'⟩ := List.mem_filterMap.mp hentry
        obtain ⟨value, hvalue, rfl⟩ := Option.map_eq_some_iff.mp hname'
        have hsame : name'.toList = name.toList := congrArg Prod.snd (of_decide_eq_true hq)
        rw [String.toList_injective hsame, hdead] at hvalue
        exact nomatch hvalue
    · have hentry : valueNode "NETWORKFS:".toList name.toList value ∈ fileEntries r :=
        List.mem_cons_of_mem _ (List.mem_filterMap.mpr ⟨name, hname, by rw [hdead]; rfl⟩)
      have hfind : propertiesOf (fileEntries r) "NETWORKFS:".toList name.toList =
          some (valueNode "NETWORKFS:".toList name.toList value) :=
        (propertiesOf_eq_some_iff hnames).mpr ⟨hentry, rfl⟩
      rw [hfind]
      rfl
  length := by
    have hfind : propertiesOf (fileEntries r) "DAV:".toList "getcontentlength".toList =
        some (valueNode "DAV:".toList "getcontentlength".toList
          (Nat.toDigits 10 r.content.length)) :=
      (propertiesOf_eq_some_iff (names_fileEntries r)).mpr ⟨List.mem_cons_self, rfl⟩
    rw [hfind]
    rfl
  file := by
    have hnone : propertiesOf (fileEntries r) "DAV:".toList "resourcetype".toList = none := by
      rw [propertiesOf, List.find?_eq_none]
      intro entry hentry hq
      rcases List.mem_cons.mp hentry with rfl | hentry
      · have hname : "getcontentlength".toList = "resourcetype".toList :=
          congrArg Prod.snd (of_decide_eq_true hq)
        exact absurd hname (by decide)
      · obtain ⟨name', -, hname'⟩ := List.mem_filterMap.mp hentry
        obtain ⟨value, hvalue, rfl⟩ := Option.map_eq_some_iff.mp hname'
        have hns : some "NETWORKFS:".toList = some "DAV:".toList :=
          congrArg Prod.fst (of_decide_eq_true hq)
        exact absurd hns (by decide)
    rw [hnone]
    rfl

theorem okProp_fileResponse (href : Text) (r : Resource) :
    okProp (fileResponse href r) = some (davNode "prop" (fileEntries r)) := rfl

theorem describesFile_fileReply (url href : Text) (r : Resource) :
    DescribesFile r url href (fileReply url href r) where
  code := rfl
  status := rfl
  effectiveUrl := rfl
  document := by
    refine ⟨_, fileResponse href r, davNode "prop" (fileEntries r), rfl, rfl, ?_, rfl, rfl,
      propertiesOfFile_fileEntries r⟩
    refine ⟨rfl, fun p hp => ?_, fun prop hprop entry hentry => ?_, fun prop hprop => ?_⟩
    · obtain rfl := List.mem_singleton.mp hp
      rfl
    · rw [okProp_fileResponse, Option.some.injEq] at hprop
      rw [← hprop] at hentry
      exact mem_fileEntries hentry
    · rw [okProp_fileResponse, Option.some.injEq] at hprop
      rw [← hprop]
      exact names_fileEntries r

/-- A server that keeps files; it calls the file at a path by `href`. -/
def keepFiles (url href : Path → Text) (request : Request) (fs : Files) : Reply × Files :=
  match request.method, request.range, request.body, fs request.path with
  | .head, _, _, some r => (⟨.ok, 200, [lengthLine r.content.length], [], [], none⟩, fs)
  | .put, none, .none, file =>
    (plainReply 201, Function.update fs request.path (some ⟨[], fun key => file.bind (·.dead key)⟩))
  | .put, some _, .data d, none =>
    (plainReply 201, Function.update fs request.path (some (.plain d)))
  | .put, some range, .data d, some r =>
    if range.offset.toNat ≤ r.content.length then
      (plainReply 204, Function.update fs request.path
        (some { r with content := splice 0 r.content range.offset.toNat d }))
    else (plainReply 416, fs)
  | .get, some range, _, some r =>
    if range.offset.toNat < r.content.length then
      ({ plainReply 206 with chunks := [(r.content.drop range.offset.toNat).take range.size] }, fs)
    else (plainReply 416, fs)
  | .delete, _, _, some _ => (plainReply 204, Function.update fs request.path none)
  | .proppatch, _, .propertyupdate key value, some r =>
    (plainReply 207, Function.update fs request.path (some (r.patch key value)))
  | .propfind, _, _, some r => (fileReply (url request.path) (href request.path) r, fs)
  | _, _, _, _ => (plainReply 404, fs)

section Serves

variable {url href : Path → Text} {path : Path} {fs : Files} {r : Resource}

theorem keepFiles_put_range (hr : fs path = some r) (lines : List Header) (data : Bytes)
    (offset : ℕ) :
    keepFiles url href ⟨.put, path, lines, some ⟨offset, data.length⟩, .data data⟩ fs =
      if offset ≤ r.content.length then (plainReply 204, Function.update fs path
        (some { r with content := splice 0 r.content offset data })) else (plainReply 416, fs) := by
  simp only [keepFiles, hr, Int.toNat_natCast]

theorem keepFiles_get (hr : fs path = some r) {data : Bytes} (hdata : 1 ≤ data.length)
    (offset : ℕ) :
    keepFiles url href (getRequest path data offset) fs =
      if offset < r.content.length then
        ({ plainReply 206 with chunks := [(r.content.drop offset).take data.length] }, fs)
      else (plainReply 416, fs) := by
  have hrange : getRange data offset = some ⟨offset, data.length⟩ :=
    if_neg fun hall => absurd hall.2 (by omega)
  simp only [keepFiles, getRequest, hrange, hr, Int.toNat_natCast]

end Serves

theorem keepsFiles_keepFiles (url href : Path → Text) :
    KeepsFiles (serving (keepFiles url href)) id url href where
  toSteady := steady_serving _
  unescape _ _ := ⟨rfl, rfl⟩
  head path s r hr hlt := by
    have hserve : keepFiles url href (headRequest path) s =
        (⟨.ok, 200, [lengthLine r.content.length], [], [], none⟩, s) := by
      simp only [keepFiles, headRequest, show s path = some r from hr]
    rw [show (serving (keepFiles url href)).perform = keepFiles url href from rfl, hserve]
    exact ⟨rfl, davHeadCallback_lengthLine hlt 0, rfl⟩
  head_absent path s hr := by
    have hserve : keepFiles url href (headRequest path) s = (plainReply 404, s) := by
      simp only [keepFiles, headRequest, show s path = none from hr]
    rw [show (serving (keepFiles url href)).perform = keepFiles url href from rfl, hserve]
    exact ⟨rfl, rfl, rfl⟩
  put path lines s := ⟨rfl, rfl⟩
  put_range path lines data offset s r hr hle := by
    rw [show (serving (keepFiles url href)).perform = keepFiles url href from rfl,
      keepFiles_put_range (show s path = some r from hr), if_pos hle]
    exact ⟨rfl, rfl⟩
  put_new path lines data s hr := by
    have hserve : keepFiles url href ⟨.put, path, lines, some ⟨0, data.length⟩, .data data⟩ s =
        (plainReply 201, Function.update s path (some (.plain data))) := by
      simp only [keepFiles, show s path = none from hr]
    rw [show (serving (keepFiles url href)).perform = keepFiles url href from rfl, hserve]
    exact ⟨rfl, rfl⟩
  put_past path lines data offset s r hr hlt := by
    rw [show (serving (keepFiles url href)).perform = keepFiles url href from rfl,
      keepFiles_put_range (show s path = some r from hr), if_neg (Nat.not_le.mpr hlt)]
    exact ⟨rfl, rfl, rfl⟩
  get path data offset s r hr hdata hlt := by
    rw [show (serving (keepFiles url href)).perform = keepFiles url href from rfl,
      keepFiles_get (show s path = some r from hr) hdata, if_pos hlt]
    exact ⟨rfl, List.append_nil _, rfl⟩
  get_past path data offset s r hr hdata hle := by
    rw [show (serving (keepFiles url href)).perform = keepFiles url href from rfl,
      keepFiles_get (show s path = some r from hr) hdata, if_neg (Nat.not_lt.mpr hle)]
    exact ⟨rfl, rfl, rfl, rfl⟩
  delete path lines s r hr := by
    have hserve : keepFiles url href ⟨.delete, path, lines, none, .none⟩ s =
        (plainReply 204, Function.update s path none) := by
      simp only [keepFiles, show s path = some r from hr]
    rw [show (serving (keepFiles url href)).perform = keepFiles url href from rfl, hserve]
    exact ⟨rfl, rfl⟩
  proppatch path key value s r hr := by
    have hserve : keepFiles url href (proppatchRequest path key value) s =
        (plainReply 207, Function.update s path (some (r.patch key value))) := by
      simp only [keepFiles, proppatchRequest, show s path = some r from hr]
    rw [show (serving (keepFiles url href)).perform = keepFiles url href from rfl, hserve]
    exact ⟨rfl, rfl⟩
  propfind path s r hr := by
    have hserve : keepFiles url href (propfindRequest path 0) s =
        (fileReply (url path) (href path) r, s) := by
      simp only [keepFiles, propfindRequest, show s path = some r from hr]
    rw [show (serving (keepFiles url href)).perform = keepFiles url href from rfl, hserve]
    exact ⟨describesFile_fileReply _ _ r, rfl⟩

/-- The requests of `KeepsFiles`. -/
def onFile : Method → Bool
  | .head | .get | .put | .delete | .proppatch | .propfind => true
  | _ => false

/-- A server that answers these requests as one that keeps files does. -/
theorem KeepsFiles.congr {env env' : Env σ} {files : σ → Files} {url href : Path → Text}
    (hk : KeepsFiles env files url href) (hs : Steady env')
    (hunescape : ∀ text s, (env'.unescape text s).1.isSome ∧ (env'.unescape text s).2 = s)
    (hsame : ∀ request s, onFile request.method = true →
      env'.perform request s = env.perform request s) : KeepsFiles env' files url href where
  toSteady := hs
  unescape := hunescape
  head path s r hr hlt := by
    rw [hsame (headRequest path) s rfl]
    exact hk.head path s r hr hlt
  head_absent path s hr := by
    rw [hsame (headRequest path) s rfl]
    exact hk.head_absent path s hr
  put path lines s := by
    rw [hsame ⟨.put, path, lines, none, .none⟩ s rfl]
    exact hk.put path lines s
  put_range path lines data offset s r hr hle := by
    rw [hsame ⟨.put, path, lines, some ⟨offset, data.length⟩, .data data⟩ s rfl]
    exact hk.put_range path lines data offset s r hr hle
  put_new path lines data s hr := by
    rw [hsame ⟨.put, path, lines, some ⟨0, data.length⟩, .data data⟩ s rfl]
    exact hk.put_new path lines data s hr
  put_past path lines data offset s r hr hlt := by
    rw [hsame ⟨.put, path, lines, some ⟨offset, data.length⟩, .data data⟩ s rfl]
    exact hk.put_past path lines data offset s r hr hlt
  get path data offset s r hr hdata hlt := by
    rw [hsame (getRequest path data offset) s rfl]
    exact hk.get path data offset s r hr hdata hlt
  get_past path data offset s r hr hdata hle := by
    rw [hsame (getRequest path data offset) s rfl]
    exact hk.get_past path data offset s r hr hdata hle
  delete path lines s r hr := by
    rw [hsame ⟨.delete, path, lines, none, .none⟩ s rfl]
    exact hk.delete path lines s r hr
  proppatch path key value s r hr := by
    rw [hsame (proppatchRequest path key value) s rfl]
    exact hk.proppatch path key value s r hr
  propfind path s r hr := by
    rw [hsame (propfindRequest path 0) s rfl]
    exact hk.propfind path s r hr

/-- One file at `/a`, without properties. -/
def onlyFile (content : Bytes) : Files :=
  Function.update (fun _ => none) [47, 97] (some (.plain content))

end NetworkFs.Dav
