import NetworkFs.Dav.Exceptions

/-!
# Replies with absent nodes

`dav_propfind` and `__dav_lock` walk the tree of an XML reply and dereference what
they find: the parser context, the `status` of a `propstat`, the namespace of every
property, the first child of a text element. `PropfindSafe` and `LockSafe` say which
replies have everything they dereference.

* `scanLockdiscovery_eq_some_iff`: the `href` that the four nested scans of `__dav_lock` find.
* `davPropfind_returns_iff`, `davLockCore_returns_iff`: the functions return, with or
  without an exception, exactly on those replies.
* `propfind_lock_return_iff`: both, for the fillers `dav_readdir` and `dav_getattr` use.
-/

namespace NetworkFs.Dav

open Control Grammar Wrapper Text

variable {σ ρ α : Type} (env : Env σ) (srv : DavServer)

/-! ## Which replies have what is dereferenced -/

/-- The first node with a name, and the nodes after it. -/
def findRest (name : Text) : List Node → Option (Node × List Node)
  | [] => none
  | n :: ns => if n.name == name then some (n, ns) else findRest name ns

/-- `n` is the first of `ns` with the name, and `rest` comes after it. -/
def FirstNamed (name : Text) (ns : List Node) (n : Node) (rest : List Node) : Prop :=
  ∃ before, ns = before ++ n :: rest ∧ n.name = name ∧ ∀ m ∈ before, m.name ≠ name

/-- The first `prop` of a `propstat` and the first `status` after it. -/
def propStatus (propstat : Node) : Option (Node × Node) := do
  let prop ← findRest "prop".toList propstat.children
  let status ← findRest "status".toList prop.2
  pure (prop.1, status.1)

/-- The `propstat` children of a `response` after its first `href`. -/
def propstats (response : Node) : List Node :=
  match findRest "href".toList response.children with
  | none => []
  | some (_, rest) => rest.filter (·.name == "propstat".toList)

/-- The `propstat` has a `status`, and it is OK. -/
def isOk (propstat : Node) : Bool :=
  match propStatus propstat with
  | none => false
  | some (_, status) => statusOk status

/-- Those of a list of `propstat` that are looked at: up to the first OK one. -/
def examined : List Node → List Node
  | [] => []
  | p :: ps => if isOk p then [p] else p :: examined ps

/-- The `prop` of the first OK `propstat`. -/
def okProp (response : Node) : Option Node :=
  (((propstats response).find? isOk).bind propStatus).map Prod.fst

/-- The text of the first `href` of a `response`. -/
def hrefText (response : Node) : Option Text :=
  (findRest "href".toList response.children).bind fun r => entryText r.1

/-- A property has a namespace, and a text if its value is decoded. -/
def EntrySafe (entry : Node) : Prop :=
  ∃ ns, entry.ns = some ns ∧
    (ns = "DAV:".toList → entry.name = "getcontentlength".toList → (entryText entry).isSome) ∧
    (ns = "NETWORKFS:".toList → entry.name ∈ ["mode".toList, "size".toList, "owner".toList,
      "time".toList] → (entryText entry).isSome)

/-- Every `propstat` looked at has a `status` after its `prop`; if one is OK, its
    properties and the `href` have what is decoded. -/
structure ResponseSafe (response : Node) : Prop where
  status : ∀ p ∈ examined (propstats response), (propStatus p).isSome
  entries : ∀ prop, okProp response = some prop → ∀ entry ∈ prop.children, EntrySafe entry
  href : (okProp response).isSome → (hrefText response).isSome

/-- The loop goes on after this `response`, and the outside then: the `response` is as
    expected, and its name could be unescaped. -/
def goesOn (baseurl : Text) (response : Node) (s : σ) : Option σ :=
  match okProp response, hrefText response with
  | some _, some url =>
    if baseurl.isPrefixOf url then
      match env.unescape (url.drop baseurl.length) s with
      | (some _, s') => some s'
      | (none, _) => none
    else some s
  | _, _ => none

/-- The call of `filler` that a `response` leads to: none when its URL does not extend the
    effective one. -/
def fillCall (o : Opts) (baseurl : Text) (response : Node) (s : σ) : Option (Text × Stat) := do
  let prop ← okProp response
  let url ← hrefText response
  if baseurl.isPrefixOf url then
    let name ← (env.unescape (url.drop baseurl.length) s).1
    let st ← decodeStat o (xmlParserTimeNode (env.strptime · · s)) prop
    pure (entryName name, st)
  else none

/-- Every `response` among the children of the root that the loop reaches is safe. -/
def ResponsesSafe (baseurl : Text) : List Node → σ → Prop
  | [], _ => True
  | n :: ns, s =>
    if n.name = "response".toList then
      ResponseSafe n ∧ ∀ s', goesOn env baseurl n s = some s' → ResponsesSafe baseurl ns s'
    else ResponsesSafe baseurl ns s

/-- The reply to a `PROPFIND` has what `dav_propfind` dereferences. -/
def PropfindSafe (reply : Reply) (s : σ) : Prop :=
  reply.status = 207 → match reply.xml with
    | none => False
    | some .malformed => True
    | some (.document root) => ResponsesSafe env reply.effectiveUrl root.children s

/-- The reply to `request` if the option could be set and the request is not an
    error, and the outside then. -/
def sentReply (option : CurlOption) (request : Request) (s : σ) : Option (Reply × σ) :=
  if (sendAttempt env option request s).1 then
    some ((env.perform request (noError (env.setopt option) s).2).1,
      (sendAttempt env option request s).2)
  else none

/-- The line a weak append adds. -/
def weakLine (appended : Bool) (line : Header) : List Header := if appended then [line] else []

/-- The reply to the request of `dav_propfind`, and the outside then; none if the
    header, the option or the request fails. -/
def propfindAnswer (path : Path) (depth : ℤ) (s : σ) : Option (Reply × σ) :=
  let a := env.alloc .slist s
  let b := env.alloc .slist a.2
  let c := env.alloc .slist b.2
  if a.1 then
    sentReply env .customrequest ⟨.propfind, path, .depth depth ::
      (weakLine b.1 .preferMinimal ++ weakLine c.1 .contentTypeXml), none, .propfind⟩ c.2
  else none

/-- The reply `dav_propfind` gets, if it gets a handle too. -/
def propfindReceived (path : Path) (depth : ℤ) (s : σ) : Option (Reply × σ) :=
  if (initAttempt env srv.options path s).1 then
    propfindAnswer env path depth (initAttempt env srv.options path s).2
  else none

/-- `href` is what `__dav_lock` compares of a `lockdiscovery`. Its first child is an
    `activelock`; there the first `locktoken` after the first `timeout` counts, and in it the
    first `href`. -/
def LockHref (lockdiscovery href : Node) : Prop :=
  ∃ activelock others timeout later locktoken last after,
    lockdiscovery.children = activelock :: others ∧ activelock.name = "activelock".toList ∧
    FirstNamed "timeout".toList activelock.children timeout later ∧
    FirstNamed "locktoken".toList later locktoken last ∧
    FirstNamed "href".toList locktoken.children href after

/-- Every `lockdiscovery` that the loop of `__dav_lock` reaches and that has an `href`
    has a child in it; the loop stops at one that does not match. -/
def LocksSafe (token : Text) : List Node → Prop
  | [] => True
  | n :: ns =>
    if n.name = "lockdiscovery".toList then
      ∀ href, scanLockdiscovery n = some href →
        ∃ text, href.firstChild = some text ∧
          (xmlStrscmp text.content token = true → LocksSafe token ns)
    else LocksSafe token ns

/-- The first token in the header lines; none if it could not be stored. -/
def receivedToken : List Text → σ → Option (Option Text)
  | [], _ => some none
  | line :: lines, s =>
    match lockTokenText line with
    | none => receivedToken lines s
    | some token => if (env.alloc .simpleString s).1 then some (some token) else none

/-- The token and the body of the reply to `request`; none if the request or storing
    the token fails. -/
def lockReplied (request : Request) (s : σ) : Option (Option Text × Option XmlCtxt) :=
  let r := env.perform request s
  if r.1.code = .ok then (receivedToken env r.1.headers r.2).map fun token => (token, r.1.xml)
  else none

/-- The token and the body of the reply to a `LOCK` with the header `list` before the
    weak append; none also if the option fails. -/
def lockSent (path : Path) (list : List Header) (s : σ) : Option (Option Text × Option XmlCtxt) :=
  let a := env.alloc .slist s
  let b := noError (env.setopt .customrequest) a.2
  if b.1 then lockReplied env ⟨.lock, path, list ++ weakLine a.1 .contentTypeXml, none, .lockinfo⟩ b.2
  else none

/-- The same from the creation of the header on. -/
def lockAnswer (path : Path) (s : σ) : Option (Option Text × Option XmlCtxt) :=
  if (env.alloc .slist s).1 then lockSent env path [.timeout] (env.alloc .slist s).2 else none

/-- What `__dav_lock` gets, if it gets a handle too. -/
def lockReceived (path : Path) (s : σ) : Option (Option Text × Option XmlCtxt) :=
  if (initAttempt env srv.options path s).1 then
    lockAnswer env path (initAttempt env srv.options path s).2
  else none

/-- The reply to a `LOCK` has what `__dav_lock` dereferences. -/
def LockSafe (token : Option Text) (xml : Option XmlCtxt) : Prop :=
  match token, xml with
  | none, _ => True
  | some _, none => False
  | some _, some .malformed => True
  | some token, some (.document root) => LocksSafe token root.children

/-! ## The scans -/

theorem findRest_cons (name : Text) (n : Node) (ns : List Node) :
    findRest name (n :: ns) = if n.name == name then some (n, ns) else findRest name ns := rfl

theorem scanPropstat_done (prop status : Node) (ns : List Node) :
    scanPropstat ns (some prop) (some status) = (some prop, some status) := by
  cases ns <;> rfl

theorem scanPropstat_status (prop : Node) (ns : List Node) :
    scanPropstat ns (some prop) none =
      (some prop, (findRest "status".toList ns).map Prod.fst) := by
  induction ns with
  | nil => rfl
  | cons n ns ih =>
    rw [findRest_cons, scanPropstat]
    cases h : n.name == "status".toList with
    | false => exact ih
    | true => exact scanPropstat_done prop n ns

theorem scanPropstat_eq (ns : List Node) :
    scanPropstat ns none none = match findRest "prop".toList ns with
      | none => (none, none)
      | some (prop, rest) => (some prop, (findRest "status".toList rest).map Prod.fst) := by
  induction ns with
  | nil => rfl
  | cons n ns ih =>
    rw [findRest_cons, scanPropstat]
    cases h : n.name == "prop".toList with
    | false => exact ih
    | true => exact scanPropstat_status n ns

/-- A `propstat` without a `status` after its `prop`. -/
theorem scanPropstat_absent {p : Node} (h : propStatus p = none) :
    (scanPropstat p.children none none).2 = none := by
  rw [scanPropstat_eq]
  rcases hp : findRest "prop".toList p.children with _ | ⟨prop, rest⟩
  · rfl
  · rcases hs : findRest "status".toList rest with _ | ⟨status, rest'⟩
    · show (findRest "status".toList rest).map Prod.fst = none
      rw [hs]
      rfl
    · rw [propStatus, hp] at h
      simp only [Option.bind_eq_bind, Option.bind_some] at h
      rw [hs] at h
      exact nomatch h

theorem scanPropstat_present {p prop status : Node} (h : propStatus p = some (prop, status)) :
    scanPropstat p.children none none = (some prop, some status) := by
  rw [scanPropstat_eq]
  rcases hp : findRest "prop".toList p.children with _ | ⟨prop', rest⟩
  · rw [propStatus, hp] at h
    exact nomatch h
  · rcases hs : findRest "status".toList rest with _ | ⟨status', rest'⟩
    · rw [propStatus, hp] at h
      simp only [Option.bind_eq_bind, Option.bind_some] at h
      rw [hs] at h
      exact nomatch h
    · rw [propStatus, hp] at h
      simp only [Option.bind_eq_bind, Option.bind_some] at h
      rw [hs] at h
      obtain ⟨rfl, rfl⟩ := Prod.mk.inj (Option.some.inj h)
      show (some prop', (findRest "status".toList rest).map Prod.fst) = _
      rw [hs]
      rfl

theorem scanResponse_done (href : Node) (propstat : Option Node × Node) (ns : List Node) :
    scanResponse ns ⟨some href, some propstat⟩ = some ⟨some href, some propstat⟩ := by
  cases ns <;> rfl

theorem isOk_of_propStatus {p prop status : Node} (h : propStatus p = some (prop, status)) :
    isOk p = statusOk status := by
  rw [isOk, h]

/-- The `prop` and `status` the loop over a list of `propstat` ends with; absent when
    it dereferences a missing `status`. -/
def scanStats : List Node → Option (Option (Node × Node))
  | [] => some none
  | p :: ps =>
    match propStatus p with
    | none => none
    | some q => if isOk p then some (some q) else scanStats ps

/-- The loop over the children of a `response`, after `href` was found. -/
theorem scanResponse_propstats (href : Node) (ns : List Node) :
    scanResponse ns ⟨some href, none⟩ =
      (scanStats (ns.filter (·.name == "propstat".toList))).map fun q =>
        ⟨some href, q.map fun q => (some q.1, q.2)⟩ := by
  induction ns with
  | nil => rfl
  | cons n ns ih =>
    rw [List.filter_cons, scanResponse]
    cases h : n.name == "propstat".toList with
    | false => exact ih
    | true =>
      rw [if_pos rfl, if_pos rfl, scanStats]
      rcases hp : propStatus n with _ | ⟨prop, status⟩
      · rcases hscan : scanPropstat n.children none none with ⟨prop, status⟩
        have hs := scanPropstat_absent hp
        rw [hscan] at hs
        replace hs : status = none := hs
        rw [hs]
        rfl
      · rw [scanPropstat_present hp]
        show scanResponse ns ⟨some href, if statusOk status then some (some prop, status) else none⟩ = _
        rw [← isOk_of_propStatus hp]
        cases hok : isOk n with
        | true => exact scanResponse_done href (some prop, status) ns
        | false => exact ih

theorem scanStats_eq_none_iff (ps : List Node) :
    scanStats ps = none ↔ ∃ p ∈ examined ps, propStatus p = none := by
  induction ps with
  | nil => simp [scanStats, examined]
  | cons p ps ih =>
    unfold scanStats examined
    rcases hp : propStatus p with _ | q
    · have hok : isOk p = false := by rw [isOk, hp]
      simp [hok, hp]
    · cases hok : isOk p with
      | true => simp [hp]
      | false => simp [hp, ih]

theorem scanStats_eq_some {ps : List Node} {q : Option (Node × Node)} (h : scanStats ps = some q) :
    (ps.find? isOk).bind propStatus = q := by
  induction ps with
  | nil => exact Option.some.inj h
  | cons p ps ih =>
    unfold scanStats at h
    rcases hp : propStatus p with _ | q'
    · rw [hp] at h
      exact nomatch h
    · rw [hp] at h
      cases hok : isOk p with
      | true =>
        rw [hok] at h
        rw [List.find?_cons_of_pos hok, Option.bind_some, hp]
        exact Option.some.inj h
      | false =>
        rw [hok] at h
        rw [List.find?_cons_of_neg (by simp [hok])]
        exact ih h

theorem scanResponse_eq (ns : List Node) :
    scanResponse ns ⟨none, none⟩ = match findRest "href".toList ns with
      | none => some ⟨none, none⟩
      | some (href, rest) => scanResponse rest ⟨some href, none⟩ := by
  induction ns with
  | nil => rfl
  | cons n ns ih =>
    rw [findRest_cons, scanResponse]
    cases h : n.name == "href".toList with
    | false => exact ih
    | true => rfl

theorem findRest_eq_some_iff {name : Text} {ns : List Node} {n : Node} {rest : List Node} :
    findRest name ns = some (n, rest) ↔ FirstNamed name ns n rest := by
  induction ns with
  | nil =>
    refine iff_of_false (by simp [findRest]) ?_
    rintro ⟨before, hsplit, -⟩
    exact absurd hsplit (by simp)
  | cons m ns ih =>
    rw [findRest_cons]
    by_cases hm : m.name = name
    · rw [if_pos (beq_iff_eq.mpr hm)]
      constructor
      · intro hfirst
        obtain ⟨rfl, rfl⟩ := Prod.mk.inj (Option.some.inj hfirst)
        exact ⟨[], rfl, hm, fun _ hmem => absurd hmem List.not_mem_nil⟩
      · rintro ⟨_ | ⟨b, before⟩, hsplit, -, hbefore⟩
        · obtain ⟨rfl, rfl⟩ := List.cons.inj hsplit
          rfl
        · obtain ⟨rfl, -⟩ := List.cons.inj hsplit
          exact absurd hm (hbefore m List.mem_cons_self)
    · rw [if_neg (by simpa using hm), ih]
      constructor
      · rintro ⟨before, rfl, hname, hbefore⟩
        exact ⟨m :: before, rfl, hname, List.forall_mem_cons.mpr ⟨hm, hbefore⟩⟩
      · rintro ⟨_ | ⟨b, before⟩, hsplit, hname, hbefore⟩
        · obtain ⟨rfl, -⟩ := List.cons.inj hsplit
          exact absurd hname hm
        · obtain ⟨rfl, rfl⟩ := List.cons.inj hsplit
          exact ⟨before, rfl, hname, (List.forall_mem_cons.mp hbefore).2⟩

theorem find?_eq_findRest (name : Text) (ns : List Node) :
    ns.find? (·.name == name) = (findRest name ns).map Prod.fst := by
  induction ns with
  | nil => rfl
  | cons n ns ih =>
    rw [findRest_cons, List.find?_cons]
    cases h : n.name == name with
    | false => exact ih
    | true => rfl

theorem scanActivelock_done (timeout : Node) (locktoken : Option Node) (ns : List Node) :
    scanActivelock ns (some timeout) (some locktoken) = (some timeout, some locktoken) := by
  cases ns <;> rfl

theorem scanActivelock_locktoken (timeout : Node) (ns : List Node) :
    scanActivelock ns (some timeout) none = (some timeout,
      (findRest "locktoken".toList ns).map fun r =>
        (findRest "href".toList r.1.children).map Prod.fst) := by
  induction ns with
  | nil => rfl
  | cons n ns ih =>
    rw [findRest_cons, scanActivelock]
    cases h : n.name == "locktoken".toList with
    | false => exact ih
    | true =>
      rw [if_pos rfl, if_pos rfl, scanActivelock_done, find?_eq_findRest]
      rfl

theorem scanActivelock_eq (ns : List Node) :
    scanActivelock ns none none = match findRest "timeout".toList ns with
      | none => (none, none)
      | some (timeout, later) => (some timeout, (findRest "locktoken".toList later).map fun r =>
          (findRest "href".toList r.1.children).map Prod.fst) := by
  induction ns with
  | nil => rfl
  | cons n ns ih =>
    rw [findRest_cons, scanActivelock]
    cases h : n.name == "timeout".toList with
    | false => exact ih
    | true => exact scanActivelock_locktoken n ns

/-- The four nested scans of `__dav_lock`, as one search. -/
theorem scanLockdiscovery_eq (n : Node) : scanLockdiscovery n =
    n.firstChild.bind fun activelock =>
      if activelock.name = "activelock".toList then
        (findRest "timeout".toList activelock.children).bind fun timeout =>
          (findRest "locktoken".toList timeout.2).bind fun locktoken =>
            (findRest "href".toList locktoken.1.children).map Prod.fst
      else none := by
  rw [scanLockdiscovery]
  rcases n.firstChild with _ | activelock
  · rfl
  · show (if activelock.name = "activelock".toList then _ else none) = _
    rw [Option.bind_some, scanActivelock_eq]
    split_ifs
    · rcases findRest "timeout".toList activelock.children with _ | ⟨timeout, later⟩
      · rfl
      · dsimp only
        rw [Option.bind_some]
        rcases findRest "locktoken".toList later with _ | ⟨locktoken, last⟩
        · rfl
        · rfl
    · rfl

/-- What the scans find. -/
theorem scanLockdiscovery_eq_some_iff {n href : Node} :
    scanLockdiscovery n = some href ↔ LockHref n href := by
  rw [scanLockdiscovery_eq, Node.firstChild]
  constructor
  · intro h
    obtain ⟨activelock, hactive, h⟩ := Option.bind_eq_some_iff.mp h
    obtain ⟨others, hchildren⟩ := List.head?_eq_some_iff.mp hactive
    split_ifs at h with hname
    obtain ⟨⟨timeout, later⟩, htimeout, h⟩ := Option.bind_eq_some_iff.mp h
    obtain ⟨⟨locktoken, last⟩, htoken, h⟩ := Option.bind_eq_some_iff.mp h
    obtain ⟨⟨href', after⟩, hhref, rfl⟩ := Option.map_eq_some_iff.mp h
    exact ⟨activelock, others, timeout, later, locktoken, last, after, hchildren, hname,
      findRest_eq_some_iff.mp htimeout, findRest_eq_some_iff.mp htoken,
      findRest_eq_some_iff.mp hhref⟩
  · rintro ⟨activelock, others, timeout, later, locktoken, last, after, hchildren, hname, htimeout,
      htoken, hhref⟩
    rw [hchildren, List.head?_cons, Option.bind_some, if_pos hname,
      findRest_eq_some_iff.mpr htimeout, Option.bind_some, findRest_eq_some_iff.mpr htoken,
      Option.bind_some, findRest_eq_some_iff.mpr hhref]
    rfl

theorem xmlStrscmp_iff (content : Option Text) (token : Text) :
    xmlStrscmp content token = true ↔ token <+: content.getD [] := by
  cases content with
  | none => simp [xmlStrscmp]
  | some c => exact List.isPrefixOf_iff_prefix

/-! ## Decoding -/

theorem foldlM_isSome {β : Type} {f : β → α → Option β} {P : α → Prop}
    (h : ∀ b a, (f b a).isSome ↔ P a) (as : List α) (b : β) :
    (as.foldlM f b).isSome ↔ ∀ a ∈ as, P a := by
  induction as generalizing b with
  | nil => simp
  | cons a as ih =>
    rw [List.foldlM_cons, List.forall_mem_cons, ← h b a]
    rcases hb : f b a with _ | b'
    · simp
    · simpa using ih b'

theorem davProp_isSome (o : Opts) (time : Node → ℤ) (st : Stat) (entry : Node) :
    (davProp o time st entry).isSome ↔ ∃ ns, entry.ns = some ns ∧
      (ns = "DAV:".toList → entry.name = "getcontentlength".toList → (entryText entry).isSome) := by
  rcases hn : entry.ns with _ | ns
  · rw [davProp, hn]
    exact ⟨fun h => (nomatch h), fun ⟨_, h, _⟩ => (nomatch h)⟩
  · simp only [Option.some.injEq, exists_eq_left']
    rw [davProp, hn, Option.bind_eq_bind, Option.bind_some]
    by_cases hd : ns = "DAV:".toList
    · rw [if_neg (not_not_intro hd)]
      by_cases hname : entry.name = "getcontentlength".toList
      · rw [if_pos hname]
        rcases entryText entry with _ | text
        · exact ⟨fun h => (nomatch h), fun h => (nomatch h hd hname)⟩
        · exact ⟨fun _ _ _ => rfl, fun _ => rfl⟩
      · rw [if_neg hname]
        refine ⟨fun _ _ h => absurd h hname, fun _ => ?_⟩
        split_ifs <;> rfl
    · rw [if_pos hd]
      exact ⟨fun _ h => absurd h hd, fun _ => rfl⟩

theorem networkfsProp_isSome (st : Stat) (entry : Node) :
    (networkfsProp st entry).isSome ↔ ∃ ns, entry.ns = some ns ∧
      (ns = "NETWORKFS:".toList → entry.name ∈ ["mode".toList, "size".toList, "owner".toList,
        "time".toList] → (entryText entry).isSome) := by
  rcases hn : entry.ns with _ | ns
  · rw [networkfsProp, hn]
    exact ⟨fun h => (nomatch h), fun ⟨_, h, _⟩ => (nomatch h)⟩
  · simp only [Option.some.injEq, exists_eq_left']
    rw [networkfsProp, hn, Option.bind_eq_bind, Option.bind_some]
    by_cases hd : ns = "NETWORKFS:".toList
    · rw [if_neg (not_not_intro hd)]
      rw [List.mem_cons, List.mem_cons, List.mem_cons, List.mem_singleton]
      rcases ht : entryText entry with _ | text
      · -- each of the four dereferences the text
        constructor
        · intro h _ hmem
          split_ifs at h with h₁ h₂ h₃ h₄
          · exact nomatch h
          · exact nomatch h
          · exact nomatch h
          · exact nomatch h
          · rcases hmem with hm | hm | hm | hm
            · exact absurd hm h₁
            · exact absurd hm h₂
            · exact absurd hm h₃
            · exact absurd hm h₄
        · intro h
          have hmem := fun hm => Bool.false_ne_true (h hd hm)
          simp only [imp_false, not_or] at hmem
          rw [if_neg hmem.1, if_neg hmem.2.1, if_neg hmem.2.2.1, if_neg hmem.2.2.2]
          rfl
      · refine ⟨fun _ _ _ => rfl, fun _ => ?_⟩
        split_ifs <;> rfl
    · rw [if_pos hd]
      exact ⟨fun _ h => absurd h hd, fun _ => rfl⟩

theorem decodeStat_isSome (o : Opts) (time : Node → ℤ) (prop : Node) :
    (decodeStat o time prop).isSome ↔ ∀ entry ∈ prop.children, EntrySafe entry := by
  have hsplit : ∀ entry, EntrySafe entry ↔
      (∃ ns, entry.ns = some ns ∧ (ns = "DAV:".toList →
        entry.name = "getcontentlength".toList → (entryText entry).isSome)) ∧
      ∃ ns, entry.ns = some ns ∧ (ns = "NETWORKFS:".toList → entry.name ∈ ["mode".toList,
        "size".toList, "owner".toList, "time".toList] → (entryText entry).isSome) := by
    intro entry
    constructor
    · rintro ⟨ns, hn, hd, hnfs⟩
      exact ⟨⟨ns, hn, hd⟩, ns, hn, hnfs⟩
    · rintro ⟨⟨ns, hn, hd⟩, ns', hn', hnfs⟩
      rw [hn] at hn'
      obtain rfl := Option.some.inj hn'
      exact ⟨ns, hn, hd, hnfs⟩
  have hdav := foldlM_isSome (davProp_isSome o time) prop.children (initialStat o)
  unfold decodeStat
  rcases hst : prop.children.foldlM (davProp o time) (initialStat o) with _ | st
  · rw [hst] at hdav
    simp only [Option.bind_eq_bind, Option.bind_none]
    constructor
    · intro h
      exact nomatch h
    · intro h
      exact absurd (hdav.mpr fun entry he => ((hsplit entry).mp (h entry he)).1) (by simp)
  · rw [hst] at hdav
    simp only [Option.bind_eq_bind, Option.bind_some]
    rw [foldlM_isSome networkfsProp_isSome prop.children st]
    constructor
    · intro h entry he
      exact (hsplit entry).mpr ⟨hdav.mp rfl entry he, h entry he⟩
    · intro h entry he
      exact ((hsplit entry).mp (h entry he)).2

/-! ## One `response` -/

theorem scanResponse_response (response : Node) :
    scanResponse response.children ⟨none, none⟩ =
      (scanStats (propstats response)).map fun q =>
        ⟨(findRest "href".toList response.children).map Prod.fst,
          q.map fun q => (some q.1, q.2)⟩ := by
  rw [scanResponse_eq, propstats]
  rcases findRest "href".toList response.children with _ | ⟨href, rest⟩
  · rfl
  · exact scanResponse_propstats href rest

/-- The fillers of `dav_readdir` and `dav_getattr` fall through and leave the
    exception and the outside alone. -/
def Fills (filler : Text → Stat → Dav σ ρ Unit) : Prop :=
  ∀ name st t, ∃ t', filler name st t = (.ok (), t') ∧ t'.ex = t.ex ∧ t'.mem.env = t.mem.env

theorem fills_readdirFiller : Fills (readdirFiller : Text → Stat → Dav σ ρ Unit) :=
  fun _ _ _ => ⟨_, rfl, rfl, rfl⟩

theorem fills_davGetattrCallback : Fills (davGetattrCallback : Text → Stat → Dav σ ρ Unit) :=
  fun _ _ _ => ⟨_, rfl, rfl, rfl⟩

section Entry

variable (filler : Text → Stat → Dav σ ρ Unit) (baseurl : Text) {href prop : Node}
  {t : Thread (Mem σ)}

theorem propfindEntry_fault (h : ¬((∀ entry ∈ prop.children, EntrySafe entry) ∧
    (entryText href).isSome)) :
    propfindEntry env srv filler baseurl href prop t = (.error .fault, t) := by
  rw [propfindEntry, Ctl.bind_ok (Ctl.gets_apply _ t)]
  rw [← decodeStat_isSome srv.options (xmlParserTimeNode (env.strptime · · t.mem.env))] at h
  rcases hd : decodeStat srv.options (xmlParserTimeNode (env.strptime · · t.mem.env)) prop with _ | st
  · rfl
  · rcases hu : entryText href with _ | url
    · rfl
    · rw [hd, hu] at h
      exact absurd ⟨rfl, rfl⟩ h

/-- The entry after what it dereferences is known to be there. -/
theorem propfindEntry_safe {url : Text} (h : ∀ entry ∈ prop.children, EntrySafe entry)
    (hu : entryText href = some url) :
    ∃ st, decodeStat srv.options (xmlParserTimeNode (env.strptime · · t.mem.env)) prop = some st ∧
      propfindEntry env srv filler baseurl href prop t =
        (if baseurl.isPrefixOf url then do
          let _ ← throwable (fillEntry env filler (url.drop baseurl.length) st)
        else pure () : Dav σ ρ Unit) t := by
  rw [← decodeStat_isSome srv.options (xmlParserTimeNode (env.strptime · · t.mem.env))] at h
  obtain ⟨st, hst⟩ := Option.isSome_iff_exists.mp h
  refine ⟨st, hst, ?_⟩
  rw [propfindEntry, Ctl.bind_ok (Ctl.gets_apply _ t), hst, hu]
  rfl

theorem propfindEntry_skips {url : Text} (h : ∀ entry ∈ prop.children, EntrySafe entry)
    (hu : entryText href = some url) (hb : baseurl.isPrefixOf url = false) :
    propfindEntry env srv filler baseurl href prop t = (.ok (), t) := by
  obtain ⟨st, -, heq⟩ := propfindEntry_safe env srv filler baseurl (t := t) h hu
  rw [heq, hb]
  rfl

variable {filler} in
theorem propfindEntry_fills (hfiller : Fills filler) {url name : Text}
    (h : ∀ entry ∈ prop.children, EntrySafe entry) (hu : entryText href = some url)
    (hb : baseurl.isPrefixOf url = true) (ht : t.ex.has = false) {s : σ}
    (hn : env.unescape (url.drop baseurl.length) t.mem.env = (some name, s)) :
    ∃ st t', decodeStat srv.options (xmlParserTimeNode (env.strptime · · t.mem.env)) prop = some st ∧
      filler (entryName name) st (atEnv t s) = (.ok (), t') ∧
      propfindEntry env srv filler baseurl href prop t = (.ok (), t') ∧
      t'.ex.has = false ∧ t'.mem.env = s := by
  obtain ⟨st, hst, heq⟩ := propfindEntry_safe env srv filler baseurl (t := t) h hu
  have hinit : (curlEasyUnescapeE env (url.drop baseurl.length) : Dav σ ρ (Option Text)) t =
      (.ok (some name), atEnv t s) := by
    simp [curlEasyUnescapeE, Ctl.bind_apply, hn]
  obtain ⟨t', hf, hex, henv⟩ := hfiller (entryName name) st (atEnv t s)
  have hclean : t'.ex.has = false := by rw [hex]; exact ht
  have hfill : fillEntry env filler (url.drop baseurl.length) st t = (.ok (some ()), t') :=
    withTest_ok hinit (by simp [ht]) hf rfl
  rw [heq, hb, if_pos rfl, Ctl.bind_ok (throwable_clean hfill hclean)]
  exact ⟨st, t', hst, hf, rfl, hclean, henv⟩

theorem propfindEntry_stops {url : Text} (h : ∀ entry ∈ prop.children, EntrySafe entry)
    (hu : entryText href = some url) (hb : baseurl.isPrefixOf url = true)
    (hn : (env.unescape (url.drop baseurl.length) t.mem.env).1 = none) :
    ∃ s e, propfindEntry env srv filler baseurl href prop t =
      (.error .brk, raised (atEnv t s) e) := by
  obtain ⟨st, -, heq⟩ := propfindEntry_safe env srv filler baseurl (t := t) h hu
  have hinit : (curlEasyUnescapeE env (url.drop baseurl.length) : Dav σ ρ (Option Text)) t =
      (.ok none, raised (atEnv t (env.unescape (url.drop baseurl.length) t.mem.env).2)
        (.curl .ok 0 .unescape)) := by
    simp [curlEasyUnescapeE, Ctl.bind_apply, Ctl.map_apply, hn, raised]
  have hfill : fillEntry env filler (url.drop baseurl.length) st t = (.ok none,
      raised (atEnv t (env.unescape (url.drop baseurl.length) t.mem.env).2)
        (.curl .ok 0 .unescape)) := withTest_skip hinit (by simp) rfl
  rw [heq, hb, if_pos rfl, Ctl.bind_error (throwable_pending hfill (by simp))]
  exact ⟨_, _, rfl⟩

end Entry

section Response

variable {filler : Text → Stat → Dav σ ρ Unit} {response : Node} {t : Thread (Mem σ)}

/-- The `propstat` of a `response` without an `href` are not looked at. -/
theorem href_of_scanStats {q : Node × Node} (h : scanStats (propstats response) = some (some q)) :
    ∃ href rest, findRest "href".toList response.children = some (href, rest) := by
  rcases hr : findRest "href".toList response.children with _ | ⟨href, rest⟩
  · rw [propstats, hr] at h
    exact nomatch h
  · exact ⟨href, rest, rfl⟩

theorem okProp_of_scanStats {q : Option (Node × Node)}
    (h : scanStats (propstats response) = some q) : okProp response = q.map Prod.fst := by
  rw [okProp, scanStats_eq_some h]

/-- Every `propstat` that is looked at has its `status`. -/
theorem status_of_scanStats {q : Option (Node × Node)}
    (h : scanStats (propstats response) = some q) :
    ∀ p ∈ examined (propstats response), (propStatus p).isSome := by
  intro p hp
  by_contra hn
  have := (scanStats_eq_none_iff (propstats response)).mpr ⟨p, hp, by simpa using hn⟩
  rw [h] at this
  exact nomatch this

theorem goesOn_of_some (baseurl : Text) (s : σ) {prop : Node} {url : Text}
    (hprop : okProp response = some prop) (hurl : hrefText response = some url) :
    goesOn env baseurl response s = if baseurl.isPrefixOf url then
      match env.unescape (url.drop baseurl.length) s with
      | (some _, s') => some s'
      | (none, _) => none
    else some s := by
  rw [goesOn, hprop, hurl]

theorem fillCall_of_some (o : Opts) (baseurl : Text) (s : σ) {prop : Node} {url : Text}
    (hprop : okProp response = some prop) (hurl : hrefText response = some url) :
    fillCall env o baseurl response s = if baseurl.isPrefixOf url then do
      let name ← (env.unescape (url.drop baseurl.length) s).1
      let st ← decodeStat o (xmlParserTimeNode (env.strptime · · s)) prop
      pure (entryName name, st)
    else none := by
  rw [fillCall, hprop, Option.bind_eq_bind, Option.bind_some, hurl]
  rfl

/-- `t'` is `t` after the `call`, if any. -/
def Called (filler : Text → Stat → Dav σ ρ Unit) (call : Option (Text × Stat))
    (t t' : Thread (Mem σ)) : Prop :=
  match call with
  | none => t' = t
  | some c => ∃ s, filler c.1 c.2 (atEnv t s) = (.ok (), t')

/-- What one round of the loop over the `response` elements does. -/
theorem propfindResponse_cases (hfiller : Fills filler) (baseurl : Text)
    (hname : response.name = "response".toList) (ht : t.ex.has = false) :
    (¬ResponseSafe response ∧
      ∃ t', propfindResponse env srv filler baseurl response t = (.error .fault, t')) ∨
    (ResponseSafe response ∧ goesOn env baseurl response t.mem.env = none ∧
      ∃ s e, propfindResponse env srv filler baseurl response t =
        (.error .brk, raised (atEnv t s) e)) ∨
    (ResponseSafe response ∧ ∃ s, goesOn env baseurl response t.mem.env = some s ∧
      ∃ t', propfindResponse env srv filler baseurl response t = (.ok (), t') ∧
        t'.ex.has = false ∧ t'.mem.env = s ∧
        Called filler (fillCall env srv.options baseurl response t.mem.env) t t') := by
  have hb : (response.name == "response".toList) = true := beq_iff_eq.mpr hname
  rw [propfindResponse, if_pos hb, scanResponse_response]
  rcases hs : scanStats (propstats response) with _ | _ | ⟨prop, status⟩
  · refine .inl ⟨fun hsafe => ?_, t, rfl⟩
    obtain ⟨p, hp, hnone⟩ := (scanStats_eq_none_iff _).mp hs
    have hsome := hsafe.status p hp
    rw [hnone] at hsome
    exact nomatch hsome
  · have hok : okProp response = none := okProp_of_scanStats hs
    refine .inr (.inl ⟨⟨status_of_scanStats hs, ?_, ?_⟩, by rw [goesOn, hok], ?_⟩)
    · intro prop hprop
      exact nomatch hok.symm.trans hprop
    · intro hsome
      rw [hok] at hsome
      exact nomatch hsome
    · cases findRest "href".toList response.children <;> exact ⟨t.mem.env, _, rfl⟩
  · have hok : okProp response = some prop := okProp_of_scanStats hs
    obtain ⟨href, rest, hr⟩ := href_of_scanStats hs
    have hurl : hrefText response = entryText href := by rw [hrefText, hr]; rfl
    rw [hr]
    by_cases hsafe : (∀ entry ∈ prop.children, EntrySafe entry) ∧ (entryText href).isSome
    · have hresponse : ResponseSafe response := by
        refine ⟨status_of_scanStats hs, ?_, fun _ => by rw [hurl]; exact hsafe.2⟩
        intro prop' hprop'
        rw [← Option.some.inj (hok.symm.trans hprop')]
        exact hsafe.1
      obtain ⟨url, hu⟩ := Option.isSome_iff_exists.mp hsafe.2
      have hgoes := goesOn_of_some env baseurl t.mem.env hok (hurl.trans hu)
      cases hprefix : baseurl.isPrefixOf url with
      | false =>
        have hskip := propfindEntry_skips env srv filler baseurl (t := t) hsafe.1 hu hprefix
        have hcall : fillCall env srv.options baseurl response t.mem.env = none := by
          rw [fillCall_of_some env _ baseurl _ hok (hurl.trans hu), hprefix]
          rfl
        exact .inr (.inr ⟨hresponse, t.mem.env, by simp [hgoes, hprefix], t, hskip, ht, rfl,
          by rw [hcall]; rfl⟩)
      | true =>
        rcases hn : env.unescape (url.drop baseurl.length) t.mem.env with ⟨_ | name, s⟩
        · have hstop := propfindEntry_stops env srv filler baseurl hsafe.1 hu hprefix
            (by rw [hn])
          exact .inr (.inl ⟨hresponse, by simp [hgoes, hprefix, hn], hstop⟩)
        · obtain ⟨st, t', hst, hf, hrun, hex, henv⟩ :=
            propfindEntry_fills env srv baseurl hfiller hsafe.1 hu hprefix ht hn
          have hcall : fillCall env srv.options baseurl response t.mem.env =
              some (entryName name, st) := by
            rw [fillCall_of_some env _ baseurl _ hok (hurl.trans hu), hprefix, if_pos rfl, hn, hst]
            rfl
          exact .inr (.inr ⟨hresponse, s, by simp [hgoes, hprefix, hn], t', hrun, hex, henv,
            by rw [hcall]; exact ⟨s, hf⟩⟩)
    · refine .inl ⟨fun h => hsafe ⟨h.entries prop hok, ?_⟩, t, propfindEntry_fault env srv filler baseurl hsafe⟩
      rw [← hurl]
      exact h.href (by rw [hok]; rfl)

/-- The loop over the `response` elements falls through exactly when those it
    reaches are safe. -/
theorem propfindResponses_run (hfiller : Fills filler) (baseurl : Text) (ns : List Node)
    (ht : t.ex.has = false) :
    (ResponsesSafe env baseurl ns t.mem.env →
      ∃ t', Ctl.forEach ns (propfindResponse env srv filler baseurl) t = (.ok (), t')) ∧
    (¬ResponsesSafe env baseurl ns t.mem.env →
      ∃ t', Ctl.forEach ns (propfindResponse env srv filler baseurl) t = (.error .fault, t')) := by
  induction ns generalizing t with
  | nil => exact ⟨fun _ => ⟨t, rfl⟩, fun h => absurd trivial h⟩
  | cons n ns ih =>
    by_cases hname : n.name = "response".toList
    · rw [ResponsesSafe, if_pos hname]
      obtain ⟨hsafe, t', hrun⟩ | ⟨hsafe, hgoes, s, e, hrun⟩ |
        ⟨hsafe, s, hgoes, t', hrun, hex, henv, -⟩ :=
        propfindResponse_cases env srv hfiller baseurl hname ht
      · exact ⟨fun h => absurd h.1 hsafe, fun _ => ⟨t', Ctl.forEach_cons_fault hrun⟩⟩
      · refine ⟨fun _ => ⟨_, Ctl.forEach_cons_brk hrun⟩, fun h => absurd ⟨hsafe, ?_⟩ h⟩
        intro s' hs'
        exact nomatch hgoes.symm.trans hs'
      · have htail : (ResponseSafe n ∧ ∀ s', goesOn env baseurl n t.mem.env = some s' →
            ResponsesSafe env baseurl ns s') ↔ ResponsesSafe env baseurl ns t'.mem.env := by
          rw [hgoes, henv]
          constructor
          · intro h
            exact h.2 s rfl
          · intro h
            refine ⟨hsafe, fun s' hs' => ?_⟩
            rw [← Option.some.inj hs']
            exact h
        rw [htail, Ctl.forEach_cons_ok hrun]
        exact ih hex
    · have hskip : propfindResponse env srv filler baseurl n t = (.ok (), t) := by
        rw [propfindResponse, if_neg (by simpa using hname)]
        rfl
      rw [ResponsesSafe, if_neg hname, Ctl.forEach_cons_ok hskip]
      exact ih ht

theorem propfindReply_run (hfiller : Fills filler) (reply : Reply) (ht : t.ex.has = false) :
    (PropfindSafe env reply t.mem.env → (∃ t', propfindReply env srv filler reply t = (.ok (), t')) ∨
      ∃ t', propfindReply env srv filler reply t = (.error .brk, t')) ∧
    (¬PropfindSafe env reply t.mem.env →
      ∃ t', propfindReply env srv filler reply t = (.error .fault, t')) := by
  by_cases hstatus : reply.status = 207
  · rw [propfindReply, if_pos hstatus]
    unfold PropfindSafe
    rcases reply.xml with _ | _ | root
    · exact ⟨fun h => (h hstatus).elim, fun _ => ⟨t, rfl⟩⟩
    · exact ⟨fun _ => .inr ⟨_, rfl⟩, fun h => absurd (fun _ => trivial) h⟩
    · obtain ⟨hok, hfault⟩ := propfindResponses_run env srv hfiller reply.effectiveUrl root.children ht
      refine ⟨fun h => .inl (hok (h hstatus)), fun h => hfault fun h' => h fun _ => h'⟩
  · rw [propfindReply, if_neg hstatus]
    exact ⟨fun _ => .inr ⟨t, rfl⟩, fun h => absurd (fun hs => absurd hs hstatus) h⟩

end Response

/-! ## `dav_propfind` -/

theorem curlSlistAppendWeak_apply (list : List Header) (line : Header) (t : Thread (Mem σ)) :
    (curlSlistAppendWeak env list line : Dav σ ρ (List Header)) t =
      (.ok (list ++ weakLine (env.alloc .slist t.mem.env).1 line),
        atEnv t (env.alloc .slist t.mem.env).2) := by
  cases h : (env.alloc .slist t.mem.env).1 <;>
    simp [curlSlistAppendWeak, Ctl.bind_apply, h, weakLine]

theorem setAndPerform_received {option : CurlOption} {request : Request} {t : Thread (Mem σ)}
    (h : t.ex.has = false) {reply : Reply} {s : σ}
    (hr : sentReply env option request t.mem.env = some (reply, s)) :
    (setAndPerform env option request : Dav σ ρ Reply) t =
      (.ok reply, logged request (atEnv t s)) := by
  unfold sentReply at hr
  split_ifs at hr with hp
  obtain ⟨rfl, rfl⟩ := Prod.mk.inj (Option.some.inj hr)
  rw [sendAttempt, Attempt.andThen_fst] at hp
  obtain ⟨hs, hq⟩ := hp
  rw [setAndPerform_eq, Ctl.bind_ok ((breaks_curlEasySetoptOrDie env option t h).1 hs),
    performChecked_ok env (by simpa [performAttempt] using hq), sendAttempt,
    Attempt.andThen_of_pass hs]
  rfl

theorem setAndPerform_not_received {option : CurlOption} {request : Request} {t : Thread (Mem σ)}
    (h : t.ex.has = false) (hr : sentReply env option request t.mem.env = none) :
    ∃ t', (setAndPerform env option request : Dav σ ρ Reply) t = (.error .brk, t') ∧
      t'.ex.has = true := by
  unfold sentReply at hr
  split_ifs at hr with hp
  obtain ⟨t', hm, hex, -⟩ := setAndPerform_fail (ρ := ρ) env h (by simpa using hp)
  exact ⟨t', hm, hex⟩

theorem propfindSend_apply (path : Path) (list : List Header) (t : Thread (Mem σ)) :
    (propfindSend env path list : Dav σ ρ Reply) t =
      (setAndPerform env .customrequest ⟨.propfind, path, list ++
        (weakLine (env.alloc .slist t.mem.env).1 .preferMinimal ++
          weakLine (env.alloc .slist (env.alloc .slist t.mem.env).2).1 .contentTypeXml),
        none, .propfind⟩ : Dav σ ρ Reply)
        (atEnv t (env.alloc .slist (env.alloc .slist t.mem.env).2).2) := by
  simp [propfindSend, Ctl.bind_apply, curlSlistAppendWeak_apply]

/-- What the fillers write is as it was. -/
def SameOutput (t t' : Thread (Mem σ)) : Prop :=
  t'.mem.entries = t.mem.entries ∧ t'.mem.stbuf = t.mem.stbuf

/-- The scope of `dav_propfind`, as far as it matters for what follows. -/
theorem propfindScope_run (path : Path) (depth : ℤ) {t : Thread (Mem σ)} (h : t.ex.has = false) :
    (∀ reply s, propfindAnswer env path depth t.mem.env = some (reply, s) →
      ∃ t', (throwable (propfindScope env path depth) : Dav σ ρ (Option Reply)) t =
        (.ok (some reply), t') ∧ t'.ex.has = false ∧ t'.mem.env = s ∧ SameOutput t t') ∧
    (propfindAnswer env path depth t.mem.env = none →
      ∃ t', (throwable (propfindScope env path depth) : Dav σ ρ (Option Reply)) t =
        (.error .brk, t') ∧ t'.ex.has = true) := by
  have happend := raises_curlSlistAppendE (ρ := ρ) env [] (.depth depth) t h
  unfold propfindAnswer
  cases ha : (env.alloc .slist t.mem.env).1 with
  | false =>
    obtain ⟨_, e, hraise⟩ := happend.2 ha
    have hskip : (propfindScope env path depth : Dav σ ρ (Option Reply)) t =
        (.ok none, raised (atEnv t (env.alloc .slist t.mem.env).2) e) :=
      withTest_skip hraise (by simp) rfl
    refine ⟨fun reply s hr => ?_, fun _ => ⟨_, throwable_pending hskip (by simp), rfl⟩⟩
    simp only [ha, Bool.false_eq_true, if_false] at hr
    exact nomatch hr
  | true =>
    have henter : (propfindScope env path depth : Dav σ ρ (Option Reply)) t =
        Ctl.doOnce (propfindSend env path [.depth depth]) (atEnv t (env.alloc .slist t.mem.env).2) :=
      withSeperated_entered (happend.1 ha) h
    have hsend := propfindSend_apply (ρ := ρ) env path [.depth depth]
      (atEnv t (env.alloc .slist t.mem.env).2)
    simp only [ha, if_true]
    refine ⟨fun reply s hr => ?_, fun hr => ?_⟩
    · have hset := hsend.trans (setAndPerform_received (ρ := ρ) env
        (t := atEnv t (env.alloc .slist (env.alloc .slist (env.alloc .slist t.mem.env).2).2).2) h hr)
      exact ⟨_, throwable_clean (henter.trans (Ctl.doOnce_ok hset)) h, h, rfl, rfl, rfl⟩
    · obtain ⟨t', hset, hex⟩ := setAndPerform_not_received (ρ := ρ) env
        (t := atEnv t (env.alloc .slist (env.alloc .slist (env.alloc .slist t.mem.env).2).2).2) h hr
      exact ⟨t', throwable_pending (henter.trans (Ctl.doOnce_brk (hsend.trans hset))) hex, hex⟩

section Propfind

variable {path : Path} {depth : ℤ} {filler : Text → Stat → Dav σ ρ Unit} {t t₁ : Thread (Mem σ)}

theorem davPropfind_ok {u : Option Unit} (h : t.ex.has = false)
    (hw : withCurl env srv.options path (propfindBody env srv path depth filler) t = (.ok u, t₁)) :
    ∃ v, davPropfind env srv path depth filler t = (.ok v, t₁) := by
  cases hex : t₁.ex.has with
  | true =>
    simp [davPropfind, Ctl.bind_apply, Ctl.map_apply, withBuffer_clean h, Ctl.doOnce,
      throwable_pending hw hex]
  | false =>
    simp [davPropfind, Ctl.bind_apply, Ctl.map_apply, withBuffer_clean h, Ctl.doOnce,
      throwable_clean hw hex]

theorem davPropfind_fault (h : t.ex.has = false)
    (hw : withCurl env srv.options path (propfindBody env srv path depth filler) t =
      (.error .fault, t₁)) :
    davPropfind env srv path depth filler t = (.error .fault, t₁) := by
  simp [davPropfind, Ctl.bind_apply, Ctl.map_apply, withBuffer_clean h, Ctl.doOnce,
    throwable_error hw]

theorem davPropfind_pending (h : t.ex.has = true) :
    davPropfind env srv path depth filler t = (.ok 1, t) := by
  rw [davPropfind, Ctl.bind_ok (withBuffer_pending h), testSuccess_apply, h]
  rfl

/-- Without a reply `dav_propfind` leaves an exception. -/
theorem davPropfind_not_received (filler : Text → Stat → Dav σ ρ Unit) (h : t.ex.has = false)
    (hr : propfindReceived env srv path depth t.mem.env = none) :
    ∃ v t', davPropfind env srv path depth filler t = (.ok v, t') ∧ t'.ex.has = true := by
  unfold propfindReceived at hr
  cases hi : (initAttempt env srv.options path t.mem.env).1 with
  | false =>
    obtain ⟨e, hw⟩ := withCurl_failed env (propfindBody env srv path depth filler) h hi
    obtain ⟨v, hv⟩ := davPropfind_ok env srv h hw
    exact ⟨v, _, hv, rfl⟩
  | true =>
    rw [if_pos hi] at hr
    obtain ⟨t', hscope, hex⟩ := (propfindScope_run (ρ := ρ) env path depth
      (t := atEnv t (initAttempt env srv.options path t.mem.env).2) h).2 hr
    obtain ⟨v, hv⟩ := davPropfind_ok env srv h ((withCurl_entered env h hi).trans
      (Ctl.doOnce_brk (Ctl.bind_error hscope)))
    exact ⟨v, t', hv, hex⟩

/-- With a reply `dav_propfind` does what `propfindReply` does. -/
theorem davPropfind_received (filler : Text → Stat → Dav σ ρ Unit) (h : t.ex.has = false)
    {reply : Reply} {s : σ} (hr : propfindReceived env srv path depth t.mem.env = some (reply, s)) :
    ∃ t₀, t₀.ex.has = false ∧ t₀.mem.env = s ∧ SameOutput t t₀ ∧
      (∀ t', propfindReply env srv filler reply t₀ = (.ok (), t') ∨
        propfindReply env srv filler reply t₀ = (.error .brk, t') →
          ∃ v, davPropfind env srv path depth filler t = (.ok v, t')) ∧
      (∀ t', propfindReply env srv filler reply t₀ = (.error .fault, t') →
        davPropfind env srv path depth filler t = (.error .fault, t')) := by
  unfold propfindReceived at hr
  split_ifs at hr with hi
  obtain ⟨t₀, hscope, hex, henv, hsame⟩ :=
    (propfindScope_run (ρ := ρ) env path depth
      (t := atEnv t (initAttempt env srv.options path t.mem.env).2) h).1 reply s hr
  have henter : withCurl env srv.options path (propfindBody env srv path depth filler) t =
      Ctl.doOnce (propfindBody env srv path depth filler) (atEnv t _) := withCurl_entered env h hi
  have hbody : propfindBody env srv path depth filler
      (atEnv t (initAttempt env srv.options path t.mem.env).2) =
        propfindReply env srv filler reply t₀ := by
    rw [propfindBody, Ctl.bind_ok hscope]
    rfl
  refine ⟨t₀, hex, henv, hsame, fun t' hrun => ?_, fun t' hrun => ?_⟩
  · rcases hrun with hrun | hrun
    · exact davPropfind_ok env srv h (henter.trans (Ctl.doOnce_ok (hbody.trans hrun)))
    · exact davPropfind_ok env srv h (henter.trans (Ctl.doOnce_brk (hbody.trans hrun)))
  · exact davPropfind_fault env srv h (henter.trans (Ctl.doOnce_fault (hbody.trans hrun)))

/-- `dav_propfind` returns exactly when the reply it gets, if any, has what it
    dereferences. -/
theorem davPropfind_returns_iff (hfiller : Fills filler) :
    (∃ v t', davPropfind env srv path depth filler t = (.ok v, t')) ↔ (t.ex.has = false →
      ∀ reply s, propfindReceived env srv path depth t.mem.env = some (reply, s) →
        PropfindSafe env reply s) := by
  cases h : t.ex.has with
  | true =>
    exact ⟨fun _ h => (nomatch h), fun _ => ⟨1, t, davPropfind_pending env srv h⟩⟩
  | false =>
    rcases hr : propfindReceived env srv path depth t.mem.env with _ | ⟨reply, s⟩
    · obtain ⟨v, t', hv, -⟩ := davPropfind_not_received env srv filler h hr
      exact ⟨fun _ _ _ _ hr => (nomatch hr), fun _ => ⟨v, t', hv⟩⟩
    · obtain ⟨t₀, hex, henv, -, hreturns, hfaults⟩ := davPropfind_received env srv filler h hr
      obtain ⟨hsafe, hfault⟩ := propfindReply_run env srv hfiller reply hex
      rw [henv] at hsafe hfault
      constructor
      · rintro ⟨v, t', hv⟩ - reply' s' hr'
        obtain ⟨rfl, rfl⟩ := Prod.mk.inj (Option.some.inj hr')
        by_contra hn
        obtain ⟨t'', hrun⟩ := hfault hn
        rw [hfaults t'' hrun] at hv
        exact nomatch hv
      · intro hs
        rcases hsafe (hs rfl reply s rfl) with ⟨t', hrun⟩ | ⟨t', hrun⟩
        · obtain ⟨v, hv⟩ := hreturns t' (.inl hrun)
          exact ⟨v, t', hv⟩
        · obtain ⟨v, hv⟩ := hreturns t' (.inr hrun)
          exact ⟨v, t', hv⟩

end Propfind

/-! ## `__dav_lock` -/

section Lock

variable {path : Path} {t t₁ : Thread (Mem σ)}

/-- The header lines after the token was stored. -/
theorem foldlM_davLockCallback_some (token : Text) (lines : List Text) (t : Thread (Mem σ)) :
    (lines.foldlM (davLockCallback env) (some token) : Dav σ ρ (Option Text)) t =
      (.ok (some token), t) := by
  induction lines with
  | nil => rfl
  | cons line lines ih =>
    rw [List.foldlM_cons]
    have hstep : (davLockCallback env (some token) line : Dav σ ρ (Option Text)) t =
        (.ok (some token), t) := by
      cases h : lockTokenText line <;> simp [davLockCallback]
    rw [Ctl.bind_ok hstep]
    exact ih

/-- An exception that a header line raised stays. -/
theorem foldlM_davLockCallback_pending (token : Option Text) (lines : List Text)
    (h : t.ex.has = true) : ∃ token' t', (lines.foldlM (davLockCallback env) token :
      Dav σ ρ (Option Text)) t = (.ok token', t') ∧ t'.ex.has = true := by
  induction lines generalizing token t with
  | nil => exact ⟨token, t, rfl, h⟩
  | cons line lines ih =>
    have hstep : ∃ token₁ t₁, (davLockCallback env token line : Dav σ ρ (Option Text)) t =
        (.ok token₁, t₁) ∧ t₁.ex.has = true := by
      rcases token with _ | token <;> rcases hl : lockTokenText line with _ | text
      · exact ⟨none, t, by simp [davLockCallback, hl], h⟩
      · cases ha : (env.alloc .simpleString t.mem.env).1 with
        | true =>
          exact ⟨some text, atEnv t (env.alloc .simpleString t.mem.env).2,
            by simp [davLockCallback, hl, Ctl.bind_apply, ha], h⟩
        | false =>
          exact ⟨none, raised (atEnv t (env.alloc .simpleString t.mem.env).2)
            (.malloc "SimpleString"),
            by simp [davLockCallback, hl, Ctl.bind_apply, Ctl.map_apply, ha, raised], rfl⟩
      · exact ⟨some token, t, by simp [davLockCallback], h⟩
      · exact ⟨some token, t, by simp [davLockCallback], h⟩
    obtain ⟨token₁, t₁, hrun, hex⟩ := hstep
    rw [List.foldlM_cons, Ctl.bind_ok hrun]
    exact ih token₁ hex

theorem foldlM_davLockCallback_run (lines : List Text) (h : t.ex.has = false) :
    (∀ token, receivedToken env lines t.mem.env = some token →
      ∃ t', (lines.foldlM (davLockCallback env) none : Dav σ ρ (Option Text)) t =
        (.ok token, t') ∧ t'.ex.has = false) ∧
    (receivedToken env lines t.mem.env = none →
      ∃ token t', (lines.foldlM (davLockCallback env) none : Dav σ ρ (Option Text)) t =
        (.ok token, t') ∧ t'.ex.has = true) := by
  induction lines with
  | nil =>
    refine ⟨fun token hr => ⟨t, ?_, h⟩, fun hr => (nomatch hr)⟩
    rw [← Option.some.inj hr]
    rfl
  | cons line lines ih =>
    rw [receivedToken, List.foldlM_cons]
    rcases hl : lockTokenText line with _ | text
    · have hstep : (davLockCallback env none line : Dav σ ρ (Option Text)) t = (.ok none, t) := by
        simp [davLockCallback, hl]
      rw [Ctl.bind_ok hstep]
      exact ih
    · cases ha : (env.alloc .simpleString t.mem.env).1 with
      | true =>
        have hstep : (davLockCallback env none line : Dav σ ρ (Option Text)) t =
            (.ok (some text), atEnv t (env.alloc .simpleString t.mem.env).2) := by
          simp [davLockCallback, hl, Ctl.bind_apply, ha]
        rw [Ctl.bind_ok hstep, foldlM_davLockCallback_some]
        refine ⟨fun token hr => ⟨atEnv t (env.alloc .simpleString t.mem.env).2, ?_, h⟩,
          fun hr => absurd hr (by simp)⟩
        have htoken : some text = token := by simpa [ha] using hr
        rw [htoken]
      | false =>
        have hstep : (davLockCallback env none line : Dav σ ρ (Option Text)) t =
            (.ok none, raised (atEnv t (env.alloc .simpleString t.mem.env).2)
              (.malloc "SimpleString")) := by
          simp [davLockCallback, hl, Ctl.bind_apply, Ctl.map_apply, ha, raised]
        rw [Ctl.bind_ok hstep]
        exact ⟨fun token hr => absurd hr (by simp),
          fun _ => foldlM_davLockCallback_pending env none lines rfl⟩

/-- `m` falls through with `x` and no exception, or leaves one where `x` is absent. -/
def Answers (m : Dav σ ρ α) (t : Thread (Mem σ)) (x : Option α) : Prop :=
  match x with
  | some a => ∃ t', m t = (.ok a, t') ∧ t'.ex.has = false
  | none => ∃ t', t'.ex.has = true ∧ (m t = (.error .brk, t') ∨ ∃ a, m t = (.ok a, t'))

/-- Like `Answers`, but `m` breaks where it leaves an exception. -/
def Delivers (m : Dav σ ρ α) (t : Thread (Mem σ)) (x : Option α) : Prop :=
  match x with
  | some a => ∃ t', m t = (.ok a, t') ∧ t'.ex.has = false
  | none => ∃ t', m t = (.error .brk, t') ∧ t'.ex.has = true

theorem Answers.step {β : Type} {m : Dav σ ρ β} {f : β → Dav σ ρ α} {b : β} {x : Option α}
    (hm : m t = (.ok b, t₁)) (hf : Answers (f b) t₁ x) : Answers (m >>= f) t x := by
  unfold Answers at hf ⊢
  rw [Ctl.bind_ok hm]
  exact hf

theorem Answers.of_brk {m : Dav σ ρ α} (hm : m t = (.error .brk, t₁)) (hex : t₁.ex.has = true) :
    Answers m t none :=
  ⟨t₁, hex, .inl hm⟩

/-- `throwable scope ...`, entered, around a body that answers. -/
theorem Answers.doOnce {m : Dav σ ρ (Option α)} {body : Dav σ ρ α} {x : Option α}
    (hm : m t = Ctl.doOnce body t₁) (hbody : Answers body t₁ x) :
    Delivers (throwable m) t (x.map some) := by
  rcases x with _ | a
  · obtain ⟨t', hex, hrun | ⟨a, hrun⟩⟩ := hbody
    · exact ⟨t', throwable_pending (hm.trans (Ctl.doOnce_brk hrun)) hex, hex⟩
    · exact ⟨t', throwable_pending (hm.trans (Ctl.doOnce_ok hrun)) hex, hex⟩
  · obtain ⟨t', hrun, hex⟩ := hbody
    exact ⟨t', throwable_clean (hm.trans (Ctl.doOnce_ok hrun)) hex, hex⟩

/-- The request of `__dav_lock`: the token and the body, or an exception. -/
theorem answers_lockPerform (request : Request) (h : t.ex.has = false) :
    Answers (lockPerform env request : Dav σ ρ (Option Text × Option XmlCtxt)) t
      (lockReplied env request t.mem.env) := by
  unfold lockReplied
  dsimp only
  set reply := (env.perform request t.mem.env).1 with hreply
  have hperform : (curlEasyPerform env request : Dav σ ρ Reply) t =
      (.ok reply, logged request (atEnv t (env.perform request t.mem.env).2)) := rfl
  obtain ⟨hstored, hlost⟩ := foldlM_davLockCallback_run (ρ := ρ) env reply.headers
    (t := logged request (atEnv t (env.perform request t.mem.env).2)) h
  refine .step hperform ?_
  by_cases hcode : reply.code = .ok
  · rw [if_pos hcode]
    rcases hr : receivedToken env reply.headers (env.perform request t.mem.env).2 with _ | token
    · obtain ⟨token, t', hfold, hex⟩ := hlost hr
      refine .step hfold ⟨t', hex, .inr ⟨(token, reply.xml), ?_⟩⟩
      rw [performOrDie, hcode]
      rfl
    · obtain ⟨t', hfold, hex⟩ := hstored token hr
      refine .step hfold ⟨t', ?_, hex⟩
      rw [performOrDie, hcode]
      rfl
  · have hfold : ∃ token t', (reply.headers.foldlM (davLockCallback env) none :
        Dav σ ρ (Option Text)) (logged request (atEnv t (env.perform request t.mem.env).2)) =
          (.ok token, t') := by
      rcases hr : receivedToken env reply.headers (env.perform request t.mem.env).2 with _ | token
      · obtain ⟨token, t', hfold, -⟩ := hlost hr
        exact ⟨token, t', hfold⟩
      · obtain ⟨t', hfold, -⟩ := hstored token hr
        exact ⟨token, t', hfold⟩
    obtain ⟨token, t', hfold⟩ := hfold
    have hb : (reply.code == .ok) = false := by simpa using hcode
    rw [if_neg hcode]
    have hthrow : (performOrDie reply.code reply.status : Dav σ ρ Unit) t' =
        (.error .brk, raised t' (.curl reply.code reply.status .perform)) := by
      rw [performOrDie, hb]
      rfl
    exact .step hfold (.of_brk (Ctl.bind_error hthrow) rfl)

theorem answers_lockSend (list : List Header) (h : t.ex.has = false) :
    Answers (lockSend env path list : Dav σ ρ (Option Text × Option XmlCtxt)) t
      (lockSent env path list t.mem.env) := by
  unfold lockSent
  dsimp only
  refine .step (curlSlistAppendWeak_apply env list .contentTypeXml t) ?_
  have hset := breaks_curlEasySetoptOrDie (ρ := ρ) env .customrequest
    (atEnv t (env.alloc .slist t.mem.env).2) h
  cases hs : (noError (env.setopt .customrequest) (env.alloc .slist t.mem.env).2).1 with
  | false =>
    obtain ⟨e, he⟩ := hset.2 hs
    exact .of_brk (Ctl.bind_error he) rfl
  | true =>
    exact .step (hset.1 hs) (answers_lockPerform env _ h)

/-- The scope of `__dav_lock`. -/
theorem delivers_lockScope (path : Path) (h : t.ex.has = false) :
    Delivers (throwable (lockScope env path) : Dav σ ρ _) t
      ((lockAnswer env path t.mem.env).map some) := by
  have happend := raises_curlSlistAppendE (ρ := ρ) env [] .timeout t h
  unfold lockAnswer
  cases ha : (env.alloc .slist t.mem.env).1 with
  | false =>
    obtain ⟨_, e, hraise⟩ := happend.2 ha
    have hskip : (lockScope env path : Dav σ ρ _) t =
        (.ok none, raised (atEnv t (env.alloc .slist t.mem.env).2) e) :=
      withTest_skip hraise (by simp) rfl
    exact ⟨_, throwable_pending hskip (by simp), by simp⟩
  | true =>
    have henter : (lockScope env path : Dav σ ρ _) t =
        Ctl.doOnce (lockSend env path [.timeout]) (atEnv t (env.alloc .slist t.mem.env).2) :=
      withSeperated_entered (happend.1 ha) h
    exact Answers.doOnce henter (answers_lockSend env [.timeout] h)

section Round

variable (token : Text) {n : Node} (hname : n.name = "lockdiscovery".toList)

include hname

theorem lockRound_unexpected (h : scanLockdiscovery n = none) :
    ∃ t', (lockRound token n : Dav σ ρ Unit) t = (.error .brk, t') := by
  rw [lockRound, if_pos (beq_iff_eq.mpr hname), h]
  exact ⟨_, rfl⟩

theorem lockRound_absent {href : Node} (h : scanLockdiscovery n = some href)
    (hc : href.firstChild = none) : (lockRound token n : Dav σ ρ Unit) t = (.error .fault, t) := by
  rw [lockRound, if_pos (beq_iff_eq.mpr hname), h]
  simp only [hc]
  rfl

theorem lockRound_match {href text : Node} (h : scanLockdiscovery n = some href)
    (hc : href.firstChild = some text) (hm : xmlStrscmp text.content token = true) :
    (lockRound token n : Dav σ ρ Unit) t = (.ok (), t) := by
  rw [lockRound, if_pos (beq_iff_eq.mpr hname), h]
  simp [hc, hm]

theorem lockRound_mismatch {href text : Node} (h : scanLockdiscovery n = some href)
    (hc : href.firstChild = some text) (hm : ¬xmlStrscmp text.content token = true) :
    ∃ t', (lockRound token n : Dav σ ρ Unit) t = (.error .brk, t') := by
  rw [lockRound, if_pos (beq_iff_eq.mpr hname), h]
  simp [hc, hm]

end Round

/-- The loop of `__dav_lock` falls through exactly when what it reaches is safe. -/
theorem lockRounds_run (token : Text) (ns : List Node) (t : Thread (Mem σ)) :
    (LocksSafe token ns → ∃ t', (Ctl.forEach ns (lockRound token) : Dav σ ρ Unit) t = (.ok (), t')) ∧
    (¬LocksSafe token ns →
      ∃ t', (Ctl.forEach ns (lockRound token) : Dav σ ρ Unit) t = (.error .fault, t')) := by
  induction ns with
  | nil => exact ⟨fun _ => ⟨t, rfl⟩, fun h => absurd trivial h⟩
  | cons n ns ih =>
    by_cases hname : n.name = "lockdiscovery".toList
    · rw [LocksSafe, if_pos hname]
      rcases hscan : scanLockdiscovery n with _ | href
      · obtain ⟨t', hround⟩ := lockRound_unexpected (ρ := ρ) (t := t) token hname hscan
        exact ⟨fun _ => ⟨t', Ctl.forEach_cons_brk hround⟩, fun h => absurd nofun h⟩
      · simp only [Option.some.injEq, forall_eq']
        rcases hchild : href.firstChild with _ | text
        · have hround := lockRound_absent (ρ := ρ) (t := t) token hname hscan hchild
          refine ⟨fun h => ?_, fun _ => ⟨t, Ctl.forEach_cons_fault hround⟩⟩
          obtain ⟨_, h, -⟩ := h
          exact nomatch h
        · simp only [Option.some.injEq, exists_eq_left']
          by_cases hm : xmlStrscmp text.content token = true
          · have hround := lockRound_match (ρ := ρ) (t := t) token hname hscan hchild hm
            rw [Ctl.forEach_cons_ok hround]
            exact ⟨fun h => ih.1 (h hm), fun h => ih.2 fun h' => h fun _ => h'⟩
          · obtain ⟨t', hround⟩ := lockRound_mismatch (ρ := ρ) (t := t) token hname hscan hchild hm
            exact ⟨fun _ => ⟨t', Ctl.forEach_cons_brk hround⟩,
              fun h => absurd (fun h' => absurd h' hm) h⟩
    · have hskip : (lockRound token n : Dav σ ρ Unit) t = (.ok (), t) := by
        rw [lockRound, if_neg (by simpa using hname)]
        rfl
      rw [LocksSafe, if_neg hname, Ctl.forEach_cons_ok hskip]
      exact ih

theorem lockReply_run (token : Option Text) (xml : Option XmlCtxt) (t : Thread (Mem σ)) :
    (LockSafe token xml → (∃ a t', (lockReply token xml : Dav σ ρ _) t = (.ok a, t')) ∨
      ∃ t', (lockReply token xml : Dav σ ρ _) t = (.error .brk, t')) ∧
    (¬LockSafe token xml → ∃ t', (lockReply token xml : Dav σ ρ _) t = (.error .fault, t')) := by
  rcases token with _ | token
  · exact ⟨fun _ => .inr ⟨_, rfl⟩, fun h => absurd trivial h⟩
  · rcases xml with _ | _ | root
    · exact ⟨fun h => h.elim, fun _ => ⟨t, rfl⟩⟩
    · exact ⟨fun _ => .inr ⟨_, rfl⟩, fun h => absurd trivial h⟩
    · obtain ⟨hok, hfault⟩ := lockRounds_run (ρ := ρ) token root.children t
      constructor
      · intro h
        obtain ⟨t', hrun⟩ := hok h
        refine .inl ⟨some token, t', ?_⟩
        rw [lockReply, Ctl.deref_some, pure_bind]
        exact Ctl.bind_ok hrun
      · intro h
        obtain ⟨t', hrun⟩ := hfault h
        refine ⟨t', ?_⟩
        rw [lockReply, Ctl.deref_some, pure_bind]
        exact Ctl.bind_error hrun

/-- The body of `__dav_lock` inside its `try`. -/
theorem lockBody_run (path : Path) (h : t.ex.has = false) :
    ((∀ x, lockReceived env srv path t.mem.env = some x → LockSafe x.1 x.2) →
      (∃ a t', (lockBody env srv path : Dav σ ρ _) t = (.ok a, t')) ∨
        ∃ t', (lockBody env srv path : Dav σ ρ _) t = (.error .brk, t')) ∧
    (∀ x, lockReceived env srv path t.mem.env = some x → ¬LockSafe x.1 x.2 →
      ∃ t', (lockBody env srv path : Dav σ ρ _) t = (.error .fault, t')) := by
  unfold lockReceived
  cases hi : (initAttempt env srv.options path t.mem.env).1 with
  | false =>
    obtain ⟨e, hw⟩ := withCurl_failed (ρ := ρ) env (throwable (lockScope env path)) h hi
    refine ⟨fun _ => .inr ⟨_, Ctl.bind_error (throwable_pending hw (by simp))⟩, ?_⟩
    intro x hx
    simp at hx
  | true =>
    have henter : (withCurl env srv.options path (throwable (lockScope env path)) : Dav σ ρ _) t = _ :=
      withCurl_entered env h hi
    have hscope := delivers_lockScope (ρ := ρ) env path
      (t := atEnv t (initAttempt env srv.options path t.mem.env).2) h
    simp only [atEnv_env] at hscope
    simp only [if_true]
    rcases ha : lockAnswer env path (initAttempt env srv.options path t.mem.env).2 with _ | ⟨token, xml⟩
    · rw [ha] at hscope
      obtain ⟨t', hrun, hex⟩ := hscope
      refine ⟨fun _ => .inr ⟨t', Ctl.bind_error (throwable_pending
        (henter.trans (Ctl.doOnce_brk hrun)) hex)⟩, ?_⟩
      intro x hx
      exact nomatch hx
    · rw [ha] at hscope
      obtain ⟨t', hrun, hex⟩ := hscope
      have hbody : (lockBody env srv path : Dav σ ρ _) t = (lockReply token xml : Dav σ ρ _) t' := by
        rw [lockBody, Ctl.bind_ok (throwable_clean (henter.trans (Ctl.doOnce_ok hrun)) hex)]
        rfl
      rw [hbody]
      obtain ⟨hsafe, hfault⟩ := lockReply_run (ρ := ρ) token xml t'
      refine ⟨fun hs => hsafe (hs _ rfl), fun x hx hn => hfault ?_⟩
      rw [← Option.some.inj hx] at hn
      exact hn

/-- `__dav_lock` returns exactly when the reply it gets, if any, has what it
    dereferences. -/
theorem davLockCore_returns_iff (path : Path) :
    (∃ a t', (davLockCore env srv path : Dav σ ρ (Option Text)) t = (.ok a, t')) ↔
      (t.ex.has = false → ∀ x, lockReceived env srv path t.mem.env = some x → LockSafe x.1 x.2) := by
  -- the `onerror` clause and the test after it fall through
  have hreturns : ∀ r t', (withBuffer (throwable (withBuffer (lockBody env srv path))) :
      Dav σ ρ _) t = (.ok r, t') →
      ∃ a t'', (davLockCore env srv path : Dav σ ρ (Option Text)) t = (.ok a, t'') := by
    intro r t' hrun
    have hhandle : handle [onerror (pure () : Dav σ ρ Unit)] t' = (.ok (), t') := by
      cases hex : t'.ex.has with
      | false => exact handle_clean hex
      | true => exact handle_onerror_ok hex rfl
    have htry := tryCatch_ok_handled hrun hhandle
    cases hex : t'.ex.has <;> simp [davLockCore, Ctl.bind_apply, htry, hex]
  cases h : t.ex.has with
  | true => exact ⟨fun _ h => (nomatch h), fun _ => hreturns _ _ (withBuffer_pending h)⟩
  | false =>
    obtain ⟨hsafe, hfault⟩ := lockBody_run (ρ := ρ) env srv path h
    constructor
    · rintro ⟨a, t', hrun⟩ - x hx
      by_contra hn
      obtain ⟨t'', hbody⟩ := hfault x hx hn
      have htry : tryCatch (withBuffer (throwable (withBuffer (lockBody env srv path))))
          [onerror (pure () : Dav σ ρ Unit)] t = (.error .fault, t'') := by
        refine tryCatch_fault ?_
        rw [withBuffer_clean h, Ctl.doOnce_fault (throwable_error ?_)]
        rw [withBuffer_clean h, Ctl.doOnce_fault hbody]
      rw [davLockCore, Ctl.bind_error htry] at hrun
      exact nomatch hrun
    · intro hs
      have hinner : ∃ r t', (withBuffer (lockBody env srv path) : Dav σ ρ _) t = (.ok r, t') := by
        rw [withBuffer_clean h]
        rcases hsafe (hs rfl) with ⟨a, t', hbody⟩ | ⟨t', hbody⟩
        · exact ⟨some a, t', Ctl.doOnce_ok hbody⟩
        · exact ⟨none, t', Ctl.doOnce_brk hbody⟩
      obtain ⟨r, t', hrun⟩ := hinner
      cases hex : t'.ex.has with
      | false =>
        refine hreturns (some r) t' ?_
        rw [withBuffer_clean h, Ctl.doOnce_ok (throwable_clean hrun hex)]
      | true =>
        refine hreturns none t' ?_
        rw [withBuffer_clean h, Ctl.doOnce_brk (throwable_pending hrun hex)]

end Lock

/-! ## Both together -/

/-- `dav_propfind`, with either filler, and `__dav_lock` return, whatever the server
    replies, exactly when the reply has what they dereference. -/
theorem propfind_lock_return_iff (path : Path) (depth : ℤ) (t : Thread (Mem σ)) :
    ((∃ v t', (davPropfind env srv path depth readdirFiller : Dav σ ρ ℤ) t = (.ok v, t')) ↔
      (t.ex.has = false → ∀ reply s,
        propfindReceived env srv path depth t.mem.env = some (reply, s) →
          PropfindSafe env reply s)) ∧
    ((∃ v t', (davPropfind env srv path depth davGetattrCallback : Dav σ ρ ℤ) t = (.ok v, t')) ↔
      (t.ex.has = false → ∀ reply s,
        propfindReceived env srv path depth t.mem.env = some (reply, s) →
          PropfindSafe env reply s)) ∧
    ((∃ a t', (davLockCore env srv path : Dav σ ρ (Option Text)) t = (.ok a, t')) ↔
      (t.ex.has = false → ∀ token xml,
        lockReceived env srv path t.mem.env = some (token, xml) → LockSafe token xml)) := by
  refine ⟨davPropfind_returns_iff env srv fills_readdirFiller,
    davPropfind_returns_iff env srv fills_davGetattrCallback, ?_⟩
  rw [davLockCore_returns_iff]
  exact forall_congr' fun _ => Prod.forall

/-- A multi-status reply with an empty body. -/
def emptyMultistatus : Reply := ⟨.ok, 207, [], [], [], none⟩

/-- A `LOCK` answered with a token and an empty body. -/
def emptyLock : Reply := ⟨.ok, 200, ["Lock-Token: <a>".toList], [], [], none⟩

/-- An element of the namespace `DAV:` without attributes. -/
def davNode (name : String) (children : List Node) : Node :=
  .mk name.toList (some "DAV:".toList) none [] children

/-- A text. -/
def textNode (text : String) : Node := .mk "text".toList none (some text.toList) [] []

/-- A multi-status reply whose `propstat` has no `status`. -/
def noStatus : Reply :=
  ⟨.ok, 207, [], [], [], some (.document (davNode "multistatus" [davNode "response"
    [davNode "href" [], davNode "propstat" []]]))⟩

/-- An empty body, and a `propstat` without a `status`, stop `dav_propfind` at an absent
    pointer; an empty body stops `__dav_lock` too. -/
theorem empty_body_faults :
    ((davPropfind (answering emptyMultistatus) lockingServer [47] 0 davGetattrCallback :
      Dav Unit ℤ ℤ) (idle ())).1 = .error .fault ∧
    ((davPropfind (answering noStatus) lockingServer [47] 0 davGetattrCallback :
      Dav Unit ℤ ℤ) (idle ())).1 = .error .fault ∧
    ((davLockCore (answering emptyLock) lockingServer [47, 97] : Dav Unit ℤ (Option Text))
      (idle ())).1 = .error .fault :=
  ⟨rfl, rfl, rfl⟩

end NetworkFs.Dav
