import NetworkFs.Dav.Listing

/-!
# The attributes in a multistatus document

What the nested loops of `dav_propfind` (`proto/dav/method.c` lines 315–427) compute, without
loops: the attributes are a function of the properties by name, those of the first `propstat`
whose status is OK, and what comes after a `response` without one is not looked at.

* `decodeStat_eq`: the two passes over the properties, in whatever order these are.
* `statOf_perm`: the order of the properties does not matter.
* `propfind_decodes`: the calls of the filler, and the exception at the end.
-/

namespace NetworkFs.Dav

open Control Grammar Wrapper Text

variable {σ ρ α : Type} (env : Env σ) (srv : DavServer)

/-! ## The specification -/

/-- A property by its namespace and its name. -/
abbrev Properties := Text → Text → Option Node

/-- The qualified name of a property. -/
def qname (entry : Node) : Option Text × Text := (entry.ns, entry.name)

/-- The properties among the children of a `prop`. -/
def propertiesOf (entries : List Node) : Properties :=
  fun ns name => entries.find? fun entry => qname entry = (some ns, name)

/-- The text of a property. -/
def textOf (entry : Node) : Text := (entryText entry).getD []

/-- The value of a `resourcetype` is a `collection`. -/
def isCollection (entry : Node) : Bool :=
  entry.firstChild.map Node.name = some "collection".toList

/-- The number in the text of a property. -/
def numberOf (entry : Node) : ℤ := (strtol 10 (textOf entry)).1

/-- The attributes that properties stand for. -/
def statOf (o : Opts) (time : Node → ℤ) (props : Properties) : Stat :=
  let dav := props "DAV:".toList
  let own := props "NETWORKFS:".toList
  let collection := (dav "resourcetype".toList).any isCollection
  { mode := (own "mode".toList).elim
      (if collection then maskMode (sIFDIR ||| 0o777) o.dmask
        else maskMode (sIFREG ||| 0o777) o.fmask)
      fun entry => toUnsigned (strtol 8 (textOf entry)).1
    nlink := if collection then 2 else 1
    uid := (own "owner".toList).elim o.uid fun entry => toUnsigned (strtol 10 (textOf entry)).1
    gid := (own "owner".toList).elim o.gid fun entry =>
      toUnsigned (strtol 10 (strtol 10 (textOf entry)).2).1
    rdev := (own "mode".toList).elim 0 fun entry =>
      let mode := strtol 8 (textOf entry)
      if isDevice (toUnsigned mode.1) then toSize (strtol 10 mode.2).1 else 0
    size := (own "size".toList).elim ((dav "getcontentlength".toList).elim 0 numberOf) numberOf
    atime := (own "time".toList).elim 0 fun entry =>
      (strtol 10 (strtol 10 (strtol 10 (textOf entry)).2).2).1
    mtime := (own "time".toList).elim ((dav "getlastmodified".toList).elim 0 time) fun entry =>
      (strtol 10 (strtol 10 (textOf entry)).2).1
    ctime := (own "time".toList).elim ((dav "creationdate".toList).elim 0 time) numberOf }

/-- The `response` elements of a document. -/
def responsesOf (root : Node) : List Node :=
  root.children.filter fun n => n.name = "response".toList

/-- The `response` has a `propstat` whose status is OK. -/
def hasOk (response : Node) : Bool := (okProp response).isSome

/-- The calls for `response` elements that have an OK `propstat`: one for each whose `href`
    extends the effective URL, with the attributes from the first OK `propstat`. -/
def callsOf (o : Opts) (baseurl : Text) : List Node → σ → List (Text × Stat)
  | [], _ => []
  | response :: responses, s =>
    match okProp response, hrefText response with
    | some prop, some href =>
      if baseurl <+: href then
        let name := env.unescape (href.drop baseurl.length) s
        (entryName (name.1.getD []), statOf o (xmlParserTimeNode (env.strptime · · s))
          (propertiesOf prop.children)) :: callsOf o baseurl responses name.2
      else callsOf o baseurl responses s
    | _, _ => callsOf o baseurl responses s

/-- An element of a `prop`: it has a namespace, and a text unless it is `resourcetype`. -/
def IsProperty (entry : Node) : Prop :=
  entry.ns.isSome ∧ (qname entry ≠ (some "DAV:".toList, "resourcetype".toList) →
    (entryText entry).isSome)

/-- A `response` as it should be: an `href` with a text, then `propstat` elements with a `prop`
    and a `status` after it; each property of the first OK one is there once. -/
structure ResponseForm (response : Node) : Prop where
  href : (hrefText response).isSome
  propstats : ∀ p ∈ propstats response, (propStatus p).isSome
  properties : ∀ prop, okProp response = some prop → ∀ entry ∈ prop.children, IsProperty entry
  names : ∀ prop, okProp response = some prop → (prop.children.map qname).Nodup

/-- The same `href`, and the same properties in the first OK `propstat`, in any order; the
    other `propstat` elements may be anything. -/
structure SameProperties (response response' : Node) : Prop where
  href : hrefText response' = hrefText response
  properties : Option.Rel (fun prop prop' => prop.children.Perm prop'.children)
    (okProp response) (okProp response')

/-- `out` is what the filler has written so far, and nothing else in `dav_propfind` changes it. -/
structure Observes {γ : Type} (filler : Text → Stat → Dav σ ρ Unit) (out : Mem σ → γ)
    (put : γ → Text × Stat → γ) : Prop extends Records filler out put where
  same : ∀ t t', SameOutput t t' → out t'.mem = out t.mem

theorem observes_readdirFiller : Observes (readdirFiller : Text → Stat → Dav σ ρ Unit) (·.entries)
    fun entries call => entries ++ [(call.1, some call.2)] where
  toRecords := records_readdirFiller
  same _ _ h := h.1

/-! ## Folds that set a field -/

/-- A fold whose rounds change a field at one key only, where keys are distinct. -/
theorem foldlM_field {β γ κ : Type} [DecidableEq κ] {f : β → α → Option β} {key : α → κ}
    {as : List α} {b b' : β} (field : β → γ) (k : κ) (set : α → γ → γ)
    (hkeys : (as.map key).Nodup) (h : as.foldlM f b = some b')
    (hstep : ∀ b a b', f b a = some b' →
      field b' = if key a = k then set a (field b) else field b) :
    field b' = (as.find? fun a => key a = k).elim (field b) fun a => set a (field b) := by
  induction as generalizing b with
  | nil =>
    rw [← Option.some.inj h]
    rfl
  | cons a as ih =>
    rw [List.foldlM_cons] at h
    obtain ⟨b₁, hfirst, hrest⟩ := Option.bind_eq_some_iff.mp h
    rw [List.map_cons, List.nodup_cons] at hkeys
    rw [ih hkeys.2 hrest, hstep b a b₁ hfirst]
    by_cases hk : key a = k
    · have habsent : (as.find? fun a => key a = k) = none := by
        rw [List.find?_eq_none]
        intro a' ha' hk'
        exact hkeys.1 (List.mem_map.mpr ⟨a', ha', (of_decide_eq_true hk').trans hk.symm⟩)
      rw [habsent, if_pos hk, List.find?_cons_of_pos (by simpa using hk)]
      rfl
    · rw [if_neg hk, List.find?_cons_of_neg (by simpa using hk)]

theorem foldlM_field_same {β γ : Type} {f : β → α → Option β} {as : List α} {b b' : β}
    (field : β → γ) (h : as.foldlM f b = some b')
    (hstep : ∀ b a b', f b a = some b' → field b' = field b) : field b' = field b :=
  foldlM_keeps (P := fun b' => field b' = field b)
    (fun b₁ a b₂ hf hb => (hstep b₁ a b₂ hf).trans hb) as h rfl

/-! ## The two passes -/

variable {o : Opts} {time : Node → ℤ}

/-- A name in the namespace `DAV:`. -/
def davName (name : String) : Option Text × Text := (some "DAV:".toList, name.toList)

/-- A name in the namespace of the program. -/
def ownName (name : String) : Option Text × Text := (some "NETWORKFS:".toList, name.toList)

theorem qname_eq_iff {entry : Node} {ns : Text} (hns : entry.ns = some ns) (name : Text) :
    qname entry = (some ns, name) ↔ entry.name = name := by
  simp [qname, hns]

theorem qname_ne {entry : Node} {ns ns' : Text} (hns : entry.ns = some ns) (hne : ns ≠ ns')
    (name : Text) : qname entry ≠ (some ns', name) := by
  simp [qname, hns, hne]

/-- A round of the first pass. -/
theorem davProp_eq {st st' : Stat} {entry : Node} (h : davProp o time st entry = some st') :
    st' = { st with
      size := if qname entry = davName "getcontentlength" then numberOf entry else st.size
      mode := if qname entry = davName "resourcetype" then
        if isCollection entry then maskMode (sIFDIR ||| 0o777) o.dmask else st.mode else st.mode
      nlink := if qname entry = davName "resourcetype" then
        if isCollection entry then 2 else st.nlink else st.nlink
      ctime := if qname entry = davName "creationdate" then time entry else st.ctime
      mtime := if qname entry = davName "getlastmodified" then time entry else st.mtime } := by
  obtain ⟨ns, hns, h⟩ := Option.bind_eq_some_iff.mp h
  simp only [davName]
  by_cases hdav : ns = "DAV:".toList
  · rw [if_neg (not_not_intro hdav)] at h
    rw [hdav] at hns
    simp only [qname_eq_iff hns]
    split_ifs at h with hlength htype hcoll hcreated hmodified
    · obtain ⟨text, htext, h⟩ := Option.bind_eq_some_iff.mp h
      simp [hlength, ← Option.some.inj h, numberOf, textOf, htext]
    · have hcollection : isCollection entry = true := decide_eq_true hcoll
      simp [htype, ← Option.some.inj h, hcollection]
    · have hcollection : isCollection entry = false := decide_eq_false hcoll
      simp [htype, ← Option.some.inj h, hcollection]
    · simp [hcreated, ← Option.some.inj h]
    · simp [hmodified, ← Option.some.inj h]
    · simp only [if_neg hlength, if_neg htype, if_neg hcreated, if_neg hmodified,
        ← Option.some.inj h]
  · rw [if_pos hdav] at h
    simp only [qname_ne hns hdav, if_false, ← Option.some.inj h]

/-- A round of the second pass. -/
theorem networkfsProp_eq {st st' : Stat} {entry : Node} (h : networkfsProp st entry = some st') :
    st' = { st with
      mode := if qname entry = ownName "mode" then toUnsigned (strtol 8 (textOf entry)).1
        else st.mode
      rdev := if qname entry = ownName "mode" then
        if isDevice (toUnsigned (strtol 8 (textOf entry)).1) then
          toSize (strtol 10 (strtol 8 (textOf entry)).2).1 else st.rdev else st.rdev
      size := if qname entry = ownName "size" then numberOf entry else st.size
      uid := if qname entry = ownName "owner" then toUnsigned (strtol 10 (textOf entry)).1
        else st.uid
      gid := if qname entry = ownName "owner" then
        toUnsigned (strtol 10 (strtol 10 (textOf entry)).2).1 else st.gid
      ctime := if qname entry = ownName "time" then numberOf entry else st.ctime
      mtime := if qname entry = ownName "time" then
        (strtol 10 (strtol 10 (textOf entry)).2).1 else st.mtime
      atime := if qname entry = ownName "time" then
        (strtol 10 (strtol 10 (strtol 10 (textOf entry)).2).2).1 else st.atime } := by
  obtain ⟨ns, hns, h⟩ := Option.bind_eq_some_iff.mp h
  simp only [ownName]
  by_cases hown : ns = "NETWORKFS:".toList
  · rw [if_neg (not_not_intro hown)] at h
    rw [hown] at hns
    simp only [qname_eq_iff hns]
    split_ifs at h with hmode hsize howner htime
    · obtain ⟨text, htext, h⟩ := Option.bind_eq_some_iff.mp h
      rw [← Option.some.inj h]
      simp only [hmode, setMode, textOf, htext]
      split_ifs <;> simp_all
    · obtain ⟨text, htext, h⟩ := Option.bind_eq_some_iff.mp h
      simp [hsize, ← Option.some.inj h, numberOf, textOf, htext]
    · obtain ⟨text, htext, h⟩ := Option.bind_eq_some_iff.mp h
      simp [howner, ← Option.some.inj h, setOwner, textOf, htext]
    · obtain ⟨text, htext, h⟩ := Option.bind_eq_some_iff.mp h
      simp [htime, ← Option.some.inj h, setTime, numberOf, textOf, htext]
    · simp only [if_neg hmode, if_neg hsize, if_neg howner, if_neg htime, ← Option.some.inj h]
  · rw [if_pos hown] at h
    simp only [qname_ne hns hown, if_false, ← Option.some.inj h]

section Passes

variable {entries : List Node} (hnames : (entries.map qname).Nodup) {st st' : Stat}

include hnames

/-- The first pass. -/
theorem foldlM_davProp (h : entries.foldlM (davProp o time) st = some st') :
    st' = { st with
      size := (propertiesOf entries "DAV:".toList "getcontentlength".toList).elim st.size numberOf
      mode := (propertiesOf entries "DAV:".toList "resourcetype".toList).elim st.mode fun entry =>
        if isCollection entry then maskMode (sIFDIR ||| 0o777) o.dmask else st.mode
      nlink := (propertiesOf entries "DAV:".toList "resourcetype".toList).elim st.nlink fun entry =>
        if isCollection entry then 2 else st.nlink
      ctime := (propertiesOf entries "DAV:".toList "creationdate".toList).elim st.ctime time
      mtime := (propertiesOf entries "DAV:".toList "getlastmodified".toList).elim st.mtime time } := by
  ext1
  · exact foldlM_field Stat.mode (davName "resourcetype") (fun entry mode =>
      if isCollection entry then maskMode (sIFDIR ||| 0o777) o.dmask else mode) hnames h
      fun _ _ _ hf => congrArg Stat.mode (davProp_eq hf)
  · exact foldlM_field Stat.nlink (davName "resourcetype") (fun entry nlink =>
      if isCollection entry then 2 else nlink) hnames h
      fun _ _ _ hf => congrArg Stat.nlink (davProp_eq hf)
  · have hsame := foldlM_field_same Stat.uid h fun _ _ _ hf => by rw [davProp_eq hf]
    exact hsame
  · have hsame := foldlM_field_same Stat.gid h fun _ _ _ hf => by rw [davProp_eq hf]
    exact hsame
  · have hsame := foldlM_field_same Stat.rdev h fun _ _ _ hf => by rw [davProp_eq hf]
    exact hsame
  · exact foldlM_field Stat.size (davName "getcontentlength") (fun entry _ => numberOf entry) hnames h
      fun _ _ _ hf => congrArg Stat.size (davProp_eq hf)
  · have hsame := foldlM_field_same Stat.atime h fun _ _ _ hf => by rw [davProp_eq hf]
    exact hsame
  · exact foldlM_field Stat.mtime (davName "getlastmodified") (fun entry _ => time entry) hnames h
      fun _ _ _ hf => congrArg Stat.mtime (davProp_eq hf)
  · exact foldlM_field Stat.ctime (davName "creationdate") (fun entry _ => time entry) hnames h
      fun _ _ _ hf => congrArg Stat.ctime (davProp_eq hf)

/-- The second pass. -/
theorem foldlM_networkfsProp (h : entries.foldlM networkfsProp st = some st') :
    let own := propertiesOf entries "NETWORKFS:".toList
    st' = { st with
      mode := (own "mode".toList).elim st.mode fun entry =>
        toUnsigned (strtol 8 (textOf entry)).1
      rdev := (own "mode".toList).elim st.rdev fun entry =>
        if isDevice (toUnsigned (strtol 8 (textOf entry)).1) then
          toSize (strtol 10 (strtol 8 (textOf entry)).2).1 else st.rdev
      size := (own "size".toList).elim st.size numberOf
      uid := (own "owner".toList).elim st.uid fun entry =>
        toUnsigned (strtol 10 (textOf entry)).1
      gid := (own "owner".toList).elim st.gid fun entry =>
        toUnsigned (strtol 10 (strtol 10 (textOf entry)).2).1
      ctime := (own "time".toList).elim st.ctime numberOf
      mtime := (own "time".toList).elim st.mtime fun entry =>
        (strtol 10 (strtol 10 (textOf entry)).2).1
      atime := (own "time".toList).elim st.atime fun entry =>
        (strtol 10 (strtol 10 (strtol 10 (textOf entry)).2).2).1 } := by
  ext1
  · exact foldlM_field Stat.mode (ownName "mode") (fun entry _ =>
      toUnsigned (strtol 8 (textOf entry)).1) hnames h
      fun _ _ _ hf => congrArg Stat.mode (networkfsProp_eq hf)
  · have hsame := foldlM_field_same Stat.nlink h fun _ _ _ hf => by rw [networkfsProp_eq hf]
    exact hsame
  · exact foldlM_field Stat.uid (ownName "owner") (fun entry _ =>
      toUnsigned (strtol 10 (textOf entry)).1) hnames h
      fun _ _ _ hf => congrArg Stat.uid (networkfsProp_eq hf)
  · exact foldlM_field Stat.gid (ownName "owner") (fun entry _ =>
      toUnsigned (strtol 10 (strtol 10 (textOf entry)).2).1) hnames h
      fun _ _ _ hf => congrArg Stat.gid (networkfsProp_eq hf)
  · exact foldlM_field Stat.rdev (ownName "mode") (fun entry rdev =>
      if isDevice (toUnsigned (strtol 8 (textOf entry)).1) then
        toSize (strtol 10 (strtol 8 (textOf entry)).2).1 else rdev) hnames h
      fun _ _ _ hf => congrArg Stat.rdev (networkfsProp_eq hf)
  · exact foldlM_field Stat.size (ownName "size") (fun entry _ => numberOf entry) hnames h
      fun _ _ _ hf => congrArg Stat.size (networkfsProp_eq hf)
  · exact foldlM_field Stat.atime (ownName "time") (fun entry _ =>
      (strtol 10 (strtol 10 (strtol 10 (textOf entry)).2).2).1) hnames h
      fun _ _ _ hf => congrArg Stat.atime (networkfsProp_eq hf)
  · exact foldlM_field Stat.mtime (ownName "time") (fun entry _ =>
      (strtol 10 (strtol 10 (textOf entry)).2).1) hnames h
      fun _ _ _ hf => congrArg Stat.mtime (networkfsProp_eq hf)
  · exact foldlM_field Stat.ctime (ownName "time") (fun entry _ => numberOf entry) hnames h
      fun _ _ _ hf => congrArg Stat.ctime (networkfsProp_eq hf)

end Passes

/-- The two passes compute what the properties stand for. -/
theorem decodeStat_eq {prop : Node} (hnames : (prop.children.map qname).Nodup) {st : Stat}
    (h : decodeStat o time prop = some st) : st = statOf o time (propertiesOf prop.children) := by
  obtain ⟨st₁, hdav, hown⟩ := Option.bind_eq_some_iff.mp h
  rw [foldlM_networkfsProp hnames hown, foldlM_davProp hnames hdav]
  rcases htype : propertiesOf prop.children "DAV:".toList "resourcetype".toList with _ | entry
  · simp only [statOf, initialStat, htype, Option.elim_none, Option.any_none, Bool.false_eq_true,
      if_false]
  · simp only [statOf, initialStat, htype, Option.elim_some, Option.any_some]

/-! ## The order of the properties -/

theorem propertiesOf_eq_some_iff {entries : List Node} (hnames : (entries.map qname).Nodup)
    {ns name : Text} {entry : Node} :
    propertiesOf entries ns name = some entry ↔ entry ∈ entries ∧ qname entry = (some ns, name) := by
  constructor
  · intro h
    have hname := List.find?_some h
    exact ⟨List.mem_of_find?_eq_some h, of_decide_eq_true hname⟩
  · rintro ⟨hmem, hname⟩
    unfold propertiesOf
    rcases hfind : entries.find? fun e => qname e = (some ns, name) with _ | entry'
    · exact absurd (decide_eq_true hname) (List.find?_eq_none.mp hfind entry hmem)
    · have hname' := List.find?_some hfind
      rw [List.inj_on_of_nodup_map hnames (List.mem_of_find?_eq_some hfind) hmem
        ((of_decide_eq_true hname').trans hname.symm)]

theorem propertiesOf_perm {entries entries' : List Node} (hnames : (entries.map qname).Nodup)
    (hperm : entries.Perm entries') : propertiesOf entries' = propertiesOf entries := by
  have hnames' : (entries'.map qname).Nodup := (hperm.map qname).nodup_iff.mp hnames
  funext ns name
  ext entry
  rw [propertiesOf_eq_some_iff hnames', propertiesOf_eq_some_iff hnames, hperm.mem_iff]

/-- The calls depend on the properties of the first OK `propstat`, not on their order. -/
theorem callsOf_same (o : Opts) (baseurl : Text) {responses responses' : List Node}
    (hform : ∀ response ∈ responses, ResponseForm response)
    (hsame : List.Forall₂ SameProperties responses responses') (s : σ) :
    callsOf env o baseurl responses' s = callsOf env o baseurl responses s := by
  induction hsame generalizing s with
  | nil => rfl
  | @cons response response' responses responses' hfirst _ ih =>
    have hrest := ih fun r hr => hform r (List.mem_cons_of_mem _ hr)
    unfold callsOf
    rw [hfirst.href]
    have hprops := hfirst.properties
    rcases hok : okProp response with _ | prop
    · rw [hok] at hprops
      cases hprops' : okProp response' with
      | none => exact hrest s
      | some prop' =>
        rw [hprops'] at hprops
        cases hprops
    · rw [hok] at hprops
      cases hprops' : okProp response' with
      | none =>
        rw [hprops'] at hprops
        cases hprops
      | some prop' =>
        rw [hprops'] at hprops
        cases hprops with
        | some hperm =>
          have hnames := (hform response List.mem_cons_self).names prop hok
          rcases hrefText response with _ | href
          · exact hrest s
          · simp only [propertiesOf_perm hnames hperm, hrest]

theorem SameProperties.hasOk_eq {response response' : Node}
    (h : SameProperties response response') : hasOk response' = hasOk response := by
  have hrel := h.properties
  unfold hasOk
  revert hrel
  generalize okProp response = found
  generalize okProp response' = found'
  intro hrel
  cases hrel with
  | none => rfl
  | some _ => rfl

theorem takeWhile_same {responses responses' : List Node}
    (hsame : List.Forall₂ SameProperties responses responses') :
    List.Forall₂ SameProperties (responses.takeWhile hasOk) (responses'.takeWhile hasOk) := by
  induction hsame with
  | nil => exact .nil
  | @cons response response' responses responses' hfirst _ ih =>
    cases hok : hasOk response with
    | false =>
      rw [List.takeWhile_cons_of_neg (by simp [hok]),
        List.takeWhile_cons_of_neg (by simp [hfirst.hasOk_eq, hok])]
      exact .nil
    | true =>
      rw [List.takeWhile_cons_of_pos hok, List.takeWhile_cons_of_pos (hfirst.hasOk_eq.trans hok)]
      exact .cons hfirst ih

/-! ## The calls -/

theorem examined_subset (ps : List Node) : examined ps ⊆ ps := by
  induction ps with
  | nil => exact List.Subset.refl _
  | cons p ps ih =>
    unfold examined
    split
    · simp
    · exact List.cons_subset_cons p ih

theorem IsProperty.safe {entry : Node} (h : IsProperty entry) : EntrySafe entry := by
  obtain ⟨hns, htext⟩ := h
  obtain ⟨ns, hns⟩ := Option.isSome_iff_exists.mp hns
  refine ⟨ns, hns, ?_, ?_⟩
  · rintro rfl hname
    apply htext
    rw [ne_eq, qname_eq_iff hns, hname]
    decide
  · rintro rfl -
    exact htext (qname_ne hns (by decide) _)

theorem ResponseForm.safe {response : Node} (h : ResponseForm response) :
    ResponseSafe response where
  status p hp := h.propstats p (examined_subset _ hp)
  entries prop hprop entry hentry := (h.properties prop hprop entry hentry).safe
  href _ := h.href

theorem callsOf_of_some (o : Opts) (baseurl : Text) {response prop : Node} {href : Text}
    (hok : okProp response = some prop) (hhref : hrefText response = some href)
    (responses : List Node) (s : σ) :
    callsOf env o baseurl (response :: responses) s =
      if baseurl <+: href then
        (entryName ((env.unescape (href.drop baseurl.length) s).1.getD []),
          statOf o (xmlParserTimeNode (env.strptime · · s)) (propertiesOf prop.children)) ::
            callsOf env o baseurl responses (env.unescape (href.drop baseurl.length) s).2
      else callsOf env o baseurl responses s := by
  rw [callsOf, hok, hhref]

section Calls

variable (hunescape : ∀ text s, (env.unescape text s).1.isSome)

include hunescape

/-- One `response` with an OK `propstat`. -/
theorem fillCall_form (o : Opts) (baseurl : Text) {response prop : Node} {href : Text}
    (hform : ResponseForm response) (hok : okProp response = some prop)
    (hhref : hrefText response = some href) (responses : List Node) (s : σ) :
    ∃ s', goesOn env baseurl response s = some s' ∧
      (fillCall env o baseurl response s).toList ++ callsOf env o baseurl responses s' =
        callsOf env o baseurl (response :: responses) s := by
  have hsafe := (decodeStat_isSome o (xmlParserTimeNode (env.strptime · · s)) prop).mpr
    (hform.safe.entries prop hok)
  obtain ⟨st, hst⟩ := Option.isSome_iff_exists.mp hsafe
  obtain ⟨name, hname⟩ := Option.isSome_iff_exists.mp (hunescape (href.drop baseurl.length) s)
  rw [goesOn_of_some env baseurl s hok hhref, fillCall_of_some env o baseurl s hok hhref,
    callsOf_of_some env o baseurl hok hhref]
  by_cases hextends : baseurl <+: href
  · have hpre : baseurl.isPrefixOf href = true := List.isPrefixOf_iff_prefix.mpr hextends
    refine ⟨(env.unescape (href.drop baseurl.length) s).2, ?_, ?_⟩
    · rw [if_pos hpre]
      rcases hun : env.unescape (href.drop baseurl.length) s with ⟨_ | text, s'⟩
      · rw [hun] at hname
        cases hname
      · rfl
    · rw [if_pos hpre, if_pos hextends, hname, hst, decodeStat_eq (hform.names prop hok) hst]
      rfl
  · have hpre : ¬ baseurl.isPrefixOf href = true := fun h =>
      hextends (List.isPrefixOf_iff_prefix.mp h)
    refine ⟨s, if_neg hpre, ?_⟩
    rw [if_neg hpre, if_neg hextends]
    rfl

/-- The calls that are made are those up to the first `response` without an OK `propstat`. -/
theorem madeCalls_eq (o : Opts) (baseurl : Text) (ns : List Node)
    (hform : ∀ n ∈ ns, n.name = "response".toList → ResponseForm n) (s : σ) :
    ResponsesSafe env baseurl ns s ∧
      madeCalls env o baseurl ns s =
        (callsOf env o baseurl
          ((ns.filter fun n => n.name = "response".toList).takeWhile hasOk) s,
        (ns.filter fun n => n.name = "response".toList).any fun n => !hasOk n) := by
  induction ns generalizing s with
  | nil => exact ⟨trivial, rfl⟩
  | cons n ns ih =>
    have hrest := ih fun n' hn' => hform n' (List.mem_cons_of_mem _ hn')
    unfold ResponsesSafe madeCalls
    by_cases hname : n.name = "response".toList
    · have hn := hform n List.mem_cons_self hname
      have hcons : ((n :: ns).filter fun n => n.name = "response".toList) =
          n :: ns.filter fun n => n.name = "response".toList := by
        rw [List.filter_cons, if_pos (decide_eq_true hname)]
      rw [if_pos hname, if_pos hname, hcons]
      rcases hok : okProp n with _ | prop
      · have hstop : goesOn env baseurl n s = none := by rw [goesOn, hok]
        have hnot : hasOk n = false := by rw [hasOk, hok]; rfl
        refine ⟨⟨hn.safe, fun s' hs' => (by cases hstop.symm.trans hs')⟩, ?_⟩
        rw [hstop, List.takeWhile_cons_of_neg (by simp [hnot]), List.any_cons, hnot]
        rfl
      · have hyes : hasOk n = true := by rw [hasOk, hok]; rfl
        obtain ⟨href, hhref⟩ := Option.isSome_iff_exists.mp hn.href
        obtain ⟨s', hgoes, hcalls⟩ := fillCall_form env hunescape o baseurl hn hok hhref
          ((ns.filter fun n => n.name = "response".toList).takeWhile hasOk) s
        refine ⟨⟨hn.safe, fun s'' hs'' => ?_⟩, ?_⟩
        · rw [← Option.some.inj (hgoes.symm.trans hs'')]
          exact (hrest s').1
        · rw [hgoes, List.takeWhile_cons_of_pos hyes, List.any_cons, hyes, ← hcalls]
          simp only [(hrest s').2, Bool.not_true, Bool.false_or]
    · rw [if_neg hname, if_neg hname, List.filter_cons, if_neg (by rwa [decide_eq_true_iff])]
      exact hrest s

/-- On a multistatus document `dav_propfind` calls the filler for each `response` that comes
    before the first one without an OK `propstat` and whose `href` extends the effective URL,
    with what the properties of its first OK `propstat` stand for. The exception is pending
    exactly when some `response` has none. Neither the order of the properties nor the other
    `propstat` elements matter. -/
theorem propfind_decodes {γ : Type} {filler : Text → Stat → Dav σ ρ Unit} {out : Mem σ → γ}
    {put : γ → Text × Stat → γ} (hobserves : Observes filler out put) {path : Path} {depth : ℤ}
    {t : Thread (Mem σ)} (h : t.ex.has = false) {reply : Reply} {s : σ} {root : Node}
    (hr : propfindReceived env srv path depth t.mem.env = some (reply, s))
    (hstatus : reply.status = 207) (hxml : reply.xml = some (.document root))
    (hform : ∀ response ∈ responsesOf root, ResponseForm response) :
    (∃ v t', davPropfind env srv path depth filler t = (.ok v, t') ∧
      out t'.mem = (callsOf env srv.options reply.effectiveUrl
        ((responsesOf root).takeWhile hasOk) s).foldl put (out t.mem) ∧
      (t'.ex.has = true ↔ ∃ response ∈ responsesOf root, okProp response = none)) ∧
    ∀ responses, List.Forall₂ SameProperties (responsesOf root) responses →
      callsOf env srv.options reply.effectiveUrl (responses.takeWhile hasOk) s =
        callsOf env srv.options reply.effectiveUrl ((responsesOf root).takeWhile hasOk) s := by
  constructor
  · obtain ⟨hsafe, hmade⟩ := madeCalls_eq env hunescape srv.options reply.effectiveUrl root.children
      (fun n hn hname => hform n (List.mem_filter.mpr ⟨hn, decide_eq_true hname⟩)) s
    obtain ⟨t₀, hex, henv, hsame, hreturns, -⟩ := davPropfind_received env srv filler h hr
    obtain ⟨t', hrun, hpending, hout⟩ := propfindResponses_made env srv hobserves.toRecords
      reply.effectiveUrl root.children hex (by rw [henv]; exact hsafe)
    obtain ⟨v, hv⟩ := hreturns t'
      (.inl ((propfindReply_document env srv hstatus hxml _ t₀).trans hrun))
    rw [henv, hmade] at hpending hout
    refine ⟨v, t', hv, ?_, ?_⟩
    · rw [hout, hobserves.same t t₀ hsame]
      rfl
    · rw [hpending]
      show ((responsesOf root).any fun n => !hasOk n) = true ↔ _
      simp only [List.any_eq_true, Bool.not_eq_true', hasOk, Option.isSome_eq_false_iff,
        Option.isNone_iff_eq_none]
  · intro responses hsame
    apply callsOf_same
    · intro response hresponse
      exact hform response (List.takeWhile_subset _ hresponse)
    · exact takeWhile_same hsame

end Calls

/-- A file with its own mode and owner, described in the second `propstat`. -/
def describedFile : Node :=
  davNode "response" [davNode "href" [textNode "http://h/a"],
    davNode "propstat" [davNode "prop" [davNode "creationdate" []],
      davNode "status" [textNode "HTTP/1.1 404 Not Found"]],
    davNode "propstat" [davNode "prop" [
        .mk "mode".toList (some "NETWORKFS:".toList) none [] [textNode "0100600"],
        davNode "getcontentlength" [textNode "5"]],
      davNode "status" [textNode "HTTP/1.1 200 OK"]]]

/-- A `response` all of whose properties are missing. -/
def withoutOk : Node :=
  davNode "response" [davNode "href" [textNode "http://h/a/b"],
    davNode "propstat" [davNode "prop" [davNode "getcontentlength" []],
      davNode "status" [textNode "HTTP/1.1 404 Not Found"]]]

theorem responseForm_described : ResponseForm describedFile where
  href := rfl
  propstats p hp := by
    have hall : (propstats describedFile).all fun p => (propStatus p).isSome := rfl
    exact List.all_eq_true.mp hall p hp
  properties prop hprop entry hentry := by
    cases hprop
    rcases List.mem_pair.mp hentry with rfl | rfl
    · exact ⟨rfl, fun _ => rfl⟩
    · exact ⟨rfl, fun _ => rfl⟩
  names prop hprop := by
    cases hprop
    decide

theorem responseForm_withoutOk : ResponseForm withoutOk where
  href := rfl
  propstats p hp := by
    have hall : (propstats withoutOk).all fun p => (propStatus p).isSome := rfl
    exact List.all_eq_true.mp hall p hp
  properties prop hprop := nomatch hprop
  names prop hprop := nomatch hprop

theorem propfind_decodes_described :
    ∃ v t', (davPropfind (unescaping (multistatus "http://h/a"
        [describedFile, withoutOk, describedFile])) lockingServer [47, 97] 1 readdirFiller :
          Dav Unit Unit ℤ) (idle ()) = (.ok v, t') ∧
      t'.mem.entries = [(".".toList, some ⟨0o100600, 1, 0, 0, 0, 5, 0, 0, 0⟩)] ∧
      t'.ex.has = true := by
  have hall : responsesOf (davNode "multistatus" [describedFile, withoutOk, describedFile]) =
      [describedFile, withoutOk, describedFile] := rfl
  have hform : ∀ response ∈ responsesOf (davNode "multistatus"
      [describedFile, withoutOk, describedFile]), ResponseForm response := by
    rw [hall]
    intro response hresponse
    rcases List.mem_cons.mp hresponse with rfl | hresponse
    · exact responseForm_described
    · rcases List.mem_pair.mp hresponse with rfl | rfl
      · exact responseForm_withoutOk
      · exact responseForm_described
  have hreceived : propfindReceived (unescaping (multistatus "http://h/a"
      [describedFile, withoutOk, describedFile])) lockingServer [47, 97] 1 (idle ()).mem.env =
        some (multistatus "http://h/a" [describedFile, withoutOk, describedFile], ()) := rfl
  obtain ⟨⟨v, t', hrun, hentries, hpending⟩, -⟩ := propfind_decodes _ lockingServer
    (fun _ _ => rfl) observes_readdirFiller (t := idle ()) rfl hreceived rfl rfl hform
  have hmem : withoutOk ∈ [describedFile, withoutOk, describedFile] := .tail _ (.head _)
  exact ⟨v, t', hrun, hentries, hpending.mpr ⟨withoutOk, hall ▸ hmem, rfl⟩⟩

end NetworkFs.Dav
