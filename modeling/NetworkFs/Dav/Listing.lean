import NetworkFs.Dav.Replies
import NetworkFs.Text.Percent

/-!
# What `dav_propfind` reports

`dav_propfind` calls its filler once for each `response` whose URL extends the effective
URL, as texts. `dav_getattr` and `dav_readdir` take the absence of an exception for
success, whatever was called.

* `propfindResponses_calls`: the calls of the filler, from the reply.
* `getattr_filled_iff`: when a `dav_getattr` that returns zero has filled in the
  attributes of what it was asked for.
* `readdir_lists_iff`: when `dav_readdir` reports the members of a collection.
-/

namespace NetworkFs.Dav

open Control Grammar Wrapper Text

variable {σ ρ α : Type} (env : Env σ) (srv : DavServer)

/-! ## The calls of the filler -/

/-- The calls that the loop over the children of the root makes; absent when it stops with
    an exception. -/
def fillCalls (o : Opts) (baseurl : Text) : List Node → σ → Option (List (Text × Stat))
  | [], _ => some []
  | n :: ns, s =>
    if n.name = "response".toList then
      ((goesOn env baseurl n s).bind (fillCalls o baseurl ns)).map fun calls =>
        (fillCall env o baseurl n s).toList ++ calls
    else fillCalls o baseurl ns s

/-- The calls that are made, and whether the loop stops with an exception after them. -/
def madeCalls (o : Opts) (baseurl : Text) : List Node → σ → List (Text × Stat) × Bool
  | [], _ => ([], false)
  | n :: ns, s =>
    if n.name = "response".toList then
      match goesOn env baseurl n s with
      | some s' =>
        let later := madeCalls o baseurl ns s'
        ((fillCall env o baseurl n s).toList ++ later.1, later.2)
      | none => ([], true)
    else madeCalls o baseurl ns s

/-- Without an exception all calls are made. -/
theorem fillCalls_eq (o : Opts) (baseurl : Text) (ns : List Node) (s : σ) :
    fillCalls env o baseurl ns s =
      if (madeCalls env o baseurl ns s).2 then none else some (madeCalls env o baseurl ns s).1 := by
  induction ns generalizing s with
  | nil => rfl
  | cons n ns ih =>
    unfold fillCalls madeCalls
    split
    · rcases goesOn env baseurl n s with _ | s'
      · rfl
      · simp only [Option.bind_some, ih]
        split <;> rfl
    · exact ih s

/-- `filler` writes `put` to the part `out` of the memory. -/
structure Records {γ : Type} (filler : Text → Stat → Dav σ ρ Unit) (out : Mem σ → γ)
    (put : γ → Text × Stat → γ) : Prop where
  fills : Fills filler
  outside : ∀ (t : Thread (Mem σ)) s, out (atEnv t s).mem = out t.mem
  call : ∀ name st t t', filler name st t = (.ok (), t') → out t'.mem = put (out t.mem) (name, st)

theorem records_readdirFiller : Records (readdirFiller : Text → Stat → Dav σ ρ Unit) (·.entries)
    fun entries call => entries ++ [(call.1, some call.2)] where
  fills := fills_readdirFiller
  outside _ _ := rfl
  call name st t t' h := by rw [← (Prod.mk.inj h).2]

theorem records_davGetattrCallback :
    Records (davGetattrCallback : Text → Stat → Dav σ ρ Unit) (·.stbuf) fun _ call => call.2 where
  fills := fills_davGetattrCallback
  outside _ _ := rfl
  call name st t t' h := by rw [← (Prod.mk.inj h).2]

section Calls

variable {γ : Type} {filler : Text → Stat → Dav σ ρ Unit} {out : Mem σ → γ}
  {put : γ → Text × Stat → γ} (hrecords : Records filler out put) {t : Thread (Mem σ)}

include hrecords

theorem Records.called {call : Option (Text × Stat)} {t' : Thread (Mem σ)}
    (h : Called filler call t t') : out t'.mem = call.toList.foldl put (out t.mem) := by
  cases call with
  | none => rw [show t' = t from h]; rfl
  | some c =>
    obtain ⟨s, hcall⟩ := h
    rw [hrecords.call c.1 c.2 _ _ hcall, hrecords.outside]
    rfl

theorem Records.raised (s : σ) (e : ExType) : out (raised (atEnv t s) e).mem = out t.mem :=
  hrecords.outside t s

/-- The loop over the `response` elements makes the calls one after the other. -/
theorem propfindResponses_made (baseurl : Text) (ns : List Node) (ht : t.ex.has = false)
    (hsafe : ResponsesSafe env baseurl ns t.mem.env) :
    ∃ t', Ctl.forEach ns (propfindResponse env srv filler baseurl) t = (.ok (), t') ∧
      t'.ex.has = (madeCalls env srv.options baseurl ns t.mem.env).2 ∧
      out t'.mem = (madeCalls env srv.options baseurl ns t.mem.env).1.foldl put (out t.mem) := by
  induction ns generalizing t with
  | nil => exact ⟨t, rfl, ht, rfl⟩
  | cons n ns ih =>
    unfold madeCalls
    by_cases hname : n.name = "response".toList
    · rw [ResponsesSafe, if_pos hname] at hsafe
      rw [if_pos hname]
      obtain ⟨hfaults, -⟩ | ⟨-, hgoes, s, e, hrun⟩ |
        ⟨-, s, hgoes, t', hrun, hex, henv, hcalled⟩ :=
        propfindResponse_cases env srv hrecords.fills baseurl hname ht
      · exact absurd hsafe.1 hfaults
      · refine ⟨_, Ctl.forEach_cons_brk hrun, ?_, ?_⟩
        · rw [hgoes]
          rfl
        · rw [hgoes]
          exact hrecords.raised s e
      · have htail := ih hex (by rw [henv]; exact hsafe.2 s hgoes)
        rw [henv] at htail
        obtain ⟨t'', hloop, hpending, hout⟩ := htail
        refine ⟨t'', (Ctl.forEach_cons_ok hrun).trans hloop, ?_, ?_⟩
        · rw [hgoes]
          exact hpending
        · rw [hgoes, hout, hrecords.called hcalled, List.foldl_append]
    · have hskip : propfindResponse env srv filler baseurl n t = (.ok (), t) := by
        rw [propfindResponse, if_neg (by simpa using hname)]
        rfl
      rw [ResponsesSafe, if_neg hname] at hsafe
      rw [if_neg hname, Ctl.forEach_cons_ok hskip]
      exact ih ht hsafe

/-- The calls of a loop that goes through. -/
theorem propfindResponses_calls (baseurl : Text) (ns : List Node) (ht : t.ex.has = false)
    (hsafe : ResponsesSafe env baseurl ns t.mem.env) :
    ∃ t', Ctl.forEach ns (propfindResponse env srv filler baseurl) t = (.ok (), t') ∧
      match fillCalls env srv.options baseurl ns t.mem.env with
      | some calls => t'.ex.has = false ∧ out t'.mem = calls.foldl put (out t.mem)
      | none => t'.ex.has = true := by
  obtain ⟨t', hrun, hpending, hout⟩ :=
    propfindResponses_made env srv hrecords baseurl ns ht hsafe
  refine ⟨t', hrun, ?_⟩
  rw [fillCalls_eq]
  cases hstops : (madeCalls env srv.options baseurl ns t.mem.env).2 with
  | false => exact ⟨hpending.trans hstops, hout⟩
  | true => exact hpending.trans hstops

end Calls

/-! ## Attributes of a resource -/

/-- A URL without the slash at its end. -/
def withoutSlash (url : Text) : Text := if url.getLast? = some '/' then url.dropLast else url

/-- The absolute path in an absolute URL. -/
def absolutePath (url : Text) : Text :=
  ((url.dropWhile (· ≠ ':')).drop "://".toList.length).dropWhile (· ≠ '/')

/-- `href` denotes the resource at `url`: as an absolute URL or as an absolute path, with or
    without a slash at the end. -/
def Denotes (url href : Text) : Prop :=
  withoutSlash href = withoutSlash url ∨ withoutSlash href = withoutSlash (absolutePath url)

instance (url href : Text) : Decidable (Denotes url href) := by unfold Denotes; infer_instance

/-- `st` is decoded from a `response` for the resource at `url`, as the loop comes to it. -/
def Decoded (o : Opts) (url : Text) : List Node → σ → Stat → Prop
  | [], _, _ => False
  | n :: ns, s, st =>
    if n.name = "response".toList then
      (∃ prop href, okProp n = some prop ∧ hrefText n = some href ∧ Denotes url href ∧
        decodeStat o (xmlParserTimeNode (env.strptime · · s)) prop = some st) ∨
      ∃ s', goesOn env url n s = some s' ∧ Decoded o url ns s' st
    else Decoded o url ns s st

/-- Whatever `*stbuf` holds on entry, `dav_getattr` returns a negative `errno`, or zero
    with the attributes from a `response` for the requested resource. -/
def FilledIn (path : Path) (t : Thread (Mem σ)) : Prop :=
  ∀ stbuf, ∃ v st t', (davGetattr env srv path stbuf : Dav σ Unit (ℤ × Stat)) t = (.ok (v, st), t') ∧
    (v < 0 ∨ v = 0 ∧ ∃ reply s root, propfindReceived env srv path 0 t.mem.env = some (reply, s) ∧
      reply.xml = some (.document root) ∧
      Decoded env srv.options reply.effectiveUrl root.children s st)

/-- The status is 207, and what is dereferenced is there; if the loop goes through, the last
    `response` whose URL extends the effective one has the attributes of the resource. -/
def ReplyFills (o : Opts) (reply : Reply) (s : σ) : Prop :=
  reply.status = 207 ∧ match reply.xml with
    | none => False
    | some .malformed => True
    | some (.document root) => ResponsesSafe env reply.effectiveUrl root.children s ∧
        ∀ calls, fillCalls env o reply.effectiveUrl root.children s = some calls →
          ∃ call, calls.getLast? = some call ∧
            Decoded env o reply.effectiveUrl root.children s call.2

theorem foldlM_keeps {β : Type} {f : β → α → Option β} {P : β → Prop}
    (h : ∀ b a b', f b a = some b' → P b → P b') (as : List α) {b b' : β}
    (hrun : as.foldlM f b = some b') (hb : P b) : P b' := by
  induction as generalizing b with
  | nil =>
    rw [← Option.some.inj hrun]
    exact hb
  | cons a as ih =>
    rw [List.foldlM_cons] at hrun
    obtain ⟨b₁, hstep, hrest⟩ := Option.bind_eq_some_iff.mp hrun
    exact ih hrest (h b a b₁ hstep hb)

theorem davProp_nlink (o : Opts) (time : Node → ℤ) (st : Stat) (entry : Node) (st' : Stat)
    (h : davProp o time st entry = some st') (hst : st.nlink ≠ 0) : st'.nlink ≠ 0 := by
  obtain ⟨ns, -, h⟩ := Option.bind_eq_some_iff.mp h
  split_ifs at h
  · rwa [← Option.some.inj h]
  · obtain ⟨text, -, h⟩ := Option.bind_eq_some_iff.mp h
    rwa [← Option.some.inj h]
  · rw [← Option.some.inj h]
    exact two_ne_zero
  all_goals rwa [← Option.some.inj h]

theorem networkfsProp_nlink (st : Stat) (entry : Node) (st' : Stat)
    (h : networkfsProp st entry = some st') (hst : st.nlink ≠ 0) : st'.nlink ≠ 0 := by
  have hmode : ∀ text, (setMode st text).nlink = st.nlink := by
    intro text
    unfold setMode
    dsimp only
    split_ifs <;> rfl
  obtain ⟨ns, -, h⟩ := Option.bind_eq_some_iff.mp h
  split_ifs at h
  · rwa [← Option.some.inj h]
  · obtain ⟨text, -, h⟩ := Option.bind_eq_some_iff.mp h
    rwa [← Option.some.inj h, hmode]
  · obtain ⟨text, -, h⟩ := Option.bind_eq_some_iff.mp h
    rwa [← Option.some.inj h]
  · obtain ⟨text, -, h⟩ := Option.bind_eq_some_iff.mp h
    rwa [← Option.some.inj h]
  · obtain ⟨text, -, h⟩ := Option.bind_eq_some_iff.mp h
    rwa [← Option.some.inj h]
  · rwa [← Option.some.inj h]

/-- Decoded attributes have a link count. -/
theorem decodeStat_nlink {o : Opts} {time : Node → ℤ} {prop : Node} {st : Stat}
    (h : decodeStat o time prop = some st) : st.nlink ≠ 0 := by
  obtain ⟨st₁, hdav, hnetworkfs⟩ := Option.bind_eq_some_iff.mp h
  have h₁ : st₁.nlink ≠ 0 := foldlM_keeps (davProp_nlink o time) _ hdav one_ne_zero
  exact foldlM_keeps networkfsProp_nlink _ hnetworkfs h₁

theorem Decoded.nlink {o : Opts} {url : Text} {ns : List Node} {s : σ} {st : Stat}
    (h : Decoded env o url ns s st) : st.nlink ≠ 0 := by
  induction ns generalizing s with
  | nil => exact h.elim
  | cons n ns ih =>
    unfold Decoded at h
    split_ifs at h
    · rcases h with ⟨prop, href, -, -, -, hst⟩ | ⟨s', -, h⟩
      · exact decodeStat_nlink hst
      · exact ih h
    · exact ih h

/-! ## `dav_getattr` -/

/-- `t` with `*stbuf` on entry. -/
def withStat (stbuf : Stat) (t : Thread (Mem σ)) : Thread (Mem σ) :=
  { t with mem := { t.mem with stbuf := stbuf } }

section Getattr

variable {path : Path} {stbuf : Stat} {t t' : Thread (Mem σ)} {v : ℤ}

/-- An exception becomes a negative `errno`. -/
theorem davGetattr_pending
    (hrun : (davPropfind env srv path 0 davGetattrCallback : Dav σ ρ ℤ) (withStat stbuf t) =
      (.ok v, t')) (hex : t'.ex.has = true) :
    ∃ v' st t'', (davGetattr env srv path stbuf : Dav σ ρ (ℤ × Stat)) t = (.ok (v', st), t'') ∧
      v' < 0 := by
  refine ⟨exceptionErrno t'.ex, t'.mem.stbuf, { t' with ex := .clear }, ?_, exceptionErrno_neg _⟩
  rw [davGetattr, Ctl.bind_ok (modifyMem_apply _ t)]
  refine (Ctl.bind_ok hrun).trans ?_
  rw [davExceptionCheck, bind_assoc, Ctl.bind_ok (Ctl.gets_apply _ t'), if_pos hex]
  rfl

/-- The absence of an exception is taken for success. -/
theorem davGetattr_clean
    (hrun : (davPropfind env srv path 0 davGetattrCallback : Dav σ ρ ℤ) (withStat stbuf t) =
      (.ok v, t')) (hex : t'.ex.has = false) :
    (davGetattr env srv path stbuf : Dav σ ρ (ℤ × Stat)) t = (.ok (0, t'.mem.stbuf), t') := by
  rw [davGetattr, Ctl.bind_ok (modifyMem_apply _ t)]
  refine (Ctl.bind_ok hrun).trans ?_
  rw [davExceptionCheck, bind_assoc, Ctl.bind_ok (Ctl.gets_apply _ t'), if_neg (by simp [hex])]
  rfl

theorem davGetattr_fault
    (hrun : (davPropfind env srv path 0 davGetattrCallback : Dav σ ρ ℤ) (withStat stbuf t) =
      (.error .fault, t')) :
    (davGetattr env srv path stbuf : Dav σ ρ (ℤ × Stat)) t = (.error .fault, t') := by
  rw [davGetattr, Ctl.bind_ok (modifyMem_apply _ t)]
  exact Ctl.bind_error hrun

/-- `dav_getattr` on what `dav_propfind` received. -/
theorem davGetattr_received (h : t.ex.has = false) {reply : Reply} {s : σ}
    (hr : propfindReceived env srv path 0 t.mem.env = some (reply, s)) (stbuf : Stat) :
    ∃ t₀, t₀.ex.has = false ∧ t₀.mem.env = s ∧ t₀.mem.stbuf = stbuf ∧
      (∀ t', (propfindReply env srv davGetattrCallback reply : Dav σ ρ Unit) t₀ = (.ok (), t') ∨
        (propfindReply env srv davGetattrCallback reply : Dav σ ρ Unit) t₀ = (.error .brk, t') →
          (t'.ex.has = true → ∃ v st t'',
            (davGetattr env srv path stbuf : Dav σ ρ (ℤ × Stat)) t = (.ok (v, st), t'') ∧ v < 0) ∧
          (t'.ex.has = false →
            (davGetattr env srv path stbuf : Dav σ ρ (ℤ × Stat)) t = (.ok (0, t'.mem.stbuf), t'))) ∧
      (∀ t', (propfindReply env srv davGetattrCallback reply : Dav σ ρ Unit) t₀ = (.error .fault, t') →
        (davGetattr env srv path stbuf : Dav σ ρ (ℤ × Stat)) t = (.error .fault, t')) := by
  obtain ⟨t₀, hex, henv, hsame, hreturns, hfaults⟩ :=
    davPropfind_received (t := withStat stbuf t) env srv davGetattrCallback h hr
  refine ⟨t₀, hex, henv, hsame.2, fun t' hrun => ?_, fun t' hrun => ?_⟩
  · obtain ⟨v, hv⟩ := hreturns t' hrun
    exact ⟨davGetattr_pending env srv hv, davGetattr_clean env srv hv⟩
  · exact davGetattr_fault env srv (hfaults t' hrun)

/-- An error is never a failure to fill in. -/
theorem filledIn_of_neg (hrun : ∀ stbuf, ∃ v st t',
    (davGetattr env srv path stbuf : Dav σ Unit (ℤ × Stat)) t = (.ok (v, st), t') ∧ v < 0) :
    FilledIn env srv path t := by
  intro stbuf
  obtain ⟨v, st, t', hv, hneg⟩ := hrun stbuf
  exact ⟨v, st, t', hv, .inl hneg⟩

/-- Zero with `*stbuf` as it was on entry. -/
theorem not_filledIn_of_same (hrun : ∀ stbuf, ∃ t',
    (davGetattr env srv path stbuf : Dav σ Unit (ℤ × Stat)) t = (.ok (0, stbuf), t')) :
    ¬FilledIn env srv path t := by
  intro hfilled
  obtain ⟨v, st, t', hv, hcase⟩ := hfilled ⟨0, 0, 0, 0, 0, 0, 0, 0, 0⟩
  obtain ⟨t'', hzero⟩ := hrun ⟨0, 0, 0, 0, 0, 0, 0, 0, 0⟩
  rw [hzero] at hv
  obtain ⟨hv, hst⟩ := Prod.mk.inj (Except.ok.inj (Prod.mk.inj hv).1)
  rcases hcase with hneg | ⟨-, reply, s, root, -, -, hdecoded⟩
  · rw [← hv] at hneg
    exact absurd hneg (lt_irrefl 0)
  · rw [← hst] at hdecoded
    exact hdecoded.nlink env rfl

theorem not_filledIn_of_fault (hrun : ∀ stbuf, ∃ t',
    (davGetattr env srv path stbuf : Dav σ Unit (ℤ × Stat)) t = (.error .fault, t')) :
    ¬FilledIn env srv path t := by
  intro hfilled
  obtain ⟨v, st, t', hv, -⟩ := hfilled ⟨0, 0, 0, 0, 0, 0, 0, 0, 0⟩
  obtain ⟨t'', hfault⟩ := hrun ⟨0, 0, 0, 0, 0, 0, 0, 0, 0⟩
  rw [hfault] at hv
  exact nomatch hv

/-- Zero with the attributes of the last call. -/
theorem filledIn_iff_of_zero {reply : Reply} {s : σ} {root : Node} {st : Stat}
    (hr : propfindReceived env srv path 0 t.mem.env = some (reply, s))
    (hxml : reply.xml = some (.document root)) (hrun : ∀ stbuf, ∃ t',
      (davGetattr env srv path stbuf : Dav σ Unit (ℤ × Stat)) t = (.ok (0, st), t')) :
    FilledIn env srv path t ↔
      Decoded env srv.options reply.effectiveUrl root.children s st := by
  constructor
  · intro hfilled
    obtain ⟨v, st', t', hv, hcase⟩ := hfilled st
    obtain ⟨t'', hzero⟩ := hrun st
    rw [hzero] at hv
    obtain ⟨hv, hst⟩ := Prod.mk.inj (Except.ok.inj (Prod.mk.inj hv).1)
    rcases hcase with hneg | ⟨-, reply', s', root', hr', hxml', hdecoded⟩
    · rw [← hv] at hneg
      exact absurd hneg (lt_irrefl 0)
    · rw [hr] at hr'
      obtain ⟨rfl, rfl⟩ := Prod.mk.inj (Option.some.inj hr')
      rw [hxml] at hxml'
      obtain rfl := XmlCtxt.document.inj (Option.some.inj hxml')
      rwa [hst]
  · intro hdecoded stbuf
    obtain ⟨t', hzero⟩ := hrun stbuf
    exact ⟨0, st, t', hzero, .inr ⟨rfl, reply, s, root, hr, hxml, hdecoded⟩⟩

theorem foldl_last (calls : List (Text × Stat)) (st : Stat) :
    calls.foldl (fun _ call => call.2) st = (calls.getLast?.map Prod.snd).getD st := by
  induction calls using List.reverseRecOn with
  | nil => rfl
  | append_singleton calls call _ => simp

section Document

variable (h : t.ex.has = false) {reply : Reply} {s : σ} {root : Node}
  (hr : propfindReceived env srv path 0 t.mem.env = some (reply, s)) (hstatus : reply.status = 207)
  (hxml : reply.xml = some (.document root))

include hstatus hxml

theorem propfindReply_document (filler : Text → Stat → Dav σ ρ Unit) (t₀ : Thread (Mem σ)) :
    propfindReply env srv filler reply t₀ = Ctl.forEach root.children
      (propfindResponse env srv filler reply.effectiveUrl) t₀ := by
  rw [propfindReply, if_pos hstatus, hxml]
  rfl

include h hr

theorem davGetattr_absent (hsafe : ¬ResponsesSafe env reply.effectiveUrl root.children s)
    (stbuf : Stat) :
    ∃ t', (davGetattr env srv path stbuf : Dav σ ρ (ℤ × Stat)) t = (.error .fault, t') := by
  obtain ⟨t₀, hex, henv, -, -, hfaults⟩ := davGetattr_received (ρ := ρ) env srv h hr stbuf
  rw [← henv] at hsafe
  obtain ⟨t', hrun⟩ := (propfindResponses_run (ρ := ρ) env srv fills_davGetattrCallback
    reply.effectiveUrl root.children hex).2 hsafe
  exact ⟨t', hfaults t' ((propfindReply_document env srv hstatus hxml _ t₀).trans hrun)⟩

variable (hsafe : ResponsesSafe env reply.effectiveUrl root.children s)

include hsafe

/-- The loop stops with an exception. -/
theorem davGetattr_stopped
    (hcalls : fillCalls env srv.options reply.effectiveUrl root.children s = none) (stbuf : Stat) :
    ∃ v st t', (davGetattr env srv path stbuf : Dav σ ρ (ℤ × Stat)) t = (.ok (v, st), t') ∧
      v < 0 := by
  obtain ⟨t₀, hex, henv, -, hreturns, -⟩ := davGetattr_received (ρ := ρ) env srv h hr stbuf
  obtain ⟨t', hrun, hcase⟩ := propfindResponses_calls (ρ := ρ) env srv
    records_davGetattrCallback reply.effectiveUrl root.children hex (by rw [henv]; exact hsafe)
  rw [henv, hcalls] at hcase
  exact (hreturns t' (.inl ((propfindReply_document env srv hstatus hxml _ t₀).trans hrun))).1 hcase

/-- The loop goes through, and `*stbuf` holds what the last call wrote. -/
theorem davGetattr_through {calls : List (Text × Stat)}
    (hcalls : fillCalls env srv.options reply.effectiveUrl root.children s = some calls)
    (stbuf : Stat) :
    ∃ t', (davGetattr env srv path stbuf : Dav σ ρ (ℤ × Stat)) t =
      (.ok (0, (calls.getLast?.map Prod.snd).getD stbuf), t') := by
  obtain ⟨t₀, hex, henv, hst, hreturns, -⟩ := davGetattr_received (ρ := ρ) env srv h hr stbuf
  obtain ⟨t', hrun, hcase⟩ := propfindResponses_calls (ρ := ρ) env srv
    records_davGetattrCallback reply.effectiveUrl root.children hex (by rw [henv]; exact hsafe)
  rw [henv, hcalls] at hcase
  obtain ⟨hex', hout⟩ := hcase
  have hclean := (hreturns t'
    (.inl ((propfindReply_document env srv hstatus hxml _ t₀).trans hrun))).2 hex'
  rw [hout, foldl_last, hst] at hclean
  exact ⟨t', hclean⟩

omit hsafe in
/-- The loop over the body of a multi-status reply. -/
theorem filledIn_document : FilledIn env srv path t ↔
    ResponsesSafe env reply.effectiveUrl root.children s ∧
      ∀ calls, fillCalls env srv.options reply.effectiveUrl root.children s = some calls →
        ∃ call, calls.getLast? = some call ∧
          Decoded env srv.options reply.effectiveUrl root.children s call.2 := by
  by_cases hsafe : ResponsesSafe env reply.effectiveUrl root.children s
  · rcases hcalls : fillCalls env srv.options reply.effectiveUrl root.children s with _ | calls
    · refine ⟨fun _ => ⟨hsafe, fun calls hnone => (nomatch hnone)⟩, fun _ => ?_⟩
      exact filledIn_of_neg env srv (davGetattr_stopped env srv h hr hstatus hxml hsafe hcalls)
    · have hrun := davGetattr_through (ρ := Unit) env srv h hr hstatus hxml hsafe hcalls
      rcases hlast : calls.getLast? with _ | call <;> rw [hlast] at hrun
      · constructor
        · intro hfilled
          exact absurd hfilled (not_filledIn_of_same env srv hrun)
        · rintro ⟨-, hall⟩
          obtain ⟨call, hcall, -⟩ := hall calls rfl
          rw [hlast] at hcall
          exact nomatch hcall
      · rw [filledIn_iff_of_zero env srv hr hxml hrun]
        constructor
        · intro hdecoded
          refine ⟨hsafe, fun calls' hcalls' => ⟨call, ?_, hdecoded⟩⟩
          rw [← Option.some.inj hcalls']
          exact hlast
        · rintro ⟨-, hall⟩
          obtain ⟨call', hcall', hdecoded⟩ := hall calls rfl
          rw [hlast] at hcall'
          rwa [Option.some.inj hcall']
  · refine ⟨fun hfilled => ?_, fun hall => absurd hall.1 hsafe⟩
    exact absurd hfilled
      (not_filledIn_of_fault env srv (davGetattr_absent env srv h hr hstatus hxml hsafe))

end Document

/-- `dav_getattr` fills in the attributes of what it was asked for, or returns a negative
    `errno`, exactly when the reply it gets, if any, is a multi-status whose last
    `response` that extends the effective URL has them. -/
theorem getattr_filled_iff (path : Path) (t : Thread (Mem σ)) :
    FilledIn env srv path t ↔ (t.ex.has = false → ∀ reply s,
      propfindReceived env srv path 0 t.mem.env = some (reply, s) →
        ReplyFills env srv.options reply s) := by
  cases h : t.ex.has with
  | true =>
    refine ⟨fun _ h => (nomatch h), fun _ => filledIn_of_neg env srv fun stbuf => ?_⟩
    exact davGetattr_pending env srv (davPropfind_pending (t := withStat stbuf t) env srv h) h
  | false =>
    rcases hr : propfindReceived env srv path 0 t.mem.env with _ | ⟨reply, s⟩
    · refine ⟨fun _ _ _ _ hr => (nomatch hr), fun _ => filledIn_of_neg env srv fun stbuf => ?_⟩
      obtain ⟨v, t', hv, hex⟩ := davPropfind_not_received (t := withStat stbuf t) (ρ := Unit) env srv
        davGetattrCallback h hr
      exact davGetattr_pending env srv hv hex
    · have hone : (false = false → ∀ reply' s', some (reply, s) = some (reply', s') →
          ReplyFills env srv.options reply' s') ↔ ReplyFills env srv.options reply s := by
        constructor
        · intro hall
          exact hall rfl reply s rfl
        · rintro hfills - reply' s' hsame
          obtain ⟨rfl, rfl⟩ := Prod.mk.inj (Option.some.inj hsame)
          exact hfills
      rw [hone]
      unfold ReplyFills
      by_cases hstatus : reply.status = 207
      · rcases hxml : reply.xml with _ | _ | root
        · refine ⟨fun hfilled => absurd hfilled (not_filledIn_of_fault env srv fun stbuf => ?_),
            fun hall => hall.2.elim⟩
          obtain ⟨t₀, -, -, -, -, hfaults⟩ := davGetattr_received (ρ := Unit) env srv h hr stbuf
          refine ⟨t₀, hfaults t₀ ?_⟩
          rw [propfindReply, if_pos hstatus, hxml]
          rfl
        · refine ⟨fun _ => ⟨hstatus, trivial⟩, fun _ => filledIn_of_neg env srv fun stbuf => ?_⟩
          obtain ⟨t₀, -, -, -, hreturns, -⟩ := davGetattr_received (ρ := Unit) env srv h hr stbuf
          refine (hreturns (raised t₀ (.unspecified "Failed to parse")) (.inr ?_)).1 rfl
          rw [propfindReply, if_pos hstatus, hxml]
          rfl
        · rw [filledIn_document env srv h hr hstatus hxml]
          exact ⟨fun hall => ⟨hstatus, hall⟩, fun hall => hall.2⟩
      · refine ⟨fun hfilled => absurd hfilled (not_filledIn_of_same env srv fun stbuf => ?_),
          fun hall => absurd hall.1 hstatus⟩
        obtain ⟨t₀, hex, -, hst, hreturns, -⟩ := davGetattr_received (ρ := Unit) env srv h hr stbuf
        refine ⟨t₀, ?_⟩
        have hbreak : (propfindReply env srv davGetattrCallback reply : Dav σ Unit Unit) t₀ =
            (.error .brk, t₀) := by
          rw [propfindReply, if_neg hstatus]
          rfl
        rw [(hreturns t₀ (.inr hbreak)).2 hex, hst]

/-- `dav_getattr` returns zero with `st` on `reply`: `st` is what `*stbuf` holds on entry or
    what the last call wrote. -/
def Reports (o : Opts) (stbuf : Stat) (reply : Reply) (s : σ) (st : Stat) : Prop :=
  (reply.status ≠ 207 ∧ st = stbuf) ∨ (reply.status = 207 ∧ ∃ root calls,
    reply.xml = some (.document root) ∧ ResponsesSafe env reply.effectiveUrl root.children s ∧
    fillCalls env o reply.effectiveUrl root.children s = some calls ∧
    st = (calls.getLast?.map Prod.snd).getD stbuf)

/-- `dav_getattr` on a reply: an error, no return, or zero after the loop over the reply. -/
theorem davGetattr_cases (h : t.ex.has = false) {reply : Reply} {s : σ}
    (hr : propfindReceived env srv path 0 t.mem.env = some (reply, s)) (stbuf : Stat) :
    ((∀ st, ¬Reports env srv.options stbuf reply s st) ∧ ∃ v st t',
      (davGetattr env srv path stbuf : Dav σ ρ (ℤ × Stat)) t = (.ok (v, st), t') ∧ v < 0) ∨
    ((∀ st, ¬Reports env srv.options stbuf reply s st) ∧ ∃ t',
      (davGetattr env srv path stbuf : Dav σ ρ (ℤ × Stat)) t = (.error .fault, t')) ∨
    (∃ st t', Reports env srv.options stbuf reply s st ∧
      (davGetattr env srv path stbuf : Dav σ ρ (ℤ × Stat)) t = (.ok (0, st), t') ∧
      t'.ex.has = false ∧ ∃ t₀ : Thread (Mem σ), t₀.mem.env = s ∧
        ((propfindReply env srv davGetattrCallback reply : Dav σ ρ Unit) t₀).2 = t') := by
  obtain ⟨t₀, hex, henv, hst, hreturns, hfaults⟩ := davGetattr_received (ρ := ρ) env srv h hr stbuf
  by_cases hstatus : reply.status = 207
  · have hreports : ∀ st, Reports env srv.options stbuf reply s st → ∃ root,
        reply.xml = some (.document root) := by
      rintro st (⟨hne, -⟩ | ⟨-, root, calls, hxml, -⟩)
      · exact absurd hstatus hne
      · exact ⟨root, hxml⟩
    rcases hxml : reply.xml with _ | _ | root
    · refine .inr (.inl ⟨fun st hrep => ?_, t₀, hfaults t₀ ?_⟩)
      · obtain ⟨root, hroot⟩ := hreports st hrep
        cases hxml.symm.trans hroot
      · rw [propfindReply, if_pos hstatus, hxml]
        rfl
    · refine .inl ⟨fun st hrep => ?_, (hreturns (raised t₀ (.unspecified "Failed to parse"))
        (.inr ?_)).1 rfl⟩
      · obtain ⟨root, hroot⟩ := hreports st hrep
        cases hxml.symm.trans hroot
      · rw [propfindReply, if_pos hstatus, hxml]
        rfl
    · have hloop := propfindReply_document env srv hstatus hxml
        (davGetattrCallback : Text → Stat → Dav σ ρ Unit) t₀
      have hdocument : ∀ st, Reports env srv.options stbuf reply s st →
          ResponsesSafe env reply.effectiveUrl root.children s ∧
            (fillCalls env srv.options reply.effectiveUrl root.children s).isSome := by
        rintro st (⟨hne, -⟩ | ⟨-, root', calls, hxml', hsafe, hcalls, -⟩)
        · exact absurd hstatus hne
        · obtain rfl := XmlCtxt.document.inj (Option.some.inj (hxml.symm.trans hxml'))
          exact ⟨hsafe, by rw [hcalls]; rfl⟩
      by_cases hsafe : ResponsesSafe env reply.effectiveUrl root.children s
      · obtain ⟨t', hrun, hcase⟩ := propfindResponses_calls (ρ := ρ) env srv
          records_davGetattrCallback reply.effectiveUrl root.children hex (by rw [henv]; exact hsafe)
        obtain ⟨hpending, hclean⟩ := hreturns t' (.inl (hloop.trans hrun))
        rw [henv] at hcase
        rcases hcalls : fillCalls env srv.options reply.effectiveUrl root.children s with _ | calls
        · rw [hcalls] at hcase hdocument
          exact .inl ⟨fun st hrep => (by cases (hdocument st hrep).2), hpending hcase⟩
        · rw [hcalls] at hcase
          obtain ⟨hex', hout⟩ := hcase
          rw [hout, foldl_last, hst] at hclean
          exact .inr (.inr ⟨_, t', .inr ⟨hstatus, root, calls, hxml, hsafe, hcalls, rfl⟩,
            hclean hex', hex', t₀, henv, by rw [hloop, hrun]⟩)
      · obtain ⟨t', hrun⟩ := (propfindResponses_run (ρ := ρ) env srv fills_davGetattrCallback
          reply.effectiveUrl root.children hex).2 (by rw [henv]; exact hsafe)
        exact .inr (.inl ⟨fun st hrep => hsafe (hdocument st hrep).1, t',
          hfaults t' (hloop.trans hrun)⟩)
  · have hbreak : (propfindReply env srv davGetattrCallback reply : Dav σ ρ Unit) t₀ =
        (.error .brk, t₀) := by
      rw [propfindReply, if_neg hstatus]
      rfl
    have hrun := (hreturns t₀ (.inr hbreak)).2 hex
    rw [hst] at hrun
    exact .inr (.inr ⟨stbuf, t₀, .inl ⟨hstatus, rfl⟩, hrun, hex, t₀, henv, by rw [hbreak]⟩)

end Getattr

/-- A `response` with an OK `propstat` without properties. -/
def okResponse (href : String) : Node :=
  davNode "response" [davNode "href" [textNode href],
    davNode "propstat" [davNode "prop" [], davNode "status" [textNode "HTTP/1.1 200 OK"]]]

/-- A multi-status reply from the effective URL `url`. -/
def multistatus (url : String) (responses : List Node) : Reply :=
  ⟨.ok, 207, [], [], url.toList, some (.document (davNode "multistatus" responses))⟩

/-- The one `response` gives the resource as an absolute path: `dav_getattr` returns zero
    and leaves `*stbuf` as it was. -/
theorem getattr_path_unfilled : Denotes "http://h/a".toList "/a".toList ∧
    ¬FilledIn (answering (multistatus "http://h/a" [okResponse "/a"])) lockingServer [47, 97]
      (idle ()) := by
  refine ⟨by decide, not_filledIn_of_same _ _ fun stbuf => ?_⟩
  exact ⟨_, rfl⟩

/-! ## The members of a collection -/

/-- `url` with a slash at its end. -/
def withSlash (url : Text) : Text := if url.getLast? = some '/' then url else url ++ ['/']

/-- What a `response` of a listing is about: the collection, or a member of it. -/
inductive Item where
  | self
  | member (name : Text)

/-- A valid `response` for the collection at `url` or a member of it; the URL of a member
    that is a collection has a slash at its end. -/
def Describes (url : Text) (response : Node) (item : Item) : Prop :=
  ResponseSafe response ∧ (okProp response).isSome ∧ ∃ href, hrefText response = some href ∧
    match item with
    | .self => href = url ∨ href = withSlash url
    | .member name => ∃ text slash, Encodes name text ∧ (slash = [] ∨ slash = ['/']) ∧
        href = withSlash url ++ (text ++ slash)

/-- The `response` elements are one for the collection and one for each name, in any
    order. -/
def ListsCollection (url : Text) (names : List Text) (ns : List Node) : Prop :=
  ∃ items : List Item, items.Perm (.self :: names.map .member) ∧
    List.Forall₂ (Describes url) (ns.filter (·.name = "response".toList)) items

/-- A name that a member can have. -/
def MemberName (name : Text) : Prop := name ≠ [] ∧ '/' ∉ name ∧ Char.ofNat 0 ∉ name

/-- `curl_easy_unescape` decodes; its result ends at a NUL. -/
def Unescapes : Prop :=
  ∀ text s, Char.ofNat 0 ∉ percentDecode text → (env.unescape text s).1 = some (percentDecode text)

/-- `filler` is called once with `.` and once with each name. -/
def ListsMembers (path : Path) (names : List Text) (t : Thread (Mem σ)) : Prop :=
  ∃ v t' entries, (davPropfind env srv path 1 readdirFiller : Dav σ Unit ℤ) t = (.ok v, t') ∧
    t'.mem.entries = t.mem.entries ++ entries ∧ (entries.map Prod.fst).Perm (".".toList :: names)

/-- The name an item is reported under: without a slash at the end of the effective URL,
    every member is cut to nothing. -/
def reported (url : Text) : Item → Text
  | .self => ".".toList
  | .member name => if url.getLast? = some '/' then name else ".".toList

theorem withSlash_eq (url : Text) :
    withSlash url = url ++ if url.getLast? = some '/' then [] else ['/'] := by
  unfold withSlash
  split_ifs
  · rw [List.append_nil]
  · rfl

theorem entryName_slash (rest : Text) : entryName ('/' :: rest) = ".".toList := by
  simp [entryName]

theorem entryName_append {name slash : Text} (hname : MemberName name)
    (hslash : slash = [] ∨ slash = ['/']) : entryName (name ++ slash) = name := by
  have hall : ∀ c ∈ name, decide (c ≠ '/') = true := by
    intro c hc
    exact decide_eq_true fun h => hname.2.1 (h ▸ hc)
  have hrest : slash.takeWhile (· ≠ '/') = [] := by
    rcases hslash with rfl | rfl <;> rfl
  have htake : (name ++ slash).takeWhile (· ≠ '/') = name := by
    rw [List.takeWhile_append_of_pos hall, hrest, List.append_nil]
  unfold entryName
  dsimp only
  rw [htake, if_neg hname.1]

theorem percentDecode_slash {slash : Text} (hslash : slash = [] ∨ slash = ['/']) :
    percentDecode slash = slash := by
  rcases hslash with rfl | rfl <;> rfl

/-- What follows the effective URL in the URL of an item, and the name it gives. -/
theorem describes_tail {url : Text} {n : Node} {item : Item} (hd : Describes url n item)
    (hname : ∀ name, item = .member name → MemberName name) :
    ∃ tail, hrefText n = some (url ++ tail) ∧ Char.ofNat 0 ∉ percentDecode tail ∧
      entryName (percentDecode tail) = reported url item := by
  obtain ⟨-, -, href, hhref, hitem⟩ := hd
  have hsep : (if url.getLast? = some '/' then [] else ['/'] : Text) = [] ∨
      (if url.getLast? = some '/' then [] else ['/'] : Text) = ['/'] := by
    split_ifs <;> simp
  cases item with
  | self =>
    have htail : ∃ tail : Text, href = url ++ tail ∧ (tail = [] ∨ tail = ['/']) := by
      rcases hitem with rfl | rfl
      · exact ⟨[], (List.append_nil _).symm, .inl rfl⟩
      · exact ⟨_, withSlash_eq url, hsep⟩
    obtain ⟨tail, rfl, htail⟩ := htail
    refine ⟨tail, hhref, ?_, ?_⟩
    · rw [percentDecode_slash htail]
      rcases htail with rfl | rfl <;> decide
    · rw [percentDecode_slash htail]
      rcases htail with rfl | rfl <;> rfl
  | member name =>
    obtain ⟨text, slash, hencodes, hslash, rfl⟩ := hitem
    have hmember := hname name rfl
    have hdecode : percentDecode (text ++ slash) = name ++ slash := by
      rw [percentDecode_append hencodes, percentDecode_slash hslash]
    have hnul : Char.ofNat 0 ∉ name ++ slash := by
      intro hmem
      rcases List.mem_append.mp hmem with hmem | hmem
      · exact hmember.2.2 hmem
      · rcases hslash with rfl | rfl
        · exact absurd hmem List.not_mem_nil
        · exact absurd hmem (by decide)
    refine ⟨_, by rw [hhref, withSlash_eq, List.append_assoc], ?_, ?_⟩
    · split_ifs
      · rw [List.nil_append, hdecode]
        exact hnul
      · rw [List.cons_append, List.nil_append, percentDecode_literal (by decide), hdecode]
        exact fun hmem => hnul ((List.mem_cons.mp hmem).resolve_left (by decide))
    · unfold reported
      split_ifs
      · rw [List.nil_append, hdecode, entryName_append hmember hslash]
      · rw [List.cons_append, List.nil_append, percentDecode_literal (by decide), entryName_slash]

theorem foldl_entries (calls : List (Text × Stat)) (entries : List (Text × Option Stat)) :
    calls.foldl (fun entries call => entries ++ [(call.1, some call.2)]) entries =
      entries ++ calls.map fun call => (call.1, some call.2) := by
  induction calls generalizing entries with
  | nil => simp
  | cons call calls ih =>
    rw [List.foldl_cons, ih, List.append_assoc, List.map_cons]
    rfl

/-- The names the members are reported under are their own. -/
theorem reported_perm_iff (url : Text) (names : List Text) :
    (names.map fun name => reported url (.member name)).Perm names ↔
      url.getLast? = some '/' ∨ ∀ name ∈ names, name = ".".toList := by
  unfold reported
  by_cases hurl : url.getLast? = some '/'
  · simp only [if_pos hurl, List.map_id_fun', id]
    exact ⟨fun _ => .inl hurl, fun _ => .rfl⟩
  · simp only [if_neg hurl]
    constructor
    · intro hperm
      refine .inr fun name hname => ?_
      obtain ⟨_, -, hdot⟩ := List.mem_map.mp (hperm.mem_iff.mpr hname)
      exact hdot.symm
    · rintro (hslash | hdot)
      · exact absurd hslash hurl
      · rw [List.map_congr_left fun name hname => (hdot name hname).symm, List.map_id']

section Listing

variable {env} (hunescape : Unescapes env) {url : Text}

include hunescape

/-- A valid `response` leads to one call. -/
theorem fillCall_describes (o : Opts) {n : Node} {item : Item} (hd : Describes url n item)
    (hname : ∀ name, item = .member name → MemberName name) (s : σ) :
    ∃ st s', fillCall env o url n s = some (reported url item, st) ∧
      goesOn env url n s = some s' := by
  obtain ⟨tail, hhref, hnul, hentry⟩ := describes_tail hd hname
  obtain ⟨prop, hprop⟩ := Option.isSome_iff_exists.mp hd.2.1
  have hsafe : (decodeStat o (xmlParserTimeNode (env.strptime · · s)) prop).isSome :=
    (decodeStat_isSome o _ prop).mpr (hd.1.entries prop hprop)
  obtain ⟨st, hst⟩ := Option.isSome_iff_exists.mp hsafe
  have hprefix : url.isPrefixOf (url ++ tail) = true := by simp
  have hrun := hunescape tail s hnul
  refine ⟨st, (env.unescape tail s).2, ?_, ?_⟩
  · rw [fillCall_of_some env o url s hprop hhref, hprefix, if_pos rfl, List.drop_left, hrun, hst,
      ← hentry]
    rfl
  · rw [goesOn_of_some env url s hprop hhref, hprefix, if_pos rfl, List.drop_left]
    rcases hu : env.unescape tail s with ⟨_ | name, s'⟩
    · rw [hu] at hrun
      exact nomatch hrun
    · rfl

/-- The calls of a listing. -/
theorem fillCalls_listing (o : Opts) {ns : List Node} {items : List Item}
    (hlist : List.Forall₂ (Describes url) (ns.filter (·.name = "response".toList)) items)
    (hnames : ∀ name, Item.member name ∈ items → MemberName name) (s : σ) :
    ResponsesSafe env url ns s ∧ ∃ calls, fillCalls env o url ns s = some calls ∧
      calls.map Prod.fst = items.map (reported url) := by
  induction ns generalizing items s with
  | nil =>
    cases hlist
    exact ⟨trivial, [], rfl, rfl⟩
  | cons n ns ih =>
    unfold ResponsesSafe fillCalls
    by_cases hname : n.name = "response".toList
    · rw [List.filter_cons, if_pos (decide_eq_true hname)] at hlist
      cases hlist with
      | cons hd hrest =>
        rename_i item items
        obtain ⟨st, s', hcall, hgoes⟩ := fillCall_describes hunescape o hd
          (fun name hitem => hnames name (hitem ▸ List.mem_cons_self)) s
        obtain ⟨hsafe, calls, hcalls, hmap⟩ := ih hrest
          (fun name hmem => hnames name (List.mem_cons_of_mem _ hmem)) s'
        rw [if_pos hname, if_pos hname, hgoes, Option.bind_some, hcalls, hcall]
        refine ⟨⟨hd.1, fun s'' hs'' => ?_⟩, _, rfl, ?_⟩
        · rw [← Option.some.inj hs'']
          exact hsafe
        · show _ :: calls.map Prod.fst = _
          rw [hmap]
          rfl
    · rw [List.filter_cons, if_neg (by rwa [decide_eq_true_iff])] at hlist
      rw [if_neg hname, if_neg hname]
      exact ih hlist hnames s

/-- `dav_propfind` on a listing of a collection calls `filler` once with `.` and once with
    the name of each member, exactly when the effective URL ends with a slash or there is
    no member that `.` would not be right for. -/
theorem readdir_lists_iff {path : Path} {names : List Text} {t : Thread (Mem σ)}
    (h : t.ex.has = false) {reply : Reply} {s : σ} {root : Node}
    (hr : propfindReceived env srv path 1 t.mem.env = some (reply, s)) (hstatus : reply.status = 207)
    (hxml : reply.xml = some (.document root))
    (hlist : ListsCollection reply.effectiveUrl names root.children)
    (hnames : ∀ name ∈ names, MemberName name) :
    ListsMembers env srv path names t ↔
      reply.effectiveUrl.getLast? = some '/' ∨ ∀ name ∈ names, name = ".".toList := by
  obtain ⟨items, hperm, hdescribes⟩ := hlist
  have hitems : ∀ name, Item.member name ∈ items → MemberName name := by
    intro name hmem
    have hmem' := hperm.subset hmem
    simp only [List.mem_cons, reduceCtorEq, List.mem_map, Item.member.injEq, exists_eq_right,
      false_or] at hmem'
    exact hnames name hmem'
  obtain ⟨hsafe, calls, hcalls, hreported⟩ :=
    fillCalls_listing hunescape srv.options hdescribes hitems s
  obtain ⟨t₀, hex, henv, hsame, hreturns, -⟩ := davPropfind_received (ρ := Unit) env srv
    readdirFiller h hr
  obtain ⟨t', hrun, hcase⟩ := propfindResponses_calls (ρ := Unit) env srv records_readdirFiller
    reply.effectiveUrl root.children hex (by rw [henv]; exact hsafe)
  rw [henv, hcalls] at hcase
  obtain ⟨v, hv⟩ := hreturns t' (.inl ((propfindReply_document env srv hstatus hxml _ t₀).trans hrun))
  have hentries : t'.mem.entries = t.mem.entries ++ calls.map fun call => (call.1, some call.2) := by
    rw [hcase.2, foldl_entries, hsame.1]
  have hnames' : (calls.map Prod.fst).Perm
      (".".toList :: names.map fun name => reported reply.effectiveUrl (.member name)) := by
    rw [hreported]
    refine (hperm.map (reported reply.effectiveUrl)).trans ?_
    rw [List.map_cons, List.map_map]
    exact .rfl
  rw [← reported_perm_iff]
  constructor
  · rintro ⟨v', t'', entries, hrun', hentries', hlisted⟩
    rw [hv] at hrun'
    rw [← (Prod.mk.inj hrun').2, hentries, List.append_cancel_left_eq] at hentries'
    rw [← hentries', List.map_map] at hlisted
    exact (List.perm_cons _).mp (hnames'.symm.trans hlisted)
  · intro hsame'
    refine ⟨v, t', _, hv, hentries, ?_⟩
    rw [List.map_map]
    exact hnames'.trans (hsame'.cons _)

end Listing

/-- An outside that unescapes, where every request gets the same reply. -/
def unescaping (reply : Reply) : Env Unit :=
  { answering reply with unescape := fun text s => (some (percentDecode text), s) }

/-- The listing of a collection with one member, `a b`, which is a collection itself. -/
def oneMember (url : String) : Reply :=
  multistatus url [okResponse "http://h/d/a%20b/", okResponse "http://h/d/"]

theorem okResponse_safe (href : String) : ResponseSafe (okResponse href) := by
  have hstats : propstats (okResponse href) = [davNode "propstat" [davNode "prop" [],
    davNode "status" [textNode "HTTP/1.1 200 OK"]]] := rfl
  have hprop : okProp (okResponse href) = some (davNode "prop" []) := rfl
  refine ⟨fun p hp => ?_, fun prop hsome entry he => ?_, fun _ => rfl⟩
  · rw [hstats] at hp
    rw [List.mem_singleton.mp hp]
    rfl
  · rw [← Option.some.inj (hprop.symm.trans hsome)] at he
    exact absurd he List.not_mem_nil

/-- The listing, with or without the slash at the end of the effective URL. -/
theorem listsCollection_oneMember {url : String} (h : url = "http://h/d" ∨ url = "http://h/d/") :
    ListsCollection url.toList ["a b".toList]
      [okResponse "http://h/d/a%20b/", okResponse "http://h/d/"] := by
  have hslash : withSlash url.toList = "http://h/d/".toList := by
    rcases h with rfl | rfl <;> decide
  have hencodes : Encodes "a b".toList "a%20b".toList :=
    .literal (by decide) (.escape rfl (.literal (by decide) .nil))
  refine ⟨[.member "a b".toList, .self], .swap _ _ _, .cons ?_ (.cons ?_ .nil)⟩
  · refine ⟨okResponse_safe _, rfl, _, rfl, "a%20b".toList, ['/'], hencodes, .inr rfl, ?_⟩
    rw [hslash]
    rfl
  · refine ⟨okResponse_safe _, rfl, _, rfl, .inr ?_⟩
    rw [hslash]

theorem readdir_lists_oneMember :
    ListsMembers (unescaping (oneMember "http://h/d/")) lockingServer [47, 100] ["a b".toList]
      (idle ()) := by
  have hunescape : Unescapes (unescaping (oneMember "http://h/d/")) := fun _ _ _ => rfl
  have hnames : ∀ name ∈ ["a b".toList], MemberName name := by
    intro name hname
    rw [List.mem_singleton.mp hname]
    exact ⟨by decide, by decide, by decide⟩
  exact (readdir_lists_iff lockingServer hunescape rfl rfl rfl rfl
    (listsCollection_oneMember (.inr rfl)) hnames).mpr (.inl (by decide))

/-- Without the slash at the end of the effective URL the member is reported as `.`. -/
theorem readdir_reports_dot : ListsCollection "http://h/d".toList ["a b".toList]
      [okResponse "http://h/d/a%20b/", okResponse "http://h/d/"] ∧
    ¬ListsMembers (unescaping (oneMember "http://h/d")) lockingServer [47, 100] ["a b".toList]
      (idle ()) := by
  refine ⟨listsCollection_oneMember (.inl rfl), ?_⟩
  rintro ⟨v, t', entries, hrun, hentries, hperm⟩
  have hnames : entries.map Prod.fst = [".".toList, ".".toList] := by
    have hempty : (idle ()).mem.entries ++ entries = entries := rfl
    rw [← hempty, ← hentries, ← (Prod.mk.inj hrun).2]
    rfl
  rw [hnames] at hperm
  exact absurd hperm (by decide)

end NetworkFs.Dav
