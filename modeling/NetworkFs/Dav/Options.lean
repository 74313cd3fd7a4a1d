import NetworkFs.Dav.Frame
import NetworkFs.Dav.HeaderLines
import NetworkFs.Dav.Steps

/-!
# `dav_options`

The client asks once which methods the server has (`proto/dav/method.c` lines 742–802). The
flags of `struct DavServer` are kept next to the outside.

* `deliver_options`: the flags after the header lines of the reply.
* `davOptions_supports`: after `dav_options` a flag says whether the name of its method stands
  between delimiters in some `Allow` line, and `LOCK` and `UNLOCK` are set together.
-/

namespace NetworkFs.Dav

open Control Grammar Wrapper Text Memory

variable {σ ρ α γ : Type}

/-! ## The model -/

/-- A question to the outside, next to something else. -/
def onFst (f : σ → α × σ) : σ × γ → α × (σ × γ) := fun s => ((f s.1).1, ((f s.1).2, s.2))

/-- The outside, next to something it does not see. -/
def Env.beside (env : Env σ) (γ : Type) : Env (σ × γ) where
  alloc a := onFst (env.alloc a)
  urlSet path := onFst (env.urlSet path)
  urlGet := onFst env.urlGet
  setopt option := onFst (env.setopt option)
  perform request := onFst (env.perform request)
  unescape text := onFst (env.unescape text)
  strptime format text s := env.strptime format text s.1
  stackByte s := env.stackByte s.1
  stackStat s := env.stackStat s.1
  stackInt s := env.stackInt s.1

/-- What `dav_options` asks besides. -/
structure Redirects (σ : Type) where
  /-- `server->options->initial_timeout` is set. -/
  initialTimeout : Bool
  /-- `CURLINFO_REDIRECT_URL` after the first request. -/
  redirectUrl : σ → Option Text
  /-- `curl_url_set(server->baseuh, CURLUPART_URL, baseurl, 0)`: a `CURLUcode` on failure. -/
  baseSet : Text → σ → Option ℕ × σ

variable (env : Env σ) (redirects : Redirects σ)

/-- The first request: no body, and no redirect is followed. -/
def probeRequest : Request := ⟨.head, [], [], none, .none⟩

/-- The `OPTIONS` request. -/
def optionsRequest : Request := ⟨.options, [], [], none, .none⟩

/-- `if (server->options->initial_timeout) ...` (lines 745–747). -/
def setInitialTimeout : Dav (σ × DavInfo) ρ Unit :=
  if redirects.initialTimeout then curlEasySetoptOrDie (Env.beside env DavInfo) .timeout
  else pure ()

/-- `curl_url_set_or_die(server->baseuh, CURLUPART_URL, baseurl, 0)`. -/
def setBase (baseurl : Text) : Dav (σ × DavInfo) ρ Unit := do
  match ← outside (onFst (redirects.baseSet baseurl)) with
  | none => pure ()
  | some code => throw (raise (.curlUrl code .set))

/-- A redirect moves the base URL (lines 754–765). -/
def followRedirect (responseCode : ℕ) : Dav (σ × DavInfo) ρ Unit :=
  if responseCode / 100 = 3 then do
    match ← Ctl.gets fun t => redirects.redirectUrl t.mem.env.1 with
    | none => pure ()
    | some baseurl => setBase redirects baseurl
  else pure ()

/-- The header lines go to `__dav_options_callback`. -/
def deliverOptions (lines : List Text) : Dav (σ × DavInfo) ρ Unit := do
  let info ← Ctl.gets (·.mem.env.2)
  match deliver davOptionsCallbackAt lines info with
  | none => Ctl.leave .fault
  | some info => modifyMem fun m => { m with env := (m.env.1, info) }

/-- `curl_easy_perform_or_die(curl)` of the `OPTIONS` request (line 783). -/
def optionsPerform : Dav (σ × DavInfo) ρ Unit := do
  let reply ← curlEasyPerform (Env.beside env DavInfo) optionsRequest
  deliverOptions reply.headers
  performOrDie reply.code reply.status

/-- The body of the `with_curl` of `dav_options` (lines 745–783). -/
def optionsBody : Dav (σ × DavInfo) ρ Unit := do
  setInitialTimeout env redirects
  let probe ← performChecked (Env.beside env DavInfo) probeRequest
  followRedirect redirects probe.status
  let _ ← throwable (setUrl (Env.beside env DavInfo))
  curlEasySetoptOrDie (Env.beside env DavInfo) .customrequest
  optionsPerform env

/-- `if unlikely (server->LOCK != server->UNLOCK) ...` (lines 786–790). -/
def DavInfo.reconcile (info : DavInfo) : DavInfo :=
  if info.supports .lock ≠ info.supports .unlock then
    { info with supports := fun m => if m = .lock ∨ m = .unlock then false else info.supports m }
  else info

/-- `pthread_rwlock_init` and the empty table (lines 792–795). -/
def initTable (options : Opts) : Dav (σ × DavInfo) ρ Unit :=
  if options.useLock then modifyMem fun m => { m with held := [], table := [] } else pure ()

/-- The `try` body of `dav_options` (lines 743–795). -/
def optionsTry (options : Opts) : Dav (σ × DavInfo) ρ Unit := do
  let _ ← throwable (withCurl (Env.beside env DavInfo) options [] (optionsBody env redirects))
  modifyMem fun m => { m with env := (m.env.1, m.env.2.reconcile) }
  initTable options

/-- `dav_options(server)` (lines 742–799). -/
def davOptions (options : Opts) : Dav (σ × DavInfo) ρ ℤ := do
  let _ ← tryCatch (optionsTry env redirects options) [onerror (pure ())]
  testSuccess

/-! ## The lines of the reply -/

/-- A line with a carriage return before its line feed. -/
def CrlfLine (line : Text) : Prop := ∃ front, line = front ++ ['\r', '\n']

/-- A value without the white space around it. -/
def strstrip (s : Text) : Text := strlstrip (strrstrip s)

section Crlf

variable {line name : Text} (hcrlf : CrlfLine line) (hname : name <+: line)

include hcrlf

theorem CrlfLine.delivered : Delivered line := by
  obtain ⟨front, rfl⟩ := hcrlf
  rw [Delivered, List.getLast?_append]
  rfl

include hname

/-- Both characters stand behind the name. -/
theorem CrlfLine.length_name (hreturn : '\r' ∉ name) : name.length + 2 ≤ line.length := by
  obtain ⟨front, rfl⟩ := hcrlf
  rw [List.length_append]
  show name.length + 2 ≤ front.length + 2
  by_contra hshort
  have hfront : front <+: name :=
    List.prefix_of_prefix_length_le (List.prefix_append _ _) hname (by omega)
  obtain ⟨rest, rfl⟩ := hfront
  rw [List.prefix_append_right_inj] at hname
  rcases rest with _ | ⟨c, rest⟩
  · simp at hshort
  · obtain ⟨rfl, -⟩ := List.cons_prefix_cons.mp hname
    exact hreturn (by simp)

/-- The value without the white space around it. -/
theorem CrlfLine.optionValue (hcolon : name.getLast? = some ':')
    (hnul : nul ∉ line) : optionValue name line = strstrip (line.drop name.length) := by
  obtain ⟨front, hfront⟩ := hcrlf
  obtain ⟨value, hvalue⟩ := hname
  have htake : line.take (line.length - 2) = front := by
    rw [hfront, List.length_append]
    exact List.take_left
  have hstrip : front.rdropWhile isSpace = name ++ value.rdropWhile isSpace := by
    rw [← rdropWhile_append (colon_not_blank hcolon), hvalue, hfront,
      show front ++ ['\r', '\n'] = front ++ ['\r'] ++ ['\n'] by simp,
      List.rdropWhile_concat_pos _ _ _ (by decide), List.rdropWhile_concat_pos _ _ _ (by decide)]
  have hdrop : line.drop name.length = value := by
    rw [← hvalue, List.drop_left]
  have hfree : nul ∉ value.rdropWhile isSpace := by
    intro hmem
    refine hnul (hvalue ▸ List.mem_append_right _ ?_)
    exact (List.rdropWhile_prefix isSpace value).subset hmem
  rw [Dav.optionValue, lineValue, htake, hstrip, List.drop_left, hdrop, strstrip]
  congr 1
  refine List.takeWhile_eq_self_iff.mpr fun c hc => ?_
  have hne : c ≠ nul := fun heq => hfree (heq ▸ hc)
  simpa using hne

end Crlf

/-- A line as the reply may have it: it ends with CRLF, has no NUL, and has a `/` if it is a
    `Server` line. -/
structure OptionsReplyLine (line : Text) : Prop where
  crlf : CrlfLine line
  nul : nul ∉ line
  slash : serverName <+: line → '/' ∈ line

theorem OptionsReplyLine.optionsLine {line : Text} (h : OptionsReplyLine line) :
    OptionsLine line := by
  refine ⟨fun hname => h.crlf.length_name hname (by decide), fun hname => ?_⟩
  rw [h.crlf.optionValue hname rfl h.nul]
  have hmem : '/' ∈ line.drop serverName.length := by
    obtain ⟨value, rfl⟩ := hname
    rw [List.drop_left]
    exact (List.mem_append.mp (h.slash (List.prefix_append _ _))).resolve_left (by decide)
  exact mem_strlstrip (mem_strrstrip hmem (by decide)) (by decide)

/-- The name of `m` is a maximal run between delimiters in the value of an `Allow` line. -/
def Allowed (lines : List Text) (m : DavMethod) : Prop :=
  ∃ line ∈ lines, allowName <+: line ∧
    MaximalRun isDelim (strstrip (line.drop allowName.length)) m.name

/-- One line sets the flags of the methods it allows. -/
theorem davOptionsCallback_supports {line : Text} (h : OptionsReplyLine line) (info : DavInfo)
    (m : DavMethod) : (davOptionsCallback info line).supports m = true ↔
      info.supports m = true ∨ Allowed [line] m := by
  have hone : Allowed [line] m ↔ allowName <+: line ∧
      MaximalRun isDelim (strstrip (line.drop allowName.length)) m.name := by
    simp [Allowed]
  rw [hone, davOptionsCallback]
  by_cases hname : allowName <+: line
  · rw [if_pos hname, foldl_allow_supports, Bool.or_eq_true, decide_eq_true_eq, mem_tokens_iff,
      h.crlf.optionValue hname rfl h.nul]
    exact or_congr_right ⟨fun hrun => ⟨hname, hrun⟩, fun hboth => hboth.2⟩
  · rw [if_neg hname]
    have hnone : ¬(allowName <+: line ∧
        MaximalRun isDelim (strstrip (line.drop allowName.length)) m.name) :=
      fun hboth => hname hboth.1
    rw [or_iff_left hnone]
    split_ifs <;> rfl

/-- The flags after all lines. -/
theorem deliver_options {lines : List Text} (h : ∀ line ∈ lines, OptionsReplyLine line) :
    ∀ info : DavInfo, ∃ info', deliver davOptionsCallbackAt lines info = some info' ∧
      ∀ m, info'.supports m = true ↔ info.supports m = true ∨ Allowed lines m := by
  induction lines with
  | nil =>
    intro info
    exact ⟨info, rfl, fun m => by simp [Allowed]⟩
  | cons line lines ih =>
    intro info
    have hline := h line List.mem_cons_self
    obtain ⟨cells, hrun⟩ := davOptionsCallbackAt_apply (ρ := Unit) hline.crlf.delivered info
      hline.optionsLine
    obtain ⟨info', hdeliver, hflags⟩ :=
      ih (fun other hother => h other (List.mem_cons_of_mem _ hother)) (davOptionsCallback info line)
    refine ⟨info', ?_, fun m => ?_⟩
    · rw [deliver_cons ⟨_, _, hrun⟩]
      exact hdeliver
    · rw [hflags, davOptionsCallback_supports hline, or_assoc]
      simp [Allowed]

/-! ## The run -/

/-- The flags stay as they are. -/
def SameInfo (t t' : Thread (Mem (σ × DavInfo))) : Prop := t'.mem.env.2 = t.mem.env.2

instance : HeldFrame (SameInfo (σ := σ)) where
  refl _ := rfl
  trans _ _ _ h h' := h'.trans h
  raise _ _ := rfl
  clear _ := rfl
  mem _ _ _ henv := congrArg Prod.snd henv
  held _ _ henv := congrArg Prod.snd henv

instance : Outside (Env.beside env DavInfo) SameInfo where
  alloc _ _ := rfl
  urlSet _ _ := rfl
  urlGet _ := rfl
  setopt _ _ := rfl
  unescape _ _ := rfl

instance (method : Method) : Sends (Env.beside env DavInfo) SameInfo method where
  perform _ _ _ := rfl

/-- No exception is pending, and the flags are `info`. -/
def Holding (info : DavInfo) (t : Thread (Mem (σ × DavInfo))) : Prop :=
  t.ex.has = false ∧ t.mem.env.2 = info

section Run

variable {env redirects} {info : DavInfo}

theorem Holding.after {m : Dav (σ × DavInfo) ρ α} {A : Exit ρ → Prop} (hm : Ctl.Within SameInfo A m)
    {t t' : Thread (Mem (σ × DavInfo))} {r : Except (Exit ρ) α} (h : Holding info t)
    (hrun : m t = (r, t')) (hex : t'.ex.has = false) : Holding info t' := by
  have hsame := (hm t).1
  rw [hrun] at hsame
  exact ⟨hex, hsame.trans h.2⟩

/-- A step that can fail and does not look at the flags. -/
theorem throws_of_breaks {m : Dav (σ × DavInfo) ρ α} {a : α} {p : Attempt (σ × DavInfo)}
    {A : Exit ρ → Prop} (hm : Breaks m a p) (hframe : Ctl.Within SameInfo A m) :
    Throws (Holding info) m fun _ => Holding info := by
  intro t ht
  cases hp : (p t.mem.env).1 with
  | true =>
    have hrun := (hm t ht.1).1 hp
    exact .inl ⟨a, _, hrun, ht.1, ht.after hframe hrun ht.1⟩
  | false =>
    obtain ⟨e, hrun⟩ := (hm t ht.1).2 hp
    exact .inr ⟨_, hrun, rfl⟩

theorem ends_of_raises {m : Dav (σ × DavInfo) ρ α} {a : α} {p : Attempt (σ × DavInfo)}
    {A : Exit ρ → Prop} (hm : Raises m a p) (hframe : Ctl.Within SameInfo A m) :
    Ends (Holding info) m fun _ => Holding info := by
  intro t ht
  cases hp : (p t.mem.env).1 with
  | true =>
    have hrun := (hm t ht.1).1 hp
    exact ⟨a, _, hrun, ht.after hframe hrun⟩
  | false =>
    obtain ⟨a', e, hrun⟩ := (hm t ht.1).2 hp
    exact ⟨a', _, hrun, ht.after hframe hrun⟩

/-- The first part of the body leaves the flags alone. -/
theorem throws_setInitialTimeout : Throws (Holding info)
    (setInitialTimeout env redirects : Dav (σ × DavInfo) ρ Unit) fun _ => Holding info := by
  unfold setInitialTimeout
  split_ifs
  · exact throws_of_breaks (breaks_curlEasySetoptOrDie _ _)
      (within_curlEasySetoptOrDie (A := fun e => e = .brk) _ _)
  · intro t ht
    exact .inl ⟨(), t, rfl, ht.1, ht⟩

theorem throws_performChecked (request : Request) : Throws (Holding info)
    (performChecked (Env.beside env DavInfo) request : Dav (σ × DavInfo) ρ Reply)
    fun _ => Holding info := by
  intro t ht
  by_cases hcode : ((Env.beside env DavInfo).perform request t.mem.env).1.code = .ok
  · exact .inl ⟨_, _, performChecked_ok _ hcode, ht.1, ht⟩
  · exact .inr ⟨_, performChecked_error _ hcode, rfl⟩

theorem throws_followRedirect (responseCode : ℕ) : Throws (Holding info)
    (followRedirect redirects responseCode : Dav (σ × DavInfo) ρ Unit) fun _ => Holding info := by
  intro t ht
  unfold followRedirect
  split_ifs
  · rw [Ctl.bind_ok (Ctl.gets_apply _ _)]
    rcases redirects.redirectUrl t.mem.env.1 with _ | baseurl
    · exact .inl ⟨(), t, rfl, ht.1, ht⟩
    · rcases hcode : (redirects.baseSet baseurl t.mem.env.1).1 with _ | code
      · refine .inl ⟨(), atEnv t ((redirects.baseSet baseurl t.mem.env.1).2, t.mem.env.2), ?_, ht.1, ht⟩
        simp [setBase, Ctl.bind_apply, onFst, hcode]
      · refine .inr ⟨raised (atEnv t ((redirects.baseSet baseurl t.mem.env.1).2, t.mem.env.2))
          (.curlUrl code .set), ?_, rfl⟩
        simp [setBase, Ctl.bind_apply, onFst, hcode, raised]
  · exact .inl ⟨(), t, rfl, ht.1, ht⟩

theorem ends_setUrl : Ends (Holding info)
    (setUrl (Env.beside env DavInfo) : Dav (σ × DavInfo) ρ (Option Unit)) fun _ => Holding info :=
  ends_of_raises
    ((breaks_curlUrlGetOrDie _).withSeperated (breaks_curlEasySetoptOrDie _ .url))
    (within_withSeperated (A := fun e => e = .brk) (within_curlUrlGetOrDie _) (fun _ => .pure ())
      fun _ => within_curlEasySetoptOrDie _ _)

/-- `LOCK` and `UNLOCK` are set together. -/
theorem reconcile_supports (info : DavInfo) (m : DavMethod) :
    info.reconcile.supports m = true ↔ info.supports m = true ∧
      (m = .lock ∨ m = .unlock → info.supports .lock = true ∧ info.supports .unlock = true) := by
  rw [DavInfo.reconcile]
  split_ifs with hdiffer
  · show (if m = .lock ∨ m = .unlock then false else info.supports m) = true ↔ _
    split_ifs with hm
    · refine ⟨fun h => (nomatch h), fun h => absurd ?_ hdiffer⟩
      rw [(h.2 hm).1, (h.2 hm).2]
    · exact ⟨fun h => ⟨h, fun hlock => absurd hlock hm⟩, fun h => h.1⟩
  · refine ⟨fun h => ⟨h, fun hm => ?_⟩, fun h => h.1⟩
    have hsame : info.supports .lock = info.supports .unlock := not_not.mp hdiffer
    rcases hm with rfl | rfl
    · exact ⟨h, hsame ▸ h⟩
    · exact ⟨hsame.trans h, h⟩

/-- With an exception pending it does what `curl_easy_init_common` does. -/
theorem davOptions_pending (options : Opts) {t : Thread (Mem (σ × DavInfo))} (ht : t.ex.has = true) :
    (davOptions env redirects options : Dav (σ × DavInfo) ρ ℤ) t =
      (.ok 1, initPending (Env.beside env DavInfo) t) := by
  have hex := initPending_has (Env.beside env DavInfo) ht
  have htry : (optionsTry env redirects options : Dav (σ × DavInfo) ρ Unit) t =
      (.error .brk, initPending (Env.beside env DavInfo) t) := by
    rw [optionsTry, Ctl.bind_error (throwable_pending (withCurl_skipped _ _ ht) hex)]
  have hcaught : tryCatch (optionsTry env redirects options : Dav (σ × DavInfo) ρ Unit)
      [onerror (pure ())] t = (.ok none, initPending (Env.beside env DavInfo) t) :=
    tryCatch_onerror htry hex rfl
  rw [davOptions, Ctl.bind_ok hcaught, testSuccess_apply, if_pos hex]

/-- The flags of `lines`, over `info`. -/
def Flags (lines : List Text) (info : DavInfo) (t : Thread (Mem (σ × DavInfo))) : Prop :=
  ∀ m, t.mem.env.2.supports m = true ↔ info.supports m = true ∨ Allowed lines m

section Lines

variable {lines : List Text} (hlines : ∀ line ∈ lines, OptionsReplyLine line)
  (hreply : ∀ s, (env.perform optionsRequest s).1.headers = lines)

include hlines hreply

theorem throws_optionsPerform : Throws (Holding info)
    (optionsPerform env : Dav (σ × DavInfo) ρ Unit) fun _ => Flags lines info := by
  intro t ht
  obtain ⟨info', hdeliver, hflags⟩ := deliver_options hlines info
  obtain ⟨reply, hperform⟩ : ∃ reply, reply = (env.perform optionsRequest t.mem.env.1).1 := ⟨_, rfl⟩
  obtain ⟨t₁, ht₁, hinfo⟩ : ∃ t₁ : Thread (Mem (σ × DavInfo)),
      (curlEasyPerform (Env.beside env DavInfo) optionsRequest : Dav (σ × DavInfo) ρ Reply) t =
        (.ok reply, t₁) ∧ Holding info t₁ := by
    refine ⟨logged optionsRequest (atEnv t ((env.perform optionsRequest t.mem.env.1).2, t.mem.env.2)),
      ?_, ht⟩
    rw [hperform]
    rfl
  obtain ⟨t₂, ht₂, hex, hinfo₂⟩ : ∃ t₂ : Thread (Mem (σ × DavInfo)),
      (deliverOptions reply.headers : Dav (σ × DavInfo) ρ Unit) t₁ = (.ok (), t₂) ∧
        t₂.ex.has = false ∧ t₂.mem.env.2 = info' := by
    refine ⟨atEnv t₁ (t₁.mem.env.1, info'), ?_, hinfo.1, rfl⟩
    rw [hperform, hreply, deliverOptions, Ctl.bind_ok (Ctl.gets_apply _ _), hinfo.2, hdeliver]
    rfl
  rw [optionsPerform, Ctl.bind_ok ht₁, Ctl.bind_ok ht₂]
  by_cases hcode : reply.code = .ok
  · refine .inl ⟨(), t₂, ?_, hex, ?_⟩
    · simp [performOrDie, hcode]
    · intro m
      rw [hinfo₂]
      exact hflags m
  · refine .inr ⟨raised t₂ (.curl reply.code reply.status .perform), ?_, rfl⟩
    have hfalse : (reply.code == .ok) = false := by simpa using hcode
    simp [performOrDie, hfalse, raised]

theorem throws_optionsBody : Throws (Holding info)
    (optionsBody env redirects : Dav (σ × DavInfo) ρ Unit) fun _ => Flags lines info := by
  refine throws_setInitialTimeout.seq fun _ => ?_
  refine (throws_performChecked _).seq fun probe => ?_
  refine (throws_followRedirect _).seq fun _ => ?_
  refine ends_setUrl.throwable.seq fun _ => ?_
  refine (throws_of_breaks (breaks_curlEasySetoptOrDie _ _)
    (within_curlEasySetoptOrDie (A := fun e => e = .brk) _ _)).seq fun _ => ?_
  exact throws_optionsPerform hlines hreply

/-- The flags of `lines`, after `LOCK` and `UNLOCK` were compared. -/
def Reconciled (lines : List Text) (t : Thread (Mem (σ × DavInfo))) : Prop :=
  ∀ m, t.mem.env.2.supports m = true ↔ Allowed lines m ∧
    (m = .lock ∨ m = .unlock → Allowed lines .lock ∧ Allowed lines .unlock)

theorem throws_optionsTry (options : Opts) (hnone : ∀ m, info.supports m = false) :
    Throws (Holding info) (optionsTry env redirects options : Dav (σ × DavInfo) ρ Unit)
      fun _ => Reconciled lines := by
  have hinit : Ends (Holding info)
      (curlEasyInitCommon (Env.beside env DavInfo) options [] : Dav (σ × DavInfo) ρ Unit)
      fun _ => Holding info :=
    ends_of_raises (raises_curlEasyInitCommon _ _ _)
      (within_curlEasyInitCommon (A := fun e => e = .brk) _ _ _)
  have hbody : Throws (Holding info) (optionsBody env redirects : Dav (σ × DavInfo) ρ Unit)
      fun _ => Flags lines info := throws_optionsBody hlines hreply
  have hcurl := Throws.withSeperated hinit fun _ t ht => hbody t ht.2
  refine hcurl.throwable.bind fun r => ?_
  rintro t ⟨hex, -, -, hflags⟩
  have hreconciled : ∀ m, t.mem.env.2.reconcile.supports m = true ↔ Allowed lines m ∧
      (m = .lock ∨ m = .unlock → Allowed lines .lock ∧ Allowed lines .unlock) := by
    have hallowed : ∀ m, t.mem.env.2.supports m = true ↔ Allowed lines m := fun m => by
      rw [hflags m, hnone m]
      simp
    intro m
    rw [reconcile_supports, hallowed, hallowed, hallowed]
  cases huse : options.useLock with
  | true =>
    refine .inl ⟨(), ⟨t.ex, { t.mem with env := (t.mem.env.1, t.mem.env.2.reconcile), held := [],
                                         table := [] }⟩, ?_, hex, hreconciled⟩
    rw [initTable, if_pos huse]
    rfl
  | false =>
    refine .inl ⟨(), atEnv t (t.mem.env.1, t.mem.env.2.reconcile), ?_, hex, hreconciled⟩
    rw [initTable, if_neg (by simp [huse])]
    rfl

variable (redirects) in
/-- After `dav_options` succeeded, the flags are those of the `Allow` lines. -/
theorem davOptions_supports (options : Opts) (t : Thread (Mem (σ × DavInfo)))
    (hnone : ∀ m, t.mem.env.2.supports m = false) :
    ∃ v t', (davOptions env redirects options : Dav (σ × DavInfo) ρ ℤ) t = (.ok v, t') ∧
      (v = 0 →
        (∀ m, m ≠ .lock → m ≠ .unlock → (t'.mem.env.2.supports m = true ↔ Allowed lines m)) ∧
        (t'.mem.env.2.supports .lock = true ↔ Allowed lines .lock ∧ Allowed lines .unlock) ∧
        (t'.mem.env.2.supports .unlock = true ↔ Allowed lines .lock ∧ Allowed lines .unlock)) := by
  cases hex : t.ex.has with
  | true =>
    obtain ⟨t', hrun⟩ : ∃ t', (davOptions env redirects options : Dav (σ × DavInfo) ρ ℤ) t =
        (.ok 1, t') := ⟨_, davOptions_pending options hex⟩
    exact ⟨1, t', hrun, fun hzero => absurd hzero (by decide)⟩
  | false =>
    have htry : Throws (Holding t.mem.env.2)
        (optionsTry env redirects options : Dav (σ × DavInfo) ρ Unit) fun _ => Reconciled lines :=
      throws_optionsTry hlines hreply options hnone
    obtain ⟨r, t', hrun, hflags⟩ := htry.tryOnerror t ⟨hex, rfl⟩
    refine ⟨if t'.ex.has then 1 else 0, t', ?_, fun hzero => ?_⟩
    · rw [davOptions, Ctl.bind_ok hrun]
      exact testSuccess_apply t'
    · have hclean : t'.ex.has = false := by
        cases h : t'.ex.has with
        | false => rfl
        | true =>
          rw [h] at hzero
          exact absurd hzero (by decide)
      obtain ⟨-, -, hreconciled⟩ := hflags hclean
      refine ⟨fun m hlock hunlock => ?_, ?_, ?_⟩
      · rw [hreconciled m]
        exact and_iff_left fun hm => absurd hm (not_or.mpr ⟨hlock, hunlock⟩)
      · rw [hreconciled .lock]
        exact ⟨fun h => h.2 (.inl rfl), fun h => ⟨h.1, fun _ => h⟩⟩
      · rw [hreconciled .unlock]
        exact ⟨fun h => h.2 (.inr rfl), fun h => ⟨h.2, fun _ => h⟩⟩

end Lines

end Run

/-- A server that redirects nothing. -/
def noRedirects : Redirects Unit := ⟨false, fun _ => none, fun _ s => (none, s)⟩

/-- A server with `GET` and with `LOCK` alone of the two. -/
def allowReply : Reply :=
  { plainReply 200 with headers := ["Server: a/1\r\n".toList, "Allow: GET,LOCK\r\n".toList] }

theorem davOptions_supports_get : ∃ t',
    (davOptions (answering allowReply) noRedirects lockingOpts : Dav (Unit × DavInfo) ℤ ℤ)
      (idle ((), noInfo)) = (.ok 0, t') ∧
    t'.mem.env.2.supports .get = true ∧ t'.mem.env.2.supports .lock = false := by
  have hlines : ∀ line ∈ allowReply.headers, OptionsReplyLine line := by
    intro line hline
    rcases List.mem_pair.mp hline with rfl | rfl
    · exact ⟨⟨"Server: a/1".toList, rfl⟩, by decide, fun _ => by decide⟩
    · exact ⟨⟨"Allow: GET,LOCK".toList, rfl⟩, by decide, fun hname => absurd hname (by decide)⟩
  have hreply : ∀ s, ((answering allowReply).perform optionsRequest s).1.headers =
      allowReply.headers := fun _ => rfl
  obtain ⟨v, t', hrun, hflags⟩ := davOptions_supports (ρ := ℤ) noRedirects hlines hreply lockingOpts
    (idle ((), noInfo)) (fun _ => rfl)
  have hzero : v = 0 := by
    have hresult : ((davOptions (answering allowReply) noRedirects lockingOpts :
        Dav (Unit × DavInfo) ℤ ℤ) (idle ((), noInfo))).1 = .ok 0 := rfl
    rw [hrun] at hresult
    exact Except.ok.inj hresult
  subst hzero
  obtain ⟨hother, hlock, -⟩ := hflags rfl
  refine ⟨t', hrun, (hother .get (by decide) (by decide)).mpr ?_, ?_⟩
  · exact ⟨"Allow: GET,LOCK\r\n".toList, by decide, by decide, mem_tokens_iff.mp (by decide +kernel)⟩
  · rw [← Bool.not_eq_true, hlock]
    rintro ⟨-, line, hline, hname, hrun⟩
    rcases List.mem_pair.mp hline with rfl | rfl
    · exact absurd hname (by decide)
    · exact absurd (mem_tokens_iff.mpr hrun) (by decide +kernel)

end NetworkFs.Dav
