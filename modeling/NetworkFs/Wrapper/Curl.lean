import NetworkFs.World

/-!
# The libcurl wrapper

Models of `common/wrapper/curl.h` and of `curl_easy_init_common`
(`common/wrapper/curl.c` lines 260–367). The options a handle collects are not
kept in the handle: the method that sets them builds the `Request` it performs.
The pool of idle handles is outside: taking a handle from it or creating one is
`Alloc.handle`.

* `Breaks m a p`, `Raises m a p`: the two shapes of a step that can fail, and how
  they compose through `throwable`, `with` and `try`.
* `raises_curlEasyInitCommon`: `curl_easy_init_common` is of the second shape, for
  an attempt written out in order.
-/

namespace NetworkFs.Wrapper

open Control Grammar

variable {σ ρ α : Type} (env : Env σ)

/-! ## Models -/

/-- `curl_easy_setopt_or_die(handle, option, parameter)`. -/
def curlEasySetoptOrDie (option : CurlOption) : Dav σ ρ Unit := do
  match ← outside (env.setopt option) with
  | none => pure ()
  | some code => throw (raise (.curl (.other code) 0 .setopt))

/-- `curl_easy_perform(handle)`. -/
def curlEasyPerform (request : Request) : Dav σ ρ Reply := do
  modifyMem fun m => { m with sent := m.sent ++ [request] }
  outside (env.perform request)

/-- The second half of `curl_easy_perform_or_die`: `condition_throw(code ==
    CURLE_OK) CurlException(code, CURL_PERFORM, handle)`. -/
def performOrDie (code : CurlCode) (status : ℕ) : Dav σ ρ Unit :=
  conditionThrow (code == .ok) (raise (.curl code status .perform))

/-- `curl_slist_append_weak(list, string)`. -/
def curlSlistAppendWeak (list : List Header) (line : Header) : Dav σ ρ (List Header) := do
  if ← outside (env.alloc .slist) then pure (list ++ [line]) else pure list

/-- `curl_slist_append_e(list, string)`. -/
def curlSlistAppendE (list : List Header) (line : Header) : Dav σ ρ (List Header) := do
  if ← outside (env.alloc .slist) then pure (list ++ [line]) else do
    raise (.curl .ok 0 .slistAppend)
    pure []

/-- `curl_easy_unescape_e(NULL, url, 0, NULL)`. -/
def curlEasyUnescapeE (url : Text) : Dav σ ρ (Option Text) := do
  match ← outside (env.unescape url) with
  | some s => pure (some s)
  | none => do
    raise (.curl .ok 0 .unescape)
    pure none

/-- `curl_url_dup_e(in)`. -/
def curlUrlDupE : Dav σ ρ Unit := do
  if ← outside (env.alloc .urlDup) then pure () else raise (.curlUrl 0 .dup)

/-- `curl_url_set_or_die(url, CURLUPART_URL, path, CURLU_URLENCODE)`. -/
def curlUrlSetOrDie (path : Path) : Dav σ ρ Unit := do
  match ← outside (env.urlSet path) with
  | none => pure ()
  | some code => throw (raise (.curlUrl code .set))

/-- `curl_url_get_or_die(url, CURLUPART_URL, &s_url, 0)`. -/
def curlUrlGetOrDie : Dav σ ρ Unit := do
  match ← outside env.urlGet with
  | none => pure ()
  | some code => throw (raise (.curlUrl code .get))

/-- `if likely (path[0] == '/') path++`. -/
def dropSlash (path : Path) : Path :=
  match path with
  | 47 :: rest => rest
  | _ => path

/-- `if (b) { ... }` around options. -/
def optionsIf (b : Bool) (os : List CurlOption) : List CurlOption := if b then os else []

/-- The options inside `if (options->proxy)` (lines 307–319). -/
def proxyOptions (o : Opts) : List CurlOption :=
  .proxy :: (optionsIf o.proxytype [.proxytype]).append
    ((optionsIf o.proxyauth [.proxyauth]).append [.proxyuserpwd])

/-- The options inside `if (options->use_ssl)` (lines 321–348). -/
def sslOptions (o : Opts) : List CurlOption :=
  .useSsl :: (optionsIf o.sslVersion [.sslversion]).append
    ((optionsIf o.noVerifyHostname [.sslVerifyhost]).append
    ((optionsIf o.cacert [.cainfo]).append ((optionsIf o.capath [.capath]).append
    ((optionsIf o.ciphers [.sslCipherList]).append
    [.sslcert, .sslcerttype, .sslkey, .sslkeytype, .sslkeypasswd]))))

/-- The options `curl_easy_init_common` sets with `curl_easy_setopt_or_die` after
    the URL (lines 295–357), in order. -/
def commonOptions (o : Opts) : List CurlOption :=
  .username :: .password :: (optionsIf o.interface [.interface]).append
    ((optionsIf o.proxy (proxyOptions o)).append ((optionsIf o.useSsl (sslOptions o)).append
    ((optionsIf o.timeout [.timeout]).append ((optionsIf o.connectTimeout [.connecttimeout]).append
    [.useragent]))))

/-- The options of a list, one after the other. -/
def setOptions : List CurlOption → Dav σ ρ Unit
  | [] => pure ()
  | o :: os => do
    curlEasySetoptOrDie env o
    setOptions os

/-- `if likely (path[0] != '\0') curl_url_set_or_die(...)`: the root is the base
    URL itself. -/
def setPath (path : Path) : Dav σ ρ Unit :=
  if dropSlash path = [] then pure () else curlUrlSetOrDie env (dropSlash path)

/-- The inner `with (curl_char *s_url = NULL, ...)` (lines 288–292). -/
def setUrl : Dav σ ρ (Option Unit) :=
  withSeperated (curlUrlGetOrDie env) (fun _ => pure ()) fun _ => curlEasySetoptOrDie env .url

/-- The `scope (CURLU, clean_url, url)` of `curl_easy_init_common` (lines
    278–293). -/
def initUrl (path : Path) : Dav σ ρ (Option Unit) :=
  withSeperated (curlUrlDupE env) (fun _ => pure ()) fun _ => do
    setPath env path
    let _ ← throwable (setUrl env)

/-- The `try` body of `curl_easy_init_common`. -/
def initBody (options : Opts) (path : Path) : Dav σ ρ Unit := do
  let this ← outside (env.alloc .handle)
  conditionThrow this (raise (.curl .ok 0 .init))
  let _ ← throwable (initUrl env path)
  setOptions env (commonOptions options)

/-- `curl_easy_init_common(url, path, options)`. On an exception the handle is
    destroyed and `NULL` returned; the callers look at the exception only. -/
def curlEasyInitCommon (options : Opts) (path : Path) : Dav σ ρ Unit := do
  let _ ← tryCatch (initBody env options path) [onerror (pure ())]

/-- `with_curl (curl, server->baseuh, path, server->options) body`. -/
def withCurl (options : Opts) (path : Path) (body : Dav σ ρ α) : Dav σ ρ (Option α) :=
  withSeperated (curlEasyInitCommon env options path) (fun _ => pure ()) fun _ => body

/-! ## A step that can fail -/

/-- `t` after the outside moved to `s`. -/
def atEnv (t : Thread (Mem σ)) (s : σ) : Thread (Mem σ) :=
  { t with mem := { t.mem with env := s } }

/-- `t` with the exception `e` raised. -/
def raised (t : Thread (Mem σ)) (e : ExType) : Thread (Mem σ) := { t with ex := .init e }

@[simp] theorem atEnv_ex (t : Thread (Mem σ)) (s : σ) : (atEnv t s).ex = t.ex := rfl

@[simp] theorem atEnv_atEnv (t : Thread (Mem σ)) (s s' : σ) : atEnv (atEnv t s) s' = atEnv t s' :=
  rfl

@[simp] theorem raised_ex (t : Thread (Mem σ)) (e : ExType) : (raised t e).ex = .init e := rfl

@[simp] theorem raised_raised (t : Thread (Mem σ)) (e e' : ExType) :
    raised (raised t e) e' = raised t e' := rfl

@[simp] theorem outside_apply (f : σ → α × σ) (t : Thread (Mem σ)) :
    (outside f : Dav σ ρ α) t = (.ok (f t.mem.env).1, atEnv t (f t.mem.env).2) := rfl

/-- From a state with no exception pending, `m` makes the attempt `p`: if it
    passes, `m` falls through with `a`; if not, `m` raises an exception and
    breaks. It changes nothing else but the outside. -/
def Breaks (m : Dav σ ρ α) (a : α) (p : Attempt σ) : Prop :=
  ∀ t, t.ex.has = false →
    ((p t.mem.env).1 = true → m t = (.ok a, atEnv t (p t.mem.env).2)) ∧
    ((p t.mem.env).1 = false → ∃ e, m t = (.error .brk, raised (atEnv t (p t.mem.env).2) e))

/-- Like `Breaks`, but `m` falls through also when it raised an exception. -/
def Raises (m : Dav σ ρ α) (a : α) (p : Attempt σ) : Prop :=
  ∀ t, t.ex.has = false →
    ((p t.mem.env).1 = true → m t = (.ok a, atEnv t (p t.mem.env).2)) ∧
    ((p t.mem.env).1 = false → ∃ a' e, m t = (.ok a', raised (atEnv t (p t.mem.env).2) e))

/-- Succeeds when libcurl gives no error code. -/
def noError (f : σ → Option ℕ × σ) : Attempt σ := fun s => ((f s).1.isNone, (f s).2)

theorem Breaks.pure (a : α) : Breaks (Pure.pure a : Dav σ ρ α) a .pass :=
  fun _ _ => ⟨fun _ => rfl, fun h => by simp at h⟩

theorem Breaks.bind {β : Type} {m : Dav σ ρ α} {f : α → Dav σ ρ β} {a : α} {b : β}
    {p q : Attempt σ} (hm : Breaks m a p) (hf : Breaks (f a) b q) :
    Breaks (m >>= f) b (p.andThen q) := by
  intro t ht
  cases hp : (p t.mem.env).1 with
  | true =>
    have hmt := (hm t ht).1 hp
    rw [Ctl.bind_ok hmt, Attempt.andThen_of_pass hp]
    exact hf (atEnv t (p t.mem.env).2) ht
  | false =>
    obtain ⟨e, hmt⟩ := (hm t ht).2 hp
    rw [Ctl.bind_error hmt, Attempt.andThen_of_fail hp]
    exact ⟨fun h => absurd h (by simp [hp]), fun _ => ⟨e, rfl⟩⟩

theorem Raises.throwable {m : Dav σ ρ α} {a : α} {p : Attempt σ} (hm : Raises m a p) :
    Breaks (throwable m) a p := by
  intro t ht
  refine ⟨fun hp => throwable_clean ((hm t ht).1 hp) ht, fun hp => ?_⟩
  obtain ⟨a', e, h⟩ := (hm t ht).2 hp
  exact ⟨e, throwable_pending h (by simp)⟩

/-- The body of a `with` that was entered without an exception. -/
theorem Breaks.withBody {β : Type} {init : Dav σ ρ β} {body : β → Dav σ ρ α} {b : β} {a : α}
    {q : Attempt σ} (hbody : Breaks (body b) a q) {t : Thread (Mem σ)} (t₁ : Thread (Mem σ))
    (ht : t₁.ex.has = false) (hinit : init t = (.ok b, t₁)) :
    ((q t₁.mem.env).1 = true → withSeperated init (fun _ => Pure.pure ()) body t =
      (.ok (some a), atEnv t₁ (q t₁.mem.env).2)) ∧
    ((q t₁.mem.env).1 = false → ∃ a' e, withSeperated init (fun _ => Pure.pure ()) body t =
      (.ok a', raised (atEnv t₁ (q t₁.mem.env).2) e)) := by
  have hc : (!t₁.ex.has) = true := by simp [ht]
  refine ⟨fun hq => withTest_ok hinit hc ((hbody t₁ ht).1 hq) rfl, fun hq => ?_⟩
  obtain ⟨e, h⟩ := (hbody t₁ ht).2 hq
  exact ⟨none, e, withTest_brk hinit hc h rfl⟩

/-- A `with` whose initialisation raises without a `break`. -/
theorem Raises.withSeperated {β : Type} {init : Dav σ ρ β} {body : β → Dav σ ρ α} {b : β} {a : α}
    {p q : Attempt σ} (hinit : Raises init b p) (hbody : Breaks (body b) a q) :
    Raises (withSeperated init (fun _ => Pure.pure ()) body) (some a) (p.andThen q) := by
  intro t ht
  cases hp : (p t.mem.env).1 with
  | true =>
    rw [Attempt.andThen_of_pass hp]
    exact hbody.withBody (atEnv t (p t.mem.env).2) ht ((hinit t ht).1 hp)
  | false =>
    obtain ⟨b', e, h⟩ := (hinit t ht).2 hp
    rw [Attempt.andThen_of_fail hp]
    exact ⟨fun h => absurd h (by simp [hp]), fun _ => ⟨none, e, withTest_skip h (by simp) rfl⟩⟩

/-- A `with` whose initialisation breaks when it raises. -/
theorem Breaks.withSeperated {β : Type} {init : Dav σ ρ β} {body : β → Dav σ ρ α} {b : β} {a : α}
    {p q : Attempt σ} (hinit : Breaks init b p) (hbody : Breaks (body b) a q) :
    Raises (withSeperated init (fun _ => Pure.pure ()) body) (some a) (p.andThen q) := by
  intro t ht
  cases hp : (p t.mem.env).1 with
  | true =>
    rw [Attempt.andThen_of_pass hp]
    exact hbody.withBody (atEnv t (p t.mem.env).2) ht ((hinit t ht).1 hp)
  | false =>
    obtain ⟨e, h⟩ := (hinit t ht).2 hp
    rw [Attempt.andThen_of_fail hp]
    exact ⟨fun h => absurd h (by simp [hp]), fun _ => ⟨none, e, withTest_init_brk h⟩⟩

theorem Breaks.tryCatch {m : Dav σ ρ α} {a : α} {p : Attempt σ} (hm : Breaks m a p) :
    Raises (tryCatch m [onerror (Pure.pure ())]) (some a) p := by
  intro t ht
  refine ⟨fun hp => tryCatch_ok ((hm t ht).1 hp) ht, fun hp => ?_⟩
  obtain ⟨e, h⟩ := (hm t ht).2 hp
  exact ⟨none, e, tryCatch_onerror h (by simp) rfl⟩

/-! ## The steps of the wrapper -/

theorem breaks_conditionThrow (p : Attempt σ) (e : ExType) :
    Breaks (outside p >>= fun b => conditionThrow b (raise e) : Dav σ ρ Unit) () p := by
  intro t ht
  refine ⟨fun hp => ?_, fun hp => ⟨e, ?_⟩⟩
  · simp [Ctl.bind_apply, hp]
  · simp [Ctl.bind_apply, hp, raised]

theorem breaks_curlEasySetoptOrDie (option : CurlOption) :
    Breaks (curlEasySetoptOrDie env option : Dav σ ρ Unit) () (noError (env.setopt option)) := by
  intro t ht
  unfold curlEasySetoptOrDie noError
  cases h : (env.setopt option t.mem.env).1 with
  | none => simp [Ctl.bind_apply, h]
  | some code => simp [Ctl.bind_apply, h, raised]

theorem breaks_curlUrlSetOrDie (path : Path) :
    Breaks (curlUrlSetOrDie env path : Dav σ ρ Unit) () (noError (env.urlSet path)) := by
  intro t ht
  unfold curlUrlSetOrDie noError
  cases h : (env.urlSet path t.mem.env).1 with
  | none => simp [Ctl.bind_apply, h]
  | some code => simp [Ctl.bind_apply, h, raised]

theorem breaks_curlUrlGetOrDie :
    Breaks (curlUrlGetOrDie env : Dav σ ρ Unit) () (noError env.urlGet) := by
  intro t ht
  unfold curlUrlGetOrDie noError
  cases h : (env.urlGet t.mem.env).1 with
  | none => simp [Ctl.bind_apply, h]
  | some code => simp [Ctl.bind_apply, h, raised]

theorem raises_curlUrlDupE : Raises (curlUrlDupE env : Dav σ ρ Unit) () (env.alloc .urlDup) := by
  intro t ht
  refine ⟨fun hp => by simp [curlUrlDupE, Ctl.bind_apply, hp], fun hp => ?_⟩
  exact ⟨(), .curlUrl 0 .dup, by simp [curlUrlDupE, Ctl.bind_apply, hp, raised]⟩

theorem raises_curlSlistAppendE (list : List Header) (line : Header) :
    Raises (curlSlistAppendE env list line : Dav σ ρ (List Header)) (list ++ [line])
      (env.alloc .slist) := by
  intro t ht
  refine ⟨fun hp => by simp [curlSlistAppendE, Ctl.bind_apply, hp], fun hp => ?_⟩
  exact ⟨[], .curl .ok 0 .slistAppend, by
    simp [curlSlistAppendE, Ctl.bind_apply, Ctl.map_apply, hp, raised]⟩

/-! ## `curl_easy_init_common` -/

/-- What `setOptions` attempts. -/
def setOptionsAttempt (os : List CurlOption) : Attempt σ :=
  .all (os.map fun o => noError (env.setopt o))

/-- What `setPath` attempts: nothing for the root. -/
def setPathAttempt (path : Path) : Attempt σ :=
  if dropSlash path = [] then .pass else noError (env.urlSet (dropSlash path))

/-- What `curl_easy_init_common` attempts, in order. -/
def initAttempt (options : Opts) (path : Path) : Attempt σ :=
  (env.alloc .handle).andThen (((env.alloc .urlDup).andThen ((setPathAttempt env path).andThen
    ((noError env.urlGet).andThen (noError (env.setopt .url))))).andThen
    (setOptionsAttempt env (commonOptions options)))

theorem breaks_setOptions (os : List CurlOption) :
    Breaks (setOptions env os : Dav σ ρ Unit) () (setOptionsAttempt env os) := by
  induction os with
  | nil => exact .pure ()
  | cons o os ih => exact .bind (breaks_curlEasySetoptOrDie env o) ih

theorem breaks_setPath (path : Path) :
    Breaks (setPath env path : Dav σ ρ Unit) () (setPathAttempt env path) := by
  unfold setPath setPathAttempt
  split_ifs
  · exact .pure ()
  · exact breaks_curlUrlSetOrDie env _

theorem breaks_bind_unit {m : Dav σ ρ α} {a : α} {p : Attempt σ} (hm : Breaks m a p) :
    Breaks (m >>= fun _ => Pure.pure ()) () p := by
  intro t ht
  refine ⟨fun hp => by rw [Ctl.bind_ok ((hm t ht).1 hp)]; rfl, fun hp => ?_⟩
  obtain ⟨e, h⟩ := (hm t ht).2 hp
  exact ⟨e, by rw [Ctl.bind_error h]⟩

theorem breaks_initBody (options : Opts) (path : Path) :
    Breaks (initBody env options path : Dav σ ρ Unit) () (initAttempt env options path) := by
  have hurl : Raises (setUrl env : Dav σ ρ (Option Unit)) (some ())
      ((noError env.urlGet).andThen (noError (env.setopt .url))) :=
    (breaks_curlUrlGetOrDie env).withSeperated (breaks_curlEasySetoptOrDie env .url)
  have hscope : Raises (initUrl env path : Dav σ ρ (Option Unit)) (some ())
      ((env.alloc .urlDup).andThen ((setPathAttempt env path).andThen
        ((noError env.urlGet).andThen (noError (env.setopt .url))))) :=
    (raises_curlUrlDupE env).withSeperated
      (Breaks.bind (breaks_setPath env path) (breaks_bind_unit hurl.throwable))
  have h := (breaks_conditionThrow (ρ := ρ) (env.alloc .handle) (.curl .ok 0 .init)).bind
    (f := fun _ => throwable (initUrl env path) >>= fun _ =>
      setOptions env (commonOptions options))
    (Breaks.bind hscope.throwable (breaks_setOptions env (commonOptions options)))
  rw [bind_assoc] at h
  exact h

/-- `curl_easy_init_common`, entered without a pending exception, makes its
    attempts in order and raises an exception at the first that fails. -/
theorem raises_curlEasyInitCommon (options : Opts) (path : Path) :
    Raises (curlEasyInitCommon env options path : Dav σ ρ Unit) () (initAttempt env options path) := by
  intro t ht
  obtain ⟨hpass, hfail⟩ := (breaks_initBody (ρ := ρ) env options path).tryCatch t ht
  refine ⟨fun hp => by rw [curlEasyInitCommon, Ctl.bind_ok (hpass hp)]; rfl, fun hp => ?_⟩
  obtain ⟨a, e, h⟩ := hfail hp
  exact ⟨(), e, by rw [curlEasyInitCommon, Ctl.bind_ok h]; rfl⟩

end NetworkFs.Wrapper
