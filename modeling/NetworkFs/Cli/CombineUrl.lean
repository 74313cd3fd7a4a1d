import NetworkFs.World

/-!
# The URL and the options

Model of `combine_url` (`networkfs.c` lines 237–296). A `CURLU` is a record of optional
parts: to get a part that is absent fails with the `NO_` code of the part, and
`curl_url_set` may refuse a value (`reject`).

* `combineUrl_returns`: what `combine_url` leaves, for all options and parts.
* `combines_iff`: when the options and the handle are what they are meant to be. A scheme
  that was given is freed and lost, and a user name or a password of the URL stays in the
  handle when the option overrides it.
-/

namespace NetworkFs.Cli

open Control Grammar

/-! ## The model -/

/-- The parts of a `CURLU` that `combine_url` looks at. -/
inductive UrlPart where
  | scheme
  | port
  | user
  | password
  deriving DecidableEq

/-- A `CURLU` handle. -/
structure Url where
  scheme : Option Text
  port : Option Text
  user : Option Text
  password : Option Text
  deriving DecidableEq

/-- `curl_url_get`: what the handle has for a part. -/
def Url.get (h : Url) : UrlPart → Option Text
  | .scheme => h.scheme
  | .port => h.port
  | .user => h.user
  | .password => h.password

/-- `curl_url_set`: a part is set, or cleared by a null pointer. -/
def Url.set (h : Url) (value : Option Text) : UrlPart → Url
  | .scheme => { h with scheme := value }
  | .port => { h with port := value }
  | .user => { h with user := value }
  | .password => { h with password := value }

/-- The `CURLUcode` of an absent part: `CURLUE_NO_SCHEME`, `CURLUE_NO_PORT`, `CURLUE_NO_USER`,
    `CURLUE_NO_PASSWORD`. -/
def UrlPart.absent : UrlPart → ℕ
  | .scheme => 10
  | .port => 15
  | .user => 11
  | .password => 12

/-- The fields of `struct _networkfs_opts` that `combine_url` reads and writes. -/
structure UrlOpts where
  scheme : Option Text
  port : Option Text
  username : Option Text
  password : Option Text
  deriving DecidableEq

/-- `*h` and `*options`. -/
structure Given where
  h : Url
  options : UrlOpts

/-- A statement of `combine_url`. -/
abbrev Combine (ρ α : Type) := Ctl (Thread Given) ρ α

variable {ρ α : Type} (reject : UrlPart → Text → Option ℕ)

/-- An assignment to fields of `options`. -/
def modifyOptions (f : UrlOpts → UrlOpts) : Combine ρ Unit :=
  Ctl.modify fun t => { t with mem := { t.mem with options := f t.mem.options } }

/-- `curl_url_set_or_die(h, part, value, 0)`. -/
def curlUrlSetPartOrDie (part : UrlPart) (value : Option Text) : Combine ρ Unit :=
  match value.bind (reject part) with
  | some code => throw (raise (.curlUrl code .set))
  | none => Ctl.modify fun t => { t with mem := { t.mem with h := t.mem.h.set value part } }

/-- `curl_url_get_or_die(h, part, &value, 0)`. -/
def curlUrlGetPartOrDie (part : UrlPart) : Combine ρ Text := do
  match ← Ctl.gets (·.mem.h.get part) with
  | some value => pure value
  | none => do
    throw (raise (.curlUrl part.absent .get))
    pure []

/-- The `throwable if (options->scheme)` (lines 241–252). -/
def combineScheme : Combine ρ Unit := do
  match ← Ctl.gets (·.mem.options.scheme) with
  | some scheme => do
    let _ ← Ctl.doOnce (curlUrlSetPartOrDie reject .scheme (some scheme))
    modifyOptions fun o => { o with scheme := none }
  | none => do
    let _ ← withSeperated (curlUrlGetPartOrDie .scheme) (fun _ => pure ()) fun scheme =>
      modifyOptions fun o => { o with scheme := some scheme }

/-- The `if (options->port)` (lines 254–260). -/
def combinePort : Combine ρ Unit := do
  match ← Ctl.gets (·.mem.options.port) with
  | some port => do
    let _ ← Ctl.doOnce (curlUrlSetPartOrDie reject .port (some port))
    modifyOptions fun o => { o with port := none }
    check
  | none => pure ()

/-- `issubtype(Exception, &ex, CurlUrlException)`. -/
def isCurlUrl (e : Exception) : Bool :=
  match e.vtable with
  | some (.curlUrl _ _) => true
  | _ => false

/-- `if (e->code != CURLUE_NO_USER) throw;`, and the same for the password. -/
def rethrowUnlessAbsent (part : UrlPart) : Combine ρ Unit := do
  match ← Ctl.gets (·.ex.vtable) with
  | some (.curlUrl code _) => if code ≠ part.absent then throw (pure ()) else pure ()
  | _ => pure ()

/-- The `throwable try` that moves a credential from the handle to the options, where `store`
    is the assignment to the option (lines 263–274 and 278–289). -/
def takeCredential (part : UrlPart) (store : Text → UrlOpts → UrlOpts) : Combine ρ Unit := do
  let _ ← throwable (tryCatch
    (withSeperated (curlUrlGetPartOrDie part) (fun _ => pure ()) fun value => do
      modifyOptions (store value)
      curlUrlSetPartOrDie reject part none)
    [catchType isCurlUrl (rethrowUnlessAbsent part), onerror (pure ())])

/-- The `if (options->username == NULL)` (lines 262–275). -/
def combineUsername : Combine ρ Unit := do
  if ← Ctl.gets (·.mem.options.username.isNone) then
    takeCredential reject .user fun value o => { o with username := some value }

/-- The `if (options->password == NULL)` (lines 277–290). -/
def combinePassword : Combine ρ Unit := do
  if ← Ctl.gets (·.mem.options.password.isNone) then
    takeCredential reject .password fun value o => { o with password := some value }

/-- The `try` body of `combine_url` (lines 241–290). -/
def combineBody : Combine ρ Unit := do
  throwable (combineScheme reject)
  combinePort reject
  combineUsername reject
  combinePassword reject

/-- `combine_url(h, options)` (lines 237–296); `ret = 1` when an exception is pending. -/
def combineUrl : Combine ρ ℤ := do
  let _ ← tryCatch (combineBody reject) [onerror (pure ())]
  if ← Ctl.gets (·.ex.has) then pure 1 else pure 0

/-! ## One part at a time -/

/-- `combine_url` is entered, and left by its blocks, without an exception. -/
def given (h : Url) (o : UrlOpts) : Thread Given := ⟨.clear, ⟨h, o⟩⟩

section Blocks

variable {reject} {h : Url} {o : UrlOpts} {value : Text} {code : ℕ}

theorem combineScheme_set (ho : o.scheme = some value) (hr : reject .scheme value = none) :
    (combineScheme reject : Combine ρ Unit) (given h o) =
      (.ok (), given { h with scheme := some value } { o with scheme := none }) := by
  rw [combineScheme, Ctl.bind_ok (Ctl.gets_apply _ _)]
  simp only [given, ho, curlUrlSetPartOrDie, Option.bind_some, hr]
  rfl

theorem combineScheme_refused (ho : o.scheme = some value) (hr : reject .scheme value = some code) :
    (combineScheme reject : Combine ρ Unit) (given h o) =
      (.ok (), ⟨.init (.curlUrl code .set), ⟨h, { o with scheme := none }⟩⟩) := by
  rw [combineScheme, Ctl.bind_ok (Ctl.gets_apply _ _)]
  simp only [given, ho, curlUrlSetPartOrDie, Option.bind_some, hr]
  rfl

theorem combineScheme_get (ho : o.scheme = none) (hh : h.scheme = some value) :
    (combineScheme reject : Combine ρ Unit) (given h o) =
      (.ok (), given h { o with scheme := some value }) := by
  have hget : (curlUrlGetPartOrDie .scheme : Combine ρ Text) (given h o) = (.ok value, given h o) := by
    rw [curlUrlGetPartOrDie, Ctl.bind_ok (Ctl.gets_apply _ _)]
    simp only [given, Url.get, hh]
    rfl
  have hwith : (withSeperated (curlUrlGetPartOrDie .scheme) (fun _ => pure ()) fun scheme =>
      modifyOptions fun o => { o with scheme := some scheme } : Combine ρ (Option Unit)) (given h o) =
      (.ok (some ()), given h { o with scheme := some value }) :=
    withTest_ok hget rfl rfl rfl
  rw [combineScheme, Ctl.bind_ok (Ctl.gets_apply _ _)]
  simp only [given, ho]
  exact Ctl.bind_ok hwith

theorem combinePort_set (ho : o.port = some value) (hr : reject .port value = none) :
    (combinePort reject : Combine ρ Unit) (given h o) =
      (.ok (), given { h with port := some value } { o with port := none }) := by
  rw [combinePort, Ctl.bind_ok (Ctl.gets_apply _ _)]
  simp only [given, ho, curlUrlSetPartOrDie, Option.bind_some, hr]
  rfl

theorem combinePort_refused (ho : o.port = some value) (hr : reject .port value = some code) :
    (combinePort reject : Combine ρ Unit) (given h o) =
      (.error .brk, ⟨.init (.curlUrl code .set), ⟨h, { o with port := none }⟩⟩) := by
  rw [combinePort, Ctl.bind_ok (Ctl.gets_apply _ _)]
  simp only [given, ho, curlUrlSetPartOrDie, Option.bind_some, hr]
  rfl

theorem combinePort_absent (ho : o.port = none) :
    (combinePort reject : Combine ρ Unit) (given h o) = (.ok (), given h o) := by
  rw [combinePort, Ctl.bind_ok (Ctl.gets_apply _ _)]
  simp only [given, ho]
  rfl

/-- A credential that the URL has goes to the options; the exception of one that it does not
    have is caught. -/
theorem takeCredential_apply (part : UrlPart) (store : Text → UrlOpts → UrlOpts) :
    (takeCredential reject part store : Combine ρ Unit) (given h o) =
      (.ok (), given (h.set none part) ((h.get part).elim o fun value => store value o)) := by
  rcases hh : h.get part with _ | value
  · have hset : h.set none part = h := by
      cases h
      cases part <;> simp_all [Url.set, Url.get]
    have hget : (curlUrlGetPartOrDie part : Combine ρ Text) (given h o) =
        (.error .brk, ⟨.init (.curlUrl part.absent .get), ⟨h, o⟩⟩) := by
      rw [curlUrlGetPartOrDie, Ctl.bind_ok (Ctl.gets_apply _ _)]
      simp only [given, hh]
      rfl
    have hcaught : (rethrowUnlessAbsent part : Combine ρ Unit)
        ⟨⟨.catched, some (.curlUrl part.absent .get)⟩, ⟨h, o⟩⟩ =
        (.ok (), ⟨⟨.catched, some (.curlUrl part.absent .get)⟩, ⟨h, o⟩⟩) := by
      rw [rethrowUnlessAbsent, Ctl.bind_ok (Ctl.gets_apply _ _)]
      simp only [ne_eq, not_true_eq_false, if_false]
      rfl
    have hhandled : handle [catchType isCurlUrl (rethrowUnlessAbsent part), onerror (pure ())]
        (⟨.init (.curlUrl part.absent .get), ⟨h, o⟩⟩ : Thread Given) =
        ((.ok (), given h o) : Except (Exit ρ) Unit × Thread Given) := by
      refine handle_catch (t := ⟨.init (.curlUrl part.absent .get), (⟨h, o⟩ : Given)⟩) rfl rfl
        hcaught ?_
      exact nofun
    rw [hset]
    exact Ctl.bind_ok (throwable_clean (tryCatch_ok_handled (withTest_init_brk hget) hhandled) rfl)
  · have hget : (curlUrlGetPartOrDie part : Combine ρ Text) (given h o) =
        (.ok value, given h o) := by
      rw [curlUrlGetPartOrDie, Ctl.bind_ok (Ctl.gets_apply _ _)]
      simp only [given, hh]
      rfl
    exact Ctl.bind_ok (throwable_clean (tryCatch_ok (withTest_ok hget rfl rfl rfl) rfl) rfl)

theorem combineUsername_apply : (combineUsername reject : Combine ρ Unit) (given h o) =
    (.ok (), given { h with user := if o.username.isSome then h.user else none }
      { o with username := o.username.or h.user }) := by
  rw [combineUsername, Ctl.bind_ok (Ctl.gets_apply _ _)]
  obtain ⟨oscheme, oport, username, opassword⟩ := o
  cases username with
  | none =>
    refine (takeCredential_apply .user _).trans ?_
    obtain ⟨scheme, port, user, password⟩ := h
    cases user <;> rfl
  | some username => rfl

theorem combinePassword_apply : (combinePassword reject : Combine ρ Unit) (given h o) =
    (.ok (), given { h with password := if o.password.isSome then h.password else none }
      { o with password := o.password.or h.password }) := by
  rw [combinePassword, Ctl.bind_ok (Ctl.gets_apply _ _)]
  obtain ⟨oscheme, oport, ousername, password⟩ := o
  cases password with
  | none =>
    refine (takeCredential_apply .password _).trans ?_
    obtain ⟨scheme, port, user, password⟩ := h
    cases password <;> rfl
  | some password => rfl

end Blocks

/-! ## The whole function -/

/-- The handle after `combine_url`. -/
def combinedUrl (h : Url) (o : UrlOpts) : Url where
  scheme := o.scheme.or h.scheme
  port := o.port.or h.port
  user := if o.username.isSome then h.user else none
  password := if o.password.isSome then h.password else none

/-- The options after `combine_url`: a scheme or a port that was given is freed. -/
def combinedOpts (h : Url) (o : UrlOpts) : UrlOpts where
  scheme := if o.scheme.isSome then none else h.scheme
  port := none
  username := o.username.or h.user
  password := o.password.or h.password

/-- `curl_url_set` refuses the scheme or the port that was given. -/
def Refused (o : UrlOpts) : Prop :=
  (o.scheme.bind (reject .scheme)).isSome ∨ (o.port.bind (reject .port)).isSome

section Combine

variable {reject} {h : Url} {o : UrlOpts}

/-- What the scheme leaves. -/
theorem combineScheme_accepted (hscheme : h.scheme.isSome)
    (hr : o.scheme.bind (reject .scheme) = none) :
    (combineScheme reject : Combine ρ Unit) (given h o) =
      (.ok (), given { h with scheme := o.scheme.or h.scheme }
        { o with scheme := if o.scheme.isSome then none else h.scheme }) := by
  rcases ho : o.scheme with _ | scheme
  · obtain ⟨value, hvalue⟩ := Option.isSome_iff_exists.mp hscheme
    rw [combineScheme_get ho hvalue]
    simp [← hvalue]
  · rw [ho] at hr
    rw [combineScheme_set ho hr]
    simp

/-- What the port leaves. -/
theorem combinePort_accepted (hr : o.port.bind (reject .port) = none) :
    (combinePort reject : Combine ρ Unit) (given h o) =
      (.ok (), given { h with port := o.port.or h.port } { o with port := none }) := by
  obtain ⟨scheme, port, username, password⟩ := o
  cases port with
  | none => exact combinePort_absent rfl
  | some port => exact combinePort_set rfl hr

theorem combineUrl_accepted (hscheme : h.scheme.isSome) (hr : ¬Refused reject o) :
    (combineUrl reject : Combine ρ ℤ) (given h o) =
      (.ok 0, given (combinedUrl h o) (combinedOpts h o)) := by
  have hrefused : o.scheme.bind (reject .scheme) = none ∧ o.port.bind (reject .port) = none := by
    simpa [Refused, Option.isSome_iff_ne_none] using hr
  have hbody : (combineBody reject : Combine ρ Unit) (given h o) =
      (.ok (), given (combinedUrl h o) (combinedOpts h o)) := by
    refine (Ctl.bind_ok (throwable_clean (combineScheme_accepted hscheme hrefused.1) rfl)).trans ?_
    have hport := combinePort_accepted (ρ := ρ) (h := { h with scheme := o.scheme.or h.scheme })
      (o := { o with scheme := if o.scheme.isSome then none else h.scheme }) hrefused.2
    refine (Ctl.bind_ok hport).trans ?_
    exact (Ctl.bind_ok combineUsername_apply).trans combinePassword_apply
  rw [combineUrl, Ctl.bind_ok (tryCatch_ok hbody rfl)]
  rfl

theorem combineUrl_refused (hscheme : h.scheme.isSome) (hr : Refused reject o) :
    ∃ t, (combineUrl reject : Combine ρ ℤ) (given h o) = (.ok 1, t) ∧ t.ex.has = true := by
  have hbody : ∃ code m, (combineBody reject : Combine ρ Unit) (given h o) =
      (.error .brk, ⟨.init (.curlUrl code .set), m⟩) := by
    rcases hs : o.scheme.bind (reject .scheme) with _ | code
    · have hport : (o.port.bind (reject .port)).isSome := by simpa [Refused, hs] using hr
      obtain ⟨code, hcode⟩ := Option.isSome_iff_exists.mp hport
      obtain ⟨port, ho, hrefused⟩ := Option.bind_eq_some_iff.mp hcode
      have hport := combinePort_refused (ρ := ρ) (h := { h with scheme := o.scheme.or h.scheme })
        (o := { o with scheme := if o.scheme.isSome then none else h.scheme }) ho hrefused
      exact ⟨code, _, (Ctl.bind_ok (throwable_clean (combineScheme_accepted hscheme hs) rfl)).trans
        (Ctl.bind_error hport)⟩
    · obtain ⟨scheme, ho, hrefused⟩ := Option.bind_eq_some_iff.mp hs
      exact ⟨code, _, Ctl.bind_error (throwable_pending (combineScheme_refused ho hrefused) rfl)⟩
  obtain ⟨code, m, hbody⟩ := hbody
  exact ⟨⟨.init (.curlUrl code .set), m⟩, Ctl.bind_ok (tryCatch_onerror hbody rfl rfl), rfl⟩

/-- What `combine_url` is for: the scheme is in the options and in the handle, an option
    overrides its part of the URL, and the credentials are in the options only; or it says
    that it failed. -/
def Combined (h : Url) (o : UrlOpts) (v : ℤ) (t : Thread Given) : Prop :=
  (v = 0 → t.mem.options.scheme.isSome ∧ t.mem.options.scheme = t.mem.h.scheme ∧
    t.mem.h.scheme = o.scheme.or h.scheme ∧ t.mem.h.port = o.port.or h.port ∧
    t.mem.options.username = o.username.or h.user ∧
    t.mem.options.password = o.password.or h.password ∧
    t.mem.h.user = none ∧ t.mem.h.password = none) ∧
  (v ≠ 0 → t.ex.has = true)

end Combine

/-- A call does what it is for exactly when a value was refused, or no scheme was given and
    the URL has no credential that an option overrides. -/
theorem combines_iff {h : Url} (hscheme : h.scheme.isSome) (o : UrlOpts) :
    (∃ v t, (combineUrl reject : Combine ρ ℤ) (given h o) = (.ok v, t) ∧ Combined h o v t) ↔
      Refused reject o ∨ (o.scheme = none ∧ (o.username.isSome → h.user = none) ∧
        (o.password.isSome → h.password = none)) := by
  by_cases hr : Refused reject o
  · obtain ⟨t, hrun, hex⟩ := combineUrl_refused (ρ := ρ) hscheme hr
    refine iff_of_true ⟨1, t, hrun, ?_, fun _ => hex⟩ (.inl hr)
    intro hv
    exact absurd hv (by decide)
  · have hrun := combineUrl_accepted (ρ := ρ) hscheme hr
    constructor
    · rintro ⟨v, t, hrun', hcombined, -⟩
      obtain ⟨hv, rfl⟩ := Prod.mk.inj (hrun.symm.trans hrun')
      obtain ⟨hsome, -, -, -, -, -, huser, hpassword⟩ := hcombined (Except.ok.inj hv).symm
      refine .inr ⟨?_, fun ho => ?_, fun ho => ?_⟩
      · rcases ho : o.scheme with _ | scheme
        · rfl
        · simp [given, combinedOpts, ho] at hsome
      · simpa [given, combinedUrl, ho] using huser
      · simpa [given, combinedUrl, ho] using hpassword
    · rintro (hrefused | ⟨ho, huser, hpassword⟩)
      · exact absurd hrefused hr
      · refine ⟨0, _, hrun, fun _ => ?_, fun hv => absurd rfl hv⟩
        refine ⟨?_, ?_, rfl, rfl, rfl, rfl, ?_, ?_⟩
        · simpa [given, combinedOpts, ho] using hscheme
        · simp [given, combinedOpts, combinedUrl, ho]
        · simpa [given, combinedUrl] using huser
        · simpa [given, combinedUrl] using hpassword

/-- A URL with a user name and a password, and no option. -/
theorem combines_url : ∃ v t, (combineUrl (fun _ _ => none) : Combine Unit ℤ)
    (given ⟨some "http".toList, none, some "u".toList, some "p".toList⟩ ⟨none, none, none, none⟩) =
      (.ok v, t) ∧
    Combined ⟨some "http".toList, none, some "u".toList, some "p".toList⟩ ⟨none, none, none, none⟩ v t :=
  (combines_iff (fun _ _ => none) rfl _).mpr (.inr ⟨rfl, nofun, nofun⟩)

/-- `-o scheme=https`: `combine_url` returns 0 and `options->scheme` is `NULL`. -/
theorem combine_loses_scheme :
    (combineUrl (fun _ _ => none) : Combine Unit ℤ)
      (given ⟨some "http".toList, none, none, none⟩ ⟨some "https".toList, none, none, none⟩) =
        (.ok 0, given ⟨some "https".toList, none, none, none⟩ ⟨none, none, none, none⟩) ∧
    ¬∃ v t, (combineUrl (fun _ _ => none) : Combine Unit ℤ)
      (given ⟨some "http".toList, none, none, none⟩ ⟨some "https".toList, none, none, none⟩) =
        (.ok v, t) ∧
      Combined ⟨some "http".toList, none, none, none⟩ ⟨some "https".toList, none, none, none⟩ v t := by
  refine ⟨rfl, ?_⟩
  rintro ⟨v, t, hrun, hcombined, -⟩
  obtain ⟨hv, rfl⟩ := Prod.mk.inj hrun
  exact absurd (hcombined (Except.ok.inj hv).symm).1 (by decide)

end NetworkFs.Cli
