import NetworkFs.Dav.Accounting
import NetworkFs.Dav.Serving

/-!
# The lock table and the server

What a callback does to `filelock_tree` and to the server, when what is sent while the table is
locked succeeds: it sends requests that have nothing to do with locks, it drops the entry of a
path that it deletes or moves, and `dav_lock` and `dav_unlock` do one thing more.

* `Deal`: one request outside `dav_lock` and `dav_unlock`, with what it does to the table.
* `Tractable.keptByMethods`: the methods only make deals.
* `TakesLock`, `DeniesLock`, `GivesLock`: the ways through `dav_lock` and `dav_unlock`.
* `Dealt`, `callback_dealt`: what a callback does.
-/

namespace NetworkFs.Dav

open Control Grammar Wrapper Text

variable {σ ρ α : Type}

/-! ## The server -/

/-- What is sent while the table is locked, and `UNLOCK`, succeeds; a `LOCK` that is granted comes
    with a token and a body that names it. The outside changes only by requests. -/
structure Tractable (env : Env σ) : Prop extends Steady env where
  unescape : ∀ text s, (env.unescape text s).2 = s
  answers : ∀ request s, request.method ∈ [.put, .copy, .delete, .move, .unlock] →
    (env.perform request s).1.code = .ok
  grants : ∀ request s, request.method = .lock → (env.perform request s).1.code = .ok →
    ∃ token, headerToken (env.perform request s).1.headers = some token ∧
      LockAccepted token (env.perform request s).1.xml

/-- What the server may do away with, when it serves the request: what is deleted, what is moved,
    and what is moved over. -/
def Wipes (request : Request) (p : Path) : Prop :=
  Covers request.path p ∨ ∃ to_, .destination to_ ∈ request.headers ∧ Covers to_ p

/-- One request outside `dav_lock` and `dav_unlock`: what it does to the table and the server. A
    `DELETE` or a `MOVE` drops the entry of its path, and wipes only what it may. -/
inductive Deal (env : Env σ) (may : Path → Prop) : List FileLock × σ → List FileLock × σ → Prop
  | sends {table s} (request : Request) (h : request.method ∉ [Method.lock, .unlock, .delete, .move]) :
    Deal env may (table, s) (table, (env.perform request s).2)
  | drops {table s} (request : Request) (h : request.method = .delete ∨ request.method = .move)
      (hmay : ∀ p, Wipes request p → may p) :
    Deal env may (table, s) (tdelete request.path table, (env.perform request s).2)

/-- The table and the outside. -/
def books (t : Thread (Mem σ)) : List FileLock × σ := (t.mem.table, t.mem.env)

/-- A thread that holds nothing makes deals and holds nothing again. -/
def KeepsDeals (env : Env σ) (may : Path → Prop) (t t' : Thread (Mem σ)) : Prop :=
  t.mem.held = [] → t'.mem.held = [] ∧ Relation.ReflTransGen (Deal env may) (books t) (books t')

section Frames

variable {env : Env σ} {may : Path → Prop}

instance : QuietFrame (KeepsDeals env may) where
  refl _ h := ⟨h, .refl⟩
  trans _ _ _ h h' hheld :=
    have hfirst := h hheld
    have hsecond := h' hfirst.1
    ⟨hsecond.1, hfirst.2.trans hsecond.2⟩
  quiet t m hheld henv htable h := by
    refine ⟨hheld.trans h, ?_⟩
    rw [books, books, henv, htable]
  raise _ _ h := ⟨h, .refl⟩
  clear _ h := ⟨h, .refl⟩

variable (ht : Tractable env)

include ht

theorem Tractable.outside : Outside env (KeepsDeals env may) where
  alloc a t h := by
    rw [ht.alloc]
    exact ⟨h, .refl⟩
  urlSet path t h := by
    rw [ht.urlSet]
    exact ⟨h, .refl⟩
  urlGet t h := by
    rw [ht.urlGet]
    exact ⟨h, .refl⟩
  setopt option t h := by
    rw [ht.setopt]
    exact ⟨h, .refl⟩
  unescape text t h := by
    rw [ht.unescape]
    exact ⟨h, .refl⟩

omit ht in
theorem sends_keepsDeals {method : Method} (hother : method ∉ [Method.lock, .unlock, .delete, .move]) :
    Sends env (KeepsDeals env may) method where
  perform request hm _ h := ⟨h, .single (.sends request (hm ▸ hother))⟩

end Frames

/-! ## The methods -/

section Methods

variable {env : Env σ} {srv : DavServer} (hs : Steady env) {path : Path} {t : Thread (Mem σ)}

include hs

theorem davMethod_pending (method : Method) (lockType : LockType) (h : t.ex.has = true) :
    (davMethod env srv path method lockType : Dav σ ρ ℤ) t = (.ok 1, t) := by
  rw [davMethod, Ctl.bind_ok (hs.withCurl_pending srv.options path _ h), testSuccess_apply, h]
  rfl

omit hs in
theorem davPut_pending (data : Bytes) (offset : ℤ) (h : t.ex.has = true) :
    (davPut env srv path data offset : Dav σ ρ ℤ) t = (.ok 1, t) := by
  rw [davPut, Ctl.bind_ok (withBuffer_pending h), testSuccess_apply, h]
  rfl

theorem davCopy_pending (from_ to_ : Path) (h : t.ex.has = true) :
    (davCopy env srv from_ to_ : Dav σ ρ ℤ) t = (.ok 1, t) := by
  rw [davCopy, Ctl.bind_ok (hs.withCurl_pending srv.options from_ _ h), testSuccess_apply, h]
  rfl

theorem davMoveCore_pending (from_ to_ : Path) (nooverwrite : Bool) (h : t.ex.has = true) :
    (davMoveCore env srv from_ to_ nooverwrite : Dav σ ρ ℤ) t = (.ok 1, t) := by
  rw [davMoveCore, Ctl.bind_ok (hs.withCurl_pending srv.options from_ _ h), testSuccess_apply, h]
  rfl

/-- The request of `__dav_move` with `use_lock`. -/
def lockedMove (from_ to_ : Path) (nooverwrite : Bool) (table : List FileLock) : Request :=
  ⟨.move, from_, moveLines to_ nooverwrite ++ ifLines from_ table ++
    ifLines to_ (tdelete from_ table), none, .none⟩

variable (huse : srv.options.useLock = true) (h : t.ex.has = false) (hfree : t.mem.held = [])

include huse h hfree

/-- `__dav_move` drops the entry of its source. -/
theorem davMoveCore_locked (from_ to_ : Path) (nooverwrite : Bool)
    (hc : (env.perform (lockedMove from_ to_ nooverwrite t.mem.table) t.mem.env).1.code = .ok) :
    (davMoveCore env srv from_ to_ nooverwrite : Dav σ ρ ℤ) t = (.ok 0,
      answered env (lockedMove from_ to_ nooverwrite t.mem.table) (unlisted from_ .write t)) := by
  set request := lockedMove from_ to_ nooverwrite t.mem.table with hrequest
  have hdestination : (throwable (davHeaderDestination env [] to_) : Dav σ ρ (List Header)) t =
      (.ok [.destination to_], t) := by
    rw [((raises_davHeaderDestination (ρ := ρ) env [] to_).throwable t h).1
      (by rw [hs.destinationAttempt]; rfl), hs.destinationAttempt]
    rfl
  have hpass : overwriteAttempt env nooverwrite = .pass := by
    rw [overwriteAttempt, hs.alloc, ite_self]
  have hoverwrite : (overwriteLine env nooverwrite [.destination to_] : Dav σ ρ (List Header)) t =
      (.ok (moveLines to_ nooverwrite), t) := by
    rw [(breaks_overwriteLine (ρ := ρ) env nooverwrite [.destination to_] t h).1
      (by rw [hpass]; rfl), hpass]
    rfl
  obtain ⟨mode, hmode⟩ := moveLockLines_eq (ρ := ρ) env srv from_ to_ (moveLines to_ nooverwrite) t
    huse hfree h
  have hsection : (moveSection env from_ to_ (moveLines to_ nooverwrite) : Dav σ ρ Reply) (hold mode t) =
      (.ok (env.perform request t.mem.env).1,
        answered env request (unlisted from_ .write (hold mode t))) := by
    have hfrom := hs.headerIf (ρ := ρ) (moveLines to_ nooverwrite) from_ .write (t := hold mode t) h
    have hto := hs.headerIf (ρ := ρ) (moveLines to_ nooverwrite ++ ifLines from_ t.mem.table) to_ .read
      (t := unlisted from_ .write (hold mode t)) h
    have hsend := hs.setAndPerform (ρ := ρ) .customrequest request
      (t := unlisted from_ .write (hold mode t)) h
    rw [moveSection, Ctl.bind_ok hfrom]
    refine (Ctl.bind_ok hto).trans (hsend.trans ?_)
    exact performChecked_ok env hc
  have hscope : (moveScope env srv from_ to_ nooverwrite : Dav σ ρ (Option Unit)) t =
      (.ok (some ()), answered env request (unlisted from_ .write t)) := by
    rw [moveScope, withBuffer_clean h]
    refine Ctl.doOnce_ok ((Ctl.bind_ok hdestination).trans ((Ctl.bind_ok hoverwrite).trans ?_))
    have hrest := Ctl.bind_congr hmode fun _ => (unlockIf srv.options.useLock : Dav σ ρ Unit)
    rw [bind_assoc, Ctl.bind_ok hsection] at hrest
    refine hrest.trans ?_
    rw [huse]
    exact unlock_apply rfl
  have hwith := (hs.withCurl srv.options from_ h).trans
    (Ctl.doOnce_ok (Ctl.bind_ok (f := fun _ => pure ()) (throwable_clean hscope h)))
  rw [davMoveCore, Ctl.bind_ok hwith, testSuccess_apply]
  simp [h]

end Methods

/-! ## The methods make deals -/

section Deals

variable {env : Env σ} {srv : DavServer} {may : Path → Prop} {t : Thread (Mem σ)}

theorem canLock_free (hfree : t.mem.held = []) (lockType : LockType) : CanLock srv lockType t := by
  intro _
  rw [hfree]
  split_ifs <;> rfl

/-- The exits of `m` are known, and where it leaves from a thread that holds nothing. -/
theorem within_keepsDeals {A : Exit ρ → Prop} {m : Dav σ ρ α}
    (hexits : Ctl.Within (fun _ _ => True) A m) (hkept : ∀ t, KeepsDeals env may t (m t).2) :
    Ctl.Within (KeepsDeals env may) A m :=
  fun t => ⟨hkept t, (hexits t).2⟩

variable (ht : Tractable env)

include ht

theorem Tractable.succeeds {request : Request} {s : σ} (method : Method)
    (hmethod : request.method = method) (hmem : method ∈ [Method.put, .copy, .delete, .move, .unlock]) :
    (env.perform request s).1.code = .ok :=
  ht.answers request s (hmethod ▸ hmem)

/-- `__dav_method` with a lock that its request cannot leave behind. -/
theorem deals_davMethod {path : Path} {method : Method} {lockType : LockType}
    (hanswers : lockType = .none ∨ method ∈ [Method.put, .copy, .delete, .move, .unlock])
    (hsent : ∀ t, KeepsDeals env may t (answered env
      (methodRequest srv path method lockType t.mem.table) (listed srv path lockType t))) :
    KeepsDeals env may t ((davMethod env srv path method lockType : Dav σ ρ ℤ) t).2 := by
  intro hfree
  cases hex : t.ex.has with
  | true =>
    rw [davMethod_pending ht.toSteady method lockType hex]
    exact ⟨hfree, .refl⟩
  | false =>
    by_cases hc : (env.perform (methodRequest srv path method lockType t.mem.table)
      t.mem.env).1.code = .ok
    · rw [davMethod_ok srv ht.toSteady hex path method (canLock_free hfree lockType) hc]
      exact hsent t hfree
    · rw [davMethod_failed srv ht.toSteady hex path method (canLock_free hfree lockType) hc]
      obtain rfl | hmem := hanswers
      · have hsame : ∀ u : Thread (Mem σ), locked srv .none u = u := fun u => by
          simp [locked, usesLock]
        rw [hsame]
        exact hsent t hfree
      · exact absurd (ht.answers _ _ hmem) hc

theorem deals_davPut (path : Path) (data : Bytes) (offset : ℤ) :
    KeepsDeals env may t ((davPut env srv path data offset : Dav σ ρ ℤ) t).2 := by
  intro hfree
  cases hex : t.ex.has with
  | true =>
    rw [davPut_pending data offset hex]
    exact ⟨hfree, .refl⟩
  | false =>
    rw [davPut_ok srv ht.toSteady hex (canLock_free hfree .read)
      (ht.succeeds .put rfl (by decide))]
    exact ⟨hfree, .single (.sends _ (show Method.put ∉ _ by decide))⟩

theorem deals_davCopy (from_ to_ : Path) :
    KeepsDeals env may t ((davCopy env srv from_ to_ : Dav σ ρ ℤ) t).2 := by
  intro hfree
  cases hex : t.ex.has with
  | true =>
    rw [davCopy_pending ht.toSteady from_ to_ hex]
    exact ⟨hfree, .refl⟩
  | false =>
    rw [davCopy_ok srv ht.toSteady hex (canLock_free hfree .read)
      (ht.succeeds .copy rfl (by decide))]
    exact ⟨hfree, .single (.sends _ (show Method.copy ∉ _ by decide))⟩

variable (huse : srv.options.useLock = true)

include huse

theorem deals_davMoveCore {from_ to_ : Path} (nooverwrite : Bool)
    (hmay : ∀ p, Covers from_ p ∨ Covers to_ p → may p) :
    KeepsDeals env may t ((davMoveCore env srv from_ to_ nooverwrite : Dav σ ρ ℤ) t).2 := by
  intro hfree
  cases hex : t.ex.has with
  | true =>
    rw [davMoveCore_pending ht.toSteady from_ to_ nooverwrite hex]
    exact ⟨hfree, .refl⟩
  | false =>
    rw [davMoveCore_locked ht.toSteady huse hex hfree from_ to_ nooverwrite
      (ht.succeeds .move rfl (by decide))]
    refine ⟨hfree, .single (.drops (lockedMove from_ to_ nooverwrite t.mem.table) (.inr rfl) ?_)⟩
    rintro p (hfrom | ⟨to', hmem, hto⟩)
    · exact hmay p (.inl hfrom)
    · have hsame : to' = to_ := by simpa [lockedMove, moveLines, ifLines] using hmem
      exact hmay p (.inr (hsame ▸ hto))

/-- The methods only make deals. -/
theorem Tractable.keptByMethods : KeptByMethods env srv (KeepsDeals env may) may where
  ex _ _ h := ⟨h, .refl⟩
  head path := by
    have : Outside env (KeepsDeals env may) := ht.outside
    have : Sends env (KeepsDeals env may) .head := sends_keepsDeals (by decide)
    exact within_davHead env srv path
  get path data offset := by
    have : Outside env (KeepsDeals env may) := ht.outside
    have : Sends env (KeepsDeals env may) .get := sends_keepsDeals (by decide)
    exact within_davGet env srv path data offset
  put path data offset := within_keepsDeals (within_davPut env srv path data offset)
    fun _ => deals_davPut ht path data offset
  putSimple path := within_keepsDeals (within_davMethod env srv path .put .read) fun _ =>
    deals_davMethod ht (.inr (by decide)) fun t h => by
      rw [listed_read]
      exact ⟨h, .single (.sends _ (show Method.put ∉ _ by decide))⟩
  mkcol path := within_keepsDeals (within_davMethod env srv path .mkcol .none) fun _ =>
    deals_davMethod ht (.inl rfl) fun t h => by
      have hsame : listed srv path .none t = t := by simp [listed, usesLock]
      rw [hsame]
      exact ⟨h, .single (.sends _ (show Method.mkcol ∉ _ by decide))⟩
  delete path hmay := within_keepsDeals (within_davMethod env srv path .delete .write) fun _ =>
    deals_davMethod ht (.inr (by decide)) fun t h => by
      have huses : usesLock srv .write = true := by simp [usesLock, huse]
      rw [listed, if_pos huses]
      refine ⟨h, .single (.drops (methodRequest srv path .delete .write t.mem.table) (.inl rfl) ?_)⟩
      rintro p (hcovers | ⟨to_, hmem, -⟩)
      · exact hmay p hcovers
      · simp [methodRequest, lockLines, ifLines] at hmem
  move from_ to_ nooverwrite hmay := within_keepsDeals
    (within_davMoveCore env srv from_ to_ nooverwrite) fun _ =>
      deals_davMoveCore ht huse nooverwrite hmay
  copy from_ to_ := within_keepsDeals (within_davCopy env srv from_ to_) fun _ =>
    deals_davCopy ht from_ to_
  proppatch path key value := by
    have : Outside env (KeepsDeals env may) := ht.outside
    have : Sends env (KeepsDeals env may) .proppatch := sends_keepsDeals (by decide)
    exact within_davProppatch env srv path key value
  propfind path depth _ hfiller := by
    have : Outside env (KeepsDeals env may) := ht.outside
    have : Sends env (KeepsDeals env may) .propfind := sends_keepsDeals (by decide)
    exact within_davPropfind env srv hfiller path depth

end Deals

/-! ## `dav_lock` -/

section Lock

variable {env : Env σ} {srv : DavServer} (hs : Steady env) {path : Path} {t : Thread (Mem σ)}

/-- The request of `__dav_lock`. -/
def plainLock (path : Path) : Request := ⟨.lock, path, [.timeout, .contentTypeXml], none, .lockinfo⟩

include hs

theorem Steady.allocates (a : Alloc) (s : σ) : (env.alloc a s).1 = true := by
  rw [hs.alloc]
  rfl

theorem writing_blank_env : (writing env (blank env t)).mem.env = t.mem.env := by
  show (env.alloc .pathDup (env.alloc .fileLock t.mem.env).2).2 = t.mem.env
  rw [hs.alloc, hs.alloc]
  rfl

theorem foldlM_davLockCallback_steady (lines : List Text) (token : Option Text) :
    ∃ token', (lines.foldlM (davLockCallback env) token : Dav σ ρ (Option Text)) t = (.ok token', t) := by
  induction lines generalizing token with
  | nil => exact ⟨token, rfl⟩
  | cons line lines ih =>
    have hstep : ∃ token', (davLockCallback env token line : Dav σ ρ (Option Text)) t =
        (.ok token', t) := by
      cases token with
      | some token => exact ⟨some token, rfl⟩
      | none =>
        rcases hline : lockTokenText line with _ | text
        · exact ⟨none, by simp [davLockCallback, hline]⟩
        · refine ⟨some text, ?_⟩
          simp [davLockCallback, hline, Ctl.bind_apply, hs.alloc, atEnv]
    obtain ⟨token₁, hstep⟩ := hstep
    obtain ⟨token₂, hrest⟩ := ih token₁
    refine ⟨token₂, ?_⟩
    rw [List.foldlM_cons]
    exact (Ctl.bind_ok hstep).trans hrest

theorem lockPerform_refused {request : Request} (hc : (env.perform request t.mem.env).1.code ≠ .ok) :
    (lockPerform env request : Dav σ ρ (Option Text × Option XmlCtxt)) t =
      (.error .brk, refused (env.perform request t.mem.env).1 (answered env request t)) := by
  obtain ⟨token, hfold⟩ := foldlM_davLockCallback_steady (ρ := ρ) hs (t := answered env request t)
    (env.perform request t.mem.env).1.headers none
  have hne : ((env.perform request t.mem.env).1.code == .ok) = false := by simpa using hc
  rw [lockPerform, Ctl.bind_ok (curlEasyPerform_apply env request t)]
  refine (Ctl.bind_ok hfold).trans ?_
  rw [performOrDie, hne]
  rfl

variable (h : t.ex.has = false)

include h

theorem lockScope_apply : (lockScope env path : Dav σ ρ _) t =
    Ctl.doOnce (lockPerform env (plainLock path)) t := by
  have hset := (breaks_curlEasySetoptOrDie (ρ := ρ) env .customrequest t h).1
    (by rw [hs.noError_setopt]; rfl)
  rw [hs.noError_setopt] at hset
  rw [lockScope, hs.scopeList h]
  unfold Ctl.doOnce
  rw [lockSend, Ctl.bind_ok (hs.slistAppendWeak _ _ _), Ctl.bind_ok hset]
  rfl

variable (srv) in
theorem davLockCore_refusing (hc : (env.perform (plainLock path) t.mem.env).1.code ≠ .ok) :
    (davLockCore env srv path : Dav σ ρ (Option Text)) t = (.ok none,
      refused (env.perform (plainLock path) t.mem.env).1 (answered env (plainLock path) t)) := by
  have hscope := (lockScope_apply (ρ := ρ) hs h).trans (Ctl.doOnce_brk (lockPerform_refused hs hc))
  have hwith := (hs.withCurl srv.options path h).trans (Ctl.doOnce_brk (throwable_pending hscope rfl))
  exact davLockCore_pending env srv h rfl (.inl (Ctl.bind_error (throwable_pending hwith rfl)))

variable (srv) in
theorem davLockCore_granting {token : Text} (hc : (env.perform (plainLock path) t.mem.env).1.code = .ok)
    (htoken : headerToken (env.perform (plainLock path) t.mem.env).1.headers = some token)
    (haccepted : LockAccepted token (env.perform (plainLock path) t.mem.env).1.xml) :
    (davLockCore env srv path : Dav σ ρ (Option Text)) t =
      (.ok (some token), answered env (plainLock path) t) := by
  have hperform := lockPerform_granted (ρ := ρ) env hc htoken (by rw [hs.alloc]; rfl)
  rw [hs.alloc] at hperform
  have hclean : (answered env (plainLock path) t).ex.has = false := h
  have hscope := (lockScope_apply (ρ := ρ) hs h).trans (Ctl.doOnce_ok hperform)
  have hwith := (hs.withCurl srv.options path h).trans
    (Ctl.doOnce_ok (throwable_clean hscope hclean))
  refine davLockCore_clean env srv h hclean ?_
  rw [lockBody, Ctl.bind_ok (throwable_clean hwith hclean)]
  unfold LockAccepted at haccepted
  split at haccepted
  · rename_i root hxml
    show (lockReply (some token) (env.perform (plainLock path) t.mem.env).1.xml : Dav σ ρ _) _ = _
    rw [hxml, lockReply, Ctl.deref_some, pure_bind]
    exact Ctl.bind_ok ((lockRounds_cases token root.children _).1 haccepted)
  · exact haccepted.elim

variable (huse : srv.options.useLock = true) (hfree : t.mem.held = [])
  (hf : tfind path t.mem.table = none)

include huse hfree hf

/-- `dav_lock` of a path without an entry, if the server refuses. -/
theorem davLock_refused (hc : (env.perform (plainLock path) t.mem.env).1.code ≠ .ok) :
    ∃ t', (davLock env srv path : Dav σ ρ ℤ) t = (.ok 1, t') ∧ t'.mem.held = [] ∧
      t'.mem.table = t.mem.table ∧ t'.mem.env = (env.perform (plainLock path) t.mem.env).2 := by
  have hsame := writing_blank_env hs (t := t)
  have hcore := davLockCore_refusing (ρ := ρ) srv hs (t := writing env (blank env t)) h
    (by rw [hsame]; exact hc)
  rw [hsame] at hcore
  set u := refused (env.perform (plainLock path) t.mem.env).1
    (answered env (plainLock path) (writing env (blank env t))) with hu
  have hinsert : (lockInsert env srv path : Dav σ ρ Unit) (writing env (blank env t)) =
      (.error .brk, u) := by
    rw [lockInsert_eq env srv (t := writing env (blank env t)) hf]
    exact Ctl.bind_error (throwable_pending hcore rfl)
  have hfill := lockFill_brk (ρ := ρ) env srv (t := blank env t) (hs.allocates _ _) hfree hinsert
    (by rw [hu]; exact congrArg (RwMode.wr :: ·) hfree) rfl
  have hrollback : (lockRollback env srv path : Dav σ ρ Unit) (release u) = (.ok (), release u) := rfl
  have hcreate : (lockCreate env srv path : Dav σ ρ Unit) t = (.ok (), release u) := by
    rw [lockCreate, Ctl.bind_ok (throwable_clean (mallocFileLock_pass env (hs.allocates _ _)) h)]
    exact Ctl.bind_ok (tryCatch_brk hfill (handle_onerror_ok rfl hrollback))
  refine ⟨release u, davLock_create_ok env srv huse (by rw [hfree]; rfl) hf hcreate, ?_, rfl, ?_⟩
  · show (RwMode.wr :: t.mem.held).tail = []
    rw [hfree]
    rfl
  · show (env.perform (plainLock path) (writing env (blank env t)).mem.env).2 = _
    rw [hsame]

/-- `dav_lock` of a path without an entry, if the server grants it. -/
theorem davLock_granted {token : Text} (hc : (env.perform (plainLock path) t.mem.env).1.code = .ok)
    (htoken : headerToken (env.perform (plainLock path) t.mem.env).1.headers = some token)
    (haccepted : LockAccepted token (env.perform (plainLock path) t.mem.env).1.xml) :
    ∃ t', (davLock env srv path : Dav σ ρ ℤ) t = (.ok 0, t') ∧ t'.mem.held = [] ∧
      t'.mem.table = ⟨path, token, 1⟩ :: t.mem.table ∧
      t'.mem.env = (env.perform (plainLock path) t.mem.env).2 := by
  have hsame := writing_blank_env hs (t := t)
  have hcore := davLockCore_granting (ρ := ρ) srv hs (t := writing env (blank env t)) h
    (by rw [hsame]; exact hc) (by rw [hsame]; exact htoken) (by rw [hsame]; exact haccepted)
  set u := answered env (plainLock path) (writing env (blank env t)) with hu
  set w := { u with mem := { u.mem with newToken := some token } } with hw
  have hinsert : (lockInsert env srv path : Dav σ ρ Unit) (writing env (blank env t)) =
      (.ok (), enlisted path token (atEnv w (env.alloc .treeNode w.mem.env).2)) := by
    rw [lockInsert_eq env srv (t := writing env (blank env t)) hf,
      Ctl.bind_ok (throwable_clean hcore h), Ctl.bind_ok (modifyMem_apply _ u)]
    exact lockEnter_pass env path token (t := w) (hs.allocates _ _)
  rw [hs.alloc] at hinsert
  have hfill := lockFill_ok (ρ := ρ) env srv (t := blank env t) (hs.allocates _ _) hfree hinsert
    (congrArg (RwMode.wr :: ·) hfree) h
  refine ⟨_, davLock_fill_ok env srv huse (by rw [hfree]; rfl) hf h (hs.allocates _ _) hfill h,
    ?_, rfl, ?_⟩
  · show (RwMode.wr :: t.mem.held).tail = []
    rw [hfree]
    rfl
  · show (env.perform (plainLock path) (writing env (blank env t)).mem.env).2 = _
    rw [hsame]

end Lock

/-! ## The ways through `dav_lock` and `dav_unlock` -/

/-- `dav_lock` counts the entry of `path`, or it makes one for the token that the server grants. -/
inductive TakesLock (env : Env σ) (path : Path) : List FileLock × σ → List FileLock × σ → Prop
  | counts {table s e} (hf : tfind path table = some e) :
    TakesLock env path (table, s) (addCnt path 1 table, s)
  | grants {table s token} (hf : tfind path table = none)
      (hc : (env.perform (plainLock path) s).1.code = .ok)
      (htoken : headerToken (env.perform (plainLock path) s).1.headers = some token) :
    TakesLock env path (table, s) (⟨path, token, 1⟩ :: table, (env.perform (plainLock path) s).2)

/-- The server refuses the `LOCK`. -/
inductive DeniesLock (env : Env σ) (path : Path) : List FileLock × σ → List FileLock × σ → Prop
  | refuses {table s} (hf : tfind path table = none)
      (hc : (env.perform (plainLock path) s).1.code ≠ .ok) :
    DeniesLock env path (table, s) (table, (env.perform (plainLock path) s).2)

/-- `dav_unlock` counts one off the entry of `path`, or it removes it and unlocks. -/
inductive GivesLock (env : Env σ) (path : Path) : List FileLock × σ → List FileLock × σ → Prop
  | counts {table s e} (hf : tfind path table = some e) (hc : e.cnt - 1 > 0) :
    GivesLock env path (table, s) (addCnt path (-1) table, s)
  | unlocks {table s e} (hf : tfind path table = some e) (hc : ¬ e.cnt - 1 > 0) :
    GivesLock env path (table, s)
      (tdelete path (addCnt path (-1) table), (env.perform (unlockRequest path e.token) s).2)

section Ways

variable {env : Env σ} {srv : DavServer} {t : Thread (Mem σ)} (ht : Tractable env)

include ht

variable (srv) in
theorem Tractable.unlockAttempt (path : Path) (token : Text) (s : σ) :
    Dav.unlockAttempt env srv path token s = (true, (env.perform (unlockRequest path token) s).2) := by
  have hcode : (env.perform (unlockRequest path token) s).1.code = .ok :=
    ht.succeeds .unlock rfl (by decide)
  rw [Dav.unlockAttempt, ht.initAttempt, ht.alloc, sendAttempt, ht.noError_setopt]
  show ((env.perform (unlockRequest path token) s).1.code == .ok, _) = _
  rw [hcode]
  rfl

variable (srv) in
/-- `__dav_unlock` sends one request and leaves the table. -/
theorem Tractable.davUnlockCore (path : Path) (token : Text) (hex : t.ex.has = false) :
    ∃ t', (davUnlockCore env srv path token : Dav σ ρ ℤ) t = (.ok 0, t') ∧ t'.ex.has = false ∧
      t'.mem.held = t.mem.held ∧ t'.mem.table = t.mem.table ∧
      t'.mem.env = (env.perform (unlockRequest path token) t.mem.env).2 := by
  have hattempt := ht.unlockAttempt srv path token t.mem.env
  obtain ⟨t', hrun, hclean, henv⟩ := davUnlockCore_pass (ρ := ρ) env srv path token hex
    (by rw [hattempt])
  have hheld := (within_davUnlockCore (R := SameHeld) (A := anyExit (ρ := ρ)) env srv path token t).1
  have htable := (within_davUnlockCore (R := SameTable) (A := anyExit (ρ := ρ)) env srv path token
    t).1
  rw [hrun] at hheld htable
  exact ⟨t', hrun, hclean, hheld, htable, by rw [henv, hattempt]⟩

variable (huse : srv.options.useLock = true) {path : Path} (hex : t.ex.has = false)
  (hfree : t.mem.held = [])

include huse hex hfree

variable (path) in
theorem davLock_ways : ∃ v t', (davLock env srv path : Dav σ ρ ℤ) t = (.ok v, t') ∧
    t'.mem.held = [] ∧ (v = 0 ∧ TakesLock env path (books t) (books t') ∨
      v = 1 ∧ DeniesLock env path (books t) (books t')) := by
  rcases hf : tfind path t.mem.table with _ | e
  · by_cases hc : (env.perform (plainLock path) t.mem.env).1.code = .ok
    · obtain ⟨token, htoken, haccepted⟩ := ht.grants (plainLock path) t.mem.env rfl hc
      obtain ⟨t', hrun, hheld, htable, henv⟩ := davLock_granted (ρ := ρ) ht.toSteady hex huse hfree hf
        hc htoken haccepted
      refine ⟨0, t', hrun, hheld, .inl ⟨rfl, ?_⟩⟩
      rw [books, books, htable, henv]
      exact .grants hf hc htoken
    · obtain ⟨t', hrun, hheld, htable, henv⟩ := davLock_refused (ρ := ρ) ht.toSteady hex huse hfree hf
        hc
      refine ⟨1, t', hrun, hheld, .inr ⟨rfl, ?_⟩⟩
      rw [books, books, htable, henv]
      exact .refuses hf hc
  · have hfind := lockFind_synchronized (ρ := ρ) path (t := t) (by rw [hfree]; rfl)
    rw [hf] at hfind
    refine ⟨0, counted path 1 t, ?_, hfree, .inl ⟨rfl, .counts hf⟩⟩
    rw [davLock, if_pos huse, Ctl.bind_ok hfind]
    rfl

/-- With an entry to find. -/
theorem davUnlock_ways (hfound : (tfind path t.mem.table).isSome = true) :
    ∃ t', (davUnlock env srv path : Dav σ ρ ℤ) t = (.ok 0, t') ∧ t'.mem.held = [] ∧
      GivesLock env path (books t) (books t') := by
  obtain ⟨e, hf⟩ := Option.isSome_iff_exists.mp hfound
  have hwr : t.mem.held.contains .wr = false := by rw [hfree]; rfl
  by_cases hshared : e.cnt - 1 > 0
  · exact ⟨counted path (-1) t, davUnlock_shared env srv huse hwr hf hshared, hfree, .counts hf hshared⟩
  · have hpath : e.path = path := by simpa using List.find?_some hf
    obtain ⟨t', hrun, -, hheld, htable, henv⟩ := ht.davUnlockCore (ρ := ρ) srv e.path e.token
      (t := unlisted path .write (counted path (-1) t)) hex
    refine ⟨t', (davUnlock_last env srv huse hwr hf hshared hfree).trans hrun, hheld.trans hfree, ?_⟩
    rw [books, books, htable, henv, hpath]
    exact .unlocks hf hshared

variable (path) in
theorem davOpenCore_ways (hlock : srv.lock = true) :
    ∃ v t', (davOpenCore env srv path : Dav σ ρ ℤ) t = (.ok v, t') ∧ t'.mem.held = [] ∧
      (v = 0 ∧ TakesLock env path (books t) (books t') ∨
        v ≠ 0 ∧ DeniesLock env path (books t) (books t')) := by
  obtain ⟨v, t', hrun, hheld, ⟨rfl, htakes⟩ | ⟨rfl, hdenies⟩⟩ :=
    davLock_ways (ρ := ρ) ht huse path hex hfree
  · refine ⟨0, t', ?_, hheld, .inl ⟨rfl, htakes⟩⟩
    rw [davOpenCore, if_pos hlock, Ctl.bind_ok hrun]
    rfl
  · refine ⟨exceptionErrno t'.ex, ⟨.clear, t'.mem⟩, ?_, hheld,
      .inr ⟨(exceptionErrno_neg _).ne, hdenies⟩⟩
    rw [davOpenCore, if_pos hlock, Ctl.bind_ok hrun]
    rfl

end Ways

/-! ## The callbacks -/

/-- The handle that the callback opens. -/
def Callback.opens : Callback → Option Handle
  | .open_ path fi => some ⟨path, fi⟩
  | .create path _ fi => some ⟨path, fi⟩
  | _ => none

/-- What a callback that returns `v` does to the table and the server. -/
inductive Dealt (env : Env σ) (srv : DavServer) :
    Callback → ℤ → List FileLock × σ → List FileLock × σ → Prop
  | deals {c v x y} (hc : c.locks = false)
      (hdeals : Relation.ReflTransGen (Deal env c.wipes) x y) : Dealt env srv c v x y
  /-- `__dav_open` is not reached, or it has nothing to lock. -/
  | unlocked {c h v x y} (hc : c.opens = some h)
      (hdeals : Relation.ReflTransGen (Deal env c.wipes) x y)
      (hv : v = 0 → srv.lock = true → h.flags.writes = false) : Dealt env srv c v x y
  | takes {c h x y z} (hc : c.opens = some h) (hwrites : h.flags.writes = true)
      (hdeals : Relation.ReflTransGen (Deal env c.wipes) x y) (htakes : TakesLock env h.path y z) :
    Dealt env srv c 0 x z
  | denied {c h v x y z} (hc : c.opens = some h)
      (hdeals : Relation.ReflTransGen (Deal env c.wipes) x y) (hdenies : DeniesLock env h.path y z)
      (hv : v ≠ 0) : Dealt env srv c v x z
  | gives {path fi v x y} (hwrites : fi.writes = true) (hgives : GivesLock env path x y) :
    Dealt env srv (.release path fi) v x y
  /-- `dav_release` has nothing to unlock, or finds nothing. -/
  | kept {path fi v x} (hnone : srv.lock = true → fi.writes = true → tfind path x.1 = none) :
    Dealt env srv (.release path fi) v x x

section Callbacks

variable {env : Env σ} {srv : DavServer} {t t' : Thread (Mem σ)} (ht : Tractable env)
  (huse : srv.options.useLock = true) (hclear : Clear t) (hfree : t.mem.held = [])

include ht huse hclear hfree

/-- `dav_create` and `dav_open`: a first part that does not lock, then `__dav_open` or nothing. -/
theorem davOpenCore_after {c : Callback} {h : Handle} (hc : c.opens = some h) {m : Dav σ ρ ℤ}
    {f : ℤ → Dav σ ρ ℤ} (hm : Ctl.Within (KeepsDeals env c.wipes) anyExit m) (hclears : Clears m)
    (hf : ∀ res, h.flags.writes = true ∧ f res = davOpenCore env srv h.path ∨
      f res = pure res ∧ (res = 0 → srv.lock = true → h.flags.writes = false))
    {v : ℤ} (hrun : (m >>= f) t = (.ok v, t')) :
    t'.mem.held = [] ∧ Dealt env srv c v (books t) (books t') := by
  obtain ⟨res, t₁, hfirst, hrun⟩ := Ctl.bind_eq_ok hrun
  obtain ⟨hfree₁, hdeals⟩ := (hm t).1 hfree
  rw [hfirst] at hfree₁ hdeals
  obtain ⟨hwrites, hopen⟩ | ⟨hpure, hnone⟩ := hf res
  · rw [hopen] at hrun
    have hex₁ := (hclears t res t₁ hclear hfirst).has
    cases hlock : srv.lock with
    | true =>
      obtain ⟨w, t₂, hrun', hheld, hways⟩ := davOpenCore_ways (ρ := ρ) ht huse h.path hex₁
        hfree₁ hlock
      obtain ⟨hv, rfl⟩ := Prod.mk.inj (hrun'.symm.trans hrun)
      obtain rfl := Except.ok.inj hv
      obtain ⟨rfl, htakes⟩ | ⟨hne, hdenies⟩ := hways
      · exact ⟨hheld, .takes hc hwrites hdeals htakes⟩
      · exact ⟨hheld, .denied hc hdeals hdenies hne⟩
    | false =>
      rw [davOpenCore, hlock] at hrun
      obtain ⟨hv, rfl⟩ := Prod.mk.inj hrun
      exact ⟨hfree₁, .unlocked hc hdeals fun _ hl => absurd (hlock.symm.trans hl) (by decide)⟩
  · rw [hpure] at hrun
    obtain ⟨hv, rfl⟩ := Prod.mk.inj hrun
    exact ⟨hfree₁, .unlocked hc hdeals (Except.ok.inj hv ▸ hnone)⟩

theorem davRelease_dealt {path : Path} {fi : OpenFlags} {v : ℤ}
    (hrun : (davRelease env srv path fi : Dav σ ρ ℤ) t = (.ok v, t')) :
    t'.mem.held = [] ∧ Dealt env srv (.release path fi) v (books t) (books t') := by
  unfold davRelease at hrun
  split_ifs at hrun with hlock hwrites
  · cases hfound : tfind path t.mem.table with
    | none =>
      have hunlock := davUnlock_absent (ρ := ρ) env srv huse (by rw [hfree]; rfl) hfound
      rw [Ctl.bind_ok hunlock] at hrun
      obtain ⟨-, rfl⟩ := Prod.mk.inj hrun
      exact ⟨hfree, .kept fun _ _ => hfound⟩
    | some e =>
      obtain ⟨t₁, hunlock, hheld, hgives⟩ := davUnlock_ways (ρ := ρ) ht huse hclear.has hfree
        (by rw [hfound]; rfl)
      rw [Ctl.bind_ok hunlock] at hrun
      obtain ⟨-, rfl⟩ := Prod.mk.inj hrun
      exact ⟨hheld, .gives hwrites hgives⟩
  · obtain ⟨-, rfl⟩ := Prod.mk.inj hrun
    exact ⟨hfree, .kept fun _ hw => absurd hw hwrites⟩
  · obtain ⟨-, rfl⟩ := Prod.mk.inj hrun
    exact ⟨hfree, .kept fun hl _ => absurd hl hlock⟩

/-- What a callback does that is entered between two others, and returns. -/
theorem callback_dealt {c : Callback} {v : ℤ}
    (hrun : (c.run env srv : Dav σ Unit ℤ) t = (.ok v, t')) :
    t'.mem.held = [] ∧ Dealt env srv c v (books t) (books t') := by
  have hkept : KeptByMethods env srv (KeepsDeals env c.wipes) c.wipes := ht.keptByMethods huse
  have := hkept.toQuietFrame
  cases hlocks : c.locks with
  | false =>
    have hdeals := (within_callback (ρ := Unit) hkept (A := anyExit) hlocks fun _ => id) t
    rw [hrun] at hdeals
    obtain ⟨hheld, hdeals⟩ := hdeals.1 hfree
    exact ⟨hheld, .deals hlocks hdeals⟩
  | true =>
    cases c with
    | create path mode fi =>
      refine davOpenCore_after ht huse hclear hfree (h := ⟨path, fi⟩) rfl (hkept.mknod path mode 0)
        (clears_davMknod env srv path mode 0) (fun res => ?_) hrun
      split_ifs with hres hwrites
      · exact .inr ⟨rfl, fun hzero => absurd hzero hres⟩
      · exact .inl ⟨hwrites, rfl⟩
      · exact .inr ⟨rfl, fun _ _ => by simpa using hwrites⟩
    | open_ path fi =>
      change (davOpen env srv path fi : Dav σ Unit ℤ) t = (.ok v, t') at hrun
      unfold davOpen at hrun
      split_ifs at hrun with hwrites
      · have htruncate : Ctl.Within (KeepsDeals env (Callback.open_ path fi).wipes) anyExit
            (openTruncate env srv path fi : Dav σ Unit ℤ) := by
          unfold openTruncate
          split_ifs with htrunc
          · exact hkept.truncate path 0 fun p hp => ⟨hwrites, htrunc, hp⟩
          · exact .pure 0
        refine davOpenCore_after ht huse hclear hfree (h := ⟨path, fi⟩) rfl htruncate
          (.ite (clears_davTruncate env srv path 0) (.pure 0)) (fun res => ?_) hrun
        split_ifs with hopen
        · exact .inl ⟨hwrites, rfl⟩
        · exact .inr ⟨rfl, fun hzero => absurd (.inl hzero) hopen⟩
      · obtain ⟨-, rfl⟩ := Prod.mk.inj hrun
        exact ⟨hfree, .unlocked (h := ⟨path, fi⟩) rfl .refl fun _ _ => by simpa using hwrites⟩
    | release path fi => exact davRelease_dealt ht huse hclear hfree hrun
    | _ => cases hlocks

end Callbacks

end NetworkFs.Dav
