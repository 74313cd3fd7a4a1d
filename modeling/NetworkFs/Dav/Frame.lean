import NetworkFs.Dav.Callbacks

/-!
# What no method touches

`Frame R`: `R` is kept by every change of the memory that leaves the holds and the
outside alone, and by raising or destroying an exception; a `QuietFrame` may look at the
lock table too; `Outside env R`: it is kept by
what the client asks of the outside besides requests; `Sends env R method`: it is kept
by the requests with that method. Every function of the client stays within an `R` that
has the two and `Sends` for the methods it uses, whatever the outside answers and
whichever way the function leaves; those that lock need an `R` that allows for the holds.

* `within_davLockCore`, `within_davUnlockCore`: the two requests of the lock table.
* `within_davHead`, ..., `within_davPropfind`: the methods that do not lock.
* `within_davMethod`, ..., `within_davUnlock`: those that do, for a `HeldFrame`.
-/

namespace NetworkFs.Dav

open Control Grammar Wrapper Text

variable {σ ρ α β : Type} (env : Env σ) (srv : DavServer)

/-- A preorder that looks only at the holds, at the outside, at the lock table and at
    whether an exception is caught. -/
class QuietFrame (R : Thread (Mem σ) → Thread (Mem σ) → Prop) : Prop
    extends Std.Refl R, IsTrans (Thread (Mem σ)) R where
  quiet : ∀ t m, m.held = t.mem.held → m.env = t.mem.env → m.table = t.mem.table →
    R t { t with mem := m }
  raise : ∀ t v, R t { t with ex := ⟨.raised, v⟩ }
  clear : ∀ t, R t { t with ex := .clear }

/-- A `QuietFrame` that does not look at the table. -/
class Frame (R : Thread (Mem σ) → Thread (Mem σ) → Prop) : Prop extends QuietFrame R where
  mem : ∀ t m, m.held = t.mem.held → m.env = t.mem.env → R t { t with mem := m }
  quiet := fun t m h he _ => mem t m h he

/-- A `Frame` that does not look at the holds. -/
class HeldFrame (R : Thread (Mem σ) → Thread (Mem σ) → Prop) : Prop extends Frame R where
  held : ∀ t m, m.env = t.mem.env → R t { t with mem := m }

/-- `R` is kept by what is asked of the outside besides requests. -/
class Outside (R : Thread (Mem σ) → Thread (Mem σ) → Prop) : Prop where
  alloc : ∀ a t, R t (atEnv t (env.alloc a t.mem.env).2)
  urlSet : ∀ path t, R t (atEnv t (env.urlSet path t.mem.env).2)
  urlGet : ∀ t, R t (atEnv t (env.urlGet t.mem.env).2)
  setopt : ∀ option t, R t (atEnv t (env.setopt option t.mem.env).2)
  unescape : ∀ text t, R t (atEnv t (env.unescape text t.mem.env).2)

/-- `R` is kept by the requests with `method`. -/
class Sends (R : Thread (Mem σ) → Thread (Mem σ) → Prop) (method : Method) : Prop where
  perform : ∀ request, request.method = method →
    ∀ t, R t (atEnv t (env.perform request t.mem.env).2)

/-- `R` does not look at the outside. -/
class OutsideFree (R : Thread (Mem σ) → Thread (Mem σ) → Prop) : Prop where
  env : ∀ t s, R t (atEnv t s)

instance (R : Thread (Mem σ) → Thread (Mem σ) → Prop) [OutsideFree R] : Outside env R where
  alloc _ t := OutsideFree.env t _
  urlSet _ t := OutsideFree.env t _
  urlGet t := OutsideFree.env t _
  setopt _ t := OutsideFree.env t _
  unescape _ t := OutsideFree.env t _

instance (R : Thread (Mem σ) → Thread (Mem σ) → Prop) [OutsideFree R] (method : Method) :
    Sends env R method where
  perform _ _ t := OutsideFree.env t _

section Frame

variable {R : Thread (Mem σ) → Thread (Mem σ) → Prop} [QuietFrame R] [Outside env R] {A : Exit ρ → Prop}

/-! ## Steps -/

omit [QuietFrame R] in
theorem within_outside {f : σ → α × σ} (h : ∀ t, R t (atEnv t (f t.mem.env).2)) :
    Ctl.Within R A (outside f : Dav σ ρ α) :=
  .ask h

omit [QuietFrame R] in
theorem within_alloc (a : Alloc) : Ctl.Within R A (outside (env.alloc a) : Dav σ ρ Bool) :=
  within_outside (Outside.alloc a)

theorem within_modifyQuiet {f : Mem σ → Mem σ}
    (h : ∀ m, (f m).held = m.held ∧ (f m).env = m.env ∧ (f m).table = m.table) :
    Ctl.Within R A (modifyMem f : Dav σ ρ Unit) :=
  .modify fun t => QuietFrame.quiet t _ (h t.mem).1 (h t.mem).2.1 (h t.mem).2.2

theorem within_raise (e : ExType) : Ctl.Within R A (raise e : Dav σ ρ Unit) :=
  .modify fun t => QuietFrame.raise t (some e)

theorem within_throw_raise [Ctl.MayBreak A] (e : ExType) : Ctl.Within R A (throw (raise e) : Dav σ ρ Unit) :=
  within_throw QuietFrame.raise (within_raise e)

theorem within_curlEasySetoptOrDie [Ctl.MayBreak A] (option : CurlOption) :
    Ctl.Within R A (curlEasySetoptOrDie env option : Dav σ ρ Unit) := by
  refine .bind (within_outside (Outside.setopt option)) fun r => ?_
  cases r with
  | none => exact .pure ()
  | some code => exact within_throw_raise _

omit [Outside env R] in
theorem within_curlEasyPerform (request : Request) [Sends env R request.method] :
    Ctl.Within R A (curlEasyPerform env request : Dav σ ρ Reply) :=
  .bind (within_modifyQuiet fun _ => ⟨rfl, rfl, rfl⟩) fun _ => within_outside (Sends.perform request rfl)

theorem within_performOrDie [Ctl.MayBreak A] (code : CurlCode) (status : ℕ) :
    Ctl.Within R A (performOrDie code status : Dav σ ρ Unit) :=
  within_conditionThrow QuietFrame.raise (within_raise _)

theorem within_curlSlistAppendWeak (list : List Header) (line : Header) :
    Ctl.Within R A (curlSlistAppendWeak env list line : Dav σ ρ (List Header)) :=
  .bind (within_alloc env _) fun _ => .ite (.pure _) (.pure _)

theorem within_curlSlistAppendE (list : List Header) (line : Header) :
    Ctl.Within R A (curlSlistAppendE env list line : Dav σ ρ (List Header)) :=
  .bind (within_alloc env _) fun _ => .ite (.pure _) (.bind (within_raise _) fun _ => .pure _)

theorem within_curlEasyUnescapeE (url : Text) :
    Ctl.Within R A (curlEasyUnescapeE env url : Dav σ ρ (Option Text)) := by
  refine .bind (within_outside (Outside.unescape url)) fun r => ?_
  cases r with
  | some s => exact .pure _
  | none => exact .bind (within_raise _) fun _ => .pure _

theorem within_curlUrlDupE : Ctl.Within R A (curlUrlDupE env : Dav σ ρ Unit) :=
  .bind (within_alloc env _) fun _ => .ite (.pure _) (within_raise _)

theorem within_curlUrlSetOrDie [Ctl.MayBreak A] (path : Path) :
    Ctl.Within R A (curlUrlSetOrDie env path : Dav σ ρ Unit) := by
  refine .bind (within_outside (Outside.urlSet path)) fun r => ?_
  cases r with
  | none => exact .pure ()
  | some code => exact within_throw_raise _

theorem within_curlUrlGetOrDie [Ctl.MayBreak A] :
    Ctl.Within R A (curlUrlGetOrDie env : Dav σ ρ Unit) := by
  refine .bind (within_outside Outside.urlGet) fun r => ?_
  cases r with
  | none => exact .pure ()
  | some code => exact within_throw_raise _

theorem within_setOptions [Ctl.MayBreak A] (os : List CurlOption) :
    Ctl.Within R A (setOptions env os : Dav σ ρ Unit) := by
  induction os with
  | nil => exact .pure ()
  | cons o os ih => exact .bind (within_curlEasySetoptOrDie env o) fun _ => ih

theorem within_curlEasyInitCommon (options : Opts) (path : Path) :
    Ctl.Within R A (curlEasyInitCommon env options path : Dav σ ρ Unit) := by
  have hurl : Ctl.Within R (Ctl.orBreak (Ctl.orBreak A)) (setUrl env : Dav σ ρ (Option Unit)) :=
    within_withSeperated (within_curlUrlGetOrDie env) (fun _ => .pure ())
      fun _ => within_curlEasySetoptOrDie env _
  have hscope : Ctl.Within R (Ctl.orBreak A) (initUrl env path : Dav σ ρ (Option Unit)) := by
    refine within_withSeperated (within_curlUrlDupE env) (fun _ => .pure ()) fun _ => ?_
    refine .bind (.ite (.pure ()) (within_curlUrlSetOrDie env _)) fun _ => ?_
    exact .bind (within_throwable hurl) fun _ => .pure ()
  refine .bind (within_tryOnerror ?_ (.pure ())) fun _ => .pure ()
  refine .bind (within_alloc env _) fun _ => ?_
  refine .bind (within_conditionThrow QuietFrame.raise (within_raise _)) fun _ => ?_
  exact .bind (within_throwable hscope) fun _ => within_setOptions env _

theorem within_withCurl (options : Opts) (path : Path) {body : Dav σ ρ α}
    (h : Ctl.Within R (Ctl.orBreak A) body) : Ctl.Within R A (withCurl env options path body) :=
  within_withSeperated (within_curlEasyInitCommon env options path) (fun _ => .pure ()) fun _ => h

theorem within_withBuffer {body : Dav σ ρ α} (h : Ctl.Within R (Ctl.orBreak A) body) :
    Ctl.Within R A (withBuffer body) :=
  within_withSeperated (.pure ()) (fun _ => .pure ()) fun _ => h

theorem within_scopeList (line : Header) {body : List Header → Dav σ ρ α}
    (h : ∀ list, Ctl.Within R (Ctl.orBreak A) (body list)) : Ctl.Within R A (scopeList env line body) :=
  within_withSeperated (within_curlSlistAppendE env [] line) (fun _ => .pure ()) h

theorem within_davHeaderDestination (list : List Header) (path : Path) :
    Ctl.Within R A (davHeaderDestination env list path : Dav σ ρ (List Header)) := by
  have hline : ∀ {A : Exit (List Header) → Prop}, Ctl.Within R A (destinationLine env list path) :=
    within_withSeperated (within_curlUrlGetOrDie env) (fun _ => .pure ()) fun _ =>
      within_throwable (within_curlSlistAppendE env _ _)
  have hscope : ∀ {A : Exit (List Header) → Prop}, Ctl.Within R A (destinationScope env list path) :=
    within_withSeperated (within_curlUrlDupE env) (fun _ => .pure ()) fun _ =>
      .bind (within_curlUrlSetOrDie env _) fun _ => within_throwable hline
  exact .call (.bind (within_tryOnerror (within_throwable hscope)
    (.leave (Ctl.MayReturn.ret []))) fun _ => .pure _)

theorem within_setAndPerform [Ctl.MayBreak A] (option : CurlOption) (request : Request)
    [Sends env R request.method] :
    Ctl.Within R A (setAndPerform env option request : Dav σ ρ Reply) :=
  .bind (within_curlEasySetoptOrDie env option) fun _ =>
    .bind (within_curlEasyPerform env request) fun _ =>
      .bind (within_performOrDie _ _) fun _ => .pure _

/-! ## `__dav_lock` and `__dav_unlock` -/

theorem within_foldlM {f : α → β → Dav σ ρ α} (h : ∀ a b, Ctl.Within R A (f a b)) (bs : List β) :
    ∀ a, Ctl.Within R A (bs.foldlM f a) := by
  induction bs with
  | nil => exact fun a => .pure a
  | cons b bs ih => exact fun a => .bind (h a b) fun a' => ih a'

theorem within_davLockCallback (token : Option Text) (line : Text) :
    Ctl.Within R A (davLockCallback env token line : Dav σ ρ (Option Text)) := by
  unfold davLockCallback
  split
  · refine .bind (within_alloc env _) fun _ => .ite (.pure _) ?_
    exact .bind (within_raise _) fun _ => .pure _
  · exact .pure _

theorem within_lockReply [Ctl.MayBreak A] [Ctl.MayFault A] (token : Option Text) (xml : Option XmlCtxt) :
    Ctl.Within R A (lockReply token xml : Dav σ ρ (Option Text)) := by
  have hround : ∀ token n, Ctl.Within R (Ctl.orBreak A) (lockRound token n : Dav σ ρ Unit) := by
    intro token n
    refine .ite ?_ (.pure ())
    split
    · exact within_throw_raise _
    · exact .bind (.deref _) fun _ => .ite (.pure ()) (within_throw_raise _)
  cases token with
  | none => exact .bind (within_throw_raise _) fun _ => .pure _
  | some token =>
    refine .bind (.deref _) fun ctxt => ?_
    cases ctxt with
    | malformed => exact .bind (within_throw_raise _) fun _ => .pure _
    | document root => exact .bind (.forEach (hround token) _) fun _ => .pure _

theorem within_lockScope [Sends env R .lock] (path : Path) :
    Ctl.Within R A (lockScope env path : Dav σ ρ _) := by
  refine within_scopeList env _ fun list => ?_
  refine .bind (within_curlSlistAppendWeak env _ _) fun list => ?_
  refine .bind (within_curlEasySetoptOrDie env _) fun _ => ?_
  refine .bind (within_curlEasyPerform env _) fun reply => ?_
  refine .bind (within_foldlM (within_davLockCallback env) _ _) fun token => ?_
  exact .bind (within_performOrDie _ _) fun _ => .pure _

theorem within_davLockCore [Sends env R .lock] [Ctl.MayFault A] (path : Path) :
    Ctl.Within R A (davLockCore env srv path : Dav σ ρ (Option Text)) := by
  have hbody : Ctl.Within R (Ctl.orBreak (Ctl.orBreak (Ctl.orBreak A)))
      (lockBody env srv path : Dav σ ρ (Option Text)) :=
    .bind (within_throwable (within_withCurl env _ _ (within_throwable (within_lockScope env path))))
      fun r => within_lockReply _ _
  refine .bind (within_tryOnerror (within_withBuffer (within_throwable
    (within_withBuffer hbody))) (.pure ())) fun token => ?_
  exact .bind (.gets _) fun _ => .ite (.pure _) (.pure _)

theorem within_davUnlockCore [Sends env R .unlock] (path : Path) (token : Text) :
    Ctl.Within R A (davUnlockCore env srv path token : Dav σ ρ ℤ) :=
  .bind (within_withCurl env _ _ (.bind (within_throwable (within_scopeList env _ fun _ =>
    within_setAndPerform env _ _)) fun _ => .pure ())) fun _ => .gets _

/-! ## The sections of `dav_lock` and `dav_unlock` -/

theorem within_mallocFileLock : Ctl.Within R A (mallocFileLock env : Dav σ ρ Unit) :=
  .bind (within_alloc env _) fun _ =>
    .ite (within_modifyQuiet fun _ => ⟨rfl, rfl, rfl⟩) (within_raise _)

theorem within_lockRollback [Sends env R .unlock] (path : Path) :
    Ctl.Within R A (lockRollback env srv path : Dav σ ρ Unit) := by
  refine .bind (.gets _) fun r => ?_
  cases r with
  | none => exact .pure ()
  | some token => exact .bind (within_davUnlockCore env srv path token) fun _ => .pure ()

/-! ## `dav_head`, `dav_get`, `dav_proppatch`, `dav_propfind` -/

theorem within_davHead [Sends env R .head] (path : Path) :
    Ctl.Within R A (davHead env srv path : Dav σ ρ (ℤ × ℕ)) :=
  .bind (within_withCurl env _ _ (.bind (within_setAndPerform env _ _) fun _ => .pure _))
    fun _ => .bind (.gets _) fun _ => .pure _

theorem within_setRange [Ctl.MayBreak A] : Ctl.Within R A (setRange env : Dav σ ρ Unit) :=
  .bind (within_throwable (within_withBuffer (within_curlEasySetoptOrDie env _))) fun _ => .pure ()

theorem within_getBody [Sends env R .get] [Ctl.MayBreak A] (path : Path) (data : Bytes) (offset : ℤ) :
    Ctl.Within R A (getBody env path data offset : Dav σ ρ Buffer) := by
  refine .bind (.ite (within_setRange env) (.pure ())) fun _ => ?_
  refine .bind (within_curlEasyPerform env _) fun reply => ?_
  exact .bind (within_performOrDie _ _).doOnce fun _ => .pure _

theorem within_davGet [Sends env R .get] (path : Path) (data : Bytes) (offset : ℤ) :
    Ctl.Within R A (davGet env srv path data offset : Dav σ ρ (ℤ × Bytes)) := by
  refine .bind (.gets _) fun _ => .bind (within_withBuffer ?_) fun _ => .pure _
  exact .bind (within_withCurl env _ _ (within_getBody env _ _ _)) fun _ =>
    .bind (.gets _) fun _ => .pure _

theorem within_davProppatch [Sends env R .proppatch] (path : Path) (key : XmlName) (value : Option Text) :
    Ctl.Within R A (davProppatch env srv path key value : Dav σ ρ ℤ) := by
  refine .bind (within_withBuffer ?_) fun _ => .gets _
  refine .bind (within_throwable (within_withCurl env _ _ ?_)) fun _ => .pure ()
  refine .bind (within_throwable (within_scopeList env _ fun _ => ?_)) fun _ => .pure ()
  refine .bind (within_curlSlistAppendWeak env _ _) fun _ => ?_
  exact .bind (within_setAndPerform env _ _) fun _ => .pure ()

section Propfind

variable {filler : Text → Stat → Dav σ ρ Unit}
  (hfiller : ∀ {A : Exit ρ → Prop} name st, Ctl.Within R A (filler name st))

include hfiller

theorem within_propfindEntry [Ctl.MayBreak A] [Ctl.MayFault A] (baseurl : Text) (href prop : Node) :
    Ctl.Within R A (propfindEntry env srv filler baseurl href prop : Dav σ ρ Unit) := by
  refine .bind (.gets _) fun _ => .bind (.deref _) fun st => .bind (.deref _) fun fullurl => ?_
  refine .ite (.bind (within_throwable ?_) fun _ => .pure ()) (.pure ())
  exact within_withSeperated (within_curlEasyUnescapeE env _) (fun _ => .pure ()) fun _ =>
    .bind (.deref _) fun _ => hfiller _ _

theorem within_propfindReply [Ctl.MayBreak A] [Ctl.MayFault A] (reply : Reply) :
    Ctl.Within R A (propfindReply env srv filler reply : Dav σ ρ Unit) := by
  have hresponse : ∀ baseurl response, Ctl.Within R (Ctl.orBreak A)
      (propfindResponse env srv filler baseurl response : Dav σ ρ Unit) := by
    intro baseurl response
    refine .ite (.bind (.deref _) fun scan => ?_) (.pure ())
    split
    · exact within_propfindEntry env srv hfiller _ _ _
    · exact within_throw_raise _
  refine .ite (.bind (.deref _) fun ctxt => ?_) .brk
  cases ctxt with
  | malformed => exact within_throw_raise _
  | document root => exact .forEach (hresponse _) _

omit hfiller in
theorem within_propfindScope [Sends env R .propfind] (path : Path) (depth : ℤ) :
    Ctl.Within R A (propfindScope env path depth : Dav σ ρ (Option Reply)) := by
  refine within_scopeList env _ fun _ => ?_
  refine .bind (within_curlSlistAppendWeak env _ _) fun _ => ?_
  exact .bind (within_curlSlistAppendWeak env _ _) fun _ => within_setAndPerform env _ _

theorem within_davPropfind [Sends env R .propfind] [Ctl.MayFault A] (path : Path) (depth : ℤ) :
    Ctl.Within R A (davPropfind env srv path depth filler : Dav σ ρ ℤ) := by
  refine .bind (within_withBuffer (within_withBuffer ?_)) fun _ => .gets _
  refine .bind (within_throwable (within_withCurl env _ _ ?_)) fun _ => .pure ()
  refine .bind (within_throwable (within_propfindScope env _ _)) fun _ => .bind (.deref _) fun reply => ?_
  exact within_propfindReply env srv hfiller reply

end Propfind

/-! ## `dav_getattr` -/

omit [Outside env R] in
theorem within_davGetattrCallback (name : Text) (st : Stat) :
    Ctl.Within R A (davGetattrCallback name st : Dav σ ρ Unit) :=
  within_modifyQuiet fun _ => ⟨rfl, rfl, rfl⟩

theorem within_davGetattr [Sends env R .propfind] [Ctl.MayFault A] (path : Path) (stbuf : Stat) :
    Ctl.Within R A (davGetattr env srv path stbuf : Dav σ ρ (ℤ × Stat)) := by
  refine .bind (within_modifyQuiet fun _ => ⟨rfl, rfl, rfl⟩) fun _ => ?_
  refine .bind (within_davPropfind env srv within_davGetattrCallback path 0) fun _ => ?_
  refine .bind (.bind (.gets _) fun _ => .ite ?_ (.pure _)) fun _ => .bind (.gets _) fun _ => .pure _
  exact .bind (.gets _) fun _ => .bind (.modify QuietFrame.clear) fun _ => .pure _

end Frame

/-! ## What changes the table -/

section Table

variable {R : Thread (Mem σ) → Thread (Mem σ) → Prop} [Frame R] [Outside env R] {A : Exit ρ → Prop}

omit [Outside env R] in
theorem within_modifyMem {f : Mem σ → Mem σ} (h : ∀ m, (f m).held = m.held ∧ (f m).env = m.env) :
    Ctl.Within R A (modifyMem f : Dav σ ρ Unit) :=
  .modify fun t => Frame.mem t _ (h t.mem).1 (h t.mem).2

theorem within_davHeaderIf (list : List Header) (path : Path) (lockType : LockType) :
    Ctl.Within R A (davHeaderIf env list path lockType : Dav σ ρ (List Header)) := by
  refine .bind (.gets _) fun r => ?_
  cases r with
  | none => exact .pure _
  | some filelock =>
    refine .bind (within_curlSlistAppendE env list _) fun l => .ite (.pure _) ?_
    exact .bind (.ite (within_modifyMem fun _ => ⟨rfl, rfl⟩) (.pure ())) fun _ => .pure _

theorem within_lockFind (path : Path) : Ctl.Within R A (lockFind path : Dav σ ρ Bool) := by
  refine .bind (.gets _) fun r => ?_
  cases r with
  | none => exact .pure _
  | some e => exact .bind (within_modifyMem fun _ => ⟨rfl, rfl⟩) fun _ => .pure _

theorem within_lockInsert [Sends env R .lock] [Ctl.MayBreak A] [Ctl.MayFault A] (path : Path) :
    Ctl.Within R A (lockInsert env srv path : Dav σ ρ Unit) := by
  refine .bind (.gets _) fun r => ?_
  cases r with
  | some e => exact .bind (within_modifyMem fun _ => ⟨rfl, rfl⟩) fun _ => .brk
  | none =>
    refine .bind (within_throwable (within_davLockCore env srv path)) fun token => ?_
    refine .bind (within_modifyMem fun _ => ⟨rfl, rfl⟩) fun _ => ?_
    exact .bind (within_alloc env _) fun _ =>
      .ite (within_modifyMem fun _ => ⟨rfl, rfl⟩) (within_throw_raise _)

theorem within_unlockDecrement [Ctl.MayBreak A] (path : Path) :
    Ctl.Within R A (unlockDecrement path : Dav σ ρ (Option FileLock)) := by
  refine .bind (.gets _) fun r => ?_
  cases r with
  | none => exact .bind (within_raise _) fun _ => .brk
  | some e => exact .bind (within_modifyMem fun _ => ⟨rfl, rfl⟩) fun _ => .pure _

theorem within_unlockRemove [Ctl.MayBreak A] (path : Path) (filelock : FileLock) :
    Ctl.Within R A (unlockRemove path filelock : Dav σ ρ FileLock) := by
  refine .bind (.gets _) fun r => ?_
  cases r with
  | none => exact .brk
  | some e => exact .ite (.bind (within_modifyMem fun _ => ⟨rfl, rfl⟩) fun _ => .pure _) (.pure _)

end Table

/-! ## The methods that lock -/

section HeldFrame

variable {R : Thread (Mem σ) → Thread (Mem σ) → Prop} [HeldFrame R] [Outside env R]
  {A : Exit ρ → Prop}

theorem within_rdlock [Ctl.MayFault A] : Ctl.Within R A (rdlock : Dav σ ρ Unit) :=
  .bind (.gets _) fun _ => .ite (.leave Ctl.MayFault.fault) (.modify fun t => HeldFrame.held t _ rfl)

theorem within_wrlock [Ctl.MayFault A] : Ctl.Within R A (wrlock : Dav σ ρ Unit) := by
  refine .bind (.gets _) fun held => ?_
  cases held with
  | nil => exact .modify fun t => HeldFrame.held t _ rfl
  | cons mode held => exact .leave Ctl.MayFault.fault

theorem within_unlock [Ctl.MayFault A] : Ctl.Within R A (unlock : Dav σ ρ Unit) := by
  refine .bind (.gets _) fun held => ?_
  cases held with
  | nil => exact .leave Ctl.MayFault.fault
  | cons mode held => exact .modify fun t => HeldFrame.held t _ rfl

theorem within_unlockIf [Ctl.MayFault A] (b : Bool) : Ctl.Within R A (unlockIf b : Dav σ ρ Unit) :=
  .ite within_unlock (.pure ())

theorem within_synchronized [Ctl.MayFault A] {action : Dav σ ρ Unit} {body : Dav σ ρ α}
    (ha : Ctl.Within R (Ctl.orBreak A) action) (hb : Ctl.Within R (Ctl.orBreak A) body) :
    Ctl.Within R A (synchronized action body) :=
  within_withTest ha (fun _ => within_unlock) fun _ => hb

theorem within_davMethod [Ctl.MayFault A] (path : Path) (method : Method) [Sends env R method]
    (lockType : LockType) :
    Ctl.Within R A (davMethod env srv path method lockType : Dav σ ρ ℤ) := by
  have hacquire : Ctl.Within R (Ctl.orBreak A) (acquire srv lockType : Dav σ ρ Unit) := by
    refine .ite ?_ (.pure ())
    cases lockType with
    | none => exact .pure ()
    | read => exact within_rdlock
    | write => exact within_wrlock
  have hscope : Ctl.Within R (Ctl.orBreak A)
      (methodScope env srv path method lockType : Dav σ ρ (Option Unit)) := by
    refine within_withBuffer ?_
    refine .bind (.ite (within_throwable (within_davHeaderIf env _ _ _)) (.pure _)) fun _ => ?_
    exact .bind (within_setAndPerform env _ _) fun _ => .pure ()
  refine .bind (within_withCurl env _ _ ?_) fun _ => .gets _
  exact .bind hacquire fun _ => .bind (within_throwable hscope) fun _ => within_unlockIf _

theorem within_rdlockHeaderIf [Ctl.MayBreak A] [Ctl.MayFault A] (list : List Header) (path : Path) :
    Ctl.Within R A (rdlockHeaderIf env srv list path : Dav σ ρ (List Header)) :=
  .ite (.bind within_rdlock fun _ => within_throwable (within_davHeaderIf env _ _ _)) (.pure _)

theorem within_davPut [Sends env R .put] [Ctl.MayFault A] (path : Path) (data : Bytes) (offset : ℤ) :
    Ctl.Within R A (davPut env srv path data offset : Dav σ ρ ℤ) := by
  have hscope : Ctl.Within R (Ctl.orBreak (Ctl.orBreak A))
      (putScope env srv path data offset : Dav σ ρ (Option Unit)) := by
    refine within_withBuffer (.bind (within_rdlockHeaderIf env srv _ _) fun _ => ?_)
    refine .bind (within_setRange env) fun _ => .bind (within_curlEasyPerform env _) fun _ => ?_
    exact .bind (within_performOrDie _ _) fun _ => within_unlockIf _
  refine .bind (within_withBuffer ?_) fun _ => .gets _
  refine .bind (within_throwable (within_withCurl env _ _ ?_)) fun _ => .pure ()
  exact .bind (within_throwable hscope) fun _ => .pure ()

theorem within_moveLockLines [Ctl.MayBreak A] [Ctl.MayFault A] (list : List Header)
    (from_ to_ : Path) : Ctl.Within R A (moveLockLines env srv list from_ to_ : Dav σ ρ _) := by
  have hfrom : Ctl.Within R A (moveFromLine env list from_ : Dav σ ρ (List Header)) := by
    refine .bind (.gets _) fun r => ?_
    cases r with
    | none => exact .pure _
    | some e =>
      exact .bind within_unlock fun _ => .bind within_wrlock fun _ =>
        within_throwable (within_davHeaderIf env _ _ _)
  exact .ite (.bind within_rdlock fun _ => .bind hfrom fun _ =>
    within_throwable (within_davHeaderIf env _ _ _)) (.pure _)

theorem within_davMoveCore [Sends env R .move] [Ctl.MayFault A] (from_ to_ : Path) (nooverwrite : Bool) :
    Ctl.Within R A (davMoveCore env srv from_ to_ nooverwrite : Dav σ ρ ℤ) := by
  refine .bind (within_withCurl env _ _ (.bind (within_throwable ?_) fun _ => .pure ()))
    fun _ => .gets _
  refine within_withBuffer ?_
  refine .bind (within_throwable (within_davHeaderDestination env _ _)) fun _ => ?_
  refine .bind (.ite (within_throwable (within_curlSlistAppendE env _ _)) (.pure _)) fun _ => ?_
  refine .bind (within_moveLockLines env srv _ _ _) fun _ => ?_
  refine .bind (within_setAndPerform env _ _) fun _ => ?_
  exact within_unlockIf _

theorem within_davCopy [Sends env R .copy] [Ctl.MayFault A] (from_ to_ : Path) :
    Ctl.Within R A (davCopy env srv from_ to_ : Dav σ ρ ℤ) := by
  refine .bind (within_withCurl env _ _ (.bind (within_throwable ?_) fun _ => .pure ()))
    fun _ => .gets _
  refine within_withBuffer ?_
  refine .bind (within_throwable (within_davHeaderDestination env _ _)) fun _ => ?_
  refine .bind (within_rdlockHeaderIf env srv _ _) fun _ => ?_
  exact .bind (within_setAndPerform env _ _) fun _ => within_unlockIf _

theorem within_lockCreate [Sends env R .lock] [Sends env R .unlock] [Ctl.MayBreak A] [Ctl.MayFault A]
    (path : Path) :
    Ctl.Within R A (lockCreate env srv path : Dav σ ρ Unit) := by
  refine .bind (within_throwable (within_mallocFileLock env)) fun _ => ?_
  refine .bind (within_tryOnerror ?_ (within_lockRollback env srv path)) fun _ => .pure ()
  refine .bind (within_alloc env _) fun dup => ?_
  refine .bind (within_conditionThrow QuietFrame.raise (within_raise _)) fun _ => ?_
  exact .bind (within_throwable (within_synchronized within_wrlock
    (within_lockInsert env srv path))) fun _ => .pure ()

theorem within_davLock [Sends env R .lock] [Sends env R .unlock] [Ctl.MayFault A] (path : Path) :
    Ctl.Within R A (davLock env srv path : Dav σ ρ ℤ) := by
  refine .ite (.bind (within_synchronized within_rdlock (within_lockFind path)) fun found => ?_)
    (.pure _)
  exact .ite (.pure _) (.bind (within_tryOnerror (within_lockCreate env srv path) (.pure ()))
    fun _ => .gets _)

theorem within_davUnlock [Sends env R .unlock] [Ctl.MayFault A] (path : Path) :
    Ctl.Within R A (davUnlock env srv path : Dav σ ρ ℤ) := by
  refine .ite (.bind (within_synchronized within_rdlock (within_unlockDecrement path)) fun r => ?_)
    (.pure _)
  rcases r with _ | _ | filelock
  · exact .pure _
  · exact .pure _
  · exact .bind (within_synchronized within_wrlock (within_unlockRemove path filelock)) fun _ =>
      within_davUnlockCore env srv _ _

/-! ## Callbacks -/

theorem within_davExceptionMap : Ctl.Within R A (davExceptionMap : Dav σ ρ ℤ) :=
  .bind (.gets _) fun _ => .bind (.modify QuietFrame.clear) fun _ => .pure _

theorem within_davExceptionCheck (res : ℤ) : Ctl.Within R A (davExceptionCheck res : Dav σ ρ ℤ) :=
  .bind (.gets _) fun _ => .ite within_davExceptionMap (.pure _)

theorem within_davChmod [Sends env R .proppatch] (path : Path) (mode : ℕ) :
    Ctl.Within R A (davChmod env srv path mode : Dav σ ρ ℤ) :=
  .bind (within_davProppatch env srv _ _ _) fun _ => within_davExceptionCheck 0

theorem within_davUnlink [Sends env R .delete] [Ctl.MayFault A] (path : Path) :
    Ctl.Within R A (davUnlink env srv path : Dav σ ρ ℤ) :=
  .bind (within_davMethod env srv _ _ _) fun _ => within_davExceptionCheck 0

theorem within_davWrite [Sends env R .put] [Sends env R .head] [Ctl.MayFault A] (path : Path)
    (buf : Bytes) (offset : ℤ) :
    Ctl.Within R A (davWrite env srv path buf offset : Dav σ ρ ℤ) := by
  have hpadded : Ctl.Within R A (writePadded env srv path buf offset : Dav σ ρ ℤ) := by
    refine .bind (.modify QuietFrame.clear) fun _ => .bind (within_davHead env srv path) fun head => ?_
    refine .ite (.pure _) (.bind (.ite (within_davPut env srv _ _ _) (.pure _)) fun _ => ?_)
    exact .ite (.pure _) (within_davPut env srv _ _ _)
  refine .bind (.bind (within_davPut env srv _ _ _) fun _ => .ite (.pure _) ?_) fun _ => ?_
  · exact .bind (.gets _) fun _ => .ite hpadded (.pure _)
  · exact .ite within_davExceptionMap (.pure _)

end HeldFrame

end NetworkFs.Dav
