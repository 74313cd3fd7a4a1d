import NetworkFs.Dav.LockBalance

/-!
# Tokens sent and entries removed

A request that modifies a locked path has to carry its token. `__dav_header_if` builds
that line, and for `DELETE` and `MOVE` takes the entry out of the table at once, before
the request is sent.

* `Leaves m t Q`: what `m` has sent and left in the table when it stops, whichever way
  it leaves.
* `submits_iff`: all methods but `dav_proppatch` submit the tokens of what they modify.
* `failure_keeps_table_iff`: when a `DELETE` or `MOVE` that fails leaves the table alone.
-/

namespace NetworkFs.Dav

open Control Grammar Wrapper Text

variable {σ ρ α β : Type} (env : Env σ) (srv : DavServer)

/-! ## What is left behind -/

/-- When `m` stops, the requests sent and the table satisfy `Q`. -/
def Leaves (m : Dav σ ρ α) (t : Thread (Mem σ)) (Q : List Request → List FileLock → Prop) : Prop :=
  Q (m t).2.mem.sent (m t).2.mem.table

section Leaves

variable {t : Thread (Mem σ)} {Q : List Request → List FileLock → Prop}

theorem Leaves.of_eq {m : Dav σ ρ α} {r : Except (Exit ρ) α} {t' : Thread (Mem σ)}
    (h : m t = (r, t')) (hQ : Q t'.mem.sent t'.mem.table) : Leaves m t Q := by
  rw [Leaves, h]
  exact hQ

theorem Leaves.step {m : Dav σ ρ α} {f : α → Dav σ ρ β} {a : α} {t' : Thread (Mem σ)}
    (hm : m t = (.ok a, t')) (hf : Leaves (f a) t' Q) : Leaves (m >>= f) t Q := by
  rw [Leaves, Ctl.bind_ok hm]
  exact hf

theorem Leaves.stop {m : Dav σ ρ α} {f : α → Dav σ ρ β} {e : Exit ρ} {t' : Thread (Mem σ)}
    (hm : m t = (.error e, t')) (hQ : Q t'.mem.sent t'.mem.table) : Leaves (m >>= f) t Q :=
  .of_eq (Ctl.bind_error hm) hQ

/-- What follows sends nothing and leaves the table alone. -/
theorem Leaves.bind {m : Dav σ ρ α} {f : α → Dav σ ρ β} (hm : Leaves m t Q)
    (hf : ∀ a t', (f a t').2.mem.sent = t'.mem.sent ∧ (f a t').2.mem.table = t'.mem.table) :
    Leaves (m >>= f) t Q := by
  unfold Leaves at hm ⊢
  rw [Ctl.bind_apply]
  rcases hmt : m t with ⟨e | a, t'⟩
  · rwa [hmt] at hm
  · rw [hmt] at hm
    show Q (f a t').2.mem.sent (f a t').2.mem.table
    rwa [(hf a t').1, (hf a t').2]

theorem Leaves.doOnce {m : Dav σ ρ α} (hm : Leaves m t Q) : Leaves (Ctl.doOnce m) t Q := by
  unfold Leaves at hm ⊢
  rcases hmt : m t with ⟨(_ | v | _) | a, t'⟩ <;> rw [hmt] at hm
  · rwa [Ctl.doOnce_brk hmt]
  · rwa [Ctl.doOnce_ret hmt]
  · rwa [Ctl.doOnce_fault hmt]
  · rwa [Ctl.doOnce_ok hmt]

theorem Leaves.throwable {m : Dav σ ρ α} (hm : Leaves m t Q) : Leaves (throwable m) t Q := by
  refine Leaves.bind hm fun a t' => ?_
  cases h : t'.ex.has with
  | false =>
    rw [Ctl.bind_ok (check_clean h)]
    exact ⟨rfl, rfl⟩
  | true =>
    rw [Ctl.bind_error (check_pending h)]
    exact ⟨rfl, rfl⟩

/-- A step that makes the attempt `p`, before the rest. -/
theorem Leaves.of_breaks {m : Dav σ ρ α} {f : α → Dav σ ρ β} {a : α} {p : Attempt σ}
    (hm : Breaks m a p) (h : t.ex.has = false)
    (hfail : (p t.mem.env).1 = false → Q t.mem.sent t.mem.table)
    (hf : (p t.mem.env).1 = true → Leaves (f a) (atEnv t (p t.mem.env).2) Q) :
    Leaves (m >>= f) t Q := by
  cases hp : (p t.mem.env).1 with
  | true => exact .step ((hm t h).1 hp) (hf hp)
  | false =>
    obtain ⟨e, he⟩ := (hm t h).2 hp
    exact .stop he (hfail hp)

/-- The `If` header, before the rest. -/
theorem Leaves.headerIf {f : List Header → Dav σ ρ β} {list : List Header} {path : Path}
    {lockType : LockType} (h : t.ex.has = false)
    (hfail : (ifAttempt env path t.mem.table t.mem.env).1 = false → Q t.mem.sent t.mem.table)
    (hf : (ifAttempt env path t.mem.table t.mem.env).1 = true →
      Leaves (f (list ++ ifLines path t.mem.table)) (unlisted path lockType
        (atEnv t (ifAttempt env path t.mem.table t.mem.env).2)) Q) :
    Leaves (Grammar.throwable (davHeaderIf env list path lockType) >>= f) t Q := by
  cases hp : (ifAttempt env path t.mem.table t.mem.env).1 with
  | true => exact .step (headerIf_pass env lockType h hp) (hf hp)
  | false => exact .stop (headerIf_fail env list lockType hp) (hfail hp)

/-- The request itself. -/
theorem leaves_performChecked (request : Request)
    (hQ : Q (t.mem.sent ++ [request]) t.mem.table) :
    Leaves (performChecked env request : Dav σ ρ Reply) t Q := by
  by_cases hc : (env.perform request t.mem.env).1.code = .ok
  · exact .of_eq (performChecked_ok env hc) hQ
  · exact .of_eq (performChecked_error env hc) hQ

theorem leaves_setAndPerform (option : CurlOption) (request : Request) (h : t.ex.has = false)
    (hQ : Q t.mem.sent t.mem.table) (hsent : Q (t.mem.sent ++ [request]) t.mem.table) :
    Leaves (setAndPerform env option request : Dav σ ρ Reply) t Q :=
  Leaves.of_breaks (breaks_curlEasySetoptOrDie env option) h (fun _ => hQ) fun _ =>
    leaves_performChecked env request hsent

/-- With an exception pending a `with_curl` does nothing. -/
theorem Leaves.withCurl (options : Opts) (path : Path) {body : Dav σ ρ α}
    (hfail : ¬(t.ex.has = false ∧ (initAttempt env options path t.mem.env).1 = true) →
      Q t.mem.sent t.mem.table)
    (hbody : t.ex.has = false → (initAttempt env options path t.mem.env).1 = true →
      Leaves body (atEnv t (initAttempt env options path t.mem.env).2) Q) :
    Leaves (Wrapper.withCurl env options path body) t Q := by
  cases h : t.ex.has with
  | true =>
    obtain ⟨s, e, -, hw⟩ := withCurl_pending env body h
    exact .of_eq hw (hfail (by simp [h]))
  | false =>
    cases hp : (initAttempt env options path t.mem.env).1 with
    | false =>
      obtain ⟨e, hw⟩ := withCurl_failed env body h hp
      exact .of_eq hw (hfail (by simp [hp]))
    | true =>
      rw [Leaves, withCurl_entered env h hp]
      exact (hbody h hp).doOnce

theorem Leaves.withBuffer {body : Dav σ ρ α} (h : t.ex.has = false) (hbody : Leaves body t Q) :
    Leaves (Dav.withBuffer body) t Q := by
  rw [Leaves, withBuffer_clean h]
  exact hbody.doOnce

theorem Leaves.scopeList {line : Header} {body : List Header → Dav σ ρ α} (h : t.ex.has = false)
    (hfail : (env.alloc .slist t.mem.env).1 = false → Q t.mem.sent t.mem.table)
    (hbody : (env.alloc .slist t.mem.env).1 = true →
      Leaves (body [line]) (atEnv t (env.alloc .slist t.mem.env).2) Q) :
    Leaves (Dav.scopeList env line body) t Q := by
  have happend := raises_curlSlistAppendE (ρ := ρ) env [] line t h
  cases hp : (env.alloc .slist t.mem.env).1 with
  | true =>
    have henter : Dav.scopeList env line body t =
        Ctl.doOnce (body [line]) (atEnv t (env.alloc .slist t.mem.env).2) :=
      withSeperated_entered (happend.1 hp) h
    rw [Leaves, henter]
    exact (hbody hp).doOnce
  | false =>
    obtain ⟨_, e, ha⟩ := happend.2 hp
    exact .of_eq (withTest_skip ha rfl rfl) (hfail hp)

theorem Leaves.bind_unit {m : Dav σ ρ α} (hm : Leaves m t Q) :
    Leaves (m >>= fun _ => pure ()) t Q :=
  hm.bind fun _ _ => ⟨rfl, rfl⟩

theorem Leaves.testSuccess {m : Dav σ ρ α} (hm : Leaves m t Q) :
    Leaves (m >>= fun _ => Grammar.testSuccess) t Q :=
  hm.bind fun _ _ => ⟨rfl, rfl⟩

theorem Leaves.unlockIf {m : Dav σ ρ α} (hm : Leaves m t Q) (b : Bool) :
    Leaves (m >>= fun _ => Dav.unlockIf b) t Q := by
  refine hm.bind fun _ t' => ?_
  cases b with
  | false => exact ⟨rfl, rfl⟩
  | true =>
    cases hheld : t'.mem.held with
    | nil =>
      have hrun : (unlock : Dav σ ρ Unit) t' = (.error .fault, t') := by
        rw [unlock, Ctl.bind_ok (Ctl.gets_apply _ _), hheld]
        rfl
      show (unlock t').2.mem.sent = _ ∧ (unlock t').2.mem.table = _
      rw [hrun]
      exact ⟨rfl, rfl⟩
    | cons mode held =>
      show (unlock t').2.mem.sent = _ ∧ (unlock t').2.mem.table = _
      rw [unlock_apply hheld]
      exact ⟨rfl, rfl⟩

theorem leaves_perform_unlock (request : Request) (b : Bool)
    (hQ : Q (t.mem.sent ++ [request]) t.mem.table) :
    Leaves (do
      let reply ← curlEasyPerform env request
      performOrDie reply.code reply.status
      Dav.unlockIf b : Dav σ ρ Unit) t Q := by
  have hleaves := (leaves_performChecked (ρ := ρ) env request hQ).unlockIf b
  simpa only [performChecked, bind_assoc, pure_bind] using hleaves

/-- The lock for reading, before the rest. -/
theorem Leaves.rdlock {f : Unit → Dav σ ρ β}
    (hfail : t.mem.held.contains .wr = true → Q t.mem.sent t.mem.table)
    (hf : t.mem.held.contains .wr = false → Leaves (f ()) (hold .rd t) Q) :
    Leaves (NetworkFs.rdlock >>= f) t Q := by
  cases hw : t.mem.held.contains .wr with
  | true => exact .stop (rdlock_stuck hw) (hfail hw)
  | false => exact .step (rdlock_apply hw) (hf hw)

/-- The lock for writing, before the rest. -/
theorem Leaves.wrlock {f : Unit → Dav σ ρ β}
    (hfail : t.mem.held ≠ [] → Q t.mem.sent t.mem.table)
    (hf : t.mem.held = [] → Leaves (f ()) (hold .wr t) Q) : Leaves (NetworkFs.wrlock >>= f) t Q := by
  by_cases hheld : t.mem.held = []
  · exact .step (wrlock_apply hheld) (hf hheld)
  · exact .stop (wrlock_stuck hheld) (hfail hheld)

end Leaves

/-! ## What each method leaves behind -/

/-- The lock can be had for `lockType`: a thread does not wait for itself. -/
def Free (lockType : LockType) (t : Thread (Mem σ)) : Prop :=
  if lockType = .write then t.mem.held = [] else t.mem.held.contains .wr = false

section Methods

variable {t : Thread (Mem σ)} {Q : List Request → List FileLock → Prop}
  (hlock : srv.options.useLock = true)

include hlock

theorem leaves_davMethod (path : Path) (method : Method) {lockType : LockType}
    (hl : lockType ≠ .none)
    (hnot : ¬(t.ex.has = false ∧ Free lockType t ∧
      ((initAttempt env srv.options path).andThen (ifAttempt env path t.mem.table) t.mem.env).1 =
        true) → Q t.mem.sent t.mem.table)
    (hif : t.ex.has = false → Free lockType t →
      ((initAttempt env srv.options path).andThen (ifAttempt env path t.mem.table) t.mem.env).1 =
        true → Q t.mem.sent (unlisted path lockType t).mem.table ∧
      Q (t.mem.sent ++ [⟨method, path, ifLines path t.mem.table, none, .none⟩])
        (unlisted path lockType t).mem.table) :
    Leaves (davMethod env srv path method lockType : Dav σ ρ ℤ) t Q := by
  have hu : usesLock srv lockType = true := by simp [usesLock, hlock, hl]
  refine Leaves.testSuccess (Leaves.withCurl env _ _ (fun hn => hnot fun hall => hn ⟨hall.1,
    (Attempt.andThen_fst.mp hall.2.2).1⟩) fun h hp => ?_)
  have hscope : ∀ mode, Free lockType t → Leaves (do
      let _ ← throwable (methodScope env srv path method lockType)
      unlockIf (usesLock srv lockType) : Dav σ ρ Unit)
      (hold mode (atEnv t (initAttempt env srv.options path t.mem.env).2)) Q := by
    intro mode hfree
    have hclean : (hold mode (atEnv t (initAttempt env srv.options path t.mem.env).2)).ex.has =
        false := h
    refine Leaves.unlockIf (Leaves.throwable (Leaves.withBuffer hclean ?_)) _
    simp only [headerIfWhen, hu, if_true]
    refine Leaves.headerIf env hclean (fun hi => hnot fun hall => ?_) fun hi => ?_
    · exact Bool.false_ne_true (hi.symm.trans (Attempt.andThen_fst.mp hall.2.2).2)
    · obtain ⟨hstay, hsent⟩ := hif h hfree (Attempt.andThen_fst.mpr ⟨hp, hi⟩)
      exact Leaves.bind_unit (leaves_setAndPerform env _ _ hclean hstay hsent)
  unfold acquire
  rw [if_pos hu]
  cases lockType with
  | none => exact absurd rfl hl
  | read =>
    exact Leaves.rdlock (fun hw => hnot fun hall => Bool.false_ne_true (hall.2.1.symm.trans hw))
      fun hw => hscope .rd hw
  | write => exact Leaves.wrlock (fun hw => hnot fun hall => hw hall.2.1) fun hw => hscope .wr hw

theorem leaves_davPut (hQ : Q t.mem.sent t.mem.table) (path : Path) (data : Bytes) (offset : ℤ)
    (hsent : Q (t.mem.sent ++ [⟨.put, path, ifLines path t.mem.table, some ⟨offset, data.length⟩,
      .data data⟩]) t.mem.table) :
    Leaves (davPut env srv path data offset : Dav σ ρ ℤ) t Q := by
  refine Leaves.testSuccess ?_
  cases h : t.ex.has with
  | true => exact .of_eq (withBuffer_pending h) hQ
  | false =>
    refine Leaves.withBuffer h (Leaves.bind_unit (Leaves.throwable ?_))
    refine Leaves.withCurl env _ _ (fun _ => hQ) fun _ _ => Leaves.bind_unit (Leaves.throwable ?_)
    refine Leaves.withBuffer h ?_
    simp only [rdlockHeaderIf, hlock, if_true, bind_assoc]
    refine Leaves.rdlock (fun _ => hQ) fun _ => Leaves.headerIf env h (fun _ => hQ) fun _ => ?_
    refine Leaves.of_breaks (breaks_setRange env) h (fun _ => hQ) fun _ => ?_
    exact leaves_perform_unlock env _ true hsent

theorem leaves_davCopy (hQ : Q t.mem.sent t.mem.table) (from_ to_ : Path)
    (hsent : Q (t.mem.sent ++ [⟨.copy, from_, .destination to_ :: ifLines to_ t.mem.table, none,
      .none⟩]) t.mem.table) : Leaves (davCopy env srv from_ to_ : Dav σ ρ ℤ) t Q := by
  refine Leaves.testSuccess (Leaves.withCurl env _ _ (fun _ => hQ) fun h _ => ?_)
  refine Leaves.bind_unit (Leaves.throwable (Leaves.withBuffer h ?_))
  refine Leaves.of_breaks (raises_davHeaderDestination env [] to_).throwable h (fun _ => hQ) fun _ => ?_
  simp only [rdlockHeaderIf, hlock, if_true, bind_assoc]
  refine Leaves.rdlock (fun _ => hQ) fun _ => Leaves.headerIf env h (fun _ => hQ) fun _ => ?_
  refine Leaves.unlockIf (leaves_setAndPerform env _ _ ?_ ?_ ?_) true
  exacts [h, hQ, hsent]

/-- The part of `__dav_move` that takes the lock: with the lock for writing, which only a
    thread without a hold gets, it takes the entry of `from` out. -/
theorem leaves_moveLocked (from_ to_ : Path) (list : List Header) (h : t.ex.has = false)
    (hnot : ¬(t.mem.held = [] ∧ (ifAttempt env from_ t.mem.table t.mem.env).1 = true) →
      Q t.mem.sent t.mem.table)
    (hif : (tfind from_ t.mem.table = none ∨ t.mem.held = []) →
      (ifAttempt env from_ t.mem.table t.mem.env).1 = true →
      Q t.mem.sent (tdelete from_ t.mem.table) ∧
      Q (t.mem.sent ++ [⟨.move, from_, list ++ ifLines from_ t.mem.table ++
        ifLines to_ (tdelete from_ t.mem.table), none, .none⟩]) (tdelete from_ t.mem.table)) :
    Leaves (do
      let list ← moveLockLines env srv list from_ to_
      let _ ← setAndPerform env .customrequest ⟨.move, from_, list, none, .none⟩
      unlockIf srv.options.useLock : Dav σ ρ Unit) t Q := by
  simp only [moveLockLines, hlock, if_true, bind_assoc]
  refine Leaves.rdlock (fun hw => hnot fun hall => ?_) fun _ => ?_
  · rw [hall.1] at hw
    cases hw
  cases hf : tfind from_ t.mem.table with
  | none =>
    have hline : (moveFromLine env list from_ : Dav σ ρ (List Header)) (hold .rd t) =
        (.ok list, hold .rd t) := by
      simp [moveFromLine, Ctl.bind_apply, hf]
    obtain ⟨hQ, hsent⟩ := hif (.inl hf) (by simp [ifAttempt, hf])
    have hnone : ifLines from_ t.mem.table = [] := by simp [ifLines, hf]
    rw [tdelete_of_absent hf] at hQ
    rw [tdelete_of_absent hf, hnone, List.append_nil] at hsent
    refine Leaves.step hline (Leaves.headerIf env h (fun _ => hQ) fun _ => ?_)
    refine Leaves.unlockIf (leaves_setAndPerform env _ _ ?_ ?_ ?_) true
    exacts [h, hQ, hsent]
  | some e =>
    have hline : (moveFromLine env list from_ : Dav σ ρ (List Header)) (hold .rd t) =
        (wrlock >>= fun _ => throwable (davHeaderIf env list from_ .write)) t := by
      rw [moveFromLine, Ctl.bind_ok (Ctl.gets_apply _ _), hold_table, hf]
      show (unlock >>= fun _ => wrlock >>= fun _ => _) _ = _
      rw [Ctl.bind_ok (unlock_apply (hold_held .rd t)), release_hold]
    rw [Leaves, Ctl.bind_congr hline, bind_assoc]
    refine Leaves.wrlock (fun hheld => hnot fun hall => hheld hall.1) fun hheld => ?_
    refine Leaves.headerIf env h (fun hi => hnot fun hall => ?_) fun hi => ?_
    · exact Bool.false_ne_true (hi.symm.trans hall.2)
    obtain ⟨hstay, hsent⟩ := hif (.inr hheld) hi
    refine Leaves.headerIf env h (fun _ => hstay) fun _ => ?_
    refine Leaves.unlockIf (leaves_setAndPerform env _ _ ?_ ?_ ?_) true
    exacts [h, hstay, hsent]

theorem leaves_davMoveCore (from_ to_ : Path) (nooverwrite : Bool)
    (hnot : ¬(t.ex.has = false ∧ t.mem.held = [] ∧ ((moveBefore env srv from_ to_ nooverwrite).andThen
      (ifAttempt env from_ t.mem.table) t.mem.env).1 = true) → Q t.mem.sent t.mem.table)
    (hif : t.ex.has = false → (tfind from_ t.mem.table = none ∨ t.mem.held = []) →
      ((moveBefore env srv from_ to_ nooverwrite).andThen (ifAttempt env from_ t.mem.table)
        t.mem.env).1 = true → Q t.mem.sent (tdelete from_ t.mem.table) ∧
      Q (t.mem.sent ++ [⟨.move, from_, moveLines to_ nooverwrite ++ ifLines from_ t.mem.table ++
        ifLines to_ (tdelete from_ t.mem.table), none, .none⟩]) (tdelete from_ t.mem.table)) :
    Leaves (davMoveCore env srv from_ to_ nooverwrite : Dav σ ρ ℤ) t Q := by
  have hparts : ((moveBefore env srv from_ to_ nooverwrite).andThen (ifAttempt env from_ t.mem.table)
      t.mem.env).1 = true → (initAttempt env srv.options from_ t.mem.env).1 = true ∧
      (destinationAttempt env to_ (initAttempt env srv.options from_ t.mem.env).2).1 = true ∧
      (overwriteAttempt env nooverwrite (destinationAttempt env to_
        (initAttempt env srv.options from_ t.mem.env).2).2).1 = true := by
    intro hall
    obtain ⟨hp, hrest⟩ := Attempt.andThen_fst.mp (Attempt.andThen_fst.mp hall).1
    exact ⟨hp, Attempt.andThen_fst.mp hrest⟩
  refine Leaves.testSuccess (Leaves.withCurl env _ _ (fun hn => hnot fun hall => hn ⟨hall.1,
    (hparts hall.2.2).1⟩) fun h hp => ?_)
  refine Leaves.bind_unit (Leaves.throwable (Leaves.withBuffer h ?_))
  refine Leaves.of_breaks (raises_davHeaderDestination env [] to_).throwable h
    (fun hd => hnot fun hall => Bool.false_ne_true (hd.symm.trans (hparts hall.2.2).2.1)) fun hd => ?_
  have hd' : (destinationAttempt env to_ (initAttempt env srv.options from_ t.mem.env).2).1 = true :=
    hd
  refine Leaves.of_breaks (breaks_overwriteLine env nooverwrite _) h
    (fun ho => hnot fun hall => Bool.false_ne_true (ho.symm.trans (hparts hall.2.2).2.2)) fun ho => ?_
  have hbefore : (moveBefore env srv from_ to_ nooverwrite t.mem.env).2 =
      (overwriteAttempt env nooverwrite (destinationAttempt env to_
        (initAttempt env srv.options from_ t.mem.env).2).2).2 := by
    rw [moveBefore, Attempt.andThen_of_pass hp, Attempt.andThen_of_pass hd']
  have hpo : (moveBefore env srv from_ to_ nooverwrite t.mem.env).1 = true :=
    Attempt.andThen_fst.mpr ⟨hp, Attempt.andThen_fst.mpr ⟨hd, ho⟩⟩
  refine leaves_moveLocked env srv hlock from_ to_ _ h (fun hn => hnot fun hall => hn ?_)
    fun hfree hi => hif h hfree ?_
  · refine ⟨hall.2.1, ?_⟩
    have hi := (Attempt.andThen_fst.mp hall.2.2).2
    rwa [hbefore] at hi
  · refine Attempt.andThen_fst.mpr ⟨hpo, ?_⟩
    rw [hbefore]
    exact hi

end Methods

/-! ## `dav_proppatch` -/

/-- `curl_slist_append_weak` goes on either way. -/
def weakAttempt : Attempt σ := fun s => (true, (env.alloc .slist s).2)

/-- What `dav_proppatch` attempts before it sends its request. -/
def proppatchBefore (path : Path) : Attempt σ :=
  (initAttempt env srv.options path).andThen ((env.alloc .slist).andThen
    ((weakAttempt env).andThen (noError (env.setopt .customrequest))))

/-- The list has no `If` line. -/
def Tokenless (list : List Header) : Prop := ∀ token, .ifToken token ∉ list

section Proppatch

variable {t : Thread (Mem σ)} {Q : List Request → List FileLock → Prop} (path : Path)
  (key : XmlName) (value : Option Text)

theorem curlSlistAppendWeak_tokenless (t : Thread (Mem σ)) :
    ∃ list, Tokenless list ∧ (curlSlistAppendWeak env [.contentTypeXml] .preferMinimal :
      Dav σ ρ (List Header)) t = (.ok list, atEnv t (weakAttempt env t.mem.env).2) := by
  cases hp : (env.alloc .slist t.mem.env).1 with
  | true =>
    refine ⟨[.contentTypeXml, .preferMinimal], fun token => by simp, ?_⟩
    simp [curlSlistAppendWeak, Ctl.bind_apply, hp, weakAttempt]
  | false =>
    refine ⟨[.contentTypeXml], fun token => by simp, ?_⟩
    simp [curlSlistAppendWeak, Ctl.bind_apply, hp, weakAttempt]

/-- The request is sent when everything before it passes, and never with a token. -/
theorem leaves_davProppatch
    (hnot : ¬(t.ex.has = false ∧ (proppatchBefore env srv path t.mem.env).1 = true) →
      Q t.mem.sent t.mem.table)
    (hsent : ∀ list, Tokenless list → t.ex.has = false →
      (proppatchBefore env srv path t.mem.env).1 = true →
      Q (t.mem.sent ++ [⟨.proppatch, path, list, none, .propertyupdate key value⟩]) t.mem.table) :
    Leaves (davProppatch env srv path key value : Dav σ ρ ℤ) t Q := by
  refine Leaves.testSuccess ?_
  cases h : t.ex.has with
  | true => exact .of_eq (withBuffer_pending h) (hnot (by simp [h]))
  | false =>
    rw [h] at hnot hsent
    simp only [true_and, forall_const, proppatchBefore, Attempt.andThen_fst] at hnot hsent
    refine Leaves.withBuffer h (Leaves.bind_unit (Leaves.throwable ?_))
    refine Leaves.withCurl env _ _ (fun hn => hnot fun hall => hn ⟨h, hall.1⟩) fun _ hp => ?_
    refine Leaves.bind_unit (Leaves.throwable (Leaves.scopeList env h ?_ fun ha => ?_))
    · exact fun ha => hnot fun hall => Bool.false_ne_true (ha.symm.trans hall.2.1)
    · obtain ⟨list, hlist, hweak⟩ := curlSlistAppendWeak_tokenless (ρ := ρ) env
        (atEnv (atEnv t (initAttempt env srv.options path t.mem.env).2)
          (env.alloc .slist (initAttempt env srv.options path t.mem.env).2).2)
      refine Leaves.step hweak (Leaves.bind_unit ?_)
      refine Leaves.of_breaks (breaks_curlEasySetoptOrDie env .customrequest) h ?_ fun hs => ?_
      · exact fun hs => hnot fun hall => Bool.false_ne_true (hs.symm.trans hall.2.2.2)
      · exact leaves_performChecked env _ (hsent list hlist ⟨hp, ha, rfl, hs⟩)

end Proppatch

/-! ## Every request carries its tokens -/

/-- A call of one of the methods that modify something. -/
inductive Modifying where
  | put (path : Path) (data : Bytes) (offset : ℤ)
  | putSimple (path : Path)
  | delete (path : Path)
  | move (from_ to_ : Path)
  | moveNooverwrite (from_ to_ : Path)
  | copy (from_ to_ : Path)
  | proppatch (path : Path) (key : XmlName) (value : Option Text)

/-- The call. -/
def Modifying.run : Modifying → Dav σ ρ ℤ
  | put path data offset => davPut env srv path data offset
  | putSimple path => davPutSimple env srv path
  | delete path => davDelete env srv path
  | move from_ to_ => davMove env srv from_ to_
  | moveNooverwrite from_ to_ => davMoveNooverwrite env srv from_ to_
  | copy from_ to_ => davCopy env srv from_ to_
  | proppatch path key value => davProppatch env srv path key value

/-- The paths it modifies. -/
def Modifying.paths : Modifying → List Path
  | put path _ _ => [path]
  | putSimple path => [path]
  | delete path => [path]
  | move from_ to_ => [from_, to_]
  | moveNooverwrite from_ to_ => [from_, to_]
  | copy _ to_ => [to_]
  | proppatch path _ _ => [path]

/-- The `If` lines of the request are those of the entries of `paths`. -/
def Carries (paths : List Path) (table : List FileLock) (request : Request) : Prop :=
  ∀ token, .ifToken token ∈ request.headers ↔
    ∃ path ∈ paths, ∃ e, tfind path table = some e ∧ e.token = token

/-- Every request the call sends carries the tokens of what it modifies. -/
def Submits (c : Modifying) (t : Thread (Mem σ)) : Prop :=
  ∀ request ∈ ((c.run env srv : Dav σ Unit ℤ) t).2.mem.sent.drop t.mem.sent.length,
    Carries c.paths t.mem.table request

/-- A tree has one entry for a path. -/
def UniqueTable (table : List FileLock) : Prop := (table.map (·.path)).Nodup

instance (table : List FileLock) : Decidable (UniqueTable table) :=
  inferInstanceAs (Decidable (table.map (·.path)).Nodup)

/-- `dav_proppatch` has to send nothing, or the path has no entry. -/
def SubmitsWhen (t : Thread (Mem σ)) : Modifying → Prop
  | .proppatch path _ _ => tfind path t.mem.table = none ∨
      ¬(t.ex.has = false ∧ (proppatchBefore env srv path t.mem.env).1 = true)
  | _ => True

theorem mem_ifLines {path : Path} {table : List FileLock} {token : Text} :
    Header.ifToken token ∈ ifLines path table ↔
      ∃ e, tfind path table = some e ∧ e.token = token := by
  unfold ifLines
  cases tfind path table with
  | none => simp
  | some e => simp [eq_comm]

theorem carries_singleton {path : Path} {table : List FileLock} {request : Request}
    (h : ∀ token, .ifToken token ∈ request.headers ↔ .ifToken token ∈ ifLines path table) :
    Carries [path] table request := by
  intro token
  rw [h, mem_ifLines]
  simp

/-- Another path is found as before. -/
theorem tfind_tdelete_ne {path other : Path} (h : other ≠ path) (table : List FileLock) :
    tfind other (tdelete path table) = tfind other table := by
  unfold tfind tdelete
  induction table with
  | nil => rfl
  | cons e table ih =>
    by_cases he : e.path = path
    · have hne : (e.path == other) = false := by
        rw [he, beq_eq_false_iff_ne]
        exact h.symm
      rw [List.eraseP_cons_of_pos (by simpa using he), List.find?_cons_of_neg (by simp [hne])]
    · rw [List.eraseP_cons_of_neg (by simpa using he), List.find?_cons, List.find?_cons, ih]

/-- The deleted path is not found again. -/
theorem tfind_tdelete_self (path : Path) {table : List FileLock} (h : UniqueTable table) :
    tfind path (tdelete path table) = none := by
  unfold UniqueTable at h
  unfold tfind tdelete
  induction table with
  | nil => rfl
  | cons e table ih =>
    rw [List.map_cons, List.nodup_cons] at h
    by_cases he : e.path = path
    · rw [List.eraseP_cons_of_pos (by simpa using he), List.find?_eq_none]
      intro e' hmem hpath
      have hpath' : e'.path = path := by simpa using hpath
      exact h.1 (List.mem_map.mpr ⟨e', hmem, hpath'.trans he.symm⟩)
    · rw [List.eraseP_cons_of_neg (by simpa using he), List.find?_cons_of_neg (by simpa using he)]
      exact ih h.2

theorem carries_move {from_ to_ : Path} (nooverwrite : Bool) {table : List FileLock}
    (htable : UniqueTable table) :
    Carries [from_, to_] table ⟨.move, from_, moveLines to_ nooverwrite ++ ifLines from_ table ++
      ifLines to_ (tdelete from_ table), none, .none⟩ := by
  intro token
  have hmove : Header.ifToken token ∉ moveLines to_ nooverwrite := by
    cases nooverwrite <;> simp [moveLines]
  simp only [List.mem_append, hmove, false_or, mem_ifLines, List.mem_cons, List.not_mem_nil,
    or_false, exists_eq_or_imp, exists_eq_left]
  by_cases hsame : to_ = from_
  · rw [hsame, tfind_tdelete_self from_ htable]
    simp
  · rw [tfind_tdelete_ne hsame]

theorem submits_of_leaves {c : Modifying} {t : Thread (Mem σ)}
    (h : Leaves (c.run env srv : Dav σ Unit ℤ) t fun sent _ => sent = t.mem.sent ∨
      ∃ request, sent = t.mem.sent ++ [request] ∧ Carries c.paths t.mem.table request) :
    Submits env srv c t := by
  intro request hmem
  rcases h with hsame | ⟨sent, hsent, hcarries⟩
  · rw [hsame, List.drop_length] at hmem
    exact (List.not_mem_nil hmem).elim
  · rw [hsent, List.drop_left, List.mem_singleton] at hmem
    rw [hmem]
    exact hcarries

/-- `dav_proppatch` never builds the line. -/
theorem submits_proppatch_iff (path : Path) (key : XmlName) (value : Option Text)
    (t : Thread (Mem σ)) : Submits env srv (.proppatch path key value) t ↔
      SubmitsWhen env srv t (.proppatch path key value) := by
  constructor
  · intro hsubmits
    by_contra hwhen
    unfold SubmitsWhen at hwhen
    rw [not_or, not_not] at hwhen
    obtain ⟨hentry, hclean, hbefore⟩ := hwhen
    obtain ⟨e, he⟩ := Option.ne_none_iff_exists'.mp hentry
    have hleaves : Leaves (davProppatch env srv path key value : Dav σ Unit ℤ) t fun sent _ =>
        ∃ list, Tokenless list ∧
          sent = t.mem.sent ++ [⟨.proppatch, path, list, none, .propertyupdate key value⟩] :=
      leaves_davProppatch env srv path key value (fun hn => absurd ⟨hclean, hbefore⟩ hn)
        fun list hlist _ _ => ⟨list, hlist, rfl⟩
    obtain ⟨list, hlist, hsent⟩ := hleaves
    have hcarries : Carries [path] t.mem.table
        ⟨.proppatch, path, list, none, .propertyupdate key value⟩ := by
      refine hsubmits _ ?_
      show _ ∈ ((davProppatch env srv path key value : Dav σ Unit ℤ) t).2.mem.sent.drop _
      rw [hsent, List.drop_left]
      exact List.mem_singleton_self _
    exact hlist e.token ((hcarries e.token).mpr ⟨path, List.mem_singleton_self _, e, he, rfl⟩)
  · intro hwhen
    refine submits_of_leaves env srv (leaves_davProppatch env srv path key value (fun _ => .inl rfl)
      fun list hlist hclean hbefore => .inr ⟨_, rfl, ?_⟩)
    have habsent : tfind path t.mem.table = none := hwhen.resolve_right fun hn => hn ⟨hclean, hbefore⟩
    refine carries_singleton fun token => ?_
    rw [mem_ifLines, habsent]
    simp [hlist token]

/-- Every method but `dav_proppatch` submits the tokens of the entries of what it
    modifies, and `dav_proppatch` does when there is nothing to submit. -/
theorem submits_iff (hlock : srv.options.useLock = true) (c : Modifying) (t : Thread (Mem σ))
    (htable : UniqueTable t.mem.table) : Submits env srv c t ↔ SubmitsWhen env srv t c := by
  cases c with
  | proppatch path key value => exact submits_proppatch_iff env srv path key value t
  | put path data offset =>
    refine iff_of_true (submits_of_leaves env srv ?_) trivial
    exact leaves_davPut env srv hlock (.inl rfl) path data offset
      (.inr ⟨_, rfl, carries_singleton fun _ => Iff.rfl⟩)
  | putSimple path =>
    refine iff_of_true (submits_of_leaves env srv ?_) trivial
    exact leaves_davMethod env srv hlock path .put (by decide) (fun _ => .inl rfl) fun _ _ _ =>
      ⟨.inl rfl, .inr ⟨_, rfl, carries_singleton fun _ => Iff.rfl⟩⟩
  | delete path =>
    refine iff_of_true (submits_of_leaves env srv ?_) trivial
    exact leaves_davMethod env srv hlock path .delete (by decide) (fun _ => .inl rfl) fun _ _ _ =>
      ⟨.inl rfl, .inr ⟨_, rfl, carries_singleton fun _ => Iff.rfl⟩⟩
  | move from_ to_ =>
    refine iff_of_true (submits_of_leaves env srv ?_) trivial
    exact leaves_davMoveCore env srv hlock from_ to_ false (fun _ => .inl rfl) fun _ _ _ =>
      ⟨.inl rfl, .inr ⟨_, rfl, carries_move false htable⟩⟩
  | moveNooverwrite from_ to_ =>
    refine iff_of_true (submits_of_leaves env srv ?_) trivial
    exact leaves_davMoveCore env srv hlock from_ to_ true (fun _ => .inl rfl) fun _ _ _ =>
      ⟨.inl rfl, .inr ⟨_, rfl, carries_move true htable⟩⟩
  | copy from_ to_ =>
    refine iff_of_true (submits_of_leaves env srv ?_) trivial
    refine leaves_davCopy env srv hlock (.inl rfl) from_ to_ (.inr ⟨_, rfl, ?_⟩)
    exact carries_singleton fun token => by simp

/-- A thread that has `/a` open for writing. -/
def writingA : Thread (Mem Unit) :=
  ⟨.clear, { (idle ()).mem with table := [⟨[47, 97], ['t'], 1⟩] }⟩

theorem submits_writingA :
    lockingServer.options.useLock = true ∧ UniqueTable writingA.mem.table ∧
      Submits (answering (plainReply 204)) lockingServer (.delete [47, 97]) writingA :=
  ⟨rfl, by decide, (submits_iff _ _ rfl (.delete [47, 97]) writingA (by decide)).mpr trivial⟩

/-- `PROPPATCH /a` goes out without the token of `/a`. -/
theorem proppatch_without_token :
    ¬Submits (answering (plainReply 207)) lockingServer
      (.proppatch [47, 97] ⟨some ['N'], ['m', 'o', 'd', 'e']⟩ (some ['7', '7', '7'])) writingA := by
  intro hsubmits
  rcases (submits_proppatch_iff _ _ _ _ _ _).mp hsubmits with habsent | hnot
  · exact nomatch habsent
  · exact hnot ⟨rfl, rfl⟩

/-! ## Entries lost by a failure -/

/-- `m` falls through without an exception if `passed`, and breaks with one if not. -/
def Passes (m : Dav σ ρ α) (t : Thread (Mem σ)) (passed : Bool) : Prop :=
  if passed then ∃ a t', m t = (.ok a, t') ∧ t'.ex.has = false
  else ∃ t', m t = (.error .brk, t') ∧ t'.ex.has = true

/-- The lock is taken, the section runs, the lock is released. -/
theorem Goes.passes (mode : RwMode) {m : Dav σ ρ α} {rest : Dav σ ρ Unit} {t : Thread (Mem σ)}
    {passed : Bool} (hg : Goes m (hold mode t) passed)
    (hrest : rest t = (m >>= fun _ => unlock) (hold mode t)) : Passes rest t passed := by
  unfold Passes
  rw [hrest]
  cases passed with
  | true =>
    obtain ⟨a, t', hm, hex, hheld⟩ := hg
    exact ⟨(), Dav.release t', by rw [Ctl.bind_ok hm]; exact unlock_apply hheld, hex⟩
  | false =>
    obtain ⟨t', hm, hex, -⟩ := hg
    exact ⟨t', Ctl.bind_error hm, hex⟩

theorem Passes.of_breaks {m : Dav σ ρ α} {f : α → Dav σ ρ β} {a : α} {p q : Attempt σ}
    (hm : Breaks m a p) {t : Thread (Mem σ)} (h : t.ex.has = false)
    (hf : ∀ s, Passes (f a) (atEnv t s) (q s).1) : Passes (m >>= f) t (p.andThen q t.mem.env).1 := by
  cases hp : (p t.mem.env).1 with
  | true =>
    have hrest := hf (p t.mem.env).2
    unfold Passes at hrest ⊢
    rwa [Attempt.andThen_of_pass hp, Ctl.bind_ok ((hm t h).1 hp)]
  | false =>
    obtain ⟨e, he⟩ := (hm t h).2 hp
    rw [Attempt.andThen_of_fail hp, hp]
    exact ⟨_, Ctl.bind_error he, rfl⟩

theorem Passes.scope {m : Dav σ ρ α} {t : Thread (Mem σ)} {passed : Bool} (hm : Passes m t passed)
    (h : t.ex.has = false) : Passes (do let _ ← throwable (withBuffer m)) t passed := by
  cases passed with
  | true =>
    obtain ⟨a, t', hm, hex⟩ := hm
    have hbuffer := (withBuffer_clean h).trans (Ctl.doOnce_ok hm)
    exact ⟨(), t', Ctl.bind_ok (throwable_clean hbuffer hex), hex⟩
  | false =>
    obtain ⟨t', hm, hex⟩ := hm
    have hbuffer := (withBuffer_clean h).trans (Ctl.doOnce_brk hm)
    exact ⟨t', Ctl.bind_error (throwable_pending hbuffer hex), hex⟩

/-- A method whose body makes the attempt `q` returns `0` exactly when the handle is had
    and `q` passes. -/
theorem Passes.withCurl (path : Path) {body : Dav σ ρ α} {q : Attempt σ} {t : Thread (Mem σ)}
    (h : t.ex.has = false) (hb : ∀ s, Passes body (atEnv t s) (q s).1) :
    ∃ v t', (Wrapper.withCurl env srv.options path body >>= fun _ => testSuccess) t = (.ok v, t') ∧
      (v = 0 ↔ ((initAttempt env srv.options path).andThen q t.mem.env).1 = true) := by
  cases hp : (initAttempt env srv.options path t.mem.env).1 with
  | false =>
    obtain ⟨e, hw⟩ := withCurl_failed env body h hp
    exact ⟨1, _, Ctl.bind_ok hw, by simp [Attempt.andThen_fst, hp]⟩
  | true =>
    have hbody := hb (initAttempt env srv.options path t.mem.env).2
    rw [Attempt.andThen_of_pass hp]
    cases hq : (q (initAttempt env srv.options path t.mem.env).2).1 with
    | true =>
      rw [hq] at hbody
      obtain ⟨a, t', hm, hex⟩ := hbody
      refine ⟨0, t', ?_, by simp⟩
      rw [Ctl.bind_ok ((withCurl_entered env h hp).trans (Ctl.doOnce_ok hm)), testSuccess_apply, hex]
      rfl
    | false =>
      rw [hq] at hbody
      obtain ⟨t', hm, hex⟩ := hbody
      refine ⟨1, t', ?_, by simp⟩
      rw [Ctl.bind_ok ((withCurl_entered env h hp).trans (Ctl.doOnce_brk hm)), testSuccess_apply, hex]
      rfl

section Returns

variable {t : Thread (Mem σ)} (hlock : srv.options.useLock = true) (h : t.ex.has = false)
  (hheld : t.mem.held = [])

include hlock h hheld

theorem davDelete_returns (path : Path) :
    ∃ v t', (davDelete env srv path : Dav σ ρ ℤ) t = (.ok v, t') ∧
      (v = 0 ↔ ((initAttempt env srv.options path).andThen
        (methodLocked env path .delete t.mem.table) t.mem.env).1 = true) := by
  have hu : usesLock srv .write = true := by simp [usesLock, hlock]
  refine Passes.withCurl env srv path h fun s => ?_
  refine Goes.passes .wr (m := throwable (methodScope env srv path .delete .write)) ?_ ?_
  · refine Goes.throwable_withBuffer ?_ h
    simp only [headerIfWhen, hu, if_true]
    refine Goes.headerIf env h fun s' => ?_
    exact (goes_setAndPerform env _ _ (unlisted path .write (atEnv (hold .wr t) s')) h).bind_unit
  · have hacquire : (acquire srv .write : Dav σ ρ Unit) (atEnv t s) = (.ok (), hold .wr (atEnv t s)) := by
      rw [acquire, if_pos hu]
      exact wrlock_apply hheld
    rw [Ctl.bind_ok hacquire]
    simp only [unlockIf, hu, if_true]

theorem davMoveCore_returns (from_ to_ : Path) (nooverwrite : Bool) :
    ∃ v t', (davMoveCore env srv from_ to_ nooverwrite : Dav σ ρ ℤ) t = (.ok v, t') ∧
      (v = 0 ↔ ((moveBefore env srv from_ to_ nooverwrite).andThen
        (moveLocked env from_ to_ nooverwrite t.mem.table) t.mem.env).1 = true) := by
  rw [moveBefore, Attempt.andThen_assoc, Attempt.andThen_assoc]
  refine Passes.withCurl env srv from_ h fun s => Passes.scope ?_ h
  refine Passes.of_breaks (raises_davHeaderDestination env [] to_).throwable h fun s' => ?_
  refine Passes.of_breaks (breaks_overwriteLine env nooverwrite _) h fun s'' => ?_
  obtain ⟨mode, hmode⟩ := moveLockLines_eq (ρ := ρ) env srv from_ to_ (moveLines to_ nooverwrite)
    (atEnv t s'') hlock hheld h
  refine Goes.passes mode (goes_moveSection env from_ to_ nooverwrite h) ?_
  have hrest := Ctl.bind_congr hmode fun _ => unlock
  rw [bind_assoc] at hrest
  simp only [unlockIf, hlock, if_true]
  exact hrest

end Returns

/-- If the function returns an error, the table is as before. -/
def FailureKeepsTable (m : Dav σ Unit ℤ) (t : Thread (Mem σ)) : Prop :=
  ∀ v t', m t = (.ok v, t') → v ≠ 0 → t'.mem.table = t.mem.table

/-- The path has an entry, the attempts up to its removal pass, and a later one does not. -/
def LosesEntry (path : Path) (before after : Attempt σ) (t : Thread (Mem σ)) : Prop :=
  t.ex.has = false ∧ t.mem.held = [] ∧ (tfind path t.mem.table).isSome ∧
    (before t.mem.env).1 = true ∧ (before.andThen after t.mem.env).1 = false

/-- What `dav_delete` attempts up to the removal of the entry. -/
def deleteBefore (path : Path) (table : List FileLock) : Attempt σ :=
  (initAttempt env srv.options path).andThen (ifAttempt env path table)

/-- What `dav_delete` attempts after the removal of the entry. -/
def deleteAfter (path : Path) (table : List FileLock) : Attempt σ :=
  sendAttempt env .customrequest ⟨.delete, path, ifLines path table, none, .none⟩

/-- What `__dav_move` attempts up to the removal of the entry. -/
def moveUntilRemoved (from_ to_ : Path) (nooverwrite : Bool) (table : List FileLock) : Attempt σ :=
  (moveBefore env srv from_ to_ nooverwrite).andThen (ifAttempt env from_ table)

/-- What `__dav_move` attempts after the removal of the entry. -/
def moveAfter (from_ to_ : Path) (nooverwrite : Bool) (table : List FileLock) : Attempt σ :=
  (ifAttempt env to_ (tdelete from_ table)).andThen (sendAttempt env .customrequest
    ⟨.move, from_, moveLines to_ nooverwrite ++ ifLines from_ table ++
      ifLines to_ (tdelete from_ table), none, .none⟩)

theorem tdelete_ne {path : Path} {table : List FileLock} (h : (tfind path table).isSome) :
    tdelete path table ≠ table := by
  obtain ⟨e, he⟩ := Option.isSome_iff_exists.mp h
  have hpath : (e.path == path) = true := List.find?_some (p := fun e : FileLock => e.path == path) he
  have hlength : (tdelete path table).length = table.length - 1 :=
    List.length_eraseP_of_mem (List.mem_of_find?_eq_some he) hpath
  have hpos : 0 < table.length := List.length_pos_of_mem (List.mem_of_find?_eq_some he)
  intro heq
  rw [heq] at hlength
  omega

/-- A function that removes the entry of `path` when `before` passes, and returns `0` when
    `after` does, too. -/
theorem failureKeepsTable_iff {m : Dav σ Unit ℤ} {path : Path} {before after : Attempt σ}
    {t : Thread (Mem σ)}
    (hleaves : Leaves m t fun _ table =>
      ((t.ex.has = false ∧ t.mem.held = [] ∧ (before t.mem.env).1 = true) ∧
        table = tdelete path t.mem.table) ∨
      (¬(t.ex.has = false ∧ t.mem.held = [] ∧ (before t.mem.env).1 = true) ∧
        table = t.mem.table))
    (hreturns : t.ex.has = false → t.mem.held = [] → ∃ v t', m t = (.ok v, t') ∧
      (v = 0 ↔ (before.andThen after t.mem.env).1 = true)) :
    FailureKeepsTable m t ↔ ¬LosesEntry path before after t := by
  constructor
  · rintro hkeeps ⟨hex, hheld, hentry, hbefore, hafter⟩
    obtain ⟨v, t', hrun, hv⟩ := hreturns hex hheld
    have hne : v ≠ 0 := fun h0 => Bool.false_ne_true (hafter.symm.trans (hv.mp h0))
    have htable := hkeeps v t' hrun hne
    rw [Leaves, hrun] at hleaves
    rcases hleaves with ⟨-, hremoved⟩ | ⟨hnot, -⟩
    · exact tdelete_ne hentry (hremoved.symm.trans htable)
    · exact hnot ⟨hex, hheld, hbefore⟩
  · intro hloses v t' hrun hne
    rw [Leaves, hrun] at hleaves
    rcases hleaves with ⟨⟨hex, hheld, hbefore⟩, hremoved⟩ | ⟨-, hsame⟩
    · obtain ⟨v', t'', hrun', hv⟩ := hreturns hex hheld
      rw [hrun] at hrun'
      obtain ⟨hveq, -⟩ := Prod.mk.inj hrun'
      rw [← Except.ok.inj hveq] at hv
      have hafter : (before.andThen after t.mem.env).1 = false := by
        rw [← Bool.not_eq_true]
        exact fun hpass => hne (hv.mpr hpass)
      have habsent : tfind path t.mem.table = none := by
        rw [← Option.not_isSome_iff_eq_none]
        exact fun hentry => hloses ⟨hex, hheld, hentry, hbefore, hafter⟩
      exact hremoved.trans (tdelete_of_absent habsent)
    · exact hsame

section Loses

variable {t : Thread (Mem σ)} (hlock : srv.options.useLock = true)

include hlock

theorem davDelete_keeps_iff (path : Path) : FailureKeepsTable (davDelete env srv path) t ↔
    ¬LosesEntry path (deleteBefore env srv path t.mem.table) (deleteAfter env path t.mem.table) t := by
  refine failureKeepsTable_iff ?_ fun hex hheld => ?_
  · refine leaves_davMethod env srv hlock path .delete (by decide) (fun hn => .inr ⟨hn, rfl⟩) ?_
    intro hex hfree hbefore
    exact ⟨.inl ⟨⟨hex, hfree, hbefore⟩, rfl⟩, .inl ⟨⟨hex, hfree, hbefore⟩, rfl⟩⟩
  · have hreturns := davDelete_returns (ρ := Unit) env srv hlock hex hheld path
    rw [methodLocked, ← Attempt.andThen_assoc] at hreturns
    exact hreturns

theorem davMoveCore_keeps_iff (from_ to_ : Path) (nooverwrite : Bool) :
    FailureKeepsTable (davMoveCore env srv from_ to_ nooverwrite) t ↔
      ¬LosesEntry from_ (moveUntilRemoved env srv from_ to_ nooverwrite t.mem.table)
        (moveAfter env from_ to_ nooverwrite t.mem.table) t := by
  refine failureKeepsTable_iff ?_ fun hex hheld => ?_
  · refine leaves_davMoveCore env srv hlock from_ to_ nooverwrite (fun hn => .inr ⟨hn, rfl⟩) ?_
    intro hex hfree hbefore
    by_cases hheld : t.mem.held = []
    · exact ⟨.inl ⟨⟨hex, hheld, hbefore⟩, rfl⟩, .inl ⟨⟨hex, hheld, hbefore⟩, rfl⟩⟩
    · have hsame := tdelete_of_absent (hfree.resolve_right hheld)
      exact ⟨.inr ⟨fun hall => hheld hall.2.1, hsame⟩, .inr ⟨fun hall => hheld hall.2.1, hsame⟩⟩
  · have hreturns := davMoveCore_returns (ρ := Unit) env srv hlock hex hheld from_ to_ nooverwrite
    rw [moveLocked, ← Attempt.andThen_assoc] at hreturns
    exact hreturns

/-- A failed `DELETE` or `MOVE` leaves the table alone exactly when it does not fail after
    the entry was taken out. -/
theorem failure_keeps_table_iff :
    (∀ path, FailureKeepsTable (davDelete env srv path) t ↔ ¬LosesEntry path
      (deleteBefore env srv path t.mem.table) (deleteAfter env path t.mem.table) t) ∧
    (∀ from_ to_, FailureKeepsTable (davMove env srv from_ to_) t ↔ ¬LosesEntry from_
      (moveUntilRemoved env srv from_ to_ false t.mem.table)
      (moveAfter env from_ to_ false t.mem.table) t) ∧
    ∀ from_ to_, FailureKeepsTable (davMoveNooverwrite env srv from_ to_) t ↔ ¬LosesEntry from_
      (moveUntilRemoved env srv from_ to_ true t.mem.table)
      (moveAfter env from_ to_ true t.mem.table) t :=
  ⟨davDelete_keeps_iff env srv hlock, fun from_ to_ => davMoveCore_keeps_iff env srv hlock from_ to_ _,
    fun from_ to_ => davMoveCore_keeps_iff env srv hlock from_ to_ _⟩

end Loses

/-- An outside with no memory for a header. -/
def noHeaders : Env Unit := { answering (plainReply 204) with alloc := fun a s => (a != .slist, s) }

/-- `DELETE /a` fails before the entry of `/a` is taken out. -/
theorem failure_keeps_table_no_memory :
    lockingServer.options.useLock = true ∧ (tfind [47, 97] writingA.mem.table).isSome = true ∧
      (∃ t', (davDelete noHeaders lockingServer [47, 97] : Dav Unit Unit ℤ) writingA = (.ok 1, t')) ∧
      FailureKeepsTable (davDelete noHeaders lockingServer [47, 97]) writingA :=
  ⟨rfl, rfl, ⟨_, rfl⟩, ((failure_keeps_table_iff noHeaders lockingServer rfl).1 [47, 97]).mpr
    fun hloses => absurd hloses.2.2.2.1 (by decide)⟩

/-- `DELETE /a` and `MOVE /a` answered with 423 have already dropped the entry of `/a`. -/
theorem delete_move_423_drop_entry :
    ¬FailureKeepsTable (davDelete (answering (plainReply 423)) lockingServer [47, 97]) writingA ∧
    ¬FailureKeepsTable (davMove (answering (plainReply 423)) lockingServer [47, 97] [47, 98])
      writingA := by
  refine ⟨fun hkeeps => ?_, fun hkeeps => ?_⟩
  · exact (davDelete_keeps_iff _ _ rfl _).mp hkeeps ⟨rfl, rfl, rfl, rfl, rfl⟩
  · exact (davMoveCore_keeps_iff _ _ rfl _ _ _).mp hkeeps ⟨rfl, rfl, rfl, rfl, rfl⟩

end NetworkFs.Dav
