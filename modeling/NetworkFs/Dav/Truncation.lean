import NetworkFs.Dav.Creation
import NetworkFs.Dav.Listing
import NetworkFs.Dav.Reading

/-!
# A truncation that fails

`dav_truncate` replaces the file in two of its branches: it deletes it and puts it again,
and what was there is gone in between. To zero it does so always; to another size only
when `dav_read` says that it read nothing, since a count of bytes ends the call. The
server is the `Site` of `NetworkFs.Dav.Creation`, whose script says which request fails.

* `truncateZero_run`, `truncateRewrite_run`: the two branches that delete, for every
  outcome of their requests.
* `truncate_keeps_iff`: when a failed `dav_truncate` leaves the file as it was.
-/

namespace NetworkFs.Dav

open Control Grammar Wrapper Text Data

variable (base : Env Site) (srv : DavServer)

/-! ## The store -/

/-- The contents are the same. -/
def SameStore (t t' : Thread (Mem Site)) : Prop := t'.mem.env.store = t.mem.env.store

/-- The outside is the same. -/
def SameEnv {σ : Type} (t t' : Thread (Mem σ)) : Prop := t'.mem.env = t.mem.env

instance : HeldFrame SameStore where
  refl _ := rfl
  trans _ _ _ h h' := Eq.trans h' h
  mem _ _ _ h := congrArg Site.store h
  raise _ _ := rfl
  clear _ := rfl
  held _ _ h := congrArg Site.store h

instance {σ : Type} : HeldFrame (SameEnv (σ := σ)) where
  refl _ := rfl
  trans _ _ _ h h' := Eq.trans h' h
  mem _ _ _ h := h
  raise _ _ := rfl
  clear _ := rfl
  held _ _ h := h

instance : Outside (flaky base) SameStore := ⟨fun _ _ => rfl, fun _ _ => rfl, fun _ => rfl,
  fun _ _ => rfl, fun _ _ => rfl⟩

instance : Outside (flaky base) SameEnv := ⟨fun _ _ => rfl, fun _ _ => rfl, fun _ => rfl,
  fun _ _ => rfl, fun _ _ => rfl⟩

/-- Other requests than `PUT` and `DELETE` only use up their outcome. -/
theorem perform_other {request : Request} (hput : request.method ≠ .put)
    (hdelete : request.method ≠ .delete) (s : Site) : (s.perform request).2 = s.next := by
  have happly : s.next.apply request = s.next := by
    unfold Site.apply
    split
    · rename_i h
      exact absurd h hput
    · rename_i h
      exact absurd h hdelete
    · rfl
  rw [Site.perform, happly, ite_self]

instance : Sends (flaky base) SameStore .propfind where
  perform request hm t := by
    rw [SameStore, flaky_perform, atEnv_env, perform_other (by simp [hm]) (by simp [hm])]
    rfl

instance : Sends (flaky base) SameStore .proppatch where
  perform request hm t := by
    rw [SameStore, flaky_perform, atEnv_env, perform_other (by simp [hm]) (by simp [hm])]
    rfl

theorem perform_outcomes (request : Request) (s : Site) (n : ℕ) :
    (s.perform request).2.outcomes n = s.outcomes (n + 1) := by
  rw [Site.perform]
  show (if _ then _ else _ : Site).outcomes n = _
  split_ifs
  · unfold Site.apply
    split <;> rfl
  · rfl

/-- A request that is not a `HEAD` has the outcome the script says. -/
theorem outcome_of_ne_head {request : Request} (h : request.method ≠ .head) (s : Site) :
    s.outcome request = s.outcomes 0 := by
  unfold Site.outcome
  split
  · rename_i hm _
    exact absurd hm h
  · rfl

theorem perform_reply {request : Request} (h : request.method ≠ .head) (s : Site) :
    (s.perform request).1 = (s.outcomes 0).reply := by
  rw [Site.perform, outcome_of_ne_head h]

theorem perform_delete {request : Request} (hm : request.method = .delete) (s : Site) :
    (s.perform request).2.store request.path =
      if (s.outcomes 0).effect then none else s.store request.path := by
  rw [Site.perform, outcome_of_ne_head (by simp [hm])]
  split_ifs
  · rw [Site.apply, hm]
    exact Function.update_self _ _ _
  · rfl

theorem perform_put {request : Request} (hm : request.method = .put) (s : Site) :
    (s.perform request).2.store request.path = if (s.outcomes 0).effect then
      some (putContent (s.store request.path) request) else s.store request.path := by
  rw [Site.perform, outcome_of_ne_head (by simp [hm])]
  split_ifs
  · rw [Site.apply, hm]
    exact Function.update_self _ _ _
  · rfl

/-! ## One request -/

/-- `m` is one `request`: it is sent, and `m` fails exactly when it does. -/
def Requests {ρ : Type} (m : Dav Site ρ ℤ) (request : Request) (t : Thread (Mem Site)) : Prop :=
  ∃ v t', m t = (.ok v, t') ∧ t'.mem.env = (t.mem.env.perform request).2 ∧
    ((t.mem.env.outcomes 0).reply.code = .ok → v = 0 ∧ t'.ex.has = false ∧
      t'.mem.held = t.mem.held) ∧
    ((t.mem.env.outcomes 0).reply.code ≠ .ok → v ≠ 0 ∧ t'.ex.has = true)

/-- The same, with the exception mapped. -/
def RequestsMapped {ρ : Type} (m : Dav Site ρ ℤ) (request : Request) (t : Thread (Mem Site)) : Prop :=
  ∃ v t', m t = (.ok v, t') ∧ t'.mem.env = (t.mem.env.perform request).2 ∧
    ((t.mem.env.outcomes 0).reply.code = .ok → v = 0 ∧ t'.ex.has = false ∧
      t'.mem.held = t.mem.held) ∧
    ((t.mem.env.outcomes 0).reply.code ≠ .ok → v ≠ 0)

section Request

variable {ρ : Type} {t : Thread (Mem Site)} (h : t.ex.has = false) (hheld : t.mem.held = [])
  (path : Path)

include h

theorem requests_davMethod {method : Method} (hm : method ≠ .head) (lockType : LockType)
    (hheld : t.mem.held = []) :
    Requests (davMethod (flaky base) srv path method lockType : Dav Site ρ ℤ)
      (methodRequest srv path method lockType t.mem.table) t := by
  have hlock : CanLock srv lockType t := canLock_of_free srv hheld
  have hreply : ((flaky base).perform (methodRequest srv path method lockType t.mem.table)
    t.mem.env).1 = (t.mem.env.outcomes 0).reply := perform_reply hm t.mem.env
  by_cases hc : (t.mem.env.outcomes 0).reply.code = .ok
  · refine ⟨_, _, davMethod_ok srv (flaky_steady base) h path method hlock (by rw [hreply]; exact hc),
      ?_, fun _ => ?_, fun hne => absurd hc hne⟩
    · rw [answered_env, listed_env]
      rfl
    · exact ⟨rfl, by rw [answered_ex, listed_ex]; exact h, by rw [answered_held, listed_held]⟩
  · refine ⟨_, _, davMethod_failed srv (flaky_steady base) h path method hlock
      (by rw [hreply]; exact hc), ?_, fun hok => absurd hok hc, fun _ => ⟨by decide, rfl⟩⟩
    rw [refused_mem, locked_env, answered_env, listed_env]
    rfl

theorem requests_davPut (data : Bytes) (offset : ℤ) (hheld : t.mem.held = []) :
    Requests (davPut (flaky base) srv path data offset : Dav Site ρ ℤ)
      (putRequest srv path data offset t.mem.table) t := by
  have hlock : CanLock srv .read t := canLock_of_free srv hheld
  by_cases hc : (t.mem.env.outcomes 0).reply.code = .ok
  · exact ⟨_, _, davPut_ok srv (flaky_steady base) h hlock hc, rfl, fun _ => ⟨rfl, h, rfl⟩,
      fun hne => absurd hc hne⟩
  · refine ⟨_, _, davPut_failed srv (flaky_steady base) h hlock hc, ?_,
      fun hok => absurd hok hc, fun _ => ⟨by decide, rfl⟩⟩
    rw [refused_mem, locked_env]
    rfl

theorem requests_davProppatch (key : XmlName) (value : Option Text) :
    Requests (davProppatch (flaky base) srv path key value : Dav Site ρ ℤ)
      (proppatchRequest path key value) t := by
  by_cases hc : (t.mem.env.outcomes 0).reply.code = .ok
  · exact ⟨_, _, davProppatch_ok srv (flaky_steady base) h hc, rfl, fun _ => ⟨rfl, h, rfl⟩,
      fun hne => absurd hc hne⟩
  · exact ⟨_, _, davProppatch_failed srv (flaky_steady base) h hc, rfl,
      fun hok => absurd hok hc, fun _ => ⟨by decide, rfl⟩⟩

end Request

theorem davExceptionMap_apply {σ ρ : Type} (t : Thread (Mem σ)) :
    (davExceptionMap : Dav σ ρ ℤ) t = (.ok (exceptionErrno t.ex), ⟨.clear, t.mem⟩) := rfl

theorem Requests.checked {ρ : Type} {m : Dav Site ρ ℤ} {request : Request} {t : Thread (Mem Site)}
    (hm : Requests m request t) : RequestsMapped (m >>= fun _ => davExceptionCheck 0) request t := by
  obtain ⟨v, t', hrun, henv, hok, hfailed⟩ := hm
  by_cases hc : (t.mem.env.outcomes 0).reply.code = .ok
  · obtain ⟨-, hex, hheld⟩ := hok hc
    exact ⟨0, t', (Ctl.bind_ok hrun).trans (davExceptionCheck_clean 0 hex), henv,
      fun _ => ⟨rfl, hex, hheld⟩, fun hne => absurd hc hne⟩
  · obtain ⟨-, hex⟩ := hfailed hc
    exact ⟨_, _, (Ctl.bind_ok hrun).trans (davExceptionCheck_pending 0 hex), henv,
      fun hok => absurd hok hc, fun _ => (exceptionErrno_neg _).ne⟩

theorem Requests.tested {ρ : Type} {m : Dav Site ρ ℤ} {request : Request} {t : Thread (Mem Site)}
    (hm : Requests m request t) : RequestsMapped (m >>= davExceptionTest) request t := by
  obtain ⟨v, t', hrun, henv, hok, hfailed⟩ := hm
  by_cases hc : (t.mem.env.outcomes 0).reply.code = .ok
  · obtain ⟨rfl, hex, hheld⟩ := hok hc
    exact ⟨0, t', Ctl.bind_ok hrun, henv, fun _ => ⟨rfl, hex, hheld⟩, fun hne => absurd hc hne⟩
  · obtain ⟨hv, -⟩ := hfailed hc
    refine ⟨_, ⟨.clear, t'.mem⟩, (Ctl.bind_ok hrun).trans ?_, henv, fun hok => absurd hok hc,
      fun _ => (exceptionErrno_neg t'.ex).ne⟩
    rw [davExceptionTest, if_neg hv, davExceptionMap_apply]

/-! ## Replacing the file -/

/-- The call fails, and the file is not what it was. -/
def Lost (path : Path) (content : Bytes) (v : ℤ) (t : Thread (Mem Site)) : Prop :=
  v ≠ 0 ∧ t.mem.env.store path ≠ some content

/-- The outcomes of a `DELETE`, a `PUT` of `body` and perhaps a `PROPPATCH` under which
    `content` is lost: the `DELETE` is carried out and its reply is lost; or it succeeds and
    something after it fails, except when `body` was put and is `content`. -/
def Loses (content body : Bytes) (patches : Bool) (o : ℕ → Outcome) : Prop :=
  ((o 0).reply.code ≠ .ok ∧ (o 0).effect = true) ∨
  ((o 0).reply.code = .ok ∧
    (((o 1).reply.code ≠ .ok ∧ ¬((o 1).effect = true ∧ body = content)) ∨
      ((o 1).reply.code = .ok ∧ patches = true ∧ (o 2).reply.code ≠ .ok ∧ body ≠ content)))

section Loses

variable {content body : Bytes} {patches : Bool} {o : ℕ → Outcome}

theorem loses_of_delete_failed (h : (o 0).reply.code ≠ .ok) :
    Loses content body patches o ↔ (o 0).effect = true := by
  constructor
  · rintro (⟨-, heffect⟩ | ⟨hok, -⟩)
    · exact heffect
    · exact absurd hok h
  · intro heffect
    exact .inl ⟨h, heffect⟩

theorem loses_of_put_failed (h : (o 0).reply.code = .ok) (h' : (o 1).reply.code ≠ .ok) :
    Loses content body patches o ↔ ¬((o 1).effect = true ∧ body = content) := by
  constructor
  · rintro (⟨hne, -⟩ | ⟨-, ⟨-, hlost⟩ | ⟨hok, -⟩⟩)
    · exact absurd h hne
    · exact hlost
    · exact absurd hok h'
  · intro hlost
    exact .inr ⟨h, .inl ⟨h', hlost⟩⟩

theorem loses_of_put (h : (o 0).reply.code = .ok) (h' : (o 1).reply.code = .ok) :
    Loses content body patches o ↔
      patches = true ∧ (o 2).reply.code ≠ .ok ∧ body ≠ content := by
  constructor
  · rintro (⟨hne, -⟩ | ⟨-, ⟨hne, -⟩ | ⟨-, hlost⟩⟩)
    · exact absurd h hne
    · exact absurd h' hne
    · exact hlost
  · intro hlost
    exact .inr ⟨h, .inr ⟨h', hlost⟩⟩

end Loses

theorem lost_iff {path : Path} {content : Bytes} {v : ℤ} {t : Thread (Mem Site)} (hv : v ≠ 0)
    {x : Option Bytes} (hx : t.mem.env.store path = x) :
    Lost path content v t ↔ x ≠ some content := by
  rw [Lost, hx]
  exact ⟨fun h => h.2, fun h => ⟨hv, h⟩⟩

/-- What a `PUT` that fails leaves where there was nothing. -/
theorem put_failed_ne_iff (effect : Bool) (body content : Bytes) :
    (if effect then some body else none) ≠ some content ↔ ¬(effect = true ∧ body = content) := by
  cases effect <;> simp

theorem delete_failed_ne_iff (effect : Bool) (content : Bytes) :
    (if effect then none else some content) ≠ some content ↔ effect = true := by
  cases effect <;> simp

section Replace

variable {path : Path} {content : Bytes} {t : Thread (Mem Site)} (h : t.ex.has = false)
  (hheld : t.mem.held = []) (hstore : t.mem.env.store path = some content)

include hstore

/-- After the `DELETE`. -/
theorem deleted_env {request : Request} (hm : request.method = .delete) (hp : request.path = path)
    {t₁ : Thread (Mem Site)} (henv : t₁.mem.env = (t.mem.env.perform request).2) :
    (t₁.mem.env.store path = if (t.mem.env.outcomes 0).effect then none else some content) ∧
      ∀ n, t₁.mem.env.outcomes n = t.mem.env.outcomes (n + 1) := by
  rw [henv]
  refine ⟨?_, perform_outcomes request t.mem.env⟩
  rw [← hp, perform_delete hm, hp, hstore]

omit hstore in
/-- After a `PUT` where there was nothing. -/
theorem put_env {request : Request} (hm : request.method = .put) (hp : request.path = path)
    (hnone : t.mem.env.store path = none) {t₁ : Thread (Mem Site)}
    (henv : t₁.mem.env = (t.mem.env.perform request).2) :
    (t₁.mem.env.store path =
      if (t.mem.env.outcomes 0).effect then some (putContent none request) else none) ∧
      ∀ n, t₁.mem.env.outcomes n = t.mem.env.outcomes (n + 1) := by
  rw [henv]
  refine ⟨?_, perform_outcomes request t.mem.env⟩
  rw [← hp, perform_put hm, hp, hnone]

include h hheld

/-- `dav_truncate` to zero. -/
theorem truncateZero_run (mode : ℕ) :
    ∃ v t', (truncateZero (flaky base) srv path mode : Dav Site ℤ ℤ) t = (.ok v, t') ∧
      (Lost path content v t' ↔ Loses content [] true t.mem.env.outcomes) := by
  obtain ⟨v₁, t₁, hdelete, henv₁, hok₁, hfailed₁⟩ :=
    requests_davMethod (ρ := ℤ) base srv h path (by decide : Method.delete ≠ .head) .write hheld
  obtain ⟨hstore₁, hnext₁⟩ := deleted_env hstore rfl rfl henv₁
  by_cases hc₁ : (t.mem.env.outcomes 0).reply.code = .ok
  · obtain ⟨rfl, hex₁, hheld₁⟩ := hok₁ hc₁
    rw [if_pos (Outcome.effect_of_ok hc₁)] at hstore₁
    obtain ⟨v₂, t₂, hput, henv₂, hok₂, hfailed₂⟩ := requests_davMethod (ρ := ℤ) base srv hex₁ path
      (by decide : Method.put ≠ .head) .read (hheld₁.trans hheld)
    obtain ⟨hstore₂, hnext₂⟩ := put_env rfl rfl hstore₁ henv₂
    rw [hnext₁] at hok₂ hfailed₂ hstore₂
    by_cases hc₂ : (t.mem.env.outcomes 1).reply.code = .ok
    · obtain ⟨rfl, hex₂, -⟩ := hok₂ hc₂
      rw [if_pos (Outcome.effect_of_ok hc₂)] at hstore₂
      have hpatch := (requests_davProppatch (ρ := ℤ) base srv hex₂ path
        ⟨some "N".toList, "mode".toList⟩ (some (modeValue mode))).checked
      obtain ⟨v₃, t₃, hchmod, henv₃, hok₃, hfailed₃⟩ := hpatch
      rw [hnext₂, hnext₁] at hok₃ hfailed₃
      have hstore₃ : t₃.mem.env.store path = some [] := by
        rw [henv₃, perform_other (by exact nofun) (by exact nofun)]
        exact hstore₂
      refine ⟨v₃, t₃, (Ctl.bind_ok hdelete).trans ((Ctl.bind_ok hput).trans hchmod), ?_⟩
      rw [loses_of_put hc₁ hc₂]
      by_cases hc₃ : (t.mem.env.outcomes 2).reply.code = .ok
      · exact ⟨fun hlost => absurd (hok₃ hc₃).1 hlost.1, fun hlost => absurd hc₃ hlost.2.1⟩
      · rw [lost_iff (hfailed₃ hc₃) hstore₃]
        constructor
        · intro hne
          exact ⟨rfl, hc₃, fun heq => hne (congrArg some heq)⟩
        · rintro ⟨-, -, hne⟩ heq
          exact hne (Option.some.inj heq)
    · refine ⟨exceptionErrno t₂.ex, ⟨.clear, t₂.mem⟩, ?_, ?_⟩
      · refine (Ctl.bind_ok hdelete).trans ((Ctl.bind_ok hput).trans ?_)
        rw [if_pos (hfailed₂ hc₂).1, davExceptionMap_apply]
      · rw [loses_of_put_failed hc₁ hc₂, ← put_failed_ne_iff]
        exact lost_iff (exceptionErrno_neg _).ne hstore₂
  · refine ⟨exceptionErrno t₁.ex, ⟨.clear, t₁.mem⟩, ?_, ?_⟩
    · refine (Ctl.bind_ok hdelete).trans ?_
      rw [if_pos (hfailed₁ hc₁).1, davExceptionMap_apply]
    · rw [loses_of_delete_failed hc₁, ← delete_failed_ne_iff _ content]
      exact lost_iff (exceptionErrno_neg _).ne hstore₁

/-- `dav_truncate` after `dav_read` returned zero. -/
theorem rewrite_run (body : Bytes) :
    ∃ v t', (do
      let res ← davUnlink (flaky base) srv path
      if res ≠ 0 then pure res else do
        let res ← davPut (flaky base) srv path body 0
        davExceptionTest res : Dav Site ℤ ℤ) t = (.ok v, t') ∧
      (Lost path content v t' ↔ Loses content body false t.mem.env.outcomes) := by
  obtain ⟨v₁, t₁, hunlink, henv₁, hok₁, hfailed₁⟩ := (requests_davMethod (ρ := ℤ) base srv h path
    (by decide : Method.delete ≠ .head) .write hheld).checked
  obtain ⟨hstore₁, hnext₁⟩ := deleted_env hstore rfl rfl henv₁
  by_cases hc₁ : (t.mem.env.outcomes 0).reply.code = .ok
  · obtain ⟨rfl, hex₁, hheld₁⟩ := hok₁ hc₁
    rw [if_pos (Outcome.effect_of_ok hc₁)] at hstore₁
    obtain ⟨v₂, t₂, hput, henv₂, hok₂, hfailed₂⟩ :=
      (requests_davPut (ρ := ℤ) base srv hex₁ path body 0 (hheld₁.trans hheld)).tested
    obtain ⟨hstore₂, -⟩ := put_env rfl rfl hstore₁ henv₂
    rw [hnext₁] at hok₂ hfailed₂ hstore₂
    refine ⟨v₂, t₂, (Ctl.bind_ok hunlink).trans hput, ?_⟩
    by_cases hc₂ : (t.mem.env.outcomes 1).reply.code = .ok
    · rw [loses_of_put hc₁ hc₂]
      exact ⟨fun hlost => absurd (hok₂ hc₂).1 hlost.1, fun hlost => (nomatch hlost.1)⟩
    · have hbody : putContent none (putRequest srv path body 0 t₁.mem.table) = body :=
        splice_length 0 [] body
      rw [hbody] at hstore₂
      rw [loses_of_put_failed hc₁ hc₂, ← put_failed_ne_iff]
      exact lost_iff (hfailed₂ hc₂) hstore₂
  · refine ⟨v₁, t₁, (Ctl.bind_ok hunlink).trans ?_, ?_⟩
    · rw [if_pos (hfailed₁ hc₁)]
      rfl
    · rw [loses_of_delete_failed hc₁, ← delete_failed_ne_iff _ content]
      exact lost_iff (hfailed₁ hc₁) hstore₁

end Replace

/-! ## `dav_read` -/

/-- The array when `dav_read` returns zero: on a 416, and when nothing was stored or, as an
    `int`, a multiple of `2^32` bytes. -/
def readZero (data : Bytes) : Outcome → Option Bytes
  | .done reply =>
    if (received data reply).1 = true ∧ toInt (received data reply).2.offset = 0 then
      some (received data reply).2.data
    else none
  | .status n => if n = 416 then some data else none
  | .lost _ _ => none

/-- The exception of a `GET` that failed or whose reply does not fit. -/
def getException (data : Bytes) (reply : Reply) : Exception :=
  .init (.curl (if (received data reply).1 then reply.code else curleWriteError) reply.status .perform)

theorem readZero_of_ok {data : Bytes} {o : Outcome}
    (h : o.reply.code = .ok ∧ (received data o.reply).1 = true) :
    readZero data o = if toInt (received data o.reply).2.offset = 0 then
      some (received data o.reply).2.data else none := by
  cases o with
  | done reply =>
    have hstored : (received data reply).1 = true := h.2
    show (if _ ∧ _ then _ else _) = _
    simp only [hstored, true_and]
    rfl
  | status n => exact nomatch h.1
  | lost n effect => exact nomatch h.1

theorem readZero_of_failed {data : Bytes} {o : Outcome}
    (h : ¬(o.reply.code = .ok ∧ (received data o.reply).1 = true)) :
    readZero data o = if (getException data o.reply).isHttp 416 then
      some (received data o.reply).2.data else none := by
  cases o with
  | done reply =>
    have hstored : ¬(received data reply).1 = true := fun hall => h ⟨rfl, hall⟩
    have hcode : (getException data (Outcome.done reply).reply).isHttp 416 = false := by
      have hreceived : ¬(received data (Outcome.done reply).reply).1 = true := hstored
      rw [getException, if_neg hreceived]
      rfl
    rw [hcode]
    exact if_neg fun hall => hstored hall.1
  | status n =>
    show (if n = 416 then some data else none) = if (n == 416) = true then some data else none
    simp only [beq_iff_eq]
  | lost n effect => rfl

section ReadRun

variable {path : Path} {data : Bytes} {t : Thread (Mem Site)} (hdata : data.length ≠ 0)

include hdata

omit hdata in
theorem perform_get (path : Path) (data : Bytes) (s : Site) :
    (flaky base).perform (getRequest path data 0) s = ((s.outcomes 0).reply, s.next) :=
  Prod.ext (perform_reply (by exact nofun) s) (perform_other (by exact nofun) (by exact nofun) s)

/-- The `GET` fails, or its reply does not fit. -/
theorem davRead_failed (h : t.ex.has = false) (hc : ¬((t.mem.env.outcomes 0).reply.code = .ok ∧
      (received data (t.mem.env.outcomes 0).reply).1 = true)) :
    (davRead (flaky base) srv path data 0 : Dav Site ℤ (ℤ × Bytes)) t =
      (.ok (if (getException data (t.mem.env.outcomes 0).reply).isHttp 416 then 0
        else exceptionErrno (getException data (t.mem.env.outcomes 0).reply),
          (received data (t.mem.env.outcomes 0).reply).2.data),
        ⟨.clear, (answered (flaky base) (getRequest path data 0) t).mem⟩) := by
  have hget := davGet_failed (ρ := ℤ) srv (flaky_steady base) path data 0 h
    (by rw [perform_get]; exact hc)
  rw [perform_get] at hget
  exact davRead_neg srv hdata hget (neg_one_lt_zero)

theorem davRead_run (h : t.ex = .clear) :
    ∃ v buf t', (davRead (flaky base) srv path data 0 : Dav Site ℤ (ℤ × Bytes)) t =
        (.ok (v, buf), t') ∧ t'.mem.env = t.mem.env.next ∧ t'.mem.held = t.mem.held ∧
      (∀ body, readZero data (t.mem.env.outcomes 0) = some body →
        v = 0 ∧ buf = body ∧ t'.ex.has = false) ∧
      (readZero data (t.mem.env.outcomes 0) = none → v ≠ 0) := by
  have hex : t.ex.has = false := by rw [h]; rfl
  have hnext : (answered (flaky base) (getRequest path data 0) t).mem.env = t.mem.env.next := by
    rw [answered_env, perform_get]
  by_cases hc : (t.mem.env.outcomes 0).reply.code = .ok ∧
      (received data (t.mem.env.outcomes 0).reply).1 = true
  · have hget := davGet_ok (ρ := ℤ) srv (flaky_steady base) path data 0 hex
      (by rw [perform_get]; exact hc.1) (by rw [perform_get]; exact hc.2)
    rw [perform_get] at hget
    dsimp only at hget
    rw [readZero_of_ok hc]
    by_cases hneg : toInt (received data (t.mem.env.outcomes 0).reply).2.offset < 0
    · refine ⟨_, _, _, davRead_neg srv hdata hget hneg, hnext, rfl, fun body hbody => ?_,
        fun _ => ?_⟩
      · rw [if_neg hneg.ne] at hbody
        exact nomatch hbody
      · rw [answered_ex, h]
        decide
    · refine ⟨_, _, _, davRead_count srv hdata hget hneg, hnext, rfl, fun body hbody => ?_,
        fun hnone => ?_⟩
      · split_ifs at hbody with hzero
        exact ⟨hzero, Option.some.inj hbody, hex⟩
      · split_ifs at hnone with hzero
        exact hzero
  · refine ⟨_, _, _, davRead_failed base srv hdata hex hc, hnext, rfl, fun body hbody => ?_,
      fun hnone => ?_⟩
    · rw [readZero_of_failed hc] at hbody
      split_ifs at hbody with h416
      exact ⟨if_pos h416, Option.some.inj hbody, rfl⟩
    · rw [readZero_of_failed hc] at hnone
      split_ifs at hnone with h416
      rw [if_neg h416]
      exact (exceptionErrno_neg _).ne

end ReadRun

/-! ## `dav_getattr` -/

section Propfind

variable {σ ρ : Type} {env : Env σ}

/-- The request of `dav_propfind`. -/
def propfindRequest (path : Path) (depth : ℤ) : Request :=
  ⟨.propfind, path, [.depth depth, .preferMinimal, .contentTypeXml], none, .propfind⟩

theorem Steady.propfindReceived (hs : Steady env) (path : Path) (depth : ℤ) (s : σ) :
    propfindReceived env srv path depth s =
      if (env.perform (propfindRequest path depth) s).1.code = .ok then
        some (env.perform (propfindRequest path depth) s) else none := by
  unfold Dav.propfindReceived propfindAnswer sentReply sendAttempt
  rw [hs.initAttempt, hs.alloc, hs.noError_setopt]
  simp only [Attempt.pass_apply, Attempt.pass_andThen, if_true, weakLine, performAttempt, beq_iff_eq]
  rfl

/-- A `PROPFIND` that fails. -/
theorem davPropfind_failed (hs : Steady env) {path : Path} {depth : ℤ} {t : Thread (Mem σ)}
    (h : t.ex.has = false) (filler : Text → Stat → Dav σ ρ Unit)
    (hc : (env.perform (propfindRequest path depth) t.mem.env).1.code ≠ .ok) :
    ∃ v, (davPropfind env srv path depth filler : Dav σ ρ ℤ) t =
      (.ok v, refused (env.perform (propfindRequest path depth) t.mem.env).1
        (answered env (propfindRequest path depth) t)) := by
  have hscope : (propfindScope env path depth : Dav σ ρ (Option Reply)) t = (.ok none,
      refused (env.perform (propfindRequest path depth) t.mem.env).1
        (answered env (propfindRequest path depth) t)) := by
    rw [propfindScope, hs.scopeList h]
    refine Ctl.doOnce_brk ?_
    rw [propfindSend, Ctl.bind_ok (hs.slistAppendWeak _ _ _), Ctl.bind_ok (hs.slistAppendWeak _ _ _)]
    have hsend := hs.setAndPerform (ρ := ρ) .customrequest (propfindRequest path depth) h
    exact hsend.trans (performChecked_error env hc)
  exact davPropfind_ok env srv h ((hs.withCurl srv.options path h).trans
    (Ctl.doOnce_brk (Ctl.bind_error (throwable_pending hscope rfl))))

end Propfind

/-- Without a pending exception there is none at all. -/
def Plain {σ : Type} (t : Thread (Mem σ)) : Prop := t.ex.has = false → t.ex = .clear

/-- `Plain` is kept. -/
def StaysPlain {σ : Type} (t t' : Thread (Mem σ)) : Prop := Plain t → Plain t'

instance {σ : Type} : HeldFrame (StaysPlain (σ := σ)) where
  refl _ h := h
  trans _ _ _ h h' h'' := h' (h h'')
  mem _ _ _ _ h := h
  raise _ _ _ := fun h => (nomatch h)
  clear _ _ := fun _ => rfl
  held _ _ _ h := h

instance {σ : Type} : OutsideFree (StaysPlain (σ := σ)) := ⟨fun _ _ h => h⟩

/-- `dav_getattr` returns zero with `st`. -/
def Reported (stbuf : Stat) (s : Site) (st : Stat) : Prop :=
  (s.outcomes 0).reply.code = .ok ∧
    Reports (flaky base) srv.options stbuf (s.outcomes 0).reply s.next st

theorem Reports.unique {σ : Type} {env : Env σ} {o : Opts} {stbuf : Stat} {reply : Reply} {s : σ}
    {st st' : Stat} (h : Reports env o stbuf reply s st) (h' : Reports env o stbuf reply s st') :
    st = st' := by
  rcases h with ⟨hne, rfl⟩ | ⟨heq, root, calls, hxml, -, hcalls, rfl⟩
  · rcases h' with ⟨-, rfl⟩ | ⟨heq, -⟩
    · rfl
    · exact absurd heq hne
  · rcases h' with ⟨hne, -⟩ | ⟨-, root', calls', hxml', -, hcalls', rfl⟩
    · exact absurd heq hne
    · obtain rfl := XmlCtxt.document.inj (Option.some.inj (hxml.symm.trans hxml'))
      rw [Option.some.inj (hcalls.symm.trans hcalls')]

theorem propfindReceived_flaky (path : Path) (s : Site) :
    propfindReceived (flaky base) srv path 0 s =
      if (s.outcomes 0).reply.code = .ok then some ((s.outcomes 0).reply, s.next) else none := by
  have hperform : (flaky base).perform (propfindRequest path 0) s =
      ((s.outcomes 0).reply, s.next) :=
    Prod.ext (perform_reply (by exact nofun) s) (perform_other (by exact nofun) (by exact nofun) s)
  rw [(flaky_steady base).propfindReceived, hperform]

/-- `dav_getattr` fails and changes nothing, does not return, or reports attributes. -/
theorem getattr_run (path : Path) (stbuf : Stat) {t : Thread (Mem Site)} (h : t.ex = .clear) :
    ((∀ st, ¬Reported base srv stbuf t.mem.env st) ∧ ∃ v st t',
      (davGetattr (flaky base) srv path stbuf : Dav Site ℤ (ℤ × Stat)) t = (.ok (v, st), t') ∧
        v ≠ 0 ∧ t'.mem.env.store = t.mem.env.store) ∨
    ((∀ st, ¬Reported base srv stbuf t.mem.env st) ∧ ∃ t',
      (davGetattr (flaky base) srv path stbuf : Dav Site ℤ (ℤ × Stat)) t = (.error .fault, t')) ∨
    (∃ st t', Reported base srv stbuf t.mem.env st ∧
      (davGetattr (flaky base) srv path stbuf : Dav Site ℤ (ℤ × Stat)) t = (.ok (0, st), t') ∧
      t'.ex = .clear ∧ t'.mem.held = t.mem.held ∧ t'.mem.env = t.mem.env.next) := by
  have hex : t.ex.has = false := by rw [h]; rfl
  have hstore := (within_davGetattr (R := SameStore) (A := anyExit (ρ := ℤ)) (flaky base) srv
    path stbuf t).1
  have hheld := (within_davGetattr (R := SameHeld) (A := anyExit (ρ := ℤ)) (flaky base) srv
    path stbuf t).1
  have hplain := (within_davGetattr (R := StaysPlain) (A := anyExit (ρ := ℤ)) (flaky base) srv
    path stbuf t).1 fun _ => h
  have hreceived := propfindReceived_flaky base srv path t.mem.env
  unfold Reported
  by_cases hc : (t.mem.env.outcomes 0).reply.code = .ok
  · rw [if_pos hc] at hreceived
    obtain ⟨hno, v, st, t', hrun, hv⟩ | ⟨hno, t', hrun⟩ | ⟨st, t', hrep, hrun, hex', t₀, henv, hlast⟩ :=
      davGetattr_cases (ρ := ℤ) (flaky base) srv hex hreceived stbuf
    · rw [hrun] at hstore
      exact .inl ⟨fun st hrep => hno st hrep.2, v, st, t', hrun, hv.ne, hstore⟩
    · exact .inr (.inl ⟨fun st hrep => hno st hrep.2, t', hrun⟩)
    · rw [hrun] at hheld hplain
      have hsame := (within_propfindReply (R := SameEnv) (A := anyExit (ρ := ℤ)) (flaky base) srv
        within_davGetattrCallback (t.mem.env.outcomes 0).reply t₀).1
      rw [hlast] at hsame
      exact .inr (.inr ⟨st, t', ⟨hc, hrep⟩, hrun, hplain hex', hheld, hsame.trans henv⟩)
  · rw [if_neg hc] at hreceived
    obtain ⟨v, t', hrun, hex'⟩ := davPropfind_not_received (t := withStat stbuf t) (ρ := ℤ)
      (flaky base) srv davGetattrCallback hex hreceived
    obtain ⟨v', st, t'', hget, hv⟩ := davGetattr_pending (flaky base) srv hrun hex'
    rw [hget] at hstore
    exact .inl ⟨fun st hrep => hc hrep.1, v', st, t'', hget, hv.ne, hstore⟩

/-! ## `dav_truncate` -/

/-- The array of `dav_truncate` before it is read into. -/
def truncateBuffer (size : ℤ) (s : Site) : Bytes :=
  (List.range size.toNat).map (base.stackByte s)

/-- If `dav_truncate` fails, the file is what it was. -/
def TruncateKeeps (path : Path) (size : ℤ) (s : Site) (table : List FileLock) : Prop :=
  ∀ v t', (davTruncate (flaky base) srv path size : Dav Site ℤ ℤ) (entered s table) = (.ok v, t') →
    v ≠ 0 → t'.mem.env.store path = s.store path

/-- The `HEAD` gives a length, `size` as an `unsigned` is below half of it, and `dav_read`
    returns zero. -/
def Rewrites (path : Path) (size : ℤ) (s : Site) (body : Bytes) : Prop :=
  (s.outcome (headRequest path)).reply.code = .ok ∧
    toUnsigned size < headLength (s.outcome (headRequest path)).reply / 2 ∧
    readZero (truncateBuffer base size s.next) (s.outcomes 1) = some body

/-- `dav_getattr` reports another size, the file is to be replaced, and the outcomes of the
    requests that replace it lose what was there. -/
def TruncateLoses (path : Path) (size : ℤ) (s : Site) (content : Bytes) : Prop :=
  ∃ st, Reported base srv (base.stackStat s) s st ∧ st.size ≠ size ∧
    if size = 0 then Loses content [] true fun n => s.outcomes (n + 1)
    else ∃ body, Rewrites base path size s.next body ∧
      Loses content body false fun n => s.outcomes (n + 3)

section Truncate

variable {path : Path} {size : ℤ} {content : Bytes} {t : Thread (Mem Site)} (h : t.ex = .clear)
  (hheld : t.mem.held = []) (hstore : t.mem.env.store path = some content)

include hstore

omit base srv in
/-- Nothing is lost where nothing is changed. -/
theorem not_lost_of_store {v : ℤ} {t' : Thread (Mem Site)}
    (hsame : t'.mem.env.store = t.mem.env.store) : ¬Lost path content v t' := by
  rintro ⟨-, hne⟩
  rw [hsame] at hne
  exact hne hstore

include h hheld

/-- `dav_truncate` below half of the length. -/
theorem truncateRewrite_run (hsize : 0 < size) :
    ∃ v t', (truncateRewrite (flaky base) srv path size : Dav Site ℤ ℤ) t = (.ok v, t') ∧
      (Lost path content v t' ↔ ∃ body,
        readZero (truncateBuffer base size t.mem.env) (t.mem.env.outcomes 0) = some body ∧
          Loses content body false fun n => t.mem.env.outcomes (n + 1)) := by
  have hdata : (truncateBuffer base size t.mem.env).length ≠ 0 := by
    rw [truncateBuffer, List.length_map, List.length_range]
    omega
  obtain ⟨v, buf, t₁, hread, henv, hheld₁, hzero, hcount⟩ := davRead_run base srv (t := t) hdata h
  have harray : ((flaky base).stackArray size.toNat : Dav Site ℤ Bytes) t =
      (.ok (truncateBuffer base size t.mem.env), t) := rfl
  rcases hr : readZero (truncateBuffer base size t.mem.env) (t.mem.env.outcomes 0) with _ | body
  · refine ⟨v, t₁, ?_, ?_⟩
    · refine (Ctl.bind_ok harray).trans ((Ctl.bind_ok hread).trans ?_)
      rw [if_pos (hcount hr)]
      rfl
    · refine ⟨fun hlost => absurd hlost (not_lost_of_store hstore (by rw [henv]; rfl)), ?_⟩
      rintro ⟨body, hnone, -⟩
      exact nomatch hnone
  · obtain ⟨rfl, rfl, hex₁⟩ := hzero body hr
    have hstore₁ : t₁.mem.env.store path = some content := by
      rw [henv]
      exact hstore
    obtain ⟨v', t', hrun, hlost⟩ := rewrite_run base srv hex₁ (hheld₁.trans hheld) hstore₁ buf
    refine ⟨v', t', ?_, ?_⟩
    · exact (Ctl.bind_ok harray).trans ((Ctl.bind_ok hread).trans hrun)
    · rw [hlost, henv]
      constructor
      · intro hloses
        exact ⟨buf, rfl, hloses⟩
      · rintro ⟨body, hbody, hloses⟩
        rw [Option.some.inj hbody]
        exact hloses

/-- `dav_truncate` to a size other than zero. -/
theorem truncateNonzero_run (hsize : 0 < size) :
    ∃ v t', (truncateNonzero (flaky base) srv path size : Dav Site ℤ ℤ) t = (.ok v, t') ∧
      (Lost path content v t' ↔ ∃ body, Rewrites base path size t.mem.env body ∧
        Loses content body false fun n => t.mem.env.outcomes (n + 2)) := by
  have hex : t.ex.has = false := by rw [h]; rfl
  unfold Rewrites
  by_cases hc : (t.mem.env.outcome (headRequest path)).reply.code = .ok
  · have hhead := davHead_ok (ρ := ℤ) srv (flaky_steady base) hex
      (by rw [flaky_perform, perform_head]; exact hc)
    rw [flaky_perform, perform_head] at hhead
    change _ = (Except.ok (0, headLength (t.mem.env.outcome (headRequest path)).reply), _) at hhead
    set t₁ := answered (flaky base) (headRequest path) t with ht₁
    have henv₁ : t₁.mem.env = t.mem.env.next := by
      rw [ht₁, answered_env, flaky_perform, perform_head]
    have hstore₁ : t₁.mem.env.store path = some content := by
      rw [henv₁]
      exact hstore
    by_cases hhalf : toUnsigned size < headLength (t.mem.env.outcome (headRequest path)).reply / 2
    · obtain ⟨v, t', hrun, hlost⟩ :=
        truncateRewrite_run base srv (t := t₁) h hheld hstore₁ hsize
      refine ⟨v, t', ?_, ?_⟩
      · refine (Ctl.bind_ok hhead).trans ?_
        dsimp only
        rw [if_neg (not_not_intro rfl), if_pos hhalf, hrun]
      · rw [hlost, henv₁]
        constructor
        · rintro ⟨body, hzero, hloses⟩
          exact ⟨body, ⟨hc, hhalf, hzero⟩, hloses⟩
        · rintro ⟨body, ⟨-, -, hzero⟩, hloses⟩
          exact ⟨body, hzero, hloses⟩
    · obtain ⟨v, t', hrun, henv, -⟩ := (requests_davProppatch (ρ := ℤ) base srv (t := t₁) hex path
        ⟨none, "size".toList⟩ (some (sizeValue size))).tested
      rw [perform_other (by exact nofun) (by exact nofun)] at henv
      refine ⟨v, t', ?_, ?_⟩
      · refine (Ctl.bind_ok hhead).trans ?_
        dsimp only
        rw [if_neg (not_not_intro rfl), if_neg hhalf]
        exact hrun
      · refine ⟨fun hlost => absurd hlost (not_lost_of_store hstore₁ (by rw [henv]; rfl)), ?_⟩
        rintro ⟨body, ⟨-, hlt, -⟩, -⟩
        exact absurd hlt hhalf
  · have hhead := head_refused base srv path hex hc
    set t₁ := refused (t.mem.env.outcome (headRequest path)).reply
      (answered (flaky base) (headRequest path) t) with ht₁
    have henv₁ : t₁.mem.env = t.mem.env.next := by
      rw [ht₁, refused_mem, answered_env, flaky_perform, perform_head]
    refine ⟨exceptionErrno t₁.ex, ⟨.clear, t₁.mem⟩, (Ctl.bind_ok hhead).trans ?_, ?_⟩
    · rw [if_pos (by decide), davExceptionMap_apply]
    · refine ⟨fun hlost => absurd hlost (not_lost_of_store hstore (by rw [henv₁]; rfl)), ?_⟩
      rintro ⟨body, ⟨hok, -⟩, -⟩
      exact absurd hok hc

end Truncate

/-- A call that returns keeps the file unless it loses it. -/
theorem truncateKeeps_iff_not_lost {path : Path} {size : ℤ} {s : Site} {content : Bytes}
    (hexists : s.store path = some content) {table : List FileLock} (v : ℤ)
    (t : Thread (Mem Site)) (hrun : (davTruncate (flaky base) srv path size : Dav Site ℤ ℤ)
      (entered s table) = (.ok v, t)) :
    TruncateKeeps base srv path size s table ↔ ¬Lost path content v t := by
  constructor
  · rintro hkeeps ⟨hv, hne⟩
    rw [hkeeps v t hrun hv] at hne
    exact hne hexists
  · intro hlost v' t' hrun' hv'
    rw [hrun] at hrun'
    obtain ⟨hv, ht⟩ := Prod.mk.inj hrun'
    rw [← ht, hexists]
    by_contra hne
    exact hlost ⟨Except.ok.inj hv ▸ hv', hne⟩

/-- A `dav_truncate` that fails leaves the file as it was, exactly when it does not lose it
    between the `DELETE` and the end. -/
theorem truncate_keeps_iff {path : Path} {size : ℤ} (hsize : 0 ≤ size) {s : Site} {content : Bytes}
    (hexists : s.store path = some content) (table : List FileLock) :
    TruncateKeeps base srv path size s table ↔ ¬TruncateLoses base srv path size s content := by
  have hstack : (Ctl.gets (fun t => (flaky base).stackStat t.mem.env) : Dav Site ℤ Stat)
      (entered s table) = (.ok (base.stackStat s), entered s table) := rfl
  obtain ⟨hno, v, st, t', hrun, hv, hsame⟩ | ⟨hno, t', hrun⟩ |
    ⟨st, t', hrep, hrun, hex, hheld, henv⟩ :=
      getattr_run base srv path (base.stackStat s) (t := entered s table) rfl
  · rw [truncateKeeps_iff_not_lost base srv hexists v t' (by
      refine (Ctl.bind_ok hstack).trans ((Ctl.bind_ok hrun).trans ?_)
      rw [if_pos hv]
      rfl)]
    refine ⟨fun _ ⟨st, hrep, _⟩ => hno st hrep, fun _ => ?_⟩
    exact not_lost_of_store (t := entered s table) hexists hsame
  · have hfault : (davTruncate (flaky base) srv path size : Dav Site ℤ ℤ) (entered s table) =
        (.error .fault, t') :=
      (Ctl.bind_ok hstack).trans (Ctl.bind_error hrun)
    refine ⟨fun _ ⟨st, hrep, _⟩ => hno st hrep, fun _ v t'' hrun' => ?_⟩
    rw [hfault] at hrun'
    exact nomatch hrun'
  · have hstore' : t'.mem.env.store path = some content := by
      rw [henv]
      exact hexists
    have hlast : TruncateLoses base srv path size s content ↔ st.size ≠ size ∧
        if size = 0 then Loses content [] true fun n => s.outcomes (n + 1)
        else ∃ body, Rewrites base path size s.next body ∧
          Loses content body false fun n => s.outcomes (n + 3) := by
      constructor
      · rintro ⟨st', hrep', hloses⟩
        rw [hrep.2.unique hrep'.2]
        exact hloses
      · intro hloses
        exact ⟨st, hrep, hloses⟩
    rw [hlast]
    by_cases heq : st.size = size
    · rw [truncateKeeps_iff_not_lost base srv hexists 0 t' (by
        refine (Ctl.bind_ok hstack).trans ((Ctl.bind_ok hrun).trans ?_)
        rw [if_neg (not_not_intro rfl), if_pos heq]
        rfl)]
      exact ⟨fun _ hloses => hloses.1 heq, fun _ hlost => hlost.1 rfl⟩
    · by_cases hzero : size = 0
      · obtain ⟨v, t'', hrun', hlost⟩ := truncateZero_run base srv (by rw [hex]; rfl) hheld hstore' st.mode
        rw [truncateKeeps_iff_not_lost base srv hexists v t'' (by
          refine (Ctl.bind_ok hstack).trans ((Ctl.bind_ok hrun).trans ?_)
          rw [if_neg (not_not_intro rfl), if_neg heq, if_pos hzero]
          exact hrun'), hlost, henv, if_pos hzero]
        exact not_congr ⟨fun hloses => ⟨heq, hloses⟩, fun hloses => hloses.2⟩
      · obtain ⟨v, t'', hrun', hlost⟩ :=
          truncateNonzero_run base srv hex hheld hstore' (by omega : 0 < size)
        rw [truncateKeeps_iff_not_lost base srv hexists v t'' (by
          refine (Ctl.bind_ok hstack).trans ((Ctl.bind_ok hrun).trans ?_)
          rw [if_neg (not_not_intro rfl), if_neg heq, if_neg hzero]
          exact hrun'), hlost, henv, if_neg hzero]
        exact not_congr ⟨fun hloses => ⟨heq, hloses⟩, fun hloses => hloses.2⟩

/-- The multi-status reply about a file of one byte. -/
def oneByteReply : Reply :=
  multistatus "http://h/a" [davNode "response" [davNode "href" [textNode "http://h/a"],
    davNode "propstat" [davNode "prop" [davNode "getcontentlength" [textNode "1"]],
      davNode "status" [textNode "HTTP/1.1 200 OK"]]]]

/-- `/a` holds a byte; `PROPFIND` reports it, and the outcomes after it are `delete`, `put`
    and then successes. -/
def oneByteFile (delete put : Outcome) : Site :=
  ⟨fun path => if path = [47, 97] then some [1] else none, [], fun n => match n with
    | 0 => .done oneByteReply
    | 1 => delete
    | 2 => put
    | _ => .done (plainReply 201)⟩

/-- The `DELETE` is refused, so the file stays. -/
theorem truncate_keeps_delete_refused :
    TruncateKeeps (serving Site.perform) lockingServer [47, 97] 0
      (oneByteFile (.status 423) (.done (plainReply 201))) [] := by
  have hexists : (oneByteFile (.status 423) (.done (plainReply 201))).store [47, 97] = some [1] := rfl
  refine (truncate_keeps_iff (serving Site.perform) lockingServer (le_refl 0) hexists []).mpr ?_
  rintro ⟨st, -, -, hloses⟩
  rw [if_pos rfl, loses_of_delete_failed (by exact nofun)] at hloses
  exact Bool.false_ne_true hloses

/-- The `DELETE` succeeds and the `PUT` after it is refused: `-ENOSPC`, and the file is gone. -/
theorem truncate_loses_put_refused :
    ∃ t', (davTruncate (flaky (serving Site.perform)) lockingServer [47, 97] 0 : Dav Site ℤ ℤ)
        (entered (oneByteFile (.done (plainReply 204)) (.status 507)) []) = (.ok (-enospc), t') ∧
      t'.mem.env.store [47, 97] = none ∧
      ¬TruncateKeeps (serving Site.perform) lockingServer [47, 97] 0
        (oneByteFile (.done (plainReply 204)) (.status 507)) [] := by
  have hrun : (davTruncate (flaky (serving Site.perform)) lockingServer [47, 97] 0 : Dav Site ℤ ℤ)
      (entered (oneByteFile (.done (plainReply 204)) (.status 507)) []) = (.ok (-enospc), _) := rfl
  refine ⟨_, hrun, rfl, fun hkeeps => ?_⟩
  have hgone := hkeeps _ _ hrun (by decide)
  exact nomatch hgone

end NetworkFs.Dav
