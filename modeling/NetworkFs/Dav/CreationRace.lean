import NetworkFs.Dav.Interleaving

/-!
# Two creators of one file

`dav_mknod` tests with a `HEAD` that there is nothing and creates with a `PUT`, which
empties whatever is there by then. Two clients whose tests both come before the first
`PUT` both return zero, and the second `PUT` drops what the first client wrote.

* `createAndWrite_returns`: `dav_mknod`, or `dav_create` when it takes no lock, followed
  by calls of `dav_write`, as a client of the server.
* `create_turns_iff`: when only one of two creations succeeds and its data stays.
-/

namespace NetworkFs.Dav

open Control Grammar Wrapper Text Data Concurrency

/-! ## Creating and writing as a client -/

/-- A creation with the `If` lines of its mount, and the writes that follow if it returns
    zero. -/
structure CreateCall where
  lines : List Header
  mode : ℕ
  writes : List WriteCall

/-- Between two requests of a creation and the writes after it. -/
inductive CreateStage where
  /-- Before the `HEAD`. -/
  | probe
  /-- Before the `PUT`. -/
  | put
  /-- Before the `PROPPATCH` of `dav_chmod`. -/
  | patch
  /-- The creation returned something else than zero. -/
  | refused (v : ℤ)
  /-- In a `dav_write`, with those to follow. -/
  | writing (x : WriteStage) (w : WriteCall) (rest : List WriteCall)
  /-- The creation returned zero, and nothing is left to write. -/
  | created

/-- Before the next `dav_write`. -/
def CreateStage.next : List WriteCall → CreateStage
  | [] => .created
  | w :: rest => .writing .first w rest

/-- In a `dav_write`, or after it. -/
def CreateStage.within (w : WriteCall) (rest : List WriteCall) : WriteStage → CreateStage
  | .ended _ => .next rest
  | x => .writing x w rest

/-- The `PROPPATCH` of `dav_chmod`. -/
def modeRequest (path : Path) (mode : ℕ) : Request :=
  proppatchRequest path ⟨some "N".toList, "mode".toList⟩ (some (modeValue mode))

/-- `dav_mknod` (lines 245–266) of something that is not a directory, and then `dav_write`,
    from request to request. -/
def createClient (path : Path) (c : CreateCall) : Client CreateStage Request Reply ℤ where
  view
    | .probe => .inr (headRequest path)
    | .put => .inr ⟨.put, path, c.lines, none, .none⟩
    | .patch => .inr (modeRequest path c.mode)
    | .refused v => .inl v
    | .writing x w _ =>
      match (writeClient path w).view x with
      | .inl _ => .inl 0
      | .inr q => .inr q
    | .created => .inl 0
  resume
    | .probe, reply =>
      if reply.code = .ok then .refused (-eexist)
      else if (replyException reply).isHttp 404 || (replyException reply).isHttp 403 then .put
      else .refused (exceptionErrno (replyException reply))
    | .put, reply =>
      if reply.code = .ok then .patch else .refused (exceptionErrno (replyException reply))
    | .patch, reply =>
      if reply.code = .ok then .next c.writes
      else .refused (exceptionErrno (replyException reply))
    | .refused v, _ => .refused v
    | .writing x w rest, reply => .within w rest ((writeClient path w).resume x reply)
    | .created, _ => .created

section Returns

variable {σ ρ : Type} {env : Env σ} (srv : DavServer) (path : Path)

/-- The calls of `dav_write`, one after the other. -/
def writeAll (env : Env σ) : List WriteCall → Dav σ ρ Unit
  | [] => pure ()
  | w :: rest => do
    let _ ← davWrite env srv path w.buf w.offset
    writeAll env rest

/-- A creation, and the writes if it returns zero. -/
def createAndWrite (env : Env σ) (create : Dav σ ρ ℤ) (writes : List WriteCall) : Dav σ ρ ℤ := do
  let res ← create
  if res ≠ 0 then pure res else do
    writeAll srv path env writes
    pure 0

/-- A `dav_write` inside the client. -/
theorem returns_within {serve : Request → σ → Reply × σ} {c : CreateCall} {w : WriteCall}
    {rest : List WriteCall} {x : WriteStage} {s s' s'' : σ} {v a : ℤ}
    (h : (writeClient path w).Returns serve x s v s')
    (h' : (createClient path c).Returns serve (.next rest) s' a s'') :
    (createClient path c).Returns serve (.within w rest x) s a s'' := by
  induction h with
  | @done x s v hview =>
    cases x with
    | ended u => exact h'
    | first => exact nomatch hview
    | head => exact nomatch hview
    | pad n => exact nomatch hview
    | last => exact nomatch hview
  | @ask x s s' q v hview hrest ih =>
    have hwithin : CreateStage.within w rest x = .writing x w rest := by
      cases x with
      | ended u => exact nomatch hview
      | first => rfl
      | head => rfl
      | pad n => rfl
      | last => rfl
    rw [hwithin]
    refine .ask (q := q) ?_ (ih h')
    simp only [createClient, hview]

variable (hs : Steady env) {t : Thread (Mem σ)} (h : t.ex.has = false) (hl : CanLock srv .read t)

include hs h hl

theorem writeAll_returns {c : CreateCall} {writes : List WriteCall}
    (hlines : ∀ w ∈ writes, w.lines = lockLines srv path .read t.mem.table) :
    ∃ t', (writeAll srv path env writes : Dav σ ρ Unit) t = (.ok (), t') ∧
      (createClient path c).Returns env.perform (.next writes) t.mem.env 0 t'.mem.env := by
  induction writes generalizing t with
  | nil => exact ⟨t, rfl, .done rfl⟩
  | cons w rest ih =>
    obtain ⟨v, t', hwrite, hreturns, hex, hl', htable⟩ := davWrite_returns (ρ := ρ) srv hs path h hl
      (hlines w List.mem_cons_self)
    obtain ⟨t'', hrest, hreturns'⟩ := ih hex hl' fun w' hw' => by
      rw [htable]
      exact hlines w' (List.mem_cons_of_mem _ hw')
    exact ⟨t'', (Ctl.bind_ok hwrite).trans hrest, returns_within path hreturns hreturns'⟩

/-- `t` comes to an end in `t'`, where another call can follow. -/
def Follows (srv : DavServer) (t t' : Thread (Mem σ)) : Prop :=
  t'.ex.has = false ∧ CanLock srv .read t' ∧ t'.mem.table = t.mem.table

/-- `create` returns zero and the client goes on to write, or it returns what the client
    does. -/
def Creates (env : Env σ) (c : CreateCall) (create : Dav σ ρ ℤ) (x : CreateStage)
    (t : Thread (Mem σ)) : Prop :=
  ∃ v t', create t = (.ok v, t') ∧ Follows srv t t' ∧
    (v = 0 → ∀ a s', (createClient path c).Returns env.perform (.next c.writes) t'.mem.env a s' →
      (createClient path c).Returns env.perform x t.mem.env a s') ∧
    (v ≠ 0 → (createClient path c).Returns env.perform x t.mem.env v t'.mem.env)

theorem creates_patch (c : CreateCall) :
    Creates srv path env c (davChmod env srv path c.mode : Dav σ ρ ℤ) .patch t := by
  have hview : (createClient path c).view .patch = .inr (modeRequest path c.mode) := rfl
  have hstage (reply : Reply) : (createClient path c).resume .patch reply =
    if reply.code = .ok then .next c.writes
    else .refused (exceptionErrno (replyException reply)) := rfl
  by_cases hc : (env.perform (modeRequest path c.mode) t.mem.env).1.code = .ok
  · have hpatch := davProppatch_ok (ρ := ρ) srv hs h hc
    refine ⟨0, _, (Ctl.bind_ok hpatch).trans (davExceptionCheck_clean 0 h), ⟨h, hl, rfl⟩,
      fun _ a s' hrest => .ask hview ?_, fun hne => absurd rfl hne⟩
    rw [hstage, if_pos hc]
    exact hrest
  · have hpatch := davProppatch_failed (ρ := ρ) srv hs h hc
    refine ⟨_, _, (Ctl.bind_ok hpatch).trans (davExceptionCheck_pending 0 rfl), ⟨rfl, hl, rfl⟩,
      fun hzero => absurd hzero (exceptionErrno_neg _).ne, fun _ => .ask hview ?_⟩
    rw [hstage, if_neg hc]
    exact .done rfl

/-- `dav_mknod` is this client. -/
theorem creates_davMknod {c : CreateCall} (hlines : c.lines = lockLines srv path .read t.mem.table)
    (hdir : isDir c.mode = false) (rdev : ℕ) :
    Creates srv path env c (davMknod env srv path c.mode rdev : Dav σ ρ ℤ) .probe t := by
  have hview : (createClient path c).view .probe = .inr (headRequest path) := rfl
  have hstage (reply : Reply) : (createClient path c).resume .probe reply =
    if reply.code = .ok then .refused (-eexist)
    else if (replyException reply).isHttp 404 || (replyException reply).isHttp 403 then .put
    else .refused (exceptionErrno (replyException reply)) := rfl
  set reply := (env.perform (headRequest path) t.mem.env).1 with hreply
  by_cases hc : reply.code = .ok
  · have hrun := davMknod_exists (ρ := ρ) env srv rdev hdir (davHead_ok srv hs h hc) h
    refine ⟨_, _, hrun, ⟨h, hl, rfl⟩, fun hzero => (nomatch hzero), fun _ => .ask hview ?_⟩
    rw [hstage, if_pos hc]
    exact .done rfl
  · have hhead := davHead_failed (ρ := ℤ) srv hs h hc
    cases he : (replyException reply).isHttp 404 || (replyException reply).isHttp 403 with
    | false =>
      refine ⟨_, _, davMknod_failed env srv rdev hdir hhead rfl he, ⟨rfl, hl, rfl⟩,
        fun hzero => absurd hzero (exceptionErrno_neg _).ne, fun _ => .ask hview ?_⟩
      rw [hstage, if_neg hc, he, if_neg (by decide)]
      exact .done rfl
    | true =>
      set t₁ : Thread (Mem σ) := ⟨.clear, (answered env (headRequest path) t).mem⟩ with ht₁
      have hask (a : ℤ) (s' : σ) (hrest : (createClient path c).Returns env.perform .put
          t₁.mem.env a s') : (createClient path c).Returns env.perform .probe t.mem.env a s' := by
        refine .ask hview ?_
        rw [hstage, if_neg hc, he, if_pos rfl]
        exact hrest
      have hview' : (createClient path c).view .put =
          .inr (methodRequest srv path .put .read t₁.mem.table) := by
        rw [methodRequest, ← show c.lines = lockLines srv path .read t₁.mem.table from hlines]
        rfl
      have hstage' (reply : Reply) : (createClient path c).resume .put reply =
        if reply.code = .ok then .patch
        else .refused (exceptionErrno (replyException reply)) := rfl
      by_cases hc' : (env.perform (methodRequest srv path .put .read t₁.mem.table)
          t₁.mem.env).1.code = .ok
      · have hput := davMethod_ok (ρ := ℤ) srv hs (t := t₁) rfl path .put hl hc'
        rw [listed_read] at hput
        obtain ⟨v, t', hchmod, ⟨hex, hl', htable⟩, hzero, hne⟩ := creates_patch (ρ := ℤ) srv path hs
          (t := answered env (methodRequest srv path .put .read t₁.mem.table) t₁) rfl hl c
        have hput' (a : ℤ) (s' : σ) (hrest : (createClient path c).Returns env.perform .patch
            (answered env (methodRequest srv path .put .read t₁.mem.table) t₁).mem.env a s') :
            (createClient path c).Returns env.perform .put t₁.mem.env a s' := by
          refine .ask hview' ?_
          rw [hstage', if_pos hc']
          exact hrest
        refine ⟨v, t', ?_, ⟨hex, hl', htable⟩, fun hv a s' hrest => ?_, fun hv => ?_⟩
        · exact (davMknod_put env srv rdev hdir hhead rfl he hput rfl).trans (Ctl.call_ok hchmod)
        · exact hask _ _ (hput' _ _ (hzero hv a s' hrest))
        · exact hask _ _ (hput' _ _ (hne hv))
      · have hput := davMethod_failed (ρ := ℤ) srv hs (t := t₁) rfl path .put hl hc'
        rw [listed_read] at hput
        refine ⟨_, _, davMknod_put_failed env srv rdev hdir hhead rfl he hput rfl,
          ⟨rfl, canLock_locked srv hl, ?_⟩, fun hzero => absurd hzero (exceptionErrno_neg _).ne,
          fun _ => hask _ _ (.ask hview' ?_)⟩
        · rw [refused_mem, locked_table]
          rfl
        · rw [hstage', if_neg hc', refused_mem, locked_env]
          exact .done rfl

omit hs h hl in
/-- Without a lock to take `dav_create` is `dav_mknod`. -/
theorem davCreate_eq_davMknod (env : Env σ) (mode : ℕ) {fi : OpenFlags}
    (hlock : srv.lock = false ∨ srv.options.useLock = false ∨ fi.writes = false) :
    (davCreate env srv path mode fi : Dav σ ρ ℤ) = davMknod env srv path mode 0 := by
  have hopen : fi.writes = true → (davOpenCore env srv path : Dav σ ρ ℤ) = pure 0 := by
    intro hwrites
    rcases hlock with hlock | hlock | hlock
    · rw [davOpenCore, hlock, if_neg (by decide)]
    · have hfree : (davLock env srv path : Dav σ ρ ℤ) = pure 0 := by
        rw [davLock, hlock, if_neg (by decide)]
      rw [davOpenCore, hfree, pure_bind]
      split_ifs <;> rfl
    · exact absurd hwrites (by rw [hlock]; decide)
  have hrest (res : ℤ) : (if res ≠ 0 then pure res
      else if fi.writes then davOpenCore env srv path else pure res : Dav σ ρ ℤ) = pure res := by
    split_ifs with hres hwrites
    · rfl
    · rw [hopen hwrites, not_not.mp hres]
    · rfl
  rw [davCreate]
  simp only [hrest, bind_pure]

omit h hl in
/-- A creation that is this client, and then the writes. -/
theorem createAndWrite_returns {c : CreateCall} {create : Dav σ ρ ℤ}
    (hcreate : Creates srv path env c create .probe t)
    (hlines : ∀ w ∈ c.writes, w.lines = lockLines srv path .read t.mem.table) :
    ∃ v t', (createAndWrite srv path env create c.writes : Dav σ ρ ℤ) t = (.ok v, t') ∧
      (createClient path c).Returns env.perform .probe t.mem.env v t'.mem.env := by
  obtain ⟨v, t₁, hrun, ⟨hex, hl', htable⟩, hzero, hne⟩ := hcreate
  by_cases hv : v = 0
  · obtain ⟨t', hwrites, hreturns⟩ := writeAll_returns (ρ := ρ) srv path hs hex hl'
      (fun w hw => by rw [htable]; exact hlines w hw)
    refine ⟨0, t', (Ctl.bind_ok hrun).trans ?_, hzero hv _ _ hreturns⟩
    rw [if_neg (not_not_intro hv), Ctl.bind_ok hwrites]
    rfl
  · refine ⟨v, t₁, (Ctl.bind_ok hrun).trans ?_, hne hv⟩
    rw [if_pos hv]
    rfl

end Returns

/-! ## The file -/

/-- What the server keeps at `path`, when no request fails but the `HEAD` of something
    absent. -/
structure ServesCreation {σ : Type} (serve : Request → σ → Reply × σ) (path : Path)
    (content : σ → Option Bytes) : Prop where
  absent : ∀ s, content s = none → (serve (headRequest path) s).1.code = .httpReturnedError ∧
    (serve (headRequest path) s).1.status = 404 ∧ content (serve (headRequest path) s).2 = none
  present : ∀ s F, content s = some F → (serve (headRequest path) s).1.code = .ok ∧
    content (serve (headRequest path) s).2 = some F
  put : ∀ lines s, (serve ⟨.put, path, lines, none, .none⟩ s).1.code = .ok ∧
    content (serve ⟨.put, path, lines, none, .none⟩ s).2 = some []
  patch : ∀ mode s, (serve (modeRequest path mode) s).1.code = .ok ∧
    content (serve (modeRequest path mode) s).2 = content s
  write : ∀ (w : WriteCall) s F, content s = some F →
    (serve (w.put path w.buf w.offset) s).1.code = .ok ∧
      content (serve (w.put path w.buf w.offset) s).2 = some (splice 0 F w.offset w.buf)

/-- One turn of a creation on the file. -/
inductive CreateTurn (c : CreateCall) : CreateStage → Option Bytes → CreateStage → Option Bytes →
    Prop
  | absent : CreateTurn c .probe none .put none
  | present {F : Bytes} : CreateTurn c .probe (some F) (.refused (-eexist)) (some F)
  | put {o : Option Bytes} : CreateTurn c .put o .patch (some [])
  | patch {o : Option Bytes} : CreateTurn c .patch o (.next c.writes) o
  | refused {v : ℤ} {o : Option Bytes} : CreateTurn c (.refused v) o (.refused v) o
  | write {w : WriteCall} {rest : List WriteCall} {F : Bytes} :
    CreateTurn c (.writing .first w rest) (some F) (.next rest) (some (splice 0 F w.offset w.buf))
  | created {o : Option Bytes} : CreateTurn c .created o .created o

/-- A creation or what follows it, as far as it gets when no request fails. -/
inductive CreateStage.Usual : CreateStage → Option Bytes → Prop
  | probe {o : Option Bytes} : Usual .probe o
  | put {o : Option Bytes} : Usual .put o
  | patch {o : Option Bytes} : Usual .patch o
  | refused {v : ℤ} {o : Option Bytes} : Usual (.refused v) o
  | next {rest : List WriteCall} {F : Bytes} : Usual (.next rest) (some F)

theorem createTurn_of_step {σ : Type} {serve : Request → σ → Reply × σ} {path : Path}
    {content : σ → Option Bytes} (hserve : ServesCreation serve path content)
    (calls : Bool → CreateCall) (x : System Bool CreateStage σ) (i : Bool)
    (husual : (x.stage i).Usual (content x.server)) :
    CreateTurn (calls i) (x.stage i) (content x.server)
      ((System.step (fun i => createClient path (calls i)) serve x i).stage i)
      (content (System.step (fun i => createClient path (calls i)) serve x i).server) := by
  set c := calls i with hc
  have hask {q : Request} (hview : (createClient path c).view (x.stage i) = .inr q) :
      (System.step (fun i => createClient path (calls i)) serve x i).stage i =
        (createClient path c).resume (x.stage i) (serve q x.server).1 ∧
      (System.step (fun i => createClient path (calls i)) serve x i).server =
        (serve q x.server).2 :=
    ⟨System.step_ask_stage hview, System.step_ask_server hview⟩
  have hdone {v : ℤ} (hview : (createClient path c).view (x.stage i) = .inl v) :
      System.step (fun i => createClient path (calls i)) serve x i = x :=
    System.step_done hview
  generalize hx : x.stage i = y at husual hask hdone
  generalize ho : content x.server = o at husual
  cases husual with
  | probe =>
    obtain ⟨hstage, hserver⟩ := hask (q := headRequest path) rfl
    rw [hstage, hserver]
    cases o with
    | none =>
      obtain ⟨hcode, hstatus, hsame⟩ := hserve.absent x.server ho
      have hput : (createClient path c).resume .probe (serve (headRequest path) x.server).1 =
          .put := by
        have hne : (serve (headRequest path) x.server).1.code ≠ .ok := by
          rw [hcode]
          exact nofun
        have h404 : ((replyException (serve (headRequest path) x.server).1).isHttp 404 ||
            (replyException (serve (headRequest path) x.server).1).isHttp 403) = true := by
          rw [replyException, hcode, hstatus]
          rfl
        exact (if_neg hne).trans (if_pos h404)
      rw [hput, hsame]
      exact .absent
    | some F =>
      obtain ⟨hcode, hsame⟩ := hserve.present x.server F ho
      have hrefused : (createClient path c).resume .probe (serve (headRequest path) x.server).1 =
        .refused (-eexist) := if_pos hcode
      rw [hrefused, hsame]
      exact .present
  | put =>
    obtain ⟨hstage, hserver⟩ := hask (q := ⟨.put, path, c.lines, none, .none⟩) rfl
    obtain ⟨hcode, hput⟩ := hserve.put c.lines x.server
    have hpatch : (createClient path c).resume .put
      (serve ⟨.put, path, c.lines, none, .none⟩ x.server).1 = .patch := if_pos hcode
    rw [hstage, hserver, hpatch, hput]
    exact .put
  | patch =>
    obtain ⟨hstage, hserver⟩ := hask (q := modeRequest path c.mode) rfl
    obtain ⟨hcode, hsame⟩ := hserve.patch c.mode x.server
    have hnext : (createClient path c).resume .patch (serve (modeRequest path c.mode) x.server).1 =
      .next c.writes := if_pos hcode
    rw [hstage, hserver, hnext, hsame, ho]
    exact .patch
  | @refused v =>
    rw [hdone (v := v) rfl, hx, ho]
    exact .refused
  | @next rest F =>
    cases rest with
    | nil =>
      rw [hdone (v := 0) rfl, hx, ho]
      exact .created
    | cons w rest =>
      obtain ⟨hstage, hserver⟩ := hask (q := w.put path w.buf w.offset) rfl
      obtain ⟨hcode, hwrite⟩ := hserve.write w x.server F ho
      have hended : (writeClient path w).resume .first
        (serve (w.put path w.buf w.offset) x.server).1 = .ended (toInt w.buf.length) := if_pos hcode
      have hnext : (createClient path c).resume (.next (w :: rest))
          (serve (w.put path w.buf w.offset) x.server).1 = .next rest := by
        show CreateStage.within w rest ((writeClient path w).resume .first _) = _
        rw [hended]
        rfl
      rw [hstage, hserver, hnext, hwrite]
      exact .write

/-! ## Both creations -/

/-- What the writes leave of an empty file. -/
def replay (writes : List WriteCall) : Bytes :=
  writes.foldl (fun F w => splice 0 F w.offset w.buf) []

/-- The creation `c` made the file, and what it wrote so far is there. -/
def Progress (c : CreateCall) (x : CreateStage) (o : Option Bytes) : Prop :=
  (x = .patch ∧ o = some []) ∨
    ∃ written rest, c.writes = written ++ rest ∧ x = .next rest ∧ o = some (replay written)

/-- The creation will return zero, or has. -/
def CreateStage.Committed (x : CreateStage) : Prop := x = .put ∨ x = .patch ∨ ∃ rest, x = .next rest

theorem Progress.usual {c : CreateCall} {x : CreateStage} {o : Option Bytes}
    (h : Progress c x o) : x.Usual o := by
  rcases h with ⟨rfl, -⟩ | ⟨written, rest, -, rfl, rfl⟩
  · exact .patch
  · exact .next

theorem Progress.some {c : CreateCall} {x : CreateStage} {o : Option Bytes}
    (h : Progress c x o) : ∃ F, o = Option.some F := by
  rcases h with ⟨-, ho⟩ | ⟨written, rest, -, -, ho⟩
  · exact ⟨_, ho⟩
  · exact ⟨_, ho⟩

/-- The creation is past its `PUT`. -/
theorem Progress.past {c : CreateCall} {x : CreateStage} {o : Option Bytes}
    (h : Progress c x o) : x ≠ .probe ∧ x ≠ .put := by
  rcases h with ⟨rfl, -⟩ | ⟨written, rest, -, rfl, -⟩
  · exact ⟨nofun, nofun⟩
  · cases rest <;> exact ⟨nofun, nofun⟩

namespace CreateTurn

variable {c : CreateCall} {x y : CreateStage} {o o' : Option Bytes}

theorem progress (h : CreateTurn c x o y o') (hx : Progress c x o) : Progress c y o' := by
  rcases hx with ⟨rfl, ho⟩ | ⟨written, rest, hwrites, hx, ho⟩
  · cases h with
    | patch => exact .inr ⟨[], c.writes, rfl, rfl, ho⟩
  · cases rest with
    | nil =>
      obtain rfl : x = .created := hx
      cases h with
      | created => exact .inr ⟨written, [], hwrites, rfl, ho⟩
    | cons w rest =>
      obtain rfl : x = .writing .first w rest := hx
      cases h with
      | write =>
        refine .inr ⟨written ++ [w], rest, by rw [hwrites, List.append_assoc]; rfl, rfl, ?_⟩
        rw [replay, List.foldl_append, Option.some.inj ho]
        rfl

theorem committed (h : CreateTurn c x o y o') (hx : x.Committed) : y.Committed := by
  rcases hx with rfl | rfl | ⟨rest, hx⟩
  · cases h with
    | put => exact .inr (.inl rfl)
  · cases h with
    | patch => exact .inr (.inr ⟨_, rfl⟩)
  · cases rest with
    | nil =>
      obtain rfl : x = .created := hx
      cases h with
      | created => exact .inr (.inr ⟨[], rfl⟩)
    | cons w rest =>
      obtain rfl : x = .writing .first w rest := hx
      cases h with
      | write => exact .inr (.inr ⟨rest, rfl⟩)

/-- Where the file is, a test fails. -/
theorem refuses (h : CreateTurn c x o y o') (ho : ∃ F, o = some F)
    (hx : x = .probe ∨ x = .refused (-eexist)) : y = .refused (-eexist) ∧ o' = o := by
  obtain ⟨F, rfl⟩ := ho
  rcases hx with rfl | rfl
  · cases h with
    | present => exact ⟨rfl, rfl⟩
  · cases h with
    | refused => exact ⟨rfl, rfl⟩

/-- After a turn of such a creation the file is there. -/
theorem isSome (h : CreateTurn c x o y o') (hx : x.Committed) (ho : x ≠ .put → o.isSome) :
    o'.isSome := by
  cases h with
  | absent =>
    rcases hx with hx | hx | ⟨rest, hx⟩
    · exact nomatch hx
    · exact nomatch hx
    · cases rest <;> exact nomatch hx
  | present => rfl
  | put => rfl
  | patch => exact ho nofun
  | refused => exact ho nofun
  | write => rfl
  | created => exact ho nofun

end CreateTurn

section Turns

variable {σ : Type} {serve : Request → σ → Reply × σ} {path : Path} {content : σ → Option Bytes}
  (hserve : ServesCreation serve path content) (calls : Bool → CreateCall)

/-- Client `i` is finished, and its creation returned `v`. -/
def Ended (path : Path) (calls : Bool → CreateCall) (x : System Bool CreateStage σ) (i : Bool)
    (v : ℤ) : Prop :=
  (createClient path (calls i)).view (x.stage i) = .inl v

/-- One creation returned zero and everything it wrote is there; the other returned
    `-EEXIST`. -/
def Exclusive (path : Path) (content : σ → Option Bytes) (calls : Bool → CreateCall)
    (x : System Bool CreateStage σ) : Prop :=
  ∃ i, Ended path calls x i 0 ∧ Ended path calls x (!i) (-eexist) ∧
    content x.server = some (replay (calls i).writes)

/-- The turn is not a `HEAD` between the `HEAD` and the `PUT` of the other creation. -/
def TestsApart (x : System Bool CreateStage σ) (i : Bool) : Prop :=
  x.stage i = .probe → x.stage (!i) ≠ .put

/-- At most one of the creations will return zero. -/
inductive OneCreates (content : σ → Option Bytes) (calls : Bool → CreateCall)
    (x : System Bool CreateStage σ) : Prop
  | untouched (h : ∀ i, x.stage i = .probe) (ho : content x.server = none)
  | tested (i : Bool) (h : x.stage i = .put) (h' : x.stage (!i) = .probe)
    (ho : content x.server = none)
  | creating (i : Bool) (h : Progress (calls i) (x.stage i) (content x.server))
    (h' : x.stage (!i) = .probe ∨ x.stage (!i) = .refused (-eexist))

/-- Both creations will return zero. -/
structure BothCreate (content : σ → Option Bytes) (x : System Bool CreateStage σ) : Prop where
  committed : ∀ i, (x.stage i).Committed
  made : ∀ i, x.stage i ≠ .put → (content x.server).isSome

theorem BothCreate.usual {x : System Bool CreateStage σ} (h : BothCreate content x) (i : Bool) :
    (x.stage i).Usual (content x.server) := by
  have hmade := h.made i
  rcases h.committed i with hx | hx | ⟨rest, hx⟩
  · rw [hx]
    exact .put
  · rw [hx]
    exact .patch
  · have hne : x.stage i ≠ .put := by
      rw [hx]
      cases rest <;> exact nofun
    obtain ⟨F, hF⟩ := Option.isSome_iff_exists.mp (hmade hne)
    rw [hx, hF]
    exact .next

/-- At the end. -/
theorem OneCreates.exclusive {calls : Bool → CreateCall} {x : System Bool CreateStage σ}
    (h : OneCreates content calls x) (hended : ∀ i, ∃ v, Ended path calls x i v) :
    Exclusive path content calls x := by
  unfold Ended at hended
  cases h with
  | untouched hx =>
    obtain ⟨v, hv⟩ := hended true
    rw [hx] at hv
    exact nomatch hv
  | tested i hx =>
    obtain ⟨v, hv⟩ := hended i
    rw [hx] at hv
    exact nomatch hv
  | creating i hprogress hx' =>
    obtain ⟨v, hv⟩ := hended i
    obtain ⟨v', hv'⟩ := hended !i
    rcases hprogress with ⟨hx, -⟩ | ⟨written, rest, hwrites, hx, ho⟩
    · rw [hx] at hv
      exact nomatch hv
    · rw [hx] at hv
      cases rest with
      | cons => exact nomatch hv
      | nil =>
        rw [List.append_nil] at hwrites
        rcases hx' with hx' | hx'
        · rw [hx'] at hv'
          exact nomatch hv'
        · refine ⟨i, ?_, ?_, by rw [ho, hwrites]⟩
          · rw [Ended, hx]
            rfl
          · rw [Ended, hx']
            rfl

theorem BothCreate.not_exclusive {calls : Bool → CreateCall} {x : System Bool CreateStage σ}
    (h : BothCreate content x) : ¬Exclusive path content calls x := by
  rintro ⟨i, -, hended, -⟩
  unfold Ended at hended
  rcases h.committed !i with hx | hx | ⟨rest, hx⟩
  · rw [hx] at hended
    exact nomatch hended
  · rw [hx] at hended
    exact nomatch hended
  · rw [hx] at hended
    cases rest with
    | nil => exact nomatch Sum.inl.inj hended
    | cons => exact nomatch hended

include hserve

theorem bothCreate_step {x : System Bool CreateStage σ} (h : BothCreate content x) (i : Bool) :
    BothCreate content (System.step (fun i => createClient path (calls i)) serve x i) := by
  have hturn := createTurn_of_step hserve calls x i (h.usual i)
  have hother : (System.step (fun i => createClient path (calls i)) serve x i).stage (!i) =
      x.stage (!i) := System.step_stage_ne x (Bool.not_ne_self i)
  refine ⟨fun j => ?_, fun _ _ => hturn.isSome (h.committed i) (h.made i)⟩
  obtain rfl | rfl : j = i ∨ j = !i := Bool.eq_or_eq_not j i
  · exact hturn.committed (h.committed j)
  · rw [hother]
    exact h.committed _

theorem oneCreates_step {x : System Bool CreateStage σ} {i : Bool} (h : OneCreates content calls x)
    (hapart : TestsApart x i) :
    OneCreates content calls (System.step (fun i => createClient path (calls i)) serve x i) := by
  have hother : (System.step (fun i => createClient path (calls i)) serve x i).stage (!i) =
      x.stage (!i) := System.step_stage_ne x (Bool.not_ne_self i)
  cases h with
  | untouched hx ho =>
    have hturn := createTurn_of_step hserve calls x i (by rw [hx i]; exact .probe)
    rw [hx i, ho] at hturn
    generalize hy : (System.step _ _ x i).stage i = y at hturn
    generalize ho' : content (System.step _ _ x i).server = o at hturn
    cases hturn with
    | absent => exact .tested i hy (by rw [hother]; exact hx _) ho'
  | tested j hx hx' ho =>
    obtain rfl | rfl : i = j ∨ i = !j := Bool.eq_or_eq_not i j
    · have hturn := createTurn_of_step hserve calls x i (by rw [hx]; exact .put)
      rw [hx, ho] at hturn
      generalize hy : (System.step _ _ x i).stage i = y at hturn
      generalize ho' : content (System.step _ _ x i).server = o at hturn
      cases hturn with
      | put => exact .creating i (.inl ⟨hy, ho'⟩) (.inl (by rw [hother]; exact hx'))
    · rw [Bool.not_not] at hother
      refine absurd hx ?_
      have hne := hapart hx'
      rwa [Bool.not_not] at hne
  | creating j hprogress hx' =>
    obtain rfl | rfl : i = j ∨ i = !j := Bool.eq_or_eq_not i j
    · have hturn := createTurn_of_step hserve calls x i hprogress.usual
      exact .creating i (hturn.progress hprogress) (by rw [hother]; exact hx')
    · have hturn := createTurn_of_step hserve calls x (!j) (by
        rcases hx' with hx' | hx'
        · rw [hx']
          exact .probe
        · rw [hx']
          exact .refused)
      rw [Bool.not_not] at hother
      obtain ⟨hrefused, hsame⟩ := hturn.refuses hprogress.some hx'
      refine .creating j ?_ (.inr hrefused)
      rw [hother, hsame]
      exact hprogress

theorem bothCreate_of_not_apart {x : System Bool CreateStage σ} {i : Bool}
    (h : OneCreates content calls x) (hapart : ¬TestsApart x i) :
    BothCreate content (System.step (fun i => createClient path (calls i)) serve x i) := by
  have hother : (System.step (fun i => createClient path (calls i)) serve x i).stage (!i) =
      x.stage (!i) := System.step_stage_ne x (Bool.not_ne_self i)
  unfold TestsApart at hapart
  push Not at hapart
  obtain ⟨hprobe, hput⟩ := hapart
  have hturn := createTurn_of_step hserve calls x i (by rw [hprobe]; exact .probe)
  have ho : content x.server = none := by
    cases h with
    | untouched _ ho => exact ho
    | tested _ _ _ ho => exact ho
    | creating j hprogress hx' =>
      obtain ⟨hne, hne'⟩ := hprogress.past
      obtain rfl | rfl : j = i ∨ j = !i := Bool.eq_or_eq_not j i
      · exact absurd hprobe hne
      · exact absurd hput hne'
  rw [hprobe, ho] at hturn
  generalize hy : (System.step _ _ x i).stage i = y at hturn
  generalize ho' : content (System.step _ _ x i).server = o at hturn
  cases hturn with
  | absent =>
    have hboth : ∀ j, (System.step (fun i => createClient path (calls i)) serve x i).stage j =
        .put := by
      intro j
      obtain rfl | rfl : j = i ∨ j = !i := Bool.eq_or_eq_not j i
      · exact hy
      · rw [hother]
        exact hput
    exact ⟨fun j => .inl (hboth j), fun j hne => absurd (hboth j) hne⟩

/-- Two creations run to their end: exactly one returns zero and everything it wrote is
    there, the other returns `-EEXIST`, if and only if no `HEAD` of one comes between the
    `HEAD` and the `PUT` of the other. -/
theorem create_turns_iff {s : σ} (hs : content s = none) (turns : List Bool)
    (hended : ∀ i, ∃ v, Ended path calls (System.run (fun i => createClient path (calls i)) serve
      ⟨fun _ => .probe, s⟩ turns) i v) :
    Exclusive path content calls (System.run (fun i => createClient path (calls i)) serve
      ⟨fun _ => .probe, s⟩ turns) ↔
    System.Along (fun i => createClient path (calls i)) serve TestsApart ⟨fun _ => .probe, s⟩
      turns := by
  have hstart : OneCreates content calls ⟨fun _ => .probe, s⟩ := .untouched (fun _ => rfl) hs
  obtain ⟨halong, hone⟩ | ⟨halong, hboth⟩ := System.along_cases
    (fun x i h hapart => oneCreates_step hserve calls h hapart)
    (fun x i h hapart => bothCreate_of_not_apart hserve calls h hapart)
    (fun x i h => bothCreate_step hserve calls h i) hstart turns
  · exact iff_of_true (hone.exclusive hended) halong
  · exact iff_of_false hboth.not_exclusive halong

end Turns

/-- A creation that ended in such a run is a call of `dav_mknod`, with the writes after it,
    that got the same replies. -/
theorem createAndWrite_of_run {σ : Type} {serve : Request → σ → Reply × σ} {path : Path}
    {calls : Bool → CreateCall} (srv : DavServer) {table : List FileLock} {i : Bool}
    (hdir : isDir (calls i).mode = false)
    (hlines : (calls i).lines = lockLines srv path .read table)
    (hwrites : ∀ w ∈ (calls i).writes, w.lines = lockLines srv path .read table) (rdev : ℕ)
    {s : σ} {turns : List Bool} {v : ℤ}
    (hended : Ended path calls (System.run (fun i => createClient path (calls i)) serve
      ⟨fun _ => .probe, s⟩ turns) i v) :
    ∃ replies t', (createAndWrite srv path (serving scripted)
      (davMknod (serving scripted) srv path (calls i).mode rdev) (calls i).writes :
      Dav (ℕ → Reply) ℤ ℤ) (entered replies table) = (.ok v, t') := by
  have hnonempty : Nonempty Reply := ⟨plainReply 200⟩
  obtain ⟨replies, rest, hreturns⟩ := System.returns_of_run
    (c := fun i => createClient path (calls i)) (i := i) turns ⟨fun _ => .probe, s⟩ hended
  have hsteady : Steady (serving scripted : Env (ℕ → Reply)) := steady_serving scripted
  have hcreate := creates_davMknod (ρ := ℤ) (t := entered replies table) srv path hsteady rfl
    (fun _ => rfl) hlines hdir rdev
  obtain ⟨v', t', hrun, hreturns'⟩ := createAndWrite_returns srv path hsteady hcreate hwrites
  refine ⟨replies, t', ?_⟩
  rw [hrun, (hreturns'.unique hreturns).1]

/-- A server with at most one file, where nothing fails but the `HEAD` of something
    absent. -/
def serveCreation (request : Request) (o : Option Bytes) : Reply × Option Bytes :=
  match request.method, request.range, request.body with
  | .head, _, _ => (plainReply (if o.isSome then 200 else 404), o)
  | .put, some range, .data d =>
    (plainReply 204, some (splice 0 (o.getD []) range.offset.toNat d))
  | .put, _, _ => (plainReply 201, some [])
  | _, _, _ => (plainReply 207, o)

theorem servesCreation_serveCreation (path : Path) : ServesCreation serveCreation path id where
  absent o ho := by
    obtain rfl : o = none := ho
    exact ⟨rfl, rfl, rfl⟩
  present o F ho := by
    obtain rfl : o = some F := ho
    exact ⟨rfl, rfl⟩
  put _ _ := ⟨rfl, rfl⟩
  patch _ _ := ⟨rfl, rfl⟩
  write w o F ho := by
    obtain rfl : o = some F := ho
    exact ⟨rfl, rfl⟩

/-- The first creator writes a byte, the second writes nothing. -/
def twoCreators : Bool → CreateCall
  | false => ⟨[], 0o100644, [⟨[], [1], 0⟩]⟩
  | true => ⟨[], 0o100644, []⟩

/-- The second test comes after the first `PUT`. -/
theorem twoCreators_in_turn : Exclusive [47, 97] id twoCreators (System.run
    (fun i => createClient [47, 97] (twoCreators i)) serveCreation ⟨fun _ => .probe, none⟩
    [false, false, true, false, false]) := by
  refine (create_turns_iff (servesCreation_serveCreation [47, 97]) twoCreators rfl
    [false, false, true, false, false] fun i => ?_).mpr
    ⟨fun _ => nofun, fun h => (nomatch h), fun _ => nofun, fun h => (nomatch h),
      fun h => (nomatch h), trivial⟩
  cases i
  · exact ⟨0, rfl⟩
  · exact ⟨-eexist, rfl⟩

/-- Both tests come before the first `PUT`: both creations return zero, and the byte that
    the first one wrote is gone. -/
theorem twoCreators_overwritten :
    (∀ i, Ended [47, 97] twoCreators (System.run
      (fun i => createClient [47, 97] (twoCreators i)) serveCreation ⟨fun _ => .probe, none⟩
      [false, true, false, false, false, true, true]) i 0) ∧
    (System.run (fun i => createClient [47, 97] (twoCreators i)) serveCreation
      ⟨fun _ => .probe, none⟩ [false, true, false, false, false, true, true]).server = some [] ∧
    ¬Exclusive [47, 97] id twoCreators (System.run
      (fun i => createClient [47, 97] (twoCreators i)) serveCreation ⟨fun _ => .probe, none⟩
      [false, true, false, false, false, true, true]) := by
  have hboth : ∀ i, Ended [47, 97] twoCreators (System.run
      (fun i => createClient [47, 97] (twoCreators i)) serveCreation ⟨fun _ => .probe, none⟩
      [false, true, false, false, false, true, true]) i 0 := by
    intro i
    cases i <;> rfl
  refine ⟨hboth, rfl, ?_⟩
  rintro ⟨i, -, hended, -⟩
  exact nomatch Sum.inl.inj ((hboth !i).symm.trans hended)

end NetworkFs.Dav
