import NetworkFs.Dav.Exceptions
import NetworkFs.Dav.Replies
import NetworkFs.Dav.Tokens

/-!
# `UNLOCK` requests that are not sent

`__dav_unlock` sends its request only when no exception is pending. Two callers do not
make sure of that: `dav_destory`, which goes on with the next entry after a failure, and
the rollback of `dav_lock`, which runs because of an exception.

* `destory_unlocks_iff`: `dav_destory` sends one `UNLOCK` for each entry exactly when
  none but the last fails.
* `failed_lock_leaves_nothing_iff`: a failed `dav_lock` leaves no lock on the server
  exactly when nothing fails after the server has granted one.
-/

namespace NetworkFs.Dav

open Control Grammar Wrapper Text

variable {σ ρ α : Type} (env : Env σ) (srv : DavServer)

/-! ## `__dav_unlock` -/

/-- The request of `__dav_unlock`. -/
def unlockRequest (path : Path) (token : Text) : Request :=
  ⟨.unlock, path, [.lockToken token], none, .none⟩

/-- What `__dav_unlock` attempts before it sends its request. -/
def unlockBefore (path : Path) : Attempt σ :=
  (initAttempt env srv.options path).andThen
    ((env.alloc .slist).andThen (noError (env.setopt .customrequest)))

theorem unlockAttempt_eq (path : Path) (token : Text) : unlockAttempt env srv path token =
    (unlockBefore env srv path).andThen (performAttempt env (unlockRequest path token)) := by
  rw [unlockBefore, Attempt.andThen_assoc, Attempt.andThen_assoc]
  rfl

/-- The request is sent when everything before it passes. -/
theorem leaves_davUnlockCore (path : Path) (token : Text) {t : Thread (Mem σ)}
    {Q : List Request → List FileLock → Prop}
    (hnot : ¬(t.ex.has = false ∧ (unlockBefore env srv path t.mem.env).1 = true) →
      Q t.mem.sent t.mem.table)
    (hsent : t.ex.has = false → (unlockBefore env srv path t.mem.env).1 = true →
      Q (t.mem.sent ++ [unlockRequest path token]) t.mem.table) :
    Leaves (davUnlockCore env srv path token : Dav σ ρ ℤ) t Q := by
  simp only [unlockBefore, Attempt.andThen_fst] at hnot hsent
  refine Leaves.testSuccess (Leaves.withCurl env _ _ (fun hn => hnot fun hall =>
    hn ⟨hall.1, hall.2.1⟩) fun h hp => ?_)
  refine Leaves.bind_unit (Leaves.throwable (Leaves.scopeList env h (fun ha => ?_) fun ha => ?_))
  · exact hnot fun hall => Bool.false_ne_true (ha.symm.trans hall.2.2.1)
  · refine Leaves.of_breaks (breaks_curlEasySetoptOrDie env .customrequest) h (fun hs => ?_) fun hs => ?_
    · exact hnot fun hall => Bool.false_ne_true (hs.symm.trans hall.2.2.2)
    · exact leaves_performChecked env _ (hsent h ⟨hp, ha, hs⟩)

theorem davUnlockCore_sent (path : Path) (token : Text) {t : Thread (Mem σ)} (h : t.ex.has = false) :
    ((davUnlockCore env srv path token : Dav σ ρ ℤ) t).2.mem.sent = t.mem.sent ++
      if (unlockBefore env srv path t.mem.env).1 then [unlockRequest path token] else [] := by
  have hleaves : Leaves (davUnlockCore env srv path token : Dav σ ρ ℤ) t fun sent _ =>
      sent = t.mem.sent ++
        if (unlockBefore env srv path t.mem.env).1 then [unlockRequest path token] else [] := by
    refine leaves_davUnlockCore env srv path token (fun hn => ?_) fun _ hb => ?_
    · rw [if_neg fun hb => hn ⟨h, hb⟩, List.append_nil]
    · rw [if_pos hb]
  exact hleaves

theorem davUnlockCore_pass (path : Path) (token : Text) {t : Thread (Mem σ)} (h : t.ex.has = false)
    (hp : (unlockAttempt env srv path token t.mem.env).1 = true) :
    ∃ t', (davUnlockCore env srv path token : Dav σ ρ ℤ) t = (.ok 0, t') ∧ t'.ex.has = false ∧
      t'.mem.env = (unlockAttempt env srv path token t.mem.env).2 := by
  unfold unlockAttempt at hp ⊢
  obtain ⟨hi, hrest⟩ := Attempt.andThen_fst.mp hp
  obtain ⟨ha, hsend⟩ := Attempt.andThen_fst.mp hrest
  set s := (initAttempt env srv.options path t.mem.env).2 with hs
  have happend := (raises_curlSlistAppendE (ρ := ρ) env [] (.lockToken token) (atEnv t s) h).1 ha
  obtain ⟨reply, hperform⟩ := setAndPerform_pass (ρ := ρ) env
    (t := atEnv t (env.alloc .slist s).2) h hsend
  have hscope : (scopeList env (.lockToken token) fun list => setAndPerform env .customrequest
      ⟨.unlock, path, list, none, .none⟩ : Dav σ ρ (Option Reply)) (atEnv t s) = (.ok (some reply), _) :=
    (withSeperated_entered happend h).trans (Ctl.doOnce_ok hperform)
  have hwith := (withCurl_entered env h hi).trans (Ctl.doOnce_ok (Ctl.bind_ok
    (f := fun _ => pure ()) (throwable_clean hscope h)))
  refine ⟨logged (unlockRequest path token) (atEnv t (sendAttempt env .customrequest
    (unlockRequest path token) (env.alloc .slist s).2).2), ?_, h, ?_⟩
  · refine (Ctl.bind_ok hwith).trans ?_
    rw [testSuccess_apply]
    simp [h, unlockRequest]
  · rw [Attempt.andThen_of_pass hi, Attempt.andThen_of_pass ha]
    rfl

/-- With an exception pending nothing is sent. -/
theorem davUnlockCore_pending (path : Path) (token : Text) {t : Thread (Mem σ)}
    (h : t.ex.has = true) : ∃ t', (davUnlockCore env srv path token : Dav σ ρ ℤ) t = (.ok 1, t') ∧
      t'.ex.has = true ∧ t'.mem.sent = t.mem.sent ∧ t'.mem.table = t.mem.table := by
  obtain ⟨s, e, he, hw⟩ := @withCurl_pending σ ρ _ env srv.options path (do
    let _ ← throwable (scopeList env (.lockToken token) fun list =>
      setAndPerform env .customrequest ⟨.unlock, path, list, none, .none⟩)) t h
  refine ⟨⟨e, (atEnv t s).mem⟩, (Ctl.bind_ok hw).trans ?_, he, rfl, rfl⟩
  rw [testSuccess_apply]
  simp [he]

/-! ## `dav_destory` -/

/-- Every `UNLOCK` but the last succeeds, and the last is sent. -/
def UnlocksInTurn : List FileLock → σ → Prop
  | [], _ => True
  | [e], s => (unlockBefore env srv e.path s).1 = true
  | e :: e' :: es, s => (unlockAttempt env srv e.path e.token s).1 = true ∧
      UnlocksInTurn (e' :: es) (unlockAttempt env srv e.path e.token s).2

/-- The request for an entry. -/
def nodeRequest (e : FileLock) : Request := unlockRequest e.path e.token

/-- With an exception pending the rest of the tree is freed and nothing is sent. -/
theorem unlockNodes_pending (nodes : List FileLock) {t : Thread (Mem σ)} (h : t.ex.has = true) :
    ∃ t', (nodes.mapM (davUnlockNode env srv) : Dav σ ρ (List FileLock)) t = (.ok nodes, t') ∧
      t'.mem.sent = t.mem.sent := by
  induction nodes generalizing t with
  | nil => exact ⟨t, by rw [List.mapM_nil]; rfl, rfl⟩
  | cons e es ih =>
    obtain ⟨t₁, hrun, hex, hsent, -⟩ := davUnlockCore_pending (ρ := ρ) env srv e.path e.token h
    obtain ⟨t₂, hrest, hsent₂⟩ := ih hex
    have hnode : (davUnlockNode env srv e : Dav σ ρ FileLock) t = (.ok e, t₁) := Ctl.bind_ok hrun
    refine ⟨t₂, ?_, hsent₂.trans hsent⟩
    rw [List.mapM_cons, Ctl.bind_ok hnode, Ctl.bind_ok hrest]
    rfl

/-- How far `dav_destory` gets. -/
theorem unlockNodes_run (nodes : List FileLock) {t : Thread (Mem σ)} (h : t.ex.has = false) :
    ∃ t' k, (nodes.mapM (davUnlockNode env srv) : Dav σ ρ (List FileLock)) t = (.ok nodes, t') ∧
      t'.mem.sent = t.mem.sent ++ (nodes.take k).map nodeRequest ∧ k ≤ nodes.length ∧
      (k = nodes.length ↔ UnlocksInTurn env srv nodes t.mem.env) := by
  induction nodes generalizing t with
  | nil => exact ⟨t, 0, by rw [List.mapM_nil]; rfl, by simp, le_rfl, iff_of_true rfl trivial⟩
  | cons e es ih =>
    cases hp : (unlockAttempt env srv e.path e.token t.mem.env).1 with
    | true =>
      have hbefore : (unlockBefore env srv e.path t.mem.env).1 = true := by
        rw [unlockAttempt_eq] at hp
        exact (Attempt.andThen_fst.mp hp).1
      obtain ⟨t₁, hrun, hex, henv⟩ := davUnlockCore_pass (ρ := ρ) env srv e.path e.token h hp
      have hsent : t₁.mem.sent = t.mem.sent ++ [nodeRequest e] := by
        have hsent := davUnlockCore_sent (ρ := ρ) env srv e.path e.token h
        rwa [hrun, if_pos hbefore] at hsent
      obtain ⟨t₂, k, hrest, hsent₂, hle, hk⟩ := ih hex
      have hnode : (davUnlockNode env srv e : Dav σ ρ FileLock) t = (.ok e, t₁) := Ctl.bind_ok hrun
      refine ⟨t₂, k + 1, ?_, ?_, by simpa using hle, ?_⟩
      · rw [List.mapM_cons, Ctl.bind_ok hnode, Ctl.bind_ok hrest]
        rfl
      · rw [hsent₂, hsent, List.take_succ_cons, List.map_cons, List.append_assoc]
        rfl
      · rw [List.length_cons, Nat.add_right_cancel_iff, hk, henv]
        cases es with
        | nil => exact iff_of_true trivial hbefore
        | cons e' es => exact (and_iff_right hp).symm
    | false =>
      obtain ⟨v, t₁, hrun, hex⟩ := davUnlockCore_goes (ρ := ρ) env srv e.path e.token h
      rw [hp, Bool.not_false] at hex
      have hsent : t₁.mem.sent = t.mem.sent ++
          if (unlockBefore env srv e.path t.mem.env).1 then [nodeRequest e] else [] := by
        have hsent := davUnlockCore_sent (ρ := ρ) env srv e.path e.token h
        rwa [hrun] at hsent
      obtain ⟨t₂, hrest, hsent₂⟩ := unlockNodes_pending (ρ := ρ) env srv es hex
      have hnode : (davUnlockNode env srv e : Dav σ ρ FileLock) t = (.ok e, t₁) := Ctl.bind_ok hrun
      refine ⟨t₂, if (unlockBefore env srv e.path t.mem.env).1 then 1 else 0, ?_, ?_, ?_, ?_⟩
      · rw [List.mapM_cons, Ctl.bind_ok hnode, Ctl.bind_ok hrest]
        rfl
      · rw [hsent₂, hsent]
        split_ifs <;> simp
      · rw [List.length_cons]
        split_ifs <;> omega
      · cases es with
        | nil =>
          show _ ↔ (unlockBefore env srv e.path t.mem.env).1 = true
          split_ifs with hb
          · exact iff_of_true rfl hb
          · exact iff_of_false (by simp) hb
        | cons e' es =>
          refine iff_of_false ?_ fun hall => Bool.false_ne_true (hp.symm.trans hall.1)
          rw [List.length_cons, List.length_cons]
          by_cases hb : (unlockBefore env srv e.path t.mem.env).1 = true
          · rw [if_pos hb]
            omega
          · rw [if_neg hb]
            omega

/-- One `UNLOCK` was sent for each entry of the table, and each entry was freed once. -/
def UnlocksEach (nodes : List FileLock) (t : Thread (Mem σ)) : Prop :=
  ∃ freed t', (davDestory env srv nodes : Dav σ Unit (List FileLock)) t = (.ok freed, t') ∧
    freed.Perm t.mem.table ∧ ∃ requests, t'.mem.sent = t.mem.sent ++ requests ∧
      requests.Perm (t.mem.table.map nodeRequest)

/-- `dav_destory` unlocks everything exactly when no `UNLOCK` but the last fails. -/
theorem destory_unlocks_iff (hlock : srv.options.useLock = true) {t : Thread (Mem σ)}
    (h : t.ex.has = false) {nodes : List FileLock} (hnodes : nodes.Perm t.mem.table) :
    UnlocksEach env srv nodes t ↔ UnlocksInTurn env srv nodes t.mem.env := by
  obtain ⟨t', k, hrun, hsent, hle, hk⟩ := unlockNodes_run (ρ := Unit) env srv nodes h
  have hdestory : (davDestory env srv nodes : Dav σ Unit (List FileLock)) t = (.ok nodes, t') := by
    rw [davDestory, if_pos hlock, hrun]
  rw [← hk]
  constructor
  · rintro ⟨freed, t'', hrun', -, requests, hrequests, hperm⟩
    rw [hdestory] at hrun'
    rw [← (Prod.mk.inj hrun').2, hsent, List.append_cancel_left_eq] at hrequests
    have hlength := hperm.length_eq
    rw [← hrequests, List.length_map, List.length_map, List.length_take, ← hnodes.length_eq]
      at hlength
    omega
  · intro hall
    refine ⟨nodes, t', hdestory, hnodes, nodes.map nodeRequest, ?_, hnodes.map _⟩
    rw [hsent, hall, List.take_length]

/-- Two entries are left when the file system is unmounted. -/
def twoEntries : Thread (Mem Unit) :=
  ⟨.clear, { (idle ()).mem with table := [⟨[47, 97], ['s'], 1⟩, ⟨[47, 98], ['t'], 1⟩] }⟩

theorem destory_unlocks_twoEntries :
    lockingServer.options.useLock = true ∧ twoEntries.ex.has = false ∧
      UnlocksEach (answering (plainReply 204)) lockingServer twoEntries.mem.table twoEntries :=
  ⟨rfl, rfl, (destory_unlocks_iff (answering (plainReply 204)) lockingServer rfl rfl
    (List.Perm.refl _)).mpr ⟨rfl, rfl⟩⟩

/-- The first `UNLOCK` is answered with 500, and the second is not sent. -/
theorem destory_500_skips_second :
    ¬UnlocksEach (answering (plainReply 500)) lockingServer twoEntries.mem.table twoEntries := by
  rintro ⟨freed, t', hrun, -, requests, hsent, hperm⟩
  have hlength := hperm.length_eq
  have ht' : t'.mem.sent = [nodeRequest ⟨[47, 97], ['s'], 1⟩] := by
    rw [← (Prod.mk.inj hrun).2]
    rfl
  have hrequests : t'.mem.sent = requests := hsent
  rw [← hrequests, ht'] at hlength
  exact absurd hlength (by decide)

/-! ## The lock the server grants -/

/-- What `__dav_lock` attempts before it sends its request. -/
def lockBefore (path : Path) : Attempt σ :=
  (initAttempt env srv.options path).andThen ((env.alloc .slist).andThen
    ((weakAttempt env).andThen (noError (env.setopt .customrequest))))

/-- The request of `__dav_lock`. -/
def lockRequest (path : Path) (s : σ) : Request :=
  ⟨.lock, path, .timeout :: weakLine (env.alloc .slist ((initAttempt env srv.options path).andThen
    (env.alloc .slist) s).2).1 .contentTypeXml, none, .lockinfo⟩

/-- The reply to the `LOCK`, if it is sent, and the outside then. -/
def lockExchange (path : Path) (s : σ) : Option (Reply × σ) :=
  if (lockBefore env srv path s).1 then
    some (env.perform (lockRequest env srv path s) (lockBefore env srv path s).2)
  else none

/-- The token in the header lines of a reply. -/
def headerToken (lines : List Text) : Option Text := lines.findSome? lockTokenText

/-- A lock that a reply gives: how the transfer ended, the token, the body of the reply, and
    the outside then. -/
structure Grant (σ : Type) where
  code : CurlCode
  token : Text
  xml : Option XmlCtxt
  after : σ

/-- The lock of a reply with a token. -/
def replyGrant (r : Reply × σ) : Option (Grant σ) :=
  (headerToken r.1.headers).map fun token => ⟨r.1.code, token, r.1.xml, r.2⟩

/-- The server grants the `LOCK`: the status is 2xx, and there is a token. The transfer of
    the body may still break off, or be ended by `curl_parse_xml`. -/
def lockGrant (path : Path) (s : σ) : Option (Grant σ) :=
  (lockExchange env srv path s).bind fun r =>
    if 200 ≤ r.1.status ∧ r.1.status < 300 then replyGrant r else none

/-- The lock that `__dav_lock` goes on with: the transfer ends with `CURLE_OK`, and there is
    a token. -/
def lockTaken (path : Path) (s : σ) : Option (Grant σ) :=
  (lockExchange env srv path s).bind fun r => if r.1.code = .ok then replyGrant r else none

/-- What `dav_lock` attempts before it calls `__dav_lock`. -/
def lockAllocs : Attempt σ := (env.alloc .fileLock).andThen (env.alloc .pathDup)

/-- The lock granted to a `dav_lock`; with an exception or a hold it does not send its
    `LOCK`. -/
def grantedTo (path : Path) (t : Thread (Mem σ)) : Option (Grant σ) :=
  if t.ex.has = false ∧ t.mem.held = [] ∧ (lockAllocs env t.mem.env).1 = true then
    lockGrant env srv path (lockAllocs env t.mem.env).2
  else none

/-- The `href` that is compared starts with the token. -/
def Names (token : Text) (lockdiscovery : Node) : Prop :=
  ∃ href text, LockHref lockdiscovery href ∧ href.firstChild = some text ∧
    token <+: text.content.getD []

/-- Every `lockdiscovery` names the token. -/
def LocksMatch (token : Text) (ns : List Node) : Prop :=
  ∀ n ∈ ns, n.name = "lockdiscovery".toList → Names token n

/-- The first `lockdiscovery` that does not name the token has an `href` without a child. -/
def LocksStop (token : Text) (ns : List Node) : Prop :=
  ∃ before n after, ns = before ++ n :: after ∧ LocksMatch token before ∧
    n.name = "lockdiscovery".toList ∧ ∃ href, LockHref n href ∧ href.firstChild = none

/-- The body of the reply is well formed and names the token. -/
def LockAccepted (token : Text) (xml : Option XmlCtxt) : Prop :=
  match xml with
  | some (.document root) => LocksMatch token root.children
  | _ => False

/-- The check of the body dereferences an absent pointer: there is no body, or an `href`
    without a child. -/
def LockStops (token : Text) (xml : Option XmlCtxt) : Prop :=
  match xml with
  | none => True
  | some .malformed => False
  | some (.document root) => LocksStop token root.children

/-- After the grant nothing fails: the transfer ends with `CURLE_OK`, the token is stored, the
    body is accepted, the entry is inserted. -/
def Grant.Entered (g : Grant σ) : Prop :=
  g.code = .ok ∧ (env.alloc .simpleString g.after).1 = true ∧ LockAccepted g.token g.xml ∧
    (env.alloc .treeNode (env.alloc .simpleString g.after).2).1 = true

/-- The check of the body is come to, and does not return. -/
def Grant.Faults (g : Grant σ) : Prop :=
  g.code = .ok ∧ (env.alloc .simpleString g.after).1 = true ∧ LockStops g.token g.xml

/-- If `dav_lock` returns an error, the table is as before, and a lock that was granted
    was given back. -/
def LeavesNothing (path : Path) (t : Thread (Mem σ)) : Prop :=
  ∀ v t', (davLock env srv path : Dav σ Unit ℤ) t = (.ok v, t') → v ≠ 0 →
    t'.mem.table = t.mem.table ∧ ∀ g, grantedTo env srv path t = some g →
      unlockRequest path g.token ∈ t'.mem.sent.drop t.mem.sent.length

/-! ## `__dav_lock` -/

section Taken

variable {path : Path} {s : σ} {g : Grant σ}

/-- Of the locks the server grants, `__dav_lock` goes on with those whose transfer ends with
    `CURLE_OK`. -/
theorem lockTaken_of_grant (hg : lockGrant env srv path s = some g) :
    lockTaken env srv path s = if g.code = .ok then some g else none := by
  unfold lockGrant at hg
  unfold lockTaken
  obtain ⟨r, hexchange, hr⟩ := Option.bind_eq_some_iff.mp hg
  rw [hexchange, Option.bind_some]
  split_ifs at hr
  have hcode : r.1.code = g.code := by
    obtain ⟨token, -, hgrant⟩ := Option.map_eq_some_iff.mp hr
    rw [← hgrant]
  rw [hcode, hr]

/-- What `__dav_lock` goes on with is what was granted. -/
theorem lockTaken_only {g' : Grant σ} (hg : lockGrant env srv path s = some g)
    (hg' : lockTaken env srv path s = some g') : g = g' := by
  rw [lockTaken_of_grant env srv hg] at hg'
  split_ifs at hg'
  exact Option.some.inj hg'

theorem lockTaken_code (hg : lockTaken env srv path s = some g) : g.code = .ok := by
  unfold lockTaken at hg
  obtain ⟨r, -, hr⟩ := Option.bind_eq_some_iff.mp hg
  split_ifs at hr with hc
  obtain ⟨token, -, hgrant⟩ := Option.map_eq_some_iff.mp hr
  rw [← hgrant]
  exact hc

end Taken

theorem receivedToken_eq (lines : List Text) (s : σ) :
    receivedToken env lines s = match headerToken lines with
      | none => some none
      | some token => if (env.alloc .simpleString s).1 then some (some token) else none := by
  induction lines with
  | nil => rfl
  | cons line lines ih =>
    rw [receivedToken, headerToken, List.findSome?_cons]
    rcases lockTokenText line with _ | token
    · exact ih
    · rfl

theorem lockReceived_eq (path : Path) (s : σ) : lockReceived env srv path s =
    (lockExchange env srv path s).bind fun r =>
      if r.1.code = .ok then (receivedToken env r.1.headers r.2).map fun token => (token, r.1.xml)
      else none := by
  unfold lockReceived lockAnswer lockSent lockReplied lockExchange lockBefore lockRequest
  cases hi : (initAttempt env srv.options path s).1 with
  | false => simp [Attempt.andThen_of_fail hi, hi]
  | true =>
    rw [Attempt.andThen_of_pass hi, Attempt.andThen_of_pass hi]
    cases ha : (env.alloc .slist (initAttempt env srv.options path s).2).1 with
    | false => simp [Attempt.andThen_of_fail ha, ha]
    | true =>
      rw [Attempt.andThen_of_pass ha, Attempt.andThen_of_pass rfl]
      rw [if_pos rfl, if_pos rfl]
      by_cases hb : (noError (env.setopt .customrequest) (weakAttempt env (env.alloc .slist
        (initAttempt env srv.options path s).2).2).2).1 = true
      · rw [if_pos hb, Option.bind_some]
        exact if_pos hb
      · rw [if_neg hb, Option.bind_none]
        exact if_neg hb

/-! ### The check of the body -/

theorem names_iff {token : Text} {n href : Node} (hscan : scanLockdiscovery n = some href) :
    Names token n ↔ ∃ text, href.firstChild = some text ∧ xmlStrscmp text.content token = true := by
  constructor
  · rintro ⟨href', text, hhref, hchild, hprefix⟩
    rw [scanLockdiscovery_eq_some_iff.mpr hhref] at hscan
    rw [← Option.some.inj hscan]
    exact ⟨text, hchild, (xmlStrscmp_iff _ _).mpr hprefix⟩
  · rintro ⟨text, hchild, hsame⟩
    exact ⟨href, text, scanLockdiscovery_eq_some_iff.mp hscan, hchild, (xmlStrscmp_iff _ _).mp hsame⟩

theorem not_names {token : Text} {n : Node} (hscan : scanLockdiscovery n = none) :
    ¬Names token n := by
  rintro ⟨href, text, hhref, -⟩
  rw [scanLockdiscovery_eq_some_iff.mpr hhref] at hscan
  cases hscan

theorem locksStop_cons {token : Text} {n : Node} {ns : List Node} :
    LocksStop token (n :: ns) ↔
      (n.name = "lockdiscovery".toList ∧ ∃ href, LockHref n href ∧ href.firstChild = none) ∨
        ((n.name = "lockdiscovery".toList → Names token n) ∧ LocksStop token ns) := by
  constructor
  · rintro ⟨_ | ⟨b, before⟩, m, after, hsplit, hbefore, hname, hempty⟩
    · obtain ⟨rfl, -⟩ := List.cons.inj hsplit
      exact .inl ⟨hname, hempty⟩
    · obtain ⟨rfl, rfl⟩ := List.cons.inj hsplit
      obtain ⟨hfirst, hrest⟩ := List.forall_mem_cons.mp hbefore
      exact .inr ⟨hfirst, before, m, after, rfl, hrest, hname, hempty⟩
  · rintro (⟨hname, hempty⟩ | ⟨hfirst, before, m, after, rfl, hbefore, hname, hempty⟩)
    · exact ⟨[], n, ns, rfl, fun _ hmem => absurd hmem List.not_mem_nil, hname, hempty⟩
    · exact ⟨n :: before, m, after, rfl, List.forall_mem_cons.mpr ⟨hfirst, hbefore⟩, hname, hempty⟩

theorem locksSafe_iff (token : Text) (ns : List Node) :
    LocksSafe token ns ↔ ¬LocksStop token ns := by
  induction ns with
  | nil =>
    refine iff_of_true trivial ?_
    rintro ⟨before, n, after, hsplit, -⟩
    exact absurd hsplit (by simp)
  | cons n ns ih =>
    rw [LocksSafe, locksStop_cons]
    by_cases hname : n.name = "lockdiscovery".toList
    · rw [if_pos hname, ih]
      rcases hscan : scanLockdiscovery n with _ | href
      · refine iff_of_true (fun href h => by cases h) ?_
        rintro (⟨-, href, hhref, -⟩ | ⟨hfirst, -⟩)
        · rw [scanLockdiscovery_eq_some_iff.mpr hhref] at hscan
          cases hscan
        · exact not_names hscan (hfirst hname)
      · have hempty : (∃ href, LockHref n href ∧ href.firstChild = none) ↔ href.firstChild = none := by
          simp only [← scanLockdiscovery_eq_some_iff, hscan, Option.some.injEq, exists_eq_left']
        rw [hempty, names_iff hscan]
        rcases hchild : href.firstChild with _ | text
        · simp [hname, hchild]
        · simp [hname, hchild]
    · rw [if_neg hname, ih, or_iff_right fun h => hname h.1,
        and_iff_right fun h => absurd h hname]

theorem lockSafe_iff (token : Text) (xml : Option XmlCtxt) :
    LockSafe (some token) xml ↔ ¬LockStops token xml := by
  rcases xml with _ | _ | root
  · simp [LockSafe, LockStops]
  · simp [LockSafe, LockStops]
  · exact locksSafe_iff token root.children

/-- The loop over the body: it goes through, throws, or stops at an absent pointer. -/
theorem lockRounds_cases (token : Text) (ns : List Node) (t : Thread (Mem σ)) :
    (LocksMatch token ns →
      (Ctl.forEach ns (lockRound token) : Dav σ ρ Unit) t = (.ok (), t)) ∧
    (¬LocksStop token ns → ¬LocksMatch token ns →
      ∃ t', (Ctl.forEach ns (lockRound token) : Dav σ ρ Unit) t = (.ok (), t') ∧
        t'.ex.has = true) := by
  induction ns with
  | nil => exact ⟨fun _ => rfl, fun _ h => absurd (fun _ hmem => absurd hmem List.not_mem_nil) h⟩
  | cons n ns ih =>
    have hcons : LocksMatch token (n :: ns) ↔ (n.name = "lockdiscovery".toList → Names token n) ∧
        LocksMatch token ns := List.forall_mem_cons
    rw [hcons, locksStop_cons]
    by_cases hname : n.name = "lockdiscovery".toList
    · rcases hscan : scanLockdiscovery n with _ | href
      · refine ⟨fun hmatch => absurd (hmatch.1 hname) (not_names hscan), fun _ _ => ?_⟩
        refine ⟨raised t (.unspecified "prop unexpected"), Ctl.forEach_cons_brk ?_, rfl⟩
        rw [lockRound, if_pos (beq_iff_eq.mpr hname), hscan]
        rfl
      · by_cases hnames : Names token n
        · obtain ⟨text, hchild, hsame⟩ := (names_iff hscan).mp hnames
          rw [Ctl.forEach_cons_ok (lockRound_match token hname hscan hchild hsame)]
          exact ⟨fun hmatch => ih.1 hmatch.2, fun hgoes hnot =>
            ih.2 (fun hstop => hgoes (.inr ⟨fun _ => hnames, hstop⟩)) fun hmatch =>
              hnot ⟨fun _ => hnames, hmatch⟩⟩
        · refine ⟨fun hmatch => absurd (hmatch.1 hname) hnames, fun hgoes _ => ?_⟩
          rcases hchild : href.firstChild with _ | text
          · exact absurd (.inl ⟨hname, href, scanLockdiscovery_eq_some_iff.mp hscan, hchild⟩) hgoes
          · have hdiffer : ¬xmlStrscmp text.content token = true := fun hsame =>
              hnames ((names_iff hscan).mpr ⟨text, hchild, hsame⟩)
            refine ⟨raised t (.unspecified "lock href mismatched"), Ctl.forEach_cons_brk ?_, rfl⟩
            rw [lockRound, if_pos (beq_iff_eq.mpr hname), hscan]
            simp [hchild, hdiffer, raised]
    · have hskip : (lockRound token n : Dav σ ρ Unit) t = (.ok (), t) := by
        rw [lockRound, if_neg (by simpa using hname)]
        rfl
      rw [Ctl.forEach_cons_ok hskip]
      exact ⟨fun hmatch => ih.1 hmatch.2, fun hgoes hnot =>
        ih.2 (fun hstop => hgoes (.inr ⟨fun h => absurd h hname, hstop⟩)) fun hmatch =>
          hnot ⟨fun h => absurd h hname, hmatch⟩⟩

/-! ### The token of the header -/

/-- The header lines of a reply with a token that can be stored. -/
theorem foldlM_davLockCallback_stored {lines : List Text} {token : Text}
    (hl : headerToken lines = some token) {t : Thread (Mem σ)}
    (hs : (env.alloc .simpleString t.mem.env).1 = true) :
    (lines.foldlM (davLockCallback env) none : Dav σ ρ (Option Text)) t =
      (.ok (some token), atEnv t (env.alloc .simpleString t.mem.env).2) := by
  induction lines with
  | nil => exact nomatch hl
  | cons line lines ih =>
    rw [headerToken, List.findSome?_cons] at hl
    rw [List.foldlM_cons]
    rcases hline : lockTokenText line with _ | text <;> rw [hline] at hl
    · have hstep : (davLockCallback env none line : Dav σ ρ (Option Text)) t = (.ok none, t) := by
        simp [davLockCallback, hline]
      rw [Ctl.bind_ok hstep]
      exact ih hl
    · have hstep : (davLockCallback env none line : Dav σ ρ (Option Text)) t =
          (.ok (some text), atEnv t (env.alloc .simpleString t.mem.env).2) := by
        simp [davLockCallback, hline, Ctl.bind_apply, hs]
      have htext : text = token := Option.some.inj hl
      rw [Ctl.bind_ok hstep, foldlM_davLockCallback_some, htext]

section Core

variable {path : Path} {t : Thread (Mem σ)} (h : t.ex.has = false)

include h

omit h in
theorem curlEasyPerform_apply (request : Request) (t : Thread (Mem σ)) :
    (curlEasyPerform env request : Dav σ ρ Reply) t = (.ok (env.perform request t.mem.env).1,
      logged request (atEnv t (env.perform request t.mem.env).2)) := rfl

omit h in
theorem lockPerform_granted {request : Request} {token : Text}
    (hc : (env.perform request t.mem.env).1.code = .ok)
    (hl : headerToken (env.perform request t.mem.env).1.headers = some token)
    (hs : (env.alloc .simpleString (env.perform request t.mem.env).2).1 = true) :
    (lockPerform env request : Dav σ ρ _) t =
      (.ok (some token, (env.perform request t.mem.env).1.xml), logged request (atEnv t
        (env.alloc .simpleString (env.perform request t.mem.env).2).2)) := by
  have hfold := foldlM_davLockCallback_stored (ρ := ρ) env hl
    (t := logged request (atEnv t (env.perform request t.mem.env).2)) hs
  rw [lockPerform, Ctl.bind_ok (curlEasyPerform_apply env request t), Ctl.bind_ok hfold, performOrDie, hc]
  rfl

omit h in
/-- What has happened when a lock is taken. -/
theorem lockTaken_some {s : σ} {g : Grant σ} (hg : lockTaken env srv path s = some g) :
    ∃ s₁ s₂ s₃ s₄ request, initAttempt env srv.options path s = (true, s₁) ∧
      env.alloc .slist s₁ = (true, s₂) ∧ (env.alloc .slist s₂).2 = s₃ ∧
      noError (env.setopt .customrequest) s₃ = (true, s₄) ∧
      request = ⟨.lock, path, [.timeout] ++ weakLine (env.alloc .slist s₂).1 .contentTypeXml, none,
        .lockinfo⟩ ∧
      (env.perform request s₄).1.code = .ok ∧
      headerToken (env.perform request s₄).1.headers = some g.token ∧
      (env.perform request s₄).1.xml = g.xml ∧ (env.perform request s₄).2 = g.after := by
  unfold lockTaken lockExchange at hg
  by_cases hb : (lockBefore env srv path s).1 = true
  · rw [if_pos hb, Option.bind_some] at hg
    split_ifs at hg with hc
    · obtain ⟨token, hl, hgrant⟩ := Option.map_eq_some_iff.mp hg
      have hb' := hb
      simp only [lockBefore, Attempt.andThen_fst] at hb'
      obtain ⟨hi, ha, -, hopt⟩ := hb'
      have hs₄ : (lockBefore env srv path s).2 = (noError (env.setopt .customrequest)
          (env.alloc .slist (env.alloc .slist (initAttempt env srv.options path s).2).2).2).2 := by
        rw [lockBefore, Attempt.andThen_of_pass hi, Attempt.andThen_of_pass ha]
        rfl
      have hrequest : lockRequest env srv path s = ⟨.lock, path, [.timeout] ++ weakLine
          (env.alloc .slist (env.alloc .slist (initAttempt env srv.options path s).2).2).1
          .contentTypeXml, none, .lockinfo⟩ := by
        rw [lockRequest, Attempt.andThen_of_pass hi]
        rfl
      rw [hs₄] at hc hl hgrant
      rw [← hgrant]
      exact ⟨_, _, _, _, _, Prod.ext hi rfl, Prod.ext ha rfl, rfl, Prod.ext hopt rfl, hrequest, hc, hl,
        rfl, rfl⟩
  · rw [if_neg hb] at hg
    exact nomatch hg

/-- The lock is taken and its token stored: the rest of the body of `__dav_lock` looks at the
    reply. -/
theorem lockBody_granted {g : Grant σ} (hg : lockTaken env srv path t.mem.env = some g)
    (hs : (env.alloc .simpleString g.after).1 = true) :
    ∃ t', (lockBody env srv path : Dav σ ρ _) t = (lockReply (some g.token) g.xml : Dav σ ρ _) t' ∧
      t'.ex.has = false ∧ t'.mem.env = (env.alloc .simpleString g.after).2 := by
  obtain ⟨s₁, s₂, s₃, s₄, request, hi, ha, hw, hopt, hrequest, hc, hl, hxml, hafter⟩ :=
    lockTaken_some env srv hg
  rw [← hafter] at hs
  have hsend : (lockSend env path [.timeout] : Dav σ ρ _) (atEnv t s₂) =
      (.ok (some g.token, g.xml), logged request (atEnv t (env.alloc .simpleString g.after).2)) := by
    have hweak := curlSlistAppendWeak_apply (ρ := ρ) env [.timeout] .contentTypeXml (atEnv t s₂)
    have hset := (breaks_curlEasySetoptOrDie (ρ := ρ) env .customrequest (atEnv t s₃) h).1
      (by rw [atEnv_env, hopt])
    rw [atEnv_env, hopt] at hset
    rw [atEnv_env, hw, atEnv_atEnv] at hweak
    rw [lockSend, Ctl.bind_ok hweak, Ctl.bind_ok hset, ← hrequest]
    have hperform := lockPerform_granted (ρ := ρ) env (t := atEnv t s₄) hc hl hs
    rw [atEnv_env, hxml, hafter] at hperform
    exact hperform
  have happend := (raises_curlSlistAppendE (ρ := ρ) env [] .timeout (atEnv t s₁) h).1
    (by rw [atEnv_env, ha])
  rw [atEnv_env, ha] at happend
  have hscope : (lockScope env path : Dav σ ρ _) (atEnv t s₁) = (.ok (some (some g.token, g.xml)), _) :=
    (withSeperated_entered happend h).trans (Ctl.doOnce_ok hsend)
  have henter : (withCurl env srv.options path (throwable (lockScope env path)) : Dav σ ρ _) t =
      Ctl.doOnce (throwable (lockScope env path)) (atEnv t s₁) := by
    rw [withCurl_entered env h (by rw [hi]), hi]
  have hclean : (throwable (lockScope env path) : Dav σ ρ _) (atEnv t s₁) =
      (.ok (some (some g.token, g.xml)), _) := throwable_clean hscope h
  have hwith := throwable_clean (henter.trans (Ctl.doOnce_ok hclean)) h
  refine ⟨logged request (atEnv t (env.alloc .simpleString g.after).2), ?_, h, rfl⟩
  rw [lockBody, Ctl.bind_ok hwith]
  rfl

/-- Nothing is received: the body of `__dav_lock` breaks with an exception. -/
theorem lockBody_none (hr : lockReceived env srv path t.mem.env = none) :
    ∃ t', (lockBody env srv path : Dav σ ρ _) t = (.error .brk, t') ∧ t'.ex.has = true := by
  unfold lockReceived at hr
  cases hi : (initAttempt env srv.options path t.mem.env).1 with
  | false =>
    obtain ⟨e, hw⟩ := withCurl_failed (ρ := ρ) env (throwable (lockScope env path)) h hi
    exact ⟨_, Ctl.bind_error (throwable_pending hw (by simp)), by simp⟩
  | true =>
    rw [hi, if_pos rfl] at hr
    have henter : (withCurl env srv.options path (throwable (lockScope env path)) : Dav σ ρ _) t = _ :=
      withCurl_entered env h hi
    have hscope := delivers_lockScope (ρ := ρ) env path
      (t := atEnv t (initAttempt env srv.options path t.mem.env).2) h
    rw [atEnv_env, hr] at hscope
    obtain ⟨t', hrun, hex⟩ := hscope
    exact ⟨t', Ctl.bind_error (throwable_pending (henter.trans (Ctl.doOnce_brk hrun)) hex), hex⟩

/-- Something is received: the rest of the body of `__dav_lock` looks at it. -/
theorem lockBody_some {token : Option Text} {xml : Option XmlCtxt}
    (hr : lockReceived env srv path t.mem.env = some (token, xml)) :
    ∃ t', (lockBody env srv path : Dav σ ρ _) t = (lockReply token xml : Dav σ ρ _) t' ∧
      t'.ex.has = false := by
  unfold lockReceived at hr
  cases hi : (initAttempt env srv.options path t.mem.env).1 with
  | false => simp [hi] at hr
  | true =>
    rw [hi, if_pos rfl] at hr
    have henter : (withCurl env srv.options path (throwable (lockScope env path)) : Dav σ ρ _) t = _ :=
      withCurl_entered env h hi
    have hscope := delivers_lockScope (ρ := ρ) env path
      (t := atEnv t (initAttempt env srv.options path t.mem.env).2) h
    rw [atEnv_env, hr] at hscope
    obtain ⟨t', hrun, hex⟩ := hscope
    refine ⟨t', ?_, hex⟩
    rw [lockBody, Ctl.bind_ok (throwable_clean (henter.trans (Ctl.doOnce_ok hrun)) hex)]
    rfl

/-- `__dav_lock` after a body that left an exception. -/
theorem davLockCore_pending {t' : Thread (Mem σ)} (hex : t'.ex.has = true)
    (hbody : (lockBody env srv path : Dav σ ρ _) t = (.error .brk, t') ∨
      ∃ a, (lockBody env srv path : Dav σ ρ _) t = (.ok a, t')) :
    (davLockCore env srv path : Dav σ ρ (Option Text)) t = (.ok none, t') := by
  have hinner : ∃ r, (withBuffer (lockBody env srv path) : Dav σ ρ _) t = (.ok r, t') := by
    rcases hbody with hbody | ⟨a, hbody⟩
    · exact ⟨none, (withBuffer_clean h).trans (Ctl.doOnce_brk hbody)⟩
    · exact ⟨some a, (withBuffer_clean h).trans (Ctl.doOnce_ok hbody)⟩
  obtain ⟨r, hinner⟩ := hinner
  have houter := (withBuffer_clean h).trans (Ctl.doOnce_brk (throwable_pending hinner hex))
  have hhandle : handle [onerror (pure () : Dav σ ρ Unit)] t' = (.ok (), t') :=
    handle_onerror_ok hex rfl
  have htry := tryCatch_ok_handled houter hhandle
  rw [davLockCore, Ctl.bind_ok htry, Ctl.bind_ok (Ctl.gets_apply _ _), if_pos hex]
  rfl

theorem davLockCore_clean {t' : Thread (Mem σ)} {token : Option Text} (hex : t'.ex.has = false)
    (hbody : (lockBody env srv path : Dav σ ρ _) t = (.ok token, t')) :
    (davLockCore env srv path : Dav σ ρ (Option Text)) t = (.ok token, t') := by
  have hinner := (withBuffer_clean h).trans (Ctl.doOnce_ok hbody)
  have houter := (withBuffer_clean h).trans (Ctl.doOnce_ok (throwable_clean hinner hex))
  have htry : tryCatch (withBuffer (throwable (withBuffer (lockBody env srv path))))
      [onerror (pure () : Dav σ ρ Unit)] t = (.ok (some (some (some token))), t') :=
    tryCatch_ok houter hex
  rw [davLockCore, Ctl.bind_ok htry, Ctl.bind_ok (Ctl.gets_apply _ _), hex]
  rfl

theorem davLockCore_fault {t' : Thread (Mem σ)}
    (hbody : (lockBody env srv path : Dav σ ρ _) t = (.error .fault, t')) :
    (davLockCore env srv path : Dav σ ρ (Option Text)) t = (.error .fault, t') := by
  have hinner := (withBuffer_clean h).trans (Ctl.doOnce_fault hbody)
  have houter := (withBuffer_clean h).trans (Ctl.doOnce_fault (throwable_error hinner))
  rw [davLockCore, Ctl.bind_error (tryCatch_fault houter)]

omit h in
/-- A token that is received was taken and stored. -/
theorem lockTaken_of_received {s : σ} {token : Text} {xml : Option XmlCtxt}
    (hr : lockReceived env srv path s = some (some token, xml)) :
    ∃ g, lockTaken env srv path s = some g ∧ g.token = token ∧ g.xml = xml ∧
      (env.alloc .simpleString g.after).1 = true := by
  rw [lockReceived_eq] at hr
  unfold lockTaken
  obtain ⟨r, hexchange, hr⟩ := Option.bind_eq_some_iff.mp hr
  rw [hexchange, Option.bind_some]
  split_ifs at hr with hc
  · rw [if_pos hc]
    obtain ⟨token', htoken, hpair⟩ := Option.map_eq_some_iff.mp hr
    obtain ⟨htoken', hxml⟩ := Prod.mk.inj hpair
    rw [receivedToken_eq, htoken'] at htoken
    rcases hl : headerToken r.1.headers with _ | token'' <;> rw [hl] at htoken
    · simp at htoken
    · dsimp only at htoken
      split_ifs at htoken with hs
      · have hsame : token'' = token := Option.some.inj (Option.some.inj htoken)
        refine ⟨⟨r.1.code, token'', r.1.xml, r.2⟩, ?_, hsame, hxml, hs⟩
        rw [replyGrant, hl]
        rfl

/-- A lock that is not taken, or whose token or reply is refused, leaves an exception. -/
theorem davLockCore_refused (hg : ∀ g, lockTaken env srv path t.mem.env = some g →
      ¬Grant.Faults env g ∧ ¬((env.alloc .simpleString g.after).1 = true ∧
        LockAccepted g.token g.xml)) :
    ∃ t', (davLockCore env srv path : Dav σ ρ (Option Text)) t = (.ok none, t') ∧
      t'.ex.has = true := by
  rcases hr : lockReceived env srv path t.mem.env with _ | ⟨_ | token, xml⟩
  · obtain ⟨t', hbody, hex⟩ := lockBody_none (ρ := ρ) env srv h hr
    exact ⟨t', davLockCore_pending env srv h hex (.inl hbody), hex⟩
  · obtain ⟨t', hbody, -⟩ := lockBody_some (ρ := ρ) env srv h hr
    exact ⟨_, davLockCore_pending env srv h rfl (.inl hbody), rfl⟩
  · obtain ⟨t', hbody, -⟩ := lockBody_some (ρ := ρ) env srv h hr
    obtain ⟨g, hgrant, rfl, rfl, hs⟩ := lockTaken_of_received env srv hr
    obtain ⟨hfaults, haccepted⟩ := hg g hgrant
    have hgoes : ¬LockStops g.token g.xml := fun hstop =>
      hfaults ⟨lockTaken_code env srv hgrant, hs, hstop⟩
    rcases hxml : g.xml with _ | _ | root <;> rw [hxml] at hbody hgoes haccepted
    · exact absurd trivial hgoes
    · exact ⟨_, davLockCore_pending env srv h rfl (.inl hbody), rfl⟩
    · obtain ⟨t'', hloop, hex⟩ := (lockRounds_cases (ρ := ρ) g.token root.children t').2 hgoes
        fun hmatch => haccepted ⟨hs, hmatch⟩
      have hreply : (lockReply (some g.token) (some (.document root)) : Dav σ ρ _) t' =
          (.ok (some g.token), t'') := by
        rw [lockReply, Ctl.deref_some, pure_bind]
        exact Ctl.bind_ok hloop
      exact ⟨t'', davLockCore_pending env srv h hex (.inr ⟨_, hbody.trans hreply⟩), hex⟩

/-- A lock that is taken and whose token the body names. -/
theorem davLockCore_taken {g : Grant σ} (hg : lockTaken env srv path t.mem.env = some g)
    (hs : (env.alloc .simpleString g.after).1 = true) (ha : LockAccepted g.token g.xml) :
    ∃ t', (davLockCore env srv path : Dav σ ρ (Option Text)) t = (.ok (some g.token), t') ∧
      t'.ex.has = false ∧ t'.mem.env = (env.alloc .simpleString g.after).2 := by
  obtain ⟨t', hbody, hex, henv⟩ := lockBody_granted (ρ := ρ) env srv h hg hs
  refine ⟨t', davLockCore_clean env srv h hex (hbody.trans ?_), hex, henv⟩
  unfold LockAccepted at ha
  split at ha
  · rename_i root hxml
    rw [hxml, lockReply, Ctl.deref_some, pure_bind]
    exact Ctl.bind_ok ((lockRounds_cases g.token root.children t').1 ha)
  · exact ha.elim

theorem davLockCore_stops {g : Grant σ} (hg : lockTaken env srv path t.mem.env = some g)
    (hf : Grant.Faults env g) :
    ∃ t', (davLockCore env srv path : Dav σ ρ (Option Text)) t = (.error .fault, t') := by
  obtain ⟨t', hbody, -⟩ := lockBody_granted (ρ := ρ) env srv h hg hf.2.1
  obtain ⟨t'', hfault⟩ := (lockReply_run (ρ := ρ) (some g.token) g.xml t').2
    fun hsafe => (lockSafe_iff _ _).mp hsafe hf.2.2
  exact ⟨t'', davLockCore_fault env srv h (hbody.trans hfault)⟩

end Core

/-! ## What `__dav_lock` leaves behind -/

/-- The requests sent and the table are the same. -/
def Quiet (t t' : Thread (Mem σ)) : Prop :=
  t'.mem.sent = t.mem.sent ∧ t'.mem.table = t.mem.table

instance : Std.Refl (Quiet (σ := σ)) := ⟨fun _ => ⟨rfl, rfl⟩⟩

instance : IsTrans (Thread (Mem σ)) Quiet := ⟨fun _ _ _ h h' => ⟨h'.1.trans h.1, h'.2.trans h.2⟩⟩

theorem Leaves.of_quiet {m : Dav σ ρ α} {t : Thread (Mem σ)} {Q : List Request → List FileLock → Prop}
    (hm : Ctl.Within Quiet anyExit m) (hQ : Q t.mem.sent t.mem.table) : Leaves m t Q := by
  rw [Leaves, (hm t).1.1, (hm t).1.2]
  exact hQ

theorem quiet_throw {A : Exit ρ → Prop} [Ctl.MayBreak A] (e : ExType) :
    Ctl.Within Quiet A (throw (raise e) : Dav σ ρ Unit) :=
  within_throw (fun _ _ => ⟨rfl, rfl⟩) (.modify fun _ => ⟨rfl, rfl⟩)

theorem quiet_foldlM (token : Option Text) (lines : List Text) :
    Ctl.Within Quiet anyExit (lines.foldlM (davLockCallback env) token : Dav σ ρ (Option Text)) := by
  have hstep : ∀ token line,
      Ctl.Within Quiet anyExit (davLockCallback env token line : Dav σ ρ (Option Text)) := by
    intro token line
    unfold davLockCallback
    split
    · refine .bind (.ask fun _ => ⟨rfl, rfl⟩) fun _ => .ite (.pure _) ?_
      exact .bind (.modify fun _ => ⟨rfl, rfl⟩) fun _ => .pure _
    · exact .pure _
  induction lines generalizing token with
  | nil => exact .pure token
  | cons line lines ih =>
    rw [List.foldlM_cons]
    exact .bind (hstep token line) fun token' => ih token'

theorem quiet_lockReply (token : Option Text) (xml : Option XmlCtxt) :
    Ctl.Within Quiet anyExit (lockReply token xml : Dav σ ρ (Option Text)) := by
  have hround : ∀ token n, Ctl.Within Quiet (Ctl.orBreak anyExit) (lockRound token n : Dav σ ρ Unit) := by
    intro token n
    refine .ite ?_ (.pure ())
    split
    · exact quiet_throw _
    · exact .bind (.deref _) fun _ => .ite (.pure ()) (quiet_throw _)
  cases token with
  | none => exact .bind (quiet_throw _) fun _ => .pure _
  | some token =>
    refine .bind (.deref _) fun ctxt => ?_
    cases ctxt with
    | malformed => exact .bind (quiet_throw _) fun _ => .pure _
    | document root => exact .bind (.forEach (hround token) _) fun _ => .pure _

/-- `try body onerror ;`. -/
theorem Leaves.tryOnerror {body : Dav σ ρ α} {t : Thread (Mem σ)}
    {Q : List Request → List FileLock → Prop} (hbody : Leaves body t Q) :
    Leaves (tryCatch body [onerror (pure ())]) t Q := by
  have hhandle : ∀ t' : Thread (Mem σ), handle [onerror (pure () : Dav σ ρ Unit)] t' = (.ok (), t') := by
    intro t'
    cases h : t'.ex.has with
    | false => exact handle_clean h
    | true => exact handle_onerror_ok h rfl
  refine Leaves.bind hbody.doOnce fun r t' => ?_
  rw [Ctl.bind_ok (hhandle t')]
  exact ⟨rfl, rfl⟩

/-- `__dav_lock` sends nothing but its `LOCK` and leaves the table alone. -/
theorem leaves_davLockCore {path : Path} {t : Thread (Mem σ)}
    {Q : List Request → List FileLock → Prop} (h : t.ex.has = false) (hQ : Q t.mem.sent t.mem.table)
    (hsent : ∀ list, Q (t.mem.sent ++ [⟨.lock, path, list, none, .lockinfo⟩]) t.mem.table) :
    Leaves (davLockCore env srv path : Dav σ ρ (Option Text)) t Q := by
  have hquiet : ∀ (token : Option (Option (Option (Option Text)))) t',
      ((Ctl.gets (·.ex.has) >>= fun has => if has then pure none else pure token.join.join.join :
        Dav σ ρ (Option Text)) t').2 = t' := by
    intro token t'
    rw [Ctl.bind_ok (Ctl.gets_apply _ _)]
    cases t'.ex.has <;> rfl
  have hsend : ∀ list s, Leaves (lockPerform env ⟨.lock, path, list, none, .lockinfo⟩ : Dav σ ρ _)
      (atEnv t s) Q := by
    intro list s
    refine Leaves.step (curlEasyPerform_apply env _ _) ?_
    refine Leaves.of_quiet (.bind (quiet_foldlM env none _) fun token => ?_) (hsent list)
    exact .bind (.ite (.pure ()) (quiet_throw _)) fun _ => .pure _
  have hscope : ∀ s, Leaves (lockScope env path : Dav σ ρ _) (atEnv t s) Q := by
    intro s
    refine Leaves.scopeList env h (fun _ => hQ) fun _ => ?_
    refine Leaves.step (curlSlistAppendWeak_apply env [.timeout] .contentTypeXml _) ?_
    exact Leaves.of_breaks (breaks_curlEasySetoptOrDie env .customrequest) h (fun _ => hQ) fun _ =>
      hsend _ _
  refine Leaves.bind (Leaves.tryOnerror ?_) fun token t' => by rw [hquiet]; exact ⟨rfl, rfl⟩
  refine Leaves.withBuffer h (Leaves.throwable (Leaves.withBuffer h ?_))
  refine Leaves.bind (Leaves.throwable ?_) fun r t' => (quiet_lockReply _ _ t').1
  exact Leaves.withCurl env _ _ (fun _ => hQ) fun _ _ => Leaves.throwable (hscope _)

/-! ## `dav_lock` -/

section Granting

variable {path : Path} {t u : Thread (Mem σ)}

/-- `t` after `malloc_et(struct FileLock)`. -/
def blank (t : Thread (Mem σ)) : Thread (Mem σ) :=
  { atEnv t (env.alloc .fileLock t.mem.env).2 with
    mem := { (atEnv t (env.alloc .fileLock t.mem.env).2).mem with newToken := none } }

theorem mallocFileLock_pass (h : (env.alloc .fileLock t.mem.env).1 = true) :
    (mallocFileLock env : Dav σ ρ Unit) t = (.ok (), blank env t) := by
  rw [mallocFileLock, Ctl.bind_ok (outside_apply _ t), if_pos h]
  rfl

theorem mallocFileLock_fail (h : (env.alloc .fileLock t.mem.env).1 = false) :
    (mallocFileLock env : Dav σ ρ Unit) t =
      (.ok (), raised (atEnv t (env.alloc .fileLock t.mem.env).2) (.malloc "struct FileLock")) := by
  rw [mallocFileLock, Ctl.bind_ok (outside_apply _ t), if_neg (by simp [h])]
  rfl

/-- With an exception pending, which is the only time it runs, the rollback sends nothing. -/
theorem lockRollback_pending (path : Path) (h : t.ex.has = true) :
    ∃ t', (lockRollback env srv path : Dav σ ρ Unit) t = (.ok (), t') ∧ t'.ex.has = true ∧
      Quiet t t' := by
  cases hn : t.mem.newToken with
  | none =>
    refine ⟨t, ?_, h, rfl, rfl⟩
    rw [lockRollback, Ctl.bind_ok (Ctl.gets_apply _ _), hn]
    rfl
  | some token =>
    obtain ⟨t', hrun, hex, hsent, htable⟩ := davUnlockCore_pending (ρ := ρ) env srv path token h
    refine ⟨t', ?_, hex, hsent, htable⟩
    rw [lockRollback, Ctl.bind_ok (Ctl.gets_apply _ _), hn]
    exact Ctl.bind_ok hrun

/-- `t` with an entry for `path`. -/
def enlisted (path : Path) (token : Text) (t : Thread (Mem σ)) : Thread (Mem σ) :=
  { t with mem := { t.mem with table := ⟨path, token, 1⟩ :: t.mem.table, newToken := none } }

theorem lockEnter_pass (path : Path) (token : Text) (hn : (env.alloc .treeNode t.mem.env).1 = true) :
    (lockEnter env path (some token) : Dav σ ρ Unit) t =
      (.ok (), enlisted path token (atEnv t (env.alloc .treeNode t.mem.env).2)) := by
  rw [lockEnter, Ctl.bind_ok (outside_apply _ t), if_pos hn]
  rfl

theorem lockEnter_fail (path : Path) (token : Option Text) (hn : (env.alloc .treeNode t.mem.env).1 = false) :
    (lockEnter env path token : Dav σ ρ Unit) t = (.error .brk, raised (atEnv t
      (env.alloc .treeNode t.mem.env).2) (.malloc "filelock table insert")) := by
  rw [lockEnter, Ctl.bind_ok (outside_apply _ t), if_neg (by simp [hn])]
  rfl

section Insert

variable (hf : tfind path t.mem.table = none)

include hf

theorem lockInsert_eq : (lockInsert env srv path : Dav σ ρ Unit) t =
    (throwable (davLockCore env srv path) >>= fun token =>
      modifyMem (fun m => { m with newToken := token }) >>= fun _ =>
        lockEnter env path token : Dav σ ρ Unit) t := by
  rw [lockInsert, Ctl.bind_ok (Ctl.gets_apply _ _), hf]

/-- The lock is not had. -/
theorem lockInsert_refused (h : t.ex.has = false)
    (hg : ∀ g, lockTaken env srv path t.mem.env = some g → ¬Grant.Faults env g ∧
      ¬((env.alloc .simpleString g.after).1 = true ∧ LockAccepted g.token g.xml)) :
    ∃ t', (lockInsert env srv path : Dav σ ρ Unit) t = (.error .brk, t') ∧ t'.ex.has = true ∧
      (davLockCore env srv path : Dav σ ρ (Option Text)) t = (.ok none, t') := by
  obtain ⟨t', hcore, hex⟩ := davLockCore_refused (ρ := ρ) env srv h hg
  refine ⟨t', ?_, hex, hcore⟩
  rw [lockInsert_eq env srv hf]
  exact Ctl.bind_error (throwable_pending hcore hex)

theorem lockInsert_stops (h : t.ex.has = false) {g : Grant σ}
    (hg : lockTaken env srv path t.mem.env = some g) (hfault : Grant.Faults env g) :
    ∃ t', (lockInsert env srv path : Dav σ ρ Unit) t = (.error .fault, t') := by
  obtain ⟨t', hcore⟩ := davLockCore_stops (ρ := ρ) env srv h hg hfault
  refine ⟨t', ?_⟩
  rw [lockInsert_eq env srv hf]
  exact Ctl.bind_error (throwable_error hcore)

/-- The lock is had; `tsearch` decides. -/
theorem lockInsert_taken (h : t.ex.has = false) {g : Grant σ}
    (hg : lockTaken env srv path t.mem.env = some g)
    (hs : (env.alloc .simpleString g.after).1 = true) (ha : LockAccepted g.token g.xml) :
    ∃ t', (davLockCore env srv path : Dav σ ρ (Option Text)) t = (.ok (some g.token), t') ∧
      if (env.alloc .treeNode (env.alloc .simpleString g.after).2).1 then
        ∃ u, (lockInsert env srv path : Dav σ ρ Unit) t = (.ok (), u) ∧ u.ex.has = false ∧
          u.mem.held = t'.mem.held ∧ u.mem.table = ⟨path, g.token, 1⟩ :: t'.mem.table
      else
        ∃ u, (lockInsert env srv path : Dav σ ρ Unit) t = (.error .brk, u) ∧ u.ex.has = true ∧
          u.mem.held = t'.mem.held ∧ Quiet t' u := by
  obtain ⟨t', hcore, hex, henv⟩ := davLockCore_taken (ρ := ρ) env srv h hg hs ha
  refine ⟨t', hcore, ?_⟩
  rw [lockInsert_eq env srv hf, Ctl.bind_ok (throwable_clean hcore hex),
    Ctl.bind_ok (modifyMem_apply _ t'), ← henv]
  split_ifs with hn
  · exact ⟨_, lockEnter_pass env path g.token
      (t := { t' with mem := { t'.mem with newToken := some g.token } }) hn, hex, rfl, rfl⟩
  · exact ⟨_, lockEnter_fail env path (some g.token)
      (t := { t' with mem := { t'.mem with newToken := some g.token } }) (by simpa using hn),
      rfl, rfl, rfl, rfl⟩

end Insert

section Fill

variable {w : Thread (Mem σ)}

/-- `t` inside the write section. -/
def writing (t : Thread (Mem σ)) : Thread (Mem σ) :=
  hold .wr (atEnv t (env.alloc .pathDup t.mem.env).2)

theorem writing_locked (hheld : t.mem.held = []) :
    (wrlock : Dav σ ρ Unit) (atEnv t (env.alloc .pathDup t.mem.env).2) = (.ok (), writing env t) :=
  wrlock_apply hheld

theorem lockFill_dup (hd : (env.alloc .pathDup t.mem.env).1 = false) :
    ∃ t', (lockFill env srv path : Dav σ ρ Unit) t = (.error .brk, t') ∧ t'.ex.has = true ∧
      Quiet t t' := by
  refine ⟨raised (atEnv t (env.alloc .pathDup t.mem.env).2) (.malloc "path dup"), ?_, rfl, rfl, rfl⟩
  rw [lockFill, Ctl.bind_ok (outside_apply _ t), hd]
  rfl

theorem lockFill_eq (hd : (env.alloc .pathDup t.mem.env).1 = true) :
    (lockFill env srv path : Dav σ ρ Unit) t = (throwable (synchronized wrlock
      (lockInsert env srv path)) >>= fun _ => pure () : Dav σ ρ Unit)
      (atEnv t (env.alloc .pathDup t.mem.env).2) := by
  rw [lockFill, Ctl.bind_ok (outside_apply _ t), hd]
  rfl

variable (hd : (env.alloc .pathDup t.mem.env).1 = true)

include hd

theorem lockFill_stuck (hheld : t.mem.held ≠ []) :
    (lockFill env srv path : Dav σ ρ Unit) t =
      (.error .fault, atEnv t (env.alloc .pathDup t.mem.env).2) := by
  have hstuck : (synchronized wrlock (lockInsert env srv path) : Dav σ ρ (Option Unit))
      (atEnv t (env.alloc .pathDup t.mem.env).2) = (.error .fault, _) :=
    synchronized_stuck (wrlock_stuck hheld)
  rw [lockFill_eq env srv hd]
  exact Ctl.bind_error (throwable_error hstuck)

variable (hheld : t.mem.held = [])

include hheld

theorem lockFill_ok (hinsert : (lockInsert env srv path : Dav σ ρ Unit) (writing env t) = (.ok (), w))
    (hw : w.mem.held = [.wr]) (hex : w.ex.has = false) :
    (lockFill env srv path : Dav σ ρ Unit) t = (.ok (), release w) := by
  have hsync : (synchronized wrlock (lockInsert env srv path) : Dav σ ρ (Option Unit))
      (atEnv t (env.alloc .pathDup t.mem.env).2) = (.ok (some ()), release w) :=
    synchronized_ok (writing_locked env hheld) hinsert hw
  rw [lockFill_eq env srv hd]
  exact Ctl.bind_ok (throwable_clean hsync hex)

theorem lockFill_brk
    (hinsert : (lockInsert env srv path : Dav σ ρ Unit) (writing env t) = (.error .brk, w))
    (hw : w.mem.held = [.wr]) (hex : w.ex.has = true) :
    (lockFill env srv path : Dav σ ρ Unit) t = (.error .brk, release w) := by
  have hsync : (synchronized wrlock (lockInsert env srv path) : Dav σ ρ (Option Unit))
      (atEnv t (env.alloc .pathDup t.mem.env).2) = (.ok none, release w) :=
    synchronized_brk (writing_locked env hheld) hinsert hw
  rw [lockFill_eq env srv hd]
  exact Ctl.bind_error (throwable_pending hsync hex)

theorem lockFill_fault
    (hinsert : (lockInsert env srv path : Dav σ ρ Unit) (writing env t) = (.error .fault, w)) :
    (lockFill env srv path : Dav σ ρ Unit) t = (.error .fault, w) := by
  have hsync : (synchronized wrlock (lockInsert env srv path) : Dav σ ρ (Option Unit))
      (atEnv t (env.alloc .pathDup t.mem.env).2) = (.error .fault, w) :=
    withTest_fault (writing_locked env hheld) rfl hinsert
  rw [lockFill_eq env srv hd]
  exact Ctl.bind_error (throwable_error hsync)

end Fill

section Absent

variable (hlock : srv.options.useLock = true) (hw : t.mem.held.contains .wr = false)
  (habsent : tfind path t.mem.table = none)

include hlock hw habsent

/-- Past the read section. -/
theorem davLock_eq : (davLock env srv path : Dav σ ρ ℤ) t =
    (tryCatch (lockCreate env srv path) [onerror (pure ())] >>= fun _ => testSuccess :
      Dav σ ρ ℤ) t := by
  have hfind := lockFind_synchronized (ρ := ρ) path hw
  rw [habsent] at hfind
  rw [davLock, if_pos hlock, Ctl.bind_ok hfind]
  rfl

theorem davLock_create_ok {a : Unit} (hcreate : (lockCreate env srv path : Dav σ ρ Unit) t = (.ok a, u)) :
    (davLock env srv path : Dav σ ρ ℤ) t = (.ok (if u.ex.has then 1 else 0), u) := by
  have hhandle : handle [onerror (pure () : Dav σ ρ Unit)] u = (.ok (), u) := by
    cases h : u.ex.has with
    | false => exact handle_clean h
    | true => exact handle_onerror_ok h rfl
  rw [davLock_eq env srv hlock hw habsent, Ctl.bind_ok (tryCatch_ok_handled hcreate hhandle)]
  rfl

theorem davLock_create_brk (hcreate : (lockCreate env srv path : Dav σ ρ Unit) t = (.error .brk, u))
    (hu : u.ex.has = true) : (davLock env srv path : Dav σ ρ ℤ) t = (.ok 1, u) := by
  have hhandle : handle [onerror (pure () : Dav σ ρ Unit)] u = (.ok (), u) :=
    handle_onerror_ok hu rfl
  rw [davLock_eq env srv hlock hw habsent, Ctl.bind_ok (tryCatch_brk hcreate hhandle),
    testSuccess_apply, hu]
  rfl

/-- No memory for the `filelock`, or an exception on entry. -/
theorem davLock_malloc (hm : t.ex.has = true ∨ (env.alloc .fileLock t.mem.env).1 = false) :
    ∃ t', (davLock env srv path : Dav σ ρ ℤ) t = (.ok 1, t') ∧ Quiet t t' := by
  have hmalloc : ∃ t', (mallocFileLock env : Dav σ ρ Unit) t = (.ok (), t') ∧ t'.ex.has = true ∧
      Quiet t t' := by
    cases ha : (env.alloc .fileLock t.mem.env).1 with
    | false => exact ⟨_, mallocFileLock_fail env ha, rfl, rfl, rfl⟩
    | true =>
      refine ⟨_, mallocFileLock_pass env ha, ?_, rfl, rfl⟩
      rcases hm with hm | hm
      · exact hm
      · rw [ha] at hm
        exact nomatch hm
  obtain ⟨t', hrun, hex, hquiet⟩ := hmalloc
  exact ⟨t', davLock_create_brk env srv hlock hw habsent
    (Ctl.bind_error (throwable_pending hrun hex)) hex, hquiet⟩

section Filled

variable (h : t.ex.has = false) (ha : (env.alloc .fileLock t.mem.env).1 = true)

include h ha

theorem davLock_fill_ok (hfill : (lockFill env srv path : Dav σ ρ Unit) (blank env t) = (.ok (), u))
    (hu : u.ex.has = false) : (davLock env srv path : Dav σ ρ ℤ) t = (.ok 0, u) := by
  have hcreate : (lockCreate env srv path : Dav σ ρ Unit) t = (.ok (), u) := by
    rw [lockCreate, Ctl.bind_ok (throwable_clean (mallocFileLock_pass env ha) h)]
    exact Ctl.bind_ok (tryCatch_ok hfill hu)
  rw [davLock_create_ok env srv hlock hw habsent hcreate, hu]
  rfl

/-- A failure inside the inner `try`. -/
theorem davLock_fill_brk
    (hfill : (lockFill env srv path : Dav σ ρ Unit) (blank env t) = (.error .brk, u))
    (hu : u.ex.has = true) :
    ∃ t', (davLock env srv path : Dav σ ρ ℤ) t = (.ok 1, t') ∧ Quiet u t' := by
  obtain ⟨t', hrollback, hex, hquiet⟩ := lockRollback_pending (ρ := ρ) env srv path hu
  have hcreate : (lockCreate env srv path : Dav σ ρ Unit) t = (.ok (), t') := by
    rw [lockCreate, Ctl.bind_ok (throwable_clean (mallocFileLock_pass env ha) h)]
    exact Ctl.bind_ok (tryCatch_brk hfill (handle_onerror_ok hu hrollback))
  refine ⟨t', ?_, hquiet⟩
  rw [davLock_create_ok env srv hlock hw habsent hcreate, hex]
  rfl

theorem davLock_fill_fault
    (hfill : (lockFill env srv path : Dav σ ρ Unit) (blank env t) = (.error .fault, u)) :
    (davLock env srv path : Dav σ ρ ℤ) t = (.error .fault, u) := by
  have hcreate : (lockCreate env srv path : Dav σ ρ Unit) t = (.error .fault, u) := by
    rw [lockCreate, Ctl.bind_ok (throwable_clean (mallocFileLock_pass env ha) h)]
    exact Ctl.bind_error (tryCatch_fault hfill)
  rw [davLock_eq env srv hlock hw habsent, Ctl.bind_error (tryCatch_fault hcreate)]

end Filled

end Absent

/-! ## A failed `dav_lock` -/

/-- The table is the same, and nothing but a `LOCK` was sent. -/
def Bare (t t' : Thread (Mem σ)) : Prop :=
  t'.mem.table = t.mem.table ∧ ∀ r ∈ t'.mem.sent.drop t.mem.sent.length, r.method = .lock

theorem Bare.quiet {t' : Thread (Mem σ)} (hb : Bare t u) (hq : Quiet u t') : Bare t t' := by
  refine ⟨hq.2.trans hb.1, ?_⟩
  rw [hq.1]
  exact hb.2

theorem bare_of_quiet (hq : Quiet t u) : Bare t u := by
  refine ⟨hq.2, ?_⟩
  rw [hq.1, List.drop_length]
  exact fun _ hr => absurd hr List.not_mem_nil

/-- What `__dav_lock` leaves when `dav_lock` calls it. -/
theorem bare_davLockCore (h : t.ex.has = false) {r : Except (Exit ρ) (Option Text)}
    (hcore : (davLockCore env srv path : Dav σ ρ (Option Text)) (writing env (blank env t)) = (r, u)) :
    Bare t u ∧ u.mem.held = .wr :: t.mem.held := by
  constructor
  · have hleaves : Leaves (davLockCore env srv path : Dav σ ρ (Option Text))
        (writing env (blank env t)) fun sent table => table = t.mem.table ∧
          ∀ r ∈ sent.drop t.mem.sent.length, r.method = .lock := by
      refine leaves_davLockCore env srv h ⟨rfl, ?_⟩ fun list => ⟨rfl, ?_⟩
      · exact (bare_of_quiet ⟨rfl, rfl⟩ : Bare t (writing env (blank env t))).2
      · have hsame : (writing env (blank env t)).mem.sent = t.mem.sent := rfl
        rw [hsame, List.drop_left]
        exact fun r hr => by rw [List.mem_singleton.mp hr]
    rw [Leaves, hcore] at hleaves
    exact hleaves
  · have hwithin := (within_davLockCore (R := SameHeld) (A := anyExit (ρ := ρ)) env srv path
      (writing env (blank env t))).1
    rw [hcore] at hwithin
    exact hwithin

section Ready

variable (hlock : srv.options.useLock = true) (habsent : tfind path t.mem.table = none)

include hlock habsent

section Free

variable (h : t.ex.has = false) (hheld : t.mem.held = []) (ha : (lockAllocs env t.mem.env).1 = true)

include h hheld ha

omit hlock habsent h hheld in
theorem lockAllocs_pass : (env.alloc .fileLock t.mem.env).1 = true ∧
    (env.alloc .pathDup (blank env t).mem.env).1 = true ∧
    (writing env (blank env t)).mem.env = (lockAllocs env t.mem.env).2 := by
  obtain ⟨hm, hd⟩ := Attempt.andThen_fst.mp ha
  refine ⟨hm, hd, ?_⟩
  rw [lockAllocs, Attempt.andThen_of_pass hm]
  rfl

theorem davLock_stops {g : Grant σ} (hg : lockTaken env srv path (lockAllocs env t.mem.env).2 = some g)
    (hfault : Grant.Faults env g) :
    ∃ t', (davLock env srv path : Dav σ ρ ℤ) t = (.error .fault, t') := by
  obtain ⟨hm, hd, henv⟩ := lockAllocs_pass env ha
  rw [← henv] at hg
  have hw : t.mem.held.contains .wr = false := by rw [hheld]; rfl
  obtain ⟨u, hinsert⟩ := lockInsert_stops (ρ := ρ) env srv (t := writing env (blank env t)) habsent h
    hg hfault
  exact ⟨u, davLock_fill_fault env srv hlock hw habsent h hm
    (lockFill_fault env srv hd hheld hinsert)⟩

theorem davLock_enters {g : Grant σ}
    (hg : lockTaken env srv path (lockAllocs env t.mem.env).2 = some g) (he : Grant.Entered env g) :
    ∃ t', (davLock env srv path : Dav σ ρ ℤ) t = (.ok 0, t') ∧ t'.ex.has = false ∧
      t'.mem.held = [] ∧ t'.mem.table = ⟨path, g.token, 1⟩ :: t.mem.table := by
  obtain ⟨hm, hd, henv⟩ := lockAllocs_pass env ha
  rw [← henv] at hg
  have hw : t.mem.held.contains .wr = false := by rw [hheld]; rfl
  obtain ⟨t', hcore, hcase⟩ := lockInsert_taken (ρ := ρ) env srv (t := writing env (blank env t))
    habsent h hg he.2.1 he.2.2.1
  rw [if_pos he.2.2.2] at hcase
  obtain ⟨u, hinsert, hex, hu, htable⟩ := hcase
  obtain ⟨hbare, hheld'⟩ := bare_davLockCore env srv h hcore
  have huheld : u.mem.held = [.wr] := by
    rw [hu, hheld', hheld]
  refine ⟨release u, davLock_fill_ok env srv hlock hw habsent h hm
    (lockFill_ok env srv hd hheld hinsert huheld hex) hex, hex, ?_, ?_⟩
  · show u.mem.held.tail = []
    rw [huheld]
    rfl
  · rw [← hbare.1]
    exact htable

/-- A lock that is refused, or granted and then dropped. -/
theorem davLock_drops (hg : ∀ g, lockTaken env srv path (lockAllocs env t.mem.env).2 = some g →
      ¬Grant.Entered env g ∧ ¬Grant.Faults env g) :
    ∃ t', (davLock env srv path : Dav σ ρ ℤ) t = (.ok 1, t') ∧ Bare t t' := by
  obtain ⟨hm, hd, henv⟩ := lockAllocs_pass env ha
  rw [← henv] at hg
  have hw : t.mem.held.contains .wr = false := by rw [hheld]; rfl
  have hinsert : ∃ u, (lockInsert env srv path : Dav σ ρ Unit) (writing env (blank env t)) =
      (.error .brk, u) ∧ u.ex.has = true ∧ u.mem.held = [.wr] ∧ Bare t u := by
    by_cases htaken : ∃ g, lockTaken env srv path (writing env (blank env t)).mem.env = some g ∧
        (env.alloc .simpleString g.after).1 = true ∧ LockAccepted g.token g.xml
    · obtain ⟨g, hgrant, hs, haccepted⟩ := htaken
      obtain ⟨t', hcore, hcase⟩ := lockInsert_taken (ρ := ρ) env srv
        (t := writing env (blank env t)) habsent h hgrant hs haccepted
      rw [if_neg fun hn =>
        (hg g hgrant).1 ⟨lockTaken_code env srv hgrant, hs, haccepted, hn⟩] at hcase
      obtain ⟨u, hinsert, hex, hu, hquiet⟩ := hcase
      obtain ⟨hbare, hheld'⟩ := bare_davLockCore env srv h hcore
      exact ⟨u, hinsert, hex, by rw [hu, hheld', hheld], hbare.quiet hquiet⟩
    · obtain ⟨u, hinsert, hex, hcore⟩ := lockInsert_refused (ρ := ρ) env srv
        (t := writing env (blank env t)) habsent h fun g hgrant =>
          ⟨(hg g hgrant).2, fun hall => htaken ⟨g, hgrant, hall⟩⟩
      obtain ⟨hbare, hheld'⟩ := bare_davLockCore env srv h hcore
      exact ⟨u, hinsert, hex, by rw [hheld', hheld], hbare⟩
  obtain ⟨u, hinsert, hex, hu, hbare⟩ := hinsert
  obtain ⟨t', hrun, hquiet⟩ := davLock_fill_brk env srv hlock hw habsent h hm
    (lockFill_brk env srv hd hheld hinsert hu hex) hex
  exact ⟨t', hrun, hbare.quiet hquiet⟩

end Free

/-- A `dav_lock` that does not come to its `LOCK`. -/
theorem davLock_barred (hn : ¬(t.ex.has = false ∧ t.mem.held = [] ∧
      (lockAllocs env t.mem.env).1 = true)) :
    (∃ t', (davLock env srv path : Dav σ ρ ℤ) t = (.ok 1, t') ∧ Quiet t t') ∨
      ∃ t', (davLock env srv path : Dav σ ρ ℤ) t = (.error .fault, t') := by
  cases hw : t.mem.held.contains .wr with
  | true =>
    refine .inr ⟨t, ?_⟩
    rw [davLock, if_pos hlock, Ctl.bind_error (synchronized_stuck (rdlock_stuck hw))]
  | false =>
    cases h : t.ex.has with
    | true => exact .inl (davLock_malloc env srv hlock hw habsent (.inl h))
    | false =>
      cases hm : (env.alloc .fileLock t.mem.env).1 with
      | false => exact .inl (davLock_malloc env srv hlock hw habsent (.inr hm))
      | true =>
        cases hd : (env.alloc .pathDup (blank env t).mem.env).1 with
        | false =>
          have hfilled : ∃ u, (lockFill env srv path : Dav σ ρ Unit) (blank env t) =
              (.error .brk, u) ∧ u.ex.has = true ∧ Quiet (blank env t) u := lockFill_dup env srv hd
          obtain ⟨u, hfill, hex, hquiet⟩ := hfilled
          obtain ⟨t', hrun, hquiet'⟩ := davLock_fill_brk env srv hlock hw habsent h hm hfill hex
          exact .inl ⟨t', hrun, hquiet'.1.trans hquiet.1, hquiet'.2.trans hquiet.2⟩
        | true =>
          have hheld : t.mem.held ≠ [] := fun hheld =>
            hn ⟨h, hheld, Attempt.andThen_fst.mpr ⟨hm, hd⟩⟩
          exact .inr ⟨_, davLock_fill_fault env srv hlock hw habsent h hm
            (lockFill_stuck env srv hd hheld)⟩

section Leaves

omit hlock habsent

/-- A `dav_lock` that succeeds, or does not return. -/
theorem leavesNothing_of_run {r : Except (Exit Unit) ℤ} {t' : Thread (Mem σ)}
    (hrun : (davLock env srv path : Dav σ Unit ℤ) t = (r, t')) (hr : ∀ v, r = .ok v → v = 0) :
    LeavesNothing env srv path t := by
  intro v t'' hrun' hv
  rw [hrun] at hrun'
  exact absurd (hr v (Prod.mk.inj hrun').1) hv

/-- A `dav_lock` that fails without an `UNLOCK` leaves nothing when nothing was granted. -/
theorem leavesNothing_bare {t' : Thread (Mem σ)}
    (hrun : (davLock env srv path : Dav σ Unit ℤ) t = (.ok 1, t')) (hbare : Bare t t') :
    LeavesNothing env srv path t ↔ grantedTo env srv path t = none := by
  constructor
  · intro hleaves
    rcases hg : grantedTo env srv path t with _ | g
    · rfl
    · have hmem := (hleaves 1 t' hrun (by decide)).2 g hg
      exact absurd (hbare.2 _ hmem) (by simp [unlockRequest])
  · intro hnone v t'' hrun' _
    rw [hrun] at hrun'
    rw [← (Prod.mk.inj hrun').2]
    refine ⟨hbare.1, fun g hg => ?_⟩
    rw [hnone] at hg
    cases hg

end Leaves

/-- When the `LOCK` is come to. -/
theorem leavesNothing_ready (h : t.ex.has = false) (hheld : t.mem.held = [])
    (ha : (lockAllocs env t.mem.env).1 = true) : LeavesNothing env srv path t ↔
      ∀ g, lockGrant env srv path (lockAllocs env t.mem.env).2 = some g →
        Grant.Entered env g ∨ Grant.Faults env g := by
  have hgranted : grantedTo env srv path t = lockGrant env srv path (lockAllocs env t.mem.env).2 :=
    if_pos ⟨h, hheld, ha⟩
  by_cases htaken : ∃ g, lockTaken env srv path (lockAllocs env t.mem.env).2 = some g ∧
      (Grant.Entered env g ∨ Grant.Faults env g)
  · obtain ⟨g, hg, hcase⟩ := htaken
    refine iff_of_true ?_ fun g' hg' => lockTaken_only env srv hg' hg ▸ hcase
    rcases hcase with henters | hfault
    · obtain ⟨t', hrun, -⟩ := davLock_enters (ρ := Unit) env srv hlock habsent h hheld ha hg henters
      exact leavesNothing_of_run env srv hrun fun v hv => (Except.ok.inj hv).symm
    · obtain ⟨t', hrun⟩ := davLock_stops (ρ := Unit) env srv hlock habsent h hheld ha hg hfault
      exact leavesNothing_of_run env srv hrun fun v hv => by cases hv
  · obtain ⟨t', hrun, hbare⟩ := davLock_drops (ρ := Unit) env srv hlock habsent h hheld ha
      fun g hg => ⟨fun he => htaken ⟨g, hg, .inl he⟩, fun hf => htaken ⟨g, hg, .inr hf⟩⟩
    rw [leavesNothing_bare env srv hrun hbare, hgranted, Option.eq_none_iff_forall_ne_some]
    -- the lock that is granted is not taken, or fails later
    refine forall_congr' fun g => ⟨fun hnone hg => absurd hg hnone, fun hall hg => htaken ⟨g, ?_⟩⟩
    have hcode : g.code = .ok := (hall hg).elim (·.1) (·.1)
    exact ⟨by rw [lockTaken_of_grant env srv hg, if_pos hcode], hall hg⟩

/-- A failed `dav_lock` on a path without an entry leaves the table as it was and no lock
    on the server, exactly when nothing fails after the server has granted one: the rollback
    never sends its `UNLOCK`. -/
theorem failed_lock_leaves_nothing_iff : LeavesNothing env srv path t ↔
    ∀ g, grantedTo env srv path t = some g → Grant.Entered env g ∨ Grant.Faults env g := by
  by_cases hready : t.ex.has = false ∧ t.mem.held = [] ∧ (lockAllocs env t.mem.env).1 = true
  · rw [grantedTo, if_pos hready]
    exact leavesNothing_ready env srv hlock habsent hready.1 hready.2.1 hready.2.2
  · have hgranted : grantedTo env srv path t = none := if_neg hready
    refine iff_of_true ?_ fun g hg => ?_
    · rcases davLock_barred (ρ := Unit) env srv hlock habsent hready with
        ⟨t', hrun, hquiet⟩ | ⟨t', hrun⟩
      · exact (leavesNothing_bare env srv hrun (bare_of_quiet hquiet)).mpr hgranted
      · exact leavesNothing_of_run env srv hrun fun v hv => by cases hv
    · rw [hgranted] at hg
      cases hg

end Ready

end Granting

/-- A `LOCK` answered with the token `a` and the body `xml`. -/
def lockAnswered (xml : XmlCtxt) : Reply :=
  ⟨.ok, 200, ["Lock-Token: <a>".toList], [], [], some xml⟩

/-- The body that goes with the token `a`. -/
def lockDocument : XmlCtxt :=
  .document (davNode "prop" [davNode "lockdiscovery" [davNode "activelock" [davNode "timeout" [],
    davNode "locktoken" [davNode "href" [textNode "a"]]]]])

/-- The `href` of a `lockdiscovery` with one lock. -/
theorem lockHref_usual (timeout text : List Node) :
    LockHref (davNode "lockdiscovery" [davNode "activelock" [davNode "timeout" timeout,
      davNode "locktoken" [davNode "href" text]]]) (davNode "href" text) := by
  have hnone : ∀ name : Text, ∀ m ∈ ([] : List Node), m.name ≠ name := fun _ _ hmem =>
    absurd hmem List.not_mem_nil
  exact ⟨_, [], _, _, _, [], [], rfl, rfl, ⟨[], rfl, rfl, hnone _⟩, ⟨[], rfl, rfl, hnone _⟩,
    ⟨[], rfl, rfl, hnone _⟩⟩

theorem lockAccepted_lockDocument : LockAccepted ['a'] (some lockDocument) := by
  intro n hn _
  rw [List.mem_singleton.mp hn]
  exact ⟨_, _, lockHref_usual [] [textNode "a"], rfl, List.prefix_rfl⟩

/-- The same, but the transfer ends with `CURLE_WRITE_ERROR`: `curl_parse_xml` refuses the
    body. -/
def lockCut : Reply := { lockAnswered .malformed with code := .other 23 }

theorem lock_answered_leaves_nothing :
    lockingServer.options.useLock = true ∧ tfind [47, 97] (idle ()).mem.table = none ∧
      LeavesNothing (answering (lockAnswered lockDocument)) lockingServer [47, 97] (idle ()) := by
  refine ⟨rfl, rfl, (failed_lock_leaves_nothing_iff _ lockingServer rfl rfl).mpr fun g hg => .inl ?_⟩
  have hgrant : (⟨.ok, ['a'], some lockDocument, ()⟩ : Grant Unit) = g := Option.some.inj hg
  rw [← hgrant]
  exact ⟨rfl, rfl, lockAccepted_lockDocument, rfl⟩

/-- A failed `dav_lock` that was granted a lock and did not give it back. -/
theorem not_leavesNothing {env : Env σ} {srv : DavServer} {path : Path} {t t' : Thread (Mem σ)}
    {v : ℤ} {g : Grant σ} (hgrant : grantedTo env srv path t = some g)
    (hrun : (davLock env srv path : Dav σ Unit ℤ) t = (.ok v, t')) (hv : v ≠ 0)
    (hkept : unlockRequest path g.token ∉ t'.mem.sent.drop t.mem.sent.length) :
    ¬LeavesNothing env srv path t := by
  intro hleaves
  obtain ⟨-, hgiven⟩ := hleaves v t' hrun hv
  exact hkept (hgiven g hgrant)

/-- The `LOCK` is granted, the body of the reply is not well formed: `dav_lock` fails and
    sends no `UNLOCK`, whether the parser finds it at the end or ends the transfer. -/
theorem lock_malformed_keeps_lock :
    ¬LeavesNothing (answering (lockAnswered .malformed)) lockingServer [47, 97] (idle ()) ∧
      ¬LeavesNothing (answering lockCut) lockingServer [47, 97] (idle ()) := by
  constructor
  · exact not_leavesNothing rfl rfl (by decide : (1 : ℤ) ≠ 0) (by decide)
  · exact not_leavesNothing rfl rfl (by decide : (1 : ℤ) ≠ 0) (by decide)

end NetworkFs.Dav
