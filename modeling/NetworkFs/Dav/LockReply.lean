import NetworkFs.Dav.Compensation

/-!
# The token in the reply body

`__dav_lock` compares the token of the `Lock-Token` line with the body of the reply
(`proto/dav/method.c` lines 541–582): in every `lockdiscovery` under the root it looks at one
`href` (`LockHref`), and there at the start of the text.

* `davLockCore_cases`: the token is returned when every `lockdiscovery` names it; the body is
  refused, or dereferenced where it has nothing, otherwise.
* `davLockCore_token_iff`, `davLockCore_null_iff`: when the token and when `NULL` is returned.
* `confirms_iff`: a token that is returned was in the body, and one that is not in the body is
  not returned, exactly when the body does not mislead.
-/

namespace NetworkFs.Dav

open Control Grammar Wrapper Text

variable {σ ρ : Type} (env : Env σ) (srv : DavServer)

/-- The text of an element. -/
def elementText (n : Node) : Option Text := n.firstChild.bind Node.content

/-- The body has the token where a reply to `LOCK` gives it. -/
def Confirmed (root : Node) (token : Text) : Prop :=
  ∃ lockdiscovery ∈ root.children, lockdiscovery.name = "lockdiscovery".toList ∧
    ∃ activelock ∈ lockdiscovery.children, activelock.name = "activelock".toList ∧
      ∃ locktoken ∈ activelock.children, locktoken.name = "locktoken".toList ∧
        ∃ href ∈ locktoken.children, href.name = "href".toList ∧ elementText href = some token

/-- What `__dav_lock` returns was confirmed by the body, and what is not confirmed gives `NULL`
    with an exception. -/
def Confirms (path : Path) (lines : List Text) (root : Node) (t : Thread (Mem σ)) : Prop :=
  (∀ token t', (davLockCore env srv path : Dav σ Unit (Option Text)) t = (.ok (some token), t') →
    Confirmed root token) ∧
  ∀ token, headerToken lines = some token → ¬Confirmed root token →
    ∃ t', (davLockCore env srv path : Dav σ Unit (Option Text)) t = (.ok none, t') ∧
      t'.ex.has = true

/-- The body does not have the token, but the check does not refuse it: every `lockdiscovery`
    starts with the token where it is compared, or the first that does not has nothing there. -/
def Misleading (token : Text) (root : Node) : Prop :=
  ¬Confirmed root token ∧ (LocksMatch token root.children ∨ LocksStop token root.children)

/-! ## `__dav_lock` on a reply -/

section Reply

variable {path : Path} {t : Thread (Mem σ)} {reply : Reply} {s : σ} {root : Node}
  (h : t.ex.has = false) (hreply : lockExchange env srv path t.mem.env = some (reply, s))
  (hcode : reply.code = .ok) (hxml : reply.xml = some (.document root))

include h hreply hcode hxml

omit hxml in
/-- Without a token, or when it cannot be stored. -/
theorem davLockCore_no_token (hnone : ∀ token, headerToken reply.headers = some token →
      (env.alloc .simpleString s).1 = false) :
    ∃ t', (davLockCore env srv path : Dav σ ρ (Option Text)) t = (.ok none, t') ∧
      t'.ex.has = true := by
  refine davLockCore_refused env srv h fun g hg => ?_
  have hstored : (env.alloc .simpleString g.after).1 = false := by
    rw [lockTaken, hreply, Option.bind_some, if_pos hcode, replyGrant, Option.map_eq_some_iff] at hg
    obtain ⟨token, htoken, rfl⟩ := hg
    exact hnone token htoken
  constructor
  · rintro ⟨-, hs, -⟩
    rw [hstored] at hs
    exact absurd hs Bool.false_ne_true
  · rintro ⟨hs, -⟩
    rw [hstored] at hs
    exact absurd hs Bool.false_ne_true

section Token

variable {token : Text} (htoken : headerToken reply.headers = some token)
  (hs : (env.alloc .simpleString s).1 = true)

include htoken

omit h in
theorem lockTaken_of_reply :
    lockTaken env srv path t.mem.env = some ⟨reply.code, token, some (.document root), s⟩ := by
  rw [lockTaken, hreply, Option.bind_some, if_pos hcode, replyGrant, htoken, hxml]
  rfl

include hs

/-- The three outcomes with a token. -/
theorem davLockCore_cases :
    (LocksMatch token root.children →
      ∃ t', (davLockCore env srv path : Dav σ ρ (Option Text)) t = (.ok (some token), t')) ∧
    (¬LocksMatch token root.children → ¬LocksStop token root.children →
      ∃ t', (davLockCore env srv path : Dav σ ρ (Option Text)) t = (.ok none, t') ∧
        t'.ex.has = true) ∧
    (LocksStop token root.children →
      ∃ t', (davLockCore env srv path : Dav σ ρ (Option Text)) t = (.error .fault, t')) := by
  have hg := lockTaken_of_reply env srv hreply hcode hxml htoken
  refine ⟨fun hmatch => ?_, fun hnot hgoes => ?_, fun hstop => ?_⟩
  · obtain ⟨t', hrun, -⟩ := davLockCore_taken (ρ := ρ) env srv h hg hs hmatch
    exact ⟨t', hrun⟩
  · refine davLockCore_refused env srv h fun g hg' => ?_
    rw [hg] at hg'
    obtain rfl := Option.some.inj hg'
    exact ⟨fun hfaults => hgoes hfaults.2.2, fun hboth => hnot hboth.2⟩
  · exact davLockCore_stops env srv h hg ⟨hcode, hs, hstop⟩

/-- The token that is returned is the one of the header. -/
theorem davLockCore_token_iff (token' : Text) :
    (∃ t', (davLockCore env srv path : Dav σ ρ (Option Text)) t = (.ok (some token'), t')) ↔
      token' = token ∧ LocksMatch token root.children := by
  obtain ⟨hmatch, hrefused, hfault⟩ :=
    davLockCore_cases (ρ := ρ) env srv h hreply hcode hxml htoken hs
  constructor
  · rintro ⟨t', hrun⟩
    have hall : LocksMatch token root.children := by
      by_contra hall
      by_cases hstop : LocksStop token root.children
      · obtain ⟨t'', hrun'⟩ := hfault hstop
        cases (Prod.mk.inj (hrun.symm.trans hrun')).1
      · obtain ⟨t'', hrun', -⟩ := hrefused hall hstop
        cases (Prod.mk.inj (hrun.symm.trans hrun')).1
    obtain ⟨t'', hrun'⟩ := hmatch hall
    have hsame := Except.ok.inj (Prod.mk.inj (hrun.symm.trans hrun')).1
    exact ⟨Option.some.inj hsame, hall⟩
  · rintro ⟨rfl, hall⟩
    exact hmatch hall

theorem davLockCore_null_iff :
    (∃ t', (davLockCore env srv path : Dav σ ρ (Option Text)) t = (.ok none, t') ∧
      t'.ex.has = true) ↔ ¬LocksMatch token root.children ∧ ¬LocksStop token root.children := by
  obtain ⟨hmatch, hrefused, hfault⟩ :=
    davLockCore_cases (ρ := ρ) env srv h hreply hcode hxml htoken hs
  constructor
  · rintro ⟨t', hrun, -⟩
    constructor
    · intro hall
      obtain ⟨t'', hrun'⟩ := hmatch hall
      cases (Prod.mk.inj (hrun.symm.trans hrun')).1
    · intro hstop
      obtain ⟨t'', hrun'⟩ := hfault hstop
      cases (Prod.mk.inj (hrun.symm.trans hrun')).1
  · rintro ⟨hnot, hgoes⟩
    exact hrefused hnot hgoes

end Token

omit h hreply hcode hxml in
/-- Without a token nothing is returned, and nothing has to be confirmed. -/
theorem confirms_of_refused {lines : List Text}
    (hrefused : ∃ t', (davLockCore env srv path : Dav σ Unit (Option Text)) t = (.ok none, t') ∧
      t'.ex.has = true) : Confirms env srv path lines root t := by
  refine ⟨fun token t' hrun => ?_, fun _ _ _ => hrefused⟩
  obtain ⟨t'', hrun', -⟩ := hrefused
  cases (Prod.mk.inj (hrun.symm.trans hrun')).1

/-- A token that is returned was confirmed by the body, and one that was not confirmed is not
    returned, exactly when the body does not mislead the check. -/
theorem confirms_iff : Confirms env srv path reply.headers root t ↔
    ∀ token, headerToken reply.headers = some token → (env.alloc .simpleString s).1 = true →
      ¬Misleading token root := by
  by_cases hnone : ∀ token, headerToken reply.headers = some token →
      (env.alloc .simpleString s).1 = false
  · refine iff_of_true (confirms_of_refused env srv
      (davLockCore_no_token env srv h hreply hcode hnone)) fun token htoken hs => ?_
    rw [hnone token htoken] at hs
    cases hs
  · push Not at hnone
    obtain ⟨token, htoken, hs⟩ := hnone
    rw [Bool.ne_false_iff] at hs
    have hreturns := davLockCore_token_iff (ρ := Unit) env srv h hreply hcode hxml htoken hs
    have hrefuses := davLockCore_null_iff (ρ := Unit) env srv h hreply hcode hxml htoken hs
    constructor
    · rintro ⟨-, hmissing⟩ token' htoken' - ⟨hnot, hmisled⟩
      obtain rfl := Option.some.inj (htoken.symm.trans htoken')
      obtain ⟨hmatch, hgoes⟩ := hrefuses.mp (hmissing token htoken hnot)
      exact hmisled.elim hmatch hgoes
    · intro hcondition
      have hsound := hcondition token htoken hs
      refine ⟨fun token' t' hrun => ?_, fun token' htoken' hnot => ?_⟩
      · -- what is returned passed the check, so the body would mislead without the token
        obtain ⟨rfl, hall⟩ := (hreturns token').mp ⟨t', hrun⟩
        by_contra hnot
        exact hsound ⟨hnot, .inl hall⟩
      · obtain rfl := Option.some.inj (htoken.symm.trans htoken')
        exact hrefuses.mpr (not_or.mp fun hmisled => hsound ⟨hnot, hmisled⟩)

end Reply

/-- A reply to `LOCK` with the token `a` in its header, and these nodes under the root. -/
def lockReplyOf (children : List Node) : Reply :=
  ⟨.ok, 200, ["Lock-Token: <a>\r\n".toList], [], [], some (.document (davNode "prop" children))⟩

/-- A `lockdiscovery` with one active lock. -/
def activeLock (token : String) : Node :=
  davNode "lockdiscovery" [davNode "activelock" [davNode "timeout" [textNode "Second-600"],
    davNode "locktoken" [davNode "href" [textNode token]]]]

theorem confirmed_activeLock {token : Text} {text : String} :
    Confirmed (davNode "prop" [activeLock text]) token ↔ text.toList = token := by
  constructor
  · rintro ⟨_, hlock, -, _, hactive, -, locktoken, htoken, hname, href, hhref, -, htext⟩
    obtain rfl := List.mem_singleton.mp hlock
    obtain rfl := List.mem_singleton.mp hactive
    rcases List.mem_pair.mp htoken with rfl | rfl
    · exact absurd hname (by decide)
    · obtain rfl := List.mem_singleton.mp hhref
      exact Option.some.inj htext
  · rintro rfl
    exact ⟨activeLock text, List.mem_singleton.mpr rfl, rfl, _, List.mem_singleton.mpr rfl, rfl,
      davNode "locktoken" [davNode "href" [textNode text]], List.mem_pair.mpr (.inr rfl), rfl, _,
      List.mem_singleton.mpr rfl, rfl, rfl⟩

/-- A body without a `lockdiscovery` misleads for every token. -/
theorem misleading_nil (token : Text) : Misleading token (davNode "prop" []) := by
  refine ⟨?_, .inl fun _ hmem => absurd hmem List.not_mem_nil⟩
  rintro ⟨_, hmem, -⟩
  exact absurd hmem List.not_mem_nil

/-- A body with one lock misleads when its token is longer. -/
theorem misleading_activeLock {token : Text} {text : String} :
    Misleading token (davNode "prop" [activeLock text]) ↔
      token <+: text.toList ∧ text.toList ≠ token := by
  have hhref := lockHref_usual [textNode "Second-600"] [textNode text]
  have hnames : LocksMatch token [activeLock text] ↔ token <+: text.toList := by
    constructor
    · intro hmatch
      obtain ⟨href, n, hfound, hchild, hprefix⟩ := hmatch _ (List.mem_singleton.mpr rfl) rfl
      have hsame := (scanLockdiscovery_eq_some_iff.mpr hfound).symm.trans
        (scanLockdiscovery_eq_some_iff.mpr hhref)
      rw [Option.some.inj hsame] at hchild
      rw [← Option.some.inj hchild] at hprefix
      exact hprefix
    · intro hprefix n hn _
      rw [List.mem_singleton.mp hn]
      exact ⟨_, textNode text, hhref, rfl, hprefix⟩
  have hgoes : ¬LocksStop token [activeLock text] := by
    rw [locksStop_cons]
    rintro (⟨-, href, hfound, hchild⟩ | ⟨-, before, n, after, hsplit, -⟩)
    · have hsame := (scanLockdiscovery_eq_some_iff.mpr hfound).symm.trans
        (scanLockdiscovery_eq_some_iff.mpr hhref)
      rw [Option.some.inj hsame] at hchild
      cases hchild
    · exact absurd hsplit (by simp)
  show ¬_ ∧ (LocksMatch token [activeLock text] ∨ LocksStop token [activeLock text]) ↔ _
  rw [confirmed_activeLock, hnames, or_iff_left hgoes, and_comm]

theorem confirms_same_token :
    Confirms (answering (lockReplyOf [activeLock "a"])) lockingServer [47, 97]
      (lockReplyOf [activeLock "a"]).headers (davNode "prop" [activeLock "a"]) (idle ()) := by
  have hreply : lockExchange (answering (lockReplyOf [activeLock "a"])) lockingServer [47, 97]
      (idle ()).mem.env = some (lockReplyOf [activeLock "a"], ()) := rfl
  refine (confirms_iff _ _ rfl hreply rfl rfl).mpr fun token htoken _ hmislead => ?_
  have hsame : some "a".toList = some token := htoken
  rw [← Option.some.inj hsame] at hmislead
  exact hmislead.1 (confirmed_activeLock.mpr rfl)

/-- A body without a `lockdiscovery`, and one with a longer token: `a` is returned. -/
theorem unconfirmed_token_returned :
    (∀ children ∈ [[], [activeLock "ab"]],
      ((davLockCore (answering (lockReplyOf children)) lockingServer [47, 97] :
        Dav Unit Unit (Option Text)) (idle ())).1 = .ok (some "a".toList)) ∧
    ¬Confirmed (davNode "prop" []) "a".toList ∧
    ¬Confirmed (davNode "prop" [activeLock "ab"]) "a".toList := by
  refine ⟨fun children hmem => ?_, (misleading_nil _).1,
    (misleading_activeLock.mpr ⟨by decide, by decide⟩).1⟩
  rcases List.mem_pair.mp hmem with rfl | rfl <;> rfl

end NetworkFs.Dav
