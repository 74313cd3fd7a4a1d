import NetworkFs.Dav.Compensation
import NetworkFs.Dav.HeaderLines

/-!
# The lock token from the reply to the requests

`__dav_lock_callback` takes the token from the header line, and `__dav_header_if` and
`__dav_unlock` print it with `snprintf` into arrays whose sizes they compute.

* `lockToken_of_value`: the token in a line with blanks around it, with or without brackets.
* `davHeaderIf_lines`, `davUnlockCore_lines`: the lines that the two functions send for a token.
* `lockToken_round_trip`: the token of the first `Lock-Token` line is stored and printed as it
  is.
-/

namespace NetworkFs.Dav

open Control Grammar Wrapper Text Memory

/-- `SimpleString` (`common/template/simple_string.h` lines 10–13). -/
structure SimpleString where
  len : ℕ
  str : Text
  deriving DecidableEq

/-- `SimpleString_new(str)` (lines 15–23), where the allocation succeeds. -/
def simpleString (str : Text) : SimpleString := ⟨str.length, str⟩

/-- `char if_header[sizeof("If: (<>)") + filelock->token->len]; snprintf(if_header, ...)`
    (`method.c` lines 49–50). -/
def ifHeader (token : SimpleString) : Text :=
  snprintf ("If: (<>)".length + 1 + token.len) ("If: (<".toList ++ token.str ++ ">)".toList)

/-- `char token_header[sizeof("Lock-Token: <>") + token->len]; snprintf(token_header, ...)`
    (lines 600–601). -/
def tokenHeader (token : SimpleString) : Text :=
  snprintf ("Lock-Token: <>".length + 1 + token.len)
    ("Lock-Token: <".toList ++ token.str ++ ">".toList)

/-- The line of a header, as it is given to `curl_slist_append`; `url` is what `curl_url_get`
    gives for a path. -/
def headerLine (url : Path → Text) : Header → Text
  | .ifToken token => ifHeader (simpleString token)
  | .destination path => "Destination: ".toList ++ url path
  | .overwriteF => "Overwrite: F".toList
  | .depth n => "Depth: ".toList ++ showInt n
  | .preferMinimal => "Prefer: return=minimal".toList
  | .contentTypeXml => "Content-Type: application/xml; charset=\"utf-8\"".toList
  | .timeout => "Timeout: Second-600".toList
  | .lockToken token => tokenHeader (simpleString token)

/-! ## Printing -/

/-- The array is long enough for every token. -/
theorem ifHeader_simpleString (t : Text) :
    ifHeader (simpleString t) = "If: (<".toList ++ t ++ ">)".toList := by
  refine snprintf_of_lt ?_
  rw [List.length_append, List.length_append]
  show 6 + t.length + 2 < 8 + 1 + t.length
  omega

theorem tokenHeader_simpleString (t : Text) :
    tokenHeader (simpleString t) = "Lock-Token: <".toList ++ t ++ ">".toList := by
  refine snprintf_of_lt ?_
  rw [List.length_append, List.length_append]
  show 13 + t.length + 1 < 14 + 1 + t.length
  omega

section Lines

variable {σ ρ : Type} (env : Env σ) (srv : DavServer) (url : Path → Text) (path : Path)
  {thread : Thread (Mem σ)}

/-- What `__dav_header_if` adds for a path with an entry. -/
theorem davHeaderIf_lines {e : FileLock} (hf : tfind path thread.mem.table = some e)
    (ha : (env.alloc .slist thread.mem.env).1 = true) (list : List Header) (lockType : LockType) :
    ∃ lines t', (davHeaderIf env list path lockType : Dav σ ρ (List Header)) thread = (.ok lines, t') ∧
      lines.map (headerLine url) =
        list.map (headerLine url) ++ ["If: (<".toList ++ e.token ++ ">)".toList] := by
  have happend : (curlSlistAppendE env list (.ifToken e.token) : Dav σ ρ (List Header)) thread =
      (.ok (list ++ [.ifToken e.token]), atEnv thread (env.alloc .slist thread.mem.env).2) := by
    rw [curlSlistAppendE, Ctl.bind_ok (outside_apply _ thread), if_pos ha]
    rfl
  have hne : (list ++ [Header.ifToken e.token]).isEmpty = false := by simp
  have hdelete : ∀ t : Thread (Mem σ), ∃ t',
      (headerIfDelete path lockType : Dav σ ρ Unit) t = (.ok (), t') := by
    intro t
    rw [headerIfDelete]
    split_ifs
    · exact ⟨_, modifyMem_apply _ t⟩
    · exact ⟨t, rfl⟩
  obtain ⟨t', ht'⟩ := hdelete (atEnv thread (env.alloc .slist thread.mem.env).2)
  refine ⟨list ++ [.ifToken e.token], t', ?_, ?_⟩
  · rw [davHeaderIf, Ctl.bind_ok (Ctl.gets_apply _ _), hf]
    show headerIfFound env list path lockType e thread = _
    rw [headerIfFound, Ctl.bind_ok happend, if_neg (by rw [hne]; exact Bool.false_ne_true),
      Ctl.bind_ok ht']
    rfl
  · rw [List.map_append]
    exact congrArg _ (congrArg (fun line => [line]) (ifHeader_simpleString e.token))

/-- The lines of the request of `__dav_unlock`. -/
theorem davUnlockCore_lines (h : thread.ex.has = false) (token : Text) :
    ∀ request ∈ ((davUnlockCore env srv path token : Dav σ ρ ℤ) thread).2.mem.sent.drop
      thread.mem.sent.length,
      request.headers.map (headerLine url) = ["Lock-Token: <".toList ++ token ++ ">".toList] := by
  intro request hmem
  rw [davUnlockCore_sent env srv path token h, List.drop_left] at hmem
  split_ifs at hmem
  · rw [List.mem_singleton.mp hmem]
    exact congrArg (fun line => [line]) (tokenHeader_simpleString token)
  · exact absurd hmem List.not_mem_nil

end Lines

/-! ## Reading -/

theorem rdropWhile_blanks {s blanks : Text} (h : ∀ c ∈ blanks, isSpace c = true) :
    (s ++ blanks).rdropWhile isSpace = s.rdropWhile isSpace := by
  rw [List.rdropWhile, List.reverse_append, List.dropWhile_append_of_pos, List.rdropWhile]
  intro c hc
  exact h c (List.mem_reverse.mp hc)

section Value

variable {value w₁ w₂ : Text} (hw₁ : ∀ c ∈ w₁, isSpace c = true)
  (hw₂ : ∀ c ∈ w₂, isSpace c = true) (hfirst : ∀ c ∈ value.head?, isSpace c = false)
  (hlast : ∀ c ∈ value.getLast?, isSpace c = false) (hnul : nul ∉ value) (hne : value ≠ [])

include hw₁ hw₂ hfirst hlast hnul hne

/-- The blanks around a value are stripped. -/
theorem lockToken_of_value :
    lockToken true none (lockTokenName ++ w₁ ++ value ++ w₂ ++ ['\r', '\n']) =
      some (unbracket value) := by
  have hstrip : (lockTokenName ++ w₁ ++ value ++ w₂ ++ ['\r', '\n']).rdropWhile isSpace =
      lockTokenName ++ (w₁ ++ value) := by
    have hcrlf : ∀ c ∈ w₂ ++ ['\r', '\n'], isSpace c = true := by
      intro c hc
      rcases List.mem_append.mp hc with hc | hc
      · exact hw₂ c hc
      · rcases List.mem_pair.mp hc with rfl | rfl <;> decide
    rw [List.append_assoc, rdropWhile_blanks hcrlf, List.append_assoc]
    refine List.rdropWhile_eq_self_iff.mpr fun hnonempty => ?_
    rw [Bool.not_eq_true]
    refine hlast _ ?_
    have hend : (lockTokenName ++ (w₁ ++ value)).getLast? = value.getLast? := by
      rw [← List.append_assoc, List.getLast?_append_of_ne_nil _ hne]
    rw [← hend]
    exact List.getLast?_eq_getLast_of_ne_nil hnonempty
  have hfree : (w₁ ++ value).takeWhile (· ≠ nul) = w₁ ++ value := by
    refine List.takeWhile_eq_self_iff.mpr fun c hc => ?_
    have hcne : c ≠ nul := by
      rintro rfl
      rcases List.mem_append.mp hc with hc | hc
      · exact absurd (hw₁ nul hc) (by decide)
      · exact hnul hc
    simpa using hcne
  have hleft : strlstrip (w₁ ++ value) = value := by
    rw [strlstrip, List.dropWhile_append_of_pos hw₁]
    rcases value with _ | ⟨c, value⟩
    · rfl
    · rw [List.dropWhile_cons_of_neg]
      rw [hfirst c rfl]
      exact Bool.false_ne_true
  have hstarts : lockTokenName <+: lockTokenName ++ w₁ ++ value ++ w₂ ++ ['\r', '\n'] := by
    rw [List.append_assoc, List.append_assoc, List.append_assoc]
    exact List.prefix_append _ _
  rw [lockToken, if_pos ⟨rfl, hstarts⟩, if_pos rfl, lineValue, List.take_length, hstrip,
    List.drop_left, hfree, hleft]

end Value

/-- A token as a server may choose it: not empty, without white space and NUL, and it does not
    start with a bracket. -/
structure PlainToken (t : Text) : Prop where
  ne_nil : t ≠ []
  visible : ∀ c ∈ t, isSpace c = false
  noNul : nul ∉ t
  head : t.head? ≠ some '<'

/-- The token in brackets, or as it is (lighttpd). -/
def Written (t value : Text) : Prop := value = '<' :: (t ++ ['>']) ∨ value = t

theorem PlainToken.lockToken {t value w₁ w₂ : Text} (h : PlainToken t) (hvalue : Written t value)
    (hw₁ : ∀ c ∈ w₁, isSpace c = true) (hw₂ : ∀ c ∈ w₂, isSpace c = true) :
    lockToken true none (lockTokenName ++ w₁ ++ value ++ w₂ ++ ['\r', '\n']) = some t := by
  rcases hvalue with rfl | rfl
  · have hfirst : ∀ c ∈ ('<' :: (t ++ ['>'])).head?, isSpace c = false := by
      intro c hc
      obtain rfl : '<' = c := Option.some.inj hc
      decide
    have hlast : ∀ c ∈ ('<' :: (t ++ ['>'])).getLast?, isSpace c = false := by
      intro c hc
      rw [← List.cons_append, List.getLast?_concat] at hc
      obtain rfl : '>' = c := Option.some.inj hc
      decide
    have hnul : nul ∉ '<' :: (t ++ ['>']) := by
      intro hmem
      rcases List.mem_cons.mp hmem with heq | hmem
      · exact absurd heq (by decide)
      · rcases List.mem_append.mp hmem with hmem | hmem
        · exact h.noNul hmem
        · exact absurd hmem (by decide)
    rw [lockToken_of_value hw₁ hw₂ hfirst hlast hnul (List.cons_ne_nil _ _)]
    show some (t ++ ['>']).dropLast = some t
    rw [List.dropLast_concat]
  · rw [lockToken_of_value hw₁ hw₂ (fun c hc => h.visible c (List.mem_of_mem_head? hc))
      (fun c hc => h.visible c (List.mem_of_getLast? hc)) h.noNul h.ne_nil, unbracket_plain h.head]

/-- The token of the first `Lock-Token` line is stored, and printed in the two headers: that of
    `__dav_header_if` for an entry with the token, and that of `__dav_unlock`. -/
theorem lockToken_round_trip {t value w₁ w₂ : Text} {before after : List Text} (h : PlainToken t)
    (hvalue : Written t value) (hw₁ : ∀ c ∈ w₁, isSpace c = true)
    (hw₂ : ∀ c ∈ w₂, isSpace c = true) (hdelivered : ∀ line ∈ before ++ after, Delivered line)
    (hfirst : ∀ line ∈ before, ¬lockTokenName <+: line) :
    (deliver (davLockCallbackAt true)
        (before ++ (lockTokenName ++ w₁ ++ value ++ w₂ ++ ['\r', '\n']) :: after) none).map
          (Option.map simpleString) = some (some ⟨t.length, t⟩) ∧
      ifHeader ⟨t.length, t⟩ = "If: (<".toList ++ t ++ ">)".toList ∧
      tokenHeader ⟨t.length, t⟩ = "Lock-Token: <".toList ++ t ++ ">".toList ∧
      ∀ {σ : Type} (env : Env σ) (srv : DavServer) (url : Path → Text) (path : Path)
        (thread : Thread (Mem σ)), thread.ex.has = false →
        (∀ e list lockType, tfind path thread.mem.table = some e → e.token = t →
          (env.alloc .slist thread.mem.env).1 = true → ∃ lines t',
            (davHeaderIf env list path lockType : Dav σ Unit (List Header)) thread =
              (.ok lines, t') ∧ lines.map (headerLine url) =
                list.map (headerLine url) ++ ["If: (<".toList ++ t ++ ">)".toList]) ∧
        ∀ request ∈ ((davUnlockCore env srv path t : Dav σ Unit ℤ) thread).2.mem.sent.drop
          thread.mem.sent.length,
          request.headers.map (headerLine url) = ["Lock-Token: <".toList ++ t ++ ">".toList] := by
  refine ⟨?_, ifHeader_simpleString t, tokenHeader_simpleString t, fun env srv url path thread hclean =>
    ⟨fun e list lockType hf he ha => ?_, davUnlockCore_lines env srv url path hclean t⟩⟩
  swap
  · rw [← he]
    exact davHeaderIf_lines env url path hf ha list lockType
  have hbefore : ∀ line ∈ before, TakesTo (davLockCallbackAt true) line none none :=
    fun line hline => takesTo_other_token (hdelivered line (List.mem_append_left _ hline))
      (hfirst line hline) true none
  have hafter : ∀ line ∈ after, TakesTo (davLockCallbackAt true) line (some t) (some t) :=
    fun line hline => takesTo_later_token (hdelivered line (List.mem_append_right _ hline)) true t
  have hline : Delivered (lockTokenName ++ w₁ ++ value ++ w₂ ++ ['\r', '\n']) := by
    rw [Delivered, List.getLast?_append]
    rfl
  obtain ⟨cells, hrun⟩ := davLockCallbackAt_token (ρ := Unit) hline true none
  rw [h.lockToken hvalue hw₁ hw₂] at hrun
  rw [deliver_append, deliver_unchanged hbefore, Option.bind_some, deliver_cons ⟨_, _, hrun⟩,
    deliver_unchanged hafter]
  rfl

/-- A token in brackets, after the status line. -/
theorem lockToken_round_trip_opaque :
    (deliver (davLockCallbackAt true)
        ["HTTP/1.1 200 OK\r\n".toList, "Lock-Token: <opaquelocktoken:1>\r\n".toList] none).map
          (Option.map simpleString) = some (some ⟨17, "opaquelocktoken:1".toList⟩) := by
  have hvisible : "opaquelocktoken:1".toList.all (!isSpace ·) = true := by decide
  have hplain : PlainToken "opaquelocktoken:1".toList :=
    ⟨by decide, fun c hc => by simpa using List.all_eq_true.mp hvisible c hc, by decide, by decide⟩
  have hdelivered : ∀ line ∈ ["HTTP/1.1 200 OK\r\n".toList] ++ [], Delivered line := by
    intro line hline
    rw [List.mem_singleton.mp hline]
    rfl
  have hfirst : ∀ line ∈ ["HTTP/1.1 200 OK\r\n".toList], ¬lockTokenName <+: line := by
    intro line hline
    rw [List.mem_singleton.mp hline]
    decide
  have hblank : ∀ c ∈ [' '], isSpace c = true := by
    intro c hc
    rw [List.mem_singleton.mp hc]
    decide
  have hnone : ∀ c ∈ ([] : Text), isSpace c = true := fun c hc => (nomatch hc)
  exact (lockToken_round_trip hplain (.inl rfl) hblank hnone hdelivered hfirst).1

end NetworkFs.Dav
