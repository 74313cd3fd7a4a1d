import NetworkFs.Dav.Lock
import NetworkFs.Memory.CString

/-!
# The header callbacks in memory

libcurl hands a callback one header line: `nitems` characters, the line feed among them,
and no NUL behind them. The three callbacks edit the line in place; here they run on a
`Region` of exactly these cells, where every access is checked. An absent pointer that is
dereferenced is a fault as well.

* `davHeadCallbackAt_value`, `davLockCallbackAt_token`, `davOptionsCallbackAt_apply`: what the
  callbacks leave, as functions on the text of the line.
* `lockToken_eq`: on a line without a NUL the token is the one `davLockCallback` takes.
* `header_safe_iff`: the lines on which none of the callbacks leaves the buffer.
-/

namespace NetworkFs.Dav

open Control Grammar Text Memory

variable {γ ρ : Type}

/-! ## The models -/

/-- `strnrstrip(s, n)` (`common/utils.h` lines 12–19) at the start of the buffer. -/
def strnrstripAt (n : ℕ) : Access Char γ ρ Unit := do
  let stop ← retreat isSpace n
  store stop nul

/-- `strlstrip(s)` (`common/utils.h` lines 27–32). -/
def strlstripAt (i : ℕ) : Access Char γ ρ ℕ := scan (fun c => !isSpace c) i

/-- `strtol(s, NULL, 10)`: it reads the white space, a sign and the digits, and the character
    after them. -/
def strtolAt (i : ℕ) : Access Char γ ρ ℤ := do
  let start ← scan (fun c => !isSpace c) i
  let c ← load start
  let _ ← scan (fun c => !isDigitOf 10 c) (if c = '-' ∨ c = '+' then start + 1 else start)
  Ctl.gets fun r => (strtol 10 (r.cells.drop i)).1

/-- A copy of the string at `i`: `strdup(s)`, `new(SimpleString) (s)`. -/
def strdupAt (i : ℕ) : Access Char γ ρ Text := do
  let n ← strlen i
  textAt i n

/-- `__dav_head_callback` (lines 105–115), on `*sizep`. -/
def davHeadCallbackAt (nitems : ℕ) : Access Char ℕ ρ ℕ := do
  if ← startsWith contentLength 0 then do
    let buffer ← strlstripAt contentLength.length
    let value ← strtolAt buffer
    modifyRest fun _ => toSize value
  pure nitems

/-- `"Lock-Token:"` -/
def lockTokenName : Text := "Lock-Token:".toList

/-- `if likely (buffer[0] == '<') { buffer++; buffer[strlen(buffer) - 1] = '\0'; }`. Behind a
    lone `<` that is the cell before `buffer`. -/
def dropBrackets (buffer : ℕ) : Access Char γ ρ ℕ := do
  let c ← load buffer
  if c = '<' then do
    let n ← strlen (buffer + 1)
    store (buffer + n) nul
    pure (buffer + 1)
  else pure buffer

/-- The token in a `Lock-Token` line (lines 478–486). -/
def lockTokenAt (nitems : ℕ) : Access Char γ ρ Text := do
  strnrstripAt nitems
  let buffer ← strlstripAt lockTokenName.length
  let buffer ← dropBrackets buffer
  strdupAt buffer

/-- `__dav_lock_callback` (lines 473–491), on `*res_p`; `allocated` says whether the
    `SimpleString` can be allocated. -/
def davLockCallbackAt (allocated : Bool) (nitems : ℕ) : Access Char (Option Text) ρ ℕ := do
  if ← Ctl.gets (·.rest.isNone) then
    if ← startsWith lockTokenName 0 then do
      let token ← lockTokenAt nitems
      modifyRest fun _ => if allocated then some token else none
  pure nitems

/-- `DAV_METHOD` (`method.h` lines 16–31). -/
inductive DavMethod where
  | options
  | get
  | head
  | post
  | put
  | delete
  | trace
  | copy
  | move
  | mkcol
  | propfind
  | proppatch
  | lock
  | unlock
  | orderpatch
  deriving DecidableEq

/-- The name of a method: `# o`. -/
def DavMethod.name : DavMethod → Text
  | .options => "OPTIONS".toList
  | .get => "GET".toList
  | .head => "HEAD".toList
  | .post => "POST".toList
  | .put => "PUT".toList
  | .delete => "DELETE".toList
  | .trace => "TRACE".toList
  | .copy => "COPY".toList
  | .move => "MOVE".toList
  | .mkcol => "MKCOL".toList
  | .propfind => "PROPFIND".toList
  | .proppatch => "PROPPATCH".toList
  | .lock => "LOCK".toList
  | .unlock => "UNLOCK".toList
  | .orderpatch => "ORDERPATCH".toList

/-- The fields of `struct DavServer` that `dav_options` sets. -/
@[ext]
structure DavInfo where
  supports : DavMethod → Bool
  server : Option Text
  version : Option Text

/-- `struct DavServer` before `dav_options`. -/
def noInfo : DavInfo := ⟨fun _ => false, none, none⟩

/-- The `if`s over `DAV_METHOD`: the flag of the method with this name is set. -/
def DavInfo.allow (option : Text) (info : DavInfo) : DavInfo :=
  { info with supports := fun m => info.supports m || m.name == option }

/-- `"Allow:"` -/
def allowName : Text := "Allow:".toList

/-- `"Server:"` -/
def serverName : Text := "Server:".toList

/-- The delimiters `", "`. -/
def isDelim (c : Char) : Bool := c == ',' || c == ' '

/-- The `Allow` line (lines 718–725). -/
def allowLineAt (nitems : ℕ) : Access Char DavInfo ρ Unit := do
  strnrstripAt (nitems - 2)
  let buffer ← strlstripAt allowName.length
  let n ← Ctl.gets (·.cells.length)
  forTokens isDelim (fun option => modifyRest (·.allow option)) (n + 1) buffer

/-- The `Server` line (lines 727–734). -/
def serverLineAt (nitems : ℕ) : Access Char DavInfo ρ Unit := do
  strnrstripAt (nitems - 2)
  let buffer ← strlstripAt serverName.length
  let slash ← strchr buffer '/'
  let version ← Ctl.deref slash
  store version nul
  let server ← strdupAt buffer
  let version ← strdupAt (version + 1)
  modifyRest fun info => { info with server := some server, version := some version }

/-- `__dav_options_callback` (lines 714–738), on `*server`. -/
def davOptionsCallbackAt (nitems : ℕ) : Access Char DavInfo ρ ℕ := do
  if ← startsWith allowName 0 then allowLineAt nitems
  else if ← startsWith serverName 0 then serverLineAt nitems
  pure nitems

/-- libcurl hands the lines to the callback one after the other, each in its own buffer; a
    fault ends the run. -/
def deliver (callback : ℕ → Access Char γ Unit ℕ) : List Text → γ → Option γ
  | [], x => some x
  | line :: lines, x =>
    match callback line.length ⟨line, x⟩ with
    | (.ok _, r) => deliver callback lines r.rest
    | (.error _, _) => none

/-! ## Lists of lines -/

section Deliver

variable {callback : ℕ → Access Char γ Unit ℕ} {line : Text} {x y : γ}

/-- The callback takes the line and leaves `y`. -/
def TakesTo (callback : ℕ → Access Char γ Unit ℕ) (line : Text) (x y : γ) : Prop :=
  ∃ n cells, callback line.length ⟨line, x⟩ = (.ok n, ⟨cells, y⟩)

theorem deliver_cons (h : TakesTo callback line x y) (lines : List Text) :
    deliver callback (line :: lines) x = deliver callback lines y := by
  obtain ⟨n, cells, hrun⟩ := h
  rw [deliver, hrun]

theorem deliver_append (before after : List Text) : ∀ x,
    deliver callback (before ++ after) x =
      (deliver callback before x).bind (deliver callback after) := by
  induction before with
  | nil =>
    intro x
    rfl
  | cons line before ih =>
    intro x
    rw [List.cons_append, deliver, deliver]
    split
    · exact ih _
    · rfl

/-- Lines that change nothing. -/
theorem deliver_unchanged {lines : List Text} (h : ∀ line ∈ lines, TakesTo callback line x x) :
    deliver callback lines x = some x := by
  induction lines with
  | nil => rfl
  | cons line lines ih =>
    rw [deliver_cons (h line List.mem_cons_self)]
    exact ih fun other hother => h other (List.mem_cons_of_mem _ hother)

/-- The one line among others that change nothing: it is taken if all are. -/
theorem takesTo_of_deliver {before after : List Text}
    (hbefore : ∀ other ∈ before, TakesTo callback other x x)
    (hafter : ∀ z, ∀ other ∈ after, TakesTo callback other z z)
    (h : deliver callback (before ++ line :: after) x = some y) : TakesTo callback line x y := by
  rw [deliver_append, deliver_unchanged hbefore, Option.bind_some, deliver] at h
  rcases hrun : callback line.length ⟨line, x⟩ with ⟨e | n, r⟩ <;> rw [hrun] at h
  · exact nomatch h
  · replace h : deliver callback after r.rest = some y := h
    rw [deliver_unchanged (hafter r.rest)] at h
    obtain rfl := Option.some.inj h
    exact ⟨n, r.cells, hrun⟩

end Deliver

/-! ## Names -/

/-- A line is delivered with its line feed. -/
def Delivered (line : Text) : Prop := line.getLast? = some '\n'

theorem Delivered.mem {line : Text} (h : Delivered line) : '\n' ∈ line := List.mem_of_getLast? h

/-- A name is compared within the line. -/
theorem startsWith_name {line name : Text} (h : Delivered line) (hname : '\n' ∉ name) (x : γ) :
    (startsWith name 0 : Access Char γ ρ Bool) ⟨line, x⟩ =
      (.ok (decide (name <+: line)), ⟨line, x⟩) := by
  by_cases hstarts : name <+: line
  · obtain ⟨value, hvalue⟩ := hstarts
    rw [decide_eq_true ⟨value, hvalue⟩]
    exact startsWith_prefix hvalue.symm
  · rw [decide_eq_false hstarts]
    exact startsWith_other hstarts ⟨'\n', h.mem, hname⟩

/-- What is left of a line ends with its line feed. -/
theorem Delivered.drop {line : Text} (h : Delivered line) {i : ℕ} (hi : line.drop i ≠ []) :
    Delivered (line.drop i) := by
  have hlt : ¬line.length ≤ i := fun hle => hi (List.drop_eq_nil_of_le hle)
  rw [Delivered, List.getLast?_drop, if_neg hlt]
  exact h

/-- Characters that are not blank stay. -/
theorem mem_strlstrip {s : Text} {c : Char} (hc : c ∈ s) (hspace : isSpace c = false) :
    c ∈ strlstrip s := by
  rw [← List.takeWhile_append_dropWhile (p := isSpace) (l := s), List.mem_append] at hc
  refine hc.resolve_left fun hblank => ?_
  rw [List.mem_takeWhile_imp hblank] at hspace
  exact absurd hspace.symm Bool.false_ne_true

theorem mem_strrstrip {s : Text} {c : Char} (hc : c ∈ s) (hspace : isSpace c = false) :
    c ∈ strrstrip s := by
  rw [strrstrip, List.mem_reverse]
  exact mem_strlstrip (List.mem_reverse.mpr hc) hspace

/-! ## `__dav_head_callback` -/

/-- The digits of a number end within the line. -/
theorem scanDigits_apply {line : Text} (h : Delivered line) {i : ℕ} (hi : line.drop i ≠ []) (x : γ) :
    ∃ stop, (scan (fun c => !isDigitOf 10 c) i : Access Char γ ρ ℕ) ⟨line, x⟩ =
      (.ok stop, ⟨line, x⟩) :=
  ⟨_, scan_takeWhile ⟨'\n', (h.drop hi).mem, by decide⟩⟩

/-- `strlstrip` stops at the first character that is not blank. -/
theorem strlstripAt_found {r : Region Char γ} {i : ℕ}
    (hi : ∃ c ∈ r.cells.drop i, isSpace c = false) :
    (strlstripAt i : Access Char γ ρ ℕ) r =
      (.ok (i + ((r.cells.drop i).takeWhile isSpace).length), r) := by
  rw [strlstripAt, scan_takeWhile (by simpa using hi)]
  simp only [Bool.not_not]

theorem strtolAt_apply {line : Text} (h : Delivered line) {i : ℕ}
    (hi : ∃ c ∈ line.drop i, isSpace c = false) (x : γ) :
    (strtolAt i : Access Char γ ρ ℤ) ⟨line, x⟩ =
      (.ok (strtol 10 (line.drop i)).1, ⟨line, x⟩) := by
  have hscan : (scan (fun c => !isSpace c) i : Access Char γ ρ ℕ) ⟨line, x⟩ =
      (.ok (i + ((line.drop i).takeWhile isSpace).length), ⟨line, x⟩) := strlstripAt_found hi
  obtain ⟨start, hstart⟩ : ∃ start, start = i + ((line.drop i).takeWhile isSpace).length := ⟨_, rfl⟩
  have hdrop : line.drop start = (line.drop i).dropWhile isSpace := by
    rw [hstart, ← List.drop_drop, drop_length_takeWhile]
  rw [← hstart] at hscan
  rcases hrest : (line.drop i).dropWhile isSpace with _ | ⟨c, rest⟩
  · obtain ⟨c, hc, hspace⟩ := hi
    rw [List.dropWhile_eq_nil_iff.mp hrest c hc] at hspace
    exact absurd hspace.symm Bool.false_ne_true
  · have hc : isSpace c = false := by
      have hnot := List.head_dropWhile_not (l := line.drop i) isSpace
        (by rw [hrest]; exact List.cons_ne_nil _ _)
      simpa [hrest] using hnot
    rw [hrest] at hdrop
    obtain ⟨hcell, hnext⟩ := cell_of_drop (r := (⟨line, x⟩ : Region Char γ)) hdrop
    have hlast : Delivered (line.drop start) := h.drop (by rw [hdrop]; exact List.cons_ne_nil _ _)
    have hrest : rest ≠ [] := by
      rintro rfl
      rw [hdrop] at hlast
      obtain rfl : c = '\n' := by simpa [Delivered] using hlast
      exact absurd hc (by decide)
    obtain ⟨stop, hstop⟩ := scanDigits_apply (ρ := ρ) h
      (i := if c = '-' ∨ c = '+' then start + 1 else start) (by
        split_ifs
        · rw [show line.drop (start + 1) = rest from hnext]
          exact hrest
        · rw [hdrop]
          exact List.cons_ne_nil _ _) x
    rw [strtolAt, Ctl.bind_ok hscan, Ctl.bind_ok (load_some hcell), Ctl.bind_ok hstop]
    rfl

section Head

variable {line : Text} (h : Delivered line) (size : ℕ)

include h

/-- A line with another name leaves the size as it is. -/
theorem davHeadCallbackAt_other (hname : ¬contentLength <+: line) :
    (davHeadCallbackAt line.length : Access Char ℕ ρ ℕ) ⟨line, size⟩ =
      (.ok line.length, ⟨line, size⟩) := by
  rw [davHeadCallbackAt, Ctl.bind_ok (startsWith_name h (by decide) size),
    decide_eq_false hname]
  rfl

/-- Otherwise it is what `davHeadCallback` reads, unless all of the value is blank. -/
theorem davHeadCallbackAt_value (hname : contentLength <+: line)
    (hvalue : ∃ c ∈ line.drop contentLength.length, isSpace c = false) :
    (davHeadCallbackAt line.length : Access Char ℕ ρ ℕ) ⟨line, size⟩ =
      (.ok line.length, ⟨line, davHeadCallback size line⟩) := by
  obtain ⟨buffer, hbuffer⟩ : ∃ buffer, buffer = contentLength.length +
    ((line.drop contentLength.length).takeWhile isSpace).length := ⟨_, rfl⟩
  have hstrip : (strlstripAt contentLength.length : Access Char ℕ ρ ℕ) ⟨line, size⟩ =
      (.ok buffer, ⟨line, size⟩) := by
    rw [hbuffer]
    exact strlstripAt_found hvalue
  have hdrop : line.drop buffer = strlstrip (line.drop contentLength.length) := by
    rw [hbuffer, ← List.drop_drop, drop_length_takeWhile]
    rfl
  have hlong : ∃ c ∈ line.drop buffer, isSpace c = false := by
    obtain ⟨c, hc, hspace⟩ := hvalue
    rw [hdrop]
    exact ⟨c, mem_strlstrip hc hspace, hspace⟩
  rw [davHeadCallbackAt, Ctl.bind_ok (startsWith_name h (by decide) size), decide_eq_true hname]
  simp only [if_true]
  rw [Ctl.bind_ok hstrip, Ctl.bind_ok (strtolAt_apply h hlong size), hdrop, davHeadCallback,
    if_pos (List.isPrefixOf_iff_prefix.mpr hname)]
  rfl

/-- A blank value is skipped, the line feed with it, and more after it. -/
theorem davHeadCallbackAt_blank (hname : contentLength <+: line)
    (hvalue : ∀ c ∈ line.drop contentLength.length, isSpace c = true) :
    (davHeadCallbackAt line.length : Access Char ℕ ρ ℕ) ⟨line, size⟩ =
      (.error .fault, ⟨line, size⟩) := by
  have hscan : (strlstripAt contentLength.length : Access Char ℕ ρ ℕ) ⟨line, size⟩ =
      (.error .fault, ⟨line, size⟩) :=
    scan_beyond fun c hc => by simp [hvalue c hc]
  rw [davHeadCallbackAt, Ctl.bind_ok (startsWith_name h (by decide) size), decide_eq_true hname]
  simp only [if_true]
  exact Ctl.bind_error hscan

end Head

/-! ## Strings in the line -/

/-- The string behind the name after `strnrstrip(line, n)`. -/
def lineValue (n : ℕ) (name line : Text) : Text :=
  (((line.take n).rdropWhile isSpace).drop name.length).takeWhile (· ≠ nul)

theorem rdropWhile_append {p : Char → Bool} {name body : Text}
    (hname : ∀ c ∈ name.getLast?, p c = false) :
    (name ++ body).rdropWhile p = name ++ body.rdropWhile p := by
  induction body using List.reverseRecOn with
  | nil =>
    rw [List.append_nil, List.rdropWhile_nil, List.append_nil, List.rdropWhile_eq_self_iff]
    intro hne
    rw [hname (name.getLast hne) (List.getLast?_eq_getLast_of_ne_nil hne)]
    exact Bool.false_ne_true
  | append_singleton body c ih =>
    rw [← List.append_assoc]
    by_cases hc : p c
    · rw [List.rdropWhile_concat_pos _ _ _ hc, List.rdropWhile_concat_pos _ _ _ hc, ih]
    · rw [List.rdropWhile_concat_neg _ _ _ hc, List.rdropWhile_concat_neg _ _ _ hc,
        List.append_assoc]

/-- The colon after a name is not white space. -/
theorem colon_not_blank {name : Text} (h : name.getLast? = some ':') :
    ∀ c ∈ name.getLast?, isSpace c = false := by
  intro c hc
  obtain rfl : ':' = c := Option.some.inj (h.symm.trans hc)
  decide

/-- `strnrstrip` on a line with the name in front of the first `n` characters, of which not all
    of the line are kept: the value is a string. -/
theorem strnrstripAt_apply {line name body : Text} {n : ℕ} (x : γ) (hn : line.take n = name ++ body)
    (hname : ∀ c ∈ name.getLast?, isSpace c = false) (hle : n ≤ line.length)
    (hinside : (name ++ body.rdropWhile isSpace).length < line.length) :
    ∃ cells, (strnrstripAt n : Access Char γ ρ Unit) ⟨line, x⟩ = (.ok (), ⟨cells, x⟩) ∧
      cells.length = line.length ∧
      HasString (⟨cells, x⟩ : Region Char γ) name.length (lineValue n name line) := by
  have hstripped : (line.take n).rdropWhile isSpace = name ++ body.rdropWhile isSpace := by
    rw [hn, rdropWhile_append hname]
  have hretreat : (retreat isSpace n : Access Char γ ρ ℕ) ⟨line, x⟩ =
      (.ok (name ++ body.rdropWhile isSpace).length, ⟨line, x⟩) := by
    rw [retreat_apply hle]
    show (Except.ok ((line.take n).rdropWhile isSpace).length, _) = _
    rw [hstripped]
  have hkept : line.take (name ++ body.rdropWhile isSpace).length =
      name ++ body.rdropWhile isSpace := by
    have hstarts : name ++ body.rdropWhile isSpace <+: line := by
      rw [← hstripped]
      exact (List.rdropWhile_prefix _ _).trans (List.take_prefix _ _)
    exact (List.prefix_iff_eq_take.mp hstarts).symm
  refine ⟨line.set (name ++ body.rdropWhile isSpace).length nul, ?_, List.length_set, ?_⟩
  · rw [strnrstripAt, Ctl.bind_ok hretreat]
    exact store_inside hinside
  · rw [lineValue, hstripped, List.drop_left]
    have hdrop : (line.set (name ++ body.rdropWhile isSpace).length nul).drop name.length =
        body.rdropWhile isSpace ++
          nul :: line.drop ((name ++ body.rdropWhile isSpace).length + 1) := by
      rw [List.set_eq_take_append_cons_drop, if_pos hinside, hkept, List.append_assoc,
        List.drop_left]
    exact hasString_of_drop hdrop

theorem strlstripAt_apply {r : Region Char γ} {i : ℕ} {s : Text} (h : HasString r i s) :
    ∃ j, (strlstripAt i : Access Char γ ρ ℕ) r = (.ok j, r) ∧ HasString r j (strlstrip s) := by
  refine ⟨i + (s.takeWhile isSpace).length, ?_, h.drop List.takeWhile_append_dropWhile.symm⟩
  rw [strlstripAt, h.scan (by decide)]
  simp only [Bool.not_not]

theorem strdupAt_apply {r : Region Char γ} {i : ℕ} {s : Text} (h : HasString r i s) :
    (strdupAt i : Access Char γ ρ Text) r = (.ok s, r) := by
  rw [strdupAt, Ctl.bind_ok (strlen_apply h)]
  obtain ⟨-, tail, htail⟩ := h
  exact textAt_apply htail

/-! ## `__dav_lock_callback` -/

/-- A text without the brackets around it. -/
def unbracket : Text → Text
  | '<' :: rest => rest.dropLast
  | s => s

theorem unbracket_plain {s : Text} (h : s.head? ≠ some '<') : unbracket s = s := by
  unfold unbracket
  split
  · exact absurd rfl h
  · rfl

theorem dropBrackets_apply {r : Region Char γ} {i : ℕ} {s : Text} (h : HasString r i s) :
    ∃ j cells, (dropBrackets i : Access Char γ ρ ℕ) r = (.ok j, ⟨cells, r.rest⟩) ∧
      HasString (⟨cells, r.rest⟩ : Region Char γ) j (unbracket s) := by
  by_cases hbracket : s.head? = some '<'
  · obtain ⟨rest, rfl⟩ := List.head?_eq_some_iff.mp hbracket
    have hsplit : '<' :: rest = ['<'] ++ rest := rfl
    have hrest : HasString r (i + 1) rest := h.drop hsplit
    obtain ⟨hnul, tail, htail⟩ := hrest
    have hlength := congrArg List.length htail
    simp only [List.length_drop, List.length_append, List.length_cons] at hlength
    have hrun : (dropBrackets i : Access Char γ ρ ℕ) r =
        (.ok (i + 1), ⟨r.cells.set (i + rest.length) nul, r.rest⟩) := by
      have hload : (load i : Access Char γ ρ Char) r = (.ok '<', r) := h.load
      rw [dropBrackets, Ctl.bind_ok hload, if_pos rfl,
        Ctl.bind_ok (strlen_apply ⟨hnul, tail, htail⟩), Ctl.bind_ok (store_inside (by omega))]
      rfl
    refine ⟨_, _, hrun, ?_⟩
    show HasString _ _ rest.dropLast
    rcases List.eq_nil_or_concat rest with rfl | ⟨front, c, rfl⟩
    · -- nothing behind the bracket: the NUL goes to its place
      refine ⟨List.not_mem_nil, tail, ?_⟩
      show (r.cells.set (i + 0) nul).drop (i + 1) = _
      rw [List.drop_set_of_lt (by omega)]
      exact htail
    · rw [List.concat_eq_append] at hnul htail ⊢
      rw [List.append_assoc] at htail
      rw [List.dropLast_concat]
      refine ⟨fun hmem => hnul (List.mem_append_left _ hmem), nul :: tail, ?_⟩
      show (r.cells.set (i + (front ++ [c]).length) nul).drop (i + 1) = _
      have hset := drop_set_after (d := nul) htail
      rw [List.length_append, List.length_singleton, show i + (front.length + 1) =
        i + 1 + front.length by omega]
      exact hset
  · refine ⟨i, r.cells, ?_, ?_⟩
    · rw [dropBrackets, Ctl.bind_ok h.load, if_neg]
      · rfl
      · intro heq
        rcases s with _ | ⟨c, s⟩
        · exact absurd heq (by decide)
        · exact hbracket (congrArg some heq)
    · rw [unbracket_plain hbracket]
      exact h

section Lock

variable {line : Text} (h : Delivered line)

include h

/-- What is stripped from a line has at least its line feed. -/
theorem length_rdropWhile_lt : (line.rdropWhile isSpace).length < line.length := by
  obtain ⟨front, rfl⟩ := List.getLast?_eq_some_iff.mp h
  rw [List.rdropWhile_concat_pos _ _ _ (by decide), List.length_append, List.length_singleton]
  exact Nat.lt_succ_of_le (List.rdropWhile_prefix isSpace front).length_le

theorem lockTokenAt_apply (hname : lockTokenName <+: line) (x : γ) :
    ∃ cells, (lockTokenAt line.length : Access Char γ ρ Text) ⟨line, x⟩ =
      (.ok (unbracket (strlstrip (lineValue line.length lockTokenName line))), ⟨cells, x⟩) := by
  obtain ⟨value, hvalue⟩ := hname
  have hcolon : ∀ c ∈ lockTokenName.getLast?, isSpace c = false := colon_not_blank rfl
  have hshort := length_rdropWhile_lt h
  rw [← hvalue, rdropWhile_append hcolon, hvalue] at hshort
  obtain ⟨cells, hstrip, -, hstring⟩ := strnrstripAt_apply (ρ := ρ) (n := line.length) x
    (by rw [List.take_length]; exact hvalue.symm) hcolon le_rfl hshort
  obtain ⟨i, hleft, hstring⟩ := strlstripAt_apply (ρ := ρ) hstring
  obtain ⟨j, cells, hbrackets, hstring⟩ := dropBrackets_apply (ρ := ρ) hstring
  refine ⟨cells, ?_⟩
  rw [lockTokenAt, Ctl.bind_ok hstrip, Ctl.bind_ok hleft, Ctl.bind_ok hbrackets]
  exact strdupAt_apply hstring

/-- The token a line leaves in `*res_p`. -/
def lockToken (allocated : Bool) (token : Option Text) (line : Text) : Option Text :=
  if token.isNone ∧ lockTokenName <+: line then
    if allocated then some (unbracket (strlstrip (lineValue line.length lockTokenName line)))
    else none
  else token

/-- `__dav_lock_callback` stays within every line. -/
theorem davLockCallbackAt_token (allocated : Bool) (token : Option Text) :
    ∃ cells, (davLockCallbackAt allocated line.length : Access Char (Option Text) ρ ℕ)
      ⟨line, token⟩ = (.ok line.length, ⟨cells, lockToken allocated token line⟩) := by
  rw [davLockCallbackAt, Ctl.bind_ok (Ctl.gets_apply _ _)]
  rcases token with _ | token
  · simp only [Option.isNone_none, if_true]
    rw [Ctl.bind_ok (startsWith_name h (by decide) none)]
    by_cases hname : lockTokenName <+: line
    · obtain ⟨cells, htoken⟩ := lockTokenAt_apply (ρ := ρ) h hname (none : Option Text)
      have hfirst : lockToken allocated none line = _ := if_pos ⟨rfl, hname⟩
      refine ⟨cells, ?_⟩
      rw [decide_eq_true hname, hfirst]
      simp only [if_true]
      rw [Ctl.bind_ok htoken]
      rfl
    · have hother : lockToken allocated none line = none := if_neg fun hboth => hname hboth.2
      refine ⟨line, ?_⟩
      rw [decide_eq_false hname, hother]
      rfl
  · have hkept : lockToken allocated (some token) line = some token :=
      if_neg fun hboth => (nomatch hboth.1)
    refine ⟨line, ?_⟩
    rw [hkept]
    rfl

end Lock

theorem lockTokenText_eq (line : Text) : lockTokenText line = if lockTokenName.isPrefixOf line then
    some (unbracket (strlstrip ((strrstrip line).drop lockTokenName.length))) else none := by
  unfold lockTokenText unbracket
  refine if_congr Iff.rfl ?_ rfl
  show (match strlstrip ((strrstrip line).drop lockTokenName.length) with
    | '<' :: rest => some rest.dropLast
    | s => some s) = _
  split <;> rfl

/-- On a line without a NUL the token is the one `davLockCallback` takes. -/
theorem lockToken_eq {line : Text} (hnul : nul ∉ line) :
    lockToken true none line = lockTokenText line := by
  have hvalue : lineValue line.length lockTokenName line =
      (strrstrip line).drop lockTokenName.length := by
    rw [lineValue, List.take_length]
    refine List.takeWhile_eq_self_iff.mpr fun c hc => ?_
    have hmem : c ∈ line := (List.rdropWhile_prefix isSpace line).subset (List.mem_of_mem_drop hc)
    have hne : c ≠ nul := fun heq => hnul (heq ▸ hmem)
    simpa using hne
  by_cases hname : lockTokenName <+: line
  · rw [lockToken, if_pos ⟨rfl, hname⟩, if_pos rfl, hvalue, lockTokenText_eq,
      if_pos (List.isPrefixOf_iff_prefix.mpr hname)]
  · rw [lockToken, if_neg fun hboth => hname hboth.2, lockTokenText_eq,
      if_neg fun hstarts => hname (List.isPrefixOf_iff_prefix.mp hstarts)]

/-! ## `__dav_options_callback` -/

/-- The value of an `Allow` or `Server` line: `strnrstrip(buffer, nitems - 2)` and `strlstrip`. -/
def optionValue (name line : Text) : Text := strlstrip (lineValue (line.length - 2) name line)

/-- The product and its version, around the first `/`. -/
def splitVersion (value : Text) : Text × Text :=
  (value.takeWhile (· ≠ '/'), (value.dropWhile (· ≠ '/')).drop 1)

theorem splitVersion_eq {value : Text} (h : '/' ∈ value) :
    value = (splitVersion value).1 ++ '/' :: (splitVersion value).2 ∧
      '/' ∉ (splitVersion value).1 := by
  constructor
  · obtain ⟨rest, hsplit, hrest⟩ := takeWhile_split (· ≠ '/') value
    have hdrop : value.dropWhile (· ≠ '/') = rest := by
      refine List.append_cancel_left (Eq.trans ?_ hsplit)
      exact List.takeWhile_append_dropWhile
    show value = value.takeWhile (· ≠ '/') ++ '/' :: (value.dropWhile (· ≠ '/')).drop 1
    rcases rest with _ | ⟨c, rest⟩
    · have hne := List.dropWhile_eq_nil_iff.mp hdrop '/' h
      simp at hne
    · obtain rfl : c = '/' := by simpa using hrest c rest rfl
      rw [hdrop]
      exact hsplit
  · intro hmem
    have hne := List.mem_takeWhile_imp hmem
    simp at hne

/-- `__dav_options_callback` (lines 714–738) on `*server` and one header line. -/
def davOptionsCallback (info : DavInfo) (line : Text) : DavInfo :=
  if allowName <+: line then
    (tokens isDelim (optionValue allowName line)).foldl (fun info option => info.allow option) info
  else if serverName <+: line then
    { info with server := some (splitVersion (optionValue serverName line)).1
                version := some (splitVersion (optionValue serverName line)).2 }
  else info

/-- A line with a value is longer than its name. -/
theorem length_of_optionValue {name line : Text} (h : optionValue name line ≠ []) :
    name.length + 2 ≤ line.length := by
  have hvalue : ((line.take (line.length - 2)).rdropWhile isSpace).drop name.length ≠ [] := by
    intro hnil
    rw [optionValue, lineValue, hnil] at h
    exact h rfl
  have hlong := List.length_pos_iff.mpr hvalue
  have hshort := (List.rdropWhile_prefix isSpace (line.take (line.length - 2))).length_le
  rw [List.length_drop] at hlong
  rw [List.length_take] at hshort
  omega

section Flags

variable (options : List Text)

/-- The flags after the loop over the options. -/
theorem foldl_allow_supports (m : DavMethod) : ∀ info : DavInfo,
    (options.foldl (fun info option => info.allow option) info).supports m =
      (info.supports m || decide (m.name ∈ options)) := by
  induction options with
  | nil =>
    intro info
    simp
  | cons option options ih =>
    intro info
    rw [List.foldl_cons, ih]
    show (info.supports m || m.name == option || decide (m.name ∈ options)) = _
    rw [Bool.or_assoc, Bool.eq_iff_iff]
    simp only [Bool.or_eq_true, beq_iff_eq, decide_eq_true_eq, List.mem_cons]

theorem foldl_allow_server : ∀ info : DavInfo,
    (options.foldl (fun info option => info.allow option) info).server = info.server ∧
      (options.foldl (fun info option => info.allow option) info).version = info.version := by
  induction options with
  | nil =>
    intro info
    exact ⟨rfl, rfl⟩
  | cons option options ih =>
    intro info
    exact ih (info.allow option)

end Flags

section Options

variable {line name : Text} (hcolon : name.getLast? = some ':') (hname : name <+: line)

include hcolon hname

/-- The value of a line is a string, if there are two characters behind the name. -/
theorem optionValue_string (hlong : name.length + 2 ≤ line.length) (x : γ) :
    ∃ cells i, (strnrstripAt (line.length - 2) : Access Char γ ρ Unit) ⟨line, x⟩ =
        (.ok (), ⟨cells, x⟩) ∧ cells.length = line.length ∧
      (strlstripAt name.length : Access Char γ ρ ℕ) ⟨cells, x⟩ = (.ok i, ⟨cells, x⟩) ∧
      HasString (⟨cells, x⟩ : Region Char γ) i (optionValue name line) := by
  obtain ⟨value, rfl⟩ := hname
  rw [List.length_append] at hlong
  have hbody : (name ++ value).take ((name ++ value).length - 2) =
      name ++ value.take (value.length - 2) := by
    rw [List.take_append, List.take_of_length_le (by rw [List.length_append]; omega),
      List.length_append]
    congr 2
    omega
  have hshort := (List.rdropWhile_prefix isSpace (value.take (value.length - 2))).length_le
  rw [List.length_take] at hshort
  obtain ⟨cells, hstrip, hlength, hstring⟩ := strnrstripAt_apply (ρ := ρ) x hbody
    (colon_not_blank hcolon) (Nat.sub_le _ _) (by
      rw [List.length_append, List.length_append]
      omega)
  obtain ⟨i, hleft, hstring⟩ := strlstripAt_apply (ρ := ρ) hstring
  exact ⟨cells, i, hstrip, hlength, hleft, hstring⟩

/-- With the line feed alone behind the name, the NUL goes before the end of the name, and
    `strlstrip` on. -/
theorem optionValue_beyond (h : Delivered line) (hshort : line.length < name.length + 2) (x : γ) :
    ∃ cells, (strnrstripAt (line.length - 2) : Access Char γ ρ Unit) ⟨line, x⟩ =
        (.ok (), ⟨cells, x⟩) ∧
      (strlstripAt name.length : Access Char γ ρ ℕ) ⟨cells, x⟩ = (.error .fault, ⟨cells, x⟩) := by
  obtain ⟨value, rfl⟩ := hname
  rw [List.length_append] at hshort
  obtain ⟨front, rfl⟩ := List.getLast?_eq_some_iff.mp hcolon
  obtain rfl : value = ['\n'] := by
    rcases value with _ | ⟨c, _ | ⟨d, value⟩⟩
    · rw [List.append_nil, Delivered, hcolon] at h
      exact absurd h (by decide)
    · rw [Delivered, List.getLast?_append] at h
      obtain rfl : c = '\n' := by simpa using h
      rfl
    · simp only [List.length_cons] at hshort
      omega
  have hn : (front ++ [':'] ++ ['\n']).length - 2 = front.length := by simp
  have hretreat : (retreat isSpace front.length : Access Char γ ρ ℕ)
      ⟨front ++ [':'] ++ ['\n'], x⟩ = _ := retreat_apply (by simp)
  obtain ⟨stop, hstop⟩ : ∃ stop, stop =
    (((front ++ [':'] ++ ['\n']).take front.length).rdropWhile isSpace).length := ⟨_, rfl⟩
  have hle : stop ≤ front.length := by
    have hstarts := List.rdropWhile_prefix isSpace ((front ++ [':'] ++ ['\n']).take front.length)
    rw [hstop]
    exact hstarts.length_le.trans (List.length_take_le _ _)
  refine ⟨(front ++ [':'] ++ ['\n']).set stop nul, ?_, ?_⟩
  · rw [hn, strnrstripAt, Ctl.bind_ok hretreat]
    show store (((front ++ [':'] ++ ['\n']).take front.length).rdropWhile isSpace).length nul _ = _
    rw [← hstop]
    refine store_inside ?_
    simp only [List.length_append, List.length_singleton]
    omega
  · refine scan_beyond fun c hc => ?_
    have hlt : stop < (front ++ [':']).length := by
      rw [List.length_append]
      exact Nat.lt_succ_of_le hle
    rw [show (⟨(front ++ [':'] ++ ['\n']).set stop nul, x⟩ : Region Char γ).cells =
      (front ++ [':'] ++ ['\n']).set stop nul from rfl, List.drop_set_of_lt hlt, List.drop_left] at hc
    obtain rfl : c = '\n' := List.mem_singleton.mp hc
    decide

end Options

section AllowLine

variable {line : Text} (hname : allowName <+: line) (info : DavInfo)

include hname

/-- The `Allow` line: every token sets the flag of its method. -/
theorem allowLineAt_apply (hlong : allowName.length + 2 ≤ line.length) :
    ∃ cells, (allowLineAt line.length : Access Char DavInfo ρ Unit) ⟨line, info⟩ =
      (.ok (), ⟨cells, (tokens isDelim (optionValue allowName line)).foldl
        (fun info option => info.allow option) info⟩) := by
  obtain ⟨cells, i, hstrip, hlength, hleft, hstring⟩ :=
    optionValue_string (ρ := ρ) rfl hname hlong info
  have hfuel : (optionValue allowName line).length < cells.length + 1 := by
    obtain ⟨-, tail, htail⟩ := hstring
    have hcells := congrArg List.length htail
    simp only [List.length_drop, List.length_append, List.length_cons] at hcells
    omega
  have hdelim : isDelim nul = false := by decide
  obtain ⟨cells', hloop⟩ := forTokens_apply (ρ := ρ) hdelim
    (fun option info => DavInfo.allow option info) hfuel hstring
  refine ⟨cells', ?_⟩
  rw [allowLineAt, Ctl.bind_ok hstrip, Ctl.bind_ok hleft, Ctl.bind_ok (Ctl.gets_apply _ _)]
  exact hloop

theorem allowLineAt_short (h : Delivered line) (hshort : line.length < allowName.length + 2) :
    ∃ r, (allowLineAt line.length : Access Char DavInfo ρ Unit) ⟨line, info⟩ =
      (.error .fault, r) := by
  obtain ⟨cells, hstrip, hbeyond⟩ := optionValue_beyond (ρ := ρ) rfl hname h hshort info
  refine ⟨⟨cells, info⟩, ?_⟩
  rw [allowLineAt, Ctl.bind_ok hstrip, Ctl.bind_error hbeyond]

end AllowLine

section ServerLine

variable {line : Text} (hname : serverName <+: line) (info : DavInfo)

include hname

/-- The `Server` line with a `/`: it is split there. -/
theorem serverLineAt_apply (hlong : serverName.length + 2 ≤ line.length)
    (hslash : '/' ∈ optionValue serverName line) :
    ∃ cells, (serverLineAt line.length : Access Char DavInfo ρ Unit) ⟨line, info⟩ =
      (.ok (), ⟨cells, { info with server := some (splitVersion (optionValue serverName line)).1
                                   version := some (splitVersion (optionValue serverName line)).2 }⟩) := by
  obtain ⟨cells, i, hstrip, -, hleft, hstring⟩ :=
    optionValue_string (ρ := ρ) rfl hname hlong info
  obtain ⟨hsplit, hfirst⟩ := splitVersion_eq hslash
  rw [hsplit] at hstring
  obtain ⟨cells', hstore, hserver, hversion⟩ := store_cut (ρ := ρ) hstring
  refine ⟨cells', ?_⟩
  rw [serverLineAt, Ctl.bind_ok hstrip, Ctl.bind_ok hleft, Ctl.bind_ok (strchr_found hstring hfirst),
    Ctl.deref_some, pure_bind, Ctl.bind_ok hstore, Ctl.bind_ok (strdupAt_apply hserver),
    Ctl.bind_ok (strdupAt_apply hversion)]
  rfl

/-- Without a `/` the absent pointer is written through. -/
theorem serverLineAt_missing (h : Delivered line) (hslash : '/' ∉ optionValue serverName line) :
    ∃ r, (serverLineAt line.length : Access Char DavInfo ρ Unit) ⟨line, info⟩ =
      (.error .fault, r) := by
  rcases Nat.lt_or_ge line.length (serverName.length + 2) with hshort | hlong
  · obtain ⟨cells, hstrip, hbeyond⟩ := optionValue_beyond (ρ := ρ) rfl hname h hshort info
    refine ⟨⟨cells, info⟩, ?_⟩
    rw [serverLineAt, Ctl.bind_ok hstrip, Ctl.bind_error hbeyond]
  · obtain ⟨cells, i, hstrip, -, hleft, hstring⟩ :=
      optionValue_string (ρ := ρ) rfl hname hlong info
    refine ⟨⟨cells, info⟩, ?_⟩
    rw [serverLineAt, Ctl.bind_ok hstrip, Ctl.bind_ok hleft,
      Ctl.bind_ok (strchr_absent hstring hslash (by decide)), Ctl.deref_none]
    exact Ctl.bind_error (Ctl.leave_apply _ _)

end ServerLine

/-- A line that `__dav_options_callback` takes without a fault: an `Allow` line has two
    characters behind its name, and a `Server` line a `/` in its value. -/
def OptionsLine (line : Text) : Prop :=
  (allowName <+: line → allowName.length + 2 ≤ line.length) ∧
    (serverName <+: line → '/' ∈ optionValue serverName line)

section OptionsCallback

variable {line : Text} (h : Delivered line) (info : DavInfo)

include h

theorem davOptionsCallbackAt_apply (hline : OptionsLine line) :
    ∃ cells, (davOptionsCallbackAt line.length : Access Char DavInfo ρ ℕ) ⟨line, info⟩ =
      (.ok line.length, ⟨cells, davOptionsCallback info line⟩) := by
  rw [davOptionsCallbackAt, Ctl.bind_ok (startsWith_name h (by decide) info), davOptionsCallback]
  by_cases hallow : allowName <+: line
  · obtain ⟨cells, hrun⟩ := allowLineAt_apply (ρ := ρ) hallow info (hline.1 hallow)
    refine ⟨cells, ?_⟩
    rw [decide_eq_true hallow, if_pos hallow]
    exact (Ctl.bind_ok hrun).trans rfl
  · rw [decide_eq_false hallow, if_neg hallow]
    simp only [Bool.false_eq_true, if_false]
    rw [Ctl.bind_ok (startsWith_name h (by decide) info)]
    by_cases hserver : serverName <+: line
    · have hslash := hline.2 hserver
      have hlong : serverName.length + 2 ≤ line.length :=
        length_of_optionValue (List.ne_nil_of_mem hslash)
      obtain ⟨cells, hrun⟩ := serverLineAt_apply (ρ := ρ) hserver info hlong hslash
      refine ⟨cells, ?_⟩
      rw [decide_eq_true hserver, if_pos hserver]
      exact (Ctl.bind_ok hrun).trans rfl
    · refine ⟨line, ?_⟩
      rw [decide_eq_false hserver, if_neg hserver]
      rfl

theorem davOptionsCallbackAt_fault (hline : ¬OptionsLine line) :
    ∃ r, (davOptionsCallbackAt line.length : Access Char DavInfo ρ ℕ) ⟨line, info⟩ =
      (.error .fault, r) := by
  rw [davOptionsCallbackAt, Ctl.bind_ok (startsWith_name h (by decide) info)]
  by_cases hallow : allowName <+: line
  · have hserver : ¬serverName <+: line := by
      intro hstarts
      exact absurd (List.prefix_of_prefix_length_le hallow hstarts (by decide)) (by decide)
    have hshort : line.length < allowName.length + 2 := by
      by_contra hlong
      exact hline ⟨fun _ => Nat.le_of_not_lt hlong, fun hstarts => absurd hstarts hserver⟩
    obtain ⟨r, hrun⟩ := allowLineAt_short (ρ := ρ) hallow info h hshort
    refine ⟨r, ?_⟩
    rw [decide_eq_true hallow]
    exact Ctl.bind_error hrun
  · have hserver : serverName <+: line ∧ '/' ∉ optionValue serverName line := by
      by_contra hnot
      refine hline ⟨fun hstarts => absurd hstarts hallow, fun hstarts => ?_⟩
      by_contra hslash
      exact hnot ⟨hstarts, hslash⟩
    obtain ⟨r, hrun⟩ := serverLineAt_missing (ρ := ρ) hserver.1 info h hserver.2
    refine ⟨r, ?_⟩
    rw [decide_eq_false hallow]
    simp only [Bool.false_eq_true, if_false]
    rw [Ctl.bind_ok (startsWith_name h (by decide) info), decide_eq_true hserver.1]
    exact Ctl.bind_error hrun

end OptionsCallback

/-! ## Lines with another name -/

section Other

variable {line : Text} (h : Delivered line)

include h

theorem takesTo_other_size (hname : ¬contentLength <+: line) (size : ℕ) :
    TakesTo davHeadCallbackAt line size size :=
  ⟨_, _, davHeadCallbackAt_other h size hname⟩

theorem takesTo_other_token (hname : ¬lockTokenName <+: line) (allocated : Bool)
    (token : Option Text) : TakesTo (davLockCallbackAt allocated) line token token := by
  obtain ⟨cells, hrun⟩ := davLockCallbackAt_token (ρ := Unit) h allocated token
  rw [lockToken, if_neg fun hboth => hname hboth.2] at hrun
  exact ⟨_, _, hrun⟩

theorem takesTo_other_info (hallow : ¬allowName <+: line) (hserver : ¬serverName <+: line)
    (info : DavInfo) : TakesTo davOptionsCallbackAt line info info := by
  obtain ⟨cells, hrun⟩ := davOptionsCallbackAt_apply (ρ := Unit) h info
    ⟨fun hstarts => absurd hstarts hallow, fun hstarts => absurd hstarts hserver⟩
  rw [davOptionsCallback, if_neg hallow, if_neg hserver] at hrun
  exact ⟨_, _, hrun⟩

/-- The first token stays. -/
theorem takesTo_later_token (allocated : Bool) (token : Text) :
    TakesTo (davLockCallbackAt allocated) line (some token) (some token) := by
  obtain ⟨cells, hrun⟩ := davLockCallbackAt_token (ρ := Unit) h allocated (some token)
  rw [lockToken, if_neg fun hboth => (nomatch hboth.1)] at hrun
  exact ⟨_, _, hrun⟩

end Other

/-! ## Lines without a fault -/

/-- `callback` stays within the line, dereferences no absent pointer and returns `nitems`. -/
def Takes (callback : ℕ → Access Char γ Unit ℕ) (line : Text) (userdata : γ) : Prop :=
  ∃ r, callback line.length ⟨line, userdata⟩ = (.ok line.length, r)

/-- The lines all three callbacks take: a `Content-Length` that is not all blank, an `Allow`
    with more than a line feed behind its name, a `Server` with a `/`. -/
def SafeLine (line : Text) : Prop :=
  (contentLength <+: line → ∃ c ∈ line.drop contentLength.length, isSpace c = false) ∧
    OptionsLine line

theorem takes_davHeadCallbackAt {line : Text} (h : Delivered line) (size : ℕ) :
    Takes davHeadCallbackAt line size ↔
      (contentLength <+: line → ∃ c ∈ line.drop contentLength.length, isSpace c = false) := by
  by_cases hname : contentLength <+: line
  · by_cases hvalue : ∃ c ∈ line.drop contentLength.length, isSpace c = false
    · exact ⟨fun _ _ => hvalue, fun _ => ⟨_, davHeadCallbackAt_value h size hname hvalue⟩⟩
    · have hblank : ∀ c ∈ line.drop contentLength.length, isSpace c = true := by
        simpa using hvalue
      constructor
      · rintro ⟨r, hrun⟩
        rw [davHeadCallbackAt_blank h size hname hblank] at hrun
        exact nomatch (Prod.mk.inj hrun).1
      · intro hall
        exact absurd (hall hname) hvalue
  · exact ⟨fun _ hstarts => absurd hstarts hname, fun _ => ⟨_, davHeadCallbackAt_other h size hname⟩⟩

theorem takes_davOptionsCallbackAt {line : Text} (h : Delivered line) (info : DavInfo) :
    Takes davOptionsCallbackAt line info ↔ OptionsLine line := by
  constructor
  · rintro ⟨r, hrun⟩
    by_contra hline
    obtain ⟨r', hfault⟩ := davOptionsCallbackAt_fault (ρ := Unit) h info hline
    rw [hfault] at hrun
    exact nomatch (Prod.mk.inj hrun).1
  · intro hline
    obtain ⟨cells, hrun⟩ := davOptionsCallbackAt_apply (ρ := Unit) h info hline
    exact ⟨_, hrun⟩

/-- The three callbacks are safe on a line exactly when it is a `SafeLine`. -/
theorem header_safe_iff {line : Text} (h : Delivered line) (size : ℕ) (allocated : Bool)
    (token : Option Text) (info : DavInfo) :
    (Takes davHeadCallbackAt line size ∧ Takes (davLockCallbackAt allocated) line token ∧
      Takes davOptionsCallbackAt line info) ↔ SafeLine line := by
  rw [takes_davHeadCallbackAt h, takes_davOptionsCallbackAt h]
  constructor
  · rintro ⟨hhead, -, hoptions⟩
    exact ⟨hhead, hoptions⟩
  · rintro ⟨hhead, hoptions⟩
    obtain ⟨cells, hlock⟩ := davLockCallbackAt_token (ρ := Unit) h allocated token
    exact ⟨hhead, ⟨_, hlock⟩, hoptions⟩

/-- A product with its version. -/
theorem header_safe_lighttpd : Delivered "Server: lighttpd/1.4\r\n".toList ∧
    Takes davOptionsCallbackAt "Server: lighttpd/1.4\r\n".toList noInfo := by
  have h : Delivered "Server: lighttpd/1.4\r\n".toList := rfl
  have hsafe : SafeLine "Server: lighttpd/1.4\r\n".toList :=
    ⟨fun hname => absurd hname (by decide), fun hname => absurd hname (by decide),
      fun _ => by decide +kernel⟩
  exact ⟨h, ((header_safe_iff h 0 true none _).mpr hsafe).2.2⟩

/-- A product without a version, and a blank `Content-Length`. -/
theorem header_unsafe_nginx :
    (Delivered "Server: nginx\r\n".toList ∧
      ¬Takes davOptionsCallbackAt "Server: nginx\r\n".toList noInfo) ∧
    Delivered "Content-Length:\r\n".toList ∧
      ¬Takes davHeadCallbackAt "Content-Length:\r\n".toList 0 := by
  have hserver : Delivered "Server: nginx\r\n".toList := rfl
  have hlength : Delivered "Content-Length:\r\n".toList := rfl
  refine ⟨⟨hserver, fun htakes => ?_⟩, hlength, fun htakes => ?_⟩
  · have hslash := ((takes_davOptionsCallbackAt hserver _).mp htakes).2 (by decide)
    revert hslash
    decide +kernel
  · obtain ⟨c, hc, hspace⟩ := (takes_davHeadCallbackAt hlength 0).mp htakes (by decide)
    have hdrop : "Content-Length:\r\n".toList.drop contentLength.length = ['\r', '\n'] := rfl
    rw [hdrop, List.mem_pair] at hc
    rcases hc with rfl | rfl <;> exact absurd hspace (by decide)

end NetworkFs.Dav
