import NetworkFs.Dav.HeaderLines
import NetworkFs.Text.FieldName

/-!
# The case of header names

The callbacks compare the names with `strncmp`. Over HTTP/2 libcurl delivers them in lower
case, and over HTTP/1.1 a server may write them as it likes.

* `inert_of_indifferent`: the lines on which the spelling makes no difference.
* `caseBlind_iff`: a list of lines gives the same for every spelling of its names exactly when
  all of its lines are of this kind.
-/

namespace NetworkFs.Dav

open Control Grammar Text Memory

variable {line : Text}

theorem isName_contentLength : IsName contentLength := ⟨"Content-Length".toList, rfl, by decide⟩

theorem isName_lockTokenName : IsName lockTokenName := ⟨"Lock-Token".toList, rfl, by decide⟩

theorem isName_allowName : IsName allowName := ⟨"Allow".toList, rfl, by decide⟩

theorem isName_serverName : IsName serverName := ⟨"Server".toList, rfl, by decide⟩

/-- The length a line gives, if it is spelled `Content-Length`. -/
def lineLength (line : Text) : ℕ := toSize (strtol 10 (strlstrip (fieldValue line))).1

/-- The value of the last `Content-Length` line, or `0`. -/
def lastLength (lines : List Text) : ℕ :=
  ((lines.filter (Named contentLength ·)).getLast?.map lineLength).getD 0

/-- All spellings of the field names give the same: the size `dav_head` starts from `0`, the
    token from `NULL` and the flags from `false`. And the size is the one of the last
    `Content-Length` line. -/
structure CaseBlind (lines : List Text) : Prop where
  size : ∀ lines', List.Forall₂ Recased lines lines' →
    deliver davHeadCallbackAt lines' 0 = deliver davHeadCallbackAt lines 0
  token : ∀ allocated lines', List.Forall₂ Recased lines lines' →
    deliver (davLockCallbackAt allocated) lines' none =
      deliver (davLockCallbackAt allocated) lines none
  info : ∀ lines', List.Forall₂ Recased lines lines' →
    deliver davOptionsCallbackAt lines' noInfo = deliver davOptionsCallbackAt lines noInfo
  last : deliver davHeadCallbackAt lines 0 = some (lastLength lines)

/-- A line that changes nothing, however its name is spelled: a `Content-Length` of `0`, an
    `Allow` without a method, or another name. -/
structure Indifferent (line : Text) : Prop where
  size : Named contentLength line →
    (∃ c ∈ fieldValue line, isSpace c = false) ∧ lineLength line = 0
  token : ¬Named lockTokenName line
  allow : Named allowName line → 2 ≤ (fieldValue line).length ∧
    ∀ m : DavMethod, m.name ∉ tokens isDelim (optionValue allowName (spelled allowName line))
  server : ¬Named serverName line

theorem Indifferent.recased {line' : Text} (h : Recased line line') (hline : Indifferent line) :
    Indifferent line' := by
  refine ⟨fun hnamed => ?_, ?_, fun hnamed => ?_, ?_⟩
  · rw [lineLength, h.value]
    exact hline.size (h.named.mp hnamed)
  · rw [h.named]
    exact hline.token
  · rw [spelled, h.value]
    exact hline.allow (h.named.mp hnamed)
  · rw [h.named]
    exact hline.server

theorem Delivered.recased {line' : Text} (h : Delivered line) (hline : Recased line line') :
    Delivered line' := hline.getLast.trans h

/-- A line that starts with a name is spelled so. -/
theorem spelled_of_starts {name : Text} (hname : IsName name) (h : name <+: line) :
    spelled name line = line := by
  obtain ⟨hmem, heq⟩ := (starts_iff hname).mp h
  rw [spelled, ← heq, List.append_assoc, List.singleton_append, ← fieldBody_eq hmem,
    fieldName_append_fieldBody]

/-- The value behind the name. -/
theorem drop_of_starts {name : Text} (hname : IsName name) (h : name <+: line) :
    line.drop name.length = fieldValue line := by
  conv_lhs => rw [← spelled_of_starts hname h, spelled]
  exact List.drop_left

/-! ## Lines that change nothing -/

/-- Options that are no methods. -/
theorem foldl_allow_none {options : List Text} (h : ∀ m : DavMethod, m.name ∉ options) :
    options.foldl (fun info option => info.allow option) noInfo = noInfo := by
  obtain ⟨hserver, hversion⟩ := foldl_allow_server options noInfo
  refine DavInfo.ext ?_ hserver hversion
  funext m
  rw [foldl_allow_supports, decide_eq_false (h m), Bool.or_false]

section Inert

variable (h : Delivered line)

include h

/-- A `Content-Length` line gives its length, unless it is blank. -/
theorem takesTo_size_iff (hname : contentLength <+: line) (size size' : ℕ) :
    TakesTo davHeadCallbackAt line size size' ↔
      (∃ c ∈ fieldValue line, isSpace c = false) ∧ size' = lineLength line := by
  have hvalue := drop_of_starts isName_contentLength hname
  have hlength : davHeadCallback size line = lineLength line := by
    rw [davHeadCallback, if_pos (List.isPrefixOf_iff_prefix.mpr hname), hvalue, lineLength]
  rw [← hvalue]
  by_cases hblank : ∃ c ∈ line.drop contentLength.length, isSpace c = false
  · have hrun := davHeadCallbackAt_value (ρ := Unit) h size hname hblank
    rw [hlength] at hrun
    constructor
    · rintro ⟨n, cells, htaken⟩
      rw [hrun] at htaken
      exact ⟨hblank, (congrArg Region.rest (Prod.mk.inj htaken).2).symm⟩
    · rintro ⟨-, rfl⟩
      exact ⟨_, _, hrun⟩
  · have hrun := davHeadCallbackAt_blank (ρ := Unit) h size hname (by simpa using hblank)
    constructor
    · rintro ⟨n, cells, htaken⟩
      rw [hrun] at htaken
      cases (Prod.mk.inj htaken).1
    · rintro ⟨hsome, -⟩
      exact absurd hsome hblank

/-- A `Lock-Token` line gives a token. -/
theorem not_takesTo_token (hname : lockTokenName <+: line) :
    ¬TakesTo (davLockCallbackAt true) line none none := by
  rintro ⟨n, cells, htaken⟩
  obtain ⟨cells', hrun⟩ := davLockCallbackAt_token (ρ := Unit) h true none
  rw [lockToken, if_pos ⟨rfl, hname⟩, if_pos rfl] at hrun
  rw [hrun] at htaken
  cases congrArg Region.rest (Prod.mk.inj htaken).2

/-- A `Server` line gives a product, if it does not fault. -/
theorem not_takesTo_server (hname : serverName <+: line) :
    ¬TakesTo davOptionsCallbackAt line noInfo noInfo := by
  have hallow : ¬allowName <+: line := by
    intro hstarts
    exact absurd (List.prefix_of_prefix_length_le hstarts hname (by decide)) (by decide)
  rintro ⟨n, cells, htaken⟩
  by_cases hline : OptionsLine line
  · obtain ⟨cells', hrun⟩ := davOptionsCallbackAt_apply (ρ := Unit) h noInfo hline
    rw [davOptionsCallback, if_neg hallow, if_pos hname] at hrun
    rw [hrun] at htaken
    have hinfo := congrArg Region.rest (Prod.mk.inj htaken).2
    cases congrArg DavInfo.server hinfo
  · obtain ⟨r, hfault⟩ := davOptionsCallbackAt_fault (ρ := Unit) h noInfo hline
    rw [hfault] at htaken
    cases (Prod.mk.inj htaken).1

/-- An `Allow` line sets no flag when no token of it is a method. -/
theorem takesTo_allow_iff (hname : allowName <+: line) :
    TakesTo davOptionsCallbackAt line noInfo noInfo ↔ 2 ≤ (fieldValue line).length ∧
      ∀ m : DavMethod, m.name ∉ tokens isDelim (optionValue allowName line) := by
  have hvalue := drop_of_starts isName_allowName hname
  have hserver : ¬serverName <+: line := by
    intro hstarts
    exact absurd (List.prefix_of_prefix_length_le hname hstarts (by decide)) (by decide)
  have hlength : OptionsLine line ↔ 2 ≤ (fieldValue line).length := by
    have hle : allowName.length ≤ line.length := hname.length_le
    rw [← hvalue, List.length_drop]
    constructor
    · rintro ⟨hlong, -⟩
      have := hlong hname
      omega
    · intro hlong
      exact ⟨fun _ => by omega, fun hstarts => absurd hstarts hserver⟩
  by_cases hline : OptionsLine line
  · obtain ⟨cells, hrun⟩ := davOptionsCallbackAt_apply (ρ := Unit) h noInfo hline
    rw [davOptionsCallback, if_pos hname] at hrun
    constructor
    · rintro ⟨n, cells', htaken⟩
      rw [hrun] at htaken
      have hinfo := congrArg Region.rest (Prod.mk.inj htaken).2
      refine ⟨hlength.mp hline, fun m => ?_⟩
      have hflag := congrArg (fun info => info.supports m) hinfo
      rw [foldl_allow_supports] at hflag
      simpa [noInfo] using hflag
    · rintro ⟨-, hnone⟩
      rw [foldl_allow_none hnone] at hrun
      exact ⟨_, _, hrun⟩
  · obtain ⟨r, hfault⟩ := davOptionsCallbackAt_fault (ρ := Unit) h noInfo hline
    constructor
    · rintro ⟨n, cells, htaken⟩
      rw [hfault] at htaken
      cases (Prod.mk.inj htaken).1
    · rintro ⟨hlong, -⟩
      exact absurd (hlength.mpr hlong) hline

end Inert

section Spelling

variable (h : Delivered line)

include h

theorem Indifferent.takesTo_size (hline : Indifferent line) :
    TakesTo davHeadCallbackAt line 0 0 := by
  by_cases hname : contentLength <+: line
  · obtain ⟨hvalue, hzero⟩ := hline.size (named_of_starts isName_contentLength hname)
    exact (takesTo_size_iff h hname 0 0).mpr ⟨hvalue, hzero.symm⟩
  · exact takesTo_other_size h hname 0

theorem Indifferent.takesTo_token (hline : Indifferent line) (allocated : Bool) :
    TakesTo (davLockCallbackAt allocated) line none none := by
  refine takesTo_other_token h (fun hname => ?_) allocated none
  exact hline.token (named_of_starts isName_lockTokenName hname)

theorem Indifferent.takesTo_info (hline : Indifferent line) :
    TakesTo davOptionsCallbackAt line noInfo noInfo := by
  have hserver : ¬serverName <+: line := fun hname =>
    hline.server (named_of_starts isName_serverName hname)
  by_cases hname : allowName <+: line
  · have hallow := hline.allow (named_of_starts isName_allowName hname)
    rw [spelled_of_starts isName_allowName hname] at hallow
    exact (takesTo_allow_iff h hname).mpr hallow
  · exact takesTo_other_info h hname hserver noInfo

/-- A line with its name in lower case changes nothing. -/
theorem takesTo_lowered :
    (∀ size, TakesTo davHeadCallbackAt (lowered line) size size) ∧
      (∀ allocated token, TakesTo (davLockCallbackAt allocated) (lowered line) token token) ∧
      ∀ info, TakesTo davOptionsCallbackAt (lowered line) info info := by
  have hlowered := h.recased (recased_lowered line)
  refine ⟨fun size => ?_, fun allocated token => ?_, fun info => ?_⟩
  · exact takesTo_other_size hlowered (not_starts_lowered isName_contentLength (by decide)) size
  · exact takesTo_other_token hlowered (not_starts_lowered isName_lockTokenName (by decide))
      allocated token
  · exact takesTo_other_info hlowered (not_starts_lowered isName_allowName (by decide))
      (not_starts_lowered isName_serverName (by decide)) info

end Spelling

/-! ## Lists of lines -/

theorem forall_recased {P : Text → Prop} {lines lines' : List Text}
    (h : List.Forall₂ Recased lines lines') (hP : ∀ line line', Recased line line' → P line → P line')
    (hlines : ∀ line ∈ lines, P line) : ∀ line ∈ lines', P line := by
  induction h with
  | nil => exact hlines
  | @cons line line' lines lines' hline hrest ih =>
    intro other hother
    rcases List.mem_cons.mp hother with rfl | hother
    · exact hP line other hline (hlines line List.mem_cons_self)
    · exact ih (fun l hl => hlines l (List.mem_cons_of_mem _ hl)) other hother

theorem recased_map_lowered (lines : List Text) :
    List.Forall₂ Recased lines (lines.map lowered) := by
  induction lines with
  | nil => exact .nil
  | cons line lines ih => exact .cons (recased_lowered line) ih

/-- One line spelled as the callback has it, and all others in lower case: if the callback does
    not see the difference, it takes nothing from the line. -/
theorem takesTo_spelled {γ : Type} {callback : ℕ → Access Char γ Unit ℕ} {x : γ} {name : Text}
    {before after : List Text}
    (hblind : ∀ lines', List.Forall₂ Recased (before ++ line :: after) lines' →
      deliver callback lines' x = deliver callback (before ++ line :: after) x)
    (hlowered : ∀ other ∈ before ++ line :: after, ∀ z, TakesTo callback (lowered other) z z)
    (hname : IsName name) (hnamed : Named name line) : TakesTo callback (spelled name line) x x := by
  have hmap : ∀ {lines : List Text}, (∀ other ∈ lines, other ∈ before ++ line :: after) →
      ∀ z, ∀ other ∈ lines.map lowered, TakesTo callback other z z := by
    intro lines hsub z other hother
    obtain ⟨source, hsource, rfl⟩ := List.mem_map.mp hother
    exact hlowered source (hsub source hsource) z
  have hall := deliver_unchanged (hmap (fun other hother => hother) x)
  have hone : List.Forall₂ Recased (before ++ line :: after)
      (before.map lowered ++ spelled name line :: after.map lowered) :=
    List.rel_append (recased_map_lowered before)
      (.cons (recased_spelled hname hnamed) (recased_map_lowered after))
  rw [hblind _ (recased_map_lowered _), ← hblind _ hone] at hall
  refine takesTo_of_deliver (hmap (fun other hother => List.mem_append_left _ hother) x)
    (hmap fun other hother => List.mem_append_right _ (List.mem_cons_of_mem _ hother)) hall

/-- With `Content-Length` lines of `0` alone, the last one is `0`. -/
theorem lastLength_eq_zero {lines : List Text} (h : ∀ line ∈ lines, Indifferent line) :
    lastLength lines = 0 := by
  rw [lastLength]
  rcases hlast : (lines.filter (Named contentLength ·)).getLast? with _ | line
  · rfl
  · have hmem := List.mem_filter.mp (List.mem_of_getLast? hlast)
    exact ((h line hmem.1).size (of_decide_eq_true hmem.2)).2

/-- The spelling of the field names makes no difference exactly for lines that give nothing. -/
theorem caseBlind_iff {lines : List Text} (h : ∀ line ∈ lines, Delivered line) :
    CaseBlind lines ↔ ∀ line ∈ lines, Indifferent line := by
  constructor
  · intro hblind line hline
    obtain ⟨before, after, rfl⟩ := List.append_of_mem hline
    have hlowered := fun other hother => takesTo_lowered (h other hother)
    have hd := h line hline
    have hspelled : ∀ {name : Text} (hname : IsName name) (hnamed : Named name line),
        Delivered (spelled name line) ∧ name <+: spelled name line ∧
          fieldValue (spelled name line) = fieldValue line := fun hname hnamed =>
      ⟨hd.recased (recased_spelled hname hnamed), List.prefix_append _ _,
        (recased_spelled hname hnamed).value⟩
    refine ⟨fun hnamed => ?_, fun hnamed => ?_, fun hnamed => ?_, fun hnamed => ?_⟩
    · obtain ⟨hd', hstarts, hvalue⟩ := hspelled isName_contentLength hnamed
      have htaken := takesTo_spelled hblind.size (fun other hother => (hlowered other hother).1)
        isName_contentLength hnamed
      rw [takesTo_size_iff hd' hstarts, lineLength, hvalue] at htaken
      exact ⟨htaken.1, htaken.2.symm⟩
    · obtain ⟨hd', hstarts, -⟩ := hspelled isName_lockTokenName hnamed
      exact not_takesTo_token hd' hstarts (takesTo_spelled (hblind.token true)
        (fun other hother => (hlowered other hother).2.1 true) isName_lockTokenName hnamed)
    · obtain ⟨hd', hstarts, hvalue⟩ := hspelled isName_allowName hnamed
      have htaken := takesTo_spelled hblind.info (fun other hother => (hlowered other hother).2.2)
        isName_allowName hnamed
      rw [takesTo_allow_iff hd' hstarts, hvalue] at htaken
      exact htaken
    · obtain ⟨hd', hstarts, -⟩ := hspelled isName_serverName hnamed
      exact not_takesTo_server hd' hstarts (takesTo_spelled hblind.info
        (fun other hother => (hlowered other hother).2.2) isName_serverName hnamed)
  · intro hlines
    have hall : ∀ lines', List.Forall₂ Recased lines lines' →
        ∀ line ∈ lines', Delivered line ∧ Indifferent line := fun lines' hrecased =>
      forall_recased hrecased (fun _ _ hline hboth => ⟨hboth.1.recased hline, hboth.2.recased hline⟩)
        fun line hline => ⟨h line hline, hlines line hline⟩
    have hsame : List.Forall₂ Recased lines lines :=
      List.forall₂_same.mpr fun line _ => recased_refl line
    have hsize : ∀ lines', List.Forall₂ Recased lines lines' →
        deliver davHeadCallbackAt lines' 0 = some 0 := fun lines' hrecased =>
      deliver_unchanged fun line hline =>
        (hall lines' hrecased line hline).2.takesTo_size (hall lines' hrecased line hline).1
    have htoken : ∀ allocated lines', List.Forall₂ Recased lines lines' →
        deliver (davLockCallbackAt allocated) lines' none = some none :=
      fun allocated lines' hrecased => deliver_unchanged fun line hline =>
        (hall lines' hrecased line hline).2.takesTo_token (hall lines' hrecased line hline).1 allocated
    have hinfo : ∀ lines', List.Forall₂ Recased lines lines' →
        deliver davOptionsCallbackAt lines' noInfo = some noInfo := fun lines' hrecased =>
      deliver_unchanged fun line hline =>
        (hall lines' hrecased line hline).2.takesTo_info (hall lines' hrecased line hline).1
    refine ⟨fun lines' hrecased => ?_, fun allocated lines' hrecased => ?_,
      fun lines' hrecased => ?_, ?_⟩
    · rw [hsize lines' hrecased, hsize lines hsame]
    · rw [htoken allocated lines' hrecased, htoken allocated lines hsame]
    · rw [hinfo lines' hrecased, hinfo lines hsame]
    · rw [hsize lines hsame, lastLength_eq_zero hlines]

/-- An empty resource. -/
theorem caseBlind_empty : Delivered "CONTENT-LENGTH: 0\r\n".toList ∧
    CaseBlind ["CONTENT-LENGTH: 0\r\n".toList] := by
  have h : Delivered "CONTENT-LENGTH: 0\r\n".toList := rfl
  refine ⟨h, (caseBlind_iff fun line hline => ?_).mpr fun line hline => ?_⟩
  · rw [List.mem_singleton.mp hline]
    exact h
  · rw [List.mem_singleton.mp hline]
    exact ⟨fun _ => ⟨⟨'0', by decide +kernel, rfl⟩, by decide +kernel⟩, by decide +kernel,
      fun hnamed => absurd hnamed (by decide +kernel), by decide +kernel⟩

/-- The same line over HTTP/1.1 and over HTTP/2. -/
theorem not_caseBlind_http2 :
    Recased "Content-Length: 5\r\n".toList "content-length: 5\r\n".toList ∧
      deliver davHeadCallbackAt ["Content-Length: 5\r\n".toList] 0 = some 5 ∧
      deliver davHeadCallbackAt ["content-length: 5\r\n".toList] 0 = some 0 ∧
      ¬CaseBlind ["Content-Length: 5\r\n".toList] := by
  have hrecased : Recased "Content-Length: 5\r\n".toList "content-length: 5\r\n".toList :=
    ⟨by decide +kernel, by decide +kernel, fun hnot => absurd (by decide) hnot⟩
  have hcapital : deliver davHeadCallbackAt ["Content-Length: 5\r\n".toList] 0 = some 5 := by
    decide +kernel
  have hlower : deliver davHeadCallbackAt ["content-length: 5\r\n".toList] 0 = some 0 := by
    decide +kernel
  refine ⟨hrecased, hcapital, hlower, fun hblind => ?_⟩
  have hsame := hblind.size ["content-length: 5\r\n".toList] (.cons hrecased .nil)
  rw [hcapital, hlower] at hsame
  exact absurd hsame (by decide)

end NetworkFs.Dav
