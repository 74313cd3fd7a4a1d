import NetworkFs.Text.Reference
import NetworkFs.Wrapper.Curl

/-!
# Paths and the URLs of their requests

`curl_easy_init_common` and `__dav_header_destination` give the path without its slash to
`curl_url_set` as a reference, with only the bytes escaped that are not graphic. What a `?`, a `#`,
an escape or a scheme in a file name means there is then what it means in a reference.

* `curlUrlSet`: the URL in a handle after `curl_url_set`.
* `requestUrl`, `destinationUrl`: the URLs of the two functions.
* `FusePath`: the paths that the kernel asks for.
* `paths_correspond_iff`: when two paths and their resources correspond.
-/

namespace NetworkFs.Wrapper

open Text

/-! ## The URLs -/

/-- A byte as a character. -/
def byteChar (b : UInt8) : Char := Char.ofNat b.toNat

/-- A path as a text, byte by byte. -/
def pathText (path : Path) : Text := path.map byteChar

/-- A byte that libcurl leaves as it is. -/
def isGraph (b : UInt8) : Bool := 0x21 ≤ b.toNat && b.toNat ≤ 0x7e

/-- A hexadecimal digit. -/
def hexDigit (n : ℕ) : Char := if n < 10 then Char.ofNat (48 + n) else Char.ofNat (87 + n)

/-- One byte under `CURLU_URLENCODE`. -/
def encodeByte (b : UInt8) : Text :=
  if isGraph b then [byteChar b] else ['%', hexDigit (b.toNat / 16), hexDigit (b.toNat % 16)]

/-- A path under `CURLU_URLENCODE`. -/
def urlEncode (path : Path) : Text := path.flatMap encodeByte

/-- The URL in a handle with `base` after `curl_url_set(uh, CURLUPART_URL, path, CURLU_URLENCODE)`. -/
def curlUrlSet (base : Reference) (path : Path) : Reference :=
  resolve base (parseReference (urlEncode path))

/-- The URL that `curl_easy_init_common` sets for `path` (lines 278–293). -/
def requestUrl (base : Reference) (path : Path) : Reference :=
  if dropSlash path = [] then base else curlUrlSet base (dropSlash path)

/-- The URL that `__dav_header_destination` writes for `path` (lines 182–191). -/
def destinationUrl (base : Reference) (path : Path) : Reference := curlUrlSet base (dropSlash path)

/-- The URL of a directory on a host. -/
structure BaseUrl extends Reference where
  dir : Text
  path_eq : path = dir ++ ['/']
  absolute : dir = [] ∨ dir.head? = some '/'
  scheme_isSome : scheme.isSome
  authority_isSome : authority.isSome

/-- What a request with a URL is about; the fragment is not sent. -/
structure ResourceName where
  scheme : Option Text
  authority : Option Text
  path : Text
  query : Option Text
deriving DecidableEq

/-- The resource a server takes a URL for: its path without dot segments, decoded. -/
def resourceOf (url : Reference) : ResourceName :=
  ⟨url.scheme, url.authority, percentDecode (removeDotSegments url.path), url.query⟩

/-- A path as the kernel gives it: a slash, and components with slashes between them. -/
structure FusePath where
  components : List Path
  nonempty : ∀ c ∈ components, c ≠ []
  no_slash : ∀ c ∈ components, 47 ∉ c
  no_nul : ∀ c ∈ components, 0 ∉ c
  not_dot : ∀ c ∈ components, c ≠ [46] ∧ c ≠ [46, 46]

/-- The path as its bytes. -/
def FusePath.toPath (p : FusePath) : Path := 47 :: List.intercalate [47] p.components

/-- `url` lies below the base, and what follows the path of the base decodes to `name`. -/
def NamesBelow (base : BaseUrl) (url : Reference) (name : Text) : Prop :=
  url.scheme = base.scheme ∧ url.authority = base.authority ∧
    ∃ rest, removeDotSegments url.path = removeDotSegments base.path ++ rest ∧
      percentDecode rest = name

/-- The two functions are right about `p`. -/
def NamesPath (base : BaseUrl) (p : FusePath) : Prop :=
  NamesBelow base (requestUrl base.toReference p.toPath) (pathText (dropSlash p.toPath)) ∧
    resourceOf (destinationUrl base.toReference p.toPath) =
      resourceOf (requestUrl base.toReference p.toPath)

/-- The two paths have two resources, and each is named right. -/
def PathsCorrespond (base : BaseUrl) (p q : FusePath) : Prop :=
  resourceOf (requestUrl base.toReference p.toPath) ≠
    resourceOf (requestUrl base.toReference q.toPath) ∧ NamesPath base p ∧ NamesPath base q

/-- No `%` with two digits after it. -/
def NoEscape (path : Path) : Prop :=
  ∀ before a b after, path = before ++ 37 :: a :: b :: after → hexPair (byteChar a) (byteChar b) = none

/-- A reference that means just its bytes. -/
structure PlainReference (path : Path) : Prop where
  no_query : 63 ∉ path
  no_fragment : 35 ∉ path
  no_escape : NoEscape path
  no_scheme : splitScheme (urlEncode path) = none

/-! ## Encoding -/

theorem toNat_byteChar (b : UInt8) : (byteChar b).toNat = b.toNat := by
  have hlt : b.toNat < 256 := b.toNat_lt
  rw [byteChar, Char.ofNat, dif_pos (Or.inl (by omega))]
  rfl

theorem byteChar_injective : Function.Injective byteChar := by
  intro a b h
  have := congrArg Char.toNat h
  rw [toNat_byteChar, toNat_byteChar] at this
  exact UInt8.toNat_inj.mp this

theorem pathText_injective : Function.Injective pathText := byteChar_injective.list_map

/-- A byte that is not graphic is read back. -/
theorem hexPair_hexDigit (b : UInt8) :
    hexPair (hexDigit (b.toNat / 16)) (hexDigit (b.toNat % 16)) = some (byteChar b) := by
  have hdigit : ∀ n < 16, hexValue (hexDigit n) = some n := by decide
  have hlt : b.toNat < 256 := b.toNat_lt
  rw [hexPair, hdigit _ (by omega), hdigit _ (by omega)]
  show some (Char.ofNat (16 * (b.toNat / 16) + b.toNat % 16)) = _
  rw [Nat.div_add_mod]
  rfl

theorem urlEncode_cons (b : UInt8) (path : Path) :
    urlEncode (b :: path) = encodeByte b ++ urlEncode path := rfl

/-- Bytes other than `%` are read back. -/
theorem percentDecode_urlEncode_cons {b : UInt8} (h : b ≠ 37) (path : Path) :
    percentDecode (urlEncode (b :: path)) = byteChar b :: percentDecode (urlEncode path) := by
  rw [urlEncode_cons, encodeByte]
  split_ifs with hgraph
  · refine percentDecode_literal (fun heq => h ?_) _
    exact byteChar_injective heq
  · exact percentDecode_escape (hexPair_hexDigit b) _

theorem isGraph_of_hexValue {b : UInt8} (h : hexValue (byteChar b) ≠ none) : isGraph b = true := by
  have hall : ∀ n < 256, hexValue (Char.ofNat n) ≠ none → (0x21 ≤ n && n ≤ 0x7e) = true := by
    decide +kernel
  exact hall b.toNat b.toNat_lt h

/-- An escape in an encoded path is one of the path itself. -/
theorem hexPair_urlEncode {path : Path}
    (h : ∀ a b after, path = a :: b :: after → hexPair (byteChar a) (byteChar b) = none) :
    ∀ x y rest, urlEncode path = x :: y :: rest → hexPair x y = none := by
  intro x y rest heq
  have hpercent : hexValue '%' = none := by decide
  match path with
  | [] => exact nomatch heq
  | a :: path =>
    rw [urlEncode_cons, encodeByte] at heq
    cases hgraph : isGraph a with
    | false =>
      rw [hgraph, if_neg Bool.false_ne_true] at heq
      rw [← (List.cons.inj heq).1]
      exact hexPair_eq_none_left hpercent y
    | true =>
      rw [hgraph, if_pos rfl] at heq
      obtain ⟨hx, heq⟩ := List.cons.inj heq
      match path with
      | [] => exact nomatch heq
      | b :: after =>
        replace heq : urlEncode (b :: after) = y :: rest := heq
        rw [urlEncode_cons, encodeByte] at heq
        cases hgraph' : isGraph b with
        | false =>
          rw [hgraph', if_neg Bool.false_ne_true] at heq
          rw [← (List.cons.inj heq).1]
          exact hexPair_eq_none_right hpercent x
        | true =>
          rw [hgraph', if_pos rfl] at heq
          rw [← hx, ← (List.cons.inj heq).1]
          exact h a b after rfl

theorem noEscape_cons {b : UInt8} {path : Path} :
    NoEscape (b :: path) ↔ (b = 37 → ∀ a b' after, path = a :: b' :: after →
      hexPair (byteChar a) (byteChar b') = none) ∧ NoEscape path := by
  constructor
  · intro h
    refine ⟨?_, fun before a b' after heq => h (b :: before) a b' after (by rw [heq]; rfl)⟩
    rintro rfl a b' after rfl
    exact h [] a b' after rfl
  · rintro ⟨hfirst, hrest⟩ before a b' after heq
    match before with
    | [] =>
      obtain ⟨hb, hpath⟩ := List.cons.inj heq
      exact hfirst hb a b' after hpath
    | _ :: before => exact hrest before a b' after (List.cons.inj heq).2

/-- Without escapes an encoded path is read back; with one, something shorter is read. -/
theorem percentDecode_urlEncode (path : Path) :
    (NoEscape path → percentDecode (urlEncode path) = pathText path) ∧
      (¬NoEscape path → (percentDecode (urlEncode path)).length < path.length) := by
  induction hn : path.length using Nat.strong_induction_on generalizing path with
  | h n ih =>
    subst hn
    match path with
    | [] => exact ⟨fun _ => rfl, fun hno => absurd (fun before a b after heq => by simp at heq) hno⟩
    | b :: path =>
      obtain ⟨heq, hlt⟩ := ih path.length (Nat.lt_succ_self _) path rfl
      have hplain (hdecode : percentDecode (urlEncode (b :: path)) =
          byteChar b :: percentDecode (urlEncode path))
          (hiff : NoEscape (b :: path) ↔ NoEscape path) :
          (NoEscape (b :: path) → percentDecode (urlEncode (b :: path)) = pathText (b :: path)) ∧
            (¬NoEscape (b :: path) →
              (percentDecode (urlEncode (b :: path))).length < (b :: path).length) := by
        rw [hdecode, hiff]
        refine ⟨fun hno => by rw [heq hno]; rfl, fun hno => ?_⟩
        exact Nat.succ_lt_succ (hlt hno)
      by_cases hb : b = 37
      swap
      · refine hplain (percentDecode_urlEncode_cons hb path) ?_
        rw [noEscape_cons]
        exact and_iff_right fun h => absurd h hb
      subst hb
      by_cases hnone : ∀ a b' after, path = a :: b' :: after →
          hexPair (byteChar a) (byteChar b') = none
      · refine hplain ?_ ?_
        · exact percentDecode_percent (hexPair_urlEncode hnone)
        · rw [noEscape_cons]
          exact and_iff_right fun _ => hnone
      · have hescape : ¬NoEscape (37 :: path) := fun h => hnone ((noEscape_cons.mp h).1 rfl)
        push Not at hnone
        obtain ⟨a, b', after, rfl, hpair⟩ := hnone
        refine ⟨fun h => absurd h hescape, fun _ => ?_⟩
        obtain ⟨d, hd⟩ := Option.ne_none_iff_exists'.mp hpair
        have ha : isGraph a = true := isGraph_of_hexValue fun hno =>
          hpair (hexPair_eq_none_left hno _)
        have hb' : isGraph b' = true := isGraph_of_hexValue fun hno =>
          hpair (hexPair_eq_none_right hno _)
        have hencode : urlEncode (37 :: a :: b' :: after) =
            '%' :: byteChar a :: byteChar b' :: urlEncode after := by
          rw [urlEncode_cons, urlEncode_cons, urlEncode_cons, encodeByte, encodeByte, encodeByte, ha,
            hb']
          rfl
        obtain ⟨heq', hlt'⟩ := ih after.length (by simp only [List.length_cons]; omega) after rfl
        have hle : (percentDecode (urlEncode after)).length ≤ after.length := by
          by_cases hno : NoEscape after
          · rw [heq' hno, pathText, List.length_map]
          · exact (hlt' hno).le
        rw [hencode, percentDecode_escape hd, List.length_cons, List.length_cons, List.length_cons,
          List.length_cons]
        omega

theorem percentDecode_urlEncode_iff (path : Path) :
    percentDecode (urlEncode path) = pathText path ↔ NoEscape path := by
  obtain ⟨heq, hlt⟩ := percentDecode_urlEncode path
  refine ⟨fun h => ?_, heq⟩
  by_contra hno
  have hlen := hlt hno
  rw [h, pathText, List.length_map] at hlen
  exact Nat.lt_irrefl _ hlen

theorem length_percentDecode_urlEncode_le (path : Path) :
    (percentDecode (urlEncode path)).length ≤ path.length := by
  obtain ⟨heq, hlt⟩ := percentDecode_urlEncode path
  by_cases hno : NoEscape path
  · rw [heq hno, pathText, List.length_map]
  · exact (hlt hno).le

/-! ## Characters of an encoded path -/

theorem mem_encodeByte {b : UInt8} {c : Char} (h : c ∈ encodeByte b) :
    c = byteChar b ∧ isGraph b = true ∨ c = '%' ∨ ∃ n < 16, c = hexDigit n := by
  have hlt : b.toNat < 256 := b.toNat_lt
  unfold encodeByte at h
  split_ifs at h with hgraph
  · exact .inl ⟨List.mem_singleton.mp h, hgraph⟩
  · simp only [List.mem_cons, List.not_mem_nil, or_false] at h
    rcases h with rfl | rfl | rfl
    · exact .inr (.inl rfl)
    · exact .inr (.inr ⟨_, by omega, rfl⟩)
    · exact .inr (.inr ⟨_, by omega, rfl⟩)

/-- A graphic byte that escapes do not use is in the encoded path if it is in the path. -/
theorem mem_urlEncode_iff {b : UInt8} (hgraph : isGraph b = true) (hpercent : byteChar b ≠ '%')
    (hdigit : ∀ n < 16, byteChar b ≠ hexDigit n) {path : Path} :
    byteChar b ∈ urlEncode path ↔ b ∈ path := by
  rw [urlEncode, List.mem_flatMap]
  constructor
  · rintro ⟨b', hb', hmem⟩
    rcases mem_encodeByte hmem with ⟨heq, -⟩ | heq | ⟨n, hn, heq⟩
    · rw [byteChar_injective heq]
      exact hb'
    · exact absurd heq hpercent
    · exact absurd heq (hdigit n hn)
  · intro hb
    refine ⟨b, hb, ?_⟩
    rw [encodeByte, if_pos hgraph]
    exact List.mem_singleton_self _

theorem slash_mem_urlEncode {path : Path} : '/' ∈ urlEncode path ↔ 47 ∈ path :=
  mem_urlEncode_iff (b := 47) (by decide) (by decide) (by decide)

theorem query_mem_urlEncode {path : Path} : '?' ∈ urlEncode path ↔ 63 ∈ path :=
  mem_urlEncode_iff (b := 63) (by decide) (by decide) (by decide)

theorem fragment_mem_urlEncode {path : Path} : '#' ∈ urlEncode path ↔ 35 ∈ path :=
  mem_urlEncode_iff (b := 35) (by decide) (by decide) (by decide)

theorem urlEncode_ne_nil {path : Path} (h : path ≠ []) : urlEncode path ≠ [] := by
  obtain ⟨b, rest, rfl⟩ := List.exists_cons_of_ne_nil h
  rw [urlEncode_cons, encodeByte]
  split_ifs <;> exact List.cons_ne_nil _ _

/-- Without escapes the bytes stand for themselves. -/
theorem urlEncode_eq_pathText {path : Path} (h : '%' ∉ urlEncode path) :
    urlEncode path = pathText path := by
  induction path with
  | nil => rfl
  | cons b path ih =>
    rw [urlEncode_cons, List.mem_append, not_or] at h
    have hgraph : isGraph b = true := by
      by_contra hno
      apply h.1
      rw [encodeByte, if_neg hno]
      exact List.mem_cons_self
    rw [urlEncode_cons, ih h.2, encodeByte, if_pos hgraph]
    rfl

/-- A component that is no dot is none when it is encoded. -/
theorem isDot_urlEncode {path : Path} (h : path ≠ [46] ∧ path ≠ [46, 46]) :
    isDot (urlEncode path) = false := by
  rw [isDot, Bool.or_eq_false_iff, beq_eq_false_iff_ne, beq_eq_false_iff_ne]
  have hback : ∀ dots : Path, '%' ∉ pathText dots → urlEncode path = pathText dots → path = dots := by
    intro dots hno heq
    rw [← heq] at hno
    exact pathText_injective ((urlEncode_eq_pathText hno).symm.trans heq)
  exact ⟨fun heq => h.1 (hback [46] (by decide) heq),
    fun heq => h.2 (hback [46, 46] (by decide) heq)⟩

/-! ## The segments of a reference -/

theorem dropSlash_toPath (p : FusePath) :
    dropSlash p.toPath = List.intercalate [47] p.components := rfl

/-- The segments of the encoded path are the encoded components. -/
theorem splitOn_urlEncode (p : FusePath) (h : p.components ≠ []) :
    (urlEncode (dropSlash p.toPath)).splitOn '/' = p.components.map urlEncode := by
  have hjoin : ∀ components : List Path, components ≠ [] → (∀ c ∈ components, 47 ∉ c) →
      (urlEncode (List.intercalate [47] components)).splitOn '/' = components.map urlEncode := by
    intro components
    induction components with
    | nil => exact fun h => absurd rfl h
    | cons c components ih =>
      intro _ hslash
      have hc : '/' ∉ urlEncode c := fun hmem =>
        hslash c List.mem_cons_self (slash_mem_urlEncode.mp hmem)
      cases components with
      | nil =>
        rw [List.intercalate_singleton, List.splitOn_eq_singleton hc]
        rfl
      | cons c' components =>
        have hencode : urlEncode (List.intercalate [47] (c :: c' :: components)) =
            urlEncode c ++ '/' :: urlEncode (List.intercalate [47] (c' :: components)) := by
          rw [List.intercalate_cons_cons, urlEncode, List.flatMap_append, List.flatMap_append]
          simp only [List.append_assoc]
          rfl
        rw [hencode, List.splitOn_append_cons_self, List.splitOn_eq_singleton hc,
          ih (List.cons_ne_nil _ _) fun c'' hc'' => hslash c'' (List.mem_cons_of_mem _ hc'')]
        rfl
  exact hjoin p.components h p.no_slash

theorem nil_not_mem_splitOn (p : FusePath) (h : p.components ≠ []) :
    [] ∉ (urlEncode (dropSlash p.toPath)).splitOn '/' := by
  rw [splitOn_urlEncode p h, List.mem_map]
  rintro ⟨c, hc, heq⟩
  exact urlEncode_ne_nil (p.nonempty c hc) heq

theorem not_dot_of_mem_splitOn (p : FusePath) (h : p.components ≠ []) :
    ∀ s ∈ (urlEncode (dropSlash p.toPath)).splitOn '/', isDot s = false := by
  rw [splitOn_urlEncode p h]
  intro s hs
  obtain ⟨c, hc, rfl⟩ := List.mem_map.mp hs
  exact isDot_urlEncode (p.not_dot c hc)

theorem dropSlash_eq_nil_iff (p : FusePath) : dropSlash p.toPath = [] ↔ p.components = [] := by
  rw [dropSlash_toPath]
  constructor
  · intro heq
    by_contra h
    obtain ⟨c, components, hcomponents⟩ := List.exists_cons_of_ne_nil h
    have hc := p.nonempty c (by rw [hcomponents]; exact List.mem_cons_self)
    rw [hcomponents] at heq
    cases components with
    | nil => exact hc (by rwa [List.intercalate_singleton] at heq)
    | cons c' components =>
      rw [List.intercalate_cons_cons] at heq
      exact hc (List.append_eq_nil_iff.mp (List.append_eq_nil_iff.mp heq).1).1
  · rintro heq
    rw [heq]
    rfl

/-! ## The URL of a path -/

section Path

variable (base : BaseUrl) (p : FusePath)

/-- A reference with a scheme leads to another host. -/
theorem curlUrlSet_scheme (h : p.components ≠ [])
    (hscheme : splitScheme (urlEncode (dropSlash p.toPath)) ≠ none) :
    (curlUrlSet base.toReference (dropSlash p.toPath)).authority = none := by
  obtain ⟨⟨scheme, rest⟩, hsplit⟩ := Option.ne_none_iff_exists'.mp hscheme
  have htext := splitScheme_eq_some hsplit
  have hpath : ∀ after, pathPart rest ≠ '/' :: '/' :: after := by
    intro after heq
    obtain ⟨more, hmore⟩ := pathPart_prefix rest
    apply nil_not_mem_splitOn p h
    have hslashes : urlEncode (dropSlash p.toPath) =
        (scheme ++ [':']) ++ '/' :: ([] ++ '/' :: (after ++ more)) := by
      rw [htext, ← hmore, heq]
      simp
    rw [hslashes, List.splitOn_append_cons_self, List.splitOn_append_cons_self, List.splitOn_nil]
    exact List.mem_append_right _ (List.mem_append_left _ (List.mem_singleton_self _))
  rw [curlUrlSet, parseReference, hsplit]
  show (resolve _ (parseRelative (some scheme) rest)).authority = none
  rw [parseRelative_path hpath]
  rfl

/-- A reference without a scheme leads to the base, and to what is left of the path part in it. -/
theorem curlUrlSet_relative (h : p.components ≠ [])
    (hscheme : splitScheme (urlEncode (dropSlash p.toPath)) = none) :
    (curlUrlSet base.toReference (dropSlash p.toPath)).scheme = base.scheme ∧
    (curlUrlSet base.toReference (dropSlash p.toPath)).authority = base.authority ∧
    removeDotSegments (curlUrlSet base.toReference (dropSlash p.toPath)).path =
      removeDotSegments (base.dir ++ '/' :: pathPart (urlEncode (dropSlash p.toPath))) := by
  set text := urlEncode (dropSlash p.toPath) with htext
  have hslash : ∀ rest, pathPart text ≠ '/' :: rest := by
    intro rest heq
    obtain ⟨more, hmore⟩ := pathPart_prefix text
    apply nil_not_mem_splitOn p h
    rw [← htext, ← hmore, heq]
    show [] ∈ ([] ++ '/' :: (rest ++ more)).splitOn '/'
    rw [List.splitOn_append_cons_self, List.splitOn_nil]
    exact List.mem_append_left _ (List.mem_singleton_self _)
  have hparse : parseReference text = ⟨none, none, pathPart text,
      afterFirst '?' (text.takeWhile (· != '#')), afterFirst '#' text⟩ := by
    rw [parseReference, hscheme]
    exact parseRelative_path (fun rest => hslash _) none
  have hdir : base.path = base.dir ++ ['/'] := base.path_eq
  rw [curlUrlSet, ← htext, hparse, resolve]
  simp only [Option.isSome_none, Bool.false_eq_true, if_false]
  by_cases hnil : pathPart text = []
  · rw [if_pos hnil, hnil]
    refine ⟨rfl, rfl, ?_⟩
    show removeDotSegments base.path = _
    rw [hdir]
  · rw [if_neg hnil]
    refine ⟨rfl, rfl, ?_⟩
    have hhead : (pathPart text).head? ≠ some '/' := by
      intro heq
      obtain ⟨rest, hrest⟩ := List.head?_eq_some_iff.mp heq
      exact hslash rest hrest
    have hmerge : mergePaths base.toReference (pathPart text) = base.dir ++ '/' :: pathPart text := by
      rw [mergePaths, if_neg (fun hall => by simp [hdir] at hall), hdir,
        List.rdropWhile_concat_neg _ _ _ (by decide), List.append_assoc]
      rfl
    show removeDotSegments (removeDotSegments (if (pathPart text).head? = some '/' then _ else _)) = _
    rw [if_neg hhead, hmerge, removeDotSegments_idem base.absolute]

/-- The name is kept exactly if it is a plain reference. -/
theorem namesBelow_iff (h : p.components ≠ []) :
    NamesBelow base (curlUrlSet base.toReference (dropSlash p.toPath)) (pathText (dropSlash p.toPath)) ↔
      PlainReference (dropSlash p.toPath) := by
  set path := dropSlash p.toPath with hpath
  have hbase : removeDotSegments base.path = removeDotSegments (base.dir ++ ['/']) :=
    congrArg _ base.path_eq
  by_cases hscheme : splitScheme (urlEncode path) = none
  swap
  · refine iff_of_false (fun hbelow => ?_) fun hplain => hscheme hplain.no_scheme
    have hnone := curlUrlSet_scheme base p h hscheme
    have hsome := base.authority_isSome
    rw [← hpath, hbelow.2.1] at hnone
    rw [hnone] at hsome
    exact nomatch hsome
  obtain ⟨hsch, hauth, hbelow⟩ := curlUrlSet_relative base p h hscheme
  rw [← hpath] at hsch hauth hbelow
  rcases pathPart_cases (urlEncode path) with ⟨hwhole, hquery, hfragment⟩ |
    ⟨hspecial, c, rest, hc, htext⟩
  · rw [hwhole, removeDotSegments_below base.absolute (not_dot_of_mem_splitOn p h), ← hbase] at hbelow
    constructor
    · rintro ⟨-, -, rest, hrest, hname⟩
      rw [hbelow, List.append_cancel_left_eq] at hrest
      rw [← hrest] at hname
      exact ⟨fun hmem => hquery (query_mem_urlEncode.mpr hmem),
        fun hmem => hfragment (fragment_mem_urlEncode.mpr hmem),
        (percentDecode_urlEncode_iff path).mp hname, hscheme⟩
    · intro hplain
      exact ⟨hsch, hauth, _, hbelow, (percentDecode_urlEncode_iff path).mpr hplain.no_escape⟩
  · refine iff_of_false ?_ ?_
    · -- what follows the path part is lost, so less is read back
      rintro ⟨-, -, below, hrest, hname⟩
      rw [hbelow, hbase] at hrest
      have hle := length_percentDecode_below base.absolute hrest
      have hlen := length_percentDecode_urlEncode_le path
      have hdecode : percentDecode (urlEncode path) =
          percentDecode (pathPart (urlEncode path)) ++ c :: percentDecode rest := by
        conv_lhs => rw [htext]
        rcases hc with rfl | rfl
        · exact percentDecode_append_cons (by decide) (by decide) _ _
        · exact percentDecode_append_cons (by decide) (by decide) _ _
      rw [hdecode, List.length_append, List.length_cons] at hlen
      rw [hname, pathText, List.length_map] at hle
      omega
    · intro hplain
      rcases hspecial with hmem | hmem
      · exact hplain.no_query (query_mem_urlEncode.mp hmem)
      · exact hplain.no_fragment (fragment_mem_urlEncode.mp hmem)

theorem plainReference_nil : PlainReference [] :=
  ⟨List.not_mem_nil, List.not_mem_nil, fun before a b after heq => by simp at heq, rfl⟩

/-- Both functions are right about a path exactly if it is a plain reference. -/
theorem namesPath_iff : NamesPath base p ↔ PlainReference (dropSlash p.toPath) := by
  by_cases h : p.components = []
  · have hnil := (dropSlash_eq_nil_iff p).mpr h
    rw [NamesPath, requestUrl, destinationUrl, if_pos hnil, hnil]
    refine iff_of_true ⟨⟨rfl, rfl, [], (List.append_nil _).symm, rfl⟩, rfl⟩ plainReference_nil
  · have hne : dropSlash p.toPath ≠ [] := fun hnil => h ((dropSlash_eq_nil_iff p).mp hnil)
    rw [NamesPath, requestUrl, destinationUrl, if_neg hne, namesBelow_iff base p h]
    exact and_iff_left rfl

end Path

/-- Names below one base with one resource are equal. -/
theorem NamesBelow.eq_of_resource {base : BaseUrl} {url url' : Reference} {name name' : Text}
    (h : NamesBelow base url name) (h' : NamesBelow base url' name')
    (heq : resourceOf url = resourceOf url') : name = name' := by
  obtain ⟨-, -, rest, hrest, rfl⟩ := h
  obtain ⟨-, -, rest', hrest', rfl⟩ := h'
  have hpath : percentDecode (removeDotSegments url.path) = percentDecode (removeDotSegments url'.path) :=
    congrArg ResourceName.path heq
  have hbase : removeDotSegments base.path = (dirParts base.dir).flatten ++ ['/'] :=
    (congrArg _ base.path_eq).trans (removeDotSegments_dir base.absolute)
  rw [hrest, hrest', hbase, List.append_assoc, List.append_assoc] at hpath
  have hslash : ('/' : Char) ≠ '%' ∧ hexValue '/' = none := by decide
  rw [List.singleton_append, List.singleton_append, percentDecode_append_cons hslash.1 hslash.2,
    percentDecode_append_cons hslash.1 hslash.2] at hpath
  exact (List.cons.inj (List.append_cancel_left hpath)).2

/-- Paths and resources correspond exactly if both paths are plain references. -/
theorem paths_correspond_iff (base : BaseUrl) {p q : FusePath} (hne : p.toPath ≠ q.toPath) :
    PathsCorrespond base p q ↔
      PlainReference (dropSlash p.toPath) ∧ PlainReference (dropSlash q.toPath) := by
  rw [PathsCorrespond, namesPath_iff, namesPath_iff]
  refine and_iff_right_of_imp ?_
  rintro ⟨hp, hq⟩ heq
  obtain ⟨hbelow, -⟩ := (namesPath_iff base p).mpr hp
  obtain ⟨hbelow', -⟩ := (namesPath_iff base q).mpr hq
  have hname := pathText_injective (hbelow.eq_of_resource hbelow' heq)
  exact hne (congrArg (47 :: ·) hname)

/-- The base `http://h/`. -/
def rootOfHost : BaseUrl where
  scheme := some "http".toList
  authority := some "h".toList
  path := "/".toList
  query := none
  fragment := none
  dir := []
  path_eq := rfl
  absolute := .inl rfl
  scheme_isSome := rfl
  authority_isSome := rfl

/-- A path of one component. -/
def FusePath.single (c : Path) (h : c ≠ []) (hslash : 47 ∉ c) (hnul : 0 ∉ c)
    (hdot : c ≠ [46] ∧ c ≠ [46, 46]) : FusePath where
  components := [c]
  nonempty := List.forall_mem_singleton.mpr h
  no_slash := List.forall_mem_singleton.mpr hslash
  no_nul := List.forall_mem_singleton.mpr hnul
  not_dot := List.forall_mem_singleton.mpr hdot

/-- The paths `/a` and `/b c`. -/
theorem paths_correspond_space : PathsCorrespond rootOfHost
    (.single [97] (by decide) (by decide) (by decide) (by decide))
    (.single [98, 32, 99] (by decide) (by decide) (by decide) (by decide)) :=
  (paths_correspond_iff rootOfHost (by decide)).mpr
    ⟨⟨by decide, by decide, (percentDecode_urlEncode_iff _).mp (by decide), by decide⟩,
      ⟨by decide, by decide, (percentDecode_urlEncode_iff _).mp (by decide), by decide⟩⟩

/-- The paths `/a` and `/a#b` have one resource. -/
theorem paths_collide : ¬PathsCorrespond rootOfHost
    (.single [97] (by decide) (by decide) (by decide) (by decide))
    (.single [97, 35, 98] (by decide) (by decide) (by decide) (by decide)) :=
  fun h => h.1 (by decide)

end NetworkFs.Wrapper
