import NetworkFs.Text.Percent

/-!
# References and their resolution

A reference as RFC 3986 has it, with its five components, and its resolution against a base.

* `removeDotSegments`: `.` and `..` are taken out of a path; `removeDotSegments_below` for a path
  below a directory, `removeDotSegments_idem` for a path without them.
* `parseReference`: the components of a text.
* `resolve`: the target of a reference.
* `length_percentDecode_below`: taking out `.` and `..` does not make a path longer.
-/

namespace NetworkFs.Text

/-! ## Dot segments -/

/-- A segment that names the directory itself or the one above it. -/
def isDot (segment : List Char) : Bool := segment == ['.'] || segment == ['.', '.']

/-- One segment, after the parts of the path before it. -/
def dotStep (out : List (List Char)) (segment : List Char) : List (List Char) :=
  if segment = ['.'] then out else if segment = ['.', '.'] then out.dropLast
  else out ++ ['/' :: segment]

/-- All segments; a last one that is a dot leaves a slash. -/
def removeDots (out segments : List (List Char)) : List (List Char) :=
  segments.foldl dotStep out ++ if segments.getLast?.any isDot then [['/']] else []

/-- Without the segments `.` and `..`. A path without a leading slash loses its leading dots; its
    first segment can be taken out by `..`, but not the slash after it. -/
def removeDotSegments (path : List Char) : List Char :=
  match path.splitOn '/' with
  | [] :: segments => (removeDots [] segments).flatten
  | segments =>
    match segments.dropWhile isDot with
    | [] => []
    | segment :: rest => (removeDots [segment] rest).flatten

example : removeDotSegments "/a/b/c/./../../g".toList = "/a/g".toList := by decide
example : removeDotSegments "mid/content=5/../6".toList = "mid/6".toList := by decide

/-! ## References -/

/-- A URL, or a reference that is relative to one, in its five components. -/
structure Reference where
  scheme : Option (List Char)
  authority : Option (List Char)
  path : List Char
  query : Option (List Char)
  fragment : Option (List Char)
deriving DecidableEq

/-- A character of a scheme. -/
def isSchemeChar (c : Char) : Bool := c.isAlphanum || c == '+' || c == '-' || c == '.'

/-- The scheme of a text and what follows its colon. -/
def splitScheme (text : List Char) : Option (List Char × List Char) :=
  match text.takeWhile isSchemeChar, text.dropWhile isSchemeChar with
  | first :: scheme, ':' :: rest => if first.isAlpha then some (first :: scheme, rest) else none
  | _, _ => none

/-- What follows the first `c`. -/
def afterFirst (c : Char) (text : List Char) : Option (List Char) :=
  match text.dropWhile (· != c) with
  | [] => none
  | _ :: rest => some rest

/-- The components of a text without a scheme. -/
def parseRelative (scheme : Option (List Char)) (text : List Char) : Reference :=
  let front := text.takeWhile (· != '#')
  let fragment := afterFirst '#' text
  let query := afterFirst '?' front
  match front.takeWhile (· != '?') with
  | '/' :: '/' :: rest =>
    ⟨scheme, some (rest.takeWhile (· != '/')), rest.dropWhile (· != '/'), query, fragment⟩
  | path => ⟨scheme, none, path, query, fragment⟩

/-- The components of a text. -/
def parseReference (text : List Char) : Reference :=
  match splitScheme text with
  | some (scheme, rest) => parseRelative (some scheme) rest
  | none => parseRelative none text

/-- `path` in the directory of the base. -/
def mergePaths (base : Reference) (path : List Char) : List Char :=
  if base.authority.isSome ∧ base.path = [] then '/' :: path
  else base.path.rdropWhile (· != '/') ++ path

/-- The target of `ref` relative to `base`. -/
def resolve (base ref : Reference) : Reference :=
  if ref.scheme.isSome then { ref with path := removeDotSegments ref.path }
  else if ref.authority.isSome then
    { ref with scheme := base.scheme, path := removeDotSegments ref.path }
  else if ref.path = [] then
    { base with query := ref.query <|> base.query, fragment := ref.fragment }
  else
    { ref with
      scheme := base.scheme
      authority := base.authority
      path := removeDotSegments
        (if ref.path.head? = some '/' then ref.path else mergePaths base ref.path) }

example : resolve (parseReference "http://a/b/c/d;p?q".toList) (parseReference "../g?y".toList) =
    parseReference "http://a/b/g?y".toList := by decide

theorem splitScheme_eq_some {text scheme rest : List Char}
    (h : splitScheme text = some (scheme, rest)) : text = scheme ++ ':' :: rest := by
  unfold splitScheme at h
  split at h
  · rename_i first scheme' rest' htake hdrop
    split_ifs at h
    obtain ⟨rfl, rfl⟩ := Prod.mk.inj (Option.some.inj h)
    rw [← htake, ← hdrop, List.takeWhile_append_dropWhile]
  · exact nomatch h

/-- The text of a relative reference up to its query or fragment. -/
def pathPart (text : List Char) : List Char := (text.takeWhile (· != '#')).takeWhile (· != '?')

/-- Without two slashes at the beginning there is no authority. -/
theorem parseRelative_path {text : List Char} (h : ∀ rest, pathPart text ≠ '/' :: '/' :: rest)
    (scheme : Option (List Char)) :
    parseRelative scheme text = ⟨scheme, none, pathPart text,
      afterFirst '?' (text.takeWhile (· != '#')), afterFirst '#' text⟩ := by
  unfold parseRelative
  dsimp only
  split
  · rename_i rest heq
    exact absurd heq (h rest)
  · rfl

theorem takeWhile_ne_eq_self {c : Char} {text : List Char} (h : c ∉ text) :
    text.takeWhile (· != c) = text := by
  rw [List.takeWhile_eq_self_iff]
  intro x hx
  rw [bne_iff_ne]
  exact fun heq => h (heq ▸ hx)

theorem exists_of_takeWhile_ne {c : Char} {text : List Char} (h : c ∈ text) :
    ∃ rest, text = text.takeWhile (· != c) ++ c :: rest := by
  induction text with
  | nil => exact absurd h List.not_mem_nil
  | cons d text ih =>
    by_cases hd : d = c
    · subst hd
      exact ⟨text, by simp⟩
    · obtain ⟨rest, hrest⟩ := ih ((List.mem_cons.mp h).resolve_left fun heq => hd heq.symm)
      refine ⟨rest, ?_⟩
      rw [List.takeWhile_cons_of_pos (by simp [hd]), List.cons_append, ← hrest]

/-- The path part is the whole text, or a query or a fragment follows it. -/
theorem pathPart_cases (text : List Char) :
    pathPart text = text ∧ '?' ∉ text ∧ '#' ∉ text ∨
      ('?' ∈ text ∨ '#' ∈ text) ∧ ∃ c rest, (c = '?' ∨ c = '#') ∧ text = pathPart text ++ c :: rest := by
  by_cases hfragment : '#' ∈ text
  · obtain ⟨rest, hrest⟩ := exists_of_takeWhile_ne hfragment
    set front := text.takeWhile (· != '#') with hfront
    right
    refine ⟨.inr hfragment, ?_⟩
    by_cases hquery : '?' ∈ front
    · obtain ⟨rest', hrest'⟩ := exists_of_takeWhile_ne hquery
      refine ⟨'?', rest' ++ '#' :: rest, .inl rfl, ?_⟩
      rw [pathPart, ← hfront, ← List.cons_append, ← List.append_assoc, ← hrest', ← hrest]
    · refine ⟨'#', rest, .inr rfl, ?_⟩
      rw [pathPart, ← hfront, takeWhile_ne_eq_self hquery, ← hrest]
  · rw [pathPart, takeWhile_ne_eq_self hfragment]
    by_cases hquery : '?' ∈ text
    · obtain ⟨rest, hrest⟩ := exists_of_takeWhile_ne hquery
      exact .inr ⟨.inl hquery, '?', rest, .inl rfl, hrest⟩
    · exact .inl ⟨takeWhile_ne_eq_self hquery, hquery, hfragment⟩

theorem pathPart_prefix (text : List Char) : pathPart text <+: text :=
  (List.takeWhile_prefix _).trans (List.takeWhile_prefix _)

/-! ## Paths below a directory -/

theorem dotStep_of_not_dot {segment : List Char} (h : isDot segment = false)
    (out : List (List Char)) : dotStep out segment = out ++ ['/' :: segment] := by
  rw [isDot, Bool.or_eq_false_iff, beq_eq_false_iff_ne, beq_eq_false_iff_ne] at h
  rw [dotStep, if_neg h.1, if_neg h.2]

/-- Segments without dots are added. -/
theorem foldl_dotStep {segments : List (List Char)} (h : ∀ s ∈ segments, isDot s = false)
    (out : List (List Char)) : segments.foldl dotStep out = out ++ segments.map ('/' :: ·) := by
  induction segments generalizing out with
  | nil => exact (List.append_nil out).symm
  | cons s segments ih =>
    rw [List.foldl_cons, dotStep_of_not_dot (h s List.mem_cons_self),
      ih fun s' hs' => h s' (List.mem_cons_of_mem _ hs'), List.append_assoc]
    rfl

theorem removeDots_of_not_dot {segments : List (List Char)} (h : ∀ s ∈ segments, isDot s = false)
    (out : List (List Char)) : removeDots out segments = out ++ segments.map ('/' :: ·) := by
  have hlast : segments.getLast?.any isDot = false := by
    rcases hl : segments.getLast? with _ | s
    · rfl
    · exact h s (List.mem_of_getLast? hl)
  rw [removeDots, foldl_dotStep h, hlast, if_neg Bool.false_ne_true, List.append_nil]

/-- The segments with a slash before each. -/
theorem flatten_splitOn (path : List Char) :
    ((path.splitOn '/').map ('/' :: ·)).flatten = '/' :: path := by
  have hjoin : ∀ segments : List (List Char), segments ≠ [] →
      (segments.map ('/' :: ·)).flatten = '/' :: List.intercalate ['/'] segments := by
    intro segments
    induction segments with
    | nil => exact fun h => absurd rfl h
    | cons s segments ih =>
      intro _
      cases segments with
      | nil => simp
      | cons s' segments =>
        rw [List.map_cons, List.flatten_cons, ih (List.cons_ne_nil _ _)]
        simp
  rw [hjoin _ (List.splitOn_ne_nil _ _), List.intercalate_splitOn]

/-- The parts of a directory: `dir` is empty or starts with a slash. -/
def dirParts (dir : List Char) : List (List Char) := (dir.splitOn '/').tail.foldl dotStep []

theorem removeDotSegments_append {dir : List Char} (h : dir = [] ∨ dir.head? = some '/')
    (path : List Char) :
    removeDotSegments (dir ++ '/' :: path) =
      (removeDots (dirParts dir) (path.splitOn '/')).flatten := by
  obtain ⟨segments, hsegments⟩ : ∃ segments, dir.splitOn '/' = [] :: segments := by
    rcases h with rfl | h
    · exact ⟨[], List.splitOn_nil _⟩
    · obtain ⟨rest, rfl⟩ := List.head?_eq_some_iff.mp h
      exact ⟨rest.splitOn '/', List.splitOn_append_cons_self [] rest⟩
  have hne : path.splitOn '/' ≠ [] := List.splitOn_ne_nil _ _
  rw [removeDotSegments, List.splitOn_append_cons_self, hsegments, dirParts, hsegments]
  show (removeDots [] (segments ++ path.splitOn '/')).flatten = _
  rw [removeDots, removeDots, List.foldl_append, List.getLast?_append_of_ne_nil _ hne]
  rfl

/-- The directory itself. -/
theorem removeDotSegments_dir {dir : List Char} (h : dir = [] ∨ dir.head? = some '/') :
    removeDotSegments (dir ++ ['/']) = (dirParts dir).flatten ++ ['/'] := by
  rw [removeDotSegments_append h [], List.splitOn_nil, removeDots_of_not_dot, List.flatten_append]
  · rfl
  · simp [isDot]

/-- A path without dots stays below the directory. -/
theorem removeDotSegments_below {dir path : List Char} (h : dir = [] ∨ dir.head? = some '/')
    (hpath : ∀ s ∈ path.splitOn '/', isDot s = false) :
    removeDotSegments (dir ++ '/' :: path) = removeDotSegments (dir ++ ['/']) ++ path := by
  rw [removeDotSegments_append h, removeDotSegments_dir h, removeDots_of_not_dot hpath,
    List.flatten_append, flatten_splitOn, List.append_assoc]
  rfl

/-! ## Parts without dots -/

/-- A part of a path: a slash and a segment that is no dot. -/
def IsPart (part : List Char) : Prop := ∃ s, part = '/' :: s ∧ '/' ∉ s ∧ isDot s = false

theorem not_mem_of_mem_splitOn {path s : List Char} (h : s ∈ path.splitOn '/') : '/' ∉ s := by
  induction path generalizing s with
  | nil =>
    rw [List.splitOn_nil, List.mem_singleton] at h
    rw [h]
    exact List.not_mem_nil
  | cons c path ih =>
    rw [List.splitOn_cons_eq_if_modifyHead] at h
    split_ifs at h with hc
    · rcases List.mem_cons.mp h with rfl | h
      · exact List.not_mem_nil
      · exact ih h
    · obtain ⟨s', rest, hsplit⟩ := List.exists_cons_of_ne_nil (List.splitOn_ne_nil '/' path)
      rw [hsplit, List.modifyHead_cons] at h
      rcases List.mem_cons.mp h with rfl | h
      · intro hmem
        rcases List.mem_cons.mp hmem with heq | hmem
        · exact hc (beq_iff_eq.mpr heq.symm)
        · exact ih (by rw [hsplit]; exact List.mem_cons_self) hmem
      · exact ih (by rw [hsplit]; exact List.mem_cons_of_mem _ h)

theorem parts_dotStep {out : List (List Char)} (hout : ∀ part ∈ out, IsPart part) {s : List Char}
    (hs : '/' ∉ s) : ∀ part ∈ dotStep out s, IsPart part := by
  intro part hpart
  unfold dotStep at hpart
  split_ifs at hpart with hdot hdots
  · exact hout part hpart
  · exact hout part (List.mem_of_mem_dropLast hpart)
  · rcases List.mem_append.mp hpart with hpart | hpart
    · exact hout part hpart
    · refine ⟨s, List.mem_singleton.mp hpart, hs, ?_⟩
      rw [isDot, Bool.or_eq_false_iff, beq_eq_false_iff_ne, beq_eq_false_iff_ne]
      exact ⟨hdot, hdots⟩

theorem parts_foldl {segments : List (List Char)} (hsegments : ∀ s ∈ segments, '/' ∉ s)
    {out : List (List Char)} (hout : ∀ part ∈ out, IsPart part) :
    ∀ part ∈ segments.foldl dotStep out, IsPart part := by
  induction segments generalizing out with
  | nil => exact hout
  | cons s segments ih =>
    exact ih (fun s' hs' => hsegments s' (List.mem_cons_of_mem _ hs'))
      (parts_dotStep hout (hsegments s List.mem_cons_self))

theorem parts_removeDots {segments : List (List Char)} (hsegments : ∀ s ∈ segments, '/' ∉ s)
    {out : List (List Char)} (hout : ∀ part ∈ out, IsPart part) :
    ∀ part ∈ removeDots out segments, IsPart part := by
  intro part hpart
  rcases List.mem_append.mp hpart with hpart | hpart
  · exact parts_foldl hsegments hout part hpart
  · split_ifs at hpart
    · exact ⟨[], List.mem_singleton.mp hpart, List.not_mem_nil, rfl⟩
    · exact absurd hpart List.not_mem_nil

theorem parts_dirParts (dir : List Char) : ∀ part ∈ dirParts dir, IsPart part :=
  parts_foldl (fun _ hs => not_mem_of_mem_splitOn (List.mem_of_mem_tail hs)) nofun

/-- In a path of parts nothing is taken out. -/
theorem removeDotSegments_parts {parts : List (List Char)} (h : ∀ part ∈ parts, IsPart part) :
    removeDotSegments parts.flatten = parts.flatten := by
  have hsplit : ∃ segments, parts.flatten.splitOn '/' = [] :: segments ∧
      parts = segments.map ('/' :: ·) ∧ ∀ s ∈ segments, isDot s = false := by
    induction parts using List.reverseRecOn with
    | nil => exact ⟨[], rfl, rfl, nofun⟩
    | append_singleton parts part ih =>
      obtain ⟨segments, hsplit, hparts, hdot⟩ := ih fun part' hpart' =>
        h part' (List.mem_append_left _ hpart')
      obtain ⟨s, rfl, hslash, hs⟩ := h part (List.mem_append_right _ (List.mem_singleton_self _))
      refine ⟨segments ++ [s], ?_, ?_, ?_⟩
      · rw [List.flatten_append, List.flatten_singleton, List.splitOn_append_cons_self, hsplit,
          List.splitOn_eq_singleton hslash]
        rfl
      · rw [List.map_append, ← hparts]
        rfl
      · intro s' hs'
        rcases List.mem_append.mp hs' with hs' | hs'
        · exact hdot s' hs'
        · rw [List.mem_singleton.mp hs']
          exact hs
  obtain ⟨segments, hsplit, hparts, hdot⟩ := hsplit
  rw [removeDotSegments, hsplit]
  show (removeDots [] segments).flatten = _
  rw [removeDots_of_not_dot hdot, hparts, List.nil_append]

/-- Taking dots out again changes nothing. -/
theorem removeDotSegments_idem {dir : List Char} (h : dir = [] ∨ dir.head? = some '/')
    (path : List Char) :
    removeDotSegments (removeDotSegments (dir ++ '/' :: path)) =
      removeDotSegments (dir ++ '/' :: path) := by
  rw [removeDotSegments_append h]
  exact removeDotSegments_parts (parts_removeDots (fun _ hs => not_mem_of_mem_splitOn hs)
    (parts_dirParts dir))

/-! ## Lengths -/

theorem hexValue_slash : hexValue '/' = none := by decide

/-- The length of the decoded path. -/
def decodedLength (parts : List (List Char)) : ℕ := (percentDecode parts.flatten).length

theorem decodedLength_concat (parts : List (List Char)) (s : List Char) :
    decodedLength (parts ++ ['/' :: s]) = decodedLength parts + (1 + (percentDecode s).length) := by
  rw [decodedLength, List.flatten_append, List.flatten_singleton,
    percentDecode_append_cons (by decide) hexValue_slash, List.length_append, List.length_cons,
    decodedLength]
  omega

theorem decodedLength_dotStep {out : List (List Char)} (hout : ∀ part ∈ out, IsPart part)
    (s : List Char) :
    decodedLength (dotStep out s) ≤ decodedLength out +
      if isDot s then 0 else 1 + (percentDecode s).length := by
  by_cases hdot : s = ['.']
  · rw [dotStep, if_pos hdot]
    exact Nat.le_add_right _ _
  by_cases hdots : s = ['.', '.']
  · rw [dotStep, if_neg hdot, if_pos hdots]
    rcases List.eq_nil_or_concat out with rfl | ⟨init, part, rfl⟩
    · exact Nat.le_add_right _ _
    · obtain ⟨s', rfl, -, -⟩ := hout part (by simp)
      rw [List.concat_eq_append, List.dropLast_concat, decodedLength_concat]
      omega
  · have hs : isDot s = false := by
      rw [isDot, Bool.or_eq_false_iff, beq_eq_false_iff_ne, beq_eq_false_iff_ne]
      exact ⟨hdot, hdots⟩
    rw [dotStep_of_not_dot hs, hs, if_neg Bool.false_ne_true]
    exact (decodedLength_concat out s).le

/-- Without its dots a path is not longer. -/
theorem decodedLength_foldl {segments : List (List Char)} (hsegments : ∀ s ∈ segments, '/' ∉ s)
    {out : List (List Char)} (hout : ∀ part ∈ out, IsPart part) :
    decodedLength (segments.foldl dotStep out) ≤ decodedLength out +
      (segments.map fun s => if isDot s then 0 else 1 + (percentDecode s).length).sum := by
  induction segments generalizing out with
  | nil => exact Nat.le_refl _
  | cons s segments ih =>
    have hstep := decodedLength_dotStep hout s
    have hrest := ih (fun s' hs' => hsegments s' (List.mem_cons_of_mem _ hs'))
      (parts_dotStep hout (hsegments s List.mem_cons_self))
    rw [List.foldl_cons, List.map_cons, List.sum_cons]
    omega

theorem decodedLength_removeDots {segments : List (List Char)} (hsegments : ∀ s ∈ segments, '/' ∉ s)
    {out : List (List Char)} (hout : ∀ part ∈ out, IsPart part) :
    decodedLength (removeDots out segments) ≤
      decodedLength out + (segments.map fun s => 1 + (percentDecode s).length).sum := by
  have hfold := decodedLength_foldl hsegments hout
  have hterms : ∀ segments : List (List Char),
      (segments.map fun s => if isDot s then 0 else 1 + (percentDecode s).length).sum ≤
        (segments.map fun s => 1 + (percentDecode s).length).sum := by
    intro segments
    refine List.sum_le_sum fun s _ => ?_
    split_ifs
    · exact Nat.zero_le _
    · exact Nat.le_refl _
  unfold removeDots
  split_ifs with hlast
  · -- the last segment gave nothing, and its slash is made up for by its own
    rcases List.eq_nil_or_concat segments with rfl | ⟨init, s, rfl⟩
    · exact absurd hlast Bool.false_ne_true
    · rw [List.concat_eq_append, List.getLast?_concat] at hlast
      have hs : isDot s = true := hlast
      have hinit := hterms init
      rw [List.concat_eq_append, List.map_append, List.sum_append, List.map_singleton,
        List.sum_singleton, hs, if_pos rfl] at hfold
      rw [decodedLength_concat, List.concat_eq_append, List.map_append, List.sum_append,
        List.map_singleton, List.sum_singleton]
      have hnil : (percentDecode []).length = 0 := rfl
      omega
  · rw [List.append_nil]
    exact hfold.trans (Nat.add_le_add_left (hterms segments) _)

/-- What lies below a directory after the dots of a path were taken out is not longer than the
    path. -/
theorem length_percentDecode_below {dir path rest : List Char}
    (h : dir = [] ∨ dir.head? = some '/')
    (hbelow : removeDotSegments (dir ++ '/' :: path) = removeDotSegments (dir ++ ['/']) ++ rest) :
    (percentDecode rest).length ≤ (percentDecode path).length := by
  have hparts := parts_dirParts dir
  have hsum : ∀ segments : List (List Char),
      decodedLength (segments.map ('/' :: ·)) =
        (segments.map fun s => 1 + (percentDecode s).length).sum := by
    intro segments
    induction segments using List.reverseRecOn with
    | nil => rfl
    | append_singleton segments s ih =>
      rw [List.map_append, List.map_append, List.sum_append, ← ih]
      exact decodedLength_concat _ s
  have hpath : decodedLength ((path.splitOn '/').map ('/' :: ·)) = 1 + (percentDecode path).length := by
    rw [decodedLength, flatten_splitOn, percentDecode_literal (by decide), List.length_cons]
    omega
  have hslash : ∀ s ∈ path.splitOn '/', '/' ∉ s := fun _ hs => not_mem_of_mem_splitOn hs
  have hle := decodedLength_removeDots hslash hparts
  rw [← hsum, hpath] at hle
  rw [removeDotSegments_append h, removeDotSegments_dir h, List.append_assoc] at hbelow
  have hrest : decodedLength (dirParts dir ++ ['/' :: rest]) =
      decodedLength (removeDots (dirParts dir) (path.splitOn '/')) := by
    rw [decodedLength, decodedLength, hbelow, List.flatten_append, List.flatten_singleton]
    rfl
  rw [decodedLength_concat] at hrest
  omega

end NetworkFs.Text
