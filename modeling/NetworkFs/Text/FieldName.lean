import Mathlib

/-!
# Field names

A header line is its field name, a colon and a value. HTTP does not distinguish the case of
the letters of a field name.

* `starts_iff`: to start with a name and its colon is to have this field name.
* `Recased`: the same line with other letters in its name.
* `recased_spelled`, `recased_lower`: the name spelled as wanted, and in lower case.
-/

namespace NetworkFs.Text

/-- What stands before the colon. -/
def fieldName (line : List Char) : List Char := line.takeWhile (· ≠ ':')

/-- The colon and what follows it. -/
def fieldBody (line : List Char) : List Char := line.dropWhile (· ≠ ':')

/-- What follows the colon. -/
def fieldValue (line : List Char) : List Char := (fieldBody line).drop 1

/-- `line'` is `line` with other cases of letters in its field name. -/
structure Recased (line line' : List Char) : Prop where
  body : fieldBody line' = fieldBody line
  name : (fieldName line').map Char.toLower = (fieldName line).map Char.toLower
  noField : ':' ∉ line → line' = line

/-- The field name with its colon is `name`, up to the case of letters. -/
def Named (name line : List Char) : Prop :=
  ':' ∈ line ∧ (fieldName line ++ [':']).map Char.toLower = name.map Char.toLower

instance (name line : List Char) : Decidable (Named name line) := instDecidableAnd

/-- `name` is a field name with its colon. -/
def IsName (name : List Char) : Prop := ∃ letters, name = letters ++ [':'] ∧ ':' ∉ letters

/-- The line with its field name spelled as `name`. -/
def spelled (name line : List Char) : List Char := name ++ fieldValue line

/-- The line with its field name in lower case. -/
def lowered (line : List Char) : List Char :=
  if ':' ∈ line then (fieldName line).map Char.toLower ++ fieldBody line else line

variable {name line line' : List Char}

theorem fieldName_append_fieldBody (line : List Char) : fieldName line ++ fieldBody line = line :=
  List.takeWhile_append_dropWhile

theorem colon_not_mem_fieldName (line : List Char) : ':' ∉ fieldName line := by
  intro hmem
  have hne := List.mem_takeWhile_imp hmem
  simp at hne

theorem fieldBody_eq (h : ':' ∈ line) : fieldBody line = ':' :: fieldValue line := by
  rcases hbody : fieldBody line with _ | ⟨c, rest⟩
  · have hname := fieldName_append_fieldBody line
    rw [hbody, List.append_nil] at hname
    rw [← hname] at h
    exact absurd h (colon_not_mem_fieldName line)
  · have hc : c = ':' := by
      have hnot := List.head?_dropWhile_not (· ≠ ':') line
      rw [show line.dropWhile (· ≠ ':') = c :: rest from hbody] at hnot
      simpa using hnot
    rw [fieldValue, hbody, hc]
    rfl

theorem fieldBody_eq_nil_iff : fieldBody line = [] ↔ ':' ∉ line := by
  rw [fieldBody, List.dropWhile_eq_nil_iff]
  constructor
  · intro hall hmem
    have hne := hall ':' hmem
    simp at hne
  · intro hnot c hc
    have hne : c ≠ ':' := fun heq => hnot (heq ▸ hc)
    simpa using hne

section Split

variable {letters : List Char} (h : ':' ∉ letters) (rest : List Char)

include h

theorem fieldName_of_split : fieldName (letters ++ ':' :: rest) = letters := by
  rw [fieldName, List.takeWhile_append_of_pos]
  · simp
  · intro c hc
    have hne : c ≠ ':' := fun heq => h (heq ▸ hc)
    simpa using hne

theorem fieldBody_of_split : fieldBody (letters ++ ':' :: rest) = ':' :: rest := by
  have hboth := fieldName_append_fieldBody (letters ++ ':' :: rest)
  rw [fieldName_of_split h] at hboth
  exact List.append_cancel_left hboth

end Split

/-- A line starts with a name and its colon exactly when it has this field name. -/
theorem starts_iff (hname : IsName name) :
    name <+: line ↔ ':' ∈ line ∧ fieldName line ++ [':'] = name := by
  obtain ⟨letters, rfl, hletters⟩ := hname
  constructor
  · rintro ⟨rest, rfl⟩
    rw [List.append_assoc, List.singleton_append, fieldName_of_split hletters]
    exact ⟨by simp, rfl⟩
  · rintro ⟨hmem, heq⟩
    refine ⟨fieldValue line, ?_⟩
    rw [← heq, List.append_assoc, List.singleton_append, ← fieldBody_eq hmem,
      fieldName_append_fieldBody]

/-- What starts with a name has this name. -/
theorem named_of_starts (hname : IsName name) (h : name <+: line) : Named name line := by
  obtain ⟨hmem, heq⟩ := (starts_iff hname).mp h
  exact ⟨hmem, by rw [heq]⟩

/-! ## Other letters -/

theorem toLower_eq_colon {c : Char} (h : c.toLower = ':') : c = ':' := by
  have halpha : c.isAlpha = false := by
    rw [← Char.isAlpha_toLower_eq_isAlpha, h]
    decide
  have hupper : ¬c.isUpper = true := by
    intro hupper
    rw [Char.isAlpha, hupper] at halpha
    exact absurd halpha (by simp)
  rw [← h, Char.toLower_eq_of_not_isUpper hupper]

theorem colon_not_mem_lower {letters : List Char} (h : ':' ∉ letters) :
    ':' ∉ letters.map Char.toLower := by
  intro hmem
  obtain ⟨c, hc, hlower⟩ := List.mem_map.mp hmem
  exact h (toLower_eq_colon hlower ▸ hc)

theorem recased_refl (line : List Char) : Recased line line := ⟨rfl, rfl, fun _ => rfl⟩

theorem Recased.colon (h : Recased line line') : ':' ∈ line' ↔ ':' ∈ line := by
  rw [← not_iff_not, ← fieldBody_eq_nil_iff, h.body, fieldBody_eq_nil_iff]

theorem Recased.value (h : Recased line line') : fieldValue line' = fieldValue line := by
  rw [fieldValue, h.body, fieldValue]

theorem Recased.named (h : Recased line line') : Named name line' ↔ Named name line := by
  rw [Named, Named, h.colon, List.map_append, List.map_append, h.name]

/-- A line ends in the same way when its field name is spelled differently. -/
theorem Recased.getLast (h : Recased line line') : line'.getLast? = line.getLast? := by
  by_cases hmem : ':' ∈ line
  · have hne : fieldBody line ≠ [] := fun hnil => fieldBody_eq_nil_iff.mp hnil hmem
    rw [← fieldName_append_fieldBody line', ← fieldName_append_fieldBody line, h.body,
      List.getLast?_append_of_ne_nil _ hne, List.getLast?_append_of_ne_nil _ hne]
  · rw [h.noField hmem]

/-- The name of a line spelled as wanted. -/
theorem recased_spelled (hname : IsName name) (h : Named name line) :
    Recased line (spelled name line) := by
  obtain ⟨letters, rfl, hletters⟩ := hname
  have hsplit : spelled (letters ++ [':']) line = letters ++ ':' :: fieldValue line := by
    rw [spelled, List.append_assoc, List.singleton_append]
  refine ⟨?_, ?_, fun hnot => absurd h.1 hnot⟩
  · rw [hsplit, fieldBody_of_split hletters, fieldBody_eq h.1]
  · rw [hsplit, fieldName_of_split hletters]
    have hnames := h.2
    rw [List.map_append, List.map_append] at hnames
    exact (List.append_cancel_right hnames).symm

theorem fieldName_lowered (h : ':' ∈ line) :
    fieldName (lowered line) = (fieldName line).map Char.toLower := by
  rw [lowered, if_pos h, fieldBody_eq h,
    fieldName_of_split (colon_not_mem_lower (colon_not_mem_fieldName line))]

/-- The name of a line in lower case. -/
theorem recased_lowered (line : List Char) : Recased line (lowered line) := by
  by_cases h : ':' ∈ line
  · refine ⟨?_, ?_, fun hnot => absurd h hnot⟩
    · rw [lowered, if_pos h, fieldBody_eq h,
        fieldBody_of_split (colon_not_mem_lower (colon_not_mem_fieldName line))]
    · rw [fieldName_lowered h, List.map_map]
      refine List.map_congr_left fun c _ => ?_
      exact Char.toLower_toLower_eq_toLower c
  · rw [lowered, if_neg h]
    exact recased_refl line

/-- A name with a capital letter is not in lower case. -/
theorem not_starts_lowered (hname : IsName name) (hcapital : name.map Char.toLower ≠ name) :
    ¬name <+: lowered line := by
  intro hstarts
  obtain ⟨hmem, heq⟩ := (starts_iff hname).mp hstarts
  rw [(recased_lowered line).colon] at hmem
  apply hcapital
  rw [← heq, fieldName_lowered hmem, List.map_append, List.map_map]
  congr 1
  refine List.map_congr_left fun c _ => ?_
  exact Char.toLower_toLower_eq_toLower c

end NetworkFs.Text
