import NetworkFs.Data.Calendar
import NetworkFs.Text.Numeral

/-!
# Printing and reading dates

`strftime` and `strptime` in the C locale, for the conversions `%Y`, `%m`, `%d`, `%b`, `%a`,
`%H`, `%M`, `%S` and the combinations `%F` and `%T`. `strptime` fills the fields its format
names and leaves the others of the `struct tm` as they are.

* `readNumber_padded`: a number printed to its full width is read back.
* `strptime_strftime`: `strptime` on what `strftime` printed with the same format, if each
  directive reads back what it printed.
* `read_long_year`: of a year of more than four digits some are left.
-/

namespace NetworkFs.Text

open Data

/-- `struct tm`. -/
structure Tm where
  sec : ℤ
  min : ℤ
  hour : ℤ
  mday : ℤ
  mon : ℤ
  year : ℤ
  wday : ℤ
  yday : ℤ
  isdst : ℤ

/-! ## Formats -/

/-- One item of a format: a character, white space or a conversion. -/
inductive Directive where
  | lit (c : Char)
  | space
  | year
  | month
  | day
  | monthName
  | weekday
  | hour
  | minute
  | second
  deriving DecidableEq

/-- The directives of a format; `none` for a conversion that is not modelled. -/
def directives : List Char → Option (List Directive)
  | [] => some []
  | '%' :: 'Y' :: format => (.year :: ·) <$> directives format
  | '%' :: 'm' :: format => (.month :: ·) <$> directives format
  | '%' :: 'd' :: format => (.day :: ·) <$> directives format
  | '%' :: 'b' :: format => (.monthName :: ·) <$> directives format
  | '%' :: 'a' :: format => (.weekday :: ·) <$> directives format
  | '%' :: 'H' :: format => (.hour :: ·) <$> directives format
  | '%' :: 'M' :: format => (.minute :: ·) <$> directives format
  | '%' :: 'S' :: format => (.second :: ·) <$> directives format
  | '%' :: 'F' :: format =>
    ([.year, .lit '-', .month, .lit '-', .day] ++ ·) <$> directives format
  | '%' :: 'T' :: format =>
    ([.hour, .lit ':', .minute, .lit ':', .second] ++ ·) <$> directives format
  | '%' :: _ => none
  | c :: format => ((if isSpace c then .space else .lit c) :: ·) <$> directives format

/-! ## `strftime` -/

/-- The weekdays of the C locale. An abbreviation is the first three letters. -/
def weekdayNames : List (List Char) :=
  ["Sunday".toList, "Monday".toList, "Tuesday".toList, "Wednesday".toList, "Thursday".toList,
    "Friday".toList, "Saturday".toList]

/-- The months of the C locale. -/
def monthNames : List (List Char) :=
  ["January".toList, "February".toList, "March".toList, "April".toList, "May".toList,
    "June".toList, "July".toList, "August".toList, "September".toList, "October".toList,
    "November".toList, "December".toList]

/-- The abbreviation of the name at an index. -/
def abbreviation (names : List (List Char)) (i : ℕ) : List Char := (names.getD i []).take 3

/-- A number with zeros in front, to at least `width` digits. -/
def padded (width n : ℕ) : List Char :=
  List.replicate (width - (Nat.toDigits 10 n).length) '0' ++ Nat.toDigits 10 n

/-- The text `strftime` writes for an item. -/
def Directive.print (c : CivilTime) : Directive → List Char
  | lit ch => [ch]
  | space => [' ']
  | year => padded 4 c.year
  | month => padded 2 c.month
  | day => padded 2 c.day
  | monthName => abbreviation monthNames (c.month - 1)
  | weekday => abbreviation weekdayNames c.weekday
  | hour => padded 2 c.hour
  | minute => padded 2 c.minute
  | second => padded 2 c.second

/-- `strftime` with the fields of a date. -/
def strftime (format : List Char) (c : CivilTime) : List Char :=
  ((directives format).getD []).flatMap (Directive.print c)

/-! ## `strptime` -/

/-- White space, then a number of at most `width` digits between `low` and `high`. -/
def readNumber (low high width : ℕ) (text : List Char) : Option (ℕ × List Char) :=
  let text := text.dropWhile isSpace
  let digits := (text.take width).takeWhile (isDigitOf 10)
  let value := Nat.ofDigitChars 10 digits 0
  if digits ≠ [] ∧ low ≤ value ∧ value ≤ high then some (value, text.drop digits.length) else none

/-- Is `name` at the start of `text`, without regard to case? -/
def startsName (name text : List Char) : Bool :=
  (text.take name.length).map Char.toLower == name.map Char.toLower

/-- One of `names` or its abbreviation: the index of the name. -/
def readName (names : List (List Char)) (text : List Char) : Option (ℕ × List Char) :=
  names.zipIdx.findSome? fun (name, i) =>
    if startsName name text then some (i, text.drop name.length)
    else if startsName (name.take 3) text then some (i, text.drop 3)
    else none

/-- What `strptime` reads for an item, and what is left of the text. -/
def Directive.read : Directive → Tm × List Char → Option (Tm × List Char)
  | lit _, (_, []) => none
  | lit ch, (tm, c :: text) => if c = ch then some (tm, text) else none
  | space, (tm, text) => some (tm, text.dropWhile isSpace)
  | year, (tm, text) =>
    (readNumber 0 9999 4 text).map fun r => ({ tm with year := (r.1 : ℤ) - 1900 }, r.2)
  | month, (tm, text) =>
    (readNumber 1 12 2 text).map fun r => ({ tm with mon := (r.1 : ℤ) - 1 }, r.2)
  | day, (tm, text) => (readNumber 1 31 2 text).map fun r => ({ tm with mday := r.1 }, r.2)
  | monthName, (tm, text) => (readName monthNames text).map fun r => ({ tm with mon := r.1 }, r.2)
  | weekday, (tm, text) =>
    (readName weekdayNames text).map fun r => ({ tm with wday := r.1 }, r.2)
  | hour, (tm, text) => (readNumber 0 23 2 text).map fun r => ({ tm with hour := r.1 }, r.2)
  | minute, (tm, text) => (readNumber 0 59 2 text).map fun r => ({ tm with min := r.1 }, r.2)
  | second, (tm, text) => (readNumber 0 61 2 text).map fun r => ({ tm with sec := r.1 }, r.2)

/-- The directives of a format, one after the other. -/
def readAll (ds : List Directive) (st : Tm × List Char) : Option (Tm × List Char) :=
  ds.foldlM (fun st d => d.read st) st

/-- `strptime(text, format, &tm)`: the fields and the text that is left, or `NULL`. -/
def strptime (text format : List Char) (tm : Tm) : Option (Tm × List Char) := do
  readAll (← directives format) (tm, text)

/-! ## Numbers -/

theorem isDigitOf_of_mem_padded {width n : ℕ} {c : Char} (hc : c ∈ padded width n) :
    isDigitOf 10 c = true := by
  rcases List.mem_append.mp hc with hc | hc
  · rw [List.eq_of_mem_replicate hc]
    decide
  · exact isDigitOf_of_mem_toDigits (by norm_num) le_rfl c hc

theorem ofDigitChars_zeros (k : ℕ) (ds : List Char) :
    Nat.ofDigitChars 10 (List.replicate k '0' ++ ds) 0 = Nat.ofDigitChars 10 ds 0 := by
  induction k with
  | zero => rfl
  | succ k ih => exact ih

theorem ofDigitChars_padded (width n : ℕ) : Nat.ofDigitChars 10 (padded width n) 0 = n := by
  rw [padded, ofDigitChars_zeros, Nat.ofDigitChars_ten_toDigits]

theorem length_padded {width n : ℕ} (hwidth : 0 < width) (h : n < 10 ^ width) :
    (padded width n).length = width := by
  have hle := (Nat.length_toDigits_le_iff (n := n) (b := 10) (by norm_num) hwidth).mpr h
  rw [padded, List.length_append, List.length_replicate]
  omega

/-- Digits in front are read up to the width, if they end there or at the width. -/
theorem readNumber_digits {low high width : ℕ} {ds rest : List Char} (hwidth : 0 < width)
    (hds : ds ≠ []) (hdigit : ∀ c ∈ ds, isDigitOf 10 c = true)
    (hend : width ≤ ds.length ∨ ∀ c, rest.head? = some c → isDigitOf 10 c = false) :
    readNumber low high width (ds ++ rest) =
      if low ≤ Nat.ofDigitChars 10 (ds.take width) 0 ∧ Nat.ofDigitChars 10 (ds.take width) 0 ≤ high
      then some (Nat.ofDigitChars 10 (ds.take width) 0, ds.drop width ++ rest) else none := by
  obtain ⟨d, ds', rfl⟩ := List.exists_cons_of_ne_nil hds
  have hspace : (d :: ds' ++ rest).dropWhile isSpace = d :: ds' ++ rest := by
    simp [(isDigitOf_plain (hdigit d (by simp))).1]
  have htake : ((d :: ds' ++ rest).take width).takeWhile (isDigitOf 10) = (d :: ds').take width := by
    have hfront : ∀ c ∈ (d :: ds').take width, isDigitOf 10 c = true :=
      fun c hc => hdigit c (List.mem_of_mem_take hc)
    rw [List.take_append, List.takeWhile_append_of_pos hfront]
    rcases hend with hend | hend
    · rw [Nat.sub_eq_zero_of_le hend]
      simp
    · rcases rest with _ | ⟨c, rest⟩
      · simp
      · rcases width - (d :: ds').length with _ | k
        · simp
        · simp [hend c rfl]
  have hne : (d :: ds').take width ≠ [] := by
    rcases width with _ | width
    · omega
    · simp
  have hdrop : (d :: ds' ++ rest).drop ((d :: ds').take width).length =
      (d :: ds').drop width ++ rest := by
    rw [List.length_take, List.drop_append]
    rcases Nat.lt_or_ge width (d :: ds').length with h | h
    · rw [min_eq_left h.le, Nat.sub_eq_zero_of_le h.le, List.drop_zero]
    · rw [min_eq_right h, Nat.sub_self, List.drop_zero, List.drop_eq_nil_of_le h,
        List.drop_eq_nil_of_le le_rfl]
  simp only [readNumber, hspace, htake, hdrop, hne, ne_eq, not_false_eq_true, true_and]

theorem readNumber_padded {low high width n : ℕ} (hwidth : 0 < width) (h : n < 10 ^ width)
    (hlow : low ≤ n) (hhigh : n ≤ high) (rest : List Char) :
    readNumber low high width (padded width n ++ rest) = some (n, rest) := by
  have hlen := length_padded hwidth h
  have hne : padded width n ≠ [] := by
    intro hnil
    rw [hnil] at hlen
    simp at hlen
    omega
  rw [readNumber_digits hwidth hne (fun _ => isDigitOf_of_mem_padded) (.inl hlen.ge),
    List.take_of_length_le hlen.le, List.drop_eq_nil_of_le hlen.le, ofDigitChars_padded,
    if_pos ⟨hlow, hhigh⟩]
  rfl

/-! ## Names -/

/-- An abbreviation is read back when a comma follows it. -/
theorem readName_weekday {i : ℕ} (h : i < 7) (rest : List Char) :
    readName weekdayNames (abbreviation weekdayNames i ++ ',' :: rest) = some (i, ',' :: rest) := by
  interval_cases i <;> rfl

/-- An abbreviation is read back when a space follows it. -/
theorem readName_month {i : ℕ} (h : i < 12) (rest : List Char) :
    readName monthNames (abbreviation monthNames i ++ ' ' :: rest) = some (i, ' ' :: rest) := by
  interval_cases i <;> rfl

/-! ## Reading back -/

section ReadingBack

variable (c : CivilTime)

/-- The fields a directive names, from a date. -/
def Directive.fill (tm : Tm) : Directive → Tm
  | lit _ | space => tm
  | year => { tm with year := (c.year : ℤ) - 1900 }
  | month | monthName => { tm with mon := (c.month : ℤ) - 1 }
  | day => { tm with mday := c.day }
  | weekday => { tm with wday := c.weekday }
  | hour => { tm with hour := c.hour }
  | minute => { tm with min := c.minute }
  | second => { tm with sec := c.second }

/-- In front of `rest`, a directive reads back what it printed. -/
def Directive.Reads (d : Directive) (rest : List Char) : Prop :=
  ∀ tm, d.read (tm, d.print c ++ rest) = some (d.fill c tm, rest)

/-- Each directive reads back what it printed, in front of what those after it printed and of
    `rest`. -/
def ReadsEach (rest : List Char) : List Directive → Prop
  | [] => True
  | d :: ds => d.Reads c (ds.flatMap (Directive.print c) ++ rest) ∧ ReadsEach rest ds

variable {c}

/-- The directives that read back are passed. -/
theorem readAll_print {ds : List Directive} {rest : List Char} (h : ReadsEach c rest ds)
    (ds' : List Directive) (tm : Tm) :
    readAll (ds ++ ds') (tm, ds.flatMap (Directive.print c) ++ rest) =
      readAll ds' (ds.foldl (fun tm d => d.fill c tm) tm, rest) := by
  induction ds generalizing tm with
  | nil => rfl
  | cons d ds ih =>
    rw [readAll, List.cons_append, List.foldlM_cons, List.flatMap_cons, List.append_assoc, h.1 tm]
    exact ih h.2 (d.fill c tm)

theorem strptime_strftime {format : List Char} {ds : List Directive}
    (hds : directives format = some ds) (h : ReadsEach c [] ds) (tm : Tm) :
    strptime (strftime format c) format tm =
      some (ds.foldl (fun tm d => d.fill c tm) tm, []) := by
  have hall := readAll_print h [] tm
  rw [List.append_nil, List.append_nil] at hall
  rw [strptime, strftime, hds]
  exact hall

theorem reads_lit (ch : Char) (rest : List Char) : (Directive.lit ch).Reads c rest :=
  fun _ => if_pos rfl

/-- What a directive prints begins without white space. -/
def Directive.Plain (c : CivilTime) (d : Directive) : Prop :=
  ∃ ch text, d.print c = ch :: text ∧ isSpace ch = false

/-- A space is read with all white space after it. -/
theorem reads_space_append {d : Directive} (h : d.Plain c) (rest : List Char) :
    Directive.space.Reads c (d.print c ++ rest) := by
  intro tm
  obtain ⟨ch, text, hprint, hspace⟩ := h
  rw [hprint]
  refine congrArg (fun text => some (tm, text)) ?_
  show (' ' :: ch :: (text ++ rest)).dropWhile isSpace = ch :: (text ++ rest)
  simp [show isSpace ' ' = true by decide, hspace]

theorem reads_space {d : Directive} (h : d.Plain c) (ds : List Directive) (rest : List Char) :
    Directive.space.Reads c ((d :: ds).flatMap (Directive.print c) ++ rest) := by
  rw [List.flatMap_cons, List.append_assoc]
  exact reads_space_append h _

/-- A printed number begins with a digit. -/
theorem plain_padded {d : Directive} {width n : ℕ} (h : d.print c = padded width n) :
    d.Plain c := by
  rcases hp : padded width n with _ | ⟨ch, text⟩
  · have hnil : Nat.toDigits 10 n = [] := (List.append_eq_nil_iff.mp hp).2
    exact absurd hnil Nat.toDigits_ne_nil
  · have hdigit : isDigitOf 10 ch = true :=
      isDigitOf_of_mem_padded (hp ▸ List.mem_cons_self)
    exact ⟨ch, text, h.trans hp, (isDigitOf_plain hdigit).1⟩

theorem plain_monthName : Directive.monthName.Plain c := by
  have hname : ∀ i < 12, ∃ ch text, abbreviation monthNames i = ch :: text ∧ isSpace ch = false := by
    intro i hi
    interval_cases i <;> exact ⟨_, _, rfl, by decide⟩
  have hone := c.one_le_month
  have hle := c.month_le
  exact hname (c.month - 1) (by omega)

theorem reads_year (h : c.year < 10000) (rest : List Char) : Directive.year.Reads c rest := by
  intro tm
  rw [Directive.read, Directive.print, readNumber_padded (by norm_num) h (by omega) (by omega)]
  rfl

theorem reads_month (rest : List Char) : Directive.month.Reads c rest := by
  intro tm
  have hle := c.month_le
  rw [Directive.read, Directive.print,
    readNumber_padded (by norm_num) (by omega) c.one_le_month hle]
  rfl

theorem reads_day (rest : List Char) : Directive.day.Reads c rest := by
  intro tm
  have hle := c.day_le_31
  rw [Directive.read, Directive.print, readNumber_padded (by norm_num) (by omega) c.one_le_day hle]
  rfl

theorem reads_hour (rest : List Char) : Directive.hour.Reads c rest := by
  intro tm
  have hlt := c.hour_lt
  rw [Directive.read, Directive.print,
    readNumber_padded (by norm_num) (by omega) (by omega) (by omega)]
  rfl

theorem reads_minute (rest : List Char) : Directive.minute.Reads c rest := by
  intro tm
  have hlt := c.minute_lt
  rw [Directive.read, Directive.print,
    readNumber_padded (by norm_num) (by omega) (by omega) (by omega)]
  rfl

theorem reads_second (rest : List Char) : Directive.second.Reads c rest := by
  intro tm
  have hle := c.second_le
  rw [Directive.read, Directive.print,
    readNumber_padded (by norm_num) (by omega) (by omega) (by omega)]
  rfl

theorem reads_weekday (ds : List Directive) (rest : List Char) :
    Directive.weekday.Reads c ((Directive.lit ',' :: ds).flatMap (Directive.print c) ++ rest) := by
  intro tm
  rw [Directive.read, Directive.print, List.flatMap_cons]
  exact congrArg (Option.map _) (readName_weekday c.weekday_lt _)

theorem reads_monthName (ds : List Directive) (rest : List Char) :
    Directive.monthName.Reads c ((Directive.space :: ds).flatMap (Directive.print c) ++ rest) := by
  intro tm
  have hone := c.one_le_month
  have hle := c.month_le
  have hmon : ((c.month - 1 : ℕ) : ℤ) = (c.month : ℤ) - 1 := by omega
  rw [Directive.read, Directive.print, List.flatMap_cons]
  refine (congrArg (Option.map _) (readName_month (by omega) _)).trans ?_
  rw [Option.map_some, hmon]
  rfl

/-- Of a longer year `%Y` leaves the digits after the fourth. -/
theorem read_long_year (h : 10000 ≤ c.year) : ∃ ds, ds ≠ [] ∧ (∀ d ∈ ds, isDigitOf 10 d = true) ∧
    ∀ st tm rest, Directive.year.read (tm, Directive.year.print c ++ rest) = some st →
      st.2 = ds ++ rest := by
  have hlen : 4 < (padded 4 c.year).length := by
    have hdigits : ¬ (Nat.toDigits 10 c.year).length ≤ 4 := by
      rw [Nat.length_toDigits_le_iff (by norm_num) (by norm_num)]
      omega
    rw [padded, List.length_append]
    omega
  refine ⟨(padded 4 c.year).drop 4, ?_, ?_, ?_⟩
  · intro hnil
    rw [List.drop_eq_nil_iff] at hnil
    omega
  · exact fun d hd => isDigitOf_of_mem_padded (List.mem_of_mem_drop hd)
  · intro st tm rest hread
    have hne : padded 4 c.year ≠ [] := by
      intro hnil
      rw [hnil] at hlen
      exact absurd hlen (by decide)
    rw [Directive.read, Directive.print,
      readNumber_digits (by norm_num) hne (fun _ => isDigitOf_of_mem_padded) (.inl hlen.le)] at hread
    split_ifs at hread
    · exact congrArg Prod.snd (Option.some.inj hread).symm
    · exact nomatch hread

/-- Another character is not the literal. -/
theorem read_lit_ne {ch d : Char} (h : d ≠ ch) (tm : Tm) (rest : List Char) :
    (Directive.lit ch).read (tm, d :: rest) = none := if_neg h

end ReadingBack

end NetworkFs.Text
