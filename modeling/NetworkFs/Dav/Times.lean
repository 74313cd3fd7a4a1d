import NetworkFs.Dav.Propfind
import NetworkFs.Text.Strptime

/-!
# The times of a `PROPFIND` reply

`xmlParserTimeNode` (`proto/dav/parser.c` lines 18–48) reads a UTC time with `strptime` into a
`struct tm` that it does not initialise, takes the fields as local time with `mktime` and
subtracts `timezone`. What `mktime` does with the fields depends on `tm_isdst`, which neither
format names.

* `mktime_filled`: the local reading is off by the daylight saving, if it applies.
* `xmlParserTimeNode_utc_iff`: when the result is the instant that was printed.
-/

namespace NetworkFs.Dav

open Text Data

/-! ## `mktime` -/

/-- A time zone: `timezone`, the seconds its standard time is west of UTC, the seconds that its
    daylight time is ahead of that (`0` without daylight saving), and the rule that tells from
    a local time, in seconds, whether it is daylight time. -/
structure Zone where
  timezone : ℤ
  saving : ℤ
  rule : ℤ → Bool

/-- The days of a year before each month, from January as `0`, in a common and in a leap year. -/
def monYday (leap : Bool) (mon : ℕ) : ℕ :=
  (if leap then [0, 31, 60, 91, 121, 152, 182, 213, 244, 274, 305, 335]
   else [0, 31, 59, 90, 120, 151, 181, 212, 243, 273, 304, 334]).getD mon 0

/-- The seconds from 1970-01-01 00:00:00 to the fields, both taken in the same zone. Months out
    of range go to another year; `tm_wday` and `tm_yday` are ignored. -/
def fieldSeconds (tm : Tm) : ℤ :=
  let year := tm.year + 1900 + tm.mon / 12
  let leap := year % 4 == 0 && (year % 100 != 0 || year % 400 == 0)
  let days := 365 * (year - 1970) + (leapYears (year - 1) - leapYears 1969) +
    monYday leap (tm.mon % 12).toNat + (tm.mday - 1)
  days * 86400 + tm.hour * 3600 + tm.min * 60 + tm.sec

/-- Are the fields taken as daylight time? -/
def isDaylight (zone : Zone) (tm : Tm) : Bool :=
  if 0 < tm.isdst then true else if tm.isdst = 0 then false else zone.rule (fieldSeconds tm)

/-- `mktime(&tm)`. -/
def mktime (zone : Zone) (tm : Tm) : ℤ :=
  fieldSeconds tm + zone.timezone - if isDaylight zone tm then zone.saving else 0

/-! ## `xmlParserTimeNode` -/

/-- The `format` of the two branches. -/
def formatText : TimeFormat → Text
  | .tz => "%FT%TZ".toList
  | .rfc1123 => "%a, %d %b %Y %T GMT".toList

/-- `if likely (strptime(..., format, &tm)) return mktime(&tm) - timezone;`, where `tm` holds
    what was on the stack. -/
def localTime (zone : Zone) (tm : Tm) (format : TimeFormat) (text : Text) : Option ℤ :=
  (strptime text (formatText format) tm).map fun r => mktime zone r.1 - zone.timezone

/-- The value of the attribute `dt` for each format. -/
def formatName : TimeFormat → Text
  | .tz => "dateTime.tz".toList
  | .rfc1123 => "dateTime.rfc1123".toList

/-- A node whose attribute `dt` names the format and whose text is `text`. -/
def HasTime (format : TimeFormat) (text : Text) (node : Node) : Prop :=
  ∃ attr value child, node.properties.find? (fun a => a.1 == "dt".toList) = some attr ∧
    attr.2.head? = some value ∧ value.content = some (formatName format) ∧
    node.firstChild = some child ∧ child.content = some text

theorem timeFormat_formatName (format : TimeFormat) :
    timeFormat (formatName format) = some format := by
  cases format <;> decide

theorem xmlParserTimeNode_hasTime {format : TimeFormat} {text : Text} {node : Node}
    (h : HasTime format text node) (f : TimeFormat → Text → Option ℤ) :
    xmlParserTimeNode f node = (f format text).getD 0 := by
  obtain ⟨attr, value, child, hattr, hvalue, hname, hchild, htext⟩ := h
  simp only [xmlParserTimeNode, hattr, hvalue, hname, hchild, htext, timeFormat_formatName,
    Option.bind_eq_bind, Option.bind_some]

/-! ## The fields of a date -/

theorem monYday_eq (year : ℕ) {month : ℕ} (hone : 1 ≤ month) (hle : month ≤ 12) :
    monYday (isLeap year) (month - 1) = daysBeforeMonth year month := by
  cases hleap : isLeap year <;> interval_cases month <;>
    simp [daysBeforeMonth, Finset.sum_Ico_eq_sum_range, Finset.sum_range_succ, monthLength, hleap,
      monYday]

/-- `tm` with the fields of a date; the others keep what they were. -/
def filledTm (c : CivilTime) (tm : Tm) : Tm :=
  { tm with
    year := (c.year : ℤ) - 1900, mon := (c.month : ℤ) - 1, mday := c.day, hour := c.hour,
    min := c.minute, sec := c.second }

theorem fieldSeconds_filled (c : CivilTime) (tm : Tm) :
    fieldSeconds (filledTm c tm) = c.instant := by
  have hone := c.one_le_month
  have hle := c.month_le
  have hyear : (c.year : ℤ) - 1900 + 1900 + ((c.month : ℤ) - 1) / 12 = c.year := by omega
  have hmonth : (((c.month : ℤ) - 1) % 12).toNat = c.month - 1 := by omega
  have hleap : (((c.year : ℤ) % 4 == 0) && (((c.year : ℤ) % 100 != 0) || ((c.year : ℤ) % 400 == 0))) =
      isLeap c.year := by
    unfold isLeap
    congr 1
    · rw [Bool.eq_iff_iff, beq_iff_eq, beq_iff_eq]
      omega
    · congr 1
      · rw [Bool.eq_iff_iff, bne_iff_ne, bne_iff_ne]
        omega
      · rw [Bool.eq_iff_iff, beq_iff_eq, beq_iff_eq]
        omega
  rw [CivilTime.instant, CivilTime.days_sub_epoch, ← monYday_eq c.year hone hle]
  simp only [fieldSeconds, filledTm, hyear, hmonth, hleap]

/-- `mktime(&tm) - timezone` on a date. -/
theorem mktime_filled (zone : Zone) (c : CivilTime) (tm : Tm) :
    mktime zone (filledTm c tm) - zone.timezone =
      c.instant - if isDaylight zone (filledTm c tm) then zone.saving else 0 := by
  rw [mktime, fieldSeconds_filled]
  ring

/-- What daylight saving takes from the result. -/
theorem saving_eq_zero_iff (zone : Zone) (c : CivilTime) (tm : Tm) :
    (if isDaylight zone (filledTm c tm) then zone.saving else 0) = 0 ↔
      zone.saving = 0 ∨ tm.isdst = 0 ∨ tm.isdst < 0 ∧ zone.rule c.instant = false := by
  rcases lt_trichotomy tm.isdst 0 with hneg | hzero | hpos
  · have hday : isDaylight zone (filledTm c tm) = zone.rule c.instant := by
      rw [isDaylight, fieldSeconds_filled]
      exact (if_neg (not_lt.mpr hneg.le)).trans (if_neg hneg.ne)
    rw [hday]
    cases zone.rule c.instant with
    | true => simp [hneg.ne]
    | false => simp [hneg]
  · have hday : isDaylight zone (filledTm c tm) = false :=
      (if_neg hzero.not_gt).trans (if_pos hzero)
    simp [hday, hzero]
  · have hday : isDaylight zone (filledTm c tm) = true := if_pos hpos
    simp [hday, hpos.ne', hpos.le]

/-! ## Reading the two formats -/

theorem directives_tz : directives (formatText .tz) =
    some [.year, .lit '-', .month, .lit '-', .day, .lit 'T', .hour, .lit ':', .minute, .lit ':',
      .second, .lit 'Z'] := by
  decide

theorem directives_rfc1123 : directives (formatText .rfc1123) =
    some [.weekday, .lit ',', .space, .day, .space, .monthName, .space, .year, .space, .hour,
      .lit ':', .minute, .lit ':', .second, .space, .lit 'G', .lit 'M', .lit 'T'] := by
  decide

theorem strptime_short (format : TimeFormat) {c : CivilTime} (h : c.year < 10000) (tm : Tm) :
    ∃ tm', strptime (strftime (formatText format) c) (formatText format) tm = some (tm', []) ∧
      ∃ wday, tm' = { filledTm c tm with wday := wday } := by
  cases format with
  | tz =>
    refine ⟨_, strptime_strftime directives_tz ?_ tm, tm.wday, rfl⟩
    exact ⟨reads_year h _, reads_lit _ _, reads_month _, reads_lit _ _, reads_day _, reads_lit _ _,
      reads_hour _, reads_lit _ _, reads_minute _, reads_lit _ _, reads_second _, reads_lit _ _,
      trivial⟩
  | rfc1123 =>
    refine ⟨_, strptime_strftime directives_rfc1123 ?_ tm, c.weekday, rfl⟩
    exact ⟨reads_weekday _ _, reads_lit _ _, reads_space (plain_padded rfl) _ _, reads_day _,
      reads_space plain_monthName _ _, reads_monthName _ _, reads_space (plain_padded rfl) _ _,
      reads_year h _, reads_space (plain_padded rfl) _ _, reads_hour _, reads_lit _ _,
      reads_minute _, reads_lit _ _, reads_second _, reads_space ⟨'G', [], rfl, by decide⟩ _ _,
      reads_lit _ _, reads_lit _ _, reads_lit _ _, trivial⟩

/-- What stands after the year is neither `-` nor a time of day. -/
theorem readAll_long_year {c : CivilTime} (h : 10000 ≤ c.year) (tm : Tm) (rest : List Char)
    (ds : List Directive) :
    readAll (.year :: .lit '-' :: ds) (tm, Directive.year.print c ++ rest) = none ∧
      readAll (.year :: .space :: .hour :: .lit ':' :: ds)
        (tm, Directive.year.print c ++ ' ' :: rest) = none := by
  obtain ⟨digits, hne, hdigit, hread⟩ := read_long_year h
  obtain ⟨d, digits, rfl⟩ := List.exists_cons_of_ne_nil hne
  have hd := isDigitOf_plain (hdigit d (by simp))
  constructor
  · rw [readAll, List.foldlM_cons]
    rcases hyear : Directive.year.read (tm, Directive.year.print c ++ rest) with _ | ⟨tm', text⟩
    · rfl
    · obtain rfl : text = d :: digits ++ rest := hread _ _ _ hyear
      exact congrArg (· >>= _) (read_lit_ne hd.2.1 tm' _)
  · rw [readAll, List.foldlM_cons]
    rcases hyear : Directive.year.read (tm, Directive.year.print c ++ ' ' :: rest) with
      _ | ⟨tm', text⟩
    · rfl
    · obtain rfl : text = d :: digits ++ ' ' :: rest := hread _ _ _ hyear
      have hspace : Directive.space.read (tm', d :: digits ++ ' ' :: rest) =
          some (tm', d :: digits ++ ' ' :: rest) := by
        rw [Directive.read, List.cons_append, List.dropWhile_cons_of_neg (by simp [hd.1])]
      show (Directive.space.read (tm', d :: digits ++ ' ' :: rest) >>= fun st =>
        Directive.hour.read st >>= fun st => (Directive.lit ':').read st >>= readAll ds) = none
      rw [hspace]
      show (Directive.hour.read (tm', d :: digits ++ ' ' :: rest) >>= fun st =>
        (Directive.lit ':').read st >>= readAll ds) = none
      rw [Directive.read, readNumber_digits (by norm_num) hne hdigit
        (.inr (by rintro _ ⟨⟩; decide))]
      split_ifs
      · -- another digit or the space stands where the colon should
        have hcolon : ∀ tm, (Directive.lit ':').read (tm, (d :: digits).drop 2 ++ ' ' :: rest) =
            none := by
          intro tm
          rcases hrest : (d :: digits).drop 2 with _ | ⟨d', digits'⟩
          · exact read_lit_ne (by decide) tm rest
          · have hmem : d' ∈ d :: digits := List.mem_of_mem_drop (by rw [hrest]; simp)
            have hne' : d' ≠ ':' := by
              rintro rfl
              exact absurd (hdigit _ hmem) (by decide)
            exact read_lit_ne hne' tm _
        exact congrArg (· >>= readAll ds) (hcolon _)
      · rfl

/-- The same behind directives that read back. -/
theorem readAll_long_behind {c : CivilTime} (h : 10000 ≤ c.year) {front : List Directive}
    (hfront : ∀ rest, ReadsEach c (Directive.year.print c ++ rest) front) (tm : Tm)
    (back : List Directive) :
    readAll (front ++ .year :: .space :: .hour :: .lit ':' :: back) (tm,
      (front ++ .year :: .space :: .hour :: .lit ':' :: back).flatMap (Directive.print c)) =
        none := by
  rw [List.flatMap_append, List.flatMap_cons, List.flatMap_cons, readAll_print (hfront _)]
  exact (readAll_long_year h _ _ _).2

/-- `strptime` refuses a year of more than four digits. -/
theorem strptime_long (format : TimeFormat) {c : CivilTime} (h : 10000 ≤ c.year) (tm : Tm) :
    strptime (strftime (formatText format) c) (formatText format) tm = none := by
  cases format with
  | tz =>
    rw [strptime, strftime, directives_tz]
    exact (readAll_long_year h tm _ _).1
  | rfc1123 =>
    have hfront : ∀ rest, ReadsEach c (Directive.year.print c ++ rest)
        [.weekday, .lit ',', .space, .day, .space, .monthName, .space] :=
      fun rest => ⟨reads_weekday _ _, reads_lit _ _, reads_space (plain_padded rfl) _ _,
        reads_day _, reads_space plain_monthName _ _, reads_monthName _ _,
        reads_space_append (plain_padded rfl) _, trivial⟩
    rw [strptime, strftime, directives_rfc1123]
    exact readAll_long_behind h hfront tm [.minute, .lit ':', .second, .space, .lit 'G', .lit 'M',
      .lit 'T']

/-! ## The instant -/

/-- The result is the instant that was printed if and only if the year has four digits and the
    fields, taken as local time, are standard time: the zone has no daylight saving, or
    `tm_isdst` happens to be `0`, or it is negative and the zone's rule says so. -/
theorem xmlParserTimeNode_utc_iff (zone : Zone) (tm : Tm) (c : CivilTime) (format : TimeFormat)
    (node : Node) (hnode : HasTime format (strftime (formatText format) c) node) :
    xmlParserTimeNode (localTime zone tm) node = c.instant ↔
      c.year < 10000 ∧
        (zone.saving = 0 ∨ tm.isdst = 0 ∨ tm.isdst < 0 ∧ zone.rule c.instant = false) := by
  rw [xmlParserTimeNode_hasTime hnode, localTime]
  rcases Nat.lt_or_ge c.year 10000 with hyear | hyear
  · obtain ⟨tm', hread, wday, rfl⟩ := strptime_short format hyear tm
    have hresult : mktime zone { filledTm c tm with wday := wday } - zone.timezone =
        c.instant - if isDaylight zone (filledTm c tm) then zone.saving else 0 :=
      mktime_filled zone c tm
    rw [hread, Option.map_some, Option.getD_some, hresult, ← saving_eq_zero_iff]
    constructor
    · intro heq
      exact ⟨hyear, by omega⟩
    · rintro ⟨-, hzero⟩
      omega
  · have hpos := c.instant_pos hyear
    rw [strptime_long format hyear, Option.map_none, Option.getD_none]
    constructor
    · intro hzero
      omega
    · rintro ⟨hlt, -⟩
      omega

/-- Central European time, with daylight saving in the summer of 2024. -/
def centralEurope : Zone := ⟨-3600, 3600, fun s => decide (1711850400 ≤ s ∧ s < 1729994400)⟩

/-- 2024-01-15 12:00:00. -/
def winterNoon : CivilTime :=
  ⟨2024, 1, 15, 12, 0, 0, by decide, by decide, by decide, by decide, by decide, by decide, by decide⟩

/-- 2024-07-15 12:00:00. -/
def summerNoon : CivilTime :=
  ⟨2024, 7, 15, 12, 0, 0, by decide, by decide, by decide, by decide, by decide, by decide, by decide⟩

/-- A property with the attribute `dt`. -/
def timeNode (format : TimeFormat) (c : CivilTime) : Node :=
  .mk "creationdate".toList (some "DAV:".toList) none
    [("dt".toList, [.mk "text".toList none (some (formatName format)) [] []])]
    [.mk "text".toList none (some (strftime (formatText format) c)) [] []]

/-- A `struct tm` of zeros but for `tm_isdst`. -/
def stackTm (isdst : ℤ) : Tm := ⟨0, 0, 0, 0, 0, 0, 0, 0, isdst⟩

theorem hasTime_timeNode (format : TimeFormat) (c : CivilTime) :
    HasTime format (strftime (formatText format) c) (timeNode format c) :=
  ⟨_, _, _, rfl, rfl, rfl, rfl, rfl⟩

theorem xmlParserTimeNode_winter :
    xmlParserTimeNode (localTime centralEurope (stackTm (-1))) (timeNode .tz winterNoon) =
      winterNoon.instant :=
  (xmlParserTimeNode_utc_iff centralEurope (stackTm (-1)) winterNoon .tz _
    (hasTime_timeNode .tz winterNoon)).mpr ⟨by decide, .inr (.inr (by decide +kernel))⟩

/-- A positive `tm_isdst` from the stack takes an hour also in winter, and the zone's rule takes
    one in summer. -/
theorem xmlParserTimeNode_hour_early :
    xmlParserTimeNode (localTime centralEurope (stackTm 1)) (timeNode .rfc1123 winterNoon) =
        winterNoon.instant - 3600 ∧
      xmlParserTimeNode (localTime centralEurope (stackTm (-1))) (timeNode .tz summerNoon) =
        summerNoon.instant - 3600 := by
  decide +kernel

end NetworkFs.Dav
