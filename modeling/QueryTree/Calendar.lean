/-!
# Calendar times

A time of day on a day of the Gregorian calendar, without a time zone.  The calendar is extended
to all years; the year before year one is year zero.  Days and times of day are valid by their
types.

* `Date.next`, `Date.previous` — the neighbours of a day.
* `DateTime.shift` — the local time some seconds east, from the time in the reference zone.
* `DateTime.format` — the text of a time, to the second.
-/

namespace QueryTree

/-! ### Days -/

/-- Leap years: every fourth, but of the centuries only every fourth. -/
def isLeapYear (year : Int) : Bool := year % 4 == 0 && (year % 100 != 0 || year % 400 == 0)

/-- The number of days of a month. -/
def daysInMonth (year : Int) (month : Nat) : Nat :=
  if month = 2 then if isLeapYear year then 29 else 28
  else if month = 4 ∨ month = 6 ∨ month = 9 ∨ month = 11 then 30
  else 31

theorem one_le_daysInMonth {year : Int} {month : Nat} : 1 ≤ daysInMonth year month := by
  unfold daysInMonth
  repeat' split
  all_goals omega

theorem daysInMonth_le {year : Int} {month : Nat} : daysInMonth year month ≤ 31 := by
  unfold daysInMonth
  repeat' split
  all_goals omega

/-- A day of the calendar. -/
structure Date where
  year : Int
  month : Nat
  day : Nat
  /-- Months are numbered from one. -/
  one_le_month : 1 ≤ month
  /-- A year has twelve months. -/
  month_le : month ≤ 12
  /-- Days are numbered from one. -/
  one_le_day : 1 ≤ day
  /-- The month has this day. -/
  day_le : day ≤ daysInMonth year month
  deriving DecidableEq

namespace Date

/-- The day with these numbers, if there is one. -/
def of? (year : Int) (month day : Nat) : Option Date :=
  if h : 1 ≤ month ∧ month ≤ 12 ∧ 1 ≤ day ∧ day ≤ daysInMonth year month then
    some ⟨year, month, day, h.1, h.2.1, h.2.2.1, h.2.2.2⟩
  else none

/-- The first day of a month. -/
def firstOf (year : Int) (month : Nat) (h : 1 ≤ month ∧ month ≤ 12) : Date :=
  ⟨year, month, 1, h.1, h.2, Nat.le_refl 1, one_le_daysInMonth⟩

/-- The last day of a month. -/
def lastOf (year : Int) (month : Nat) (h : 1 ≤ month ∧ month ≤ 12) : Date :=
  ⟨year, month, daysInMonth year month, h.1, h.2, one_le_daysInMonth, Nat.le_refl _⟩

/-- The next day. -/
def next (d : Date) : Date :=
  if h : d.day < daysInMonth d.year d.month then
    { d with day := d.day + 1, one_le_day := Nat.le_add_left 1 d.day, day_le := h }
  else if h : d.month < 12 then firstOf d.year (d.month + 1) ⟨Nat.le_add_left 1 d.month, h⟩
  else firstOf (d.year + 1) 1 (by decide)

/-- The day before. -/
def previous (d : Date) : Date :=
  if h : 1 < d.day then
    { d with
      day := d.day - 1
      one_le_day := Nat.le_sub_one_of_lt h
      day_le := Nat.le_trans (Nat.sub_le _ _) d.day_le }
  else if h : 1 < d.month then
    lastOf d.year (d.month - 1)
      ⟨Nat.le_sub_one_of_lt h, Nat.le_trans (Nat.sub_le _ _) d.month_le⟩
  else lastOf (d.year - 1) 12 (by decide)

end Date

/-! ### Times of day -/

/-- A time of day.  From `10 ^ 9` nanoseconds on it lies in the leap second behind its second. -/
structure Clock where
  hour : Nat
  minute : Nat
  second : Nat
  nanosecond : Nat
  /-- A day has twenty-four hours. -/
  hour_lt : hour < 24
  /-- An hour has sixty minutes. -/
  minute_lt : minute < 60
  /-- A minute has sixty seconds, leap seconds aside. -/
  second_lt : second < 60
  /-- At most one leap second follows a second. -/
  nanosecond_lt : nanosecond < 2000000000
  deriving DecidableEq

namespace Clock

/-- The time of day with these numbers, if there is one. -/
def of? (hour minute second nanosecond : Nat) : Option Clock :=
  if h : hour < 24 ∧ minute < 60 ∧ second < 60 ∧ nanosecond < 2000000000 then
    some ⟨hour, minute, second, nanosecond, h.1, h.2.1, h.2.2.1, h.2.2.2⟩
  else none

/-- Midnight. -/
def midnight : Clock := ⟨0, 0, 0, 0, by decide, by decide, by decide, by decide⟩

/-- Seconds since midnight. -/
def secondOfDay (c : Clock) : Nat := c.hour * 3600 + c.minute * 60 + c.second

/-- The same fraction of the second that is `s` seconds after midnight, days left aside. -/
def atSecond (c : Clock) (s : Nat) : Clock :=
  { c with
    hour := s / 3600 % 24
    minute := s / 60 % 60
    second := s % 60
    hour_lt := Nat.mod_lt _ (by decide)
    minute_lt := Nat.mod_lt _ (by decide)
    second_lt := Nat.mod_lt _ (by decide) }

/-- The second that is printed; a leap second counts as the second behind its own. -/
def printedSecond (c : Clock) : Nat := if 1000000000 ≤ c.nanosecond then c.second + 1 else c.second

theorem printedSecond_le (c : Clock) : c.printedSecond ≤ 60 := by
  have := c.second_lt
  unfold printedSecond
  split <;> omega

end Clock

/-! ### Times of days -/

/-- A time of day on a day. -/
structure DateTime where
  date : Date
  clock : Clock
  deriving DecidableEq

namespace DateTime

/-- Midnight at the start of a day. -/
def midnight (date : Date) : DateTime := ⟨date, .midnight⟩

/-- The time that many seconds later, less than a day in either direction. -/
def shift (t : DateTime) (seconds : Int) : DateTime :=
  let s := t.clock.secondOfDay + seconds
  { date := if s < 0 then t.date.previous else if 86400 ≤ s then t.date.next else t.date
    clock := t.clock.atSecond (s % 86400).toNat }

/-! ### Text -/

/-- A number with at least `width` digits, zeros in front. -/
def padded (width n : Nat) : String :=
  let ds := Nat.toDigits 10 n
  String.ofList (List.replicate (width - ds.length) '0' ++ ds)

/-- A year: four digits from 0 to 9999, otherwise a sign and at least four digits. -/
def yearText (year : Int) : String :=
  if 0 ≤ year ∧ year ≤ 9999 then padded 4 year.natAbs
  else (if year < 0 then "-" else "+") ++ padded 4 year.natAbs

/-- Year, month and day, a blank, hour, minute and second. -/
def format (t : DateTime) : String :=
  yearText t.date.year ++ "-" ++ padded 2 t.date.month ++ "-" ++ padded 2 t.date.day ++ " " ++
    padded 2 t.clock.hour ++ ":" ++ padded 2 t.clock.minute ++ ":" ++
    padded 2 t.clock.printedSecond

end DateTime

end QueryTree
