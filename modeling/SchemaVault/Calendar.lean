/-!
# Days and times of day

The days of the proleptic Gregorian calendar, in which year 0 and the years before it exist, and
the times of day up to a leap second.
-/

namespace SchemaVault.Calendar

/-- Whether the year has a 29th of February. -/
def isLeapYear (year : Int) : Bool := year % 4 == 0 && (year % 100 != 0 || year % 400 == 0)

/-- The number of days of a month; 0 if there is no such month. -/
def daysInMonth (year : Int) (month : Nat) : Nat :=
  match month with
  | 1 | 3 | 5 | 7 | 8 | 10 | 12 => 31
  | 4 | 6 | 9 | 11 => 30
  | 2 => if isLeapYear year then 29 else 28
  | _ => 0

/-- Whether there is such a day. -/
def isDay (year : Int) (month day : Nat) : Bool := 1 ≤ day && day ≤ daysInMonth year month

/-- Whether there is such a time of day; any minute may end in a leap second. -/
def isTime (hour minute second : Nat) : Bool := hour < 24 && minute < 60 && second ≤ 60

end SchemaVault.Calendar
