/-!
The Gregorian calendar, continued to all years.
-/

namespace AccessLedger.Calendar

def isLeapYear (year : Int) : Bool :=
  year % 4 == 0 && (year % 100 != 0 || year % 400 == 0)

def daysInMonth (year : Int) (month : Nat) : Nat :=
  match month with
  | 2 => if isLeapYear year then 29 else 28
  | 4 | 6 | 9 | 11 => 30
  | _ => 31

/-- Days from the beginning of the year 1 to the beginning of a year. -/
def daysBeforeYear (year : Int) : Int :=
  let full := year - 1
  365 * full + full / 4 - full / 100 + full / 400

def daysBeforeMonth (year : Int) (month : Nat) : Nat :=
  (List.range (month - 1)).foldr (fun earlier n => daysInMonth year (earlier + 1) + n) 0

/-- Days from the beginning of the year 1970 to a day. -/
def dayNumber (year : Int) (month day : Nat) : Int :=
  daysBeforeYear year + daysBeforeMonth year month + day - 1 - daysBeforeYear 1970

end AccessLedger.Calendar
