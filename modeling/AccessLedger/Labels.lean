import AccessLedger.Text.Substitute
import AccessLedger.Window

/-!
The texts a user reads: names of the filter options, the summary of a row, and relative times.
-/

namespace AccessLedger

structure Labels where
  anyGroup : String := "All permissions"
  anyTime : String := "Any time"
  last7Days : String := "Last 7 days"
  last24Hours : String := "Last 24 hours"
  lastHour : String := "Last hour"
  last15Minutes : String := "Last 15 minutes"
  /-- The words `group` and `time` in braces stand for a group label and a relative time. -/
  summaryTemplate : String := "accessed \x7bgroup\x7d, \x7btime\x7d"
deriving DecidableEq, Inhabited, Repr

namespace Labels

def window (l : Labels) : Window → String
  | .anyTime => l.anyTime
  | .last7Days => l.last7Days
  | .last24Hours => l.last24Hours
  | .lastHour => l.lastHour
  | .last15Minutes => l.last15Minutes
  | .custom seconds => "Last " ++ toString seconds ++ " seconds"

/--
Fills in the template, the group label first; a `time` in braces within the label is filled in too.
-/
def summary (l : Labels) (groupLabel time : String) : String :=
  Text.substitute "\x7btime\x7d" time
    (Text.substitute "\x7bgroup\x7d" groupLabel l.summaryTemplate)

end Labels

/-- A length of time in its largest whole unit; nothing is shorter than zero seconds. -/
def describeElapsed (milliseconds : Int) : String :=
  let seconds := (milliseconds.tdiv 1000).toNat
  let amount :=
    if seconds < 60 then toString seconds ++ "s"
    else if seconds < 3600 then toString (seconds / 60) ++ "m"
    else if seconds < 86400 then toString (seconds / 3600) ++ "h"
    else toString (seconds / 86400) ++ "d"
  amount ++ " ago"

end AccessLedger
