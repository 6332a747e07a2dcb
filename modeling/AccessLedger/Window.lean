import AccessLedger.Integer64
import AccessLedger.Text.Blank

/-!
Recency windows: how old an access may be to be listed, and the short notation for windows. Ages are
counted in whole seconds from 64-bit millisecond times.
-/

namespace AccessLedger

inductive Window where
  | anyTime
  | last7Days
  | last24Hours
  | lastHour
  | last15Minutes
  | custom (seconds : Nat)
deriving DecidableEq, Inhabited, Repr

namespace Window

/-- The windows that a user can choose from, widest first. -/
def selectable : List Window :=
  [anyTime, last7Days, last24Hours, lastHour, last15Minutes]

def unboundedThreshold : Nat := nat64Count - 1

/-- The greatest age in seconds that the window admits. -/
def threshold : Window → Nat
  | anyTime => unboundedThreshold
  | last7Days => 7 * 24 * 60 * 60
  | last24Hours => 24 * 60 * 60
  | lastHour => 60 * 60
  | last15Minutes => 15 * 60
  | custom seconds => seconds

def isUnbounded (w : Window) : Bool :=
  w.threshold == unboundedThreshold

def notate : Window → String
  | anyTime => "any"
  | last7Days => "7d"
  | last24Hours => "24h"
  | lastHour => "1h"
  | last15Minutes => "15m"
  | custom seconds => toString seconds ++ "s"

/-- Decimal digits with at most one plus sign before them, for a number of at most 64 bits. -/
def readSeconds? (cs : List Char) : Option Nat :=
  let digits := match cs with
    | '+' :: rest => rest
    | _ => cs
  if digits.isEmpty || !digits.all Char.isDigit then
    none
  else
    let n := Nat.ofDigitChars 10 digits 0
    if n < nat64Count then some n else none

/--
Reads the short notation: blanks around it and the case of ASCII letters do not matter, and `all`
and `1d` are second spellings.
-/
def parse? (s : String) : Option Window :=
  let raw := (Text.trimChars s.toList).map Char.toLower
  match String.ofList raw with
  | "any" | "all" => some anyTime
  | "7d" => some last7Days
  | "24h" | "1d" => some last24Hours
  | "1h" => some lastHour
  | "15m" => some last15Minutes
  | _ =>
    match raw.reverse with
    | 's' :: digits => (readSeconds? digits.reverse).map custom
    | _ => none

/-- The complaint about a text that is no window; it shows the text as it was given. -/
def unknownMessage (s : String) : String :=
  "unknown time window '" ++ s ++ "', expected one of any, 7d, 24h, 1h, 15m or <N>s"

/-- A text that is no window, as it was given. -/
structure Unknown where
  given : String
deriving DecidableEq, Inhabited, Repr

def Unknown.message (u : Unknown) : String :=
  unknownMessage u.given

/-- Reads the short notation; a text that is none is handed back. -/
def read (s : String) : Except Unknown Window :=
  match parse? s with
  | some w => .ok w
  | none => .error ⟨s⟩

end Window

def elapsed (later earlier : Int) : Int :=
  clampInt64 (later - earlier)

/--
Whether an access is at most `threshold` seconds old. Parts of a second do not count, the boundary
is inside, and accesses in the future are always inside.
-/
def isRecent (now time : Int) (threshold : Nat) : Bool :=
  let age := (elapsed now time).tdiv 1000
  age < 0 || age ≤ threshold

end AccessLedger
