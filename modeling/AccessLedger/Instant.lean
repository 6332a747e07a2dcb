import AccessLedger.Calendar
import AccessLedger.Text.Blank

/-!
Moments in milliseconds from the beginning of 1970 in universal time, and how they are written: a
date, a time of day and an offset from universal time. Blanks may stand around the parts.
-/

namespace AccessLedger.Instant

def yearRange : Int × Int := (-262143, 262142)

def millisecondsPerDay : Int := 24 * 60 * 60 * 1000

def earliest : Int :=
  Calendar.dayNumber yearRange.1 1 1 * millisecondsPerDay

def latest : Int :=
  Calendar.dayNumber (yearRange.2 + 1) 1 1 * millisecondsPerDay - 1

def isDated (t : Int) : Bool :=
  earliest ≤ t && t ≤ latest

def skipBlanks (input : List Char) : List Char :=
  input.dropWhile Text.isBlank

/-- A number of decimal digits, of which at most so many are read, after any blanks. -/
def number? (most : Nat) (input : List Char) : Option (Nat × List Char) :=
  let input := skipBlanks input
  let digits := (input.take most).takeWhile Char.isDigit
  if digits.isEmpty then none
  else some (Nat.ofDigitChars 10 digits 0, input.drop digits.length)

def small? (least greatest : Nat) (input : List Char) : Option (Nat × List Char) := do
  let (n, rest) ← number? 2 input
  if least ≤ n ∧ n ≤ greatest then some (n, rest) else none

def mark? (c : Char) (input : List Char) : Option (List Char) :=
  match skipBlanks input with
  | x :: rest => if x = c then some rest else none
  | [] => none

/-- A year of up to four digits, or with a sign of any number of digits. -/
def year? (input : List Char) : Option (Int × List Char) :=
  match skipBlanks input with
  | '-' :: rest =>
    if rest.head?.any Char.isDigit then
      (number? rest.length rest).map fun (n, rest) => (-(n : Int), rest)
    else none
  | '+' :: rest =>
    if rest.head?.any Char.isDigit then
      (number? rest.length rest).map fun (n, rest) => ((n : Int), rest)
    else none
  | rest => (number? 4 rest).map fun (n, rest) => ((n : Int), rest)

def date? (input : List Char) : Option (Int × List Char) := do
  let (year, rest) ← year? input
  let (month, rest) ← small? 1 12 (← mark? '-' rest)
  let (day, rest) ← small? 1 (Calendar.daysInMonth year month) (← mark? '-' rest)
  if yearRange.1 ≤ year ∧ year ≤ yearRange.2 then
    pure (Calendar.dayNumber year month day, rest)
  else none

def milliseconds (digits : List Char) : Nat :=
  Nat.ofDigitChars 10 ((digits ++ ['0', '0', '0']).take 3) 0

def fraction? (input : List Char) : Option (Nat × List Char) :=
  match input with
  | '.' :: rest =>
    let digits := rest.takeWhile Char.isDigit
    if digits.isEmpty then none else some (milliseconds digits, rest.drop digits.length)
  | _ => some (0, input)

/-- Milliseconds from midnight; a minute may have a leap second. -/
def timeOfDay? (input : List Char) : Option (Int × List Char) := do
  let (hour, rest) ← small? 0 23 input
  let (minute, rest) ← small? 0 59 (← mark? ':' rest)
  let (second, rest) ← small? 0 60 (← mark? ':' rest)
  let (fraction, rest) ← fraction? rest
  pure ((((hour * 60 + minute) * 60 + second) * 1000 + fraction : Nat), rest)

def twoDigits? : List Char → Option (Nat × List Char)
  | a :: b :: rest =>
    if a.isDigit && b.isDigit then some (Nat.ofDigitChars 10 [a, b] 0, rest) else none
  | _ => none

/-- The hours and minutes of an offset in milliseconds, less than a day; a colon may be left out. -/
def offsetSize? (input : List Char) : Option (Int × List Char) := do
  let (hours, rest) ← twoDigits? input
  let (minutes, rest) ← twoDigits? (rest.dropWhile fun c => c == ':' || Text.isBlank c)
  if hours < 24 ∧ minutes < 60 then pure (((hours * 60 + minutes) * 60 * 1000 : Nat), rest)
  else none

/-- An offset from universal time. The sign may be a hyphen or a minus sign proper. -/
def offset? (input : List Char) : Option (Int × List Char) :=
  match input with
  | 'Z' :: rest | 'z' :: rest => some (0, rest)
  | '+' :: rest => offsetSize? rest
  | '-' :: rest | '\u2212' :: rest => (offsetSize? rest).map fun (n, rest) => (-n, rest)
  | u :: t :: c :: rest =>
    if [u, t, c].map Char.toUpper = ['U', 'T', 'C'] then some (0, rest) else none
  | _ => none

def isSeparator (c : Char) : Bool :=
  c == 'T' || c == 't' || c == ' '

def parse? (s : String) : Option Int := do
  let (day, rest) ← date? s.toList
  let separator :: rest := rest | none
  if !isSeparator separator then none
  let (time, rest) ← timeOfDay? rest
  let (offset, rest) ← offset? (skipBlanks rest)
  let t := day * millisecondsPerDay + time - offset
  if (skipBlanks rest).isEmpty && isDated t then some t else none

end AccessLedger.Instant
