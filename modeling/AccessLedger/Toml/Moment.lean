import AccessLedger.Calendar

/-!
Dates, times of day and both together as TOML writes them, with or without an offset from universal
time. What is read is only checked; the reader gives the rest.
-/

namespace AccessLedger.Toml

def fixedNumber? (n : Nat) : Nat → List Char → Option (Nat × List Char)
  | 0, rest => some (n, rest)
  | count + 1, c :: rest =>
    if c.isDigit then fixedNumber? (10 * n + (c.toNat - '0'.toNat)) count rest else none
  | _ + 1, [] => none

def pair? (least greatest : Nat) (input : List Char) : Option (Nat × List Char) := do
  let (n, rest) ← fixedNumber? 0 2 input
  if least ≤ n ∧ n ≤ greatest then some (n, rest) else none

def expect? (c : Char) : List Char → Option (List Char)
  | x :: rest => if x = c then some rest else none
  | [] => none

def date? (input : List Char) : Option (List Char) := do
  let (year, rest) ← fixedNumber? 0 4 input
  let (month, rest) ← pair? 1 12 (← expect? '-' rest)
  let (_, rest) ← pair? 1 (Calendar.daysInMonth year month) (← expect? '-' rest)
  pure rest

/-- A time of day; a minute may have a leap second. -/
def timeOfDay? (input : List Char) : Option (List Char) := do
  let (_, rest) ← pair? 0 23 input
  let (_, rest) ← pair? 0 59 (← expect? ':' rest)
  let (_, rest) ← pair? 0 60 (← expect? ':' rest)
  match rest with
  | '.' :: c :: more => if c.isDigit then pure (more.dropWhile Char.isDigit) else pure rest
  | _ => pure rest

def skipOffset (input : List Char) : List Char :=
  match input with
  | 'Z' :: rest | 'z' :: rest => rest
  | '+' :: rest | '-' :: rest =>
    (do
      let (_, rest) ← pair? 0 23 rest
      let (_, rest) ← pair? 0 59 (← expect? ':' rest)
      pure rest).getD input
  | _ => input

def isDateSeparator (c : Char) : Bool :=
  c == 'T' || c == 't' || c == ' '

def moment? (input : List Char) : Option (List Char) :=
  match date? input with
  | none => timeOfDay? input
  | some [] => some []
  | some (c :: rest) =>
    if isDateSeparator c then
      match timeOfDay? rest with
      | some rest => some (skipOffset rest)
      | none => some (c :: rest)
    else some (c :: rest)

end AccessLedger.Toml
