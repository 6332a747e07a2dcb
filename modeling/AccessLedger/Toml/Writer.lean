/-!
Lines of TOML to be written. A string takes the plainest form that holds it; a list of two items or
more takes a line for each.
-/

namespace AccessLedger.Toml

inductive Setting where
  | flag (b : Bool)
  | number (n : Nat)
  | text (s : String)
  | texts (items : List String)
deriving DecidableEq, Inhabited, Repr

inductive TextForm where
  | basic
  | literal
  | basicLines
  | literalLines
deriving DecidableEq, Inhabited, Repr

def isControl (c : Char) : Bool :=
  (c.toNat < 0x20 && c != '\t' && c != '\n') || c.toNat == 0x7F

/-- The length of the longest run of a character, given the length of the run right before. -/
def longestRun (c : Char) (before : Nat) : List Char → Nat
  | [] => before
  | x :: rest => if x = c then longestRun c (before + 1) rest else max before (longestRun c 0 rest)

/-- The first form that holds a text as it stands; else a form with escapes. -/
def TextForm.of (cs : List Char) : TextForm :=
  let breaks := cs.contains '\n'
  let controls := cs.any isControl
  let backslashes := cs.contains '\\'
  let doubles := longestRun '"' 0 cs
  let singles := longestRun '\'' 0 cs
  if !controls && !backslashes && doubles = 0 && !breaks then .basic
  else if !controls && singles = 0 && !breaks then .literal
  else if !controls && !backslashes && doubles ≤ 2 then .basicLines
  else if !controls && singles ≤ 2 then .literalLines
  else if breaks then .basicLines
  else .basic

def upperHexDigit (n : Nat) : Char :=
  (Nat.digitChar n).toUpper

/--
What stands for a character between double quotes; quotes and line breaks are treated elsewhere.
-/
def writeChar (c : Char) : List Char :=
  match c with
  | '\x08' => ['\\', 'b']
  | '\t' => ['\\', 't']
  | '\n' => ['\\', 'n']
  | '\x0c' => ['\\', 'f']
  | '\r' => ['\\', 'r']
  | '\\' => ['\\', '\\']
  | c =>
    if isControl c then
      ['\\', 'u', '0', '0', upperHexDigit (c.toNat / 16), upperHexDigit (c.toNat % 16)]
    else [c]

def writeBasic (cs : List Char) : List Char :=
  cs.flatMap fun c => if c = '"' then ['\\', '"'] else writeChar c

/-- Of quotes in a row every third is escaped; `quotes` of them came right before. -/
def writeBasicLines (quotes : Nat) : List Char → List Char
  | [] => []
  | '"' :: rest =>
    if quotes < 2 then '"' :: writeBasicLines (quotes + 1) rest
    else '\\' :: '"' :: writeBasicLines 0 rest
  | '\n' :: rest => '\n' :: writeBasicLines 0 rest
  | c :: rest => writeChar c ++ writeBasicLines 0 rest

/-- A form of several lines begins on a line of its own if there are several. -/
def openingBreak (cs : List Char) : List Char :=
  if cs.contains '\n' then ['\n'] else []

def writeText (s : String) : List Char :=
  let cs := s.toList
  match TextForm.of cs with
  | .basic => ['"'] ++ writeBasic cs ++ ['"']
  | .literal => ['\''] ++ cs ++ ['\'']
  | .basicLines => ['"', '"', '"'] ++ openingBreak cs ++ writeBasicLines 0 cs ++ ['"', '"', '"']
  | .literalLines => ['\'', '\'', '\''] ++ openingBreak cs ++ cs ++ ['\'', '\'', '\'']

def writeItem (s : String) : List Char :=
  [' ', ' ', ' ', ' '] ++ writeText s ++ [',', '\n']

def Setting.write : Setting → List Char
  | flag true => ['t', 'r', 'u', 'e']
  | flag false => ['f', 'a', 'l', 's', 'e']
  | number n => Nat.toDigits 10 n
  | text s => writeText s
  | texts [] => ['[', ']']
  | texts [s] => ['['] ++ writeText s ++ [']']
  | texts items => ['[', '\n'] ++ items.flatMap writeItem ++ [']']

def writeLine (entry : String × Setting) : List Char :=
  entry.1.toList ++ [' ', '=', ' '] ++ entry.2.write ++ ['\n']

def writeLines (entries : List (String × Setting)) : List Char :=
  entries.flatMap writeLine

def writeTable (name : String) (entries : List (String × Setting)) : List Char :=
  ['['] ++ name.toList ++ [']', '\n'] ++ writeLines entries

end AccessLedger.Toml
