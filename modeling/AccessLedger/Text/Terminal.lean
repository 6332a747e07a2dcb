/-!
Text as it looks on a terminal without styles: the controls that steer a terminal are left out, with
all that belongs to them, and so are other controls except white space.
-/

namespace AccessLedger.Text

/-- How far a sequence of controls is read. -/
inductive Steering where
  /-- Plain text. -/
  | off
  /-- After an escape. -/
  | escape
  /-- In an escape sequence that goes on. -/
  | escapeMore
  /-- In a control sequence, up to its final letter. -/
  | control
  /-- In an operating system command, up to a bell. -/
  | command
  /-- In a text for the terminal, up to the next escape. -/
  | string
deriving DecidableEq, Inhabited, Repr

namespace Steering

/-- White space takes part in texts for the terminal, and in other sequences it ends them. -/
def isWhiteSpace (c : Char) : Bool :=
  c == '\t' || c == '\n' || c == '\x0c' || c == '\r'

def afterEscape (c : Char) : Steering :=
  if ' ' ≤ c && c ≤ '/' then escapeMore
  else if c == '[' then control
  else if c == ']' then command
  else if c == 'P' || c == 'X' || c == '^' || c == '_' then string
  else if '0' ≤ c && c ≤ '~' then off
  else escape

def next (s : Steering) (c : Char) : Steering :=
  if c == '\x1b' then escape
  else if c == '\x18' || c == '\x1a' then off
  else
    match s with
    | off => off
    | escape => afterEscape c
    | escapeMore => if '0' ≤ c && c ≤ '~' then off else escapeMore
    | control => if '@' ≤ c && c ≤ '~' then off else control
    | command => if c == '\x07' then off else command
    | string => string

/--
What is shown of a character, if anything. A character beyond ASCII ends a sequence; its first byte
is lost in it, and the others are no text.
-/
def shown? (s : Steering) (c : Char) : Option (List Char) :=
  match s with
  | off => if isWhiteSpace c || (' ' ≤ c && c != '\x7f') then some [c] else none
  | escape | escapeMore | control =>
    if isWhiteSpace c then some [c]
    else if c.toNat < 0x80 then none
    else some (List.replicate (c.utf8Size - 1) '\ufffd')
  | command | string =>
    if c.toNat < 0x80 then none else some (List.replicate (c.utf8Size - 1) '\ufffd')

end Steering

def shownFrom (s : Steering) : List Char → List Char
  | [] => []
  | c :: cs =>
    match s.shown? c with
    | some shown => shown ++ shownFrom .off cs
    | none => shownFrom (s.next c) cs

def withoutSteering (s : String) : String :=
  String.ofList (shownFrom .off s.toList)

end AccessLedger.Text
