import AccessLedger.Toml.Moment
import AccessLedger.Toml.Number
import AccessLedger.Toml.Table

/-!
The grammar of TOML: keys, values, lines. Each function takes one thing off the front of a text.
Lists and tables in braces may be nested to a limited depth, and keys have a limited number of
parts.
-/

namespace AccessLedger.Toml

def skipBlanks (input : List Char) : List Char :=
  input.dropWhile isBlank

def isBare (c : Char) : Bool :=
  c.isAlphanum || c == '-' || c == '_'

def keyPart? (input : List Char) : Option (String × List Char) :=
  match input with
  | '"' :: rest => (basicContent rest).map fun (cs, rest) => (String.ofList cs, rest)
  | '\'' :: rest => (literalContent rest).map fun (cs, rest) => (String.ofList cs, rest)
  | _ =>
    let part := input.takeWhile isBare
    if part.isEmpty then none else some (String.ofList part, input.dropWhile isBare)

/-- The parts of a key with their dots and the blanks around; at most `bound` parts. -/
def keyParts? : Nat → List Char → Option (List String × List Char)
  | 0, _ => none
  | bound + 1, input => do
    let (part, rest) ← keyPart? (skipBlanks input)
    match skipBlanks rest with
    | '.' :: rest =>
      let (parts, rest) ← keyParts? bound rest
      pure (part :: parts, rest)
    | rest => pure ([part], rest)

/-- The greatest number of parts that a key has, and of lists and tables in one another. -/
def depthLimit : Nat := 79

def Key.ofParts? (parts : List String) : Option Key :=
  parts.getLast?.map fun name => ⟨parts.dropLast, name⟩

def key? (input : List Char) : Option (Key × List Char) := do
  let (parts, rest) ← keyParts? depthLimit input
  (Key.ofParts? parts).map (·, rest)

/-- The rest after blanks, line breaks and comments; the length of the text bounds their number. -/
def skipLayout : Nat → List Char → List Char
  | 0, input => input
  | bound + 1, input =>
    match skipBlanks input with
    | '#' :: rest => skipLayout bound (rest.dropWhile isPlain)
    | '\n' :: rest => skipLayout bound rest
    | '\r' :: '\n' :: rest => skipLayout bound rest
    | rest => rest

/-- A reader of values on some level of nesting. -/
abbrev ValueReader := List Char → Option (Value × List Char)

/-- The items of a list up to its end; there may be a comma after the last one. -/
def items? (item? : ValueReader) : Nat → List Char → Option (List Value × List Char)
  | 0, _ => none
  | bound + 1, input =>
    match skipLayout input.length input with
    | ']' :: rest => some ([], rest)
    | input => do
      let (v, rest) ← item? input
      match skipLayout rest.length rest with
      | ',' :: rest =>
        let (vs, rest) ← items? item? bound rest
        pure (v :: vs, rest)
      | ']' :: rest => pure ([v], rest)
      | _ => none

def assignment? (item? : ValueReader) (input : List Char) : Option (Assignment × List Char) := do
  let (key, rest) ← key? input
  match rest with
  | '=' :: rest =>
    let (v, rest) ← item? (skipBlanks rest)
    pure (⟨key, v⟩, rest)
  | _ => none

/-- Assignments up to the end of a table in braces, with commas between them. -/
def bracedAssignments? (item? : ValueReader) : Nat → List Char →
    Option (List Assignment × List Char)
  | 0, _ => none
  | bound + 1, input => do
    let (a, rest) ← assignment? item? input
    match skipBlanks rest with
    | ',' :: rest =>
      let (as, rest) ← bracedAssignments? item? bound rest
      pure (a :: as, rest)
    | '}' :: rest => pure ([a], rest)
    | _ => none

/-- A table in braces, the opening one being read. -/
def bracedTable? (item? : ValueReader) (input : List Char) : Option (Value × List Char) :=
  match skipBlanks input with
  | '}' :: rest => some (.table [], rest)
  | _ => do
    let (as, rest) ← bracedAssignments? item? input.length input
    pure (.table (← fieldsOf? as), rest)

def scalar? (input : List Char) : Option (Value × List Char) :=
  match input with
  | '"' :: _ | '\'' :: _ => (string? input).map fun (cs, rest) => (.text (String.ofList cs), rest)
  | 't' :: 'r' :: 'u' :: 'e' :: rest => some (.boolean true, rest)
  | 'f' :: 'a' :: 'l' :: 's' :: 'e' :: rest => some (.boolean false, rest)
  | _ =>
    match moment? input with
    | some rest => some (.moment (String.ofList (input.take (input.length - rest.length))), rest)
    | none => number? input

/-- A value with so many levels of lists and braces in one another at most. -/
def value? : Nat → ValueReader
  | 0, input => scalar? input
  | depth + 1, input =>
    match input with
    | '[' :: rest => do
      let (vs, rest) ← items? (value? depth) rest.length rest
      pure (.list vs, rest)
    | '{' :: rest => bracedTable? (value? depth) rest
    | _ => scalar? input

def endLine? (input : List Char) : Option (List Char) :=
  let rest := match skipBlanks input with
    | '#' :: rest => rest.dropWhile isPlain
    | rest => rest
  match rest with
  | [] => some []
  | '\n' :: rest => some rest
  | '\r' :: '\n' :: rest => some rest
  | _ => none

inductive Line where
  | blank
  | assignment (a : Assignment)
  | header (key : Key) (repeated : Bool)
deriving Inhabited, Repr

/-- One line with its end, which for a value of several lines is the end of the last. -/
def line? (input : List Char) : Option (Line × List Char) :=
  match skipBlanks input with
  | '[' :: '[' :: rest => do
    let (key, rest) ← key? rest
    match rest with
    | ']' :: ']' :: rest => pure (.header key true, ← endLine? rest)
    | _ => none
  | '[' :: rest => do
    let (key, rest) ← key? rest
    match rest with
    | ']' :: rest => pure (.header key false, ← endLine? rest)
    | _ => none
  | rest =>
    match endLine? rest with
    | some rest => some (.blank, rest)
    | none => do
      let (a, rest) ← assignment? (value? depthLimit) rest
      pure (.assignment a, ← endLine? rest)

/-- The lines of a text, whose length bounds their number. -/
def lines? : Nat → List Char → Option (List Line)
  | _, [] => some []
  | 0, _ => none
  | bound + 1, input => do
    let (line, rest) ← line? input
    let lines ← lines? bound rest
    pure (line :: lines)

def Source.ofLines : List Line → Source
  | [] => ⟨[], []⟩
  | .blank :: lines => ofLines lines
  | .assignment a :: lines =>
    let s := ofLines lines
    { s with top := a :: s.top }
  | .header key repeated :: lines =>
    let s := ofLines lines
    ⟨[], ⟨key, repeated, s.top⟩ :: s.sections⟩

/-- A mark of the byte order at the very beginning does not count. -/
def skipByteOrderMark : List Char → List Char
  | '\uFEFF' :: rest => rest
  | input => input

def read? (text : String) : Option (List (String × Value)) := do
  let input := skipByteOrderMark text.toList
  let lines ← lines? input.length input
  (Source.ofLines lines).fields?

end AccessLedger.Toml
