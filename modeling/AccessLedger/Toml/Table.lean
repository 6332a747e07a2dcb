import AccessLedger.Toml.Value

/-!
Tables as they grow line by line. A header opens a table or appends one to a list; a dotted key
reaches into tables below the open one. No value is given twice, and a table that is closed stays as
it is.
-/

namespace AccessLedger.Toml

/-- A name with the names of the tables around it, outermost first. -/
structure Key where
  parents : List String := []
  name : String
deriving DecidableEq, Inhabited, Repr

structure Assignment where
  key : Key
  value : Value
deriving Inhabited, Repr

inductive Origin where
  /-- By a header of its own; also the outermost table. -/
  | header
  /-- By the header of a table inside it, so that its own header may still come. -/
  | implied
  /-- By a dotted key; only dotted keys add to it. -/
  | dotted
deriving DecidableEq, Inhabited, Repr

inductive Node where
  | leaf (v : Value)
  | table (origin : Origin) (members : List (String × Node))
  /-- Tables with one header; the last one is open to headers below it. -/
  | tables (all : List (List (String × Node)))
deriving Inhabited, Repr

abbrev Members := List (String × Node)

namespace Members

def replace (name : String) (n : Node) (ms : Members) : Members :=
  ms.map fun m => if m.1 == name then (name, n) else m

def without (name : String) (ms : Members) : Members :=
  ms.filter (·.1 != name)

/--
Changes the table at the end of a path, tables on the way being made where there are none. Dotted
keys do not reach into tables with a header of their own.
-/
def within (byDots : Bool) (change : Origin → Members → Option Members) :
    List String → Origin → Members → Option Members
  | [], origin, ms => change origin ms
  | name :: path, _, ms =>
    match ms.lookup name with
    | none => do
      let origin := if byDots then Origin.dotted else .implied
      let inner ← within byDots change path origin []
      pure (ms ++ [(name, .table origin inner)])
    | some (.leaf _) => none
    | some (.table origin inner) =>
      if byDots && origin == .header then none
      else do
        let inner ← within byDots change path origin inner
        pure (ms.replace name (.table origin inner))
    | some (.tables all) => do
      let last ← all.getLast?
      let last ← within byDots change path .header last
      pure (ms.replace name (.tables (all.dropLast ++ [last])))

def assign (ms : Members) (a : Assignment) : Option Members :=
  within true (fun origin ms =>
    if (origin == .dotted) == a.key.parents.isEmpty then none
    else if (ms.lookup a.key.name).isSome then none
    else some (ms ++ [(a.key.name, .leaf a.value)])) a.key.parents .header ms

def assignAll (ms : Members) (as : List Assignment) : Option Members :=
  as.foldlM assign ms

/-- Adds a table with a header. One that was implied so far moves to the end. -/
def openTable (ms : Members) (key : Key) (body : List Assignment) : Option Members :=
  within false (fun _ ms =>
    match ms.lookup key.name with
    | none => do
      pure (ms ++ [(key.name, .table .header (← assignAll [] body))])
    | some (.table .implied inner) => do
      pure (ms.without key.name ++ [(key.name, .table .header (← assignAll inner body))])
    | _ => none) key.parents .header ms

def appendTable (ms : Members) (key : Key) (body : List Assignment) : Option Members :=
  within false (fun _ ms =>
    match ms.lookup key.name with
    | none => do
      pure (ms ++ [(key.name, .tables [← assignAll [] body])])
    | some (.tables all) => do
      pure (ms.replace key.name (.tables (all ++ [← assignAll [] body])))
    | _ => none) key.parents .header ms

end Members

mutual

def Node.value : Node → Value
  | .leaf v => v
  | .table _ ms => .table (memberValues ms)
  | .tables all => .list (tableValues all)

def memberValues : List (String × Node) → List (String × Value)
  | [] => []
  | (name, n) :: rest => (name, n.value) :: memberValues rest

def tableValues : List (List (String × Node)) → List Value
  | [] => []
  | ms :: rest => .table (memberValues ms) :: tableValues rest

end

/-- The fields of a table that is given by assignments alone, as one in braces is. -/
def fieldsOf? (as : List Assignment) : Option (List (String × Value)) :=
  (Members.assignAll [] as).map memberValues

structure Section where
  key : Key
  repeated : Bool
  body : List Assignment
deriving Inhabited, Repr

/-- A whole text: assignments before the first header, then tables. -/
structure Source where
  top : List Assignment
  sections : List Section
deriving Inhabited, Repr

def Members.add (ms : Members) (s : Section) : Option Members :=
  if s.repeated then ms.appendTable s.key s.body else ms.openTable s.key s.body

def Source.fields? (s : Source) : Option (List (String × Value)) := do
  let top ← Members.assignAll [] s.top
  let all ← s.sections.foldlM Members.add top
  pure (memberValues all)

end AccessLedger.Toml
