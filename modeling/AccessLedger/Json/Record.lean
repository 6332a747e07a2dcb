import AccessLedger.Json.Skip

/-!
Decoders for texts, numbers, lists, options and records. A record is an object whose fields may come
in any order and among others, or a list of its fields in their own order.
-/

namespace AccessLedger.Json
namespace Decoder

/-- Reads enough of the next value to say what it is, and complains that it is not `expected`. -/
def unexpected {α : Type} (expected : String) : Decoder α := placed do
  let wrong (found : Found) : Decoder α := fail (.mismatch (.invalidType found expected))
  let wrongNumber (n : Number) : Decoder α := match n with
    | .natural n => wrong (.integer n)
    | .negative n => wrong (.integer n)
    | .floating x => wrong (.floating x)
  match ← get with
  | some 'n' :: rest => set rest; word ['u', 'l', 'l']; wrong .null
  | some 't' :: rest => set rest; word ['r', 'u', 'e']; wrong (.boolean true)
  | some 'f' :: rest => set rest; word ['a', 'l', 's', 'e']; wrong (.boolean false)
  | some '-' :: rest => set rest; wrongNumber (← unsignedNumber true)
  | some '"' :: rest => set rest; wrong (.text (← stringBody))
  | some '[' :: _ => wrong .sequence
  | some '{' :: _ => wrong .map
  | some c :: _ =>
    if c.isDigit then wrongNumber (← unsignedNumber false) else failNext .noValue
  | none :: _ => failNext .noValue
  | [] => failNext .endOfValue

def string (expected : String := "a string") : Decoder String := placed do
  skipBlanks
  match ← get with
  | some '"' :: rest => set rest; stringBody
  | _ => unexpected expected

def bool : Decoder Bool := placed do
  skipBlanks
  match ← get with
  | some 't' :: rest => set rest; word ['r', 'u', 'e']; pure true
  | some 'f' :: rest => set rest; word ['a', 'l', 's', 'e']; pure false
  | _ => unexpected "a boolean"

def unit : Decoder Unit := placed do
  skipBlanks
  match ← get with
  | some 'n' :: rest => set rest; word ['u', 'l', 'l']
  | _ => unexpected "unit"

/-- An integer that `accept` takes; another one is of the right type but has a wrong value. -/
def integer {α : Type} (expected : String) (accept : Int → Option α) : Decoder α := placed do
  let check (n : Int) : Decoder α := match accept n with
    | some a => pure a
    | none => fail (.mismatch (.invalidValue n expected))
  let ofNumber (n : Number) : Decoder α := match n with
    | .natural n => check n
    | .negative n => check n
    | .floating x => fail (.mismatch (.invalidType (.floating x) expected))
  skipBlanks
  match ← get with
  | some '-' :: rest => set rest; ofNumber (← unsignedNumber true)
  | some c :: _ =>
    if c.isDigit then ofNumber (← unsignedNumber false) else unexpected expected
  | _ => unexpected expected

def int64 : Decoder Int :=
  integer "i64" fun n => if n < int64Limit then some n else none

def nat64 (expected : String := "u64") : Decoder Nat :=
  integer expected fun n => if 0 ≤ n then some n.toNat else none

def option {α : Type} (d : Decoder α) : Decoder (Option α) := do
  skipBlanks
  match ← get with
  | some 'n' :: rest => set rest; word ['u', 'l', 'l']; pure none
  | _ => some <$> d

/-- Elements up to the end of a list; each takes up input, whose length bounds their number. -/
def elements {α : Type} (d : Decoder α) : Nat → Bool → Decoder (List α)
  | 0, _ => failHere .endOfList
  | bound + 1, first => do
    if ← nextElement first then
      let a ← d
      let rest ← elements d bound false
      pure (a :: rest)
    else pure []

def list {α : Type} (d : Decoder α) : Decoder (List α) := placed do
  skipBlanks
  match ← get with
  | some '[' :: rest =>
    set rest
    closedBy closeList (elements d (rest.length + 1) true)
  | _ => unexpected "a sequence"

end Decoder

structure Field (α : Type) where
  name : String
  /-- A field that is not required keeps the value it has at the start. -/
  required : Bool
  /-- Reads the field's value and gives the change it makes to the record. -/
  decode : Decoder (α → α)

def Field.mandatory {α β : Type} (name : String) (d : Decoder β) (set : β → α → α) : Field α :=
  ⟨name, true, set <$> d⟩

def Field.optional {α β : Type} (name : String) (d : Decoder β) (set : β → α → α) : Field α :=
  ⟨name, false, set <$> d⟩

structure Shape (α : Type) where
  name : String
  fields : List (Field α)
  /-- The record before any field is read; required fields hold nothing of meaning. -/
  initial : α

namespace Shape
variable {α : Type}

def description (s : Shape α) : String :=
  "struct " ++ s.name

def missing? (s : Shape α) (seen : List String) : Option String :=
  (s.fields.find? fun f => f.required && !seen.contains f.name).map (·.name)

/-- Fields of an object by name; each takes up input, whose length bounds their number. -/
def members (s : Shape α) : Nat → Bool → List String → α → Decoder α
  | 0, _, _, _ => Decoder.failHere .endOfObject
  | bound + 1, first, seen, a => do
    if ← Decoder.nextKey first then
      modify (·.drop 1)
      let key ← stringBody
      match s.fields.find? (·.name == key) with
      | none =>
        Decoder.colon
        skipValue
        s.members bound false seen a
      | some field =>
        if seen.contains key then Decoder.fail (.mismatch (.duplicateField key))
        else
          Decoder.colon
          let change ← field.decode
          s.members bound false (key :: seen) (change a)
    else
      match s.missing? seen with
      | some name => Decoder.fail (.mismatch (.missingField name))
      | none => pure a

/-- Fields of a list by position; those at the end may be left out if they are not required. -/
def positions (s : Shape α) : List (Field α) → Nat → Bool → α → Decoder α
  | [], _, _, a => pure a
  | field :: fields, position, first, a => do
    if ← Decoder.nextElement first then
      let change ← field.decode
      s.positions fields (position + 1) false (change a)
    else if field.required then
      Decoder.fail (.mismatch (.invalidLength position s.description s.fields.length))
    else s.positions fields (position + 1) first a

def decoder (s : Shape α) : Decoder α := Decoder.placed do
  Decoder.skipBlanks
  match ← get with
  | some '[' :: rest =>
    set rest
    Decoder.closedBy Decoder.closeList (s.positions s.fields 0 true s.initial)
  | some '{' :: rest =>
    set rest
    Decoder.closedBy Decoder.closeObject (s.members (rest.length + 1) true [] s.initial)
  | _ => Decoder.unexpected s.description

end Shape
end AccessLedger.Json
