import AccessLedger.Decoding.Mismatch

/-!
What a TOML text says: tables of named values, in the order in which the names first come up. A date
or a time is kept as it is written.
-/

namespace AccessLedger.Toml

inductive Value where
  | text (s : String)
  | integer (n : Int)
  | floating (x : Float)
  | boolean (b : Bool)
  | moment (written : String)
  | list (items : List Value)
  | table (fields : List (String × Value))
deriving Inhabited, Repr

/-- Floating-point numbers are written without exponents in complaints. -/
def floatStyle : Decimal.Style := ⟨none, .greater⟩

/-- What a complaint about the type of a value calls it; a moment counts as a map. -/
def Value.found : Value → Found
  | text s => .text s
  | integer n => .integer n
  | floating x => .floating x
  | boolean b => .boolean b
  | moment _ => .map
  | list _ => .sequence
  | table _ => .map

inductive Fault where
  | malformed
  /-- The text is TOML, but a value is not of the wanted type. -/
  | mismatch (m : Mismatch)
deriving Inhabited, Repr

/-- What is wrong with a value; nothing for a text that is no TOML. -/
def Fault.reason? : Fault → Option String
  | malformed => none
  | mismatch m => some (m.message floatStyle)

def Fault.message (f : Fault) : String :=
  f.reason?.getD "not valid TOML"

end AccessLedger.Toml
