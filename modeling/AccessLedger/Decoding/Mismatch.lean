import AccessLedger.Decimal.Shortest
import AccessLedger.Text.Quoted

/-!
Well-formed data that is not what was asked for: a value of another type, a field that is missing or
given twice, an unknown alternative.
-/

namespace AccessLedger

inductive Found where
  | null
  | boolean (b : Bool)
  | integer (n : Int)
  | floating (x : Float)
  | text (s : String)
  | sequence
  | map
  | unitVariant
deriving Inhabited, Repr

inductive Mismatch where
  | invalidType (found : Found) (expected : String)
  | invalidValue (integer : Int) (expected : String)
  | invalidLength (length : Nat) (expected : String) (elements : Nat)
  | missingField (name : String)
  | duplicateField (name : String)
  | unknownVariant (name : String) (expected : List String)
deriving Inhabited, Repr

def Found.describe (style : Decimal.Style) : Found → String
  | null => "null"
  | boolean b => "boolean `" ++ toString b ++ "`"
  | integer n => "integer `" ++ toString n ++ "`"
  | floating x => "floating point `" ++ Decimal.write style x ++ "`"
  | text s => "string " ++ Text.quoted s
  | sequence => "sequence"
  | map => "map"
  | unitVariant => "unit variant"

def Mismatch.message (style : Decimal.Style) : Mismatch → String
  | invalidType found expected =>
    "invalid type: " ++ found.describe style ++ ", expected " ++ expected
  | invalidValue n expected =>
    "invalid value: integer `" ++ toString n ++ "`, expected " ++ expected
  | invalidLength length expected elements =>
    "invalid length " ++ toString length ++ ", expected " ++ expected ++ " with " ++
      toString elements ++ " elements"
  | missingField name => "missing field `" ++ name ++ "`"
  | duplicateField name => "duplicate field `" ++ name ++ "`"
  | unknownVariant name expected =>
    "unknown variant `" ++ name ++ "`, expected one of " ++
      String.intercalate ", " (expected.map fun e => "`" ++ e ++ "`")

end AccessLedger
