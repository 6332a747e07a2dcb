import AccessLedger.Filter.Option
import AccessLedger.Text.Lowercase

/-!
The order of labels without regard to any language: by lower-case form first, and where that is the
same, by the text itself.
-/

namespace AccessLedger.Collation

/-- Code point by code point; what ends earlier comes first. -/
def compareChars : List Char → List Char → Ordering :=
  List.compareLex fun a b => compare a.toNat b.toNat

/-- The lower-case form of a text, each character on its own. -/
def fold (s : String) : List Char :=
  s.toList.flatMap Text.lowercase

def folding : Collation := fun a b =>
  (compareChars (fold a) (fold b)).then (compareChars a.toList b.toList)

end AccessLedger.Collation
