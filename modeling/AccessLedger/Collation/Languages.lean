import AccessLedger.Filter.Option

/-!
Orders of labels by language. What is a locale, and how texts are ordered in it, is known to a
library of languages, which everything that needs such an order is given.
-/

namespace AccessLedger.Collation

/-- Why a locale gives no order. -/
inductive LocaleFault where
  | invalid (locale reason : String)
  /-- A locale that the library knows by its tag only. -/
  | noData (tag reason : String)
deriving DecidableEq, Inhabited, Repr

def LocaleFault.message : LocaleFault → String
  | invalid locale reason => "invalid collation locale '" ++ locale ++ "': " ++ reason
  | noData tag reason => "no collation data for '" ++ tag ++ "': " ++ reason

/-- A library of languages. It gives a reason for what it cannot do. -/
structure Languages where
  Locale : Type
  read : String → Except String Locale
  /-- The canonical tag of a locale. -/
  tag : Locale → String
  order : Locale → Except String Collation

end AccessLedger.Collation
