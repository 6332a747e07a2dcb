/-!
What a report says about the filters in force.
-/

namespace AccessLedger

structure Heading where
  group : String
  time : String
  showSystem : Bool
deriving DecidableEq, Inhabited, Repr

end AccessLedger
