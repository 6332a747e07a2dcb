import AccessLedger.Integer64
import AccessLedger.Session
import AccessLedger.Toml.Record
import AccessLedger.Toml.Writer

/-!
Saved choices as TOML. A file keeps them under names of its own, and positions go up to the greatest
integer there is in TOML.
-/

namespace AccessLedger
open Toml

/-- What a file keeps of the choices in a session. -/
structure FilterState where
  showSystem : Bool := false
  groupFilterPosition : Option Nat := none
  /-- Decides whether the position still means the same. -/
  groupFilterLabel : Option String := none
  timeFilterPosition : Option Nat := none
deriving DecidableEq, Inhabited, Repr

def SavedSelection.filterState (s : SavedSelection) : FilterState where
  showSystem := s.showSystem
  groupFilterPosition := s.groupPosition
  groupFilterLabel := s.groupLabel
  timeFilterPosition := s.timePosition

namespace FilterState

def savedSelection (s : FilterState) : SavedSelection where
  showSystem := s.showSystem
  groupPosition := s.groupFilterPosition
  groupLabel := s.groupFilterLabel
  timePosition := s.timeFilterPosition

def tomlShape : Shape FilterState where
  name := "PersistedViewState"
  fields := [
    .of "show_system" Value.toBool fun x s => { s with showSystem := x },
    .of "group_filter_index" Value.toPosition fun x s => { s with groupFilterPosition := some x },
    .of "group_filter_label" Value.toText fun x s => { s with groupFilterLabel := some x },
    .of "time_filter_index" Value.toPosition fun x s => { s with timeFilterPosition := some x }]

def read (text : String) : Except Fault FilterState :=
  tomlShape.read {} text

def entries (s : FilterState) : List (String × Setting) :=
  [("show_system", .flag s.showSystem)] ++
    (s.groupFilterPosition.map fun n => ("group_filter_index", Setting.number n)).toList ++
    (s.groupFilterLabel.map fun l => ("group_filter_label", Setting.text l)).toList ++
    (s.timeFilterPosition.map fun n => ("time_filter_index", Setting.number n)).toList

/-- Whether every position is an integer in TOML. -/
def isWritable (s : FilterState) : Bool :=
  (s.groupFilterPosition.toList ++ s.timeFilterPosition.toList).all (· < int64Limit)

def write? (s : FilterState) : Option String :=
  if s.isWritable then some (String.ofList (writeLines s.entries)) else none

end FilterState
end AccessLedger
