import AccessLedger.Filter.Option

/-!
The filters in force, and how a choice of group is carried from one list of options to the next: by
label, never by position alone, because options come and go.
-/

namespace AccessLedger

structure Selection where
  /-- The label of the wanted group; nothing admits every group. -/
  groupLabel : Option String := none
  window : Window := .anyTime
  showSystem : Bool := false
deriving DecidableEq, Inhabited, Repr

namespace Selection

/--
The filters at two positions among the options; a position that does not exist admits everything.
-/
def ofPositions (o : FilterOptions) (group time : Nat) (showSystem : Bool) : Selection where
  groupLabel := o.groups[group]?.bind (·.groupLabel?)
  window := (o.times[time]?.map (·.window)).getD .anyTime
  showSystem := showSystem

def admitsGroup (s : Selection) (label : String) : Bool :=
  match s.groupLabel with
  | none => true
  | some wanted => wanted == label

end Selection

structure ChosenGroup where
  position : Nat
  label : String
deriving DecidableEq, Inhabited, Repr

/-- What is known about the group to choose when the options were rebuilt. -/
structure GroupHints where
  current : Option String := none
  /-- The name of a group that was asked for from outside. -/
  target : Option String := none
  savedPosition : Option Nat := none
  /-- The label that stood at the saved position. -/
  savedLabel : Option String := none
deriving DecidableEq, Inhabited, Repr

namespace GroupHints

def positionOfLabel (options : List GroupOption) (label : String) : Option Nat :=
  options.findIdx? (·.label == label)

/--
A choice made before follows its label. Otherwise the target decides, then the saved label, then the
saved position; whatever leads nowhere leads to the first option.
-/
def position (options : List GroupOption) (h : GroupHints) : Nat :=
  match h.current with
  | some label => (positionOfLabel options label).getD 0
  | none =>
    match h.target.bind fun name => options.findIdx? (·.groupName? == some name) with
    | some position => position
    | none =>
      match h.savedLabel, h.savedPosition with
      | some label, _ => (positionOfLabel options label).getD 0
      | none, some position => if position < options.length then position else 0
      | none, none => 0

/-- The option that the hints lead to, with an empty label when there are no options. -/
def choose (options : List GroupOption) (h : GroupHints) : ChosenGroup :=
  let position := h.position options
  ⟨position, (options[position]?.map (·.label)).getD ""⟩

end GroupHints

/-- A saved position among the time options, or the first when there is no such position. -/
def restoreTimePosition (saved : Option Nat) : Nat :=
  match saved with
  | some position => if position < Window.selectable.length then position else 0
  | none => 0

/--
The platform group that has this name or holds this permission; the first one if there are several.
-/
def resolveTarget? (s : Snapshot) (r : Rules) (target : String) : Option String :=
  ((s.platformGroups r).find? fun (g, _) =>
    g.name == target || g.permissions.contains target).map (·.1.name)

end AccessLedger
