import AccessLedger.Labels
import AccessLedger.Snapshot.Basic

/-!
The filters on offer. Group options follow the snapshot and are rebuilt with it; time options never
change.
-/

namespace AccessLedger

abbrev Collation := String → String → Ordering

def Collation.reversed : Collation := fun a b => compare b a

inductive GroupOption where
  | any (label : String)
  | group (name label : String)
deriving DecidableEq, Inhabited, Repr

namespace GroupOption

def label : GroupOption → String
  | any label | group _ label => label

def groupName? : GroupOption → Option String
  | any _ => none
  | group name _ => some name

/-- The label that accesses have to carry; nothing for the option that admits every group. -/
def groupLabel? : GroupOption → Option String
  | any _ => none
  | group _ label => some label

def isAny : GroupOption → Bool
  | any _ => true
  | group .. => false

end GroupOption

structure TimeOption where
  label : String
  window : Window
deriving DecidableEq, Inhabited, Repr

structure FilterOptions where
  groups : List GroupOption := []
  times : List TimeOption := []
deriving DecidableEq, Inhabited, Repr

def distinctByLabel (seen : List String) : List PermissionGroup → List PermissionGroup
  | [] => []
  | g :: gs =>
    if seen.contains g.label then distinctByLabel seen gs
    else g :: distinctByLabel (g.label :: seen) gs

/--
The option for every group, then one option per label of a platform group in the order of
`collation`. Groups that compare equal keep the order of the snapshot, and the first group of a
label stands for it.
-/
def groupOptions (s : Snapshot) (r : Rules) (l : Labels) (collation : Collation) :
    List GroupOption :=
  let groups := (s.platformGroups r).map (·.1)
  let ordered := groups.mergeSort fun x y => collation x.label y.label != .gt
  .any l.anyGroup :: (distinctByLabel [] ordered).map fun g => .group g.name g.label

def timeOptions (l : Labels) : List TimeOption :=
  Window.selectable.map fun w => ⟨l.window w, w⟩

def filterOptions (s : Snapshot) (r : Rules) (l : Labels) (collation : Collation) :
    FilterOptions :=
  ⟨groupOptions s r l collation, timeOptions l⟩

end AccessLedger
