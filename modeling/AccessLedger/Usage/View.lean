import AccessLedger.Usage.Tree

/-!
A whole view of a snapshot: the filters on offer, the list, and whether system apps are involved.
-/

namespace AccessLedger

/-- What stays the same from view to view. -/
structure Outlook where
  rules : Rules := {}
  labels : Labels := {}
  collation : Collation

structure View where
  options : FilterOptions := {}
  tree : List Entry := []
  hasSystemApps : Bool := false
deriving DecidableEq, Inhabited, Repr

def View.isEmpty (v : View) : Bool :=
  v.tree.isEmpty

namespace Outlook

def options (o : Outlook) (s : Snapshot) : FilterOptions :=
  filterOptions s o.rules o.labels o.collation

def criteria (o : Outlook) (selection : Selection) (now : Int) : Criteria :=
  ⟨o.rules, selection, now⟩

def display (o : Outlook) (s : Snapshot) (now : Int) : Display :=
  ⟨now, o.labels, s⟩

def viewWith (o : Outlook) (options : FilterOptions) (s : Snapshot) (selection : Selection)
    (now : Int) : View :=
  let usage := s.usage (o.criteria selection now)
  ⟨options, (o.display s now).tree usage, usage.hasSystemApps⟩

def view (o : Outlook) (s : Snapshot) (selection : Selection) (now : Int) : View :=
  o.viewWith (o.options s) s selection now

def viewDiagnostics (o : Outlook) (s : Snapshot) (selection : Selection) (now : Int) :
    List Diagnostic :=
  let criteria := o.criteria selection now
  s.usageDiagnostics criteria ++ (o.display s now).treeDiagnostics (s.usage criteria)

end Outlook
end AccessLedger
