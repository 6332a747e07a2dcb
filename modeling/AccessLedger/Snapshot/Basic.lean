import AccessLedger.Text.TextSet

/-!
What the platform reports: permission groups, the apps that hold them, and when each app used them.
A snapshot is complete in itself and is never changed.
-/

namespace AccessLedger

/-- One use of a permission group by an app. -/
structure Access where
  package : String
  groupName : String
  /-- The group's label when the access was recorded; the group itself may be labelled otherwise. -/
  groupLabel : String
  /-- Milliseconds since 1970; zero stands for a group that was never used. -/
  time : Int
deriving DecidableEq, Inhabited, Repr

/-- An app's hold on a permission group. -/
structure Grant where
  appKey : String
  /-- Whether the user gets to see this group for this app at all. -/
  shown : Bool := true
  accesses : List Access := []
deriving DecidableEq, Inhabited, Repr

structure PermissionGroup where
  name : String
  label : String
  /-- The namespace that declares the group; only the platform's own groups are listed. -/
  declaredBy : String
  icon : String := ""
  permissions : List String := []
  grants : List Grant := []
deriving DecidableEq, Inhabited, Repr

structure App where
  key : String
  label : String
  icon : String := ""
  /-- Policy counts the app as the user's own even though it cannot be launched. -/
  userFacing : Bool := false
deriving DecidableEq, Inhabited, Repr

structure Snapshot where
  groups : List PermissionGroup := []
  apps : List App := []
  launchers : TextSet := .empty
deriving DecidableEq, Inhabited

namespace Snapshot

def app? (s : Snapshot) (key : String) : Option App :=
  s.apps.find? (·.key == key)

def isLaunchable (s : Snapshot) (key : String) : Bool :=
  s.launchers.contains key

/--
An app is the user's own if the user can launch it or policy says so; any other is a system app.
-/
def isSystemApp (s : Snapshot) (app : App) : Bool :=
  !(s.isLaunchable app.key || app.userFacing)

def groupsOf (s : Snapshot) (declaredBy : String) : List (PermissionGroup × Nat) :=
  s.groups.zipIdx.filter (·.1.declaredBy == declaredBy)

end Snapshot

structure Rules where
  platform : String := "android"
  /-- Group labels that are never listed, whatever the filter. -/
  excludedLabels : List String := ["Storage"]
deriving DecidableEq, Inhabited, Repr

def Rules.excludes (r : Rules) (label : String) : Bool :=
  r.excludedLabels.contains label

/-- The groups that the rules admit by their namespace, each with its position among all groups. -/
def Snapshot.platformGroups (s : Snapshot) (r : Rules) : List (PermissionGroup × Nat) :=
  s.groupsOf r.platform

end AccessLedger
