import AccessLedger.Filter.Selection

/-!
The walk through a snapshot: every access in a shown grant of a platform group, in order, and what
becomes of it under the filters.
-/

namespace AccessLedger

/-- An access together with the way that led to it. -/
structure Observation where
  /-- The position of the group in the snapshot, which tells groups of one name apart. -/
  groupPosition : Nat
  group : PermissionGroup
  /-- Nothing when the grant names an app that the snapshot does not list. -/
  app : Option App
  access : Access
deriving DecidableEq, Inhabited, Repr

def Snapshot.shownGrants (s : Snapshot) (r : Rules) : List (Nat × PermissionGroup × Grant) :=
  (s.platformGroups r).flatMap fun (group, position) =>
    (group.grants.filter (·.shown)).map fun grant => (position, group, grant)

def Snapshot.observations (s : Snapshot) (r : Rules) : List Observation :=
  (s.shownGrants r).flatMap fun (position, group, grant) =>
    grant.accesses.map fun access => ⟨position, group, s.app? grant.appKey, access⟩

inductive Skip where
  | neverAccessed
  | groupFiltered
  | excludedLabel
  | outsideWindow
  | systemHidden
  | malformed
deriving DecidableEq, Inhabited, Repr

/-- What decides on an access: rules, filters and the present moment. -/
structure Criteria where
  rules : Rules := {}
  selection : Selection := {}
  now : Int
deriving DecidableEq, Inhabited, Repr

/-- The first reason against an access that does not depend on its app. -/
def Criteria.objection? (c : Criteria) (group : PermissionGroup) (access : Access) : Option Skip :=
  if access.time = 0 then some .neverAccessed
  else if access.time < 0 then some .malformed
  else if !c.selection.admitsGroup group.label then some .groupFiltered
  else if c.rules.excludes group.label then some .excludedLabel
  else if !isRecent c.now access.time c.selection.window.threshold then some .outsideWindow
  else none

inductive Verdict where
  | skipped (reason : Skip)
  /-- Listed for an app of the user's own or for a system app. -/
  | listed (app : App) (isSystem : Bool)
deriving DecidableEq, Inhabited, Repr

/--
An unknown app comes first, then the reasons of `Criteria.objection?`, then the hiding of system
apps.
-/
def Snapshot.verdict (s : Snapshot) (c : Criteria) (o : Observation) : Verdict :=
  match o.app with
  | none => .skipped .malformed
  | some app =>
    match c.objection? o.group o.access with
    | some reason => .skipped reason
    | none =>
      if s.isSystemApp app && !c.selection.showSystem then .skipped .systemHidden
      else .listed app (s.isSystemApp app)

end AccessLedger
