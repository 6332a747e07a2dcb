import AccessLedger.Labels
import AccessLedger.Usage.Pass

/-!
The list a user sees: one entry per app, with a row per group. Apps with more groups come first,
then those used most recently; rows are most recent first. What ties keeps its order.
-/

namespace AccessLedger

structure Row where
  key : String
  appKey : String
  title : String
  /-- Set on rows that stand alone; rows below an app share the app's icon. -/
  appIcon : Option String := none
  groupName : String
  groupLabel : String
  groupIcon : String
  time : Int
  summary : String
deriving DecidableEq, Inhabited, Repr

inductive Entry where
  | single (row : Row)
  | grouped (appKey title icon : String) (groupIcons : List String) (rows : List Row)
deriving DecidableEq, Inhabited, Repr

namespace Entry

def appKey : Entry → String
  | single row => row.appKey
  | grouped appKey .. => appKey

def rows : Entry → List Row
  | single row => [row]
  | grouped _ _ _ _ rows => rows

end Entry

def rowKey (appKey groupName : String) : String :=
  appKey ++ "," ++ groupName

/-- More groups first, then the later access. -/
def Bucket.ranking (x y : Bucket) : Ordering :=
  (compare y.groupCount x.groupCount).then (compare y.latestTime x.latestTime)

structure Display where
  now : Int
  labels : Labels := {}
  /-- Where titles and icons of apps are looked up. -/
  snapshot : Snapshot
deriving DecidableEq, Inhabited

namespace Display

/-- Title and icon of an app; an app that is not listed goes by its key and has no icon. -/
def appFace (d : Display) (appKey : String) : String × String :=
  match d.snapshot.app? appKey with
  | some app => (app.label, app.icon)
  | none => (appKey, "")

def row (d : Display) (appKey : String) (appIcon : Option String) (g : MatchedGroup) : Row where
  key := rowKey appKey g.name
  appKey := appKey
  title := (d.appFace appKey).1
  appIcon := appIcon
  groupName := g.name
  groupLabel := g.latest.groupLabel
  groupIcon := g.icon
  time := g.time
  summary := d.labels.summary g.latest.groupLabel (describeElapsed (elapsed d.now g.time))

/-- Nothing without groups; an app with one group has no rows below it. -/
def entryFor? (d : Display) (appKey : String) (groups : List MatchedGroup) : Option Entry :=
  match groups with
  | [] => none
  | [only] => some (.single (d.row appKey (some (d.appFace appKey).2) only))
  | many =>
    some (.grouped appKey (d.appFace appKey).1 (d.appFace appKey).2 (many.map (·.icon))
      (many.map (d.row appKey none)))

/--
Leaves out groups whose row key was taken before; gives the groups kept and the keys taken since.
-/
def unclaimed (appKey : String) (taken : List String) :
    List MatchedGroup → List MatchedGroup × List String
  | [] => ([], taken)
  | g :: gs =>
    let key := rowKey appKey g.name
    if taken.contains key then unclaimed appKey taken gs
    else
      let (kept, taken) := unclaimed appKey (key :: taken) gs
      (g :: kept, taken)

/-- Entries for buckets in the order given, a row key being used once in the whole list. -/
def entries (d : Display) (taken : List String) : List Bucket → List Entry
  | [] => []
  | b :: bs =>
    let ordered := b.groups.mergeSort fun x y => y.time ≤ x.time
    let (kept, taken) := unclaimed b.appKey taken ordered
    (d.entryFor? b.appKey kept).toList ++ d.entries taken bs

def tree (d : Display) (u : Usage) : List Entry :=
  d.entries [] (u.buckets.mergeSort fun x y => x.ranking y != .gt)

def treeDiagnostics (d : Display) (u : Usage) : List Diagnostic :=
  [.treeBuilt (d.tree u).length]

end Display
end AccessLedger
