import AccessLedger.Diagnostic
import AccessLedger.Usage.Observation

/-!
One pass over a snapshot: the listed accesses gathered per app and, within an app, per group, both
in the order in which they were first met; the rest counted by reason.
-/

namespace AccessLedger

/-- A group in which an app has listed accesses, with the latest of them. -/
structure MatchedGroup where
  groupPosition : Nat
  name : String
  /-- The label on the first listed access. -/
  label : String
  icon : String
  latest : Access
deriving DecidableEq, Inhabited, Repr

def MatchedGroup.time (g : MatchedGroup) : Int :=
  g.latest.time

structure Bucket where
  appKey : String
  accesses : List Access := []
  groups : List MatchedGroup := []
deriving DecidableEq, Inhabited, Repr

namespace Bucket

/-- How many names the groups have; several groups may share one. -/
def groupCount (b : Bucket) : Nat :=
  (b.groups.map (·.name)).eraseDups.length

def latestTime (b : Bucket) : Int :=
  (b.accesses.map (·.time)).max?.getD 0

/-- Of two accesses at the same moment the one met first stays the latest. -/
def noteGroup (o : Observation) : List MatchedGroup → List MatchedGroup
  | [] => [⟨o.groupPosition, o.group.name, o.access.groupLabel, o.group.icon, o.access⟩]
  | g :: gs =>
    if g.groupPosition = o.groupPosition then
      (if g.latest.time < o.access.time then { g with latest := o.access } else g) :: gs
    else
      g :: noteGroup o gs

def add (b : Bucket) (o : Observation) : Bucket :=
  { b with accesses := b.accesses ++ [o.access], groups := noteGroup o b.groups }

/-- Adds to the bucket of an app, which is opened at the end if it is not there. -/
def addTo (appKey : String) (o : Observation) : List Bucket → List Bucket
  | [] => [add ⟨appKey, [], []⟩ o]
  | b :: bs => if b.appKey = appKey then b.add o :: bs else b :: addTo appKey o bs

end Bucket

structure SkipCounts where
  neverAccessed : Nat := 0
  groupFiltered : Nat := 0
  excludedLabel : Nat := 0
  outsideWindow : Nat := 0
  systemHidden : Nat := 0
  malformed : Nat := 0
deriving DecidableEq, Inhabited, Repr

namespace SkipCounts

def count (n : SkipCounts) : Skip → SkipCounts
  | .neverAccessed => { n with neverAccessed := n.neverAccessed + 1 }
  | .groupFiltered => { n with groupFiltered := n.groupFiltered + 1 }
  | .excludedLabel => { n with excludedLabel := n.excludedLabel + 1 }
  | .outsideWindow => { n with outsideWindow := n.outsideWindow + 1 }
  | .systemHidden => { n with systemHidden := n.systemHidden + 1 }
  | .malformed => { n with malformed := n.malformed + 1 }

def total (n : SkipCounts) : Nat :=
  n.neverAccessed + n.groupFiltered + n.excludedLabel + n.outsideWindow + n.systemHidden +
    n.malformed

end SkipCounts

structure Usage where
  buckets : List Bucket := []
  /-- Whether a system app passed every other filter, shown or not. -/
  hasSystemApps : Bool := false
  skipped : SkipCounts := {}
deriving DecidableEq, Inhabited, Repr

namespace Usage

def isEmpty (u : Usage) : Bool :=
  u.buckets.isEmpty

def accessCount (u : Usage) : Nat :=
  (u.buckets.flatMap (·.accesses)).length

def note (u : Usage) (o : Observation) : Verdict → Usage
  | .skipped reason =>
    { u with
      hasSystemApps := u.hasSystemApps || reason == .systemHidden
      skipped := u.skipped.count reason }
  | .listed app isSystem =>
    { u with
      buckets := Bucket.addTo app.key o u.buckets
      hasSystemApps := u.hasSystemApps || isSystem }

end Usage

namespace Snapshot

def usage (s : Snapshot) (c : Criteria) : Usage :=
  (s.observations c.rules).foldl (fun u o => u.note o (s.verdict c o)) {}

/-- Grants for apps that are not listed, and accesses before 1970, in the order of the walk. -/
def irregularities (s : Snapshot) (r : Rules) : List Diagnostic :=
  (s.shownGrants r).flatMap fun (_, group, grant) =>
    match s.app? grant.appKey with
    | none => [.unknownApp grant.appKey group.name]
    | some app =>
      (grant.accesses.filter (·.time < 0)).map fun access =>
        .negativeTime app.key group.name access.time

def usageDiagnostics (s : Snapshot) (c : Criteria) : List Diagnostic :=
  let u := s.usage c
  s.irregularities c.rules ++
    [.passFinished u.buckets.length u.accessCount u.skipped.total u.hasSystemApps]

end Snapshot
end AccessLedger
