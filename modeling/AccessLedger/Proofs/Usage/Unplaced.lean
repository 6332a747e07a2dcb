import AccessLedger.Proofs.Usage.Buckets

/-!
A pass without positions. A group's position in the snapshot serves to tell groups of one name apart
and for nothing else: buckets whose positions are forgotten can be read off the groups of the
platform one by one.
-/

namespace AccessLedger

def MatchedGroup.unplaced (g : MatchedGroup) : MatchedGroup :=
  { g with groupPosition := 0 }

def Bucket.unplaced (b : Bucket) : Bucket :=
  { b with groups := b.groups.map (·.unplaced) }

/-- What the accesses of one app in a group are gathered to. -/
def PermissionGroup.matched? (group : PermissionGroup) : List Access → Option MatchedGroup
  | [] => none
  | a :: as => some ⟨0, group.name, a.groupLabel, group.icon, as.foldl Access.later a⟩

/-- An access with the key of its app. -/
abbrev Sighting := String × Access

def Observation.sighting (o : Observation) : Sighting :=
  (o.appKey, o.access)

namespace Snapshot

/-- The groups of the platform, whose positions are left out. -/
def declared (s : Snapshot) (r : Rules) : List PermissionGroup :=
  (s.platformGroups r).map (·.1)

/-- The part of the walk in one group, as if it stood at the position. -/
def observationsIn (s : Snapshot) (group : PermissionGroup) (position : Nat) : List Observation :=
  (group.grants.filter (·.shown)).flatMap fun grant =>
    grant.accesses.map fun access => ⟨position, group, s.app? grant.appKey, access⟩

def listedIn (s : Snapshot) (c : Criteria) (group : PermissionGroup) (position : Nat) :
    List Observation :=
  (s.observationsIn group position).filter fun o => (s.verdict c o).isListed

def sightings (s : Snapshot) (c : Criteria) (group : PermissionGroup) : List Sighting :=
  (s.listedIn c group 0).map (·.sighting)

def involvesSystemIn (s : Snapshot) (c : Criteria) (group : PermissionGroup) : Bool :=
  (s.observationsIn group 0).any fun o => (s.verdict c o).involvesSystem

/-- The listed accesses of an app in a group. -/
def accessesIn (s : Snapshot) (c : Criteria) (appKey : String) (group : PermissionGroup) :
    List Access :=
  ((s.sightings c group).filter (·.1 = appKey)).map (·.2)

def bucketOf (s : Snapshot) (c : Criteria) (groups : List PermissionGroup) (appKey : String) :
    Bucket where
  appKey := appKey
  accesses := groups.flatMap (s.accessesIn c appKey)
  groups := groups.filterMap fun g => g.matched? (s.accessesIn c appKey g)

/-- The keys of the apps seen in some groups, in the order in which they are first met. -/
def keysSeen (s : Snapshot) (c : Criteria) (groups : List PermissionGroup) : List String :=
  ((groups.flatMap (s.sightings c)).map (·.1)).eraseDups

def bucketsOf (s : Snapshot) (c : Criteria) (groups : List PermissionGroup) : List Bucket :=
  (s.keysSeen c groups).map (s.bucketOf c groups)

end Snapshot

section Walk

variable (s : Snapshot) (c : Criteria)

theorem declared_eq_filter (r : Rules) :
    s.declared r = s.groups.filter fun g => g.declaredBy == r.platform := by
  have h : s.groups = s.groups.zipIdx.map Prod.fst := (List.zipIdx_map_fst 0 s.groups).symm
  conv_rhs => rw [h, List.filter_map]
  rfl

theorem observations_eq_flatMap (r : Rules) :
    s.observations r =
      (s.platformGroups r).flatMap fun (group, position) => s.observationsIn group position := by
  rw [Snapshot.observations, Snapshot.shownGrants, List.flatMap_assoc]
  simp only [List.flatMap_map]
  rfl

theorem listed_eq_flatMap :
    s.listed c =
      (s.platformGroups c.rules).flatMap fun (group, position) => s.listedIn c group position := by
  rw [Snapshot.listed, observations_eq_flatMap, List.filter_flatMap]
  rfl

/-- No verdict goes by a position. -/
theorem map_sighting_listedIn (group : PermissionGroup) (position : Nat) :
    (s.listedIn c group position).map (·.sighting) = s.sightings c group := by
  simp only [Snapshot.sightings, Snapshot.listedIn, Snapshot.observationsIn, List.filter_flatMap,
    List.map_flatMap, List.filter_map, List.map_map]
  rfl

theorem any_involvesSystem_observationsIn (group : PermissionGroup) (position : Nat) :
    ((s.observationsIn group position).any fun o => (s.verdict c o).involvesSystem) =
      s.involvesSystemIn c group := by
  simp only [Snapshot.involvesSystemIn, Snapshot.observationsIn, List.any_flatMap, List.any_map]
  rfl

theorem mem_listedIn {group : PermissionGroup} {position : Nat} {o : Observation}
    (ho : o ∈ s.listedIn c group position) : o.groupPosition = position ∧ o.group = group := by
  obtain ⟨ho, _⟩ := List.mem_filter.mp ho
  simp only [Snapshot.observationsIn, List.mem_flatMap, List.mem_map] at ho
  obtain ⟨_, _, _, _, rfl⟩ := ho
  exact ⟨rfl, rfl⟩

end Walk

section Gathered

/-- The observations of an app in one group come to the group that its accesses are gathered to. -/
theorem map_unplaced_collapse? {group : PermissionGroup} {l : List Observation}
    (hl : ∀ o ∈ l, o.group = group) :
    (matchedGrouping.collapse? l).map (·.unplaced) = group.matched? (l.map (·.access)) := by
  cases l with
  | nil => rfl
  | cons o os =>
      rw [collapse?_matchedGrouping, ← hl o (List.mem_cons_self ..)]
      rfl

variable (s : Snapshot) (c : Criteria)

theorem pairwise_positions (r : Rules) : ((s.platformGroups r).map (·.2)).Pairwise (· < ·) := by
  have hsub : ((s.platformGroups r).map (·.2)).Sublist (s.groups.zipIdx.map (·.2)) :=
    List.filter_sublist.map _
  rw [List.zipIdx_map_snd] at hsub
  exact (List.pairwise_lt_range' 1).sublist hsub

theorem nodup_positions (r : Rules) : ((s.platformGroups r).map (·.2)).Nodup :=
  (pairwise_positions s r).imp Nat.ne_of_lt

theorem keys_usage :
    (s.usage c).buckets.map (·.appKey) = s.keysSeen c (s.declared c.rules) := by
  have hkeys : (s.listed c).map (·.appKey) =
      ((s.declared c.rules).flatMap (s.sightings c)).map (·.1) := by
    rw [listed_eq_flatMap, Snapshot.declared, List.flatMap_map, List.map_flatMap, List.map_flatMap]
    congr 1
    funext (group, position)
    rw [← map_sighting_listedIn s c group position, List.map_map]
    rfl
  rw [appKeys_usage, Snapshot.keysSeen, hkeys]

theorem map_access_listedIn (appKey : String) (group : PermissionGroup) (position : Nat) :
    ((s.listedIn c group position).filter fun o => o.appKey = appKey).map (·.access) =
      s.accessesIn c appKey group := by
  rw [Snapshot.accessesIn, ← map_sighting_listedIn s c group position, List.filter_map,
    List.map_map]
  rfl

theorem unplaced_of_mem_usage {b : Bucket} (hb : b ∈ (s.usage c).buckets) :
    b.unplaced = s.bucketOf c (s.declared c.rules) b.appKey := by
  have haccesses : b.accesses = (s.declared c.rules).flatMap (s.accessesIn c b.appKey) := by
    rw [accesses_of_mem_usage hb, listed_eq_flatMap, List.filter_flatMap, List.map_flatMap,
      Snapshot.declared, List.flatMap_map]
    congr 1
    funext (group, position)
    exact map_access_listedIn s c b.appKey group position
  have hgroups : b.groups.map (·.unplaced) =
      (s.declared c.rules).filterMap fun g => g.matched? (s.accessesIn c b.appKey g) := by
    rw [groups_of_mem_usage hb, listed_eq_flatMap, List.filter_flatMap,
      matchedGrouping.gather_flatMap (·.2) _ ?_ (nodup_positions s c.rules), List.map_filterMap,
      Snapshot.declared, List.filterMap_map]
    · congr 1
      funext (group, position)
      rw [Function.comp_apply, ← map_access_listedIn s c b.appKey group position]
      apply map_unplaced_collapse?
      intro o ho
      exact (mem_listedIn s c (List.mem_filter.mp ho).1).2
    · intro (group, position) _ o ho
      exact (mem_listedIn s c (List.mem_filter.mp ho).1).1
  rw [Bucket.unplaced, hgroups, haccesses]
  rfl

/-- Buckets without positions, read off the groups of the platform. -/
theorem unplaced_usage :
    (s.usage c).buckets.map (·.unplaced) = s.bucketsOf c (s.declared c.rules) := by
  rw [Snapshot.bucketsOf, ← keys_usage, List.map_map]
  apply List.map_congr_left
  intro b hb
  exact unplaced_of_mem_usage s c hb

theorem hasSystemApps_usage :
    (s.usage c).hasSystemApps = (s.declared c.rules).any (s.involvesSystemIn c) := by
  rw [usage_hasSystemApps, observations_eq_flatMap, List.any_flatMap, Snapshot.declared,
    List.any_map]
  congr 1
  funext (group, position)
  exact any_involvesSystem_observationsIn s c group position

end Gathered
end AccessLedger
