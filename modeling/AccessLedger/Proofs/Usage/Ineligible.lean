import AccessLedger.Proofs.Usage.Digest

/-!
What cannot show in a view. Groups that the platform did not declare, grants that are hidden or go
to unknown apps, and accesses that never were can be taken out of a snapshot without a trace, so two
snapshots that agree in what is left have the same view.
-/

namespace AccessLedger

namespace Snapshot

/--
Grants without those that are hidden or go to unknown apps, and accesses without those of no
positive time.
-/
def eligibleGrants (s : Snapshot) (grants : List Grant) : List Grant :=
  (grants.filter fun grant => grant.shown && (s.app? grant.appKey).isSome).map fun grant =>
    { grant with accesses := grant.accesses.filter (0 < ·.time) }

def eligible (s : Snapshot) (group : PermissionGroup) : PermissionGroup :=
  { group with grants := s.eligibleGrants group.grants }

/-- What is left of the groups when all is taken out that no view can show. -/
def eligibleGroups (s : Snapshot) (r : Rules) : List PermissionGroup :=
  (s.groups.filter fun g => g.declaredBy == r.platform).map s.eligible

def purged (s : Snapshot) (r : Rules) : Snapshot :=
  { s with groups := s.eligibleGroups r }

end Snapshot

/-- An observation of a known app at some time. -/
def Observation.isEligible (o : Observation) : Bool :=
  o.app.isSome && decide (0 < o.access.time)

def Observation.inGroup (group : PermissionGroup) (o : Observation) : Observation :=
  { o with group := group }

section Groups

variable (s : Snapshot) (c : Criteria) (group : PermissionGroup)

/-- The walk through what is left of a grant, if anything is. -/
theorem observations_grant (group' : PermissionGroup) (position : Nat) (grant : Grant) :
    ((grant.accesses.map fun access =>
        (⟨position, group, s.app? grant.appKey, access⟩ : Observation)).filter
          (·.isEligible)).map (·.inGroup group') =
      if (s.app? grant.appKey).isSome then
        (grant.accesses.filter (0 < ·.time)).map fun access =>
          ⟨position, group', s.app? grant.appKey, access⟩
      else [] := by
  rw [List.filter_map, List.map_map]
  cases happ : s.app? grant.appKey with
  | none => simp [Observation.isEligible, Function.comp_def]
  | some app => simp [Observation.isEligible, Observation.inGroup, Function.comp_def]

theorem observationsIn_eligible (position : Nat) :
    s.observationsIn (s.eligible group) position =
      ((s.observationsIn group position).filter (·.isEligible)).map
        (·.inGroup (s.eligible group)) := by
  simp only [Snapshot.observationsIn, List.filter_flatMap, List.map_flatMap, observations_grant]
  show ((s.eligibleGrants group.grants).filter (·.shown)).flatMap _ = _
  generalize s.eligible group = group'
  induction group.grants with
  | nil => rfl
  | cons grant grants ih =>
      rw [Snapshot.eligibleGrants, List.filter_cons, List.filter_cons]
      cases hshown : grant.shown with
      | false => exact ih
      | true =>
          cases happ : (s.app? grant.appKey).isSome with
          | false =>
              simp only [Bool.and_false, Bool.false_eq_true, if_false, if_true, List.flatMap_cons,
                happ, List.nil_append]
              exact ih
          | true =>
              rw [if_pos rfl, List.flatMap_cons, if_pos happ, ← ih]
              simp [hshown, Snapshot.eligibleGrants]

theorem isEligible_of_isListed {o : Observation} (h : (s.verdict c o).isListed = true) :
    o.isEligible = true := by
  obtain ⟨app, happ, hobjection, _⟩ := (isListed_verdict_iff s c o).mp h
  have htime := ((objection?_eq_none_iff c o.group o.access).mp hobjection).1
  simp [Observation.isEligible, happ, htime]

theorem isEligible_of_involvesSystem {o : Observation} (h : (s.verdict c o).involvesSystem = true) :
    o.isEligible = true := by
  obtain ⟨app, happ, hobjection, _⟩ := (involvesSystem_verdict_iff s c o).mp h
  have htime := ((objection?_eq_none_iff c o.group o.access).mp hobjection).1
  simp [Observation.isEligible, happ, htime]

/-- A verdict goes by the label of a group, and all else about the group is left aside. -/
theorem verdict_inGroup {o : Observation} (h : o.group.label = group.label) :
    s.verdict c (o.inGroup group) = s.verdict c o := by
  have hobjection : c.objection? group o.access = c.objection? o.group o.access := by
    rw [Criteria.objection?, Criteria.objection?, h]
  rw [Snapshot.verdict, Snapshot.verdict, ← hobjection]
  rfl

theorem label_of_mem_observationsIn {position : Nat} {o : Observation}
    (ho : o ∈ s.observationsIn group position) : o.group.label = (s.eligible group).label := by
  simp only [Snapshot.observationsIn, List.mem_flatMap, List.mem_map] at ho
  obtain ⟨_, _, _, _, rfl⟩ := ho
  rfl

theorem sightings_eligible : s.sightings c (s.eligible group) = s.sightings c group := by
  have hlisted : s.listedIn c (s.eligible group) 0 =
      (s.listedIn c group 0).map (·.inGroup (s.eligible group)) := by
    rw [Snapshot.listedIn, observationsIn_eligible, List.filter_map, List.filter_filter,
      Snapshot.listedIn]
    congr 1
    apply List.filter_congr
    intro o ho
    rw [Function.comp_apply, verdict_inGroup s c _ (label_of_mem_observationsIn s group ho)]
    cases hlisted : (s.verdict c o).isListed with
    | false => rw [Bool.false_and]
    | true => rw [isEligible_of_isListed s c hlisted, Bool.and_self]
  rw [Snapshot.sightings, hlisted, List.map_map]
  rfl

theorem involvesSystemIn_eligible :
    s.involvesSystemIn c (s.eligible group) = s.involvesSystemIn c group := by
  rw [Snapshot.involvesSystemIn, observationsIn_eligible, List.any_map, List.any_filter,
    Snapshot.involvesSystemIn, Bool.eq_iff_iff, List.any_eq_true, List.any_eq_true]
  apply exists_congr
  intro o
  apply and_congr_right
  intro ho
  rw [Function.comp_apply, verdict_inGroup s c _ (label_of_mem_observationsIn s group ho)]
  cases hinvolves : (s.verdict c o).involvesSystem with
  | false => rw [Bool.and_false]
  | true => rw [isEligible_of_involvesSystem s c hinvolves, Bool.and_self]

theorem bucketsOf_eligible (groups : List PermissionGroup) :
    s.bucketsOf c (groups.map s.eligible) = s.bucketsOf c groups := by
  have haccesses : ∀ appKey g, s.accessesIn c appKey (s.eligible g) = s.accessesIn c appKey g := by
    intro appKey g
    rw [Snapshot.accessesIn, sightings_eligible, Snapshot.accessesIn]
  have hkeys : s.keysSeen c (groups.map s.eligible) = s.keysSeen c groups := by
    simp only [Snapshot.keysSeen, List.flatMap_map, sightings_eligible]
  have hmatched : ∀ g accesses, (s.eligible g).matched? accesses = g.matched? accesses := by
    intro g accesses
    cases accesses <;> rfl
  have hbucket : s.bucketOf c (groups.map s.eligible) = s.bucketOf c groups := by
    funext appKey
    simp only [Snapshot.bucketOf, List.flatMap_map, List.filterMap_map, haccesses, hmatched,
      Function.comp_def]
  rw [Snapshot.bucketsOf, hkeys, hbucket, Snapshot.bucketsOf]

end Groups

section Views

theorem declared_purged (s : Snapshot) (r : Rules) :
    (s.purged r).declared r = (s.declared r).map s.eligible := by
  rw [declared_eq_filter, declared_eq_filter]
  apply List.filter_eq_self.mpr
  intro g hg
  obtain ⟨g', hg', rfl⟩ := List.mem_map.mp hg
  exact (List.mem_filter.mp hg').2

theorem options_purged (o : Outlook) (s : Snapshot) :
    o.options (s.purged o.rules) = o.options s := by
  have hsorted : ((s.declared o.rules).map s.eligible).mergeSort
        (fun x y => o.collation x.label y.label != .gt) =
      ((s.declared o.rules).mergeSort fun x y => o.collation x.label y.label != .gt).map
        s.eligible := by
    symm
    apply List.map_mergeSort
    intro x _ y _
    rfl
  rw [options_eq, options_eq, declared_purged, hsorted, distinctOn_map, List.map_map]
  rfl

theorem Outlook.view_purged (o : Outlook) (s : Snapshot) (selection : Selection) (now : Int) :
    o.view (s.purged o.rules) selection now = o.view s selection now := by
  have hdeclared := declared_purged s o.rules
  apply o.view_withGroups s (s.eligibleGroups o.rules) selection now (options_purged o s)
  · intro c
    exact congrArg (List.map (·.digest))
      ((congrArg (s.bucketsOf c) hdeclared).trans (bucketsOf_eligible s c _))
  · intro c
    rw [show Snapshot.declared { s with groups := s.eligibleGroups o.rules } o.rules = _ from
      hdeclared, List.any_map]
    congr 1
    funext g
    exact involvesSystemIn_eligible s c g

/--
Views go by what is eligible: two snapshots with the same apps that agree in it have the same view.
-/
theorem Outlook.view_of_eligibleGroups (o : Outlook) {s t : Snapshot} (happs : s.apps = t.apps)
    (hlaunchers : s.launchers = t.launchers)
    (hgroups : s.eligibleGroups o.rules = t.eligibleGroups o.rules) (selection : Selection)
    (now : Int) :
    o.view s selection now = o.view t selection now := by
  have hpurged : s.purged o.rules = t.purged o.rules := by
    rw [Snapshot.purged, Snapshot.purged, happs, hlaunchers, hgroups]
  rw [← o.view_purged s, hpurged, o.view_purged]

/--
A group of another platform, a hidden grant, a grant for an unknown app and accesses before their
time.
-/
theorem Outlook.view_of_eligibleGroups_mapsIn :
    let o : Outlook := ⟨{}, {}, .reversed⟩
    let camera := usedByMaps "camera" "Camera" 900
    let s := mapsIn [{ usedByMaps "camera" "Lens" 950 with declaredBy := "vendor" },
      { camera with
        grants := [
          { appKey := "maps", shown := false, accesses := [⟨"maps", "camera", "Camera", 990⟩] },
          { appKey := "notes", accesses := [⟨"notes", "camera", "Camera", 980⟩] },
          { appKey := "maps"
            accesses := [⟨"maps", "camera", "Camera", 0⟩, ⟨"maps", "camera", "Camera", 900⟩,
              ⟨"maps", "camera", "Camera", -5⟩] }] }]
    s.eligibleGroups o.rules = (mapsIn [camera]).eligibleGroups o.rules ∧
      o.view s {} 1000 = o.view (mapsIn [camera]) {} 1000 := by
  intro o camera s
  have hgroups : s.eligibleGroups o.rules = (mapsIn [camera]).eligibleGroups o.rules := by decide
  have happs : s.apps = (mapsIn [camera]).apps := rfl
  have hlaunchers : s.launchers = (mapsIn [camera]).launchers := rfl
  exact ⟨hgroups, o.view_of_eligibleGroups happs hlaunchers hgroups {} 1000⟩

end Views
end AccessLedger
