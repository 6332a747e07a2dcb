import Mathlib.Logic.Relation
import AccessLedger.Proofs.Collation
import AccessLedger.Proofs.Usage.Digest

/-!
Copies of groups. A copy that comes after its original brings no new app and no later access, is
sorted behind its original in rows and in options alike, and is passed over there because it repeats
a name and a label. So copies do not show in a view, however many there are.
-/

namespace AccessLedger

namespace Snapshot

/-- One snapshot and the same with one more copy of a group, anywhere after the group. -/
inductive Copies : Snapshot → Snapshot → Prop
  | copy (before : List PermissionGroup) {group : PermissionGroup} (h : group ∈ before)
      (after : List PermissionGroup) (apps : List App) (launchers : TextSet) :
      Copies ⟨before ++ after, apps, launchers⟩ ⟨before ++ group :: after, apps, launchers⟩

end Snapshot

section Usage

variable {before : List PermissionGroup} {group : PermissionGroup} (h : group ∈ before)
  (after : List PermissionGroup) (s : Snapshot) (c : Criteria)

include h

theorem mem_copy (g : PermissionGroup) : g ∈ before ++ group :: after ↔ g ∈ before ++ after := by
  simp only [List.mem_append, List.mem_cons]
  constructor
  · rintro (hg | rfl | hg)
    · exact .inl hg
    · exact .inl h
    · exact .inr hg
  · rintro (hg | hg)
    · exact .inl hg
    · exact .inr (.inr hg)

theorem keysSeen_copy :
    s.keysSeen c (before ++ group :: after) = s.keysSeen c (before ++ after) := by
  have hseen : ∀ key ∈ (s.sightings c group).map (·.1),
      key ∈ (before.flatMap (s.sightings c)).map (·.1) := by
    intro key hkey
    obtain ⟨sighting, hsighting, rfl⟩ := List.mem_map.mp hkey
    exact List.mem_map_of_mem (List.mem_flatMap.mpr ⟨group, h, hsighting⟩)
  simp only [Snapshot.keysSeen, List.flatMap_append, List.flatMap_cons, List.map_append]
  exact eraseDups_append_middle hseen _

theorem mem_accesses_copy (appKey : String) (a : Access) :
    a ∈ (s.bucketOf c (before ++ group :: after) appKey).accesses ↔
      a ∈ (s.bucketOf c (before ++ after) appKey).accesses := by
  simp only [Snapshot.bucketOf, List.mem_flatMap, mem_copy h]

omit h in
/-- The latest time goes by which accesses there are, however often. -/
theorem latestTime_congr {b b' : Bucket} (haccesses : ∀ a, a ∈ b.accesses ↔ a ∈ b'.accesses) :
    b.latestTime = b'.latestTime := by
  have hmax : (b.accesses.map (·.time)).max? = (b'.accesses.map (·.time)).max? := by
    ext time
    simp only [List.max?_eq_some_iff, List.mem_map, haccesses]
  rw [Bucket.latestTime, hmax, Bucket.latestTime]

theorem distinctOn_recentFirst_copy (appKey : String) :
    distinctOn (fun g => rowKey appKey g.name) []
        (s.bucketOf c (before ++ group :: after) appKey).recentFirst =
      distinctOn (fun g => rowKey appKey g.name) []
        (s.bucketOf c (before ++ after) appKey).recentFirst := by
  simp only [Bucket.recentFirst, Snapshot.bucketOf, List.filterMap_append, List.filterMap_cons]
  cases hmatched : group.matched? (s.accessesIn c appKey group) with
  | none => rfl
  | some m =>
      have hm : m ∈ before.filterMap fun g => g.matched? (s.accessesIn c appKey g) :=
        List.mem_filterMap.mpr ⟨group, h, hmatched⟩
      apply distinctOn_mergeSort_middle _ _ _ hm
      · exact decide_eq_true (Int.le_refl m.time)
      · rfl
      · intro x y z hxy hyz
        simp only [decide_eq_true_eq] at *
        omega
      · intro x y
        simp only [Bool.or_eq_true, decide_eq_true_eq]
        omega

theorem digests_copy :
    (s.bucketsOf c (before ++ group :: after)).map (·.digest) =
      (s.bucketsOf c (before ++ after)).map (·.digest) := by
  rw [Snapshot.bucketsOf, Snapshot.bucketsOf, keysSeen_copy h, List.map_map, List.map_map]
  apply List.map_congr_left
  intro appKey _
  have hlatest := latestTime_congr (mem_accesses_copy h after s c appKey)
  have hgroups := congrArg (List.map (·.unplaced)) (distinctOn_recentFirst_copy h after s c appKey)
  exact congrArg₂ (Digest.mk appKey) hlatest hgroups

theorem any_involvesSystem_copy :
    (before ++ group :: after).any (s.involvesSystemIn c) =
      (before ++ after).any (s.involvesSystemIn c) := by
  rw [Bool.eq_iff_iff, List.any_eq_true, List.any_eq_true]
  simp only [mem_copy h]

end Usage

section Options

variable {collation : Collation}

theorem distinctOn_label_copy [Std.TransCmp collation] {before : List PermissionGroup}
    {group : PermissionGroup} (h : group ∈ before) (after : List PermissionGroup) :
    distinctOn (·.label) []
        ((before ++ group :: after).mergeSort fun x y => collation x.label y.label != .gt) =
      distinctOn (·.label) []
        ((before ++ after).mergeSort fun x y => collation x.label y.label != .gt) := by
  apply distinctOn_mergeSort_middle _ _ _ h
  · exact Collation.ne_gt_of_eq rfl
  · rfl
  · exact fun x y z => Collation.ne_gt_trans x.label y.label z.label
  · exact fun x y => Collation.ne_gt_total x.label y.label

end Options

/-- A copy is not declared by the platform, or it is a copy among the groups that are. -/
theorem declared_copy {s t : Snapshot} (h : s.Copies t) (r : Rules) :
    t.declared r = s.declared r ∨ ∃ before group after, group ∈ before ∧
      s.declared r = before ++ after ∧ t.declared r = before ++ group :: after := by
  cases h with
  | @copy before group hgroup after apps launchers =>
      rw [declared_eq_filter, declared_eq_filter, List.filter_append, List.filter_append,
        List.filter_cons]
      split
      · next hdeclared =>
        exact .inr ⟨_, group, _, List.mem_filter.mpr ⟨hgroup, hdeclared⟩, rfl, rfl⟩
      · exact .inl rfl

theorem Outlook.view_copy (o : Outlook) [Std.TransCmp o.collation] {s t : Snapshot}
    (h : s.Copies t) (selection : Selection) (now : Int) :
    o.view t selection now = o.view s selection now := by
  have hwith : t = { s with groups := t.groups } := by
    cases h
    rfl
  have hdeclared := declared_copy h o.rules
  rw [hwith] at hdeclared ⊢
  obtain hsame | ⟨before, group, after, hgroup, hs, ht⟩ := hdeclared
  · apply o.view_withGroups s t.groups selection now
    · rw [options_eq, options_eq, hsame]
    · intro c
      rw [hsame]
    · intro c
      rw [hsame]
  · apply o.view_withGroups s t.groups selection now
    · rw [options_eq, options_eq, hs, ht, distinctOn_label_copy hgroup]
    · intro c
      rw [hs, ht]
      exact digests_copy hgroup after s c
    · intro c
      rw [hs, ht]
      exact any_involvesSystem_copy hgroup after s c

/--
However many copies of groups a snapshot has, each after its original, its view is the one without
them.
-/
theorem Outlook.view_copies (o : Outlook) [Std.TransCmp o.collation] {s t : Snapshot}
    (h : Relation.ReflTransGen Snapshot.Copies s t) (selection : Selection) (now : Int) :
    o.view t selection now = o.view s selection now := by
  induction h with
  | refl => rfl
  | tail _ hcopy ih => rw [o.view_copy hcopy, ih]

/-- Two groups of one name, the first three times and the second twice. -/
theorem Outlook.view_copies_mapsIn :
    let o : Outlook := ⟨{}, {}, .reversed⟩
    let g := usedByMaps "location" "Location" 400
    let g' := usedByMaps "location" "Approximate location" 900
    Std.TransCmp o.collation ∧
      Relation.ReflTransGen Snapshot.Copies (mapsIn [g, g']) (mapsIn [g, g, g', g, g']) ∧
      o.view (mapsIn [g, g, g', g, g']) {} 1000 = o.view (mapsIn [g, g']) {} 1000 := by
  intro o g g'
  have hcollation : Std.TransCmp o.collation := inferInstanceAs (Std.TransCmp Collation.reversed)
  have hcopies : Relation.ReflTransGen Snapshot.Copies (mapsIn [g, g'])
      (mapsIn [g, g, g', g, g']) := by
    have hsecond : Snapshot.Copies (mapsIn [g, g']) (mapsIn [g, g', g']) :=
      .copy [g, g'] (List.mem_cons_of_mem g (List.mem_singleton_self g')) [] _ _
    have hthird : Snapshot.Copies (mapsIn [g, g', g']) (mapsIn [g, g', g, g']) :=
      .copy [g, g'] (List.mem_cons_self ..) [g'] _ _
    have hfirst : Snapshot.Copies (mapsIn [g, g', g, g']) (mapsIn [g, g, g', g, g']) :=
      .copy [g] (List.mem_cons_self ..) [g', g, g'] _ _
    exact .tail (.tail (.single hsecond) hthird) hfirst
  exact ⟨hcollation, hcopies, o.view_copies hcopies {} 1000⟩

end AccessLedger
