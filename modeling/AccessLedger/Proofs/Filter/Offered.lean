import AccessLedger.Proofs.Collation
import AccessLedger.Proofs.Filter.Choice
import AccessLedger.Proofs.StableSort
import AccessLedger.Proofs.Usage.Digest

/-!
The groups on offer. Options are sorted first and then cut down to one for each label, which
compares the labels in two ways: labels that tie in the collation need not be equal, and equal ones
need not stand side by side. Where the collation is a total preorder this comes to the same as
sorting the first groups of the labels. The labels then depend on the set of groups alone if nothing
but a label itself ties with it.
-/

namespace AccessLedger

/-- A group of the platform in front of all others with its label. -/
def Snapshot.Leads (s : Snapshot) (r : Rules) (g : PermissionGroup) : Prop :=
  ∃ before after, s.groups = before ++ g :: after ∧ g.declaredBy = r.platform ∧
    ∀ g' ∈ before, g'.declaredBy = r.platform → g'.label ≠ g.label

/-- Options that offer each label of the platform once and in order, and what they stand for. -/
structure Snapshot.Catalogue (s : Snapshot) (r : Rules) (collation : Collation)
    (options : List GroupOption) : Prop where
  distinct : (options.map (·.label)).Nodup
  covers : ∀ label, label ∈ options.map (·.label) ↔
    ∃ g ∈ s.groups, g.declaredBy = r.platform ∧ g.label = label
  ordered : (options.map (·.label)).Pairwise fun a b => collation a b ≠ .gt
  leads : ∀ option ∈ options, option.groupLabel? = some option.label ∧
    ∃ g, s.Leads r g ∧ g.label = option.label ∧ option.groupName? = some g.name

theorem mem_declared_iff {s : Snapshot} {r : Rules} {g : PermissionGroup} :
    g ∈ s.declared r ↔ g ∈ s.groups ∧ g.declaredBy = r.platform := by
  rw [declared_eq_filter, List.mem_filter, beq_iff_eq]

/-- First among the groups of the platform is first among all groups, those of others aside. -/
theorem leads_of_mem_distinctOn {s : Snapshot} {r : Rules} {g : PermissionGroup}
    (hg : g ∈ distinctOn (·.label) [] (s.declared r)) : s.Leads r g := by
  obtain ⟨_, before, after, hsplit, hbefore⟩ := (mem_distinctOn_iff _ _ _ g).mp hg
  rw [declared_eq_filter, List.filter_eq_append_iff] at hsplit
  obtain ⟨front, rest, hgroups, hfront, hrest⟩ := hsplit
  obtain ⟨others, back, hrest, hothers, hdeclared, _⟩ := List.filter_eq_cons_iff.mp hrest
  refine ⟨front ++ others, back, ?_, beq_iff_eq.mp hdeclared, ?_⟩
  · rw [hgroups, hrest, List.append_assoc]
  · intro g' hg' hplatform
    rcases List.mem_append.mp hg' with hg' | hg'
    · exact hbefore g' (hfront ▸ List.mem_filter.mpr ⟨hg', beq_iff_eq.mpr hplatform⟩)
    · exact absurd (beq_iff_eq.mpr hplatform) (hothers g' hg')

section Sorting

variable (s : Snapshot) (r : Rules) (collation : Collation) [Std.TransCmp collation]

/-- The first groups of the labels, sorted. -/
theorem offeredGroups_eq_mergeSort :
    offeredGroups s r collation =
      (distinctOn (·.label) [] (s.declared r)).mergeSort
        fun x y => collation x.label y.label != .gt := by
  apply distinctOn_mergeSort
  · exact fun x y z => Collation.ne_gt_trans x.label y.label z.label
  · exact fun x y => Collation.ne_gt_total x.label y.label
  · exact fun x y hlabel => Collation.ne_gt_of_eq hlabel

theorem labels_offeredGroups :
    (offeredGroups s r collation).map (·.label) =
      ((s.declared r).map (·.label)).eraseDups.mergeSort fun a b => collation a b != .gt := by
  rw [offeredGroups_eq_mergeSort, ← map_distinctOn]
  apply List.map_mergeSort
  intro x _ y _
  rfl

theorem pairwise_labels_offeredGroups :
    ((offeredGroups s r collation).map (·.label)).Pairwise fun a b => collation a b ≠ .gt := by
  rw [labels_offeredGroups]
  have htrans : ∀ a b c, (collation a b != .gt) = true → (collation b c != .gt) = true →
      (collation a c != .gt) = true := Collation.ne_gt_trans
  exact (List.pairwise_mergeSort htrans Collation.ne_gt_total _).imp bne_iff_ne.mp

/-- With nothing tied but equal labels, they increase. -/
theorem pairwise_lt_labels_offeredGroups [Std.LawfulEqCmp collation] :
    ((offeredGroups s r collation).map (·.label)).Pairwise fun a b => collation a b = .lt := by
  have hne : ((offeredGroups s r collation).map (·.label)).Pairwise (· ≠ ·) :=
    nodup_map_distinctOn _ _ _
  refine (pairwise_labels_offeredGroups s r collation).imp₂ ?_ hne
  intro a b hle hne
  cases hab : collation a b with
  | lt => rfl
  | eq => exact absurd (Std.LawfulEqCmp.eq_of_compare hab) hne
  | gt => exact absurd hab hle

/-- Increasing labels are determined by which they are, not by where their groups stand. -/
theorem labels_offeredGroups_perm [Std.LawfulEqCmp collation] {groups : List PermissionGroup}
    (h : groups.Perm s.groups) :
    (offeredGroups { s with groups } r collation).map (·.label) =
      (offeredGroups s r collation).map (·.label) := by
  have hperm : ((offeredGroups { s with groups } r collation).map (·.label)).Perm
      ((offeredGroups s r collation).map (·.label)) := by
    refine (List.perm_ext_iff_of_nodup ?_ ?_).mpr ?_
    · exact nodup_map_distinctOn _ _ _
    · exact nodup_map_distinctOn _ _ _
    intro label
    rw [mem_labels_offeredGroups_iff, mem_labels_offeredGroups_iff]
    change (∃ g ∈ Snapshot.declared { s with groups } r, _) ↔ ∃ g ∈ s.declared r, _
    simp only [mem_declared_iff, h.mem_iff]
  refine hperm.eq_of_pairwise ?_ (pairwise_lt_labels_offeredGroups _ r collation)
    (pairwise_lt_labels_offeredGroups s r collation)
  intro a b _ _ hab hba
  exact absurd hba (Std.OrientedCmp.not_lt_of_lt hab)

theorem catalogue_offeredGroups :
    s.Catalogue r collation
      ((offeredGroups s r collation).map fun g => .group g.name g.label) := by
  have hlabels : ((offeredGroups s r collation).map fun g => GroupOption.group g.name g.label).map
      (·.label) = (offeredGroups s r collation).map (·.label) := List.map_map
  refine ⟨?_, ?_, ?_, ?_⟩
  · rw [hlabels]
    exact nodup_map_distinctOn _ _ _
  · intro label
    rw [hlabels, mem_labels_offeredGroups_iff]
    change (∃ g ∈ s.declared r, _) ↔ _
    simp only [mem_declared_iff, and_assoc]
  · rw [hlabels]
    exact pairwise_labels_offeredGroups s r collation
  · intro option hoption
    obtain ⟨g, hg, rfl⟩ := List.mem_map.mp hoption
    rw [offeredGroups_eq_mergeSort, List.mem_mergeSort] at hg
    exact ⟨rfl, g, leads_of_mem_distinctOn hg, rfl, rfl⟩

end Sorting

/--
Behind the option for every group, in the order of any total preorder, each label of the platform is
offered once by its first group. Without regard to language the labels increase, and groups in
another order offer the same.
-/
theorem groupOptions_catalogue (s : Snapshot) (r : Rules) (l : Labels) :
    (∀ (collation : Collation) [Std.TransCmp collation], ∃ options,
      groupOptions s r l collation = .any l.anyGroup :: options ∧
        s.Catalogue r collation options) ∧
    (∃ options, groupOptions s r l .folding = .any l.anyGroup :: options ∧
      (options.map (·.label)).Pairwise fun a b => Collation.folding a b = .lt) ∧
    ∀ groups : List PermissionGroup, groups.Perm s.groups →
      (groupOptions { s with groups } r l .folding).map (·.label) =
        (groupOptions s r l .folding).map (·.label) := by
  have hoptions : ∀ (t : Snapshot) (collation : Collation), groupOptions t r l collation =
      .any l.anyGroup :: (offeredGroups t r collation).map fun g => .group g.name g.label :=
    fun t collation => (offers_groupOptions t r l collation).1
  refine ⟨?_, ?_, ?_⟩
  · intro collation _
    exact ⟨_, hoptions s collation, catalogue_offeredGroups s r collation⟩
  · refine ⟨_, hoptions s .folding, ?_⟩
    rw [List.map_map]
    exact pairwise_lt_labels_offeredGroups s r .folding
  · intro groups h
    have hlabels := labels_offeredGroups_perm s r .folding h
    rw [hoptions, hoptions, List.map_cons, List.map_cons, List.map_map, List.map_map]
    exact congrArg (l.anyGroup :: ·) hlabels

/-- Two groups of one label with another in between, then the same three another way round. -/
theorem groupOptions_catalogue_mapsIn :
    let coarse := usedByMaps "coarse" "Location" 400
    let camera := usedByMaps "camera" "Camera" 900
    let fine := usedByMaps "fine" "Location" 100
    let s := mapsIn [coarse, camera, fine]
    Std.TransCmp Collation.reversed ∧
      (∃ options, groupOptions s {} {} .reversed = .any "All permissions" :: options ∧
        s.Catalogue {} .reversed options) ∧
      [camera, coarse, fine].Perm s.groups ∧
      (groupOptions (mapsIn [camera, coarse, fine]) {} {} .folding).map (·.label) =
        (groupOptions s {} {} .folding).map (·.label) := by
  intro coarse camera fine s
  have hperm : [camera, coarse, fine].Perm s.groups := .swap coarse camera [fine]
  obtain ⟨hcatalogue, _, hlabels⟩ := groupOptions_catalogue s {} {}
  exact ⟨inferInstance, hcatalogue .reversed, hperm, hlabels _ hperm⟩

end AccessLedger
