import AccessLedger.Proofs.Usage.Checks

/-!
A pass as a grouping of what passes. The buckets hold the observations that fail no check, by app
and within an app by group, and nothing of their order is lost: apps stand in the order of their
first observation, accesses in the order of the walk and groups in that of the snapshot. Of the
accesses in one group the latest is kept, the first where several are of one moment.
-/

namespace AccessLedger

/-- The observations that fail no check, in the order of the walk. -/
def Snapshot.passing (s : Snapshot) (c : Criteria) : List Observation :=
  (s.observations c.rules).filter fun o => s.failing? c o = none

/-- A matched group that is made of observations of one app in one group. -/
structure MatchedGroup.MadeOf (s : Snapshot) (g : MatchedGroup) (os : List Observation) : Prop where
  /-- Name and icon are those of the group at the position. -/
  placed : ∃ group, s.groups[g.groupPosition]? = some group ∧ g.name = group.name ∧
    g.icon = group.icon
  labelled : os.head?.map (·.access.groupLabel) = some g.label
  latest : Access.IsLatest (os.map (·.access)) g.latest

section Walk

variable (s : Snapshot)

theorem listed_eq_passing (c : Criteria) : s.listed c = s.passing c := by
  rw [Snapshot.listed, Snapshot.passing]
  congr 1
  funext o
  rw [isListed_eq_isNone, reason?_verdict, Bool.eq_iff_iff, Option.isNone_iff_eq_none,
    decide_eq_true_eq]

/-- The walk goes through the groups in their order. -/
theorem pairwise_groupPosition (r : Rules) :
    (s.observations r).Pairwise fun o o' => o.groupPosition ≤ o'.groupPosition := by
  have hposition : ∀ {group position o}, o ∈ s.observationsIn group position →
      o.groupPosition = position := by
    intro group position o ho
    simp only [Snapshot.observationsIn, List.mem_flatMap, List.mem_map] at ho
    obtain ⟨_, _, _, _, rfl⟩ := ho
    rfl
  rw [observations_eq_flatMap, List.pairwise_flatMap]
  constructor
  · intro placed _
    refine List.pairwise_of_forall_mem_list ?_
    intro o ho o' ho'
    rw [hposition ho, hposition ho']
  · refine (List.pairwise_map.mp (pairwise_positions s r)).imp ?_
    intro placed placed' hlt o ho o' ho'
    rw [hposition ho, hposition ho']
    exact Nat.le_of_lt hlt

end Walk

section Usage

variable {s : Snapshot} {c : Criteria} {b : Bucket} (hb : b ∈ (s.usage c).buckets)
include hb

theorem pairwise_positions_of_mem_usage : (b.groups.map (·.groupPosition)).Pairwise (· < ·) := by
  have hkeys := matchedGrouping.keys_gather ((s.listed c).filter fun o => o.appKey = b.appKey)
  rw [← groups_of_mem_usage hb] at hkeys
  have hsub : ((s.listed c).filter fun o => o.appKey = b.appKey).Sublist (s.observations c.rules) :=
    List.filter_sublist.trans List.filter_sublist
  show (b.groups.map matchedGrouping.key).Pairwise (· < ·)
  rw [hkeys]
  apply pairwise_lt_eraseDups
  exact List.pairwise_map.mpr ((pairwise_groupPosition s c.rules).sublist hsub)

theorem madeOf_of_mem_usage {g : MatchedGroup} (hg : g ∈ b.groups) :
    g.MadeOf s
      ((s.listed c).filter fun o => o.appKey = b.appKey ∧ o.groupPosition = g.groupPosition) := by
  obtain ⟨o, os, hos, hgroup⟩ := matched_of_mem_usage hb hg
  have ho : o ∈ s.listed c := (List.mem_filter.mp (hos ▸ List.mem_cons_self ..)).1
  obtain ⟨⟨hget, _⟩, _⟩ := (mem_observations_iff s c.rules o).mp ((mem_listed_iff s c o).mp ho).1
  rw [hos, hgroup]
  exact ⟨⟨o.group, hget, rfl, rfl⟩, rfl, Access.isLatest_foldl_later o.access _⟩

theorem latest_mem_accesses {g : MatchedGroup} (hg : g ∈ b.groups) : g.latest ∈ b.accesses := by
  obtain ⟨⟨o, ho, hkey, _, hlatest⟩, _⟩ := group_of_mem_usage hb hg
  rw [accesses_of_mem_usage hb, hlatest]
  exact List.mem_map_of_mem (List.mem_filter.mpr ⟨ho, decide_eq_true hkey⟩)

theorem exists_group_of_mem_accesses {a : Access} (ha : a ∈ b.accesses) :
    ∃ g ∈ b.groups, a.time ≤ g.time := by
  rw [accesses_of_mem_usage hb] at ha
  obtain ⟨o, ho, rfl⟩ := List.mem_map.mp ha
  obtain ⟨ho, hkey⟩ := List.mem_filter.mp ho
  have hkey : o.appKey = b.appKey := of_decide_eq_true hkey
  obtain ⟨g, hg, hpos⟩ := List.mem_map.mp ((mem_positions_iff hb _).mpr ⟨o, ho, hkey, rfl⟩)
  exact ⟨g, hg, ((group_of_mem_usage hb hg).2 o ho hkey hpos.symm).2⟩

/-- The latest access of an app is the latest of some group, and no group has a later one. -/
theorem max?_times_of_mem_usage : (b.groups.map (·.time)).max? = some b.latestTime := by
  cases hmax : (b.accesses.map (·.time)).max? with
  | none =>
      obtain ⟨o, os, _, hbucket⟩ := bucket_of_mem_usage hb
      rw [List.max?_eq_none_iff, hbucket] at hmax
      cases hmax
  | some time =>
      rw [Bucket.latestTime, hmax, Option.getD_some, List.max?_eq_some_iff]
      obtain ⟨hmem, hle⟩ := List.max?_eq_some_iff.mp hmax
      have hgroups : ∀ g ∈ b.groups, g.time ≤ time := fun g hg =>
        hle g.time (List.mem_map_of_mem (latest_mem_accesses hb hg))
      obtain ⟨a, ha, rfl⟩ := List.mem_map.mp hmem
      obtain ⟨g, hg, hag⟩ := exists_group_of_mem_accesses hb ha
      refine ⟨List.mem_map.mpr ⟨g, hg, Int.le_antisymm (hgroups g hg) hag⟩, ?_⟩
      intro time' htime
      obtain ⟨g', hg', rfl⟩ := List.mem_map.mp htime
      exact hgroups g' hg'

end Usage

end AccessLedger
