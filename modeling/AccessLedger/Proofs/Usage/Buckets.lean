import AccessLedger.Proofs.Grouping
import AccessLedger.Proofs.Latest
import AccessLedger.Proofs.Usage.Passing

/-!
A pass groups the listed observations by app and, within an app, by group. A bucket is thereby read
off the observations of its app, and a matched group off those of its app and position.
-/

namespace AccessLedger

open Bucket

def matchedGrouping : Grouping Observation MatchedGroup Nat where
  key := MatchedGroup.groupPosition
  source := Observation.groupPosition
  start o := ⟨o.groupPosition, o.group.name, o.access.groupLabel, o.group.icon, o.access⟩
  extend g o := if g.latest.time < o.access.time then { g with latest := o.access } else g
  key_start _ := rfl
  key_extend g o := by split <;> rfl

def bucketGrouping : Grouping Observation Bucket String where
  key := Bucket.appKey
  source := Observation.appKey
  start o := add ⟨o.appKey, [], []⟩ o
  extend := add
  key_start _ := rfl
  key_extend _ _ := rfl

theorem noteGroup_eq_insert (o : Observation) (groups : List MatchedGroup) :
    noteGroup o groups = matchedGrouping.insert groups o := by
  induction groups with
  | nil => rfl
  | cons g gs ih =>
      rw [noteGroup, ih]
      rfl

theorem addTo_eq_insert (o : Observation) (buckets : List Bucket) :
    addTo o.appKey o buckets = bucketGrouping.insert buckets o := by
  induction buckets with
  | nil => rfl
  | cons b bs ih =>
      rw [addTo, ih]
      rfl

theorem foldl_add (b : Bucket) (l : List Observation) :
    l.foldl add b =
      ⟨b.appKey, b.accesses ++ l.map (·.access), l.foldl matchedGrouping.insert b.groups⟩ := by
  induction l generalizing b with
  | nil => simp
  | cons o os ih =>
      rw [List.foldl_cons, ih]
      simp [add, noteGroup_eq_insert]

theorem collapse?_bucketGrouping (o : Observation) (l : List Observation) :
    bucketGrouping.collapse? (o :: l) =
      some ⟨o.appKey, (o :: l).map (·.access), matchedGrouping.gather (o :: l)⟩ := by
  have h := foldl_add ⟨o.appKey, [], []⟩ (o :: l)
  rw [List.nil_append] at h
  exact congrArg some h

/-- Of the observations of a group all but the latest access is that of the first. -/
theorem foldl_extend_matched (g : MatchedGroup) (l : List Observation) :
    l.foldl matchedGrouping.extend g =
      { g with latest := (l.map (·.access)).foldl Access.later g.latest } := by
  induction l generalizing g with
  | nil => rfl
  | cons o os ih =>
      have hextend : matchedGrouping.extend g o = { g with latest := g.latest.later o.access } := by
        simp only [matchedGrouping, Access.later]
        split <;> rfl
      rw [List.foldl_cons, hextend, ih, List.map_cons, List.foldl_cons]

theorem collapse?_matchedGrouping (o : Observation) (l : List Observation) :
    matchedGrouping.collapse? (o :: l) =
      some ⟨o.groupPosition, o.group.name, o.access.groupLabel, o.group.icon,
        (l.map (·.access)).foldl Access.later o.access⟩ :=
  congrArg some (foldl_extend_matched (matchedGrouping.start o) l)

theorem accesses_insert_perm (buckets : List Bucket) (o : Observation) :
    ((bucketGrouping.insert buckets o).flatMap (·.accesses)).Perm
      (o.access :: buckets.flatMap (·.accesses)) := by
  induction buckets with
  | nil => exact List.Perm.refl _
  | cons b bs ih =>
      by_cases hkey : b.appKey = o.appKey
      · have hinsert : bucketGrouping.insert (b :: bs) o = b.add o :: bs := if_pos hkey
        rw [hinsert, List.flatMap_cons, List.flatMap_cons]
        show (b.accesses ++ [o.access] ++ bs.flatMap (·.accesses)).Perm _
        rw [List.append_assoc]
        exact List.perm_middle
      · have hinsert : bucketGrouping.insert (b :: bs) o = b :: bucketGrouping.insert bs o :=
          if_neg hkey
        rw [hinsert, List.flatMap_cons, List.flatMap_cons]
        exact (ih.append_left b.accesses).trans List.perm_middle

/-- Each observation leaves its access in one bucket. -/
theorem accesses_gather_perm (l : List Observation) :
    ((bucketGrouping.gather l).flatMap (·.accesses)).Perm (l.map (·.access)) := by
  suffices h : ∀ buckets : List Bucket,
      ((l.foldl bucketGrouping.insert buckets).flatMap (·.accesses)).Perm
        (l.map (·.access) ++ buckets.flatMap (·.accesses)) by
    have hnil := h []
    rwa [List.flatMap_nil, List.append_nil] at hnil
  induction l with
  | nil => intro buckets; exact List.Perm.refl _
  | cons o os ih =>
      intro buckets
      rw [List.foldl_cons, List.map_cons, List.cons_append]
      exact (ih _).trans (((accesses_insert_perm buckets o).append_left _).trans List.perm_middle)

theorem length_accesses_gather (l : List Observation) :
    ((bucketGrouping.gather l).flatMap (·.accesses)).length = l.length := by
  rw [(accesses_gather_perm l).length_eq, List.length_map]

/-- A note adds to a bucket only when the access is listed. -/
theorem buckets_note {s : Snapshot} {c : Criteria} (u : Usage) (o : Observation) :
    (u.note o (s.verdict c o)).buckets =
      if (s.verdict c o).isListed then bucketGrouping.insert u.buckets o else u.buckets := by
  cases hverdict : s.verdict c o with
  | skipped reason => rfl
  | listed app isSystem =>
      have happ : o.app = some app := by
        rw [Snapshot.verdict] at hverdict
        split at hverdict
        · cases hverdict
        · next app' happ' =>
          split at hverdict
          · cases hverdict
          · split at hverdict
            · cases hverdict
            · rw [happ', (Verdict.listed.inj hverdict).1]
      have hkey : app.key = o.appKey := by
        rw [Observation.appKey, happ]
        rfl
      simp only [Usage.note, Verdict.isListed, if_true, hkey, addTo_eq_insert]

theorem usage_buckets (s : Snapshot) (c : Criteria) :
    (s.usage c).buckets = bucketGrouping.gather (s.listed c) := by
  suffices h : ∀ (l : List Observation) (u : Usage),
      (l.foldl (fun u o => u.note o (s.verdict c o)) u).buckets =
        (l.filter fun o => (s.verdict c o).isListed).foldl bucketGrouping.insert u.buckets from
    h (s.observations c.rules) {}
  intro l
  induction l with
  | nil => intro u; rfl
  | cons o os ih =>
      intro u
      rw [List.foldl_cons, ih, buckets_note, List.filter_cons]
      split
      · rfl
      · rfl

theorem usage_hasSystemApps (s : Snapshot) (c : Criteria) :
    (s.usage c).hasSystemApps =
      (s.observations c.rules).any fun o => (s.verdict c o).involvesSystem := by
  suffices h : ∀ (l : List Observation) (u : Usage),
      (l.foldl (fun u o => u.note o (s.verdict c o)) u).hasSystemApps =
        (u.hasSystemApps || l.any fun o => (s.verdict c o).involvesSystem) from
    (h (s.observations c.rules) {}).trans (Bool.false_or _)
  intro l
  induction l with
  | nil => intro u; simp
  | cons o os ih =>
      intro u
      have hnote : (u.note o (s.verdict c o)).hasSystemApps =
          (u.hasSystemApps || (s.verdict c o).involvesSystem) := by
        cases s.verdict c o <;> rfl
      rw [List.foldl_cons, ih, hnote, List.any_cons, Bool.or_assoc]

theorem accessCount_usage (s : Snapshot) (c : Criteria) :
    (s.usage c).accessCount = (s.listed c).length := by
  rw [Usage.accessCount, usage_buckets, length_accesses_gather]

section Usage

variable {s : Snapshot} {c : Criteria}

/-- Apps come in the order in which they are first met. -/
theorem appKeys_usage (s : Snapshot) (c : Criteria) :
    (s.usage c).buckets.map (·.appKey) = ((s.listed c).map (·.appKey)).eraseDups := by
  rw [usage_buckets]
  exact bucketGrouping.keys_gather (s.listed c)

theorem nodup_appKeys (s : Snapshot) (c : Criteria) :
    ((s.usage c).buckets.map (·.appKey)).Nodup := by
  rw [appKeys_usage]
  exact nodup_eraseDups _

theorem mem_appKeys_iff (appKey : String) :
    appKey ∈ (s.usage c).buckets.map (·.appKey) ↔ appKey ∈ (s.listed c).map (·.appKey) := by
  rw [appKeys_usage, List.mem_eraseDups]

/-- A bucket is made of all listed observations of its app, of which there are some. -/
theorem bucket_of_mem_usage {b : Bucket} (hb : b ∈ (s.usage c).buckets) :
    ∃ o os, (s.listed c).filter (fun o => o.appKey = b.appKey) = o :: os ∧
      b = ⟨o.appKey, (o :: os).map (·.access), matchedGrouping.gather (o :: os)⟩ := by
  rw [usage_buckets] at hb
  have h := bucketGrouping.collapse?_of_mem_gather (s.listed c) b hb
  cases hos : (s.listed c).filter (fun o => o.appKey = b.appKey) with
  | nil =>
      have hnone : bucketGrouping.collapse? [] = some b := hos ▸ h
      cases hnone
  | cons o os =>
      have hsome : bucketGrouping.collapse? (o :: os) = some b := hos ▸ h
      rw [collapse?_bucketGrouping] at hsome
      exact ⟨o, os, rfl, (Option.some.inj hsome).symm⟩

theorem accesses_of_mem_usage {b : Bucket} (hb : b ∈ (s.usage c).buckets) :
    b.accesses = ((s.listed c).filter fun o => o.appKey = b.appKey).map (·.access) := by
  obtain ⟨o, os, hos, hbucket⟩ := bucket_of_mem_usage hb
  rw [hos]
  exact congrArg Bucket.accesses hbucket

theorem groups_of_mem_usage {b : Bucket} (hb : b ∈ (s.usage c).buckets) :
    b.groups = matchedGrouping.gather ((s.listed c).filter (fun o => o.appKey = b.appKey)) := by
  obtain ⟨o, os, hos, hbucket⟩ := bucket_of_mem_usage hb
  rw [hos]
  exact congrArg Bucket.groups hbucket

/--
A matched group is made of all listed observations of its app and position, of which there are some.
-/
theorem matched_of_mem_usage {b : Bucket} (hb : b ∈ (s.usage c).buckets) {g : MatchedGroup}
    (hg : g ∈ b.groups) :
    ∃ o os, ((s.listed c).filter fun o => o.appKey = b.appKey ∧ o.groupPosition = g.groupPosition) =
        o :: os ∧
      g = ⟨o.groupPosition, o.group.name, o.access.groupLabel, o.group.icon,
        (os.map (·.access)).foldl Access.later o.access⟩ := by
  rw [groups_of_mem_usage hb] at hg
  have hcollapse := matchedGrouping.collapse?_of_mem_gather _ g hg
  have hfilter : ((s.listed c).filter fun o => o.appKey = b.appKey).filter
      (fun o => matchedGrouping.source o = matchedGrouping.key g) =
        (s.listed c).filter fun o => o.appKey = b.appKey ∧ o.groupPosition = g.groupPosition := by
    rw [List.filter_filter]
    apply List.filter_congr
    intro o _
    rw [Bool.decide_and, Bool.and_comm]
    rfl
  rw [hfilter] at hcollapse
  cases hos : (s.listed c).filter
      fun o => o.appKey = b.appKey ∧ o.groupPosition = g.groupPosition with
  | nil =>
      rw [hos] at hcollapse
      cases hcollapse
  | cons o os =>
      rw [hos, collapse?_matchedGrouping] at hcollapse
      exact ⟨o, os, rfl, (Option.some.inj hcollapse).symm⟩

/-- A matched group carries the latest of the listed accesses of its app and position. -/
theorem group_of_mem_usage {b : Bucket} (hb : b ∈ (s.usage c).buckets) {g : MatchedGroup}
    (hg : g ∈ b.groups) :
    (∃ o ∈ s.listed c, o.appKey = b.appKey ∧ o.groupPosition = g.groupPosition ∧
        g.latest = o.access) ∧
      ∀ o ∈ s.listed c, o.appKey = b.appKey → o.groupPosition = g.groupPosition →
        o.group.name = g.name ∧ o.access.time ≤ g.time := by
  obtain ⟨first, rest, hos, hgroup⟩ := matched_of_mem_usage hb hg
  have hmem : ∀ o, o ∈ first :: rest ↔
      o ∈ s.listed c ∧ o.appKey = b.appKey ∧ o.groupPosition = g.groupPosition := by
    intro o
    rw [← hos, List.mem_filter, decide_eq_true_eq]
  have hlatest : Access.IsLatest ((first :: rest).map (·.access)) g.latest := by
    rw [hgroup]
    exact Access.isLatest_foldl_later first.access _
  constructor
  · obtain ⟨o, ho, haccess⟩ := List.mem_map.mp hlatest.mem
    obtain ⟨hlisted, hkey, hpos⟩ := (hmem o).mp ho
    exact ⟨o, hlisted, hkey, hpos, haccess.symm⟩
  · intro o hlisted hkey hpos
    obtain ⟨hfirst, _, hfirstPos⟩ := (hmem first).mp (List.mem_cons_self ..)
    have hname : o.group.name = first.group.name :=
      congrArg PermissionGroup.name (group_eq_of_groupPosition_eq
        ((mem_listed_iff s c o).mp hlisted).1 ((mem_listed_iff s c first).mp hfirst).1
        (hpos.trans hfirstPos.symm))
    refine ⟨hname.trans (congrArg MatchedGroup.name hgroup).symm, ?_⟩
    exact hlatest.time_le (List.mem_map_of_mem ((hmem o).mpr ⟨hlisted, hkey, hpos⟩))

theorem mem_positions_iff {b : Bucket} (hb : b ∈ (s.usage c).buckets) (position : Nat) :
    position ∈ b.groups.map (·.groupPosition) ↔
      ∃ o ∈ s.listed c, o.appKey = b.appKey ∧ o.groupPosition = position := by
  have hkeys := matchedGrouping.mem_keys_gather_iff
    ((s.listed c).filter fun o => o.appKey = b.appKey) position
  rw [groups_of_mem_usage hb]
  refine hkeys.trans ?_
  simp only [List.mem_filter, decide_eq_true_eq, and_assoc]
  rfl

theorem exists_group_of_listed {o : Observation} (ho : o ∈ s.listed c) :
    ∃ b ∈ (s.usage c).buckets, b.appKey = o.appKey ∧
      ∃ g ∈ b.groups, g.groupPosition = o.groupPosition := by
  have hkeys : o.appKey ∈ (s.usage c).buckets.map (·.appKey) :=
    (mem_appKeys_iff o.appKey).mpr (List.mem_map_of_mem ho)
  obtain ⟨b, hb, hkey⟩ := List.mem_map.mp hkeys
  have hposition : o.groupPosition ∈ b.groups.map (·.groupPosition) :=
    (mem_positions_iff hb o.groupPosition).mpr ⟨o, ho, hkey.symm, rfl⟩
  obtain ⟨g, hg, hpos⟩ := List.mem_map.mp hposition
  exact ⟨b, hb, hkey, g, hg, hpos⟩

/-- What another pass lists besides takes no app away. -/
theorem exists_bucket_of_listed {c' : Criteria} (hlisted : ∀ o ∈ s.listed c, o ∈ s.listed c')
    {b : Bucket} (hb : b ∈ (s.usage c).buckets) :
    ∃ b' ∈ (s.usage c').buckets, b'.appKey = b.appKey := by
  obtain ⟨o, os, hos, _⟩ := bucket_of_mem_usage hb
  have ho : o ∈ (s.listed c).filter (fun o => o.appKey = b.appKey) := hos ▸ List.mem_cons_self ..
  obtain ⟨ho, hkey⟩ := List.mem_filter.mp ho
  obtain ⟨b', hb', happ, _⟩ := exists_group_of_listed (hlisted o ho)
  exact ⟨b', hb', happ.trans (of_decide_eq_true hkey)⟩

theorem groups_ne_nil_of_mem_usage {b : Bucket} (hb : b ∈ (s.usage c).buckets) :
    b.groups ≠ [] := by
  obtain ⟨o, os, hos, _⟩ := bucket_of_mem_usage hb
  rw [groups_of_mem_usage hb, hos, matchedGrouping.gather_cons]
  exact List.cons_ne_nil _ _

end Usage
end AccessLedger
