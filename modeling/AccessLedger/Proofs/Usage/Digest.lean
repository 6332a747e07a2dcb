import AccessLedger.Proofs.Filter.Choice
import AccessLedger.Proofs.StableSort
import AccessLedger.Proofs.Usage.Pairs
import AccessLedger.Proofs.Usage.Unplaced
import AccessLedger.Usage.View

/-!
What a list shows of a bucket: its latest time and, most recent first, one group for each name.
Passes whose buckets have the same digests have the same list, so a view may be compared digest by
digest.
-/

namespace AccessLedger

structure Digest where
  appKey : String
  latestTime : Int
  /-- Most recent first, the first one of each name, without positions. -/
  groups : List MatchedGroup

def Bucket.digest (b : Bucket) : Digest where
  appKey := b.appKey
  latestTime := b.latestTime
  groups := (distinctOn (fun g => rowKey b.appKey g.name) [] b.recentFirst).map (·.unplaced)

def Digest.ranking (x y : Digest) : Ordering :=
  (compare y.groups.length x.groups.length).then (compare y.latestTime x.latestTime)

section Digests

theorem ranking_digest (x y : Bucket) : x.digest.ranking y.digest = x.ranking y := by
  simp only [Digest.ranking, Bucket.ranking, Bucket.digest, List.length_map,
    length_distinctOn_recentFirst]

theorem map_digest_ranked (u : Usage) :
    u.ranked.map (·.digest) =
      (u.buckets.map (·.digest)).mergeSort fun x y => x.ranking y != .gt := by
  apply List.map_mergeSort
  intro x _ y _
  rw [ranking_digest]

theorem recentFirst_unplaced (b : Bucket) :
    b.unplaced.recentFirst = b.recentFirst.map (·.unplaced) := by
  symm
  apply List.map_mergeSort
  intro x _ y _
  rfl

/-- Positions are not part of a digest. -/
theorem digest_unplaced (b : Bucket) : b.unplaced.digest = b.digest := by
  have hgroups : (distinctOn (fun g => rowKey b.appKey g.name) [] b.unplaced.recentFirst).map
      (·.unplaced) = (distinctOn (fun g => rowKey b.appKey g.name) [] b.recentFirst).map
        (·.unplaced) := by
    rw [recentFirst_unplaced, distinctOn_map, List.map_map]
    rfl
  exact congrArg (Digest.mk b.appKey b.latestTime) hgroups

theorem digests_usage (s : Snapshot) (c : Criteria) :
    (s.usage c).buckets.map (·.digest) = (s.bucketsOf c (s.declared c.rules)).map (·.digest) := by
  rw [← unplaced_usage, List.map_map]
  apply List.map_congr_left
  intro b _
  exact (digest_unplaced b).symm

end Digests

namespace Display

theorem entryFor?_map_unplaced (d : Display) (appKey : String) (groups : List MatchedGroup) :
    d.entryFor? appKey (groups.map (·.unplaced)) = d.entryFor? appKey groups := by
  match groups with
  | [] => rfl
  | [_] => rfl
  | g :: g' :: gs =>
      simp only [entryFor?, List.map_cons, List.map_map]
      rfl

/-- A bucket's part in the list, with its groups left out whose keys are taken. -/
theorem entryFor?_unclaimed (d : Display) (taken : List String) (b : Bucket) :
    d.entryFor? b.appKey (unclaimed b.appKey taken b.recentFirst).1 =
      d.entryFor? b.digest.appKey
        (b.digest.groups.filter fun g => rowKey b.digest.appKey g.name ∉ taken) := by
  rw [unclaimed_fst, distinctOn_eq_filter, ← entryFor?_map_unplaced, Bucket.digest, List.filter_map]
  rfl

theorem mem_unclaimed_iff_digest (taken : List String) (b : Bucket) (key : String) :
    key ∈ (unclaimed b.appKey taken b.recentFirst).2 ↔
      (∃ g ∈ b.digest.groups, rowKey b.digest.appKey g.name = key) ∨ key ∈ taken := by
  have hkeys : key ∈ b.recentFirst.map (fun g => rowKey b.appKey g.name) ↔
      ∃ g ∈ b.digest.groups, rowKey b.digest.appKey g.name = key := by
    rw [← List.mem_map]
    have h := mem_map_distinctOn_iff (fun g => rowKey b.appKey g.name) [] b.recentFirst key
    rw [and_iff_left List.not_mem_nil] at h
    rw [← h]
    simp only [Bucket.digest, List.map_map]
    rfl
  rw [mem_unclaimed_snd, List.mem_append, hkeys]

/-- Entries go by digests, and by the set of taken keys. -/
theorem entries_congr {d d' : Display} (hface : d.entryFor? = d'.entryFor?) {bs bs' : List Bucket}
    (hdigests : bs.map (·.digest) = bs'.map (·.digest)) {taken taken' : List String}
    (htaken : ∀ key, key ∈ taken ↔ key ∈ taken') : d.entries taken bs = d'.entries taken' bs' := by
  induction bs generalizing bs' taken taken' with
  | nil =>
      cases bs' with
      | nil => rfl
      | cons b' bs' => cases hdigests
  | cons b bs ih =>
      cases bs' with
      | nil => cases hdigests
      | cons b' bs' =>
          rw [List.map_cons, List.map_cons, List.cons.injEq] at hdigests
          obtain ⟨hdigest, hrest⟩ := hdigests
          have hentry : d.entryFor? b.appKey (unclaimed b.appKey taken b.recentFirst).1 =
              d'.entryFor? b'.appKey (unclaimed b'.appKey taken' b'.recentFirst).1 := by
            simp only [entryFor?_unclaimed, hdigest, hface, htaken]
          have hnext : ∀ key, key ∈ (unclaimed b.appKey taken b.recentFirst).2 ↔
              key ∈ (unclaimed b'.appKey taken' b'.recentFirst).2 := by
            intro key
            rw [mem_unclaimed_iff_digest, mem_unclaimed_iff_digest, hdigest, htaken]
          rw [entries_cons, entries_cons, hentry, ih hrest hnext]

theorem tree_congr {d d' : Display} (hface : d.entryFor? = d'.entryFor?) {u u' : Usage}
    (h : u.buckets.map (·.digest) = u'.buckets.map (·.digest)) : d.tree u = d'.tree u' := by
  have hranked : u.ranked.map (·.digest) = u'.ranked.map (·.digest) := by
    rw [map_digest_ranked, map_digest_ranked, h]
  exact entries_congr hface hranked fun _ => Iff.rfl

end Display

theorem options_eq (o : Outlook) (s : Snapshot) :
    o.options s = ⟨.any o.labels.anyGroup ::
      (distinctOn (·.label) [] ((s.declared o.rules).mergeSort
        fun x y => o.collation x.label y.label != .gt)).map (fun g => .group g.name g.label),
      timeOptions o.labels⟩ :=
  congrArg (FilterOptions.mk · _) (offers_groupOptions s o.rules o.labels o.collation).1

/--
Other groups give the same view where their options, their digests and their system apps are the
same.
-/
theorem Outlook.view_withGroups (o : Outlook) (s : Snapshot) (groups : List PermissionGroup)
    (selection : Selection) (now : Int)
    (hoptions : o.options { s with groups } = o.options s)
    (hdigests : let c := o.criteria selection now
      (s.bucketsOf c (Snapshot.declared { s with groups } o.rules)).map (·.digest) =
        (s.bucketsOf c (s.declared o.rules)).map (·.digest))
    (hsystem : let c := o.criteria selection now
      (Snapshot.declared { s with groups } o.rules).any (s.involvesSystemIn c) =
        (s.declared o.rules).any (s.involvesSystemIn c)) :
    o.view { s with groups } selection now = o.view s selection now := by
  have htree : (o.display { s with groups } now).tree
        (Snapshot.usage { s with groups } (o.criteria selection now)) =
      (o.display s now).tree (s.usage (o.criteria selection now)) := by
    have hface : (o.display { s with groups } now).entryFor? = (o.display s now).entryFor? := rfl
    apply Display.tree_congr hface
    rw [digests_usage, digests_usage]
    exact hdigests
  have hflag : (Snapshot.usage { s with groups } (o.criteria selection now)).hasSystemApps =
      (s.usage (o.criteria selection now)).hasSystemApps := by
    rw [hasSystemApps_usage, hasSystemApps_usage]
    exact hsystem
  simp only [Outlook.view, Outlook.viewWith, hoptions, htree, hflag]

/-- One app of the user's own, in whichever groups. -/
def mapsIn (groups : List PermissionGroup) : Snapshot :=
  ⟨groups, [{ key := "maps", label := "Maps", userFacing := true }], .empty⟩

/-- A group of a label, with one access by the app. -/
def usedByMaps (name label : String) (time : Int) : PermissionGroup where
  name := name
  label := label
  declaredBy := "android"
  grants := [{ appKey := "maps", accesses := [⟨"maps", name, label, time⟩] }]

end AccessLedger
