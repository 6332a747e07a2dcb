import Mathlib.Data.Finset.Card
import Mathlib.Data.Finset.Dedup
import Mathlib.Order.Bounds.Basic
import AccessLedger.Proofs.StableSort
import AccessLedger.Proofs.Usage.Entries
import AccessLedger.Proofs.Usage.Grouped
import AccessLedger.Proofs.Usage.Pairs
import AccessLedger.Usage.View

/-!
The order of a list, said of what passes. Apps stand by the number of their group names, then by
their latest access, then by where the walk first meets them. The rows of an app stand by their
latest access, then by the position of the group: the first group of the name in which that access
is found.
-/

namespace AccessLedger

/-- What places an app among the others. -/
structure Standing where
  groupNames : Nat
  latest : Int
  /-- Where the app is first met. -/
  first : Nat

namespace Standing

/-- More group names, then the later access, then the first to be met. -/
def Before (x y : Standing) : Prop :=
  y.groupNames < x.groupNames ∨ x.groupNames = y.groupNames ∧
    (y.latest < x.latest ∨ x.latest = y.latest ∧ x.first < y.first)

/-- The standing of an app among some observations, of which one at least is of the app. -/
structure Of (os : List Observation) (appKey : String) (x : Standing) : Prop where
  groupNames :
    x.groupNames = ((os.filter fun o => o.appKey = appKey).map (·.group.name)).toFinset.card
  latest : IsGreatest {time | ∃ o ∈ os, o.appKey = appKey ∧ o.access.time = time} x.latest
  first : IsLeast {i | ∃ o, os[i]? = some o ∧ o.appKey = appKey} x.first

end Standing

/-- A row shows the latest access of its app and name, from the first group where it is found. -/
structure Row.PlacedAt (d : Display) (s : Snapshot) (c : Criteria) (r : Row) (position : Nat) :
    Prop where
  latest : IsGreatest {time | ∃ o ∈ s.passing c,
    o.appKey = r.appKey ∧ o.group.name = r.groupName ∧ o.access.time = time} r.time
  first : IsLeast {i | ∃ o ∈ s.passing c, o.appKey = r.appKey ∧ o.group.name = r.groupName ∧
    o.access.time = r.time ∧ o.groupPosition = i} position
  depicts : ∃ b ∈ (s.usage c).buckets, b.appKey = r.appKey ∧
    ∃ g ∈ b.groups, g.groupPosition = position ∧ r.Depicts d g

/-- Entries in the order of the standings of their apps, rows in that of their places. -/
structure Display.Ordered (d : Display) (s : Snapshot) (c : Criteria) (tree : List Entry) :
    Prop where
  entries : tree.Pairwise fun e f => ∃ x y : Standing,
    x.Of (s.passing c) e.appKey ∧ y.Of (s.passing c) f.appKey ∧ x.Before y
  rows : ∀ e ∈ tree, e.rows.Pairwise fun r r' => ∃ i j,
    r.PlacedAt d s c i ∧ r'.PlacedAt d s c j ∧ (r'.time < r.time ∨ r.time = r'.time ∧ i < j)
  placed : ∀ e ∈ tree, ∀ r ∈ e.rows, ∃ i, r.PlacedAt d s c i

section Ranking

theorem ranking_ne_gt_iff (x y : Bucket) :
    (x.ranking y != .gt) = true ↔
      y.groupCount < x.groupCount ∨ x.groupCount = y.groupCount ∧ y.latestTime ≤ x.latestTime := by
  rw [bne_iff_ne, Bucket.ranking, ne_eq, Ordering.then_eq_gt, Nat.compare_eq_gt, Nat.compare_eq_eq,
    compare_gt_iff_gt]
  omega

/-- Ranking leaves nothing open but what ties, and there buckets stay as they were. -/
theorem pairwise_ranked {R : Bucket → Bucket → Prop} {u : Usage} (h : u.buckets.Pairwise R) :
    u.ranked.Pairwise fun x y => y.groupCount < x.groupCount ∨ x.groupCount = y.groupCount ∧
      (y.latestTime < x.latestTime ∨ x.latestTime = y.latestTime ∧ R x y) := by
  have htrans : ∀ x y z : Bucket, (x.ranking y != .gt) = true → (y.ranking z != .gt) = true →
      (x.ranking z != .gt) = true := by
    intro x y z hxy hyz
    rw [ranking_ne_gt_iff] at *
    omega
  have htotal : ∀ x y : Bucket, (x.ranking y != .gt || y.ranking x != .gt) = true := by
    intro x y
    rw [Bool.or_eq_true, ranking_ne_gt_iff, ranking_ne_gt_iff]
    omega
  refine (pairwise_mergeSort_stable htrans htotal h).imp ?_
  intro x y hxy
  simp only [ranking_ne_gt_iff] at hxy
  obtain ⟨hle, htie⟩ := hxy
  rcases hle with hmore | ⟨heq, hle⟩
  · exact .inl hmore
  · rcases Int.lt_or_eq_of_le hle with hlater | hsame
    · exact .inr ⟨heq, .inl hlater⟩
    · exact .inr ⟨heq, .inr ⟨hsame.symm, htie (.inr ⟨heq.symm, Int.le_of_eq hsame.symm⟩)⟩⟩

end Ranking

section Apps

variable {s : Snapshot} {c : Criteria} {b : Bucket}

theorem groupCount_of_mem_usage (hb : b ∈ (s.usage c).buckets) :
    b.groupCount =
      (((s.listed c).filter fun o => o.appKey = b.appKey).map (·.group.name)).toFinset.card := by
  have hnames : (b.groups.map (·.name)).eraseDups.toFinset =
      (((s.listed c).filter fun o => o.appKey = b.appKey).map (·.group.name)).toFinset := by
    ext name
    simp only [List.mem_toFinset, List.mem_eraseDups, List.mem_map, List.mem_filter,
      decide_eq_true_eq]
    constructor
    · intro h
      obtain ⟨g, hg, rfl⟩ := h
      obtain ⟨⟨o, ho, hkey, hpos, _⟩, hall⟩ := group_of_mem_usage hb hg
      exact ⟨o, ⟨ho, hkey⟩, (hall o ho hkey hpos).1⟩
    · intro h
      obtain ⟨o, ⟨ho, hkey⟩, rfl⟩ := h
      obtain ⟨g, hg, hpos⟩ := List.mem_map.mp ((mem_positions_iff hb _).mpr ⟨o, ho, hkey, rfl⟩)
      exact ⟨g, hg, ((group_of_mem_usage hb hg).2 o ho hkey hpos.symm).1.symm⟩
  rw [← hnames, List.toFinset_card_of_nodup (nodup_eraseDups _)]
  rfl

theorem isGreatest_latestTime (hb : b ∈ (s.usage c).buckets) :
    IsGreatest {time | ∃ o ∈ s.listed c, o.appKey = b.appKey ∧ o.access.time = time}
      b.latestTime := by
  obtain ⟨hmem, hle⟩ := List.max?_eq_some_iff.mp (max?_times_of_mem_usage hb)
  constructor
  · obtain ⟨g, hg, htime⟩ := List.mem_map.mp hmem
    obtain ⟨⟨o, ho, hkey, _, hlatest⟩, _⟩ := group_of_mem_usage hb hg
    exact ⟨o, ho, hkey, by rw [← htime, MatchedGroup.time, hlatest]⟩
  · intro time h
    obtain ⟨o, ho, hkey, rfl⟩ := h
    obtain ⟨g, hg, hpos⟩ := List.mem_map.mp ((mem_positions_iff hb _).mpr ⟨o, ho, hkey, rfl⟩)
    have htime := ((group_of_mem_usage hb hg).2 o ho hkey hpos.symm).2
    exact Int.le_trans htime (hle g.time (List.mem_map_of_mem hg))

/-- The place of the first observation of an app. -/
theorem isLeast_idxOf {os : List Observation} {appKey : String} (h : appKey ∈ os.map (·.appKey)) :
    IsLeast {i | ∃ o, os[i]? = some o ∧ o.appKey = appKey} ((os.map (·.appKey)).idxOf appKey) := by
  have hset : ∀ i : Nat, (∃ o : Observation, os[i]? = some o ∧ o.appKey = appKey) ↔
      (os.map (·.appKey))[i]? = some appKey := by
    intro i
    rw [List.getElem?_map, Option.map_eq_some_iff]
  constructor
  · exact (hset _).mpr (List.getElem?_idxOf h)
  · intro i hi
    obtain ⟨hlt, hget⟩ := List.getElem?_eq_some_iff.mp ((hset i).mp hi)
    by_contra hbefore
    have hne := List.not_of_lt_findIdx (p := (· == appKey)) (Nat.not_le.mp hbefore)
    rw [hget, beq_self_eq_true] at hne
    cases hne

/-- The standing by which a bucket is ranked. -/
def Bucket.standing (b : Bucket) (os : List Observation) : Standing :=
  ⟨b.groupCount, b.latestTime, (os.map (·.appKey)).idxOf b.appKey⟩

theorem standing_of_mem_usage (hb : b ∈ (s.usage c).buckets) :
    (b.standing (s.listed c)).Of (s.listed c) b.appKey := by
  have hkey : b.appKey ∈ (s.listed c).map (·.appKey) :=
    (mem_appKeys_iff b.appKey).mp (List.mem_map_of_mem hb)
  exact ⟨groupCount_of_mem_usage hb, isGreatest_latestTime hb, isLeast_idxOf hkey⟩

/-- Ranked by what is found in the buckets, apps stand by what is listed for them. -/
theorem pairwise_standings (s : Snapshot) (c : Criteria) :
    ((s.usage c).ranked.map (·.appKey)).Pairwise fun a a' => ∃ x y : Standing,
      x.Of (s.listed c) a ∧ y.Of (s.listed c) a' ∧ x.Before y := by
  have hkeys := pairwise_idxOf_eraseDups ((s.listed c).map (·.appKey))
  rw [← appKeys_usage, List.pairwise_map] at hkeys
  rw [List.pairwise_map]
  refine (pairwise_ranked hkeys).imp_of_mem ?_
  intro b b' hb hb' hbefore
  exact ⟨_, _, standing_of_mem_usage (mem_ranked.mp hb), standing_of_mem_usage (mem_ranked.mp hb'),
    hbefore⟩

end Apps

section Rows

variable {s : Snapshot} {c : Criteria} {b : Bucket} {g g' : MatchedGroup}

/-- The one group is more recent than the other, or as recent and further in front. -/
def MatchedGroup.Before (g g' : MatchedGroup) : Prop :=
  g'.time < g.time ∨ g.time = g'.time ∧ g.groupPosition < g'.groupPosition

theorem pairwise_before_recentFirst (hb : b ∈ (s.usage c).buckets) :
    b.recentFirst.Pairwise MatchedGroup.Before := by
  have hpositions := List.pairwise_map.mp (pairwise_positions_of_mem_usage hb)
  have htrans : ∀ x y z : MatchedGroup, decide (y.time ≤ x.time) = true →
      decide (z.time ≤ y.time) = true → decide (z.time ≤ x.time) = true := by
    intro x y z hxy hyz
    simp only [decide_eq_true_eq] at *
    omega
  have htotal : ∀ x y : MatchedGroup,
      (decide (y.time ≤ x.time) || decide (x.time ≤ y.time)) = true := by
    intro x y
    simp only [Bool.or_eq_true, decide_eq_true_eq]
    omega
  refine (pairwise_mergeSort_stable htrans htotal hpositions).imp ?_
  intro x y hxy
  simp only [decide_eq_true_eq] at hxy
  obtain ⟨hle, htie⟩ := hxy
  rcases Int.lt_or_eq_of_le hle with hlater | hsame
  · exact .inl hlater
  · exact .inr ⟨hsame.symm, htie (Int.le_of_eq hsame.symm)⟩

/-- A group that has a row comes before all others of its name, free or not. -/
theorem before_of_mem_free {taken : List String} (hb : b ∈ (s.usage c).buckets)
    (hg : g ∈ b.free taken) (hg' : g' ∈ b.groups) (hname : g'.name = g.name) :
    g' = g ∨ g.Before g' :=
  rel_of_mem_distinctOn (pairwise_before_recentFirst hb) hg (mem_recentFirst.mpr hg')
    (rowKey_right_inj.mpr hname)

/--
What is listed for the name of a group that has a row is older, or as recent and no further in
front.
-/
theorem time_le_of_mem_free {taken : List String} (hb : b ∈ (s.usage c).buckets)
    (hg : g ∈ b.free taken) {o : Observation} (ho : o ∈ s.listed c) (hkey : o.appKey = b.appKey)
    (hname : o.group.name = g.name) :
    o.access.time ≤ g.time ∧ (o.access.time = g.time → g.groupPosition ≤ o.groupPosition) := by
  obtain ⟨g', hg', hpos⟩ := List.mem_map.mp ((mem_positions_iff hb _).mpr ⟨o, ho, hkey, rfl⟩)
  obtain ⟨hname', htime⟩ := (group_of_mem_usage hb hg').2 o ho hkey hpos.symm
  rw [← hpos]
  rcases before_of_mem_free hb hg hg' (hname'.symm.trans hname) with rfl | hlater | ⟨hsame, hfront⟩
  · exact ⟨htime, fun _ => Nat.le_refl _⟩
  · exact ⟨by omega, fun heq => by omega⟩
  · exact ⟨by omega, fun _ => Nat.le_of_lt hfront⟩

theorem placedAt_of_mem_free (d : Display) {taken : List String} (hb : b ∈ (s.usage c).buckets)
    (hg : g ∈ b.free taken) (icon : Option String) :
    (d.row b.appKey icon g).PlacedAt d s c g.groupPosition := by
  have hmem : g ∈ b.groups := mem_recentFirst.mp ((free_sublist b taken).subset hg)
  obtain ⟨⟨o, ho, hkey, hpos, hlatest⟩, hall⟩ := group_of_mem_usage hb hmem
  have hname : o.group.name = g.name := (hall o ho hkey hpos).1
  have htime : o.access.time = g.time := congrArg Access.time hlatest.symm
  rw [listed_eq_passing] at ho
  refine ⟨⟨⟨o, ho, hkey, hname, htime⟩, ?_⟩, ⟨⟨o, ho, hkey, hname, htime, hpos⟩, ?_⟩,
    b, hb, rfl, g, hmem, rfl, rfl, rfl, rfl, rfl, rfl⟩
  · intro time h
    obtain ⟨o', ho', hkey', hname', rfl⟩ := h
    rw [← listed_eq_passing] at ho'
    exact (time_le_of_mem_free hb hg ho' hkey' hname').1
  · intro i h
    obtain ⟨o', ho', hkey', hname', htime', rfl⟩ := h
    rw [← listed_eq_passing] at ho'
    exact (time_le_of_mem_free hb hg ho' hkey' hname').2 htime'

end Rows

/-- A view is in order of what passes its filters, whatever row keys its groups share. -/
theorem Outlook.view_ordered (o : Outlook) (s : Snapshot) (selection : Selection) (now : Int) :
    (o.display s now).Ordered s (o.criteria selection now) (o.view s selection now).tree := by
  have hfree : ∀ e ∈ (o.view s selection now).tree,
      ∃ b ∈ (s.usage (o.criteria selection now)).buckets, ∃ taken icon,
        e.rows = (b.free taken).map ((o.display s now).row b.appKey icon) := by
    intro e he
    obtain ⟨b, hb, taken, hentry⟩ := Display.exists_bucket_of_mem_entries he
    obtain ⟨icon, hrows⟩ := Display.rows_of_entryFor? hentry
    exact ⟨b, mem_ranked.mp hb, taken, icon, hrows⟩
  refine ⟨?_, ?_, ?_⟩
  · rw [← listed_eq_passing]
    exact List.pairwise_map.mp ((pairwise_standings s (o.criteria selection now)).sublist
      (Display.appKeys_entries_sublist _ [] _))
  · intro e he
    obtain ⟨b, hb, taken, icon, hrows⟩ := hfree e he
    rw [hrows, List.pairwise_map]
    refine ((pairwise_before_recentFirst hb).sublist (free_sublist b taken)).imp_of_mem ?_
    intro g g' hg hg' hbefore
    exact ⟨_, _, placedAt_of_mem_free _ hb hg icon, placedAt_of_mem_free _ hb hg' icon, hbefore⟩
  · intro e he
    obtain ⟨b, hb, taken, icon, hrows⟩ := hfree e he
    rw [hrows, List.forall_mem_map]
    intro g hg
    exact ⟨_, placedAt_of_mem_free _ hb hg icon⟩

/-- An app that has used one group last of all, and one that has used two. -/
def chatAndMaps : Snapshot where
  groups := [
    { name := "location", label := "Location", declaredBy := "android"
      grants := [
        { appKey := "chat", accesses := [⟨"chat", "location", "Location", 950⟩] },
        { appKey := "maps", accesses := [⟨"maps", "location", "Location", 400⟩] }] },
    { name := "camera", label := "Camera", declaredBy := "android"
      grants := [{ appKey := "maps", accesses := [⟨"maps", "camera", "Camera", 900⟩] }] }]
  apps := [
    { key := "chat", label := "Chat", userFacing := true },
    { key := "maps", label := "Maps", userFacing := true }]

theorem groupNames_chatAndMaps :
    ((⟨{}, {}, .reversed⟩ : Outlook).view chatAndMaps {} 1000).tree.map
      (fun e => (e.appKey, e.rows.map (·.groupName))) =
        [("maps", ["camera", "location"]), ("chat", ["location"])] := by
  have husage : (chatAndMaps.usage ⟨{}, {}, 1000⟩).buckets = [
      ⟨"chat", [⟨"chat", "location", "Location", 950⟩],
        [⟨0, "location", "Location", "", ⟨"chat", "location", "Location", 950⟩⟩]⟩,
      ⟨"maps", [⟨"maps", "location", "Location", 400⟩, ⟨"maps", "camera", "Camera", 900⟩],
        [⟨0, "location", "Location", "", ⟨"maps", "location", "Location", 400⟩⟩,
          ⟨1, "camera", "Camera", "", ⟨"maps", "camera", "Camera", 900⟩⟩]⟩] := by
    decide +kernel
  show (Display.tree ⟨1000, {}, chatAndMaps⟩ (chatAndMaps.usage ⟨{}, {}, 1000⟩)).map _ = _
  rw [Display.tree, husage, mergeSort_pair, if_neg (by decide)]
  simp only [mergeSort_pair, List.mergeSort_singleton, Display.entries]
  decide +kernel

/-- More group names count before a later access; among rows the later access counts. -/
theorem Outlook.view_ordered_chatAndMaps :
    let o : Outlook := ⟨{}, {}, .reversed⟩
    let c := o.criteria {} 1000
    ∃ e f r r', (o.view chatAndMaps {} 1000).tree = [e, f] ∧ e.rows = [r, r'] ∧
      e.appKey = "maps" ∧ f.appKey = "chat" ∧ r.groupName = "camera" ∧ r'.groupName = "location" ∧
      (∃ x y : Standing, x.Of (chatAndMaps.passing c) e.appKey ∧
        y.Of (chatAndMaps.passing c) f.appKey ∧ x.Before y) ∧
      ∃ i j, r.PlacedAt (o.display chatAndMaps 1000) chatAndMaps c i ∧
        r'.PlacedAt (o.display chatAndMaps 1000) chatAndMaps c j ∧
        (r'.time < r.time ∨ r.time = r'.time ∧ i < j) := by
  intro o c
  have hordered := Outlook.view_ordered o chatAndMaps {} 1000
  obtain ⟨e, tail, htree, he, htail⟩ := List.map_eq_cons_iff.mp groupNames_chatAndMaps
  obtain ⟨f, tail, rfl, hf, htail⟩ := List.map_eq_cons_iff.mp htail
  cases List.map_eq_nil_iff.mp htail
  rw [Prod.mk.injEq] at he hf
  obtain ⟨r, rest, hrows, hr, hrest⟩ := List.map_eq_cons_iff.mp he.2
  obtain ⟨r', rest, rfl, hr', hrest⟩ := List.map_eq_cons_iff.mp hrest
  cases List.map_eq_nil_iff.mp hrest
  rw [htree] at hordered
  have hrowOrder := hordered.rows e (List.mem_cons_self ..)
  rw [hrows] at hrowOrder
  refine ⟨e, f, r, r', htree, hrows, he.1, hf.1, hr, hr', ?_, ?_⟩
  · exact List.rel_of_pairwise_cons hordered.entries (List.mem_singleton_self f)
  · exact List.rel_of_pairwise_cons hrowOrder (List.mem_singleton_self r')

end AccessLedger
