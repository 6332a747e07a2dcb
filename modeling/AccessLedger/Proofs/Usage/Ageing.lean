import AccessLedger.Proofs.Usage.Filtering
import AccessLedger.Proofs.Usage.Grouped

/-!
Two passes over one snapshot, the first of which looks less far back: its window is narrower, or
time has passed. It lists what is recent enough of what the second lists, so usage only goes away.
No app, group or row is new, and since whatever goes is older than whatever stays, the latest access
of a group stays the latest as long as the group is there at all.
-/

namespace AccessLedger

/-- Criteria that differ in window and moment only, the first of which reach no further back. -/
structure Criteria.Narrows (c c' : Criteria) : Prop where
  rules : c.rules = c'.rules
  groupLabel : c.selection.groupLabel = c'.selection.groupLabel
  showSystem : c.selection.showSystem = c'.selection.showSystem
  threshold : c.selection.window.threshold ≤ c'.selection.window.threshold
  now : c'.now ≤ c.now

def Criteria.reaches (c : Criteria) (time : Int) : Bool :=
  isRecent c.now time c.selection.window.threshold

/-- A bucket of which the other has every access and every group. -/
structure Bucket.RemainsOf (b b' : Bucket) : Prop where
  appKey : b.appKey = b'.appKey
  accesses : b.accesses.Sublist b'.accesses
  positions : b.groups.map (·.groupPosition) ⊆ b'.groups.map (·.groupPosition)

/-- Usage of which the other has everything, and the same latest access wherever both have one. -/
structure Usage.RemainsOf (u u' : Usage) : Prop where
  buckets : ∀ b ∈ u.buckets, ∃ b' ∈ u'.buckets, b.RemainsOf b'
  latest : ∀ b ∈ u.buckets, ∀ b' ∈ u'.buckets, b.appKey = b'.appKey →
    ∀ g ∈ b.groups, ∀ g' ∈ b'.groups, g.groupPosition = g'.groupPosition → g.latest = g'.latest
  hasSystemApps : u.hasSystemApps = true → u'.hasSystemApps = true
  keys : ∀ d d' : Display, (rowsOf (d.tree u)).map (·.key) ⊆ (rowsOf (d'.tree u')).map (·.key)
  times : ∀ d d' : Display, ∀ r ∈ rowsOf (d.tree u), ∀ r' ∈ rowsOf (d'.tree u'),
    r.appKey = r'.appKey → r.groupName = r'.groupName → r.time = r'.time

theorem Criteria.reaches_of_le {c : Criteria} {time time' : Int} (h : c.reaches time = true)
    (hle : time ≤ time') : c.reaches time' = true :=
  isRecent_mono (Int.le_refl _) hle (Nat.le_refl _) h

namespace Criteria.Narrows

variable {s : Snapshot} {c c' : Criteria} (h : c.Narrows c')
include h

theorem reaches {time : Int} (hreaches : c.reaches time = true) : c'.reaches time = true :=
  isRecent_mono h.now (Int.le_refl _) h.threshold hreaches

theorem objection?_eq_none_iff (group : PermissionGroup) (access : Access) :
    c.objection? group access = none ↔
      c'.objection? group access = none ∧ c.reaches access.time = true := by
  have hadmits : c.selection.admitsGroup group.label = c'.selection.admitsGroup group.label := by
    rw [Selection.admitsGroup, Selection.admitsGroup, h.groupLabel]
  rw [AccessLedger.objection?_eq_none_iff, AccessLedger.objection?_eq_none_iff, hadmits, h.rules]
  constructor
  · intro hnone
    obtain ⟨haccessed, hwanted, hlistable, hrecent⟩ := hnone
    exact ⟨⟨haccessed, hwanted, hlistable, h.reaches hrecent⟩, hrecent⟩
  · intro hnone
    obtain ⟨⟨haccessed, hwanted, hlistable, _⟩, hrecent⟩ := hnone
    exact ⟨haccessed, hwanted, hlistable, hrecent⟩

theorem listed_eq_filter : s.listed c = (s.listed c').filter fun o => c.reaches o.access.time :=
  listed_eq_filter_of_objection h.rules h.showSystem fun o =>
    h.objection?_eq_none_iff o.group o.access

theorem mem_listed_iff {o : Observation} :
    o ∈ s.listed c ↔ o ∈ s.listed c' ∧ c.reaches o.access.time = true := by
  rw [h.listed_eq_filter, List.mem_filter]

theorem mem_listedTimes_iff {appKey groupName : String} {time : Int} :
    time ∈ listedTimes s c appKey groupName ↔
      time ∈ listedTimes s c' appKey groupName ∧ c.reaches time = true := by
  constructor
  · intro htime
    obtain ⟨o, ho, hkey, hname, rfl⟩ := htime
    obtain ⟨ho, hreaches⟩ := h.mem_listed_iff.mp ho
    exact ⟨⟨o, ho, hkey, hname, rfl⟩, hreaches⟩
  · intro htime
    obtain ⟨⟨o, ho, hkey, hname, rfl⟩, hreaches⟩ := htime
    exact ⟨o, h.mem_listed_iff.mpr ⟨ho, hreaches⟩, hkey, hname, rfl⟩

/--
The accesses of some observations in the first pass are the recent ones of those in the second.
-/
theorem accesses_eq_filter (p : Observation → Bool) :
    ((s.listed c).filter p).map (·.access) =
      (((s.listed c').filter p).map (·.access)).filter fun access => c.reaches access.time := by
  rw [h.listed_eq_filter, List.filter_map, List.filter_filter, List.filter_filter]
  simp only [Bool.and_comm, Function.comp_apply]

theorem exists_bucket {b : Bucket} (hb : b ∈ (s.usage c).buckets) :
    ∃ b' ∈ (s.usage c').buckets, b.RemainsOf b' := by
  obtain ⟨b', hb', hkey⟩ := exists_bucket_of_listed (fun _ ho => (h.mem_listed_iff.mp ho).1) hb
  refine ⟨b', hb', hkey.symm, ?_, ?_⟩
  · rw [accesses_of_mem_usage hb, accesses_of_mem_usage hb', h.accesses_eq_filter, hkey]
    exact List.filter_sublist
  · intro position hposition
    obtain ⟨o, ho, happ, hpos⟩ := (mem_positions_iff hb position).mp hposition
    exact (mem_positions_iff hb' position).mpr
      ⟨o, (h.mem_listed_iff.mp ho).1, happ.trans hkey.symm, hpos⟩

/-- Where a group is left, its latest access is left too, for the others went before. -/
theorem latest_eq {b b' : Bucket} (hb : b ∈ (s.usage c).buckets) (hb' : b' ∈ (s.usage c').buckets)
    (hkey : b.appKey = b'.appKey) {g g' : MatchedGroup} (hg : g ∈ b.groups) (hg' : g' ∈ b'.groups)
    (hpos : g.groupPosition = g'.groupPosition) : g.latest = g'.latest := by
  have hlatest := (madeOf_of_mem_usage hb hg).latest
  have hlatest' := (madeOf_of_mem_usage hb' hg').latest
  rw [h.accesses_eq_filter, hkey, hpos] at hlatest
  have hreaches : c.reaches g.latest.time = true := (List.mem_filter.mp hlatest.mem).2
  have hold := hlatest.of_filter fun x _ hx => by
    by_contra hle
    rw [Criteria.reaches_of_le hreaches (Int.not_lt.mp hle)] at hx
    cases hx
  exact hold.unique hlatest'

theorem hasSystemApps_mono (hsystem : (s.usage c).hasSystemApps = true) :
    (s.usage c').hasSystemApps = true := by
  rw [usage_hasSystemApps, List.any_eq_true] at hsystem ⊢
  obtain ⟨o, ho, hinvolves⟩ := hsystem
  obtain ⟨app, happ, hobjection, hsystem⟩ := (involvesSystem_verdict_iff s c o).mp hinvolves
  have hobjection' := ((h.objection?_eq_none_iff o.group o.access).mp hobjection).1
  exact ⟨o, h.rules ▸ ho, (involvesSystem_verdict_iff s c' o).mpr ⟨app, happ, hobjection', hsystem⟩⟩

theorem keys_subset (d d' : Display) :
    (rowsOf (d.tree (s.usage c))).map (·.key) ⊆ (rowsOf (d'.tree (s.usage c'))).map (·.key) := by
  intro key hkey
  rw [Display.mem_keys_rows_tree_iff] at hkey ⊢
  obtain ⟨b, hb, g, hg, rfl⟩ := hkey
  have htime := (h.mem_listedTimes_iff.mp (time_mem_listedTimes hb hg)).1
  obtain ⟨b', hb', happ, g', hg', hname, _⟩ := exists_group_of_mem_listedTimes htime
  exact ⟨b', hb', g', hg', by rw [happ, hname]⟩

theorem time_eq {d d' : Display} {r r' : Row} (hr : r ∈ rowsOf (d.tree (s.usage c)))
    (hr' : r' ∈ rowsOf (d'.tree (s.usage c'))) (happ : r.appKey = r'.appKey)
    (hname : r.groupName = r'.groupName) : r.time = r'.time := by
  obtain ⟨_, hmem, hgreatest⟩ := isGreatest_listedTimes_of_mem_rows hr
  obtain ⟨_, hmem', hgreatest'⟩ := isGreatest_listedTimes_of_mem_rows hr'
  rw [happ, hname] at hmem hgreatest
  obtain ⟨hmem, hreaches⟩ := h.mem_listedTimes_iff.mp hmem
  have hle : r.time ≤ r'.time := hgreatest' hmem
  refine Int.le_antisymm hle (hgreatest ?_)
  exact h.mem_listedTimes_iff.mpr ⟨hmem', Criteria.reaches_of_le hreaches hle⟩

end Criteria.Narrows

/-- A narrower window or a later moment only takes usage away. -/
theorem remainsOf_usage (s : Snapshot) {c c' : Criteria} (h : c.Narrows c') :
    (s.usage c).RemainsOf (s.usage c') where
  buckets _ := h.exists_bucket
  latest _ hb _ hb' hkey _ hg _ hg' := h.latest_eq hb hb' hkey hg hg'
  hasSystemApps := h.hasSystemApps_mono
  keys := h.keys_subset
  times _ _ _ hr _ hr' := h.time_eq hr hr'

/-- An app that has used the camera twice, with the microphone in between. -/
def fading : Snapshot where
  groups := [
    { name := "camera", label := "Camera", declaredBy := "android"
      grants := [{ appKey := "maps", accesses :=
        [⟨"maps", "camera", "Camera", 1000⟩, ⟨"maps", "camera", "Camera", 3000000⟩] }] },
    { name := "microphone", label := "Microphone", declaredBy := "android"
      grants := [{ appKey := "maps", accesses := [⟨"maps", "microphone", "Microphone", 2000⟩] }] }]
  apps := [{ key := "maps", label := "Maps", userFacing := true }]

theorem remainsOf_usage_fading :
    let hour : Criteria := ⟨{}, { window := .lastHour }, 4000000⟩
    let day : Criteria := ⟨{}, { window := .last24Hours }, 3500000⟩
    hour.Narrows day ∧ (fading.usage hour).RemainsOf (fading.usage day) ∧
      (fading.usage hour).accessCount = 1 ∧ (fading.usage day).accessCount = 3 := by
  intro hour day
  have hnarrows : hour.Narrows day := ⟨rfl, rfl, rfl, by decide, by decide⟩
  exact ⟨hnarrows, remainsOf_usage fading hnarrows, by decide, by decide⟩

end AccessLedger
