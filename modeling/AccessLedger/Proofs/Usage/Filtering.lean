import Mathlib.Order.Bounds.Defs
import AccessLedger.Proofs.Usage.Buckets
import AccessLedger.Proofs.Usage.Rows
import AccessLedger.Usage.View

/-!
What a view lists, said of the snapshot alone: an app and a group name have a row exactly when one
of their accesses passes, and the row shows the latest of them. Row keys may be shared between
different pairs, in which case one pair stands for all; the statement on keys holds all the same.
-/

namespace AccessLedger

/-- The times of the passing accesses of an app in all groups of a name. -/
def passingTimes (s : Snapshot) (c : Criteria) (appKey groupName : String) : Set Int :=
  {time | ∃ group app access, Passing s c group app access ∧
    app.key = appKey ∧ group.name = groupName ∧ access.time = time}

/-- The times of the listed observations of an app in all groups of a name. -/
def listedTimes (s : Snapshot) (c : Criteria) (appKey groupName : String) : Set Int :=
  {time | ∃ o ∈ s.listed c, o.appKey = appKey ∧ o.group.name = groupName ∧ o.access.time = time}

section Matching

variable {s : Snapshot} {c : Criteria}

theorem appKey_of_app {o : Observation} {app : App} (h : o.app = some app) :
    o.appKey = app.key := by
  rw [Observation.appKey, h]
  rfl

theorem passingTimes_eq_listedTimes (hnow : c.now < int64Limit) (appKey groupName : String) :
    passingTimes s c appKey groupName = listedTimes s c appKey groupName := by
  ext time
  constructor
  · intro h
    obtain ⟨group, app, access, hpassing, rfl, rfl, rfl⟩ := h
    obtain ⟨o, ho, rfl, happ, rfl⟩ :=
      (exists_listed_iff_passing hnow group app access).mpr hpassing
    exact ⟨o, ho, appKey_of_app happ, rfl, rfl⟩
  · intro h
    obtain ⟨o, ho, rfl, rfl, rfl⟩ := h
    obtain ⟨_, app, happ, _, _⟩ := (mem_listed_iff s c o).mp ho
    exact ⟨o.group, app, o.access, (exists_listed_iff_passing hnow o.group app o.access).mp
      ⟨o, ho, rfl, happ, rfl⟩, (appKey_of_app happ).symm, rfl, rfl⟩

/-- A matched group stands for a listed access of its time. -/
theorem time_mem_listedTimes {b : Bucket} (hb : b ∈ (s.usage c).buckets) {g : MatchedGroup}
    (hg : g ∈ b.groups) : g.time ∈ listedTimes s c b.appKey g.name := by
  obtain ⟨⟨o, ho, hkey, hpos, hlatest⟩, hall⟩ := group_of_mem_usage hb hg
  exact ⟨o, ho, hkey, (hall o ho hkey hpos).1, by rw [MatchedGroup.time, hlatest]⟩

/-- A listed access is in some matched group of its app and name, which is at least as recent. -/
theorem exists_group_of_mem_listedTimes {appKey groupName : String} {time : Int}
    (h : time ∈ listedTimes s c appKey groupName) :
    ∃ b ∈ (s.usage c).buckets, b.appKey = appKey ∧
      ∃ g ∈ b.groups, g.name = groupName ∧ time ≤ g.time := by
  obtain ⟨o, ho, rfl, rfl, rfl⟩ := h
  obtain ⟨b, hb, hkey, g, hg, hpos⟩ := exists_group_of_listed ho
  obtain ⟨hname, htime⟩ := (group_of_mem_usage hb hg).2 o ho hkey.symm hpos.symm
  exact ⟨b, hb, hkey, g, hg, hname.symm, htime⟩

/-- Of the candidates of one app and name, the one that becomes a row is the most recent. -/
theorem time_le_of_mem_distinctOn {x y : Candidate}
    (hx : x ∈ distinctOn Candidate.key [] (Candidate.ofBuckets (s.usage c).ranked))
    (hy : y ∈ Candidate.ofBuckets (s.usage c).ranked) (happ : y.1 = x.1)
    (hname : y.2.name = x.2.name) : y.2.time ≤ x.2.time := by
  have hkey : y.key = x.key := by rw [Candidate.key, happ, hname, Candidate.key]
  rcases rel_of_mem_distinctOn (pairwise_ofBuckets (nodup_ranked (nodup_appKeys s c))) hx hy
    hkey with
    rfl | hle
  · exact Int.le_refl _
  · exact hle happ

theorem isGreatest_listedTimes_of_mem_rows {d : Display} {r : Row}
    (hr : r ∈ rowsOf (d.tree (s.usage c))) :
    r.key = rowKey r.appKey r.groupName ∧
      IsGreatest (listedTimes s c r.appKey r.groupName) r.time := by
  obtain ⟨x, hx, hrow⟩ := Display.exists_candidate_of_mem_rows hr
  have happ : r.appKey = x.1 := congrArg Row.appKey hrow
  have hname : r.groupName = x.2.name := congrArg Row.groupName hrow
  have htime : r.time = x.2.time := congrArg Row.time hrow
  have hkey : r.key = x.key := congrArg Row.key hrow
  rw [happ, hname, htime, hkey]
  refine ⟨rfl, ?_, ?_⟩
  · obtain ⟨b, hb, hbx, hg⟩ :=
      mem_ofBuckets.mp ((distinctOn_sublist Candidate.key [] _).subset hx)
    rw [← hbx]
    exact time_mem_listedTimes (mem_ranked.mp hb) hg
  · intro time h
    obtain ⟨b, hb, hbx, g, hg, hgname, hle⟩ := exists_group_of_mem_listedTimes h
    have hy : ((b.appKey, g) : Candidate) ∈ Candidate.ofBuckets (s.usage c).ranked :=
      mem_ofBuckets.mpr ⟨b, mem_ranked.mpr hb, rfl, hg⟩
    exact Int.le_trans hle (time_le_of_mem_distinctOn hx hy hbx hgname)

theorem isGreatest_time_of_mem_rows (hnow : c.now < int64Limit) {d : Display} {r : Row}
    (hr : r ∈ rowsOf (d.tree (s.usage c))) :
    r.key = rowKey r.appKey r.groupName ∧
      IsGreatest (passingTimes s c r.appKey r.groupName) r.time := by
  rw [passingTimes_eq_listedTimes hnow]
  exact isGreatest_listedTimes_of_mem_rows hr

theorem mem_keys_rows_iff_passing (hnow : c.now < int64Limit) (d : Display) (key : String) :
    key ∈ (rowsOf (d.tree (s.usage c))).map (·.key) ↔
      ∃ group app access, Passing s c group app access ∧ key = rowKey app.key group.name := by
  rw [Display.mem_keys_rows_tree_iff]
  constructor
  · intro h
    obtain ⟨b, hb, g, hg, rfl⟩ := h
    have hmem := time_mem_listedTimes hb hg
    rw [← passingTimes_eq_listedTimes hnow] at hmem
    obtain ⟨group, app, access, hpassing, happ, hname, _⟩ := hmem
    exact ⟨group, app, access, hpassing, by rw [happ, hname]⟩
  · intro h
    obtain ⟨group, app, access, hpassing, rfl⟩ := h
    have hmem : access.time ∈ passingTimes s c app.key group.name :=
      ⟨group, app, access, hpassing, rfl, rfl, rfl⟩
    rw [passingTimes_eq_listedTimes hnow] at hmem
    obtain ⟨b, hb, hkey, g, hg, hname, _⟩ := exists_group_of_mem_listedTimes hmem
    exact ⟨b, hb, g, hg, by rw [hkey, hname]⟩

theorem hasSystemApps_iff_eligible (hnow : c.now < int64Limit) :
    (s.usage c).hasSystemApps = true ↔
      ∃ group app access, Eligible s c group app access ∧ s.isSystemApp app = true := by
  rw [usage_hasSystemApps, List.any_eq_true]
  constructor
  · intro h
    obtain ⟨o, ho, hinvolves⟩ := h
    obtain ⟨app, happ, hobjection, hsystem⟩ := (involvesSystem_verdict_iff s c o).mp hinvolves
    exact ⟨o.group, app, o.access, (exists_unobjected_iff_eligible hnow o.group app o.access).mp
      ⟨o, ho, rfl, happ, rfl, hobjection⟩, hsystem⟩
  · intro h
    obtain ⟨group, app, access, heligible, hsystem⟩ := h
    obtain ⟨o, ho, rfl, happ, rfl, hobjection⟩ :=
      (exists_unobjected_iff_eligible hnow group app access).mpr heligible
    exact ⟨o, ho, (involvesSystem_verdict_iff s c o).mpr ⟨app, happ, hobjection, hsystem⟩⟩

end Matching

namespace Outlook

/-- A view shows what a plain filter over the snapshot admits. Moments are those of 64 bits. -/
theorem view_lists_passing (o : Outlook) (s : Snapshot) (selection : Selection) (now : Int)
    (hnow : now < int64Limit) :
    (((rowsOf (o.view s selection now).tree).map (·.key)).Nodup ∧
      ∀ key, key ∈ (rowsOf (o.view s selection now).tree).map (·.key) ↔
        ∃ group app access, Passing s (o.criteria selection now) group app access ∧
          key = rowKey app.key group.name) ∧
    (∀ r ∈ rowsOf (o.view s selection now).tree,
      r.key = rowKey r.appKey r.groupName ∧
        IsGreatest (passingTimes s (o.criteria selection now) r.appKey r.groupName) r.time) ∧
    ((o.view s selection now).hasSystemApps = true ↔
      ∃ group app access, Eligible s (o.criteria selection now) group app access ∧
        s.isSystemApp app = true) := by
  have hcriteria : (o.criteria selection now).now < int64Limit := hnow
  refine ⟨⟨Display.nodup_keys_rows_tree _ _, ?_⟩, ?_, ?_⟩
  · exact mem_keys_rows_iff_passing hcriteria (o.display s now)
  · intro r hr
    exact isGreatest_time_of_mem_rows hcriteria hr
  · exact hasSystemApps_iff_eligible hcriteria

/-- One app with accesses in two groups of one name. -/
def twoPaths : Snapshot where
  groups := [
    { name := "location", label := "Location", declaredBy := "android"
      grants := [{ appKey := "maps", accesses := [⟨"maps", "location", "Location", 400⟩] }] },
    { name := "location", label := "Approximate location", declaredBy := "android"
      grants := [{ appKey := "maps", accesses := [⟨"maps", "location", "Location", 900⟩] }] }]
  apps := [{ key := "maps", label := "Maps", userFacing := true }]

theorem view_lists_passing_twoPaths :
    (1000 : Int) < int64Limit ∧
      "maps,location" ∈
        (rowsOf ((⟨{}, {}, .reversed⟩ : Outlook).view twoPaths {} 1000).tree).map (·.key) := by
  refine ⟨by decide, ?_⟩
  have h := view_lists_passing ⟨{}, {}, .reversed⟩ twoPaths {} 1000 (by decide)
  rw [h.1.2]
  refine ⟨twoPaths.groups[1], twoPaths.apps[0], ⟨"maps", "location", "Location", 900⟩, ?_, rfl⟩
  exact {
    declared := by decide
    granted := ⟨_, List.mem_singleton_self _, rfl, by decide, List.mem_singleton_self _⟩
    accessed := by decide
    wanted := nofun
    listable := by decide
    recent := by decide
    visible := by decide }

end Outlook
end AccessLedger
