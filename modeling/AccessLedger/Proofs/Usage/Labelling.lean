import AccessLedger.Proofs.Usage.Buckets
import AccessLedger.Proofs.Usage.Rows
import AccessLedger.Usage.View

/-!
Two labels stand behind a row. Whether an access is listed is decided by the label of its group, but
the row shows the label that was recorded with the access. Where these agree, no excluded label is
shown and a chosen label is the only one.
-/

namespace AccessLedger

/-- The access that a row shows: its own label is on the row, the label of its group let it pass. -/
structure Row.Shows (s : Snapshot) (c : Criteria) (r : Row) (obs : Observation) : Prop where
  listed : obs ∈ s.listed c
  appKey : r.appKey = obs.appKey
  groupName : r.groupName = obs.group.name
  time : r.time = obs.access.time
  recorded : r.groupLabel = obs.access.groupLabel
  listable : obs.group.label ∉ c.rules.excludedLabels
  wanted : ∀ label, c.selection.groupLabel = some label → obs.group.label = label

section Rows

variable {s : Snapshot} {c : Criteria}

theorem label_of_listed {obs : Observation} (h : obs ∈ s.listed c) :
    obs.group.label ∉ c.rules.excludedLabels ∧
      ∀ label, c.selection.groupLabel = some label → obs.group.label = label := by
  obtain ⟨_, app, _, hobjection, _⟩ := (mem_listed_iff s c obs).mp h
  obtain ⟨_, hadmits, hexcludes, _⟩ := (objection?_eq_none_iff c _ _).mp hobjection
  exact ⟨(excludes_eq_false_iff c.rules _).mp hexcludes, (admitsGroup_iff c.selection _).mp hadmits⟩

theorem exists_shown_of_mem_rows {d : Display} {r : Row} (hr : r ∈ rowsOf (d.tree (s.usage c))) :
    ∃ obs, r.Shows s c obs := by
  obtain ⟨x, hx, hrow⟩ := Display.exists_candidate_of_mem_rows hr
  obtain ⟨b, hb, hbx, hg⟩ := mem_ofBuckets.mp ((distinctOn_sublist Candidate.key [] _).subset hx)
  obtain ⟨⟨obs, hlisted, hkey, hpos, hlatest⟩, hall⟩ := group_of_mem_usage (mem_ranked.mp hb) hg
  have happ : r.appKey = x.1 := congrArg Row.appKey hrow
  have hname : r.groupName = x.2.name := congrArg Row.groupName hrow
  have htime : r.time = x.2.latest.time := congrArg Row.time hrow
  have hlabel : r.groupLabel = x.2.latest.groupLabel := congrArg Row.groupLabel hrow
  obtain ⟨hlistable, hwanted⟩ := label_of_listed hlisted
  exact ⟨obs, {
    listed := hlisted
    appKey := by rw [happ, ← hbx, hkey]
    groupName := by rw [hname, (hall obs hlisted hkey hpos).1]
    time := by rw [htime, hlatest]
    recorded := by rw [hlabel, hlatest]
    listable := hlistable
    wanted := hwanted }⟩

end Rows

namespace Outlook

/--
Rows keep to the labels that are let through as far as accesses carry the labels of their groups.
-/
theorem rows_show_recorded_labels (o : Outlook) (s : Snapshot) (selection : Selection) (now : Int) :
    let rows := rowsOf (o.view s selection now).tree
    let criteria := o.criteria selection now
    (∀ r ∈ rows, ∃ obs, r.Shows s criteria obs) ∧
    ((∀ obs ∈ s.listed criteria, obs.access.groupLabel = obs.group.label) →
      ∀ r ∈ rows, r.groupLabel ∉ o.rules.excludedLabels ∧
        ∀ label, selection.groupLabel = some label → r.groupLabel = label) := by
  intro rows criteria
  have hshown : ∀ r ∈ rows, ∃ obs, r.Shows s criteria obs := fun r hr => exists_shown_of_mem_rows hr
  refine ⟨hshown, ?_⟩
  intro hagree r hr
  obtain ⟨obs, hobs⟩ := hshown r hr
  rw [hobs.recorded, hagree obs hobs.listed]
  exact ⟨hobs.listable, hobs.wanted⟩

/-- One access, in a group that is labelled `Camera`, with a label of its own. -/
def recordedAs (label : String) : Snapshot where
  groups := [
    { name := "camera", label := "Camera", declaredBy := "android"
      grants := [{ appKey := "photos", accesses := [⟨"photos", "camera", label, 100⟩] }] }]
  apps := [{ key := "photos", label := "Photos", userFacing := true }]

theorem groupLabels_recordedAs (label : String) :
    (rowsOf ((⟨{}, {}, .reversed⟩ : Outlook).view (recordedAs label)
      { groupLabel := some "Camera" } 1000).tree).map (·.groupLabel) = [label] := by
  have husage : ((recordedAs label).usage ⟨{}, { groupLabel := some "Camera" }, 1000⟩).buckets =
      [⟨"photos", [⟨"photos", "camera", label, 100⟩],
        [⟨0, "camera", label, "", ⟨"photos", "camera", label, 100⟩⟩]⟩] := rfl
  show (rowsOf (Display.tree ⟨1000, {}, recordedAs label⟩
    ((recordedAs label).usage ⟨{}, { groupLabel := some "Camera" }, 1000⟩))).map (·.groupLabel) = _
  rw [Display.tree, husage]
  simp only [List.mergeSort_singleton, Display.entries]
  rfl

/-- Where the access has the label of its group, its row keeps to the filter. -/
theorem rows_show_recorded_labels_recordedAs :
    let o : Outlook := ⟨{}, {}, .reversed⟩
    let s := recordedAs "Camera"
    let selection : Selection := { groupLabel := some "Camera" }
    (∀ obs ∈ s.listed (o.criteria selection 1000), obs.access.groupLabel = obs.group.label) ∧
      selection.groupLabel = some "Camera" ∧
      ∃ r ∈ rowsOf (o.view s selection 1000).tree,
        r.groupLabel ∉ o.rules.excludedLabels ∧ r.groupLabel = "Camera" := by
  intro o s selection
  have hagree : ∀ obs ∈ s.listed (o.criteria selection 1000),
      obs.access.groupLabel = obs.group.label := by decide
  have hlabel : "Camera" ∈ (rowsOf (o.view s selection 1000).tree).map (·.groupLabel) := by
    rw [groupLabels_recordedAs]
    exact List.mem_singleton_self _
  obtain ⟨r, hr, _⟩ := List.mem_map.mp hlabel
  obtain ⟨hlistable, hwanted⟩ :=
    (rows_show_recorded_labels o s selection 1000).2 hagree r hr
  exact ⟨hagree, rfl, r, hr, hlistable, hwanted "Camera" rfl⟩

/--
An access that was recorded under an excluded label is shown with it, whatever label is chosen.
-/
theorem not_labels_kept_recordedAs :
    let o : Outlook := ⟨{}, {}, .reversed⟩
    let rows := rowsOf (o.view (recordedAs "Storage") { groupLabel := some "Camera" } 1000).tree
    (¬ ∀ r ∈ rows, r.groupLabel ∉ o.rules.excludedLabels) ∧
      ¬ ∀ r ∈ rows, r.groupLabel = "Camera" := by
  intro o rows
  have hlabel : "Storage" ∈ rows.map (·.groupLabel) := by
    rw [groupLabels_recordedAs]
    exact List.mem_singleton_self _
  obtain ⟨r, hr, hstorage⟩ := List.mem_map.mp hlabel
  refine ⟨?_, ?_⟩
  · intro h
    apply h r hr
    rw [hstorage]
    decide
  · intro h
    have hcamera := h r hr
    rw [hstorage] at hcamera
    exact absurd hcamera (by decide)

end Outlook
end AccessLedger
