import AccessLedger.Proofs.Filter.Choice
import AccessLedger.Proofs.Usage.Buckets
import AccessLedger.Usage.View

/-!
The pass under each group option next to the pass under the option for every group. Every listed
access falls to one option by the label of its group, so the passes under the options share out the
whole pass: each bucket keeps what lies in the groups of the label. Only the order of the apps is a
new one, that of their first access with the label.
-/

namespace AccessLedger

def Criteria.withGroup (c : Criteria) (label : Option String) : Criteria :=
  { c with selection := { c.selection with groupLabel := label } }

/-- Whether the group at a position of the snapshot has the label. -/
def Snapshot.hasLabel (s : Snapshot) (label : String) (position : Nat) : Bool :=
  s.groups[position]?.any (·.label == label)

/-- What is left of a bucket when only the groups of one label count. -/
def Bucket.narrowed (s : Snapshot) (c : Criteria) (label : String) (b : Bucket) : Bucket where
  appKey := b.appKey
  accesses := ((s.listed c).filter fun o => o.appKey = b.appKey ∧ o.group.label = label).map
    (·.access)
  groups := b.groups.filter fun g => s.hasLabel label g.groupPosition

section Labels

variable {s : Snapshot} {c : Criteria}

theorem objection?_withGroup (label : String) (group : PermissionGroup) (access : Access) :
    (c.withGroup (some label)).objection? group access = none ↔
      (c.withGroup none).objection? group access = none ∧ group.label = label := by
  rw [objection?_eq_none_iff, objection?_eq_none_iff, admitsGroup_iff, admitsGroup_iff]
  simp only [Criteria.withGroup, Option.some.injEq, forall_eq', reduceCtorEq, false_implies,
    implies_true, true_and]
  tauto

theorem listed_withGroup (s : Snapshot) (c : Criteria) (label : String) :
    s.listed (c.withGroup (some label)) =
      (s.listed (c.withGroup none)).filter fun o => o.group.label = label := by
  refine listed_eq_filter_of_objection (by rfl) (by rfl) ?_
  intro o
  rw [objection?_withGroup, decide_eq_true_eq]

theorem hasLabel_groupPosition {r : Rules} {o : Observation} (ho : o ∈ s.observations r)
    (label : String) : s.hasLabel label o.groupPosition = decide (o.group.label = label) := by
  obtain ⟨⟨hget, _⟩, _⟩ := (mem_observations_iff s r o).mp ho
  rw [Snapshot.hasLabel, hget, Option.any_some, Bool.beq_eq_decide_eq]

/-- The matched groups of the accesses with a label are those that have the label. -/
theorem gather_label {r : Rules} {l : List Observation} (hl : ∀ o ∈ l, o ∈ s.observations r)
    (label : String) :
    matchedGrouping.gather (l.filter fun o => o.group.label = label) =
      (matchedGrouping.gather l).filter fun g => s.hasLabel label g.groupPosition := by
  have hcongr : l.filter (fun o => o.group.label = label) =
      l.filter fun o => s.hasLabel label (matchedGrouping.source o) := by
    apply List.filter_congr
    intro o ho
    exact (hasLabel_groupPosition (hl o ho) label).symm
  rw [hcongr]
  exact matchedGrouping.gather_filter (s.hasLabel label) l

end Labels

section Buckets

variable {s : Snapshot} {c : Criteria} {label : String}

theorem mem_listed_withGroup {o : Observation} :
    o ∈ s.listed (c.withGroup (some label)) ↔
      o ∈ s.listed (c.withGroup none) ∧ o.group.label = label := by
  rw [listed_withGroup, List.mem_filter, decide_eq_true_eq]

/-- An app's bucket under the filter is what the filter leaves of its bucket without one. -/
theorem eq_narrowed {b whole : Bucket} (hb : b ∈ (s.usage (c.withGroup (some label))).buckets)
    (hwhole : whole ∈ (s.usage (c.withGroup none)).buckets) (hkey : whole.appKey = b.appKey) :
    whole.narrowed s (c.withGroup none) label = b := by
  have hfilter : (s.listed (c.withGroup (some label))).filter (fun o => o.appKey = b.appKey) =
      ((s.listed (c.withGroup none)).filter fun o => o.appKey = whole.appKey).filter
        fun o => o.group.label = label := by
    rw [listed_withGroup, List.filter_filter, List.filter_filter, hkey]
    simp only [Bool.and_comm]
  have hwalked : ∀ o ∈ (s.listed (c.withGroup none)).filter (fun o => o.appKey = whole.appKey),
      o ∈ s.observations c.rules := by
    intro o ho
    exact ((mem_listed_iff s _ o).mp (List.mem_filter.mp ho).1).1
  have haccesses := accesses_of_mem_usage hb
  have hgroups := groups_of_mem_usage hb
  rw [hfilter] at haccesses hgroups
  rw [gather_label hwalked, ← groups_of_mem_usage hwhole] at hgroups
  rw [List.filter_filter] at haccesses
  calc
    whole.narrowed s (c.withGroup none) label = ⟨b.appKey, b.accesses, b.groups⟩ := by
      rw [Bucket.narrowed, haccesses, hgroups, hkey]
      simp only [Bool.decide_and, Bool.and_comm]
    _ = b := rfl

theorem exists_whole_of_mem_usage {b : Bucket}
    (hb : b ∈ (s.usage (c.withGroup (some label))).buckets) :
    ∃ whole ∈ (s.usage (c.withGroup none)).buckets, whole.appKey = b.appKey :=
  exists_bucket_of_listed (fun _ ho => (mem_listed_withGroup.mp ho).1) hb

/-- An app that has a group of the label in its bucket has a bucket under the filter. -/
theorem exists_bucket_of_hasLabel {whole : Bucket}
    (hwhole : whole ∈ (s.usage (c.withGroup none)).buckets) {g : MatchedGroup}
    (hg : g ∈ whole.groups) (hlabel : s.hasLabel label g.groupPosition = true) :
    ∃ b ∈ (s.usage (c.withGroup (some label))).buckets, b.appKey = whole.appKey := by
  obtain ⟨⟨o, ho, hkey, hpos, _⟩, _⟩ := group_of_mem_usage hwhole hg
  rw [← hpos, hasLabel_groupPosition ((mem_listed_iff s _ o).mp ho).1, decide_eq_true_eq] at hlabel
  obtain ⟨b, hb, happ, _⟩ := exists_group_of_listed (mem_listed_withGroup.mpr ⟨ho, hlabel⟩)
  exact ⟨b, hb, happ.trans hkey⟩

theorem narrowed_buckets_perm (s : Snapshot) (c : Criteria) (label : String) :
    (s.usage (c.withGroup (some label))).buckets.Perm
      (((s.usage (c.withGroup none)).buckets.map fun b =>
        b.narrowed s (c.withGroup none) label).filter fun b => !b.groups.isEmpty) := by
  have hnodup : (((s.usage (c.withGroup none)).buckets.map fun b =>
      b.narrowed s (c.withGroup none) label).map (·.appKey)).Nodup := by
    rw [List.map_map]
    exact nodup_appKeys s (c.withGroup none)
  -- App keys do not repeat on either side, so the members decide.
  rw [List.perm_ext_iff_of_nodup (nodup_appKeys s _).of_map (hnodup.of_map.filter _)]
  intro b
  rw [List.mem_filter, List.mem_map]
  constructor
  · intro hb
    obtain ⟨whole, hwhole, hkey⟩ := exists_whole_of_mem_usage hb
    refine ⟨⟨whole, hwhole, eq_narrowed hb hwhole hkey⟩, ?_⟩
    simpa using groups_ne_nil_of_mem_usage hb
  · intro h
    obtain ⟨⟨whole, hwhole, rfl⟩, hsome⟩ := h
    rw [Bool.not_eq_true', List.isEmpty_eq_false_iff_exists_mem] at hsome
    obtain ⟨g, hg⟩ := hsome
    obtain ⟨hg, hlabel⟩ := List.mem_filter.mp hg
    obtain ⟨b, hb, hkey⟩ := exists_bucket_of_hasLabel hwhole hg hlabel
    rwa [eq_narrowed hb hwhole hkey.symm]

theorem hasSystemApps_withGroup (s : Snapshot) (c : Criteria) (label : String) :
    (s.usage (c.withGroup (some label))).hasSystemApps = true ↔
      ∃ o ∈ s.observations c.rules, o.group.label = label ∧
        (s.verdict (c.withGroup none) o).involvesSystem = true := by
  rw [usage_hasSystemApps, List.any_eq_true]
  simp only [involvesSystem_verdict_iff, objection?_withGroup]
  constructor
  · intro h
    obtain ⟨o, ho, app, happ, ⟨hobjection, hlabel⟩, hsystem⟩ := h
    exact ⟨o, ho, hlabel, app, happ, hobjection, hsystem⟩
  · intro h
    obtain ⟨o, ho, hlabel, app, happ, hobjection, hsystem⟩ := h
    exact ⟨o, ho, app, happ, ⟨hobjection, hlabel⟩, hsystem⟩

end Buckets

/--
Criteria without a group label, then the same with each label of the groups that the walk meets.
-/
structure Enumerates (s : Snapshot) (c : Criteria) (labels : List String)
    (criteria : Nat → Criteria) : Prop where
  zero : criteria 0 = c.withGroup none
  succ : ∀ i label, labels[i]? = some label → criteria (i + 1) = c.withGroup (some label)
  distinct : labels.Nodup
  cover : ∀ o ∈ s.observations c.rules, o.group.label ∈ labels

section Enumeration

variable {s : Snapshot} {c : Criteria} {labels : List String} {criteria : Nat → Criteria}

theorem Enumerates.listed_succ (h : Enumerates s c labels criteria) {i : Nat} {label : String}
    (hi : labels[i]? = some label) :
    s.listed (criteria (i + 1)) =
      (s.listed (criteria 0)).filter fun o => o.group.label = label := by
  rw [h.succ i label hi, h.zero, listed_withGroup]

theorem Enumerates.label_mem (h : Enumerates s c labels criteria) {o : Observation}
    (ho : o ∈ s.listed (criteria 0)) : o.group.label ∈ labels := by
  rw [h.zero] at ho
  exact h.cover o ((mem_listed_iff s _ o).mp ho).1

theorem Enumerates.once (h : Enumerates s c labels criteria) {o : Observation}
    (ho : o ∈ s.listed (criteria 0)) :
    ∃! i, i < labels.length ∧ o ∈ s.listed (criteria (i + 1)) := by
  obtain ⟨i, hi, hlabel⟩ := List.getElem_of_mem (h.label_mem ho)
  have hget : ∀ {j} (hj : j < labels.length), labels[j]? = some labels[j] :=
    fun hj => List.getElem?_eq_getElem hj
  refine ⟨i, ⟨hi, ?_⟩, ?_⟩
  · rw [h.listed_succ (hget hi), List.mem_filter, decide_eq_true_eq]
    exact ⟨ho, hlabel.symm⟩
  · intro j hj
    obtain ⟨hj, hmem⟩ := hj
    rw [h.listed_succ (hget hj), List.mem_filter, decide_eq_true_eq] at hmem
    exact h.distinct.getElem_inj_iff.mp (hmem.2.symm.trans hlabel.symm)

theorem Enumerates.counted (h : Enumerates s c labels criteria) :
    (s.usage (criteria 0)).accessCount =
      ((List.range labels.length).map fun i => (s.usage (criteria (i + 1))).accessCount).sum := by
  have hshare : (List.range labels.length).map (fun i => (s.usage (criteria (i + 1))).accessCount) =
      labels.map fun label =>
        ((s.listed (criteria 0)).filter fun o => o.group.label = label).length := by
    apply List.ext_getElem
    · rw [List.length_map, List.length_range, List.length_map]
    · intro i hi hi'
      rw [List.length_map] at hi'
      rw [List.getElem_map, List.getElem_map, List.getElem_range, accessCount_usage,
        h.listed_succ (List.getElem?_eq_getElem hi')]
  rw [hshare, accessCount_usage]
  exact (sum_length_filter_of_cover (fun o : Observation => o.group.label) h.distinct
    fun o ho => h.label_mem ho).symm

theorem Enumerates.flagged (h : Enumerates s c labels criteria) :
    (s.usage (criteria 0)).hasSystemApps = true ↔
      ∃ i, i < labels.length ∧ (s.usage (criteria (i + 1))).hasSystemApps = true := by
  have hzero : (s.usage (criteria 0)).hasSystemApps = true ↔
      ∃ o ∈ s.observations c.rules,
        (s.verdict (c.withGroup none) o).involvesSystem = true := by
    rw [h.zero, usage_hasSystemApps, List.any_eq_true]
    rfl
  have hsucc : ∀ {i} (hi : i < labels.length),
      (s.usage (criteria (i + 1))).hasSystemApps = true ↔
        ∃ o ∈ s.observations c.rules, o.group.label = labels[i] ∧
          (s.verdict (c.withGroup none) o).involvesSystem = true := by
    intro i hi
    rw [h.succ i labels[i] (List.getElem?_eq_getElem hi), hasSystemApps_withGroup]
  rw [hzero]
  constructor
  · intro hwhole
    obtain ⟨o, ho, hsystem⟩ := hwhole
    obtain ⟨i, hi, hlabel⟩ := List.getElem_of_mem (h.cover o ho)
    exact ⟨i, hi, (hsucc hi).mpr ⟨o, ho, hlabel.symm, hsystem⟩⟩
  · intro hpart
    obtain ⟨i, hi, hflag⟩ := hpart
    obtain ⟨o, ho, _, hsystem⟩ := (hsucc hi).mp hflag
    exact ⟨o, ho, hsystem⟩

end Enumeration

/-- What a pass goes by when the group option at a position is chosen, all else staying the same. -/
def Outlook.criteriaAt (o : Outlook) (s : Snapshot) (time : Nat) (showSystem : Bool) (now : Int)
    (position : Nat) : Criteria :=
  o.criteria (.ofPositions (o.options s) position time showSystem) now

/-- The passes under the options after the first share out the pass under the first. -/
structure SharesOut (s : Snapshot) (options : List GroupOption) (criteria : Nat → Criteria) :
    Prop where
  listed : ∀ i label, options[i + 1]?.map (·.label) = some label →
    s.listed (criteria (i + 1)) = (s.listed (criteria 0)).filter fun o => o.group.label = label
  /-- A bucket holds what is listed for its app, in the order of the walk. -/
  bucketed : ∀ i, ∀ b ∈ (s.usage (criteria i)).buckets,
    b.accesses = ((s.listed (criteria i)).filter fun o => o.appKey = b.appKey).map (·.access)
  /-- Apps come in the order of what is listed for them. -/
  ordered : ∀ i, (s.usage (criteria i)).buckets.map (·.appKey) =
    ((s.listed (criteria i)).map (·.appKey)).eraseDups
  narrowed : ∀ i label, options[i + 1]?.map (·.label) = some label →
    (s.usage (criteria (i + 1))).buckets.Perm
      (((s.usage (criteria 0)).buckets.map (·.narrowed s (criteria 0) label)).filter
        fun b => !b.groups.isEmpty)
  once : ∀ o ∈ s.listed (criteria 0),
    ∃! i, i + 1 < options.length ∧ o ∈ s.listed (criteria (i + 1))
  counted : (s.usage (criteria 0)).accessCount =
    ((List.range (options.length - 1)).map fun i => (s.usage (criteria (i + 1))).accessCount).sum
  flagged : (s.usage (criteria 0)).hasSystemApps = true ↔
    ∃ i, i + 1 < options.length ∧ (s.usage (criteria (i + 1))).hasSystemApps = true

section Options

variable (o : Outlook) (s : Snapshot) (time : Nat) (showSystem : Bool) (now : Int)

/-- The labels on offer, in their order. -/
def Outlook.offeredLabels : List String :=
  (offeredGroups s o.rules o.collation).map (·.label)

theorem offers_options :
    Offers o.labels.anyGroup (o.options s).groups (offeredGroups s o.rules o.collation) :=
  offers_groupOptions s o.rules o.labels o.collation

theorem enumerates_options :
    Enumerates s (o.criteriaAt s time showSystem now 0) (o.offeredLabels s)
      (o.criteriaAt s time showSystem now) where
  zero := by
    have hany : (o.options s).groups[0]?.bind (·.groupLabel?) = none := by
      rw [(offers_options o s).getElem?_zero]
      rfl
    simp only [Outlook.criteriaAt, Outlook.criteria, Selection.ofPositions, Criteria.withGroup,
      hany]
  succ i label h := by
    have hlabel := (offers_options o s).groupLabel_succ i
    rw [← Outlook.offeredLabels, h] at hlabel
    simp only [Outlook.criteriaAt, Outlook.criteria, Selection.ofPositions, Criteria.withGroup,
      hlabel]
  distinct := (offers_options o s).2
  cover obs h := by
    obtain ⟨hgroup, _⟩ := (mem_observations_iff s o.rules obs).mp h
    have hplatform := (mem_platformGroups_iff s o.rules obs.group obs.groupPosition).mpr hgroup
    rw [Outlook.offeredLabels, mem_labels_offeredGroups_iff]
    exact ⟨obs.group, List.mem_map.mpr ⟨_, hplatform, rfl⟩, rfl⟩

/-- Whatever the order of the options, their passes share out the whole. -/
theorem sharesOut_options :
    SharesOut s (o.options s).groups (o.criteriaAt s time showSystem now) := by
  have henumerates := enumerates_options o s time showSystem now
  have hlabels : ∀ i label, (o.options s).groups[i + 1]?.map (·.label) = some label →
      (o.offeredLabels s)[i]? = some label := by
    intro i label h
    rwa [(offers_options o s).label_succ] at h
  have hlength : (o.options s).groups.length = (o.offeredLabels s).length + 1 :=
    (offers_options o s).length_eq
  refine ⟨?_, ?_, ?_, ?_, ?_, ?_, ?_⟩
  · intro i label h
    exact henumerates.listed_succ (hlabels i label h)
  · intro i b hb
    exact accesses_of_mem_usage hb
  · intro i
    rw [usage_buckets]
    exact bucketGrouping.keys_gather _
  · intro i label h
    rw [henumerates.succ i label (hlabels i label h), henumerates.zero]
    exact narrowed_buckets_perm s _ label
  · intro obs hobs
    simp only [hlength, Nat.add_lt_add_iff_right]
    exact henumerates.once hobs
  · rw [hlength]
    exact henumerates.counted
  · simp only [hlength, Nat.add_lt_add_iff_right]
    exact henumerates.flagged

end Options

/-- Two apps, of which the second comes first where only the camera counts. -/
def cameraLast : Snapshot where
  groups := [
    { name := "location", label := "Location", declaredBy := "android"
      grants := [{ appKey := "maps", accesses := [⟨"maps", "location", "Location", 100⟩] }] },
    { name := "camera", label := "Camera", declaredBy := "android"
      grants := [
        { appKey := "photos", accesses := [⟨"photos", "camera", "Camera", 200⟩] },
        { appKey := "maps", accesses := [⟨"maps", "camera", "Camera", 300⟩] }] }]
  apps := [
    { key := "maps", label := "Maps", userFacing := true },
    { key := "photos", label := "Photos", userFacing := true }]

theorem groupOptions_cameraLast :
    groupOptions cameraLast {} {} .reversed =
      [.any "All permissions", .group "location" "Location", .group "camera" "Camera"] := by
  rw [groupOptions, List.mergeSort_of_pairwise (by decide)]
  rfl

/-- The order of the apps is not that of the whole pass. -/
theorem not_narrowed_in_order_cameraLast :
    let o : Outlook := ⟨{}, {}, .reversed⟩
    let criteria := o.criteriaAt cameraLast 0 false 1000
    (o.options cameraLast).groups[2]?.map (·.label) = some "Camera" ∧
      (cameraLast.usage (criteria 2)).buckets ≠
        ((cameraLast.usage (criteria 0)).buckets.map
          (·.narrowed cameraLast (criteria 0) "Camera")).filter fun b => !b.groups.isEmpty := by
  intro o criteria
  have hoptions : (o.options cameraLast).groups =
      [.any "All permissions", .group "location" "Location", .group "camera" "Camera"] :=
    groupOptions_cameraLast
  have hwhole : criteria 0 = ⟨{}, {}, 1000⟩ := by
    simp only [criteria, Outlook.criteriaAt, Outlook.criteria, Selection.ofPositions, hoptions]
    rfl
  have hcamera : criteria 2 = ⟨{}, { groupLabel := some "Camera" }, 1000⟩ := by
    simp only [criteria, Outlook.criteriaAt, Outlook.criteria, Selection.ofPositions, hoptions]
    rfl
  rw [hoptions, hwhole, hcamera]
  decide

end AccessLedger
