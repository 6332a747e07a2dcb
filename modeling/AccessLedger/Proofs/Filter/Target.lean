import AccessLedger.Proofs.Filter.Choice

/-!
A group that is asked for from outside, by its own name or by one of its permissions. The target is
resolved among the groups of the platform, and the name found there is looked for among the options,
which have one group for each label and come in another order.
-/

namespace AccessLedger

def PermissionGroup.AnswersTo (g : PermissionGroup) (target : String) : Prop :=
  g.name = target ∨ target ∈ g.permissions

/-- A target means the first group of the platform that answers to it. -/
def Snapshot.Means (s : Snapshot) (r : Rules) (target : String) (g : PermissionGroup) : Prop :=
  ∃ before after, (s.platformGroups r).map (·.1) = before ++ g :: after ∧
    g.AnswersTo target ∧ ∀ g' ∈ before, ¬ g'.AnswersTo target

/-- Of the groups on offer, the first with the name of `g` has the label of `g`. -/
def FoundByName (groups : List PermissionGroup) (g : PermissionGroup) : Prop :=
  (groups.find? (·.name == g.name)).map (·.label) = some g.label

theorem resolveTarget?_of_means {s : Snapshot} {r : Rules} {target : String} {g : PermissionGroup}
    (h : s.Means r target g) : resolveTarget? s r target = some g.name := by
  obtain ⟨before, after, hsplit, hanswers, hbefore⟩ := h
  have hfind : ((s.platformGroups r).map (·.1)).find?
      (fun g => g.name == target || g.permissions.contains target) = some g := by
    rw [hsplit, List.find?_eq_some_iff_append]
    simp only [Bool.or_eq_true, beq_iff_eq, List.contains_eq_mem, decide_eq_true_eq,
      Bool.not_eq_true', ← Bool.not_eq_true]
    exact ⟨hanswers, before, after, rfl, hbefore⟩
  rw [List.find?_map] at hfind
  obtain ⟨pair, hpair, rfl⟩ := Option.map_eq_some_iff.mp hfind
  rw [resolveTarget?, Option.map_eq_some_iff]
  exact ⟨pair, hpair, rfl⟩

theorem mem_of_means {s : Snapshot} {r : Rules} {target : String} {g : PermissionGroup}
    (h : s.Means r target g) : g ∈ (s.platformGroups r).map (·.1) := by
  obtain ⟨before, after, hsplit, _⟩ := h
  rw [hsplit]
  exact List.mem_append_right _ (List.mem_cons_self ..)

section Offered

variable {anyLabel : String} {options : List GroupOption} {groups : List PermissionGroup}

/-- The first option has no name, and after it the options are the groups on offer. -/
theorem Offers.findIdx?_name (h : Offers anyLabel options groups) (name : String) :
    options.findIdx? (·.groupName? == some name) =
      (groups.findIdx? (·.name == name)).map (· + 1) := by
  rw [h.1, List.findIdx?_cons, List.findIdx?_map]
  rfl

/-- A name that is on offer decides, whatever choices were saved. -/
theorem Offers.groupLabel_of_found (h : Offers anyLabel options groups) {hints : GroupHints}
    {name : String} {g : PermissionGroup} (hcurrent : hints.current = none)
    (htarget : hints.target = some name) (hfind : groups.find? (·.name == name) = some g) :
    options[hints.position options]?.bind (·.groupLabel?) = some g.label := by
  obtain ⟨hname, i, hi, rfl, hbefore⟩ := List.find?_eq_some_iff_getElem.mp hfind
  have hindex : groups.findIdx? (·.name == name) = some i := by
    rw [List.findIdx?_eq_some_iff_getElem]
    refine ⟨hi, hname, ?_⟩
    intro j hj
    simpa using hbefore j hj
  have hposition : hints.position options = i + 1 := by
    rw [GroupHints.position, hcurrent, htarget, Option.bind_some, h.findIdx?_name, hindex]
    rfl
  rw [hposition, h.groupLabel_succ, List.getElem?_map, List.getElem?_eq_getElem hi]
  rfl

/-- A name that is not on offer leads to the first option when there are no saved choices. -/
theorem Offers.groupLabel_of_missed (h : Offers anyLabel options groups) {name : String}
    (hfind : groups.find? (·.name == name) = none) :
    options[({ target := some name } : GroupHints).position options]?.bind (·.groupLabel?) =
      none := by
  have hindex : groups.findIdx? (·.name == name) = none := by
    rw [List.findIdx?_eq_none_iff]
    simpa using hfind
  have hposition : ({ target := some name } : GroupHints).position options = 0 := by
    simp only [GroupHints.position, Option.bind_some, h.findIdx?_name, hindex]
    rfl
  rw [hposition, h.getElem?_zero]
  rfl

end Offered

/-- A group is found by its name if no other group of the platform shares its name or its label. -/
theorem foundByName_of_apart {s : Snapshot} {r : Rules} (collation : Collation)
    {g : PermissionGroup} (hg : g ∈ (s.platformGroups r).map (·.1))
    (hapart : ∀ g' ∈ (s.platformGroups r).map (·.1), g'.name = g.name ↔ g'.label = g.label) :
    FoundByName (offeredGroups s r collation) g := by
  have hplatform : ∀ g' ∈ offeredGroups s r collation, g' ∈ (s.platformGroups r).map (·.1) := by
    intro g' hg'
    exact List.mem_mergeSort.mp ((distinctOn_sublist _ _ _).subset hg')
  obtain ⟨g₁, hg₁, hlabel⟩ := List.mem_map.mp
    ((mem_labels_offeredGroups_iff s r collation g.label).mpr ⟨g, hg, rfl⟩)
  have hname : g₁.name = g.name := (hapart g₁ (hplatform g₁ hg₁)).mpr hlabel
  obtain ⟨g₂, hfind⟩ : ∃ g₂, (offeredGroups s r collation).find? (·.name == g.name) = some g₂ := by
    rw [← Option.isSome_iff_exists, List.find?_isSome]
    exact ⟨g₁, hg₁, beq_iff_eq.mpr hname⟩
  have hg₂ := hplatform g₂ (List.mem_of_find?_eq_some hfind)
  have hname₂ := List.find?_some hfind
  rw [beq_iff_eq] at hname₂
  rw [FoundByName, hfind, Option.map_some, (hapart g₂ hg₂).mp hname₂]

end AccessLedger
