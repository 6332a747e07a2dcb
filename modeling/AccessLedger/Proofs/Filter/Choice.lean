import AccessLedger.Filter.Selection
import AccessLedger.Proofs.Distinct

/-!
The option that hints lead to, and where its label leads afterwards. A choice is carried by label
alone. The labels of groups are distinct, but the label of the first option is a text of its own and
may be one of them: then it shadows the group, and the choice of that group is carried to the first
option.
-/

namespace AccessLedger

/-- The option for every group, then options of groups with distinct labels. -/
def Offers (anyLabel : String) (options : List GroupOption) (groups : List PermissionGroup) :
    Prop :=
  options = .any anyLabel :: groups.map (fun g => .group g.name g.label) ∧
    (groups.map (·.label)).Nodup

namespace GroupHints

variable {options : List GroupOption} {hints hints' : GroupHints} {label : String}

theorem choose_congr (h : hints.position options = hints'.position options) :
    hints.choose options = hints'.choose options := by
  rw [choose, choose, h]

theorem position_of_current (hcurrent : hints.current = some label) :
    hints.position options = (positionOfLabel options label).getD 0 := by
  rw [position, hcurrent]

/-- Without a target the saved label decides, and the saved position does not count. -/
theorem position_of_savedLabel (hcurrent : hints.current = none) (htarget : hints.target = none)
    (hlabel : hints.savedLabel = some label) :
    hints.position options = (positionOfLabel options label).getD 0 := by
  simp only [position, hcurrent, htarget, hlabel, Option.bind_none]

end GroupHints

theorem distinctByLabel_eq_distinctOn (seen : List String) (groups : List PermissionGroup) :
    distinctByLabel seen groups = distinctOn (·.label) seen groups := by
  induction groups generalizing seen with
  | nil => rfl
  | cons g gs ih =>
      simp only [distinctByLabel, distinctOn, List.contains_eq_mem, decide_eq_true_eq, ih]

/-- The groups that the options stand for, in their order. -/
def offeredGroups (s : Snapshot) (r : Rules) (collation : Collation) : List PermissionGroup :=
  distinctOn (·.label) []
    (((s.platformGroups r).map (·.1)).mergeSort fun x y => collation x.label y.label != .gt)

theorem offers_groupOptions (s : Snapshot) (r : Rules) (l : Labels) (collation : Collation) :
    Offers l.anyGroup (groupOptions s r l collation) (offeredGroups s r collation) := by
  refine ⟨?_, nodup_map_distinctOn _ _ _⟩
  rw [groupOptions, distinctByLabel_eq_distinctOn]
  rfl

/-- Whatever the collation, the labels on offer are those of the groups of the platform. -/
theorem mem_labels_offeredGroups_iff (s : Snapshot) (r : Rules) (collation : Collation)
    (label : String) :
    label ∈ (offeredGroups s r collation).map (·.label) ↔
      ∃ g ∈ (s.platformGroups r).map (·.1), g.label = label := by
  rw [offeredGroups, mem_map_distinctOn_iff, List.mem_map]
  simp only [List.mem_mergeSort, List.not_mem_nil, not_false_eq_true, and_true]

section Offered

variable {anyLabel : String} {options : List GroupOption} {groups : List PermissionGroup}

theorem Offers.getElem?_zero (h : Offers anyLabel options groups) :
    options[0]? = some (.any anyLabel) := by
  rw [h.1]
  rfl

theorem Offers.label_succ (h : Offers anyLabel options groups) (i : Nat) :
    options[i + 1]?.map (·.label) = (groups.map (·.label))[i]? := by
  rw [h.1, List.getElem?_cons_succ, List.getElem?_map, List.getElem?_map, Option.map_map]
  rfl

theorem Offers.groupLabel_succ (h : Offers anyLabel options groups) (i : Nat) :
    options[i + 1]?.bind (·.groupLabel?) = (groups.map (·.label))[i]? := by
  rw [h.1, List.getElem?_cons_succ, List.getElem?_map, List.getElem?_map]
  cases groups[i]? with
  | none | some _ => rfl

/-- Only the first option admits every group; any other admits its label. -/
theorem Offers.groupLabel_eq (h : Offers anyLabel options groups) {position : Nat} {label : String}
    (hlabel : options[position]?.map (·.label) = some label) :
    options[position]?.bind (·.groupLabel?) = if position = 0 then none else some label := by
  cases position with
  | zero =>
      rw [h.getElem?_zero]
      rfl
  | succ i =>
      rw [h.groupLabel_succ, ← h.label_succ, hlabel, if_neg (Nat.succ_ne_zero i)]

theorem Offers.length_eq (h : Offers anyLabel options groups) :
    options.length = (groups.map (·.label)).length + 1 := by
  rw [h.1, List.length_cons, List.length_map, List.length_map]

/-- A label is found again where it stands, unless it is the label of the first option too. -/
theorem Offers.positionOfLabel_eq (h : Offers anyLabel options groups) {position : Nat}
    {label : String} (hlabel : options[position]?.map (·.label) = some label) :
    GroupHints.positionOfLabel options label = some (if label = anyLabel then 0 else position) := by
  have hfind : ∀ i, options[i]?.map (·.label) = some label →
      (∀ j < i, options[j]?.map (·.label) ≠ some label) →
      GroupHints.positionOfLabel options label = some i := by
    intro i hi hbefore
    obtain ⟨option, hget, rfl⟩ := Option.map_eq_some_iff.mp hi
    obtain ⟨hlt, rfl⟩ := List.getElem?_eq_some_iff.mp hget
    rw [GroupHints.positionOfLabel, List.findIdx?_eq_some_iff_getElem]
    refine ⟨hlt, beq_self_eq_true _, ?_⟩
    intro j hj
    have hne := hbefore j hj
    rw [List.getElem?_eq_getElem (Nat.lt_trans hj hlt)] at hne
    simpa using hne
  by_cases hany : label = anyLabel
  · rw [if_pos hany]
    apply hfind 0
    · rw [h.getElem?_zero, hany]
      rfl
    · intro j hj
      exact absurd hj (Nat.not_lt_zero j)
  · rw [if_neg hany]
    apply hfind position hlabel
    intro j hj hj'
    cases position with
    | zero => exact absurd hj (Nat.not_lt_zero j)
    | succ i =>
        cases j with
        | zero =>
            rw [h.getElem?_zero] at hj'
            exact hany (Option.some.inj hj').symm
        | succ k =>
            rw [h.label_succ] at hlabel hj'
            have hlt : k < (groups.map (·.label)).length := (List.getElem?_eq_some_iff.mp hj').1
            have hki : k = i := (List.getElem?_inj hlt h.2).mp (hj'.trans hlabel.symm)
            omega

theorem Offers.position_lt (h : Offers anyLabel options groups) (hints : GroupHints) :
    hints.position options < options.length := by
  have hpos : 0 < options.length := by
    rw [h.1]
    exact Nat.zero_lt_succ _
  have hfound : ∀ p : GroupOption → Bool, (options.findIdx? p).getD 0 < options.length := by
    intro p
    cases hfind : options.findIdx? p with
    | none => exact hpos
    | some i => exact (List.findIdx?_eq_some_iff_getElem.mp hfind).1
  rw [GroupHints.position]
  split
  · exact hfound _
  · split
    · next i htarget =>
      obtain ⟨name, _, hfind⟩ := Option.bind_eq_some_iff.mp htarget
      exact (List.findIdx?_eq_some_iff_getElem.mp hfind).1
    · split
      · exact hfound _
      · split
        · assumption
        · exact hpos
      · exact hpos

theorem Offers.label_choose (h : Offers anyLabel options groups) (hints : GroupHints) :
    options[(hints.choose options).position]?.map (·.label) =
      some (hints.choose options).label := by
  have hget := List.getElem?_eq_getElem (h.position_lt hints)
  simp only [GroupHints.choose, hget, Option.map_some, Option.getD_some]

/-- A chosen group with the label of the first option, to which that label leads. -/
def ChosenGroup.Shadowed (anyLabel : String) (chosen : ChosenGroup) : Prop :=
  chosen.position ≠ 0 ∧ chosen.label = anyLabel

/--
A choice made among these options follows its label, which may be the label of the first option.
-/
theorem Offers.choose_of_current (h : Offers anyLabel options groups) {chosen : ChosenGroup}
    (hchosen : options[chosen.position]?.map (·.label) = some chosen.label) {hints : GroupHints}
    (hcurrent : hints.current = some chosen.label) :
    hints.choose options = if chosen.label = anyLabel then ⟨0, anyLabel⟩ else chosen := by
  have hposition : hints.position options =
      if chosen.label = anyLabel then 0 else chosen.position := by
    simp only [GroupHints.position, hcurrent, h.positionOfLabel_eq hchosen, Option.getD_some]
  rw [GroupHints.choose, hposition]
  split
  · rw [h.getElem?_zero]
    rfl
  · rw [hchosen]
    rfl

/-- A label that is on offer leads to the first place where it stands. -/
theorem Offers.choose_of_mem (h : Offers anyLabel options groups) {hints : GroupHints}
    {label : String}
    (hposition : hints.position options = (GroupHints.positionOfLabel options label).getD 0)
    (hmem : label ∈ options.map (·.label)) :
    hints.choose options = ⟨(options.map (·.label)).idxOf label, label⟩ := by
  let chosen : ChosenGroup := ⟨(options.map (·.label)).idxOf label, label⟩
  have hchosen : options[chosen.position]?.map (·.label) = some chosen.label := by
    rw [← List.getElem?_map]
    exact List.getElem?_idxOf hmem
  let carried : GroupHints := { current := some label }
  have hcarried : hints.choose options = carried.choose options :=
    GroupHints.choose_congr (hposition.trans (GroupHints.position_of_current rfl).symm)
  rw [hcarried, h.choose_of_current hchosen rfl]
  split
  · next hany =>
    have hfirst : (options.map (·.label)).idxOf label = 0 := by
      rw [h.1, List.map_cons, show label = anyLabel from hany]
      exact List.idxOf_cons_self
    rw [hfirst, show label = anyLabel from hany]
  · rfl

theorem Offers.choose_of_position_zero (h : Offers anyLabel options groups) {hints : GroupHints}
    (hposition : hints.position options = 0) : hints.choose options = ⟨0, anyLabel⟩ := by
  rw [GroupHints.choose, hposition, h.getElem?_zero]
  rfl

/-- Any other label leads to the first option. -/
theorem Offers.choose_of_not_mem (h : Offers anyLabel options groups) {hints : GroupHints}
    {label : String}
    (hposition : hints.position options = (GroupHints.positionOfLabel options label).getD 0)
    (hmem : label ∉ options.map (·.label)) : hints.choose options = ⟨0, anyLabel⟩ := by
  have hnone : GroupHints.positionOfLabel options label = none := by
    rw [GroupHints.positionOfLabel, List.findIdx?_eq_none_iff]
    intro option hoption
    rw [beq_eq_false_iff_ne]
    intro hlabel
    exact hmem (List.mem_map.mpr ⟨option, hoption, hlabel⟩)
  apply h.choose_of_position_zero
  rw [hposition, hnone, Option.getD_none]

/-- Only a shadowed group is not carried to itself. -/
theorem Offers.choose_eq_iff (h : Offers anyLabel options groups) {chosen : ChosenGroup}
    (hchosen : options[chosen.position]?.map (·.label) = some chosen.label) {hints : GroupHints}
    (hcurrent : hints.current = some chosen.label) :
    hints.choose options = chosen ↔ ¬ chosen.Shadowed anyLabel := by
  rw [h.choose_of_current hchosen hcurrent]
  split
  · next hany =>
    constructor
    · intro heq hshadowed
      exact hshadowed.1 (congrArg ChosenGroup.position heq).symm
    · intro hshadowed
      have hzero : chosen.position = 0 := by
        by_contra hne
        exact hshadowed ⟨hne, hany⟩
      rw [← hzero, ← hany]
  · next hany =>
    exact iff_of_true rfl fun hshadowed => hany hshadowed.2

/-- Hints lead to a shadowed group only where a group has the label of the first option. -/
theorem Offers.not_shadowed (h : Offers anyLabel options groups)
    (hfree : anyLabel ∉ groups.map (·.label)) {chosen : ChosenGroup}
    (hchosen : options[chosen.position]?.map (·.label) = some chosen.label) :
    ¬ chosen.Shadowed anyLabel := by
  intro h
  obtain ⟨hne, hany⟩ := h
  obtain ⟨i, hi⟩ := Nat.exists_eq_succ_of_ne_zero hne
  rw [hi, h.label_succ, hany] at hchosen
  exact hfree (List.mem_of_getElem? hchosen)

end Offered

/--
Every choice is carried to itself just in case no group of the platform has the label of the first
option.
-/
theorem choices_carried_iff (s : Snapshot) (r : Rules) (l : Labels) (collation : Collation) :
    (∀ hints again : GroupHints,
        again.current = some (hints.choose (groupOptions s r l collation)).label →
        again.choose (groupOptions s r l collation) = hints.choose (groupOptions s r l collation)) ↔
      ∀ g ∈ (s.platformGroups r).map (·.1), g.label ≠ l.anyGroup := by
  have hoffers := offers_groupOptions s r l collation
  constructor
  · intro hcarried g hg hlabel
    have hmem : l.anyGroup ∈ (offeredGroups s r collation).map (·.label) :=
      (mem_labels_offeredGroups_iff s r collation l.anyGroup).mpr ⟨g, hg, hlabel⟩
    obtain ⟨i, hi⟩ := List.getElem?_of_mem hmem
    -- A saved position leads to the group, whatever its label.
    have hget : (groupOptions s r l collation)[i + 1]?.map (·.label) = some l.anyGroup := by
      rw [hoffers.label_succ, hi]
    have hlt : i + 1 < (groupOptions s r l collation).length := by
      obtain ⟨option, hoption, _⟩ := Option.map_eq_some_iff.mp hget
      exact (List.getElem?_eq_some_iff.mp hoption).1
    have hchoose : ({ savedPosition := some (i + 1) } : GroupHints).choose
        (groupOptions s r l collation) = ⟨i + 1, l.anyGroup⟩ := by
      simp only [GroupHints.choose, GroupHints.position, Option.bind_none, if_pos hlt, hget,
        Option.getD_some]
    have hagain := hcarried { savedPosition := some (i + 1) } { current := some l.anyGroup }
      (by rw [hchoose])
    rw [hchoose, hoffers.choose_eq_iff hget rfl] at hagain
    exact hagain ⟨Nat.succ_ne_zero i, rfl⟩
  · intro hfree hints again hcurrent
    rw [hoffers.choose_eq_iff (hoffers.label_choose hints) hcurrent]
    apply hoffers.not_shadowed _ (hoffers.label_choose hints)
    rw [mem_labels_offeredGroups_iff]
    intro h
    obtain ⟨g, hg, hlabel⟩ := h
    exact hfree g hg hlabel

end AccessLedger
