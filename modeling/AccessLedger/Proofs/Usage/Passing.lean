import AccessLedger.Proofs.Recency
import AccessLedger.Usage.Pass

/-!
Which accesses of a snapshot pass the filters, said of the snapshot itself and not of the walk
through it, and the agreement of the two: an observation is listed exactly when its access passes.
-/

namespace AccessLedger

/--
An access of an app in a group that nothing speaks against but, perhaps, that system apps are
hidden.
-/
structure Eligible (s : Snapshot) (c : Criteria) (group : PermissionGroup) (app : App)
    (access : Access) : Prop where
  declared : group ∈ s.groups ∧ group.declaredBy = c.rules.platform
  granted : ∃ grant ∈ group.grants,
    grant.shown = true ∧ s.app? grant.appKey = some app ∧ access ∈ grant.accesses
  accessed : 0 < access.time
  wanted : ∀ label, c.selection.groupLabel = some label → group.label = label
  listable : group.label ∉ c.rules.excludedLabels
  recent : (c.now - access.time).tdiv 1000 ≤ c.selection.window.threshold

structure Passing (s : Snapshot) (c : Criteria) (group : PermissionGroup) (app : App)
    (access : Access) : Prop extends Eligible s c group app access where
  visible : s.isSystemApp app = false ∨ c.selection.showSystem = true

namespace Observation

/-- The app that an observation is listed for. -/
def appKey (o : Observation) : String :=
  (o.app.map (·.key)).getD ""

end Observation

theorem mem_platformGroups_iff (s : Snapshot) (r : Rules) (group : PermissionGroup)
    (position : Nat) :
    (group, position) ∈ s.platformGroups r ↔
      s.groups[position]? = some group ∧ group.declaredBy = r.platform := by
  simp only [Snapshot.platformGroups, Snapshot.groupsOf, List.mem_filter,
    List.mem_zipIdx_iff_getElem?, beq_iff_eq]

theorem mem_observations_iff (s : Snapshot) (r : Rules) (o : Observation) :
    o ∈ s.observations r ↔
      (s.groups[o.groupPosition]? = some o.group ∧ o.group.declaredBy = r.platform) ∧
        ∃ grant ∈ o.group.grants, grant.shown = true ∧
          s.app? grant.appKey = o.app ∧ o.access ∈ grant.accesses := by
  simp only [Snapshot.observations, Snapshot.shownGrants, List.mem_flatMap, List.mem_map,
    List.mem_filter, Prod.exists]
  constructor
  · intro h
    obtain ⟨position, group, grant, ⟨g, i, hg, grant', ⟨hgrant, hshown⟩, hpair⟩, access, ha, rfl⟩ :=
      h
    simp only [Prod.mk.injEq] at hpair
    obtain ⟨rfl, rfl, rfl⟩ := hpair
    exact ⟨(mem_platformGroups_iff s r _ _).mp hg, grant', hgrant, hshown, rfl, ha⟩
  · intro h
    obtain ⟨hg, grant, hgrant, hshown, happ, ha⟩ := h
    refine ⟨o.groupPosition, o.group, grant, ⟨o.group, o.groupPosition,
      (mem_platformGroups_iff s r _ _).mpr hg, grant, ⟨hgrant, hshown⟩, rfl⟩, o.access, ha, ?_⟩
    rw [happ]

/-- The walk tells groups apart by position, and a position has one group. -/
theorem group_eq_of_groupPosition_eq {s : Snapshot} {r : Rules} {o o' : Observation}
    (h : o ∈ s.observations r) (h' : o' ∈ s.observations r)
    (hpos : o.groupPosition = o'.groupPosition) : o.group = o'.group := by
  have hg := ((mem_observations_iff s r o).mp h).1.1
  have hg' := ((mem_observations_iff s r o').mp h').1.1
  rw [hpos, hg'] at hg
  exact (Option.some.inj hg).symm

theorem admitsGroup_iff (selection : Selection) (label : String) :
    selection.admitsGroup label = true ↔
      ∀ wanted, selection.groupLabel = some wanted → label = wanted := by
  simp only [Selection.admitsGroup]
  cases selection.groupLabel with
  | none => simp
  | some wanted =>
      simp only [beq_iff_eq, Option.some.injEq, forall_eq']
      exact eq_comm

theorem excludes_eq_false_iff (r : Rules) (label : String) :
    r.excludes label = false ↔ label ∉ r.excludedLabels := by
  simp only [Rules.excludes, List.contains_eq_mem, decide_eq_false_iff_not]

/-- No objection is raised when each of the five tests is passed. -/
theorem objection?_eq_none_iff (c : Criteria) (group : PermissionGroup) (access : Access) :
    c.objection? group access = none ↔
      0 < access.time ∧ c.selection.admitsGroup group.label = true ∧
        c.rules.excludes group.label = false ∧
        isRecent c.now access.time c.selection.window.threshold = true := by
  rw [Criteria.objection?]
  split
  · next h => simp only [reduceCtorEq, h, Int.lt_irrefl, false_and]
  · next hzero =>
    split
    · next h => simp only [reduceCtorEq, Int.not_lt.mpr (Int.le_of_lt h), false_and]
    · next hneg =>
      have htime : 0 < access.time := by omega
      cases c.selection.admitsGroup group.label <;> cases c.rules.excludes group.label <;>
        cases isRecent c.now access.time c.selection.window.threshold <;> simp [htime]

/--
The walk meets exactly the accesses of the shown grants for known apps in the groups of the
platform.
-/
theorem exists_unobjected_iff_eligible {s : Snapshot} {c : Criteria} (hnow : c.now < int64Limit)
    (group : PermissionGroup) (app : App) (access : Access) :
    (∃ o ∈ s.observations c.rules, o.group = group ∧ o.app = some app ∧ o.access = access ∧
        c.objection? o.group o.access = none) ↔ Eligible s c group app access := by
  constructor
  · intro h
    obtain ⟨o, ho, rfl, happ, rfl, hobjection⟩ := h
    obtain ⟨⟨hget, hplatform⟩, grant, hgrant, hshown, hkey, haccess⟩ :=
      (mem_observations_iff s c.rules o).mp ho
    obtain ⟨htime, hadmits, hexcludes, hrecent⟩ :=
      (objection?_eq_none_iff c o.group o.access).mp hobjection
    exact {
      declared := ⟨List.mem_of_getElem? hget, hplatform⟩
      granted := ⟨grant, hgrant, hshown, hkey.trans happ, haccess⟩
      accessed := htime
      wanted := (admitsGroup_iff c.selection o.group.label).mp hadmits
      listable := (excludes_eq_false_iff c.rules o.group.label).mp hexcludes
      recent := (isRecent_iff_tdiv_le hnow (Int.le_of_lt htime)).mp hrecent }
  · intro h
    obtain ⟨position, hget⟩ := List.mem_iff_getElem?.mp h.declared.1
    obtain ⟨grant, hgrant, hshown, hkey, haccess⟩ := h.granted
    refine ⟨⟨position, group, some app, access⟩, ?_, rfl, rfl, rfl, ?_⟩
    · exact (mem_observations_iff s c.rules _).mpr
        ⟨⟨hget, h.declared.2⟩, grant, hgrant, hshown, hkey, haccess⟩
    · exact (objection?_eq_none_iff c group access).mpr
        ⟨h.accessed, (admitsGroup_iff c.selection group.label).mpr h.wanted,
          (excludes_eq_false_iff c.rules group.label).mpr h.listable,
          (isRecent_iff_tdiv_le hnow (Int.le_of_lt h.accessed)).mpr h.recent⟩

def Verdict.isListed : Verdict → Bool
  | listed .. => true
  | skipped _ => false

/-- Whether an access shows that a system app is involved, listed or not. -/
def Verdict.involvesSystem : Verdict → Bool
  | listed _ isSystem => isSystem
  | skipped reason => reason == .systemHidden

/-- Hiding is decided outside of `Criteria.objection?`. -/
theorem objection?_ne_systemHidden (c : Criteria) (group : PermissionGroup) (access : Access) :
    c.objection? group access ≠ some .systemHidden := by
  rw [Criteria.objection?]
  repeat' split
  all_goals simp

theorem isListed_verdict_iff (s : Snapshot) (c : Criteria) (o : Observation) :
    (s.verdict c o).isListed = true ↔
      ∃ app, o.app = some app ∧ c.objection? o.group o.access = none ∧
        (s.isSystemApp app = false ∨ c.selection.showSystem = true) := by
  rw [Snapshot.verdict]
  cases o.app with
  | none => simp [Verdict.isListed]
  | some app =>
      cases c.objection? o.group o.access with
      | some reason => simp [Verdict.isListed]
      | none =>
          cases hsystem : s.isSystemApp app <;> cases c.selection.showSystem <;>
            simp [Verdict.isListed, hsystem]

theorem involvesSystem_verdict_iff (s : Snapshot) (c : Criteria) (o : Observation) :
    (s.verdict c o).involvesSystem = true ↔
      ∃ app, o.app = some app ∧ c.objection? o.group o.access = none ∧
        s.isSystemApp app = true := by
  rw [Snapshot.verdict]
  cases o.app with
  | none => simp [Verdict.involvesSystem]
  | some app =>
      cases hobjection : c.objection? o.group o.access with
      | some reason =>
          have hne : reason ≠ .systemHidden := by
            intro heq
            subst heq
            exact objection?_ne_systemHidden c o.group o.access hobjection
          simp [Verdict.involvesSystem, hne]
      | none =>
          cases hsystem : s.isSystemApp app <;> cases c.selection.showSystem <;>
            simp [Verdict.involvesSystem, hsystem]

/-- The observations that are listed, in the order of the walk. -/
def Snapshot.listed (s : Snapshot) (c : Criteria) : List Observation :=
  (s.observations c.rules).filter fun o => (s.verdict c o).isListed

theorem mem_listed_iff (s : Snapshot) (c : Criteria) (o : Observation) :
    o ∈ s.listed c ↔ o ∈ s.observations c.rules ∧
      ∃ app, o.app = some app ∧ c.objection? o.group o.access = none ∧
        (s.isSystemApp app = false ∨ c.selection.showSystem = true) := by
  rw [Snapshot.listed, List.mem_filter, isListed_verdict_iff]

/-- Criteria that object to more list what the others list, less what they object to besides. -/
theorem listed_eq_filter_of_objection {s : Snapshot} {c c' : Criteria} {p : Observation → Bool}
    (hrules : c.rules = c'.rules) (hsystem : c.selection.showSystem = c'.selection.showSystem)
    (h : ∀ o : Observation, c.objection? o.group o.access = none ↔
      c'.objection? o.group o.access = none ∧ p o = true) :
    s.listed c = (s.listed c').filter p := by
  rw [Snapshot.listed, Snapshot.listed, List.filter_filter, hrules]
  apply List.filter_congr
  intro o _
  rw [Bool.eq_iff_iff, Bool.and_eq_true, isListed_verdict_iff, isListed_verdict_iff, hsystem]
  simp only [h]
  constructor
  · intro hlisted
    obtain ⟨app, happ, ⟨hobjection, hp⟩, hvisible⟩ := hlisted
    exact ⟨hp, app, happ, hobjection, hvisible⟩
  · intro hlisted
    obtain ⟨hp, app, happ, hobjection, hvisible⟩ := hlisted
    exact ⟨app, happ, ⟨hobjection, hp⟩, hvisible⟩

theorem exists_listed_iff_passing {s : Snapshot} {c : Criteria} (hnow : c.now < int64Limit)
    (group : PermissionGroup) (app : App) (access : Access) :
    (∃ o ∈ s.listed c, o.group = group ∧ o.app = some app ∧ o.access = access) ↔
      Passing s c group app access := by
  constructor
  · intro h
    obtain ⟨o, ho, hgroup, happ, haccess⟩ := h
    obtain ⟨hmem, app', happ', hobjection, hvisible⟩ := (mem_listed_iff s c o).mp ho
    obtain rfl : app' = app := Option.some.inj (happ'.symm.trans happ)
    exact ⟨(exists_unobjected_iff_eligible hnow group app' access).mp
      ⟨o, hmem, hgroup, happ, haccess, hobjection⟩, hvisible⟩
  · intro h
    obtain ⟨o, ho, hgroup, happ, haccess, hobjection⟩ :=
      (exists_unobjected_iff_eligible hnow group app access).mpr h.toEligible
    exact ⟨o, (mem_listed_iff s c o).mpr ⟨ho, app, happ, hobjection, h.visible⟩,
      hgroup, happ, haccess⟩

end AccessLedger
