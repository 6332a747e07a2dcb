import AccessLedger.Proofs.Usage.Skips
import AccessLedger.Proofs.Usage.Unplaced

/-!
What a pass counts. An access goes through seven checks, in order; the first one that it fails is
the reason for which it is skipped, and an access that fails none is listed. So each access of a
shown grant of the platform is either listed or counted, and once only.
-/

namespace AccessLedger

/-- A test of an observation, with the reason for skipping what fails it. -/
structure Check where
  reason : Skip
  fails : Observation → Bool

def Skip.all : List Skip :=
  [neverAccessed, groupFiltered, excludedLabel, outsideWindow, systemHidden, malformed]

namespace Snapshot

/--
The checks in the order in which they are made. Unknown apps and times before 1970 share a reason.
-/
def checks (s : Snapshot) (c : Criteria) : List Check := [
  ⟨.malformed, fun o => o.app.isNone⟩,
  ⟨.neverAccessed, fun o => o.access.time == 0⟩,
  ⟨.malformed, fun o => o.access.time < 0⟩,
  ⟨.groupFiltered, fun o => c.selection.groupLabel.any (· != o.group.label)⟩,
  ⟨.excludedLabel, fun o => c.rules.excludedLabels.contains o.group.label⟩,
  ⟨.outsideWindow, fun o => !isRecent c.now o.access.time c.selection.window.threshold⟩,
  ⟨.systemHidden, fun o => o.app.any s.isSystemApp && !c.selection.showSystem⟩]

/-- The reason of the first check that an observation fails. -/
def failing? (s : Snapshot) (c : Criteria) (o : Observation) : Option Skip :=
  ((s.checks c).find? (·.fails o)).map (·.reason)

/-- All accesses in the shown grants of the groups of the platform. -/
def shownAccesses (s : Snapshot) (r : Rules) : List Access :=
  (s.groups.filter fun g => g.declaredBy == r.platform).flatMap fun group =>
    (group.grants.filter (·.shown)).flatMap (·.accesses)

end Snapshot

def Verdict.reason? : Verdict → Option Skip
  | skipped reason => some reason
  | listed .. => none

section Verdicts

variable (s : Snapshot) (c : Criteria) (o : Observation)

theorem admitsGroup_eq (selection : Selection) (label : String) :
    (!selection.admitsGroup label) = selection.groupLabel.any (· != label) := by
  rw [Selection.admitsGroup]
  cases selection.groupLabel <;> rfl

theorem map_find?_cons (check : Check) (checks : List Check) :
    ((check :: checks).find? (·.fails o)).map (·.reason) =
      if check.fails o then some check.reason
      else (checks.find? (·.fails o)).map (·.reason) := by
  rw [List.find?_cons]
  cases check.fails o <;> rfl

/-- After the objections, whether the app is a hidden one decides. -/
theorem reason?_verdict_of_app {o : Observation} {app : App} (happ : o.app = some app) :
    (s.verdict c o).reason? =
      (c.objection? o.group o.access).or
        (if s.isSystemApp app && !c.selection.showSystem then some .systemHidden else none) := by
  rw [Snapshot.verdict, happ]
  cases c.objection? o.group o.access with
  | some reason => rfl
  | none =>
      dsimp only
      split <;> rfl

/-- What a verdict skips for is the first check that is failed. -/
theorem reason?_verdict : (s.verdict c o).reason? = s.failing? c o := by
  rw [Snapshot.failing?, Snapshot.checks]
  cases happ : o.app with
  | none => simp [Snapshot.verdict, Verdict.reason?, happ]
  | some app =>
      rw [reason?_verdict_of_app s c happ, Criteria.objection?, admitsGroup_eq, Rules.excludes]
      simp only [map_find?_cons, List.find?_nil, Option.map_none, happ, Option.isNone_some,
        Bool.false_eq_true, if_false, beq_iff_eq, decide_eq_true_eq, Option.any_some]
      split_ifs <;> rfl

theorem isListed_eq_isNone (v : Verdict) : v.isListed = v.reason?.isNone := by
  cases v <;> rfl

theorem eq_skipped_iff (v : Verdict) (reason : Skip) :
    v = .skipped reason ↔ v.reason? = some reason := by
  cases v <;> simp [Verdict.reason?]

end Verdicts

theorem SkipCounts.total_eq_sum (n : SkipCounts) : n.total = (Skip.all.map n.number).sum := by
  simp only [Skip.all, List.map_cons, List.map_nil, List.sum_cons, List.sum_nil, SkipCounts.number,
    SkipCounts.total]
  omega

/-- Whatever a pass meets is listed or counted under the first check that it fails. -/
structure Accounts (s : Snapshot) (c : Criteria) (u : Usage) : Prop where
  /-- The walk meets each access of a shown grant once. -/
  walked : (s.observations c.rules).map (·.access) = s.shownAccesses c.rules
  total : u.accessCount + u.skipped.total = (s.shownAccesses c.rules).length
  listed : u.accessCount = (s.observations c.rules).countP fun o => s.failing? c o = none
  counted : ∀ reason, u.skipped.number reason =
    (s.observations c.rules).countP fun o => s.failing? c o = some reason

section Passes

variable (s : Snapshot) (c : Criteria)

theorem map_access_observations (r : Rules) :
    (s.observations r).map (·.access) = s.shownAccesses r := by
  rw [Snapshot.shownAccesses, ← declared_eq_filter, Snapshot.declared, observations_eq_flatMap,
    List.map_flatMap, List.flatMap_map]
  simp only [Snapshot.observationsIn, List.map_flatMap, List.map_map, Function.comp_def,
    List.map_id']

theorem accessCount_eq_countP :
    (s.usage c).accessCount = (s.observations c.rules).countP fun o => s.failing? c o = none := by
  rw [accessCount_usage, Snapshot.listed, ← List.countP_eq_length_filter]
  congr 1
  funext o
  rw [isListed_eq_isNone, reason?_verdict, Bool.eq_iff_iff, Option.isNone_iff_eq_none,
    decide_eq_true_eq]

theorem number_eq_countP (reason : Skip) :
    (s.usage c).skipped.number reason =
      (s.observations c.rules).countP fun o => s.failing? c o = some reason := by
  rw [usage_skipped]
  congr 1
  funext o
  rw [decide_eq_decide, eq_skipped_iff, reason?_verdict]

/-- The outcomes are distinct and there are no others, so they share out the walk. -/
theorem accessCount_add_total :
    (s.usage c).accessCount + (s.usage c).skipped.total = (s.shownAccesses c.rules).length := by
  have hcover : ∀ o ∈ s.observations c.rules, s.failing? c o ∈ none :: Skip.all.map some := by
    intro o _
    cases s.failing? c o with
    | none => exact List.mem_cons_self ..
    | some reason => cases reason <;> decide
  have hnumber : (s.usage c).skipped.number = fun reason =>
      ((s.observations c.rules).filter fun o => s.failing? c o = some reason).length := by
    funext reason
    rw [number_eq_countP, List.countP_eq_length_filter]
  rw [← map_access_observations, List.length_map, ← sum_length_filter_of_cover _ (by decide) hcover,
    List.map_cons, List.sum_cons, List.map_map, accessCount_eq_countP, List.countP_eq_length_filter,
    SkipCounts.total_eq_sum, hnumber]
  rfl

end Passes

theorem accounts_usage (s : Snapshot) (c : Criteria) : Accounts s c (s.usage c) where
  walked := map_access_observations s c.rules
  total := accessCount_add_total s c
  listed := accessCount_eq_countP s c
  counted := number_eq_countP s c

end AccessLedger
