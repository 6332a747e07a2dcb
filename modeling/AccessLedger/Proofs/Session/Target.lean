import AccessLedger.Proofs.Filter.Target
import AccessLedger.Proofs.Session.Chosen

/-!
A session that was started with a target keeps it until the first snapshot with groups. Then the
target decides on the filter, unless the group that it means is not the one that the options have
under its name.
-/

namespace AccessLedger

open Event

/-- A session that has had no group options yet, with its target and its saved choices unused. -/
structure Session.Waiting (target : Option String) (saved : Option SavedSelection) (s : Session) :
    Prop where
  options : s.options.groups = []
  group : s.group = none
  target : s.target = target
  saved : s.saved = saved

/-- The last snapshot is viewed under the label of a group. -/
structure Stage.ShowsGroup (o : Outlook) (p : Snapshot) (g : PermissionGroup) (x : Stage) :
    Prop where
  label : x.session.selection.groupLabel = some g.label
  view : x.session.view = some (o.view p x.session.selection x.now)

section Waiting

variable {target : Option String} {saved : Option SavedSelection}

theorem waiting_start (o : Outlook) (target : Option String) (saved : Option SavedSelection) :
    (Session.start o target saved).Waiting target saved :=
  ⟨rfl, rfl, rfl, rfl⟩

theorem Session.Waiting.altered {s : Session} (h : s.Waiting target saved) (o : Outlook)
    {t : Trigger} (ht : ∀ p, t = .snapshot p → p.groups = []) :
    (s.altered o t).Waiting target saved := by
  cases t with
  | snapshot p =>
      rw [Session.altered, ht p rfl]
      exact ⟨h.options, h.group, h.target, h.saved⟩
  | groupOption position =>
      refine ⟨h.options, ?_, h.target, h.saved⟩
      -- Without options there is nothing at the position.
      show s.options.groups[_]?.map _ = none
      rw [h.options]
      rfl
  | timeOption _ | systemApps _ | recompute | detach =>
      exact ⟨h.options, h.group, h.target, h.saved⟩

theorem Session.Waiting.step {s : Session} (h : s.Waiting target saved) (o : Outlook) (now : Int)
    {t : Trigger} (ht : ∀ p, t = .snapshot p → p.groups = []) :
    (s.step o now t).Waiting target saved := by
  refine step_of_altered ?_ h o now (h.altered o ht)
  intro _ _ _ h
  exact ⟨h.options, h.group, h.target, h.saved⟩

theorem Stage.waiting_run (o : Outlook) {x : Stage} (h : x.session.Waiting target saved)
    {es : List Event} (hes : ∀ p, .trigger (.snapshot p) ∈ es → p.groups = []) :
    (x.run o es).session.Waiting target saved := by
  refine run_of_step o ?_ h
  intro t ht s now h
  refine h.step o now ?_
  intro p hp
  exact hes p (hp ▸ ht)

theorem Session.Waiting.groupHints_eq {s : Session} (h : s.Waiting target saved) (o : Outlook)
    (p : Snapshot) :
    s.groupHints o p =
      { target := target.bind (resolveTarget? p o.rules)
        savedPosition := saved.bind (·.groupPosition)
        savedLabel := saved.bind (·.groupLabel) } := by
  rw [Session.groupHints, h.group, h.target, h.saved]

/-- The first snapshot with groups is filtered by what target and saved choices lead to. -/
theorem Session.Waiting.groupLabel_delivered {s : Session} (h : s.Waiting target saved)
    (hattached : s.attached = true) (o : Outlook) (now : Int) {p : Snapshot} (hp : p.groups ≠ []) :
    (s.step o now (.snapshot p)).selection.groupLabel =
      (o.options p).groups[GroupHints.position (o.options p).groups
        { target := target.bind (resolveTarget? p o.rules)
          savedPosition := saved.bind (·.groupPosition)
          savedLabel := saved.bind (·.groupLabel) }]?.bind (·.groupLabel?) := by
  have hsome : p.groups.isEmpty = false := List.isEmpty_eq_false_iff.mpr hp
  rw [Session.step_populated hattached o now hsome, ← h.groupHints_eq o p]
  rfl

end Waiting

/-- A delivered snapshot with groups is viewed whole, as of its delivery. -/
theorem Follows.view_delivered {o : Outlook} {start : Int} {es : List Event} {x : Stage}
    {p : Snapshot} (h : Follows o start (es ++ [.trigger (.snapshot p)]) x)
    (hdetach : .trigger .detach ∉ es) (hp : p.groups ≠ []) :
    x.session.view = some (o.view p x.session.selection x.now) := by
  have hmem : .trigger .detach ∉ es ++ [.trigger (.snapshot p)] := by simpa using hdetach
  have hsome : p.groups.isEmpty = false := List.isEmpty_eq_false_iff.mpr hp
  have hpopulated : (populated (es ++ [.trigger (.snapshot p)])).getLast? = some p := by
    rw [getLast?_populated_concat, if_neg hdetach, snapshot?, Option.filter_some, hsome]
    rfl
  have hoptions : x.session.options = o.options p := by
    rw [h.options, optionsAfter, hpopulated]
  rw [h.view hmem, getLast?_delivered_concat, if_neg hdetach, triggerTimes_append, h.now,
    clockAfter_append, hoptions]
  show (some p).bind (fun p => Option.map _ (_ ++ [clockAfter start es]).getLast?) = _
  rw [List.getLast?_concat]
  rfl

section Delivery

variable {o : Outlook} {p : Snapshot} {target : String} {g : PermissionGroup} {es : List Event}

theorem groups_ne_nil_of_means {r : Rules} (h : p.Means r target g) : p.groups ≠ [] := by
  intro hnil
  have hmem := mem_of_means h
  rw [Snapshot.platformGroups, Snapshot.groupsOf, hnil] at hmem
  cases hmem

/-- After snapshots without groups the target is resolved in the first snapshot that has some. -/
theorem groupLabel_run_target (hmeans : p.Means o.rules target g)
    (hes : ∀ q, .trigger (.snapshot q) ∈ es → q.groups = []) (hdetach : .trigger .detach ∉ es)
    (saved : Option SavedSelection) (start : Int) :
    ((Stage.start o (some target) saved start).run o
        (es ++ [.trigger (.snapshot p)])).session.selection.groupLabel =
      (o.options p).groups[GroupHints.position (o.options p).groups
        { target := some g.name
          savedPosition := saved.bind (·.groupPosition)
          savedLabel := saved.bind (·.groupLabel) }]?.bind (·.groupLabel?) := by
  have hwaiting := Stage.waiting_run o (x := Stage.start o (some target) saved start)
    (waiting_start o (some target) saved) hes
  have hattached := (follows_run o (some target) saved start es).attached.mpr hdetach
  have hdelivered := hwaiting.groupLabel_delivered hattached o
    ((Stage.start o (some target) saved start).run o es).now (groups_ne_nil_of_means hmeans)
  rw [Option.bind_some, resolveTarget?_of_means hmeans] at hdelivered
  rw [Stage.run_concat]
  exact hdelivered

/--
Whatever choices were saved and whatever came before, the target's group is shown, exactly when the
options have that group's label under its name.
-/
theorem target_shown_iff_foundByName (o : Outlook) (p : Snapshot) (target : String)
    (g : PermissionGroup) (hmeans : p.Means o.rules target g) :
    (∀ (saved : Option SavedSelection) (start : Int) (es : List Event),
      (∀ q, .trigger (.snapshot q) ∈ es → q.groups = []) → .trigger .detach ∉ es →
      ((Stage.start o (some target) saved start).run o
        (es ++ [.trigger (.snapshot p)])).ShowsGroup o p g) ↔
    FoundByName (offeredGroups p o.rules o.collation) g := by
  have hoffers : Offers o.labels.anyGroup (o.options p).groups
      (offeredGroups p o.rules o.collation) :=
    offers_groupOptions p o.rules o.labels o.collation
  constructor
  · intro h
    have hlabel := (h none 0 [] (by simp) List.not_mem_nil).label
    rw [groupLabel_run_target hmeans (by simp) List.not_mem_nil] at hlabel
    cases hfind : (offeredGroups p o.rules o.collation).find? (·.name == g.name) with
    | none => exact absurd (hlabel.symm.trans (hoffers.groupLabel_of_missed hfind)) (by simp)
    | some g' =>
        rw [hoffers.groupLabel_of_found rfl rfl hfind] at hlabel
        rw [FoundByName, hfind]
        exact hlabel
  · intro hfound saved start es hes hdetach
    obtain ⟨g', hfind, hlabel⟩ := Option.map_eq_some_iff.mp hfound
    refine ⟨?_, ?_⟩
    · rw [groupLabel_run_target hmeans hes hdetach, hoffers.groupLabel_of_found rfl rfl hfind,
        hlabel]
    · exact (follows_run o (some target) saved start _).view_delivered hdetach
        (groups_ne_nil_of_means hmeans)

end Delivery

/--
Two groups of one label, the first of which stands for both, and a group with a label of its own.
-/
def threeGroups : Snapshot where
  groups := [
    { name := "coarse", label := "Location", declaredBy := "android" },
    { name := "fine", label := "Location", declaredBy := "android", permissions := ["satellite"] },
    { name := "camera", label := "Camera", declaredBy := "android", permissions := ["picture"] }]

/-- A permission is a target too; the saved choice and what happens before do not count. -/
theorem target_shown_iff_foundByName_threeGroups :
    let o : Outlook := ⟨{}, {}, .reversed⟩
    let g := threeGroups.groups[2]
    let saved : SavedSelection := { groupLabel := some "Location" }
    let es : List Event := [.trigger (.snapshot {}), .clock 7, .trigger (.groupOption 1)]
    threeGroups.Means o.rules "picture" g ∧
      FoundByName (offeredGroups threeGroups o.rules o.collation) g ∧
      (∀ q, .trigger (.snapshot q) ∈ es → q.groups = []) ∧ .trigger .detach ∉ es ∧
      ((Stage.start o (some "picture") (some saved) 0).run o
        (es ++ [.trigger (.snapshot threeGroups)])).ShowsGroup o threeGroups g := by
  intro o g saved es
  have hmeans : threeGroups.Means o.rules "picture" g :=
    ⟨threeGroups.groups.take 2, [], rfl, .inr (List.mem_singleton_self _), by
      simp [threeGroups, PermissionGroup.AnswersTo]⟩
  have hfound : FoundByName (offeredGroups threeGroups o.rules o.collation) g :=
    foundByName_of_apart o.collation (mem_of_means hmeans) (by decide)
  have hes : ∀ q, .trigger (.snapshot q) ∈ es → q.groups = [] := by
    intro q hq
    simp only [es, List.mem_cons, Event.trigger.injEq, Trigger.snapshot.injEq, reduceCtorEq,
      List.not_mem_nil, or_false] at hq
    rw [hq]
  have hdetach : .trigger .detach ∉ es := by decide
  exact ⟨hmeans, hfound, hes, hdetach,
    (target_shown_iff_foundByName o threeGroups "picture" g hmeans).mpr hfound (some saved) 0 es hes
      hdetach⟩

/-- A group without an option of its own is resolved, but its target is dropped. -/
theorem not_target_shown_threeGroups :
    let o : Outlook := ⟨{}, {}, .reversed⟩
    let g := threeGroups.groups[1]
    let x := (Stage.start o (some "satellite") none 0).run o [.trigger (.snapshot threeGroups)]
    threeGroups.Means o.rules "satellite" g ∧ x.session.selection.groupLabel = none ∧
      ¬ x.ShowsGroup o threeGroups g := by
  intro o g x
  have hmeans : threeGroups.Means o.rules "satellite" g :=
    ⟨threeGroups.groups.take 1, threeGroups.groups.drop 2, rfl, .inr (List.mem_singleton_self _), by
      simp [threeGroups, PermissionGroup.AnswersTo]⟩
  have hoffered : offeredGroups threeGroups o.rules o.collation =
      [threeGroups.groups[0], threeGroups.groups[2]] := by
    rw [offeredGroups, List.mergeSort_of_pairwise (by decide)]
    decide
  have hmissed :
      (offeredGroups threeGroups o.rules o.collation).find? (·.name == g.name) = none := by
    rw [hoffered]
    decide
  have hlabel : x.session.selection.groupLabel = none := by
    have hoffers := offers_groupOptions threeGroups o.rules o.labels o.collation
    have hes : ∀ q, .trigger (.snapshot q) ∈ ([] : List Event) → q.groups = [] := by simp
    have hrun := groupLabel_run_target hmeans hes List.not_mem_nil none 0
    exact hrun.trans (hoffers.groupLabel_of_missed hmissed)
  refine ⟨hmeans, hlabel, ?_⟩
  intro h
  rw [h.label] at hlabel
  cases hlabel

end AccessLedger
