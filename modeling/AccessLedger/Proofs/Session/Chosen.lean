import AccessLedger.Proofs.Filter.Choice
import AccessLedger.Proofs.Session.UpToDate

/-!
The chosen group of a session is always one of its options. When a snapshot comes in that gave these
options already, the choice follows its label to the same place, unless the group is shadowed.
-/

namespace AccessLedger

open Event

/--
A session has a chosen group as soon as there are options, and it stands where the session says.
-/
structure Session.Placed (s : Session) : Prop where
  none_iff : s.group = none ↔ s.options.groups = []
  label : ∀ chosen, s.group = some chosen →
    s.options.groups[chosen.position]?.map (·.label) = some chosen.label

namespace Session

theorem group_chooseGroup {s : Session} {position : Nat} {option : GroupOption}
    (h : s.options.groups[position]? = some option) :
    (s.chooseGroup position).group = some ⟨position, option.label⟩ := by
  have hlt : position < s.options.groups.length := (List.getElem?_eq_some_iff.mp h).1
  simp only [chooseGroup, if_pos hlt, h, Option.map_some]

theorem group_groupOption {s : Session} (hattached : s.attached = true) {position : Nat}
    {option : GroupOption} (h : s.options.groups[position]? = some option) (o : Outlook)
    (now : Int) :
    (s.step o now (.groupOption position)).group = some ⟨position, option.label⟩ := by
  have hne : Trigger.groupOption position ≠ .detach := by
    intro heq
    cases heq
  rw [step_eq_refresh hattached o now hne, refresh_eq]
  exact group_chooseGroup h

/-- The group label in force is that of the option at the chosen place. -/
theorem groupLabel_selection {s : Session} {chosen : ChosenGroup} (h : s.group = some chosen) :
    s.selection.groupLabel = s.options.groups[chosen.position]?.bind (·.groupLabel?) := by
  rw [selection, h]
  rfl

theorem placed_start (o : Outlook) (target : Option String) (saved : Option SavedSelection) :
    (start o target saved).Placed where
  none_iff := iff_of_true rfl rfl
  label _ hchosen := absurd hchosen (Option.some_ne_none _).symm

theorem Placed.rebuild (s : Session) (o : Outlook) (p : Snapshot) : (s.rebuild o p).Placed := by
  have hoffers := offers_groupOptions p o.rules o.labels o.collation
  refine ⟨?_, ?_⟩
  · refine iff_of_false (Option.some_ne_none _) ?_
    exact List.cons_ne_nil _ _
  · intro chosen hchosen
    rw [← Option.some.inj hchosen]
    exact hoffers.label_choose _

theorem Placed.chooseGroup (s : Session) (position : Nat) :
    (s.chooseGroup position).Placed := by
  refine ⟨?_, ?_⟩
  · show Option.map _ s.options.groups[_]? = none ↔ s.options.groups = []
    rw [Option.map_eq_none_iff, List.getElem?_eq_none_iff, ← List.length_eq_zero_iff]
    split <;> omega
  · intro chosen hchosen
    obtain ⟨option, hget, rfl⟩ := Option.map_eq_some_iff.mp hchosen
    show s.options.groups[_]?.map _ = _
    rw [hget]
    rfl

theorem Placed.altered {s : Session} (h : s.Placed) (o : Outlook) (t : Trigger) :
    (s.altered o t).Placed := by
  cases t with
  | snapshot p =>
      simp only [Session.altered]
      split
      · exact ⟨h.none_iff, h.label⟩
      · have hrebuild := Placed.rebuild s o p
        exact ⟨hrebuild.none_iff, hrebuild.label⟩
  | groupOption position => exact Placed.chooseGroup s position
  | timeOption _ | systemApps _ | recompute | detach => exact ⟨h.none_iff, h.label⟩

theorem Placed.step {s : Session} (h : s.Placed) (o : Outlook) (now : Int) (t : Trigger) :
    (s.step o now t).Placed := by
  refine step_of_altered ?_ h o now (h.altered o t)
  intro _ _ _ h
  exact ⟨h.none_iff, h.label⟩

end Session

theorem Stage.placed_run (o : Outlook) {x : Stage} (h : x.session.Placed) (es : List Event) :
    (x.run o es).session.Placed :=
  run_of_step o (fun t _ _ now h => h.step o now t) h

section Redelivery

variable {o : Outlook} {start : Int} {es : List Event} {x : Stage} {p : Snapshot}

theorem Follows.groups_eq (h : Follows o start es x) (hp : (populated es).getLast? = some p) :
    x.session.options.groups = groupOptions p o.rules o.labels o.collation := by
  rw [h.options, optionsAfter, hp]
  rfl

theorem Follows.group_chosen (h : Follows o start es x) (hdetach : .trigger .detach ∉ es)
    (hp : (populated es).getLast? = some p) {position : Nat} {option : GroupOption}
    (hget : (groupOptions p o.rules o.labels o.collation)[position]? = some option) :
    (x.next o (.trigger (.groupOption position))).session.group =
      some ⟨position, option.label⟩ := by
  rw [← h.groups_eq hp] at hget
  exact Session.group_groupOption (h.attached.mpr hdetach) hget o x.now

/--
The snapshot behind the options brings the same options again, and the choice follows its label.
-/
theorem Follows.redelivered (h : Follows o start es x) (hplaced : x.session.Placed)
    (hdetach : .trigger .detach ∉ es) (hp : (populated es).getLast? = some p) (now : Int) :
    ∃ chosen, x.session.group = some chosen ∧
      (x.session.step o now (.snapshot p)).options = x.session.options ∧
      (x.session.step o now (.snapshot p)).group =
        some (if chosen.label = o.labels.anyGroup then ⟨0, o.labels.anyGroup⟩ else chosen) := by
  have hgroups := h.groups_eq hp
  have hoffers := offers_groupOptions p o.rules o.labels o.collation
  rw [← hgroups] at hoffers
  obtain ⟨chosen, hchosen⟩ : ∃ chosen, x.session.group = some chosen := by
    apply Option.ne_none_iff_exists'.mp
    rw [Ne, hplaced.none_iff, hgroups]
    exact List.cons_ne_nil _ _
  have hsome : p.groups.isEmpty = false := by
    have hmem := List.mem_of_getLast? hp
    rw [populated, List.mem_filter] at hmem
    simpa using hmem.2
  have hstep := Session.step_populated (h.attached.mpr hdetach) o now hsome
  have hcurrent : (x.session.groupHints o p).current = some chosen.label := by
    rw [Session.groupHints, hchosen]
  refine ⟨chosen, hchosen, ?_, ?_⟩
  · rw [hstep]
    show FilterOptions.mk (groupOptions p o.rules o.labels o.collation) _ = _
    rw [← hgroups]
  · rw [hstep]
    show some (GroupHints.choose (groupOptions p o.rules o.labels o.collation) _) = _
    rw [← hgroups, hoffers.choose_of_current (hplaced.label chosen hchosen) hcurrent]

/-- What the redelivered snapshot does to the filter in force depends on the chosen group alone. -/
theorem Follows.redelivered_iff (h : Follows o start es x) (hplaced : x.session.Placed)
    (hdetach : .trigger .detach ∉ es) (hp : (populated es).getLast? = some p) (now : Int) :
    ∃ chosen, x.session.group = some chosen ∧
      ((x.session.step o now (.snapshot p)).group = x.session.group ∧
          (x.session.step o now (.snapshot p)).selection.groupLabel =
            x.session.selection.groupLabel ↔
        ¬ chosen.Shadowed o.labels.anyGroup) := by
  obtain ⟨chosen, hchosen, hoptions, hgroup⟩ := h.redelivered hplaced hdetach hp now
  have hoffers := offers_groupOptions p o.rules o.labels o.collation
  rw [← h.groups_eq hp] at hoffers
  have hlabel := hplaced.label chosen hchosen
  have hcurrent : ({ current := some chosen.label } : GroupHints).current = some chosen.label := rfl
  refine ⟨chosen, hchosen, ?_⟩
  rw [← hoffers.choose_eq_iff hlabel hcurrent, hoffers.choose_of_current hlabel hcurrent, hgroup,
    hchosen, Option.some.injEq]
  constructor
  · intro hboth
    exact hboth.1
  · intro hsame
    refine ⟨hsame, ?_⟩
    rw [hsame] at hgroup
    rw [Session.groupLabel_selection hgroup, Session.groupLabel_selection hchosen, hoptions]

end Redelivery

/-- A snapshot of a single group of the platform, which nothing has used. -/
def oneGroup (name label : String) : Snapshot where
  groups := [{ name := name, label := label, declaredBy := "android" }]

theorem groupOptions_oneGroup (name label : String) (collation : Collation) :
    groupOptions (oneGroup name label) {} {} collation =
      [.any "All permissions", .group name label] := by
  have hplatform : ((oneGroup name label).platformGroups {}).map (·.1) =
      (oneGroup name label).groups := rfl
  rw [groupOptions, hplatform, oneGroup, List.mergeSort_singleton]
  rfl

theorem groupOption_oneGroup (name label : String) (collation : Collation) :
    (groupOptions (oneGroup name label) {} {} collation)[1]? = some (.group name label) := by
  rw [groupOptions_oneGroup]
  rfl

/-- One group, labelled like the option for every group. -/
def sharedLabel : Snapshot where
  groups := [{ name := "all", label := "All permissions", declaredBy := "android" }]

theorem groupOptions_sharedLabel (collation : Collation) :
    groupOptions sharedLabel {} {} collation =
      [.any "All permissions", .group "all" "All permissions"] :=
  groupOptions_oneGroup "all" "All permissions" collation

/--
A choice is carried to itself by its label, and outlives the redelivery of the snapshot behind the
options, exactly when it is not a group with the label of the first option.
-/
theorem carried_iff_not_shadowed (o : Outlook) (p : Snapshot) :
    (∀ hints again : GroupHints,
      again.current = some (hints.choose (o.options p).groups).label →
      (again.choose (o.options p).groups = hints.choose (o.options p).groups ↔
        ¬ (hints.choose (o.options p).groups).Shadowed o.labels.anyGroup)) ∧
    ∀ (target : Option String) (saved : Option SavedSelection) (start now : Int) (es : List Event),
      .trigger .detach ∉ es → (populated es).getLast? = some p →
      let before := ((Stage.start o target saved start).run o es).session
      let after := before.step o now (.snapshot p)
      ∃ chosen, before.group = some chosen ∧
        (after.group = before.group ∧ after.selection.groupLabel = before.selection.groupLabel ↔
          ¬ chosen.Shadowed o.labels.anyGroup) := by
  refine ⟨?_, ?_⟩
  · intro hints again hcurrent
    have hoffers := offers_groupOptions p o.rules o.labels o.collation
    exact hoffers.choose_eq_iff (hoffers.label_choose hints) hcurrent
  · intro target saved start now es hdetach hp
    have hplaced : (Stage.start o target saved start).session.Placed :=
      Session.placed_start o target saved
    exact (follows_run o target saved start es).redelivered_iff (Stage.placed_run o hplaced es)
      hdetach hp now

/-- While the first option is chosen, the shadowed group does no harm. -/
theorem firstOption_carried_sharedLabel :
    let o : Outlook := ⟨{}, {}, .reversed⟩
    let options := (o.options sharedLabel).groups
    let before := ((Stage.start o none none 0).run o [.trigger (.snapshot sharedLabel)]).session
    let after := before.step o 7 (.snapshot sharedLabel)
    ({ current := some "All permissions" } : GroupHints).choose options =
        ({} : GroupHints).choose options ∧
      after.group = before.group ∧ after.selection.groupLabel = before.selection.groupLabel := by
  intro o options before after
  obtain ⟨hcarried, hredelivered⟩ := carried_iff_not_shadowed o sharedLabel
  refine ⟨?_, ?_⟩
  · rw [hcarried {} _ rfl]
    intro hshadowed
    exact hshadowed.1 rfl
  · obtain ⟨chosen, hchosen, hiff⟩ := hredelivered none none 0 7
      [.trigger (.snapshot sharedLabel)] (by decide) rfl
    rw [hiff]
    intro hshadowed
    have hzero : chosen.position = 0 := congrArg ChosenGroup.position (Option.some.inj hchosen).symm
    exact hshadowed.1 hzero

/-- The choice of that group gives way to the first option, and with it goes the filter. -/
theorem not_carried_sharedLabel :
    (let options := groupOptions sharedLabel {} {} .reversed
      let first := ({ savedPosition := some 1 } : GroupHints).choose options
      first = ⟨1, "All permissions"⟩ ∧
        ({ current := some first.label } : GroupHints).choose options = ⟨0, "All permissions"⟩) ∧
    let o : Outlook := ⟨{}, {}, .reversed⟩
    let before := ((Stage.start o none none 0).run o
      [.trigger (.snapshot sharedLabel), .trigger (.groupOption 1)]).session
    let after := before.step o 0 (.snapshot sharedLabel)
    before.group = some ⟨1, "All permissions"⟩ ∧
      before.selection.groupLabel = some "All permissions" ∧
      after.group = some ⟨0, "All permissions"⟩ ∧ after.selection.groupLabel = none := by
  refine ⟨?_, ?_⟩
  · rw [groupOptions_sharedLabel]
    decide
  · intro o before after
    let es : List Event := [.trigger (.snapshot sharedLabel), .trigger (.groupOption 1)]
    have hfollows : Follows o 0 es ((Stage.start o none none 0).run o es) :=
      follows_run o none none 0 es
    have hplaced : ((Stage.start o none none 0).run o es).session.Placed :=
      Stage.placed_run o (Session.placed_start o none none) es
    have hgroups : before.options.groups =
        [.any "All permissions", .group "all" "All permissions"] := by
      rw [← groupOptions_sharedLabel .reversed]
      exact hfollows.groups_eq rfl
    have hbefore : before.group = some ⟨1, "All permissions"⟩ := by
      have hget : before.options.groups[1]? = some (.group "all" "All permissions") := by
        rw [hgroups]
        rfl
      let delivered :=
        ((Stage.start o none none 0).next o (.trigger (.snapshot sharedLabel))).session
      have hchosen : (delivered.chooseGroup 1).group = some ⟨1, "All permissions"⟩ :=
        Session.group_chooseGroup hget
      exact hchosen
    obtain ⟨chosen, hchosen, hoptions, hgroup⟩ :=
      hfollows.redelivered hplaced (by decide) rfl 0
    have hsame : chosen = ⟨1, "All permissions"⟩ := Option.some.inj (hchosen.symm.trans hbefore)
    have hafter : after.group = some ⟨0, "All permissions"⟩ := by
      rw [hsame] at hgroup
      exact hgroup
    have hkept : after.options.groups = before.options.groups := congrArg _ hoptions
    refine ⟨hbefore, ?_, hafter, ?_⟩
    · rw [Session.groupLabel_selection hbefore, hgroups]
      rfl
    · rw [Session.groupLabel_selection hafter, hkept, hgroups]
      rfl

end AccessLedger
