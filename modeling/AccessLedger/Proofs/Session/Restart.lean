import AccessLedger.CommandLine.Run
import AccessLedger.Proofs.Session.Coherent
import AccessLedger.Proofs.Session.Sticking
import AccessLedger.Proofs.Session.Target

/-!
Sessions that go on from what an earlier one saved. Once a group is chosen, a session that is
started anew becomes, with the next snapshot that has groups, what the old one becomes. Before that,
what would be saved has no group: the saved label still decides in the session that was given it,
but not in the next.
-/

namespace AccessLedger

open Event

/-- A session that starts with what another one saves, read back from a file. -/
def Session.restarted (o : Outlook) (s : Session) : Session :=
  .start o none (some s.savedSelection.filterState.savedSelection)

namespace Session

variable {s : Session}

theorem waiting_restarted (o : Outlook) (s : Session) :
    (s.restarted o).Waiting none (some s.savedSelection.filterState.savedSelection) :=
  waiting_start o none _

section Chosen

variable {o : Outlook} {p : Snapshot} {chosen : ChosenGroup}

/-- The label leads to the same option, whether as that of the choice or as a saved one. -/
theorem choose_restarted (hchosen : s.group = some chosen) :
    ((s.restarted o).groupHints o p).choose (o.options p).groups =
      (s.groupHints o p).choose (o.options p).groups := by
  have hcurrent : (s.groupHints o p).current = some chosen.label := by
    rw [groupHints, hchosen]
  have hsaved : s.savedSelection.groupLabel = some chosen.label := by
    rw [savedSelection, hchosen]
    rfl
  apply GroupHints.choose_congr
  rw [GroupHints.position_of_current hcurrent, (waiting_restarted o s).groupHints_eq]
  exact GroupHints.position_of_savedLabel rfl rfl hsaved

/-- All but the view is the same, and the view is about to be refreshed. -/
theorem rebuild_restarted (hchosen : s.group = some chosen) (hattached : s.attached = true)
    (hsaved : s.saved = none) (htimes : s.options.times = timeOptions o.labels)
    (htime : s.timePosition < Window.selectable.length) :
    { (s.restarted o).rebuild o p with snapshot := some p, view := s.view } =
      { s.rebuild o p with snapshot := some p } := by
  have hposition : (s.restarted o).timePosition = s.timePosition := restoreTimePosition_of_lt htime
  have hnotNone : s.group.isNone = false := by
    rw [hchosen]
    rfl
  simp only [rebuild, choose_restarted hchosen, hnotNone, hposition]
  simp [restarted, start, htimes, hattached, hsaved, savedSelection, SavedSelection.filterState,
    FilterState.savedSelection]

end Chosen

section Unchosen

variable {o : Outlook} {p : Snapshot}

theorem groupLabel_savedSelection_of_unchosen (hnone : s.group = none) :
    s.savedSelection.groupLabel = none := by
  rw [savedSelection, hnone]
  rfl

/-- Without a chosen group there is nothing to go by in the next session. -/
theorem group_restarted_of_unchosen (hnone : s.group = none) (hp : p.groups.isEmpty = false)
    (now : Int) :
    ((s.restarted o).step o now (.snapshot p)).group = some ⟨0, o.labels.anyGroup⟩ := by
  have hoffers : Offers o.labels.anyGroup (o.options p).groups _ :=
    offers_groupOptions p o.rules o.labels o.collation
  have hhints : (s.restarted o).groupHints o p = {} := by
    rw [(waiting_restarted o s).groupHints_eq, savedSelection, hnone]
    rfl
  rw [group_delivered rfl hp, hhints]
  exact congrArg some (hoffers.choose_of_position_zero rfl)

/-- Until the first options the saved label is there, and then it decides. -/
theorem Waiting.group_delivered {saved : SavedSelection} (h : s.Waiting none (some saved))
    (hattached : s.attached = true) (hp : p.groups.isEmpty = false) (now : Int) {label : String}
    (hlabel : saved.groupLabel = some label) :
    (s.step o now (.snapshot p)).group =
      some (if label ∈ o.labelsOffered p then ⟨(o.labelsOffered p).idxOf label, label⟩
        else ⟨0, o.labels.anyGroup⟩) := by
  rw [Session.group_delivered hattached hp, Outlook.choose_label]
  rw [h.groupHints_eq]
  exact GroupHints.position_of_savedLabel rfl rfl hlabel

theorem Waiting.foldl_step {target : Option String} {saved : Option SavedSelection}
    (h : s.Waiting target saved) (o : Outlook) (now : Int) {ts : List Trigger}
    (hts : ∀ p, .snapshot p ∈ ts → p.groups = []) :
    (ts.foldl (fun s t => s.step o now t) s).Waiting target saved := by
  induction ts generalizing s with
  | nil => exact h
  | cons t ts ih =>
      rw [List.foldl_cons]
      apply ih
      · exact h.step o now fun p ht => hts p (ht ▸ List.mem_cons_self ..)
      · exact fun p hmem => hts p (List.mem_cons_of_mem _ hmem)

end Unchosen

end Session

namespace CommandLine

theorem eq_of_mem_triggers {a : ViewArguments} {t : Trigger} (ht : t ∈ triggers a) :
    (∃ position, t = .timeOption position) ∨ ∃ shown, t = .systemApps shown := by
  simp only [triggers, List.mem_append, Option.mem_toList, Option.map_eq_some_iff] at ht
  rcases ht with ⟨w, _, rfl⟩ | ⟨shown, _, rfl⟩
  · exact .inl ⟨_, rfl⟩
  · exact .inr ⟨shown, rfl⟩

theorem snapshot_not_mem_triggers (a : ViewArguments) (p : Snapshot) :
    .snapshot p ∉ triggers a := by
  intro hmem
  rcases eq_of_mem_triggers hmem with ⟨_, heq⟩ | ⟨_, heq⟩
  · cases heq
  · cases heq

theorem eq_of_chooseGroup {o : Outlook} {now : Int} {label : Option String} {s s' : Session}
    (hoptions : s.options.groups = []) (h : chooseGroup o now label s = .ok s') : s' = s := by
  cases label with
  | none =>
      cases h
      rfl
  | some label => simp [chooseGroup, hoptions] at h

/-- A view of a snapshot without groups leaves no group to be saved. -/
theorem group_session_of_unpopulated {o : Outlook} {now : Int} {saved : Option SavedSelection}
    {a : ViewArguments} {p : Snapshot} {s : Session} (hsession : session o now saved a p = .ok s)
    (hp : p.groups = []) : s.group = none := by
  have hwaiting : ((Session.start o a.target saved).step o now (.snapshot p)).Waiting
      a.target saved := by
    refine (waiting_start o a.target saved).step o now ?_
    intro q hq
    cases hq
    exact hp
  rw [session] at hsession
  cases hchoose : chooseGroup o now a.group
      ((Session.start o a.target saved).step o now (.snapshot p)) with
  | error failure =>
      rw [hchoose] at hsession
      cases hsession
  | ok chosen =>
      rw [hchoose] at hsession
      cases hsession
      rw [eq_of_chooseGroup hwaiting.options hchoose]
      refine (hwaiting.foldl_step o now ?_).group
      intro q hq
      exact absurd hq (snapshot_not_mem_triggers a q)

end CommandLine

/--
When a group is chosen, a session and the one that is started from what it saved come to be the same
with the next snapshot that has groups, in their view and in all that they go on with.
-/
theorem step_restarted (o : Outlook) (target : Option String) (saved : Option SavedSelection)
    (start : Int) (es : List Event) (hdetach : .trigger .detach ∉ es)
    (hchosen : ((Stage.start o target saved start).run o es).session.group ≠ none)
    (p : Snapshot) (hp : p.groups ≠ []) (now : Int) :
    let s := ((Stage.start o target saved start).run o es).session
    (s.restarted o).step o now (.snapshot p) = s.step o now (.snapshot p) := by
  intro s
  have hfollows := follows_run o target saved start es
  have hattached : s.attached = true := hfollows.attached.mpr hdetach
  obtain ⟨_, hused, htime⟩ := kept_run o target saved start es
  obtain ⟨chosen, hgroup⟩ := Option.ne_none_iff_exists'.mp hchosen
  have htimes : s.options.times = timeOptions o.labels := by
    rw [hfollows.options, optionsAfter_times]
  have hsome : p.groups.isEmpty = false := List.isEmpty_eq_false_iff.mpr hp
  have hrebuild :=
    Session.rebuild_restarted (p := p) hgroup hattached (hused hchosen).2 htimes htime
  rw [Session.step_populated hattached o now hsome, Session.step_populated rfl o now hsome,
    ← hrebuild, Session.refresh_eq, Session.refresh_eq]
  rfl

/-- The old session was given a target, the new one goes by the label alone. -/
theorem step_restarted_threeGroups :
    let o : Outlook := ⟨{}, {}, .reversed⟩
    let es : List Event := [.trigger (.snapshot (oneGroup "camera" "Camera")), .clock 7,
      .trigger (.timeOption 3), .trigger (.systemApps true), .trigger (.groupOption 1)]
    let s := ((Stage.start o (some "satellite") none 0).run o es).session
    .trigger .detach ∉ es ∧ s.group ≠ none ∧ threeGroups.groups ≠ [] ∧
      s.group = some ⟨1, "Camera"⟩ ∧
      (s.restarted o).step o 9 (.snapshot threeGroups) = s.step o 9 (.snapshot threeGroups) := by
  intro o es s
  have hdetach : .trigger .detach ∉ es := by decide
  have hgroup : s.group = some ⟨1, "Camera"⟩ :=
    (follows_run o (some "satellite") none 0 (es.take 4)).group_chosen (by decide) rfl
      (groupOption_oneGroup "camera" "Camera" .reversed)
  have hchosen : s.group ≠ none := by
    rw [hgroup]
    exact Option.some_ne_none _
  have hgroups : threeGroups.groups ≠ [] := List.cons_ne_nil _ _
  exact ⟨hdetach, hchosen, hgroups, hgroup,
    step_restarted o (some "satellite") none 0 es hdetach hchosen threeGroups hgroups 9⟩

/--
Before the first options no group would be saved, whatever the saved label. The session that was
given the label goes on to its group as soon as this is on offer; one that is started anew admits
every group.
-/
theorem savedLabel_kept_iff_none (o : Outlook) (saved : SavedSelection) (start : Int)
    (es : List Event) (hes : ∀ p, .trigger (.snapshot p) ∈ es → p.groups = []) :
    let s := ((Stage.start o none (some saved) start).run o es).session
    (s.savedSelection.groupLabel = saved.groupLabel ↔ saved.groupLabel = none) ∧
      (.trigger .detach ∉ es → ∀ (p : Snapshot) (now : Int), p.groups ≠ [] →
        ((s.restarted o).step o now (.snapshot p)).group = some ⟨0, o.labels.anyGroup⟩ ∧
        ∀ label, saved.groupLabel = some label →
          (s.step o now (.snapshot p)).group =
            some (if label ∈ o.labelsOffered p then ⟨(o.labelsOffered p).idxOf label, label⟩
              else ⟨0, o.labels.anyGroup⟩)) ∧
      ∀ (a : CommandLine.ViewArguments) (p : Snapshot) (viewed : Session), p.groups = [] →
        CommandLine.session o start (some saved) a p = .ok viewed →
        viewed.savedSelection.groupLabel = none := by
  intro s
  have hwaiting : s.Waiting none (some saved) :=
    Stage.waiting_run o (x := Stage.start o none (some saved) start) (waiting_start o none _) hes
  refine ⟨?_, ?_, ?_⟩
  · rw [Session.groupLabel_savedSelection_of_unchosen hwaiting.group]
    exact eq_comm
  · intro hdetach p now hp
    have hattached : s.attached = true :=
      (follows_run o none (some saved) start es).attached.mpr hdetach
    have hsome : p.groups.isEmpty = false := List.isEmpty_eq_false_iff.mpr hp
    refine ⟨Session.group_restarted_of_unchosen hwaiting.group hsome now, ?_⟩
    intro label hlabel
    exact hwaiting.group_delivered hattached hsome now hlabel
  · intro a p viewed hp hviewed
    exact Session.groupLabel_savedSelection_of_unchosen
      (CommandLine.group_session_of_unpopulated hviewed hp)

theorem labelsOffered_oneGroup (name label : String) (collation : Collation) :
    Outlook.labelsOffered ⟨{}, {}, collation⟩ (oneGroup name label) = ["All permissions", label] :=
  congrArg (List.map GroupOption.label) (groupOptions_oneGroup name label collation)

/-- A pick among no options and the lapse of time do not bring the saved group back. -/
theorem savedLabel_kept_iff_none_picked :
    let o : Outlook := ⟨{}, {}, .reversed⟩
    let saved : SavedSelection := { groupPosition := some 1, groupLabel := some "Camera" }
    let es : List Event := [.trigger (.snapshot {}), .clock 7, .trigger (.groupOption 1)]
    let s := ((Stage.start o none (some saved) 0).run o es).session
    (∀ p, .trigger (.snapshot p) ∈ es → p.groups = []) ∧
      (s.savedSelection.groupLabel = saved.groupLabel ↔ saved.groupLabel = none) ∧
      (s.step o 9 (.snapshot (oneGroup "camera" "Camera"))).group = some ⟨1, "Camera"⟩ := by
  intro o saved es s
  have hes : ∀ p, .trigger (.snapshot p) ∈ es → p.groups = [] := by
    intro p hp
    simp only [es, List.mem_cons, Event.trigger.injEq, Trigger.snapshot.injEq, reduceCtorEq,
      List.not_mem_nil, or_false] at hp
    rw [hp]
  obtain ⟨hkept, hdelivered, _⟩ := savedLabel_kept_iff_none o saved 0 es hes
  obtain ⟨_, hgroup⟩ := hdelivered (by decide) (oneGroup "camera" "Camera") 9 (List.cons_ne_nil _ _)
  refine ⟨hes, hkept, ?_⟩
  rw [hgroup "Camera" rfl, labelsOffered_oneGroup]
  rfl

/-- One view of a snapshot without groups, and the saved group is lost to the next session. -/
theorem not_savedLabel_kept_camera :
    let o : Outlook := ⟨{}, {}, .reversed⟩
    let saved : SavedSelection := { groupLabel := some "Camera" }
    let camera := oneGroup "camera" "Camera"
    let s := ((Stage.start o none (some saved) 0).run o [.trigger (.snapshot {})]).session
    s.savedSelection.groupLabel ≠ saved.groupLabel ∧
      (s.step o 0 (.snapshot camera)).group = some ⟨1, "Camera"⟩ ∧
      ((s.restarted o).step o 0 (.snapshot camera)).group = some ⟨0, "All permissions"⟩ := by
  intro o saved camera s
  have hwaiting : s.Waiting none (some saved) := by
    refine (waiting_start o none (some saved)).step o 0 (t := .snapshot {}) ?_
    intro p hp
    cases hp
    rfl
  refine ⟨?_, ?_, Session.group_restarted_of_unchosen hwaiting.group rfl 0⟩
  · rw [Session.groupLabel_savedSelection_of_unchosen hwaiting.group]
    exact (Option.some_ne_none _).symm
  · rw [hwaiting.group_delivered rfl rfl 0 rfl, labelsOffered_oneGroup]
    rfl

end AccessLedger
