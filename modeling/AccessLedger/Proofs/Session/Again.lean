import AccessLedger.Proofs.Session.Restart

/-!
A session that views one snapshot, and the session that is started from what it saved and views the
same snapshot. When choices go by their labels, the second one shows what the first one shows and
would save what the first one saves.
-/

namespace AccessLedger

/-- Saved choices with a position of a group only where there is its label. -/
def SavedSelection.Labelled (s : SavedSelection) : Prop :=
  s.groupLabel = none → s.groupPosition = none

theorem Session.labelled_savedSelection (s : Session) : s.savedSelection.Labelled := by
  intro hlabel
  rw [savedSelection, Option.map_eq_none_iff] at hlabel ⊢
  exact hlabel

/-- A group chosen among the options of a snapshot, at the first place of its label. -/
def ChosenGroup.AtLabel (o : Outlook) (p : Snapshot) (chosen : ChosenGroup) : Prop :=
  chosen.label ∈ o.labelsOffered p ∧ chosen.position = (o.labelsOffered p).idxOf chosen.label

/-- A choice that leaves the group at the first place of its label. -/
def Trigger.ChoosesByLabel (o : Outlook) (p : Snapshot) : Trigger → Prop
  | groupOption position =>
    ∃ option, (o.options p).groups[position]? = some option ∧
      ChosenGroup.AtLabel o p ⟨position, option.label⟩
  | timeOption _ | systemApps _ => True
  | .snapshot _ | .recompute | .detach => False

section AtLabel

variable {o : Outlook} {p : Snapshot}

theorem atLabel_anyGroup (o : Outlook) (p : Snapshot) :
    ChosenGroup.AtLabel o p ⟨0, o.labels.anyGroup⟩ :=
  ⟨o.anyGroup_mem_labelsOffered p, (o.idxOf_anyGroup p).symm⟩

/-- A label that decides leads to its first place, or to the first option and its label. -/
theorem atLabel_choose {hints : GroupHints} {label : String}
    (hposition : hints.position (o.options p).groups =
      (GroupHints.positionOfLabel (o.options p).groups label).getD 0) :
    (hints.choose (o.options p).groups).AtLabel o p := by
  rw [Outlook.choose_label hposition]
  split
  · next hmem => exact ⟨hmem, rfl⟩
  · exact atLabel_anyGroup o p

theorem ChosenGroup.AtLabel.choose_eq {chosen : ChosenGroup} (h : chosen.AtLabel o p)
    {hints : GroupHints} (hcurrent : hints.current = some chosen.label) :
    hints.choose (o.options p).groups = chosen := by
  rw [Outlook.choose_label (GroupHints.position_of_current hcurrent), if_pos h.1, ← h.2]

/-- A label that is found among the options is found at its first place. -/
theorem atLabel_of_findIdx? {label : String} {position : Nat}
    (h : (o.options p).groups.findIdx? (·.label == label) = some position) :
    (Trigger.groupOption position).ChoosesByLabel o p := by
  obtain ⟨hlt, hfound, _⟩ := List.findIdx?_eq_some_iff_getElem.mp h
  rw [List.findIdx?_eq_some_iff_findIdx_eq] at h
  rw [beq_iff_eq] at hfound
  refine ⟨_, List.getElem?_eq_getElem hlt, List.mem_map_of_mem (List.getElem_mem hlt), ?_⟩
  rw [Outlook.labelsOffered, List.idxOf, List.findIdx_map, hfound, ← h.2]
  rfl

/-- Without a target the first choice goes by the saved label, or else it is the first option. -/
theorem atLabel_choose_first {saved : Option SavedSelection} (hsaved : ∀ x ∈ saved, x.Labelled) :
    (((Session.start o none saved).groupHints o p).choose (o.options p).groups).AtLabel o p := by
  rw [(waiting_start o none saved).groupHints_eq]
  cases hlabel : saved.bind (·.groupLabel) with
  | some label => exact atLabel_choose (GroupHints.position_of_savedLabel rfl rfl rfl)
  | none =>
      have hposition : saved.bind (·.groupPosition) = none := by
        cases saved with
        | none => rfl
        | some x => exact hsaved x rfl hlabel
      have hoffers : Offers o.labels.anyGroup (o.options p).groups _ :=
        offers_groupOptions p o.rules o.labels o.collation
      rw [hposition, hoffers.choose_of_position_zero rfl]
      exact atLabel_anyGroup o p

end AtLabel

namespace Session

/-- A session in which one snapshot was delivered and nothing but choices by label came after it. -/
structure Views (o : Outlook) (p : Snapshot) (s : Session) : Prop where
  attached : s.attached = true
  snapshot : s.snapshot = some p
  times : s.options.times = timeOptions o.labels
  time_lt : s.timePosition < Window.selectable.length
  unchosen : p.groups.isEmpty = true → s.options.groups = [] ∧ s.group = none
  chosen : p.groups.isEmpty = false →
    s.options.groups = (o.options p).groups ∧ s.target = none ∧ s.saved = none ∧
      ∃ chosen, s.group = some chosen ∧ chosen.AtLabel o p

/-- Such a session with a view of the present moment. -/
structure Shows (o : Outlook) (now : Int) (p : Snapshot) (s : Session) :
    Prop extends Views o p s where
  refreshed : s.refresh o now = s

/-- What is shown of a session, and what of it is saved. -/
structure SameShown (s s' : Session) : Prop where
  view : s'.view = s.view
  group : s'.group = s.group
  timePosition : s'.timePosition = s.timePosition
  showSystem : s'.showSystem = s.showSystem

theorem SameShown.savedSelection {s s' : Session} (h : SameShown s s') :
    s'.savedSelection = s.savedSelection := by
  rw [Session.savedSelection, Session.savedSelection, h.group, h.timePosition, h.showSystem]

variable {o : Outlook} {p : Snapshot} {s : Session} {now : Int}

section Steps

theorem refresh_of_snapshot (h : s.snapshot = some p) (o : Outlook) (now : Int) :
    s.refresh o now = { s with view := some (o.viewWith s.options p s.selection now) } := by
  rw [refresh, h]

/-- A view that is there already has no part in the next. -/
theorem refresh_with_view (h : s.snapshot = some p) (view : Option View) :
    { s with view := view }.refresh o now = s.refresh o now := by
  rw [refresh_of_snapshot h, refresh_of_snapshot (s := { s with view := view }) h]
  rfl

theorem Views.shows_refresh (h : s.Views o p) (now : Int) : (s.refresh o now).Shows o now p := by
  have hrefresh := refresh_of_snapshot h.snapshot o now
  refine ⟨?_, ?_⟩
  · rw [hrefresh]
    exact ⟨h.attached, h.snapshot, h.times, h.time_lt, h.unchosen, h.chosen⟩
  · conv_lhs => rw [hrefresh]
    exact refresh_with_view h.snapshot _

/-- A snapshot is delivered to a new session, where the saved label alone decides on the group. -/
theorem shows_delivered (now : Int) {saved : Option SavedSelection}
    (hsaved : ∀ x ∈ saved, x.Labelled) :
    ((start o none saved).step o now (.snapshot p)).Shows o now p := by
  have hne : Trigger.snapshot p ≠ .detach := by simp
  rw [step_eq_refresh rfl o now hne]
  apply Views.shows_refresh
  simp only [altered]
  cases hp : p.groups.isEmpty with
  | true =>
      refine ⟨rfl, rfl, rfl, restoreTimePosition_lt _, fun _ => ⟨rfl, rfl⟩, ?_⟩
      simp [hp]
  | false =>
      refine ⟨rfl, rfl, rfl, restoreTimePosition_lt _, ?_, fun _ => ⟨rfl, rfl, rfl, _, rfl, ?_⟩⟩
      · simp [hp]
      · exact atLabel_choose_first hsaved

theorem Views.altered (h : s.Views o p) {t : Trigger} (ht : t.ChoosesByLabel o p) :
    (s.altered o t).Views o p := by
  cases t with
  | groupOption position =>
      obtain ⟨option, hget, hlabel⟩ := ht
      refine ⟨h.attached, h.snapshot, h.times, h.time_lt, ?_, ?_⟩
      · intro hp
        obtain ⟨hoptions, _⟩ := h.unchosen hp
        refine ⟨hoptions, ?_⟩
        simp [Session.altered, Session.chooseGroup, hoptions]
      · intro hp
        obtain ⟨hoptions, htarget, hsaved, _⟩ := h.chosen hp
        rw [← hoptions] at hget
        exact ⟨hoptions, htarget, hsaved, _, group_chooseGroup hget, hlabel⟩
  | timeOption position =>
      exact ⟨h.attached, h.snapshot, h.times, restoreTimePosition_lt (some position), h.unchosen,
        h.chosen⟩
  | systemApps shown => exact ⟨h.attached, h.snapshot, h.times, h.time_lt, h.unchosen, h.chosen⟩
  | snapshot _ | recompute | detach => exact ht.elim

theorem Shows.step (h : s.Shows o now p) {t : Trigger} (ht : t.ChoosesByLabel o p) :
    (s.step o now t).Shows o now p := by
  have hne : t ≠ .detach := by
    rintro rfl
    exact ht
  rw [step_eq_refresh h.attached o now hne]
  exact (h.toViews.altered ht).shows_refresh now

theorem Shows.foldl_step (h : s.Shows o now p) {ts : List Trigger}
    (hts : ∀ t ∈ ts, t.ChoosesByLabel o p) :
    (ts.foldl (fun s t => s.step o now t) s).Shows o now p := by
  induction ts generalizing s with
  | nil => exact h
  | cons t ts ih =>
      rw [List.forall_mem_cons] at hts
      exact ih (h.step hts.1) hts.2

end Steps

section Restarted

/-- The options of the snapshot are there already, and the choice stands where its label leads. -/
theorem Views.rebuild_of_chosen (h : s.Views o p) (hp : p.groups.isEmpty = false) :
    { s.rebuild o p with snapshot := some p } = s := by
  obtain ⟨hoptions, htarget, hsaved, chosen, hgroup, hlabel⟩ := h.chosen hp
  have hcurrent : (s.groupHints o p).current = some chosen.label := by
    rw [groupHints, hgroup]
  have hgroups : { s.options with groups := (o.options p).groups } = s.options := by
    rw [← hoptions]
  have hsnapshot := h.snapshot
  rw [Session.rebuild, hlabel.choose_eq hcurrent, hgroups, hgroup]
  cases s
  simp_all

/-- With a group chosen by its label, the session that starts anew becomes the same. -/
theorem Shows.restarted_of_chosen (h : s.Shows o now p) (hp : p.groups.isEmpty = false) :
    (s.restarted o).step o now (.snapshot p) = s := by
  obtain ⟨_, _, hsaved, chosen, hgroup, _⟩ := h.chosen hp
  have hrebuild := rebuild_restarted (p := p) hgroup h.attached hsaved h.times h.time_lt
  rw [h.rebuild_of_chosen hp] at hrebuild
  rw [step_populated rfl o now hp, ← refresh_with_view rfl s.view]
  exact (congrArg (·.refresh o now) hrebuild).trans h.refreshed

/--
Without groups there is nothing to be chosen, and time and system apps are as they were saved.
-/
theorem Shows.restarted_of_unchosen (h : s.Shows o now p) (hp : p.groups.isEmpty = true) :
    SameShown s ((s.restarted o).step o now (.snapshot p)) := by
  obtain ⟨hoptions, hgroup⟩ := h.unchosen hp
  have hne : Trigger.snapshot p ≠ .detach := by simp
  let again : Session := { s.restarted o with snapshot := some p }
  have hagain : (s.restarted o).step o now (.snapshot p) = again.refresh o now := by
    rw [step_eq_refresh rfl o now hne, Session.altered, hp]
    rfl
  have htime : again.timePosition = s.timePosition := restoreTimePosition_of_lt h.time_lt
  have hsameOptions : again.options = s.options := by
    show (⟨[], timeOptions o.labels⟩ : FilterOptions) = s.options
    rw [← hoptions, ← h.times]
  have hselection : again.selection = s.selection := by
    rw [Session.selection, Session.selection, hsameOptions, htime, hgroup]
    rfl
  have hview : s.view = some (o.viewWith s.options p s.selection now) := by
    have hrefreshed := h.refreshed
    rw [refresh_of_snapshot h.snapshot] at hrefreshed
    exact (congrArg Session.view hrefreshed).symm
  rw [hagain]
  refine ⟨?_, hgroup.symm, htime, rfl⟩
  rw [hview, ← hsameOptions, ← hselection]
  rfl

/-- A session that is started from what was saved shows the same snapshot in the same way. -/
theorem Shows.restarted (h : s.Shows o now p) :
    SameShown s ((s.restarted o).step o now (.snapshot p)) := by
  cases hp : p.groups.isEmpty with
  | true => exact h.restarted_of_unchosen hp
  | false =>
      rw [h.restarted_of_chosen hp]
      exact ⟨rfl, rfl, rfl, rfl⟩

end Restarted

end Session
end AccessLedger
