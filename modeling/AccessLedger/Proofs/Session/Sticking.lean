import AccessLedger.Proofs.Session.Chosen

/-!
A chosen label sticks. While every snapshot with groups offers it, the choice keeps the label and
moves to where the label comes first; with the first snapshot that does not offer it, every group is
admitted, and this stays so even when the label comes back.
-/

namespace AccessLedger

open Event

/-- Neither a choice of a group nor the end of the session. -/
def Event.isPassive : Event → Bool
  | trigger (.groupOption _) | trigger .detach => false
  | _ => true

def Outlook.labelsOffered (o : Outlook) (p : Snapshot) : List String :=
  (o.options p).groups.map (·.label)

/-- What has become of a choice after the events that followed it. -/
structure Sticks (o : Outlook) (chosen : ChosenGroup) (es : List Event) (s : Session) : Prop where
  untouched : populated es = [] → s.group = some chosen
  followed : populated es ≠ [] → (∀ p ∈ populated es, chosen.label ∈ o.labelsOffered p) →
    chosen.label ∈ s.options.groups.map (·.label) ∧
    s.group = some ⟨(s.options.groups.map (·.label)).idxOf chosen.label, chosen.label⟩
  lost : (∃ p ∈ populated es, chosen.label ∉ o.labelsOffered p) →
    s.group = some ⟨0, o.labels.anyGroup⟩

theorem Event.detach_not_mem_of_passive {es : List Event} (hes : ∀ e ∈ es, e.isPassive = true) :
    trigger .detach ∉ es :=
  fun hmem => absurd (hes _ hmem) Bool.false_ne_true

theorem Event.eq_of_populated {e : Event} {p : Snapshot}
    (h : e.snapshot?.filter (!·.groups.isEmpty) = some p) :
    e = trigger (.snapshot p) ∧ p.groups.isEmpty = false := by
  obtain ⟨hsnapshot, hp⟩ := Option.filter_eq_some_iff.mp h
  refine ⟨?_, by simpa using hp⟩
  cases e with
  | clock now => cases hsnapshot
  | trigger t =>
      cases t with
      | snapshot q =>
          cases hsnapshot
          rfl
      | groupOption _ | timeOption _ | systemApps _ | recompute | detach => cases hsnapshot

section Delivery

variable {o : Outlook} {s : Session} {p : Snapshot}

theorem Outlook.anyGroup_mem_labelsOffered (o : Outlook) (p : Snapshot) :
    o.labels.anyGroup ∈ o.labelsOffered p :=
  List.mem_cons_self ..

theorem Outlook.idxOf_anyGroup (o : Outlook) (p : Snapshot) :
    (o.labelsOffered p).idxOf o.labels.anyGroup = 0 :=
  List.idxOf_cons_self

theorem Session.options_delivered (hattached : s.attached = true) (hp : p.groups.isEmpty = false)
    (now : Int) : (s.step o now (.snapshot p)).options.groups = (o.options p).groups := by
  rw [Session.step_populated hattached o now hp, Session.refresh_eq]
  rfl

theorem Session.group_delivered (hattached : s.attached = true) (hp : p.groups.isEmpty = false)
    (now : Int) : (s.step o now (.snapshot p)).group =
      some ((s.groupHints o p).choose (o.options p).groups) := by
  rw [Session.step_populated hattached o now hp, Session.refresh_eq]
  rfl

/--
A label that decides leads to its first place among the options of a snapshot, or to the first
option.
-/
theorem Outlook.choose_label {hints : GroupHints} {label : String}
    (hposition : hints.position (o.options p).groups =
      (GroupHints.positionOfLabel (o.options p).groups label).getD 0) :
    hints.choose (o.options p).groups =
      if label ∈ o.labelsOffered p then ⟨(o.labelsOffered p).idxOf label, label⟩
      else ⟨0, o.labels.anyGroup⟩ := by
  have hoffers : Offers o.labels.anyGroup (o.options p).groups _ :=
    offers_groupOptions p o.rules o.labels o.collation
  split
  · next hmem => exact hoffers.choose_of_mem hposition hmem
  · next hmem => exact hoffers.choose_of_not_mem hposition hmem

theorem Session.group_carried {chosen : ChosenGroup} (hchosen : s.group = some chosen)
    (hattached : s.attached = true) (hp : p.groups.isEmpty = false) (now : Int) :
    (s.step o now (.snapshot p)).group =
      some (if chosen.label ∈ o.labelsOffered p then
        ⟨(o.labelsOffered p).idxOf chosen.label, chosen.label⟩ else ⟨0, o.labels.anyGroup⟩) := by
  have hcurrent : (s.groupHints o p).current = some chosen.label := by
    rw [Session.groupHints, hchosen]
  rw [Session.group_delivered hattached hp, Outlook.choose_label]
  exact GroupHints.position_of_current hcurrent

end Delivery

section Passive

variable {o : Outlook} {x : Stage} {e : Event}

/-- Without a snapshot that has groups, options and choice are left alone. -/
theorem Stage.unmoved_next (hpassive : e.isPassive = true)
    (hnone : e.snapshot?.filter (!·.groups.isEmpty) = none) :
    (x.next o e).session.group = x.session.group ∧
      (x.next o e).session.options = x.session.options := by
  cases e with
  | clock now => exact ⟨rfl, rfl⟩
  | trigger t =>
      refine Session.step_of_altered
        (P := fun s => s.group = x.session.group ∧ s.options = x.session.options)
        (fun _ _ _ h => h) ⟨rfl, rfl⟩ o x.now ?_
      cases t with
      | snapshot p =>
          have hempty : p.groups.isEmpty = true := by simpa [snapshot?] using hnone
          simp only [Session.altered, hempty, if_true, and_self]
      | groupOption _ => exact absurd hpassive Bool.false_ne_true
      | timeOption _ | systemApps _ | recompute | detach => exact ⟨rfl, rfl⟩

theorem Stage.attached_run (hattached : x.session.attached = true) {es : List Event}
    (hes : ∀ e ∈ es, e.isPassive = true) : (x.run o es).session.attached = true := by
  refine Stage.run_of_step (P := fun s => s.attached = true) o ?_ hattached
  intro t ht s now hs
  have hne : t ≠ .detach := by
    intro heq
    exact detach_not_mem_of_passive hes (heq ▸ ht)
  rw [Session.step_eq_refresh hs o now hne, Session.refresh_eq]
  exact (Session.frame_altered o s t).1.trans hs

end Passive

section Sticks

variable {o : Outlook} {chosen : ChosenGroup} {es : List Event} {s : Session}

theorem sticks_nil (h : s.group = some chosen) : Sticks o chosen [] s where
  untouched _ := h
  followed hne := absurd rfl hne
  lost hlost := by
    obtain ⟨p, hp, _⟩ := hlost
    cases hp

theorem Sticks.label (h : Sticks o chosen es s)
    (hall : ∀ p ∈ populated es, chosen.label ∈ o.labelsOffered p) :
    ∃ position, s.group = some ⟨position, chosen.label⟩ := by
  by_cases hnone : populated es = []
  · exact ⟨chosen.position, h.untouched hnone⟩
  · exact ⟨_, (h.followed hnone hall).2⟩

theorem Sticks.unmoved (h : Sticks o chosen es s) {es' : List Event} {s' : Session}
    (hpopulated : populated es' = populated es) (hgroup : s'.group = s.group)
    (hoptions : s'.options = s.options) : Sticks o chosen es' s' := by
  constructor
  · rw [hpopulated, hgroup]
    exact h.untouched
  · rw [hpopulated, hgroup, hoptions]
    exact h.followed
  · rw [hpopulated, hgroup]
    exact h.lost

/-- A lost choice is carried on as the first option, whose label is on offer with every snapshot. -/
theorem Sticks.delivered (h : Sticks o chosen es s) (hattached : s.attached = true) {p : Snapshot}
    (hp : p.groups.isEmpty = false) (now : Int) {es' : List Event}
    (hpopulated : populated es' = populated es ++ [p]) :
    Sticks o chosen es' (s.step o now (.snapshot p)) := by
  constructor
  · intro hnil
    rw [hpopulated] at hnil
    exact absurd hnil (List.append_ne_nil_of_right_ne_nil _ (List.cons_ne_nil _ _))
  · intro _ hall
    simp only [hpopulated, List.forall_mem_append, List.forall_mem_singleton] at hall
    obtain ⟨position, hgroup⟩ := h.label hall.1
    rw [Session.options_delivered hattached hp, Session.group_carried hgroup hattached hp,
      if_pos hall.2]
    exact ⟨hall.2, rfl⟩
  · intro hlost
    by_cases hall : ∀ q ∈ populated es, chosen.label ∈ o.labelsOffered q
    · obtain ⟨position, hgroup⟩ := h.label hall
      obtain ⟨q, hq, hmissing⟩ := hlost
      rw [hpopulated, List.mem_append, List.mem_singleton] at hq
      obtain hq | rfl := hq
      · exact absurd (hall q hq) hmissing
      · rw [Session.group_carried hgroup hattached hp, if_neg hmissing]
    · simp only [not_forall, exists_prop] at hall
      rw [Session.group_carried (h.lost hall) hattached hp,
        if_pos (o.anyGroup_mem_labelsOffered p), o.idxOf_anyGroup]

theorem Stage.sticks_run {x : Stage} (hattached : x.session.attached = true)
    (hchosen : x.session.group = some chosen) (hes : ∀ e ∈ es, e.isPassive = true) :
    Sticks o chosen es (x.run o es).session := by
  induction es using List.reverseRecOn with
  | nil => exact sticks_nil hchosen
  | append_singleton es e ih =>
      obtain ⟨hbefore, he⟩ := List.forall_mem_append.mp hes
      have hpassive : e.isPassive = true := he e (List.mem_singleton_self e)
      have hpopulated := populated_concat (detach_not_mem_of_passive hbefore) e
      rw [Stage.run_concat]
      cases hbrought : e.snapshot?.filter (!·.groups.isEmpty) with
      | none =>
          rw [hbrought, Option.toList_none, List.append_nil] at hpopulated
          obtain ⟨hgroup, hoptions⟩ := Stage.unmoved_next hpassive hbrought
          exact (ih hbefore).unmoved hpopulated hgroup hoptions
      | some p =>
          rw [hbrought, Option.toList_some] at hpopulated
          obtain ⟨rfl, hp⟩ := eq_of_populated hbrought
          exact (ih hbefore).delivered (Stage.attached_run hattached hbefore) hp _ hpopulated

end Sticks

/--
A choice made at any time sticks as long as its label is on offer. What is neither another choice
nor a snapshot with groups does not touch it.
-/
theorem sticks_while_offered (o : Outlook) (target : Option String) (saved : Option SavedSelection)
    (start : Int) (before : List Event) (position : Nat) (chosen : ChosenGroup)
    (hdetach : .trigger .detach ∉ before)
    (hchosen : ((Stage.start o target saved start).run o
      (before ++ [.trigger (.groupOption position)])).session.group = some chosen)
    (es : List Event) (hes : ∀ e ∈ es, e.isPassive = true) :
    let x := (Stage.start o target saved start).run o
      (before ++ [.trigger (.groupOption position)] ++ es)
    Sticks o chosen es x.session ∧
      ∀ e, e.isPassive = true → e.snapshot?.filter (!·.groups.isEmpty) = none →
        (x.next o e).session.group = x.session.group := by
  intro x
  have hattached := (follows_run o target saved start
    (before ++ [.trigger (.groupOption position)])).attached.mpr (by simpa using hdetach)
  refine ⟨?_, ?_⟩
  · show Sticks o chosen es ((Stage.start o target saved start).run o _).session
    rw [Stage.run_append]
    exact Stage.sticks_run hattached hchosen hes
  · intro e hpassive hnone
    exact (Stage.unmoved_next hpassive hnone).1

/-- The label of the only group goes with the group, and does not come back with it. -/
theorem sticks_while_offered_cameraBack :
    let o : Outlook := ⟨{}, {}, .reversed⟩
    let camera := oneGroup "camera" "Camera"
    let location := oneGroup "location" "Location"
    let before : List Event := [.trigger (.snapshot camera)]
    let es : List Event := [.trigger (.snapshot {}), .trigger (.timeOption 2),
      .trigger (.snapshot location), .clock 9, .trigger (.snapshot camera)]
    let chosen := (Stage.start o none none 0).run o (before ++ [.trigger (.groupOption 1)])
    let x := (Stage.start o none none 0).run o (before ++ [.trigger (.groupOption 1)] ++ es)
    .trigger .detach ∉ before ∧ chosen.session.group = some ⟨1, "Camera"⟩ ∧
      (∀ e ∈ es, e.isPassive = true) ∧ Sticks o ⟨1, "Camera"⟩ es x.session ∧
      x.session.group = some ⟨0, "All permissions"⟩ := by
  intro o camera location before es chosen x
  have hdetach : .trigger .detach ∉ before := by decide
  have hchosen : chosen.session.group = some ⟨1, "Camera"⟩ :=
    (follows_run o none none 0 before).group_chosen hdetach rfl
      (groupOption_oneGroup "camera" "Camera" .reversed)
  have hpassive : ∀ e ∈ es, e.isPassive = true := by decide
  have hsticks := (sticks_while_offered o none none 0 before 1 ⟨1, "Camera"⟩ hdetach hchosen es
    hpassive).1
  refine ⟨hdetach, hchosen, hpassive, hsticks, hsticks.lost ⟨location, ?_, ?_⟩⟩
  · exact List.mem_cons_self ..
  · have hoptions : (o.options location).groups = _ :=
      groupOptions_oneGroup "location" "Location" .reversed
    rw [Outlook.labelsOffered, hoptions]
    decide

end AccessLedger
