import AccessLedger.Proofs.Session.Chosen

/-!
What holds of a session at any time. The chosen group and the chosen time are among the options, and
the filter in force is the one chosen. Target and saved choices are used up by the first choice of a
group; from then on a session would be the same whatever they were.
-/

namespace AccessLedger

open Event

theorem restoreTimePosition_of_lt {position : Nat} (h : position < Window.selectable.length) :
    restoreTimePosition (some position) = position :=
  if_pos h

theorem restoreTimePosition_lt (saved : Option Nat) :
    restoreTimePosition saved < Window.selectable.length := by
  cases saved with
  | none => decide
  | some position =>
      simp only [restoreTimePosition]
      split
      · assumption
      · decide

theorem optionsAfter_times (o : Outlook) (es : List Event) :
    (optionsAfter o es).times = timeOptions o.labels := by
  rw [optionsAfter]
  cases (populated es).getLast? with
  | none | some _ => rfl

theorem optionsAfter_groups (o : Outlook) (es : List Event) :
    (optionsAfter o es).groups = [] ∨
      ∃ groups, Offers o.labels.anyGroup (optionsAfter o es).groups groups := by
  rw [optionsAfter]
  cases (populated es).getLast? with
  | none => exact .inl rfl
  | some p => exact .inr ⟨_, offers_groupOptions p o.rules o.labels o.collation⟩

namespace Session

/-- Target and saved choices do not outlast the first choice of a group. -/
def HintsUsedUp (s : Session) : Prop :=
  s.group ≠ none → s.target = none ∧ s.saved = none

def withoutHints (s : Session) : Session :=
  { s with target := none, saved := none }

section HintsUsedUp

variable {s : Session}

theorem hintsUsedUp_start (o : Outlook) (target : Option String) (saved : Option SavedSelection) :
    (start o target saved).HintsUsedUp :=
  fun hgroup => absurd rfl hgroup

theorem HintsUsedUp.rebuild (h : s.HintsUsedUp) (o : Outlook) (p : Snapshot) :
    (s.rebuild o p).HintsUsedUp := by
  intro _
  refine ⟨rfl, ?_⟩
  cases hgroup : s.group with
  | none => simp [Session.rebuild, hgroup]
  | some chosen =>
      have hsaved : s.saved = none := (h (by simp [hgroup])).2
      simp [Session.rebuild, hgroup, hsaved]

/-- A choice can only be made where there are options, and there the hints are used up already. -/
theorem HintsUsedUp.chooseGroup (h : s.HintsUsedUp) (hplaced : s.Placed) (position : Nat) :
    (s.chooseGroup position).HintsUsedUp := by
  intro hgroup
  apply h
  intro hnone
  apply hgroup
  rw [(Placed.chooseGroup s position).none_iff]
  exact hplaced.none_iff.mp hnone

theorem HintsUsedUp.step (h : s.HintsUsedUp) (hplaced : s.Placed) (o : Outlook) (now : Int)
    (t : Trigger) : (s.step o now t).HintsUsedUp := by
  refine step_of_altered (fun _ _ _ h => h) h o now ?_
  cases t with
  | snapshot p =>
      simp only [altered]
      split
      · exact h
      · exact h.rebuild o p
  | groupOption position => exact h.chooseGroup hplaced position
  | timeOption _ | systemApps _ | recompute | detach => exact h

end HintsUsedUp

theorem timePosition_step {s : Session} (h : s.timePosition < Window.selectable.length)
    (o : Outlook) (now : Int) (t : Trigger) :
    (s.step o now t).timePosition < Window.selectable.length := by
  refine step_of_altered (P := fun s => s.timePosition < _) (fun _ _ _ h => h) h o now ?_
  cases t with
  | snapshot p =>
      simp only [altered]
      split <;> exact h
  | timeOption position => exact restoreTimePosition_lt (some position)
  | groupOption _ | systemApps _ | recompute | detach => exact h

theorem withoutHints_of_usedUp {s : Session} (h : s.target = none ∧ s.saved = none) :
    s.withoutHints = s := by
  obtain ⟨htarget, hsaved⟩ := h
  rw [withoutHints, ← htarget, ← hsaved]

section Chosen

variable {s : Session} (o : Outlook)

/-- Options never run out again, and so a chosen group is only ever replaced by another. -/
theorem Placed.group_ne_none_step (hplaced : s.Placed) (hgroup : s.group ≠ none) (now : Int)
    (t : Trigger) : (s.step o now t).group ≠ none := by
  have hoptions : (s.step o now t).options.groups ≠ [] := by
    refine step_of_altered (P := fun s => s.options.groups ≠ []) (fun _ _ _ h => h) ?_ o now ?_
    · exact fun hnil => hgroup (hplaced.none_iff.mpr hnil)
    · rw [options_altered]
      split
      · exact List.cons_ne_nil _ _
      · exact fun hnil => hgroup (hplaced.none_iff.mpr hnil)
  exact fun hnone => hoptions ((hplaced.step o now t).none_iff.mp hnone)

theorem withoutHints_rebuild (hgroup : s.group ≠ none) (p : Snapshot) :
    (s.rebuild o p).withoutHints = s.withoutHints.rebuild o p := by
  obtain ⟨chosen, hchosen⟩ := Option.ne_none_iff_exists'.mp hgroup
  have hhints : s.groupHints o p = s.withoutHints.groupHints o p := by
    simp only [groupHints, withoutHints, hchosen]
  simp only [rebuild, hhints]
  simp [withoutHints]

/-- While a group is chosen, nothing that a trigger does goes by the hints. -/
theorem withoutHints_step (hgroup : s.group ≠ none) (now : Int) (t : Trigger) :
    (s.step o now t).withoutHints = s.withoutHints.step o now t := by
  have haltered : (s.altered o t).withoutHints = s.withoutHints.altered o t := by
    cases t with
    | snapshot p =>
        simp only [altered]
        split
        · rfl
        · rw [← withoutHints_rebuild o hgroup]
          rfl
    | groupOption _ | timeOption _ | systemApps _ | recompute | detach => rfl
  cases hattached : s.attached with
  | false => rw [step_of_detached hattached, step_of_detached (s := s.withoutHints) hattached]
  | true =>
      by_cases ht : t = .detach
      · rw [ht, step_detach hattached, step_detach (s := s.withoutHints) hattached]
        rfl
      · rw [step_eq_refresh hattached o now ht,
          step_eq_refresh (s := s.withoutHints) hattached o now ht,
          ← haltered, refresh_eq, refresh_eq]
        rfl

end Chosen

end Session

theorem Stage.withoutHints_run (o : Outlook) {x : Stage} (hplaced : x.session.Placed)
    (hgroup : x.session.group ≠ none) (es : List Event) :
    (x.run o es).session.withoutHints =
      (Stage.run o ⟨x.session.withoutHints, x.now⟩ es).session := by
  induction es generalizing x with
  | nil => rfl
  | cons e es ih =>
      cases e with
      | clock now => exact ih (x := ⟨x.session, now⟩) hplaced hgroup
      | trigger t =>
          have hnext := ih (x := x.next o (.trigger t)) (hplaced.step o x.now t)
            (hplaced.group_ne_none_step o hgroup x.now t)
          rw [Stage.next, Session.withoutHints_step o hgroup] at hnext
          exact hnext

/--
The choices of a session agree with each other, with the options and with the filter in force.
-/
structure Coherent (o : Outlook) (x : Stage) : Prop where
  times : x.session.options.times = timeOptions o.labels
  time_lt : x.session.timePosition < x.session.options.times.length
  groups : x.session.options.groups = [] ∨
    ∃ groups, Offers o.labels.anyGroup x.session.options.groups groups
  unchosen : x.session.group = none ↔ x.session.options.groups = []
  chosen : ∀ chosen, x.session.group = some chosen →
    chosen.position < x.session.options.groups.length ∧
    x.session.options.groups[chosen.position]?.map (·.label) = some chosen.label ∧
    x.session.selection.groupLabel = if chosen.position = 0 then none else some chosen.label
  usedUp : x.session.group ≠ none → x.session.target = none ∧ x.session.saved = none
  /-- With any other target and saved choices, the session would go on in the same way. -/
  inert : x.session.group ≠ none →
    ∀ (target : Option String) (saved : Option SavedSelection) (later : List Event),
      let other : Session := { x.session with target := target, saved := saved }
      (Stage.run o ⟨other, x.now⟩ later).session.withoutHints = (x.run o later).session

/-- What a run keeps of itself, whatever options it comes to have. -/
theorem kept_run (o : Outlook) (target : Option String) (saved : Option SavedSelection)
    (start : Int) (es : List Event) :
    let s := ((Stage.start o target saved start).run o es).session
    s.Placed ∧ s.HintsUsedUp ∧ s.timePosition < Window.selectable.length := by
  refine Stage.run_of_step (P := fun s => s.Placed ∧ s.HintsUsedUp ∧ s.timePosition < _) o ?_ ?_
  · intro t _ s now h
    obtain ⟨hplaced, hused, htime⟩ := h
    exact ⟨hplaced.step o now t, hused.step hplaced o now t,
      Session.timePosition_step htime o now t⟩
  · exact ⟨Session.placed_start o target saved, Session.hintsUsedUp_start o target saved,
      restoreTimePosition_lt _⟩

theorem coherent_run (o : Outlook) (target : Option String) (saved : Option SavedSelection)
    (start : Int) (es : List Event) :
    Coherent o ((Stage.start o target saved start).run o es) := by
  obtain ⟨hplaced, hused, htime⟩ := kept_run o target saved start es
  have hoptions := (follows_run o target saved start es).options
  refine ⟨?_, ?_, ?_, hplaced.none_iff, ?_, hused, ?_⟩
  · rw [hoptions, optionsAfter_times]
  · rw [hoptions, optionsAfter_times, timeOptions, List.length_map]
    exact htime
  · rw [hoptions]
    exact optionsAfter_groups o es
  · intro chosen hchosen
    have hlabel := hplaced.label chosen hchosen
    obtain ⟨option, hget, _⟩ := Option.map_eq_some_iff.mp hlabel
    have hlt := (List.getElem?_eq_some_iff.mp hget).1
    refine ⟨hlt, hlabel, ?_⟩
    rw [Session.groupLabel_selection hchosen]
    rw [hoptions] at hlt hlabel ⊢
    obtain hnil | ⟨groups, hoffers⟩ := optionsAfter_groups o es
    · rw [hnil] at hlt
      exact absurd hlt (Nat.not_lt_zero _)
    · exact hoffers.groupLabel_eq hlabel
  · intro hgroup target' saved' later
    let x := (Stage.start o target saved start).run o es
    let other : Session := { x.session with target := target', saved := saved' }
    have hother : other.Placed := ⟨hplaced.none_iff, hplaced.label⟩
    have hsame : other.withoutHints = x.session := Session.withoutHints_of_usedUp (hused hgroup)
    have hrun := Stage.withoutHints_run o (x := ⟨other, x.now⟩) hother hgroup later
    rw [hsame] at hrun
    exact hrun

end AccessLedger
