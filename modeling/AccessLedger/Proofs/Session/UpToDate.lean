import AccessLedger.Proofs.Session.Run
import Mathlib.Data.List.Induction

/-!
A session never shows anything stale. After any events its view is the whole view of the last
delivered snapshot under the present choices, as of the last trigger, with the options of the last
snapshot that had groups; every trigger is answered with that view; and a detached session shows
nothing and stays as it is.
-/

namespace AccessLedger

open Event

/--
The options of the last snapshot that had groups; before it, times are on offer but no groups.
-/
def optionsAfter (o : Outlook) (es : List Event) : FilterOptions :=
  match (populated es).getLast? with
  | some p => o.options p
  | none => ⟨[], timeOptions o.labels⟩

/-- The state of a session, read off the events behind it. -/
structure Follows (o : Outlook) (start : Int) (es : List Event) (x : Stage) : Prop where
  now : x.now = clockAfter start es
  attached : x.session.attached = true ↔ .trigger .detach ∉ es
  snapshot : x.session.snapshot = (delivered es).getLast?
  options : x.session.options = optionsAfter o es
  detached : .trigger .detach ∈ es → x.session.view = none
  view : .trigger .detach ∉ es → x.session.view =
    (delivered es).getLast?.bind fun p => (triggerTimes start es).getLast?.map fun now =>
      o.viewWith x.session.options p x.session.selection now

theorem optionsAfter_of_detached (o : Outlook) {es : List Event} (h : .trigger .detach ∈ es)
    (e : Event) : optionsAfter o (es ++ [e]) = optionsAfter o es := by
  rw [optionsAfter, getLast?_populated_concat, if_pos h]
  rfl

/-- An event leaves the options alone, unless it brings a snapshot with groups. -/
theorem optionsAfter_of_attached (o : Outlook) {es : List Event} (h : .trigger .detach ∉ es)
    (e : Event) :
    optionsAfter o (es ++ [e]) =
      match e.snapshot?.filter (!·.groups.isEmpty) with
      | some p => { optionsAfter o es with groups := (o.options p).groups }
      | none => optionsAfter o es := by
  rw [optionsAfter, getLast?_populated_concat, if_neg h]
  cases e.snapshot?.filter (!·.groups.isEmpty) with
  | none => rfl
  | some p =>
      rw [Option.some_or, optionsAfter]
      cases (populated es).getLast? with
      | none | some _ => rfl

theorem follows_start (o : Outlook) (target : Option String) (saved : Option SavedSelection)
    (start : Int) : Follows o start [] (.start o target saved start) where
  now := rfl
  attached := iff_of_true rfl List.not_mem_nil
  snapshot := rfl
  options := rfl
  detached _ := rfl
  view _ := rfl

section Next

variable {o : Outlook} {start : Int} {es : List Event} {x : Stage}

theorem Follows.now_next (h : Follows o start es x) (e : Event) :
    (x.next o e).now = clockAfter start (es ++ [e]) := by
  rw [clockAfter_append, ← h.now]
  cases e with
  | trigger _ | clock _ => rfl

theorem Follows.attached_eq_false (h : Follows o start es x) (hdetach : .trigger .detach ∈ es) :
    x.session.attached = false := by
  rw [← Bool.not_eq_true, h.attached]
  exact not_not_intro hdetach

theorem Follows.next_of_detached (h : Follows o start es x) (hdetach : .trigger .detach ∈ es)
    (e : Event) : Follows o start (es ++ [e]) (x.next o e) := by
  have hmem : .trigger .detach ∈ es ++ [e] := List.mem_append_left _ hdetach
  have hattached := h.attached_eq_false hdetach
  have hsession : (x.next o e).session = x.session :=
    Stage.session_run_of_detached o hattached [e]
  refine ⟨h.now_next e, ?_, ?_, ?_, ?_, ?_⟩
  · rw [hsession, hattached]
    exact iff_of_false Bool.false_ne_true (not_not_intro hmem)
  · rw [hsession, getLast?_delivered_concat, if_pos hdetach]
    exact h.snapshot
  · rw [hsession, optionsAfter_of_detached o hdetach]
    exact h.options
  · intro _
    rw [hsession]
    exact h.detached hdetach
  · intro hnot
    exact absurd hmem hnot

theorem Follows.next_clock (h : Follows o start es x) (hdetach : .trigger .detach ∉ es)
    (later : Int) : Follows o start (es ++ [.clock later]) (x.next o (.clock later)) := by
  have hmem : .trigger .detach ∉ es ++ [.clock later] := by simpa using hdetach
  have hdelivered : (delivered (es ++ [.clock later])).getLast? = (delivered es).getLast? := by
    rw [getLast?_delivered_concat, if_neg hdetach]
    rfl
  have htimes : triggerTimes start (es ++ [.clock later]) = triggerTimes start es := by
    rw [triggerTimes_append]
    exact List.append_nil _
  refine ⟨h.now_next _, ?_, ?_, ?_, ?_, ?_⟩
  · exact iff_of_true (h.attached.mpr hdetach) hmem
  · rw [hdelivered]
    exact h.snapshot
  · rw [optionsAfter_of_attached o hdetach]
    exact h.options
  · intro hnot
    exact absurd hnot hmem
  · intro _
    rw [hdelivered, htimes]
    exact h.view hdetach

theorem Follows.next_detach (h : Follows o start es x) (hdetach : .trigger .detach ∉ es) :
    Follows o start (es ++ [.trigger .detach]) (x.next o (.trigger .detach)) := by
  have hmem : .trigger .detach ∈ es ++ [.trigger .detach] := by simp
  have hsession : (x.next o (.trigger .detach)).session =
      { x.session with attached := false, view := none } :=
    Session.step_detach (h.attached.mpr hdetach) o x.now
  refine ⟨h.now_next _, ?_, ?_, ?_, ?_, ?_⟩
  · rw [hsession]
    exact iff_of_false Bool.false_ne_true (not_not_intro hmem)
  · rw [hsession, getLast?_delivered_concat, if_neg hdetach]
    exact h.snapshot
  · rw [hsession, optionsAfter_of_attached o hdetach]
    exact h.options
  · intro _
    rw [hsession]
  · intro hnot
    exact absurd hmem hnot

theorem Follows.next_trigger (h : Follows o start es x) (hdetach : .trigger .detach ∉ es)
    {t : Trigger} (ht : t ≠ .detach) :
    Follows o start (es ++ [.trigger t]) (x.next o (.trigger t)) := by
  have hmem : .trigger .detach ∉ es ++ [.trigger t] := by
    rw [List.mem_append, List.mem_singleton]
    intro h
    obtain h | h := h
    · exact hdetach h
    · exact ht (Event.trigger.inj h).symm
  have hattached := h.attached.mpr hdetach
  have hsession := Session.step_eq_refresh hattached o x.now ht
  rw [Session.refresh_eq] at hsession
  have hdelivered : (delivered (es ++ [.trigger t])).getLast? =
      (x.session.altered o t).snapshot := by
    rw [getLast?_delivered_concat, if_neg hdetach, Session.snapshot_altered, h.snapshot]
  refine ⟨h.now_next _, ?_, ?_, ?_, ?_, ?_⟩
  · refine iff_of_true ?_ hmem
    rw [Stage.next, hsession, ← hattached]
    exact (Session.frame_altered o x.session t).1
  · rw [Stage.next, hsession, hdelivered]
  · rw [Stage.next, hsession, optionsAfter_of_attached o hdetach, ← h.options]
    exact Session.options_altered o x.session t
  · intro hnot
    exact absurd hnot hmem
  · intro _
    rw [hdelivered, triggerTimes_append, triggerTimes, triggerTimes, List.getLast?_concat, ← h.now,
      Stage.next, hsession]
    cases hsnapshot : (x.session.altered o t).snapshot with
    | some p => rfl
    | none =>
        -- Nothing was delivered so far, so the view that is left standing is no view at all.
        have hnone : x.session.snapshot = none := by
          rw [Session.snapshot_altered] at hsnapshot
          exact (Option.or_eq_none_iff.mp hsnapshot).2
        show (x.session.altered o t).view = none
        rw [(Session.frame_altered o x.session t).2, h.view hdetach, ← h.snapshot, hnone]
        rfl

/-- One event takes a session that follows the events behind it to one that follows them all. -/
theorem Follows.next (h : Follows o start es x) (e : Event) :
    Follows o start (es ++ [e]) (x.next o e) := by
  by_cases hdetach : .trigger .detach ∈ es
  · exact h.next_of_detached hdetach e
  cases e with
  | clock later => exact h.next_clock hdetach later
  | trigger t =>
      by_cases ht : t = .detach
      · subst ht
        exact h.next_detach hdetach
      · exact h.next_trigger hdetach ht

end Next

theorem follows_run (o : Outlook) (target : Option String) (saved : Option SavedSelection)
    (start : Int) (es : List Event) :
    Follows o start es ((Stage.start o target saved start).run o es) := by
  induction es using List.reverseRecOn with
  | nil => exact follows_start o target saved start
  | append_singleton es e ih =>
      rw [Stage.run_concat]
      exact ih.next e

/-- Nothing that a session shows after these events is stale or half-built. -/
structure UpToDate (o : Outlook) (start : Int) (es : List Event) (x : Stage) : Prop where
  attached : x.session.attached = true ↔ .trigger .detach ∉ es
  shown : x.session.view.isSome ↔ x.session.attached = true ∧ delivered es ≠ []
  /-- Each trigger is answered with the view that it leaves. -/
  answered : ∀ t, x.session.answer o x.now t = (x.next o (.trigger t)).session.view
  fresh : ∀ v, x.session.view = some v →
    v.options = x.session.options ∧
    ∃ s now, (delivered es).getLast? = some s ∧ (triggerTimes start es).getLast? = some now ∧
      v.tree = (o.view s x.session.selection now).tree ∧
      v.hasSystemApps = (o.view s x.session.selection now).hasSystemApps
  options : x.session.options = optionsAfter o es
  /-- Whatever comes after a detachment changes nothing and is not answered. -/
  ended : .trigger .detach ∈ es → ∀ later : List Event,
    (x.run o later).session.view = none ∧
    (x.run o later).session.options = x.session.options ∧
    (x.run o later).session.selection = x.session.selection ∧
    (x.run o later).session.savedSelection = x.session.savedSelection ∧
    ∀ t, (x.run o later).session.answer o (x.run o later).now t = none

section Follows

variable {o : Outlook} {start : Int} {es : List Event} {x : Stage}

/--
Only a detachment or the lack of any snapshot keeps a trigger unanswered, and both leave no view.
-/
theorem Follows.answer_eq (h : Follows o start es x) (t : Trigger) :
    x.session.answer o x.now t = (x.next o (.trigger t)).session.view := by
  have hnext := h.next (.trigger t)
  have hanswer : x.session.answer o x.now t =
      if (x.next o (.trigger t)).session.attached && (x.next o (.trigger t)).session.snapshot.isSome
      then (x.next o (.trigger t)).session.view else none := rfl
  rw [hanswer]
  split
  · rfl
  · rename_i hunanswered
    symm
    by_cases hdetach : .trigger .detach ∈ es ++ [.trigger t]
    · exact hnext.detached hdetach
    · rw [hnext.attached.mpr hdetach, Bool.true_and, Option.not_isSome_iff_eq_none] at hunanswered
      rw [hnext.view hdetach, ← hnext.snapshot, hunanswered]
      rfl

theorem Follows.isSome_view_iff (h : Follows o start es x) :
    x.session.view.isSome ↔ x.session.attached = true ∧ delivered es ≠ [] := by
  rw [h.attached]
  by_cases hdetach : .trigger .detach ∈ es
  · rw [h.detached hdetach]
    exact iff_of_false Bool.false_ne_true (fun hboth => hboth.1 hdetach)
  rw [h.view hdetach, and_iff_right hdetach]
  cases hlast : (delivered es).getLast? with
  | none =>
      refine iff_of_false Bool.false_ne_true (not_not_intro ?_)
      exact List.getLast?_eq_none_iff.mp hlast
  | some p =>
      have hmem : p ∈ delivered es := List.mem_of_getLast? hlast
      have htimes : (triggerTimes start es).getLast?.isSome := by
        rw [List.getLast?_isSome]
        exact triggerTimes_ne_nil (mem_of_mem_delivered hmem) start
      refine iff_of_true ?_ (List.ne_nil_of_mem hmem)
      rw [Option.bind_some, Option.isSome_map]
      exact htimes

theorem Follows.fresh_of_view (h : Follows o start es x) {v : View} (hv : x.session.view = some v) :
    v.options = x.session.options ∧
    ∃ s now, (delivered es).getLast? = some s ∧ (triggerTimes start es).getLast? = some now ∧
      v.tree = (o.view s x.session.selection now).tree ∧
      v.hasSystemApps = (o.view s x.session.selection now).hasSystemApps := by
  have hdetach : .trigger .detach ∉ es := by
    intro hmem
    rw [h.detached hmem] at hv
    exact absurd hv (Option.some_ne_none v).symm
  rw [h.view hdetach, Option.bind_eq_some_iff] at hv
  obtain ⟨s, hs, hv⟩ := hv
  obtain ⟨now, hnow, rfl⟩ := Option.map_eq_some_iff.mp hv
  exact ⟨rfl, s, now, hs, hnow, rfl, rfl⟩

theorem Follows.upToDate (h : Follows o start es x) : UpToDate o start es x where
  attached := h.attached
  shown := h.isSome_view_iff
  answered := h.answer_eq
  fresh _ := h.fresh_of_view
  options := h.options
  ended hdetach later := by
    have hattached := h.attached_eq_false hdetach
    rw [Stage.session_run_of_detached o hattached later]
    refine ⟨h.detached hdetach, rfl, rfl, rfl, ?_⟩
    intro t
    exact Session.answer_of_detached hattached o _ t

end Follows

theorem upToDate_run (o : Outlook) (target : Option String) (saved : Option SavedSelection)
    (start : Int) (es : List Event) :
    UpToDate o start es ((Stage.start o target saved start).run o es) :=
  (follows_run o target saved start es).upToDate

end AccessLedger
