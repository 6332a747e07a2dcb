import AccessLedger.Session
import Mathlib.Data.List.TakeWhile

/-!
Runs of a session: triggers arrive and the clock moves, in any order. A trigger alters the session
and then refreshes its view, which is said once here for all triggers. What has been delivered to a
session, and when it was triggered, is read off the events alone.
-/

namespace AccessLedger

inductive Event where
  | trigger (t : Trigger)
  /-- The clock comes to show another moment. -/
  | clock (now : Int)
deriving DecidableEq

structure Stage where
  session : Session
  now : Int

namespace Event

def snapshot? : Event → Option Snapshot
  | trigger (.snapshot s) => some s
  | _ => none

/-- The snapshots delivered before the session is detached. -/
def delivered (es : List Event) : List Snapshot :=
  (es.takeWhile (· != trigger .detach)).filterMap snapshot?

def populated (es : List Event) : List Snapshot :=
  (delivered es).filter (!·.groups.isEmpty)

def clockAfter (now : Int) : List Event → Int
  | [] => now
  | trigger _ :: es => clockAfter now es
  | clock later :: es => clockAfter later es

def triggerTimes (now : Int) : List Event → List Int
  | [] => []
  | trigger _ :: es => now :: triggerTimes now es
  | clock later :: es => triggerTimes later es

theorem clockAfter_append (now : Int) (es es' : List Event) :
    clockAfter now (es ++ es') = clockAfter (clockAfter now es) es' := by
  induction es generalizing now with
  | nil => rfl
  | cons e es ih =>
      cases e with
      | trigger t => exact ih now
      | clock later => exact ih later

theorem triggerTimes_append (now : Int) (es es' : List Event) :
    triggerTimes now (es ++ es') = triggerTimes now es ++ triggerTimes (clockAfter now es) es' := by
  induction es generalizing now with
  | nil => rfl
  | cons e es ih =>
      cases e with
      | trigger t => simp only [List.cons_append, triggerTimes, clockAfter, ih]
      | clock later => exact ih later

theorem mem_of_mem_delivered {s : Snapshot} {es : List Event} (h : s ∈ delivered es) :
    trigger (.snapshot s) ∈ es := by
  obtain ⟨e, he, hs⟩ := List.mem_filterMap.mp h
  have hmem : e ∈ es := (List.takeWhile_prefix _).subset he
  cases e with
  | clock now => exact absurd hs (by simp [snapshot?])
  | trigger t =>
      cases t with
      | snapshot p =>
          rw [snapshot?, Option.some.injEq] at hs
          rwa [hs] at hmem
      | groupOption _ | timeOption _ | systemApps _ | recompute | detach =>
          exact absurd hs (by simp [snapshot?])

theorem triggerTimes_ne_nil {t : Trigger} {es : List Event} (h : trigger t ∈ es) (now : Int) :
    triggerTimes now es ≠ [] := by
  induction es generalizing now with
  | nil => exact absurd h List.not_mem_nil
  | cons e es ih =>
      cases e with
      | trigger u => exact List.cons_ne_nil _ _
      | clock later =>
          rw [List.mem_cons] at h
          exact ih (h.resolve_left (by simp)) later

/-- After a detachment nothing is delivered any more. -/
theorem delivered_concat (es : List Event) (e : Event) :
    delivered (es ++ [e]) =
      if trigger .detach ∈ es then delivered es else delivered es ++ e.snapshot?.toList := by
  by_cases hdetach : trigger .detach ∈ es
  · rw [if_pos hdetach, delivered, delivered, List.takeWhile_append, if_neg]
    intro hlength
    have hall := List.takeWhile_eq_self_iff.mp
      ((List.takeWhile_prefix (· != trigger .detach)).eq_of_length hlength)
    exact absurd (hall _ hdetach) (by simp)
  · have hall : ∀ x ∈ es, (x != trigger .detach) = true := by
      intro x hx
      simp only [bne_iff_ne]
      intro heq
      subst heq
      exact hdetach hx
    rw [if_neg hdetach, delivered, delivered, List.takeWhile_append_of_pos hall,
      List.filterMap_append, List.takeWhile_eq_self_iff.mpr hall]
    congr 1
    by_cases he : e = trigger .detach
    · subst he
      rfl
    · rw [List.takeWhile_cons_of_pos (by simpa using he), List.takeWhile_nil]
      cases h : e.snapshot? <;> simp [h]

private theorem getLast?_append_toList {α : Type} (l : List α) (a : Option α) :
    (l ++ a.toList).getLast? = a.or l.getLast? := by
  cases a with
  | none => rw [Option.toList_none, List.append_nil, Option.none_or]
  | some a => rw [Option.toList_some, List.getLast?_concat, Option.some_or]

theorem getLast?_delivered_concat (es : List Event) (e : Event) :
    (delivered (es ++ [e])).getLast? =
      if trigger .detach ∈ es then (delivered es).getLast?
      else e.snapshot?.or (delivered es).getLast? := by
  rw [delivered_concat]
  split
  · rfl
  · exact getLast?_append_toList (delivered es) e.snapshot?

/-- Until a detachment each snapshot with groups counts. -/
theorem populated_concat {es : List Event} (hdetach : trigger .detach ∉ es) (e : Event) :
    populated (es ++ [e]) = populated es ++ (e.snapshot?.filter (!·.groups.isEmpty)).toList := by
  rw [populated, delivered_concat, if_neg hdetach, List.filter_append, ← Option.toList_filter]
  rfl

theorem getLast?_populated_concat (es : List Event) (e : Event) :
    (populated (es ++ [e])).getLast? =
      if trigger .detach ∈ es then (populated es).getLast?
      else (e.snapshot?.filter (!·.groups.isEmpty)).or (populated es).getLast? := by
  split
  · next hdetach => rw [populated, delivered_concat, if_pos hdetach, populated]
  · next hdetach =>
    rw [populated_concat hdetach]
    exact getLast?_append_toList (populated es) _

end Event

namespace Session

/-- A session after a trigger, before its view is refreshed. -/
def altered (o : Outlook) (s : Session) : Trigger → Session
  | .snapshot p => { (if p.groups.isEmpty then s else s.rebuild o p) with snapshot := some p }
  | .groupOption position => s.chooseGroup position
  | .timeOption position => { s with timePosition := restoreTimePosition (some position) }
  | .systemApps shown => { s with showSystem := shown }
  | .recompute | .detach => s

theorem step_of_detached {s : Session} (h : s.attached = false) (o : Outlook) (now : Int)
    (t : Trigger) : s.step o now t = s :=
  if_neg (by rw [h]; exact Bool.false_ne_true)

theorem answer_of_detached {s : Session} (h : s.attached = false) (o : Outlook) (now : Int)
    (t : Trigger) : s.answer o now t = none := by
  rw [answer, step_of_detached h, h]
  rfl

theorem step_detach {s : Session} (h : s.attached = true) (o : Outlook) (now : Int) :
    s.step o now .detach = { s with attached := false, view := none } :=
  if_pos h

/-- Every trigger but a detachment ends with a refreshed view. -/
theorem step_eq_refresh {s : Session} (h : s.attached = true) (o : Outlook) (now : Int)
    {t : Trigger} (ht : t ≠ .detach) : s.step o now t = (s.altered o t).refresh o now := by
  cases t with
  | detach => exact absurd rfl ht
  | snapshot _ | groupOption _ | timeOption _ | systemApps _ | recompute => exact if_pos h

/-- A refresh changes nothing but the view. -/
theorem refresh_eq (o : Outlook) (now : Int) (s : Session) :
    s.refresh o now =
      { s with view :=
        (s.snapshot.map fun p => o.viewWith s.options p s.selection now).or s.view } := by
  cases s with
  | mk snapshot =>
      cases snapshot with
      | none | some _ => rfl

section Altered

variable (o : Outlook) (s : Session) (t : Trigger)

/-- The view is left to the refresh, and only a detachment detaches. -/
theorem frame_altered :
    (s.altered o t).attached = s.attached ∧ (s.altered o t).view = s.view := by
  cases t with
  | snapshot p =>
      simp only [altered]
      split <;> exact ⟨rfl, rfl⟩
  | groupOption _ | timeOption _ | systemApps _ | recompute | detach => exact ⟨rfl, rfl⟩

theorem snapshot_altered :
    (s.altered o t).snapshot = (Event.trigger t).snapshot?.or s.snapshot := by
  cases t with
  | snapshot p => rfl
  | groupOption _ | timeOption _ | systemApps _ | recompute | detach => rfl

/-- Only a snapshot with groups brings other options, and only other group options. -/
theorem options_altered :
    (s.altered o t).options =
      match (Event.trigger t).snapshot?.filter (!·.groups.isEmpty) with
      | some p => { s.options with groups := (o.options p).groups }
      | none => s.options := by
  cases t with
  | snapshot p =>
      simp only [altered, Event.snapshot?, Option.filter_some]
      cases p.groups.isEmpty <;> rfl
  | groupOption _ | timeOption _ | systemApps _ | recompute | detach => rfl

end Altered

/-- A snapshot with groups first brings its options. -/
theorem step_populated {s : Session} (h : s.attached = true) (o : Outlook) (now : Int)
    {p : Snapshot} (hp : p.groups.isEmpty = false) :
    s.step o now (.snapshot p) = { s.rebuild o p with snapshot := some p }.refresh o now := by
  have hne : Trigger.snapshot p ≠ .detach := by
    intro heq
    cases heq
  rw [step_eq_refresh h o now hne, altered, hp]
  rfl

/-- What view and attachment do not bear on outlasts a trigger if it outlasts the alteration. -/
theorem step_of_altered {P : Session → Prop}
    (hframe : ∀ s attached view, P s → P { s with attached := attached, view := view })
    {s : Session} (h : P s) (o : Outlook) (now : Int) {t : Trigger} (haltered : P (s.altered o t)) :
    P (s.step o now t) := by
  cases hattached : s.attached with
  | false =>
      rw [step_of_detached hattached]
      exact h
  | true =>
      by_cases ht : t = .detach
      · rw [ht, step_detach hattached]
        exact hframe s _ _ h
      · rw [step_eq_refresh hattached o now ht, refresh_eq]
        exact hframe (s.altered o t) _ _ haltered

end Session

namespace Stage

def start (o : Outlook) (target : Option String) (saved : Option SavedSelection) (now : Int) :
    Stage :=
  ⟨.start o target saved, now⟩

def next (o : Outlook) (x : Stage) : Event → Stage
  | .trigger t => { x with session := x.session.step o x.now t }
  | .clock now => { x with now := now }

def run (o : Outlook) (x : Stage) (es : List Event) : Stage :=
  es.foldl (next o) x

theorem run_append (o : Outlook) (x : Stage) (es es' : List Event) :
    x.run o (es ++ es') = (x.run o es).run o es' :=
  List.foldl_append

theorem run_concat (o : Outlook) (x : Stage) (es : List Event) (e : Event) :
    x.run o (es ++ [e]) = (x.run o es).next o e := by
  rw [run_append]
  rfl

/-- What each trigger of a run keeps, the run keeps. -/
theorem run_of_step {P : Session → Prop} (o : Outlook) {es : List Event}
    (hstep : ∀ t, .trigger t ∈ es → ∀ s now, P s → P (s.step o now t)) {x : Stage}
    (h : P x.session) : P (x.run o es).session := by
  induction es generalizing x with
  | nil => exact h
  | cons e es ih =>
      apply ih fun t ht => hstep t (List.mem_cons_of_mem _ ht)
      cases e with
      | trigger t => exact hstep t (List.mem_cons_self ..) x.session x.now h
      | clock now => exact h

theorem session_run_of_detached (o : Outlook) {x : Stage} (h : x.session.attached = false)
    (es : List Event) : (x.run o es).session = x.session := by
  refine run_of_step (P := (· = x.session)) o ?_ rfl
  intro t _ s now hs
  rw [hs]
  exact Session.step_of_detached h o now t

end Stage
end AccessLedger
