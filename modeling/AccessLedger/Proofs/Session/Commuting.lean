import AccessLedger.Proofs.Session.Chosen

/-!
Triggers at one moment whose order does not matter. Each trigger alters choices of one kind and
leaves a whole new view behind, so the time and the system apps can be chosen before or after
anything else, and of several choices in a row only the last of each kind is left.
-/

namespace AccessLedger

namespace Trigger

/-- What a trigger is about, whatever its value. -/
inductive Kind where
  | snapshot
  | groupOption
  | timeOption
  | systemApps
  | recompute
  | detach
deriving DecidableEq

def kind : Trigger → Kind
  | .snapshot _ => .snapshot
  | groupOption _ => .groupOption
  | timeOption _ => .timeOption
  | systemApps _ => .systemApps
  | .recompute => .recompute
  | .detach => .detach

/-- Whether a trigger is a choice of the user among the filters. -/
def isChoice : Trigger → Bool
  | groupOption _ | timeOption _ | systemApps _ => true
  | _ => false

/-- The last trigger of a kind, which carries the last value given to it. -/
def lastOf (kind : Kind) (ts : List Trigger) : Option Trigger :=
  (ts.filter (·.kind = kind)).getLast?

theorem lastOf_concat (kind : Kind) (ts : List Trigger) (t : Trigger) :
    lastOf kind (ts ++ [t]) = if t.kind = kind then some t else lastOf kind ts := by
  rw [lastOf, List.filter_append]
  split
  · next h => rw [List.filter_cons_of_pos (by simpa using h), List.filter_nil, List.getLast?_concat]
  · next h =>
    rw [List.filter_cons_of_neg (by simpa using h), List.filter_nil, List.append_nil, lastOf]

theorem kind_of_lastOf {kind : Kind} {ts : List Trigger} {t : Trigger}
    (h : lastOf kind ts = some t) : t.kind = kind := by
  have hmem := List.mem_of_getLast? h
  rw [List.mem_filter] at hmem
  exact of_decide_eq_true hmem.2

theorem detach_not_mem_of_isChoice {ts : List Trigger} (hts : ∀ t ∈ ts, t.isChoice = true) :
    .detach ∉ ts :=
  fun hmem => absurd (hts _ hmem) Bool.false_ne_true

/-- A sequence without a trigger of any kind is empty. -/
theorem eq_nil_of_lastOf {ts : List Trigger} (h : ∀ kind, lastOf kind ts = none) : ts = [] := by
  rw [List.eq_nil_iff_forall_not_mem]
  intro t ht
  have hnil := List.getLast?_eq_none_iff.mp (h t.kind)
  have hmem : t ∈ ts.filter (·.kind = t.kind) := by
    rw [List.mem_filter]
    exact ⟨ht, decide_eq_true rfl⟩
  rw [hnil] at hmem
  cases hmem

end Trigger

namespace Session

section Altered

variable (o : Outlook) (s : Session)

/-- The alteration by a trigger, if there is one. -/
def alteredBy? (t : Option Trigger) : Session :=
  t.elim s (s.altered o)

/-- An alteration goes by the choices alone, whatever view there is. -/
theorem altered_with_view (view : Option View) (t : Trigger) :
    { s with view := view }.altered o t = { s.altered o t with view := view } := by
  cases t with
  | snapshot p =>
      simp only [altered]
      split <;> rfl
  | groupOption _ | timeOption _ | systemApps _ | recompute | detach => rfl

/-- The time and the system apps have no part in what the other triggers alter. -/
theorem altered_comm {t t' : Trigger} (ht : t.kind = .timeOption ∨ t.kind = .systemApps)
    (hne : t'.kind ≠ t.kind) :
    (s.altered o t).altered o t' = (s.altered o t').altered o t := by
  cases t with
  | timeOption position =>
      cases t' with
      | snapshot p =>
          simp only [altered]
          split <;> rfl
      | timeOption _ => exact absurd rfl hne
      | groupOption _ | systemApps _ | recompute | detach => rfl
  | systemApps shown =>
      cases t' with
      | snapshot p =>
          simp only [altered]
          split <;> rfl
      | systemApps _ => exact absurd rfl hne
      | groupOption _ | timeOption _ | recompute | detach => rfl
  | snapshot _ | groupOption _ | recompute | detach => simp [Trigger.kind] at ht

/-- A choice leaves nothing of an earlier one of its kind. -/
theorem altered_absorb {t t' : Trigger} (ht' : t'.isChoice = true) (hkind : t.kind = t'.kind) :
    (s.altered o t).altered o t' = s.altered o t' := by
  cases t' with
  | groupOption _ =>
      cases t with
      | groupOption _ => rfl
      | snapshot _ | timeOption _ | systemApps _ | recompute | detach => cases hkind
  | timeOption _ =>
      cases t with
      | timeOption _ => rfl
      | snapshot _ | groupOption _ | systemApps _ | recompute | detach => cases hkind
  | systemApps _ =>
      cases t with
      | systemApps _ => rfl
      | snapshot _ | groupOption _ | timeOption _ | recompute | detach => cases hkind
  | snapshot _ | recompute | detach => cases ht'

theorem alteredBy?_lastOf_comm {kind : Trigger.Kind}
    (hkind : kind = .timeOption ∨ kind = .systemApps) {t : Trigger} (hne : t.kind ≠ kind)
    (ts : List Trigger) :
    (s.alteredBy? o (Trigger.lastOf kind ts)).altered o t =
      (s.altered o t).alteredBy? o (Trigger.lastOf kind ts) := by
  cases hlast : Trigger.lastOf kind ts with
  | none => rfl
  | some last =>
      rw [← Trigger.kind_of_lastOf hlast] at hkind hne
      exact altered_comm o s hkind hne

theorem alteredBy?_lastOf_absorb {t : Trigger} (ht : t.isChoice = true) (ts : List Trigger) :
    (s.alteredBy? o (Trigger.lastOf t.kind ts)).altered o t = s.altered o t := by
  cases hlast : Trigger.lastOf t.kind ts with
  | none => rfl
  | some last => exact altered_absorb o s ht (Trigger.kind_of_lastOf hlast)

end Altered

section Refresh

variable (o : Outlook) (now : Int)

/-- A view is of no use once another one is made at the same moment. -/
theorem refresh_altered_refresh (s : Session) (t : Trigger) :
    ((s.refresh o now).altered o t).refresh o now = (s.altered o t).refresh o now := by
  cases hsnapshot : s.snapshot with
  | none =>
      have hsame : s.refresh o now = s := by rw [refresh, hsnapshot]
      rw [hsame]
  | some p =>
      obtain ⟨q, hq⟩ : ∃ q, (s.altered o t).snapshot = some q := by
        rw [snapshot_altered, hsnapshot]
        cases (Event.trigger t).snapshot? with
        | none => exact ⟨p, rfl⟩
        | some q => exact ⟨q, rfl⟩
      rw [refresh_eq o now s, altered_with_view, refresh_eq, refresh_eq]
      simp only [hq, Option.map_some, Option.some_or]
      rfl

theorem attached_foldl_altered (s : Session) (ts : List Trigger) :
    (ts.foldl (·.altered o ·) s).attached = s.attached := by
  induction ts generalizing s with
  | nil => rfl
  | cons t ts ih => rw [List.foldl_cons, ih, (frame_altered o s t).1]

/-- Of the views made by several triggers in a row the last one is left. -/
theorem foldl_step {s : Session} (hattached : s.attached = true) {ts : List Trigger}
    (hts : .detach ∉ ts) (hne : ts ≠ []) :
    ts.foldl (·.step o now ·) s = (ts.foldl (·.altered o ·) s).refresh o now := by
  induction ts using List.reverseRecOn with
  | nil => exact absurd rfl hne
  | append_singleton ts t ih =>
      rw [List.mem_append, List.mem_singleton, not_or] at hts
      have ht : t ≠ .detach := fun heq => hts.2 heq.symm
      rw [List.foldl_concat, List.foldl_concat]
      by_cases hnil : ts = []
      · rw [hnil]
        exact step_eq_refresh hattached o now ht
      · have hbefore : ((ts.foldl (·.altered o ·) s).refresh o now).attached = true := by
          rw [refresh_eq, attached_foldl_altered, hattached]
        rw [ih hts.1 hnil, step_eq_refresh hbefore o now ht, refresh_altered_refresh]

theorem foldl_step_of_detached {s : Session} (h : s.attached = false) (ts : List Trigger) :
    ts.foldl (·.step o now ·) s = s := by
  induction ts with
  | nil => rfl
  | cons t ts ih => rw [List.foldl_cons, step_of_detached h, ih]

end Refresh

/--
What is left of several choices in a row: the last group, the last time, the last word on system
apps.
-/
theorem foldl_altered_of_isChoice (o : Outlook) (s : Session) {ts : List Trigger}
    (hts : ∀ t ∈ ts, t.isChoice = true) :
    ts.foldl (·.altered o ·) s =
      ((s.alteredBy? o (Trigger.lastOf .groupOption ts)).alteredBy? o
        (Trigger.lastOf .timeOption ts)).alteredBy? o (Trigger.lastOf .systemApps ts) := by
  induction ts using List.reverseRecOn with
  | nil => rfl
  | append_singleton ts t ih =>
      rw [List.forall_mem_append, List.forall_mem_singleton] at hts
      rw [List.foldl_concat, ih hts.1]
      simp only [Trigger.lastOf_concat]
      -- The new choice moves in front of the later kinds and takes the place of the last one of its
      -- own.
      cases t with
      | groupOption position =>
          have hsystem : (Trigger.groupOption position).kind ≠ .systemApps := nofun
          have htime : (Trigger.groupOption position).kind ≠ .timeOption := nofun
          have habsorb := alteredBy?_lastOf_absorb o s hts.2 ts
          rw [alteredBy?_lastOf_comm o _ (.inr rfl) hsystem,
            alteredBy?_lastOf_comm o _ (.inl rfl) htime]
          simp only [Trigger.kind, reduceCtorEq, if_true, if_false] at habsorb ⊢
          rw [habsorb]
          rfl
      | timeOption position =>
          have hsystem : (Trigger.timeOption position).kind ≠ .systemApps := nofun
          have habsorb := alteredBy?_lastOf_absorb o
            (s.alteredBy? o (Trigger.lastOf .groupOption ts)) hts.2 ts
          rw [alteredBy?_lastOf_comm o _ (.inr rfl) hsystem]
          simp only [Trigger.kind, reduceCtorEq, if_true, if_false] at habsorb ⊢
          rw [habsorb]
          rfl
      | systemApps shown =>
          simp only [Trigger.kind, reduceCtorEq, if_true, if_false]
          exact alteredBy?_lastOf_absorb o _ hts.2 ts
      | snapshot _ | recompute | detach => cases hts.2

end Session

/--
At one moment the time and the system apps can be chosen before or after any other trigger short of
a detachment. Of choices in a row nothing counts but the last of each kind.
-/
theorem choices_commute (o : Outlook) (now : Int) (s : Session) :
    (∀ t t' : Trigger, t.kind = .timeOption ∨ t.kind = .systemApps → t'.kind ≠ t.kind →
      t' ≠ .detach → (s.step o now t).step o now t' = (s.step o now t').step o now t) ∧
    ∀ ts ts' : List Trigger, (∀ t ∈ ts, t.isChoice = true) → (∀ t ∈ ts', t.isChoice = true) →
      (∀ kind, Trigger.lastOf kind ts = Trigger.lastOf kind ts') →
      ts.foldl (·.step o now ·) s = ts'.foldl (·.step o now ·) s := by
  cases hattached : s.attached with
  | false =>
      refine ⟨?_, ?_⟩
      · intro t t' _ _ _
        simp only [Session.step_of_detached hattached]
      · intro ts ts' _ _ _
        rw [Session.foldl_step_of_detached o now hattached,
          Session.foldl_step_of_detached o now hattached]
  | true =>
      refine ⟨?_, ?_⟩
      · intro t t' ht hne hdetach'
        have hdetach : t ≠ .detach := by
          intro heq
          simp [heq, Trigger.kind] at ht
        have htwice : ∀ {a b : Trigger}, a ≠ .detach → b ≠ .detach →
            [a, b].foldl (·.step o now ·) s = ((s.altered o a).altered o b).refresh o now := by
          intro a b ha hb
          exact Session.foldl_step o now hattached
            (by simp [ha.symm, hb.symm]) (List.cons_ne_nil a [b])
        calc
          (s.step o now t).step o now t' = ((s.altered o t).altered o t').refresh o now :=
            htwice hdetach hdetach'
          _ = ((s.altered o t').altered o t).refresh o now := by
            rw [Session.altered_comm o s ht hne]
          _ = (s.step o now t').step o now t := (htwice hdetach' hdetach).symm
      · intro ts ts' hts hts' hlast
        by_cases hnil : ts = []
        · have hnil' : ts' = [] := by
            apply Trigger.eq_nil_of_lastOf
            intro kind
            rw [← hlast kind, hnil]
            rfl
          rw [hnil, hnil']
        · have hnil' : ts' ≠ [] := by
            intro heq
            apply hnil
            apply Trigger.eq_nil_of_lastOf
            intro kind
            rw [hlast kind, heq]
            rfl
          rw [Session.foldl_step o now hattached (Trigger.detach_not_mem_of_isChoice hts) hnil,
            Session.foldl_step o now hattached (Trigger.detach_not_mem_of_isChoice hts') hnil',
            Session.foldl_altered_of_isChoice o s hts, Session.foldl_altered_of_isChoice o s hts',
            hlast, hlast, hlast]

/-- The time before or after a snapshot, and six choices that come to three. -/
theorem choices_commute_camera :
    let o : Outlook := ⟨{}, {}, .reversed⟩
    let camera := oneGroup "camera" "Camera"
    let s := ((Stage.start o none none 0).run o [.trigger (.snapshot camera)]).session
    let ts : List Trigger := [.groupOption 0, .systemApps true, .timeOption 9, .groupOption 1,
      .systemApps false, .timeOption 2]
    let ts' : List Trigger := [.timeOption 2, .systemApps false, .groupOption 1]
    let left := (s.step o 5 (.snapshot {})).step o 5 (.timeOption 3)
    let last := ts'.foldl (·.step o 5 ·) s
    (s.step o 5 (.timeOption 3)).step o 5 (.snapshot {}) = left ∧
      left.group = some ⟨0, "All permissions"⟩ ∧ left.timePosition = 3 ∧
      left.showSystem = false ∧
      ts.foldl (·.step o 5 ·) s = last ∧
      last.group = some ⟨1, "Camera"⟩ ∧ last.timePosition = 2 ∧ last.showSystem = false := by
  intro o camera s ts ts' left last
  obtain ⟨hcomm, hlast⟩ := choices_commute o 5 s
  have hleft : left.group = some ⟨0, "All permissions"⟩ ∧ left.timePosition = 3 ∧
      left.showSystem = false := by decide +kernel
  have hchosen : last.group = some ⟨1, "Camera"⟩ ∧ last.timePosition = 2 ∧
      last.showSystem = false := by decide +kernel
  refine ⟨?_, hleft.1, hleft.2.1, hleft.2.2, ?_, hchosen⟩
  · exact hcomm (.timeOption 3) (.snapshot {}) (.inl rfl) nofun nofun
  · refine hlast ts ts' (by decide) (by decide) ?_
    intro kind
    cases kind <;> decide

end AccessLedger
