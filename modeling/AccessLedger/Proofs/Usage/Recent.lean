import AccessLedger.Proofs.Usage.Passing

/-!
What the recency test decides. Distances are cut off at 64 bits and their seconds truncated, yet a
pass asks about accesses since 1970 alone, and for these the decision is the one of unbounded
integers, to the millisecond. Before 1970 the cut can show; even there the test never turns against
an access when more is admitted.
-/

namespace AccessLedger

/--
A test that is right about every access since 1970, and that admits no less where more is to be
admitted.
-/
structure WindowTest (test : Int → Int → Nat → Bool) : Prop where
  decides : ∀ {now time : Int} {threshold : Nat}, now < int64Limit → 0 ≤ time →
    (test now time threshold = true ↔ now - time < 1000 * (threshold + 1))
  mono : ∀ {now now' time time' : Int} {threshold threshold' : Nat}, now' ≤ now → time ≤ time' →
    threshold ≤ threshold' → test now time threshold = true → test now' time' threshold' = true
  unbounded : ∀ now time, test now time Window.unboundedThreshold = true

namespace Criteria

/-- Nothing but the window could still speak against the access. -/
structure AsksWindow (c : Criteria) (group : PermissionGroup) (access : Access) : Prop where
  accessed : 0 < access.time
  wanted : c.selection.admitsGroup group.label = true
  listable : c.rules.excludes group.label = false

/-- Of the accesses that are left to the window, the milliseconds that have passed decide. -/
structure JudgesByDistance (c : Criteria) : Prop where
  outside : ∀ group access, c.objection? group access = some .outsideWindow ↔
    c.AsksWindow group access ∧ 1000 * (c.selection.window.threshold + 1) ≤ c.now - access.time
  inside : ∀ group access, c.objection? group access = none ↔
    c.AsksWindow group access ∧ c.now - access.time < 1000 * (c.selection.window.threshold + 1)

variable {c : Criteria} {group : PermissionGroup} {access : Access}

/-- The checks before the window give reasons of their own. -/
theorem asksWindow_of_objection
    (h : c.objection? group access = none ∨ c.objection? group access = some .outsideWindow) :
    c.AsksWindow group access := by
  rw [objection?] at h
  split at h
  · simp at h
  · next hzero =>
    split at h
    · simp at h
    · next hneg =>
      cases hwanted : c.selection.admitsGroup group.label with
      | false => simp [hwanted] at h
      | true =>
          cases hlistable : c.rules.excludes group.label with
          | true => simp [hwanted, hlistable] at h
          | false => exact ⟨by omega, hwanted, hlistable⟩

theorem AsksWindow.objection?_eq (h : c.AsksWindow group access) (hnow : c.now < int64Limit) :
    c.objection? group access =
      if c.now - access.time < 1000 * (c.selection.window.threshold + 1) then none
      else some .outsideWindow := by
  have hexact : isRecent c.now access.time c.selection.window.threshold = true ↔
      c.now - access.time < 1000 * (c.selection.window.threshold + 1) :=
    isRecent_iff_lt hnow (Int.le_of_lt h.accessed)
  rw [objection?, if_neg (Int.ne_of_gt h.accessed), if_neg (Int.lt_asymm h.accessed), h.wanted,
    h.listable]
  by_cases hlt : c.now - access.time < 1000 * (c.selection.window.threshold + 1)
  · rw [if_pos hlt, hexact.mpr hlt]
    rfl
  · rw [if_neg hlt, Bool.eq_false_iff.mpr (mt hexact.mp hlt)]
    rfl

theorem judgesByDistance (hnow : c.now < int64Limit) : c.JudgesByDistance where
  outside group access := by
    constructor
    · intro h
      have hasks := asksWindow_of_objection (.inr h)
      rw [hasks.objection?_eq hnow] at h
      exact ⟨hasks, by simpa using h⟩
    · rintro ⟨hasks, hle⟩
      rw [hasks.objection?_eq hnow, if_neg (Int.not_lt.mpr hle)]
  inside group access := by
    constructor
    · intro h
      have hasks := asksWindow_of_objection (.inl h)
      rw [hasks.objection?_eq hnow] at h
      exact ⟨hasks, by simpa using h⟩
    · rintro ⟨hasks, hlt⟩
      rw [hasks.objection?_eq hnow, if_pos hlt]

end Criteria

/--
Recency is decided by the distance without bounds wherever a pass asks for it; later accesses,
earlier moments and wider windows never lose anything, and the window for any time loses nothing at
all.
-/
theorem windowTest_isRecent :
    WindowTest isRecent ∧ ∀ c : Criteria, c.now < int64Limit → c.JudgesByDistance := by
  refine ⟨?_, fun c hnow => c.judgesByDistance hnow⟩
  exact {
    decides := isRecent_iff_lt
    mono := isRecent_mono
    unbounded := isRecent_unboundedThreshold }

/--
The longest distance but one since 1970, under the threshold that admits it and under the next lower
one.
-/
theorem windowTest_isRecent_lastMoment :
    let now : Int := int64Limit - 1
    let camera : PermissionGroup := { name := "camera", label := "Camera", declaredBy := "android" }
    let access : Access := ⟨"maps", "camera", "Camera", 1⟩
    let c : Criteria := ⟨{}, { window := .custom 9223372036854774 }, now⟩
    (now < int64Limit ∧ (0 : Int) ≤ 1 ∧ isRecent now 1 9223372036854775 = true) ∧
      (now - 5 ≤ now ∧ (1 : Int) ≤ 7 ∧ 9223372036854775 ≤ Window.unboundedThreshold ∧
        isRecent (now - 5) 7 Window.unboundedThreshold = true) ∧
      c.now < int64Limit ∧ c.objection? camera access = some .outsideWindow := by
  intro now camera access c
  obtain ⟨htest, hjudges⟩ := windowTest_isRecent
  have hnow : now < int64Limit := by decide
  have hrecent : isRecent now 1 9223372036854775 = true :=
    (htest.decides hnow (by decide)).mpr (by decide)
  have hearlier : now - 5 ≤ now := by omega
  have hwider : 9223372036854775 ≤ Window.unboundedThreshold := by decide
  have hmore : isRecent (now - 5) 7 Window.unboundedThreshold = true :=
    htest.mono hearlier (by decide) hwider hrecent
  have hasks : c.AsksWindow camera access := ⟨by decide, by decide, by decide⟩
  have houtside : c.objection? camera access = some .outsideWindow :=
    ((hjudges c hnow).outside camera access).mpr ⟨hasks, by decide⟩
  exact ⟨⟨hnow, by decide, hrecent⟩, ⟨hearlier, by decide, hwider, hmore⟩, hnow, houtside⟩

/-- Before 1970 a greater distance is taken for the greatest of 64 bits. -/
example : isRecent (int64Limit - 1) (-int64Limit) 9223372036854775 = true ∧
    (1000 * (9223372036854775 + 1) : Int) ≤ (int64Limit - 1) - -int64Limit := by
  decide

end AccessLedger
