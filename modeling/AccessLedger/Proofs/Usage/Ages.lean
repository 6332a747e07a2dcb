import AccessLedger.Proofs.Elapsed
import AccessLedger.Proofs.Usage.Labelling

/-!
The ages that rows tell. A row says how long ago its access was, counted as the filter counts that
let it through, so that no row tells an age which the window does not admit.
-/

namespace AccessLedger

theorem summary_of_mem_rows {d : Display} {u : Usage} {r : Row} (hr : r ∈ rowsOf (d.tree u)) :
    r.summary = d.labels.summary r.groupLabel (describeElapsed (elapsed d.now r.time)) := by
  obtain ⟨x, _, hrow⟩ := Display.exists_candidate_of_mem_rows hr
  have hlabel : r.groupLabel = x.2.latest.groupLabel := congrArg Row.groupLabel hrow
  have htime : r.time = x.2.time := congrArg Row.time hrow
  rw [hlabel, htime]
  exact congrArg Row.summary hrow

/-- What is shown has been listed, so that it was accessed and is recent enough. -/
theorem Row.Shows.recent {s : Snapshot} {c : Criteria} {r : Row} {obs : Observation}
    (h : r.Shows s c obs) :
    0 < r.time ∧ isRecent c.now r.time c.selection.window.threshold = true := by
  obtain ⟨_, _, _, hobjection, _⟩ := (mem_listed_iff s c obs).mp h.listed
  obtain ⟨htime, _, _, hrecent⟩ := (objection?_eq_none_iff c _ _).mp hobjection
  rw [h.time]
  exact ⟨htime, hrecent⟩

namespace Outlook

/--
Rows tell ages that their window admits. An age is told in the largest unit that it fills, rounded
down, and of two ages the greater is never told as the smaller one.
-/
theorem rows_tell_admitted_ages (o : Outlook) (s : Snapshot) (selection : Selection) (now : Int)
    (hnow : now < int64Limit) :
    (∀ r ∈ rowsOf (o.view s selection now).tree,
      r.summary = o.labels.summary r.groupLabel (describeElapsed (elapsed now r.time)) ∧
        wholeSeconds (elapsed now r.time) = wholeSeconds (now - r.time) ∧
        wholeSeconds (now - r.time) ≤ selection.window.threshold) ∧
    (∀ d : Int, ∃ (u : TimeUnit) (n : Nat),
      describeElapsed d = u.ago n ∧ u.Tells n (wholeSeconds d)) ∧
    ∀ (d d' : Int) (u u' : TimeUnit) (n n' : Nat), describeElapsed d = u.ago n →
      describeElapsed d' = u'.ago n' →
      d ≤ d' → n * u.seconds ≤ n' * u'.seconds := by
  refine ⟨?_, describeElapsed_tells, ?_⟩
  · intro r hr
    obtain ⟨obs, hshows⟩ := exists_shown_of_mem_rows (c := o.criteria selection now) hr
    obtain ⟨htime, hrecent⟩ := hshows.recent
    have hage : (now - r.time).tdiv 1000 ≤ selection.window.threshold :=
      (isRecent_iff_tdiv_le hnow (Int.le_of_lt htime)).mp hrecent
    have hsummary := summary_of_mem_rows hr
    exact ⟨hsummary, wholeSeconds_elapsed hnow (Int.le_of_lt htime), Int.toNat_le.mpr hage⟩
  · intro d d' u u' n n' hd hd' hle
    obtain ⟨v, m, hv, htells⟩ := describeElapsed_tells d
    obtain ⟨v', m', hv', htells'⟩ := describeElapsed_tells d'
    obtain ⟨rfl, rfl⟩ := TimeUnit.ago_inj (hd.symm.trans hv)
    obtain ⟨rfl, rfl⟩ := TimeUnit.ago_inj (hd'.symm.trans hv')
    exact htells.mono htells' (wholeSeconds_mono hle)

/-- An access that is not yet a second too old for the last hour. -/
theorem times_recordedAs_lastHour :
    (rowsOf ((⟨{}, {}, .reversed⟩ : Outlook).view (recordedAs "Camera")
      { window := .lastHour } 3601099).tree).map (fun r => (r.groupLabel, r.time)) =
        [("Camera", 100)] := by
  have husage : ((recordedAs "Camera").usage ⟨{}, { window := .lastHour }, 3601099⟩).buckets =
      [⟨"photos", [⟨"photos", "camera", "Camera", 100⟩],
        [⟨0, "camera", "Camera", "", ⟨"photos", "camera", "Camera", 100⟩⟩]⟩] := rfl
  show (rowsOf (Display.tree ⟨3601099, {}, recordedAs "Camera"⟩
    ((recordedAs "Camera").usage ⟨{}, { window := .lastHour }, 3601099⟩))).map _ = _
  rw [Display.tree, husage]
  simp only [List.mergeSort_singleton, Display.entries]
  rfl

theorem rows_tell_admitted_ages_lastHour :
    let o : Outlook := ⟨{}, {}, .reversed⟩
    let selection : Selection := { window := .lastHour }
    (3601099 : Int) < int64Limit ∧
      (∃ r ∈ rowsOf (o.view (recordedAs "Camera") selection 3601099).tree,
        wholeSeconds (3601099 - r.time) = 3600 ∧ 3600 ≤ selection.window.threshold ∧
          r.summary = "accessed Camera, 1h ago") ∧
      describeElapsed 3599999 = TimeUnit.minute.ago 59 ∧
        describeElapsed 3600999 = TimeUnit.hour.ago 1 ∧
      59 * TimeUnit.minute.seconds ≤ 1 * TimeUnit.hour.seconds := by
  intro o selection
  obtain ⟨hrows, _, hmono⟩ :=
    rows_tell_admitted_ages o (recordedAs "Camera") selection 3601099 (by decide)
  have hmem : (("Camera", 100) : String × Int) ∈
      (rowsOf (o.view (recordedAs "Camera") selection 3601099).tree).map fun r =>
        (r.groupLabel, r.time) := by
    rw [times_recordedAs_lastHour]
    exact List.mem_singleton_self _
  obtain ⟨r, hr, hparts⟩ := List.mem_map.mp hmem
  obtain ⟨hlabel, htime⟩ := Prod.mk.inj hparts
  obtain ⟨hsummary, _, hage⟩ := hrows r hr
  rw [hlabel, htime] at hsummary
  rw [htime] at hage
  have hminutes : describeElapsed 3599999 = TimeUnit.minute.ago 59 := by decide +kernel
  have hhour : describeElapsed 3600999 = TimeUnit.hour.ago 1 := by decide +kernel
  refine ⟨by decide, ⟨r, hr, ?_, hage, ?_⟩, hminutes, hhour,
    hmono _ _ _ _ _ _ hminutes hhour (by decide)⟩
  · rw [htime]
    rfl
  · rw [hsummary]
    decide +kernel

end Outlook
end AccessLedger
