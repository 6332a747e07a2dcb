import AccessLedger.Proofs.Settings

/-!
The repair of settings. Every text that settings cannot do without is looked at by itself: one that
is blank gives way to the usual one, and all others stay. Whether there is anything to repair and
whether repairing changes anything is one question, and settings that were read are past it.
-/

namespace AccessLedger
namespace Settings

/-- The texts that settings cannot do without. -/
def required : List (Settings → String) := [
  (·.rules.platform),
  (·.labels.anyGroup),
  (·.labels.anyTime),
  (·.labels.last7Days),
  (·.labels.last24Hours),
  (·.labels.lastHour),
  (·.labels.last15Minutes),
  (·.labels.summaryTemplate),
  (·.locale)]

/-- No characters but white space. -/
def IsBlank (text : String) : Prop :=
  ∀ c ∈ text.toList, Text.isBlank c = true

/-- Settings that differ from others only where those have blanks in place of a text. -/
structure Repairs (s r : Settings) : Prop where
  filled : ∀ f ∈ required, ¬ IsBlank (f r)
  kept : ∀ f ∈ required, ¬ IsBlank (f s) → f r = f s
  usual : ∀ f ∈ required, IsBlank (f s) → f r = f {}
  excludedLabels : r.rules.excludedLabels = s.rules.excludedLabels

variable {s r : Settings} {text usual : String}

theorem isBlankText_iff : Text.isBlankText text = true ↔ IsBlank text :=
  List.all_eq_true

theorem orElse_of_isBlank (h : IsBlank text) : orElse text usual = usual :=
  if_pos (isBlankText_iff.mpr h)

theorem orElse_of_not_isBlank (h : ¬ IsBlank text) : orElse text usual = text :=
  if_neg (mt isBlankText_iff.mp h)

/-- Each text is repaired by itself. -/
theorem required_repaired (s : Settings) : ∀ f ∈ required, f s.repaired = orElse (f s) (f {}) := by
  simp only [required, List.forall_mem_cons]
  exact ⟨rfl, rfl, rfl, rfl, rfl, rfl, rfl, rfl, rfl, nofun⟩

theorem not_isBlank_usual : ∀ f ∈ required, ¬ IsBlank (f {}) := by
  have husual : ∀ f ∈ required, Text.isBlankText (f {}) = false := by
    simp only [required, List.forall_mem_cons]
    refine ⟨?_, ?_, ?_, ?_, ?_, ?_, ?_, ?_, ?_, nofun⟩
    all_goals decide
  intro f hf hblank
  exact Bool.false_ne_true ((husual f hf).symm.trans (isBlankText_iff.mpr hblank))

/-- Nothing else belongs to settings than these texts and the labels that are left out. -/
theorem eq_of_required (hall : ∀ f ∈ required, f r = f s)
    (hexcluded : r.rules.excludedLabels = s.rules.excludedLabels) : r = s := by
  simp only [required, List.forall_mem_cons] at hall
  obtain ⟨⟨_, _⟩, ⟨_, _, _, _, _, _, _⟩, _⟩ := r
  obtain ⟨⟨_, _⟩, ⟨_, _, _, _, _, _, _⟩, _⟩ := s
  simp_all

theorem repairs_repaired (s : Settings) : s.Repairs s.repaired where
  filled f hf := by
    rw [required_repaired s f hf]
    by_cases hblank : IsBlank (f s)
    · rw [orElse_of_isBlank hblank]
      exact not_isBlank_usual f hf
    · rwa [orElse_of_not_isBlank hblank]
  kept f hf hblank := by rw [required_repaired s f hf, orElse_of_not_isBlank hblank]
  usual f hf hblank := by rw [required_repaired s f hf, orElse_of_isBlank hblank]
  excludedLabels := rfl

theorem Repairs.eq_repaired (h : s.Repairs r) : r = s.repaired := by
  refine eq_of_required ?_ (h.excludedLabels.trans (repairs_repaired s).excludedLabels.symm)
  intro f hf
  rw [required_repaired s f hf]
  by_cases hblank : IsBlank (f s)
  · rw [h.usual f hf hblank, orElse_of_isBlank hblank]
  · rw [h.kept f hf hblank, orElse_of_not_isBlank hblank]

theorem needsRepair_iff (s : Settings) : s.needsRepair = true ↔ ∃ f ∈ required, IsBlank (f s) := by
  have htexts : s.requiredTexts = required.map fun f => f s := rfl
  rw [needsRepair, htexts, List.any_map, List.any_eq_true]
  exact exists_congr fun f => and_congr_right fun _ => isBlankText_iff

/-- What is repaired changes, as no blank is a usual text. -/
theorem needsRepair_iff_repaired_ne (s : Settings) : s.needsRepair = true ↔ s.repaired ≠ s := by
  rw [needsRepair_iff]
  constructor
  · intro h hsame
    obtain ⟨f, hf, hblank⟩ := h
    apply not_isBlank_usual f hf
    rwa [← (repairs_repaired s).usual f hf hblank, hsame]
  · intro hne
    by_contra hnone
    rw [not_exists] at hnone
    have hkept : ∀ f ∈ required, f s.repaired = f s :=
      fun f hf => (repairs_repaired s).kept f hf fun hblank => hnone f ⟨hf, hblank⟩
    exact hne (eq_of_required hkept rfl)

theorem needsRepair_eq_false (h : s.repaired = s) : s.needsRepair = false := by
  rw [← Bool.not_eq_true, needsRepair_iff_repaired_ne]
  exact not_not_intro h

/-- Repairing does what it is for and no more, says whether it did, and is done once and for all. -/
theorem repaired_once (s : Settings) :
    (∀ r, s.Repairs r ↔ r = s.repaired) ∧ (s.needsRepair = true ↔ s.repaired ≠ s) ∧
      s.repaired.needsRepair = false ∧ s.repaired.repaired = s.repaired ∧
      ∀ text r, read text = .ok r → r.needsRepair = false ∧ r.repaired = r := by
  refine ⟨?_, needsRepair_iff_repaired_ne s, ?_, repaired_repaired s, ?_⟩
  · intro r
    constructor
    · exact Repairs.eq_repaired
    · rintro rfl
      exact repairs_repaired s
  · exact needsRepair_eq_false (repaired_repaired s)
  · intro text r hread
    have hsame := repaired_of_read hread
    exact ⟨needsRepair_eq_false hsame, hsame⟩

/-- A text of settings in which the template is empty and the locale is a no-break space. -/
theorem repaired_once_blanks :
    let blank : Settings := { labels := { summaryTemplate := "" }, locale := "\u00a0" }
    blank.needsRepair = true ∧ read blank.write = .ok {} ∧ ({} : Settings).needsRepair = false := by
  intro blank
  have hblank : blank.repaired = {} := by decide +kernel
  have hread : read blank.write = .ok {} := by rw [read_write, hblank]
  exact ⟨by decide +kernel, hread, ((repaired_once blank).2.2.2.2 _ _ hread).1⟩

end Settings
end AccessLedger
