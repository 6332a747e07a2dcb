import AccessLedger.Proofs.Storage.Files
import AccessLedger.Proofs.Toml.Lines
import AccessLedger.Storage.Stored

/-!
Saved choices in a file. What could be written is read back as it was, whatever the positions and
the label are, and choices that were saved are those that are loaded.
-/

namespace AccessLedger

open Toml

namespace FilterState

/-- Only the positions can be too great. -/
theorem fits_of_isWritable {s : FilterState} (h : s.isWritable = true) :
    ∀ entry ∈ s.entries, entry.2.Fits := by
  rw [isWritable, List.all_eq_true] at h
  intro entry hentry
  rw [entries, List.mem_append, List.mem_append, List.mem_append, List.mem_singleton] at hentry
  simp only [Option.mem_toList, Option.map_eq_some_iff] at hentry
  rcases hentry with ((rfl | ⟨n, hn, rfl⟩) | ⟨l, _, rfl⟩) | ⟨n, hn, rfl⟩
  · trivial
  · have hlt := h n (List.mem_append_left _ (Option.mem_toList.mpr hn))
    simpa [Setting.Fits] using hlt
  · trivial
  · have hlt := h n (List.mem_append_right _ (Option.mem_toList.mpr hn))
    simpa [Setting.Fits] using hlt

/-- The entries that are there are some of the fields, in their order. -/
theorem names_entries_sublist (s : FilterState) :
    (s.entries.map (·.1)).Sublist (tomlShape.fields.map (·.name)) := by
  cases hposition : s.groupFilterPosition <;> cases hlabel : s.groupFilterLabel <;>
    cases htime : s.timeFilterPosition <;>
    simp [entries, tomlShape, Field.of, hposition, hlabel, htime]

theorem isTable_entries {s : FilterState} (h : s.isWritable = true) : IsTable s.entries where
  fits := fits_of_isWritable h
  bare := by
    have hfields : (tomlShape.fields.map (·.name)).all isBareName = true := by decide +kernel
    intro entry hentry
    have hmem := (names_entries_sublist s).subset (List.mem_map_of_mem hentry)
    exact List.all_eq_true.mp hfields entry.1 hmem
  nodup := (names_entries_sublist s).nodup (by decide)

theorem ofFields_entries (s : FilterState) :
    tomlShape.ofFields {} (s.entries.map fun entry => (entry.1, entry.2.value)) = .ok s := by
  cases s with
  | mk showSystem position label time =>
      cases position <;> cases label <;> cases time <;>
        simp [entries, Shape.ofFields, tomlShape, Field.of, Setting.value, Value.toBool,
          Value.toPosition,
          Value.toText] <;>
        rfl

/-- What is read is what was written. -/
theorem read_of_write? {s : FilterState} {text : String} (h : s.write? = some text) :
    read text = .ok s := by
  rw [write?, Option.ite_none_right_eq_some] at h
  obtain ⟨hwritable, hwritten⟩ := h
  cases hwritten
  rw [read, Shape.read, read?_writeLines (isTable_entries hwritable)]
  simp only [ofFields_entries]
  rfl

end FilterState

/-- Positions for which there are integers in TOML. -/
def SavedSelection.IsStorable (s : SavedSelection) : Prop :=
  (∀ n ∈ s.groupPosition, n < int64Limit) ∧ ∀ n ∈ s.timePosition, n < int64Limit

theorem SavedSelection.isWritable_filterState_iff {s : SavedSelection} :
    s.filterState.isWritable = true ↔ s.IsStorable := by
  simp [FilterState.isWritable, SavedSelection.filterState, IsStorable]

namespace Files

variable {f g : Files} {path : String} {s : SavedSelection}

/-- The text of saved choices. -/
theorem exists_of_saveSelection (h : f.saveSelection path s = (g, none)) :
    ∃ text, s.filterState.write? = some text ∧ f.save path text = (g, none) := by
  rw [saveSelection] at h
  split at h
  · cases h
  · next text hwritten =>
    refine ⟨text, hwritten, ?_⟩
    rw [Prod.mk.injEq, Option.map_eq_none_iff] at h
    exact Prod.ext h.1 h.2

theorem loadSelection?_of_read {text : String} (hwritten : s.filterState.write? = some text)
    (hread : f.read path = .ok (RawText.ofString text)) : f.loadSelection? path = .ok (some s) := by
  have htext : f.readText? path = .ok (some text) := by
    simp [readText?, hread, RawText.toString?_ofString]
  have hstate : readFrom FilterState.read path text = .ok s.filterState := by
    rw [readFrom, FilterState.read_of_write? hwritten]
    rfl
  rw [loadSelection?, htext]
  show some <$> FilterState.savedSelection <$> readFrom FilterState.read path text = _
  rw [hstate]
  rfl

/-- Choices that were saved are loaded. -/
theorem loadSelection?_saveSelection (h : f.saveSelection path s = (g, none)) :
    g.loadSelection? path = .ok (some s) := by
  obtain ⟨text, hwritten, hsave⟩ := exists_of_saveSelection h
  exact loadSelection?_of_read hwritten (read_save hsave)

theorem saveSelection_saveSelection (h : f.saveSelection path s = (g, none)) :
    g.saveSelection path s = (g, none) := by
  obtain ⟨text, hwritten, hsave⟩ := exists_of_saveSelection h
  simp [saveSelection, hwritten, save_save hsave]

/--
Choices that were saved are loaded as they were, whatever there was before. Nothing but the access
to the file can keep them from being saved, unless a position is too great for the file; then
nothing is touched.
-/
theorem saveSelection_whole (f : Files) (path : String) (s : SavedSelection) :
    (∀ g, f.saveSelection path s = (g, none) → g.loadSelection? path = .ok (some s)) ∧
      (s.IsStorable → ∀ content,
        (f.saveSelection path s).2 = (f.save path content).2.map (.access path)) ∧
      (¬ s.IsStorable → f.saveSelection path s = (f, some .positionTooGreat)) := by
  refine ⟨fun g h => loadSelection?_saveSelection h, ?_, ?_⟩
  · intro hstorable content
    have hwritable := SavedSelection.isWritable_filterState_iff.mpr hstorable
    obtain ⟨text, hwritten⟩ : ∃ text, s.filterState.write? = some text :=
      ⟨_, if_pos hwritable⟩
    rw [saveSelection, hwritten, save_fault_eq f path content text]
  · intro hgreat
    have hunwritable := mt SavedSelection.isWritable_filterState_iff.mp hgreat
    have hwritten : s.filterState.write? = none := if_neg hunwritable
    rw [saveSelection, hwritten]

/--
A file in a new directory, for choices with an empty label and for a position that is too great.
-/
theorem saveSelection_whole_emptyLabel :
    let saved : SavedSelection := { groupLabel := some "", timePosition := some 0x7FFFFFFFFFFFFFFF }
    let great : SavedSelection := { groupPosition := some 0x8000000000000000 }
    let after := (({} : Files).saveSelection "nested/state.toml" saved).1
    saved.IsStorable ∧ (({} : Files).save "nested/state.toml" "").2 = none ∧
      ({} : Files).saveSelection "nested/state.toml" saved = (after, none) ∧
      after.loadSelection? "nested/state.toml" = .ok (some saved) ∧
      ¬ great.IsStorable ∧
      ({} : Files).saveSelection "nested/state.toml" great = ({}, some .positionTooGreat) := by
  intro saved great after
  obtain ⟨hload, hfault, _⟩ := saveSelection_whole {} "nested/state.toml" saved
  obtain ⟨_, _, hrefused⟩ := saveSelection_whole {} "nested/state.toml" great
  have hstorable : saved.IsStorable := by simp [saved, SavedSelection.IsStorable, int64Limit]
  have hgreat : ¬ great.IsStorable := by simp [great, SavedSelection.IsStorable, int64Limit]
  have hsaved : (({} : Files).save "nested/state.toml" "").2 = none := by decide +kernel
  have hnone : ({} : Files).saveSelection "nested/state.toml" saved = (after, none) := by
    refine Prod.ext rfl ?_
    rw [hfault hstorable "", hsaved]
    rfl
  exact ⟨hstorable, hsaved, hnone, hload after hnone, hgreat, hrefused hgreat⟩

end Files
end AccessLedger
