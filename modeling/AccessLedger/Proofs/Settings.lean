import AccessLedger.Proofs.Toml.Tables
import AccessLedger.Settings.Toml

/-!
Settings as a text. Settings that were written are read back with the blanks in them repaired, also
where entries and tables that hold what is usual have been left out. Repairing twice is repairing
once.
-/

namespace AccessLedger

namespace Toml

theorem Value.toTexts_texts (items : List String) :
    (Setting.texts items).value.toTexts = .ok items := by
  show (items.map Value.text).mapM Value.toText = .ok items
  induction items with
  | nil => rfl
  | cons s items ih => rw [List.map_cons, List.mapM_cons, ih]; rfl

end Toml

namespace Settings
open Toml

theorem orElse_orElse (s usual : String) : orElse (orElse s usual) usual = orElse s usual := by
  by_cases h : Text.isBlankText s <;> simp [orElse, h]

theorem repaired_repaired (s : Settings) : s.repaired.repaired = s.repaired := by
  simp [repaired, orElse_orElse]

theorem repaired_usual : ({} : Settings).repaired = {} := by decide +kernel

section Columns

def filterColumns : List (Column Rules) := [
  ⟨"platform_namespace", fun r => .text r.platform⟩,
  ⟨"excluded_labels", fun r => .texts r.excludedLabels⟩]

def displayColumns : List (Column (Labels × String)) := [
  ⟨"any_group_label", fun d => .text d.1.anyGroup⟩,
  ⟨"any_time_label", fun d => .text d.1.anyTime⟩,
  ⟨"last_7_days_label", fun d => .text d.1.last7Days⟩,
  ⟨"last_24_hours_label", fun d => .text d.1.last24Hours⟩,
  ⟨"last_hour_label", fun d => .text d.1.lastHour⟩,
  ⟨"last_15_minutes_label", fun d => .text d.1.last15Minutes⟩,
  ⟨"summary_template", fun d => .text d.1.summaryTemplate⟩,
  ⟨"locale", fun d => .text d.2⟩]

theorem filterEntries_eq (s : Settings) : s.filterEntries = entriesOf filterColumns s.rules := rfl

theorem displayEntries_eq (s : Settings) :
    s.displayEntries = entriesOf displayColumns (s.labels, s.locale) := rfl

theorem filters_decodes : filters.Decodes filterColumns where
  nodup := by decide
  determine a b h := by
    cases a
    cases b
    simpa [filterColumns, Column.part] using h
  column x c hc := by
    simp only [filterColumns, List.mem_cons, List.not_mem_nil, or_false] at hc
    rcases hc with rfl | rfl
    · exact ⟨_, _, rfl, rfl, by simp [Part.Fills, filterColumns, Column.part]⟩
    · exact ⟨_, _, rfl, Field.decode_of (Value.toTexts_texts _), by
        simp [Part.Fills, filterColumns, Column.part]⟩

theorem display_decodes : display.Decodes displayColumns where
  nodup := by decide
  determine a b h := by
    obtain ⟨⟨⟩, _⟩ := a
    obtain ⟨⟨⟩, _⟩ := b
    simp [displayColumns, Column.part] at h
    simp [h]
  column x c hc := by
    simp only [displayColumns, List.mem_cons, List.not_mem_nil, or_false] at hc
    rcases hc with rfl | rfl | rfl | rfl | rfl | rfl | rfl | rfl <;>
      exact ⟨_, _, rfl, rfl, by simp [Part.Fills, displayColumns, Column.part]⟩

theorem isTable_filters (r : Rules) : IsTable (entriesOf filterColumns r) :=
  isTable_entriesOf (by simp [filterColumns, Setting.Fits]) (by decide) filters_decodes.nodup

theorem isTable_display (d : Labels × String) : IsTable (entriesOf displayColumns d) :=
  isTable_entriesOf (by simp [displayColumns, Setting.Fits]) (by decide) display_decodes.nodup

end Columns

section Texts

/--
A text of settings without some of what is usual: entries, or whole tables. Any number of blank
lines may stand between the tables.
-/
def Abridged (s : Settings) (text : String) : Prop :=
  ∃ top bottom n, Abridges filterColumns s.rules {} "filters" top ∧
    Abridges displayColumns (s.labels, s.locale) ({}, ({} : Settings).locale) "display" bottom ∧
    text = String.ofList (writeTables top ++ (List.replicate n '\n' ++ writeTables bottom))

theorem abridged_write (s : Settings) : s.Abridged s.write := by
  refine ⟨[("filters", entriesOf filterColumns s.rules)],
    [("display", entriesOf displayColumns (s.labels, s.locale))], 1, ?_, ?_, ?_⟩
  · exact Abridges.table (LeavesUsual.all ..)
  · exact Abridges.table (LeavesUsual.all ..)
  · simp [write, writeTables, filterEntries_eq, displayEntries_eq]

theorem readAsWritten_of_abridged {s : Settings} {text : String} (h : s.Abridged text) :
    readAsWritten text = .ok s := by
  obtain ⟨top, bottom, n, htop, hbottom, rfl⟩ := h
  have hnames : ((top ++ bottom).map (·.1)).Sublist ["filters", "display"] := by
    rw [List.map_append]
    exact htop.names_sublist.append hbottom.names_sublist
  have hbare : ∀ t ∈ top ++ bottom, isBareName t.1 = true := by
    have hall : ∀ name ∈ ["filters", "display"], isBareName name = true := by decide
    exact fun t ht => hall t.1 (hnames.subset (List.mem_map_of_mem ht))
  have hbodies : ∀ t ∈ top ++ bottom, IsTable t.2 :=
    List.forall_mem_append.mpr
      ⟨htop.isTable (isTable_filters s.rules), hbottom.isTable (isTable_display _)⟩
  have hread := read?_tables hbare (hnames.nodup (by decide)) hbodies n
  have hfilters := htop.ofFields_eq shape rfl filters_decodes (b := {}) rfl
    (bottom.map fun t => (t.1, .table (valuesOf t.2)))
  have hdisplay := hbottom.ofFields_eq shape rfl display_decodes (b := { rules := s.rules }) rfl []
  rw [List.append_nil] at hdisplay
  rw [readAsWritten, Shape.read, hread]
  simp only [List.map_append, hfilters, hdisplay]
  rfl

/-- What is left out is as it is usual, and what is blank as well. -/
theorem read_of_abridged {s : Settings} {text : String} (h : s.Abridged text) :
    read text = .ok s.repaired := by
  rw [read, readAsWritten_of_abridged h]
  rfl

theorem read_write (s : Settings) : read s.write = .ok s.repaired :=
  read_of_abridged (abridged_write s)

/-- Settings that were read are in force as they are. -/
theorem repaired_of_read {s : Settings} {text : String} (h : read text = .ok s) :
    s.repaired = s := by
  rw [read] at h
  cases hread : readAsWritten text with
  | error fault => rw [hread] at h; cases h
  | ok raw =>
      rw [hread] at h
      cases h
      exact repaired_repaired raw

end Texts
end Settings
end AccessLedger
