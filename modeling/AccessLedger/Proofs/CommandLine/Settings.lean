import AccessLedger.CommandLine.Run
import AccessLedger.Proofs.Settings
import AccessLedger.Proofs.Storage.Stored

/-!
Settings in files, and settings that are shown. What is shown of the settings in force is itself a
settings file, under which everything is as it was.
-/

namespace AccessLedger

namespace Files

variable {f g : Files} {path other text : String} {s : Settings}

theorem loadSettings_of_read (hfile : f.read path = .ok (RawText.ofString text))
    (hread : Settings.read text = .ok s) : f.loadSettings path = .ok s := by
  have htext : f.readText? path = .ok (some text) := by
    simp [readText?, hfile, RawText.toString?_ofString]
  rw [loadSettings, htext]
  show readFrom Settings.read path text = .ok s
  rw [readFrom, hread]
  rfl

/-- Settings are loaded without blanks, whether there is a file or not. -/
theorem repaired_of_loadSettings (h : f.loadSettings path = .ok s) : s.repaired = s := by
  rw [loadSettings] at h
  cases htext : f.readText? path with
  | error fault => rw [htext] at h; cases h
  | ok content =>
      rw [htext] at h
      cases content with
      | none => cases h; exact Settings.repaired_usual
      | some text =>
          change (Settings.read text).mapError (StorageFault.parse path) = .ok s at h
          cases hread : Settings.read text with
          | error fault => rw [hread] at h; cases h
          | ok loaded => rw [hread] at h; cases h; exact Settings.repaired_of_read hread

/-- Settings that were loaded from one file can be kept in another one. -/
theorem loadSettings_write (h : f.loadSettings path = .ok s)
    (hfile : g.read other = .ok (RawText.ofString s.write)) : g.loadSettings other = .ok s := by
  apply loadSettings_of_read hfile
  rw [Settings.read_write, repaired_of_loadSettings h]

end Files

namespace CommandLine

variable {f g : Files} {e : Environment} {config : Option String} {report : String} {s : Settings}

theorem exists_of_settings (h : settings f e config = .ok s) :
    ∃ path, e.settingsPath config = .ok path ∧ f.loadSettings path = .ok s := by
  rw [settings] at h
  cases hpath : e.settingsPath config with
  | error failure => rw [hpath] at h; cases h
  | ok path =>
      rw [hpath] at h
      change (f.loadSettings path).mapError (Failure.settings path) = .ok s at h
      cases hload : f.loadSettings path with
      | error fault => rw [hload] at h; cases h
      | ok loaded => rw [hload] at h; cases h; exact ⟨path, rfl, hload⟩

/-- Settings in force are in force again from a file with their text. -/
theorem settings_write {shown : String} (h : settings f e config = .ok s)
    (hfile : g.read shown = .ok (RawText.ofString s.write)) :
    settings g e (some shown) = .ok s := by
  obtain ⟨path, _, hload⟩ := exists_of_settings h
  show (g.loadSettings shown).mapError (Failure.settings shown) = .ok s
  rw [Files.loadSettings_write hload hfile]
  rfl

theorem exists_of_configReport (h : configReport f e config = .ok report) :
    ∃ path s, e.settingsPath config = .ok path ∧ settings f e config = .ok s ∧
      report = Text.ofLines ["# " ++ path] ++ s.write := by
  rw [configReport] at h
  cases hpath : e.settingsPath config with
  | error failure => rw [hpath] at h; cases h
  | ok path =>
      cases hsettings : settings f e config with
      | error failure => rw [hpath, hsettings] at h; cases h
      | ok s => rw [hpath, hsettings] at h; cases h; exact ⟨path, s, rfl, rfl, rfl⟩

/-- A run on snapshots looks at the settings file for the settings only. -/
theorem runViewOn_congr {other : Option String} (h : settings f e other = settings f e config)
    (languages : Collation.Languages) (d : Device) (now : Int) (a : ViewArguments) :
    runViewOn languages f e other d now a = runViewOn languages f e config d now a := by
  rw [runViewOn, runViewOn, viewed, viewed, h]

theorem filtersReport_congr {other : Option String} (h : settings f e other = settings f e config)
    (languages : Collation.Languages) (path : String) (format : Format) :
    filtersReport languages f e other path format =
      filtersReport languages f e config path format := by
  rw [filtersReport, filtersReport, h]

/--
Settings survive their text: those that are written are read back with their blanks repaired, those
that were read come back as they are, and what holds the usual may be left out. The settings that
are shown can be put into a file and be in force from there, in this tree of files or in another
one.
-/
theorem settings_survive_text :
    (∀ s : Settings, Settings.read s.write = .ok s.repaired) ∧
      (∀ text s, Settings.read text = .ok s → Settings.read s.write = .ok s) ∧
      (∀ (s : Settings) text, s.Abridged text → Settings.read text = Settings.read s.write) ∧
      ∀ f e config report, configReport f e config = .ok report →
        ∃ path s, e.settingsPath config = .ok path ∧ settings f e config = .ok s ∧
          report = Text.ofLines ["# " ++ path] ++ s.write ∧
          (∀ g shown, g.read shown = .ok (RawText.ofString s.write) →
            settings g e (some shown) = .ok s) ∧
          ∀ shown, f.read shown = .ok (RawText.ofString s.write) →
            (∀ languages d now a,
              runViewOn languages f e (some shown) d now a =
                runViewOn languages f e config d now a) ∧
              ∀ languages snapshot format,
                filtersReport languages f e (some shown) snapshot format =
                  filtersReport languages f e config snapshot format := by
  refine ⟨Settings.read_write, ?_, ?_, ?_⟩
  · intro text s hread
    rw [Settings.read_write, Settings.repaired_of_read hread]
  · intro s text htext
    rw [Settings.read_of_abridged htext, Settings.read_write]
  · intro f e config report hreport
    obtain ⟨path, s, hpath, hsettings, hshown⟩ := exists_of_configReport hreport
    refine ⟨path, s, hpath, hsettings, hshown,
      fun g shown hfile => settings_write hsettings hfile, ?_⟩
    intro shown hfile
    have hsame : settings f e (some shown) = settings f e config :=
      (settings_write hsettings hfile).trans hsettings.symm
    exact ⟨runViewOn_congr hsame, filtersReport_congr hsame⟩

/--
A text with a blank in it and a label with quotes and a break, a text with one entry only, and the
settings that are shown without any settings file.
-/
theorem settings_survive_text_quotes :
    let blank : Settings := { rules := { platform := " ", excludedLabels := ["\"\n'''"] } }
    let few : Settings := { rules := { excludedLabels := [] } }
    let e : Environment := { config := some "set.toml" }
    let g := ({} : Files).withItem ["kept.toml"] (.file (RawText.ofString ({} : Settings).write))
    Settings.read blank.write = .ok blank.repaired ∧ blank.repaired ≠ blank ∧
      Settings.read blank.repaired.write = .ok blank.repaired ∧
      few.Abridged "[filters]\nexcluded_labels = []\n" ∧
      Settings.read "[filters]\nexcluded_labels = []\n" = Settings.read few.write ∧
      settings {} e none = .ok {} ∧ settings g e (some "kept.toml") = .ok {} := by
  intro blank few e g
  obtain ⟨hwrite, hread, habridged, hshown⟩ := settings_survive_text
  have hfew : few.Abridged "[filters]\nexcluded_labels = []\n" := by
    refine ⟨[("filters", [("excluded_labels", .texts [])])], [], 0, .table ⟨?_, ?_⟩,
      .nothing ⟨?_, ?_⟩, rfl⟩
    all_goals decide
  have hsettings : settings {} e none = .ok {} := rfl
  obtain ⟨path, s, _, hforce, _, hkept, _⟩ := hshown {} e none _ rfl
  cases hsettings.symm.trans hforce
  exact ⟨hwrite blank, by decide +kernel, hread _ _ (hwrite blank), hfew, habridged few _ hfew,
    hsettings, hkept g "kept.toml" rfl⟩

end CommandLine
end AccessLedger
