import AccessLedger.Proofs.CommandLine.Viewing
import AccessLedger.Proofs.Storage.Stored

/-!
Views with a memory. A view that did not fail is shown again, by a run that makes no choices of its
own and has the same memory, and that run leaves all files as they are.
-/

namespace AccessLedger.CommandLine

open Collation (Languages)
open Session

/-- The arguments of the same view, with no choices. -/
def ViewArguments.withoutChoices (a : ViewArguments) : ViewArguments :=
  { a with group := none, time := none, showSystem := none }

section Sessions

variable {o : Outlook} {p : Snapshot} {now : Int} {s s' : Session} {a : ViewArguments}

theorem shows_chooseGroup {label : Option String} (h : s.Shows o now p)
    (hchoose : chooseGroup o now label s = .ok s') : s'.Shows o now p := by
  cases label with
  | none =>
      cases hchoose
      exact h
  | some label =>
      cases hp : p.groups.isEmpty with
      | true =>
          rw [eq_of_chooseGroup (h.unchosen hp).1 hchoose]
          exact h
      | false =>
          rw [chooseGroup, (h.chosen hp).1] at hchoose
          split at hchoose
          · next position hposition =>
            cases hchoose
            exact h.step (atLabel_of_findIdx? hposition)
          · cases hchoose

/-- The other choices leave the group where it is. -/
theorem choosesByLabel_triggers (o : Outlook) (p : Snapshot) (a : ViewArguments) :
    ∀ t ∈ triggers a, t.ChoosesByLabel o p := by
  intro t ht
  rcases eq_of_mem_triggers ht with ⟨_, rfl⟩ | ⟨_, rfl⟩
  · trivial
  · trivial

/-- Without a target, a view is made with a group at the first place of its label. -/
theorem shows_session {saved : Option SavedSelection} (hsaved : ∀ x ∈ saved, x.Labelled)
    (htarget : a.target = none) (h : session o now saved a p = .ok s) : s.Shows o now p := by
  rw [session, htarget, bind_eq_ok_iff] at h
  obtain ⟨chosen, hchoose, h⟩ := h
  cases h
  have hchosen := shows_chooseGroup (shows_delivered now hsaved) hchoose
  exact hchosen.foldl_step (choosesByLabel_triggers o p a)

/-- A run without choices of its own goes on from what was saved. -/
theorem session_restarted (o : Outlook) (now : Int) (p : Snapshot) (s : Session)
    (htarget : a.target = none) :
    session o now (some s.savedSelection) a.withoutChoices p =
      .ok ((s.restarted o).step o now (.snapshot p)) := by
  rw [session, ViewArguments.withoutChoices, htarget]
  rfl

theorem heading_congr (l : Labels) (v : View) (h : SameShown s s') :
    heading l v s' = heading l v s := by
  rw [heading, heading, h.group, h.timePosition, h.showSystem]

end Sessions

section Runs

variable {languages : Languages} {f g : Files} {e : Environment} {config : Option String}
  {now : Int} {a : ViewArguments} {path : String}

/--
A view with a memory that comes about: what is read for it, and the session that is made of that.
-/
structure Viewing (languages : Languages) (f : Files) (e : Environment) (config : Option String)
    (now : Int) (a : ViewArguments) (path : String)
    extends Sources languages f e config a (some path) where
  session : Session
  session_eq : CommandLine.session outlook now saved a snapshot = .ok session

namespace Viewing

variable (x : Viewing languages f e config now a path)

def report : String :=
  x.toSources.report now x.session

theorem load_eq : f.loadSelection? path = .ok x.saved :=
  mapError_eq_ok_iff.mp x.saved_eq

end Viewing

theorem run_view_eq {clock : Int} (hnow : a.now.getD clock = now) :
    run f e clock ⟨config, .view a⟩ languages = runView languages f e config now a := by
  rw [← hnow]
  rfl

variable (hpath : e.memoryPath? a.memory = .ok (some path))
include hpath

theorem delivered_run (x : Viewing languages f e config now a path) {clock : Int}
    (hnow : a.now.getD clock = now) :
    Delivered .unlimited f x.report (some path) x.session.savedSelection
      (run f e clock ⟨config, .view a⟩ languages) := by
  rw [run_view_eq hnow, runView]
  exact delivered_runViewOn .unlimited hpath x.toSources x.session_eq

/-- A view that does not fail saves what it was made with. -/
theorem exists_of_run {clock : Int} (hnow : a.now.getD clock = now)
    (h : (run f e clock ⟨config, .view a⟩ languages).failure = none) :
    ∃ x : Viewing languages f e config now a path,
      (run f e clock ⟨config, .view a⟩ languages).output = x.report ∧
        f.saveSelection path x.session.savedSelection =
          ((run f e clock ⟨config, .view a⟩ languages).files, none) := by
  cases hviewed : viewed languages f e config now a with
  | error failure =>
      rw [run_view_eq hnow, runView, runViewOn_of_error .unlimited hviewed] at h
      cases h
  | ok made =>
      obtain ⟨memory, hmemory, sources, session, hsession, _⟩ := exists_sources hviewed
      cases hpath.symm.trans hmemory
      let x : Viewing languages f e config now a path := ⟨sources, session, hsession⟩
      obtain ⟨houtput, fault, hsave, hfailure⟩ :=
        (delivered_run hpath x hnow).saved_of_whole rfl rfl
      rw [h] at hfailure
      cases Option.map_eq_none_iff.mp hfailure.symm
      exact ⟨x, houtput, hsave⟩

theorem run_of_viewing (x : Viewing languages f e config now a path) {clock : Int}
    (hnow : a.now.getD clock = now)
    (h : f.saveSelection path x.session.savedSelection = (g, none)) :
    let out := run f e clock ⟨config, .view a⟩ languages
    out.failure = none ∧ out.output = x.report ∧ out.files = g := by
  intro out
  obtain ⟨houtput, fault, hsave, hfailure⟩ := (delivered_run hpath x hnow).saved_of_whole rfl rfl
  cases h.symm.trans hsave
  exact ⟨hfailure, houtput, rfl⟩

end Runs

/--
There is no such file, or in it is what an earlier view has saved, without failing, as its memory.
-/
def Remembered (f : Files) (path : String) : Prop :=
  f.read path = .error .missing ∨
    ∃ (languages : Languages) (before : Files) (e : Environment) (clock : Int)
      (config : Option String) (a : ViewArguments) (earlier : String),
      e.memoryPath? a.memory = .ok (some earlier) ∧
      (run before e clock ⟨config, .view a⟩ languages).failure = none ∧
      f.read path = (run before e clock ⟨config, .view a⟩ languages).files.read earlier

/--
The snapshot and the settings of a run are other files than its memory. The settings are the same
for a run that comes after it: where there was no file of them, the run that saves its memory has
not made one.
-/
structure Apart (f after : Files) (e : Environment) (config : Option String)
    (snapshot path : String) : Prop where
  snapshot : after.place? snapshot ≠ after.place? path
  settings : ∀ named, e.settingsPath config = .ok named → after.place? named ≠ after.place? path
  unset : ∀ named, e.settingsPath config = .ok named → f.read named = .error .missing →
    after.read named = .error .missing

section Again

variable {languages : Languages} {f after : Files} {e : Environment} {config : Option String}
  {path : String}

theorem labelled_of_remembered (h : Remembered f path) {saved : Option SavedSelection}
    (hsaved : f.loadSelection? path = .ok saved) : ∀ x ∈ saved, x.Labelled := by
  rcases h with
    hmissing | ⟨languages, before, e, clock, config, a, earlier, hearlier, hsuccess, hread⟩
  · have hnone : f.loadSelection? path = .ok none := by
      simp only [Files.loadSelection?, Files.readText?, hmissing]
      rfl
    rw [hnone] at hsaved
    cases hsaved
    rintro _ ⟨⟩
  · obtain ⟨x, _, hsave⟩ := exists_of_run hearlier rfl hsuccess
    obtain ⟨text, hwritten, hsave⟩ := Files.exists_of_saveSelection hsave
    rw [Files.read_save hsave] at hread
    rw [Files.loadSelection?_of_read hwritten hread] at hsaved
    cases hsaved
    rintro _ ⟨⟩
    exact labelled_savedSelection x.session

theorem settings_congr
    (h : ∀ named, e.settingsPath config = .ok named → after.read named = f.read named) :
    settings after e config = settings f e config := by
  rw [settings, settings]
  cases hnamed : e.settingsPath config with
  | error _ => rfl
  | ok named =>
      show (after.loadSettings named).mapError _ = (f.loadSettings named).mapError _
      rw [Files.loadSettings, Files.loadSettings, Files.readText?, Files.readText?, h named hnamed]

/-- Settings that were read came from a file, or there was none. -/
theorem read_of_settings {s : Settings} {named : String}
    (hnamed : e.settingsPath config = .ok named) (h : settings f e config = .ok s) :
    f.read named = .error .missing ∨ ∃ text, f.read named = .ok text := by
  rw [settings, hnamed] at h
  have hload : f.loadSettings named = .ok s := mapError_eq_ok_iff.mp h
  obtain ⟨text, htext, _⟩ := bind_eq_ok_iff.mp hload
  rw [Files.readText?] at htext
  split at htext
  · next hread => exact .inl hread
  · cases htext
  · next hread => exact .inr ⟨_, hread⟩

theorem exists_read_of_snapshot {s : Snapshot} {named : String} (h : snapshot f named = .ok s) :
    ∃ text, f.read named = .ok text := by
  rw [snapshot] at h
  split at h
  · cases h
  · cases h
  · next hread => exact ⟨_, hread⟩

theorem snapshot_congr {named : String} (h : after.read named = f.read named) :
    snapshot after named = snapshot f named := by
  rw [snapshot, snapshot, h]

section Saved

variable {a : ViewArguments} {now : Int}

/-- What a view has read is read again after it has saved its choices. -/
theorem reads_of_apart (x : Viewing languages f e config now a path)
    (hsave : f.saveSelection path x.session.savedSelection = (after, none))
    (hapart : Apart f after e config a.snapshot path) :
    settings after e config = .ok x.settings ∧ snapshot after a.snapshot = .ok x.snapshot := by
  obtain ⟨text, _, hsave⟩ := Files.exists_of_saveSelection hsave
  have hsettings : ∀ named, e.settingsPath config = .ok named →
      after.read named = f.read named := by
    intro named hnamed
    rcases read_of_settings hnamed x.settings_eq with hmissing | ⟨text, hread⟩
    · rw [hmissing, hapart.unset named hnamed hmissing]
    · rw [hread, Files.read_of_save hsave (hapart.settings named hnamed) hread]
  obtain ⟨text, hread⟩ := exists_read_of_snapshot x.snapshot_eq
  have hsnapshot : after.read a.snapshot = f.read a.snapshot := by
    rw [hread, Files.read_of_save hsave hapart.snapshot hread]
  rw [settings_congr hsettings, snapshot_congr hsnapshot]
  exact ⟨x.settings_eq, x.snapshot_eq⟩

/-- The same view, made after its choices were saved and from these alone. -/
theorem exists_viewing_again (x : Viewing languages f e config now a path)
    (htarget : a.target = none) (hmemory : Remembered f path)
    (hsave : f.saveSelection path x.session.savedSelection = (after, none))
    (hapart : Apart f after e config a.snapshot path) :
    ∃ again : Viewing languages after e config now a.withoutChoices path,
      again.report = x.report ∧ again.session.savedSelection = x.session.savedSelection := by
  obtain ⟨hsettings, hsnapshot⟩ := reads_of_apart x hsave hapart
  have hshows := shows_session (labelled_of_remembered hmemory x.load_eq) htarget x.session_eq
  have hshown := hshows.restarted
  let again : Viewing languages after e config now a.withoutChoices path :=
    { settings := x.settings, snapshot := x.snapshot, saved := some x.session.savedSelection
      outlook := x.outlook
      session := (x.session.restarted x.outlook).step x.outlook now (.snapshot x.snapshot)
      settings_eq := hsettings, snapshot_eq := hsnapshot
      saved_eq := mapError_eq_ok_iff.mpr (Files.loadSelection?_saveSelection hsave)
      outlook_eq := x.outlook_eq
      session_eq := session_restarted x.outlook now x.snapshot x.session htarget }
  have hview : again.toSources.view now again.session = x.toSources.view now x.session := by
    have hagain := (displays_session again.session_eq).view.symm.trans hshown.view
    exact Option.some.inj (hagain.trans (displays_session x.session_eq).view)
  refine ⟨again, ?_, hshown.savedSelection⟩
  rw [Viewing.report, Sources.report, hview, heading_congr _ _ hshown]
  rfl

end Saved

end Again

/--
A view with a memory that does not fail is shown again, as of the same moment, by a run that is
given no choices, whatever choices the first run was given. The second run leaves all files as the
first one did.
-/
theorem view_again (languages : Languages) (f : Files) (e : Environment) (clock clock' now : Int)
    (config : Option String) (a : ViewArguments) (path : String)
    (hpath : e.memoryPath? a.memory = .ok (some path))
    (htarget : a.target = none) (hnow : a.now = some now) (hmemory : Remembered f path)
    (hsuccess : (run f e clock ⟨config, .view a⟩ languages).failure = none)
    (hapart : Apart f (run f e clock ⟨config, .view a⟩ languages).files e config a.snapshot path) :
    let first := run f e clock ⟨config, .view a⟩ languages
    let again := run first.files e clock' ⟨config, .view a.withoutChoices⟩ languages
    again.failure = none ∧ again.output = first.output ∧ again.files = first.files ∧
      ∃ text, first.files.read path = .ok text ∧ again.files.read path = .ok text := by
  intro first again
  have hfirst : a.now.getD clock = now := by rw [hnow]; rfl
  have hagain : a.withoutChoices.now.getD clock' = now := by
    rw [ViewArguments.withoutChoices, hnow]
    rfl
  obtain ⟨x, houtput, hsave⟩ := exists_of_run hpath hfirst hsuccess
  obtain ⟨y, hreport, hselection⟩ := exists_viewing_again x htarget hmemory hsave hapart
  have hsaveAgain :
      first.files.saveSelection path y.session.savedSelection = (first.files, none) := by
    rw [hselection]
    exact Files.saveSelection_saveSelection hsave
  obtain ⟨hfailure, houtputAgain, hfiles⟩ : again.failure = none ∧ again.output = y.report ∧
      again.files = first.files :=
    run_of_viewing (a := a.withoutChoices) hpath y hagain hsaveAgain
  obtain ⟨text, _, hwrite⟩ := Files.exists_of_saveSelection hsave
  have hread : first.files.read path = .ok (RawText.ofString text) := Files.read_save hwrite
  refine ⟨hfailure, ?_, hfiles, _, hread, ?_⟩
  · rw [houtputAgain, hreport, houtput]
  · rw [hfiles, hread]

/-- A view without choices, which makes the memory and the directory that it is in. -/
def cameraEarlier : Outcome :=
  run cameraFiles {} 0 ⟨some "c.toml", .view cameraView.withoutChoices⟩ rootLanguages

def cameraFirst : Outcome :=
  run cameraEarlier.files {} 0 ⟨some "c.toml", .view cameraView⟩ rootLanguages

def cameraAgain : Outcome :=
  run cameraFirst.files {} 7 ⟨some "c.toml", .view cameraView.withoutChoices⟩ rootLanguages

theorem camera_runs :
    cameraEarlier.failure.isNone = true ∧ cameraFirst.failure.isNone = true ∧
      (cameraEarlier.files.read "c.toml").toOption.isSome = true ∧
      cameraFirst.files.place? "s.json" ≠ cameraFirst.files.place? "m/state.toml" ∧
      cameraFirst.files.place? "c.toml" ≠ cameraFirst.files.place? "m/state.toml" := by
  decide +kernel

/-- The memory of a view of everything is replaced by that of a view with three choices. -/
theorem view_again_camera :
    Remembered cameraEarlier.files "m/state.toml" ∧ cameraFirst.failure = none ∧
      Apart cameraEarlier.files cameraFirst.files {} (some "c.toml") "s.json" "m/state.toml" ∧
      cameraAgain.failure = none ∧ cameraAgain.output = cameraFirst.output ∧
      cameraAgain.files = cameraFirst.files := by
  obtain ⟨hearlier, hsuccess, hsettings, hsnapshot, hplace⟩ := camera_runs
  rw [Option.isNone_iff_eq_none] at hearlier hsuccess
  have hmemory : Remembered cameraEarlier.files "m/state.toml" :=
    .inr ⟨rootLanguages, cameraFiles, {}, 0, some "c.toml", cameraView.withoutChoices,
      "m/state.toml", rfl, hearlier, rfl⟩
  have hapart :
      Apart cameraEarlier.files cameraFirst.files {} (some "c.toml") "s.json" "m/state.toml" := by
    refine ⟨hsnapshot, ?_, ?_⟩
    · rintro _ ⟨⟩
      exact hplace
    · rintro _ ⟨⟩ hmissing
      rw [hmissing] at hsettings
      cases hsettings
  obtain ⟨hagain, houtput, hfiles, _⟩ :=
    view_again rootLanguages cameraEarlier.files {} 0 7 5 (some "c.toml") cameraView "m/state.toml"
      rfl rfl rfl hmemory hsuccess hapart
  exact ⟨hmemory, hsuccess, hapart, hagain, houtput, hfiles⟩

end AccessLedger.CommandLine
