import AccessLedger.Collation.Folding
import AccessLedger.CommandLine.Run
import AccessLedger.Proofs.Checked
import AccessLedger.Proofs.Session.Again
import AccessLedger.Proofs.Session.Commuting

/-!
What a view is made of, and what is left behind by one that fails. A view first reads all that it
needs and then makes its choices. With everything read and the group on offer there is a view to be
shown, for a session that has its snapshot and is not detached always displays it; so what can go
wrong after that is the printing, and what can go wrong after the printing is the saving.
-/

namespace AccessLedger

namespace Session

/-- An attached session, with a view of its snapshot as the choices stand. -/
structure Displays (o : Outlook) (now : Int) (p : Snapshot) (s : Session) : Prop where
  attached : s.attached = true
  snapshot : s.snapshot = some p
  view : s.view = some (o.viewWith s.options p s.selection now)

variable {o : Outlook} {now : Int} {p : Snapshot} {s : Session}

theorem displays_refresh (hattached : s.attached = true) (hsnapshot : s.snapshot = some p)
    (o : Outlook) (now : Int) : (s.refresh o now).Displays o now p := by
  rw [refresh_of_snapshot hsnapshot]
  exact ⟨hattached, hsnapshot, rfl⟩

theorem displays_delivered (hattached : s.attached = true) (o : Outlook) (now : Int)
    (p : Snapshot) :
    (s.step o now (.snapshot p)).Displays o now p := by
  have hne : Trigger.snapshot p ≠ .detach := by simp
  rw [step_eq_refresh hattached o now hne]
  apply displays_refresh
  · exact (frame_altered o s (.snapshot p)).1.trans hattached
  · exact snapshot_altered o s (.snapshot p)

theorem Displays.step (h : s.Displays o now p) {t : Trigger} (ht : t.isChoice = true) :
    (s.step o now t).Displays o now p := by
  have hne : t ≠ .detach := by
    rintro rfl
    cases ht
  have hother : (Event.trigger t).snapshot? = none := by
    cases t with
    | groupOption _ | timeOption _ | systemApps _ => rfl
    | snapshot _ | recompute | detach => cases ht
  rw [step_eq_refresh h.attached o now hne]
  apply displays_refresh
  · exact (frame_altered o s t).1.trans h.attached
  · rw [snapshot_altered, hother]
    exact h.snapshot

theorem Displays.foldl_step (h : s.Displays o now p) {ts : List Trigger}
    (hts : ∀ t ∈ ts, t.isChoice = true) :
    (ts.foldl (fun s t => s.step o now t) s).Displays o now p := by
  induction ts generalizing s with
  | nil => exact h
  | cons t ts ih =>
      rw [List.forall_mem_cons] at hts
      exact ih (h.step hts.1) hts.2

end Session

namespace CommandLine

open Collation (Languages)

section Choices

variable {o : Outlook} {now : Int} {a : ViewArguments} {p : Snapshot}
  {saved : Option SavedSelection} {s s' : Session}

theorem isChoice_of_mem_triggers {t : Trigger} (ht : t ∈ triggers a) : t.isChoice = true := by
  rcases eq_of_mem_triggers ht with ⟨_, rfl⟩ | ⟨_, rfl⟩
  · rfl
  · rfl

/-- Only a label that is not among the options is refused. -/
theorem exists_chosen_iff (label : Option String) :
    (∃ s', chooseGroup o now label s = .ok s') ↔
      ∀ wanted ∈ label, wanted ∈ s.options.groups.map (·.label) := by
  cases label with
  | none => simp [chooseGroup]
  | some wanted =>
      have hmem : wanted ∈ s.options.groups.map (·.label) ↔
          (s.options.groups.findIdx? (·.label == wanted)).isSome := by
        rw [List.findIdx?_isSome, List.any_eq_true, List.mem_map]
        simp only [beq_iff_eq]
      simp only [Option.mem_some_iff, forall_eq', hmem, chooseGroup]
      cases s.options.groups.findIdx? (·.label == wanted) with
      | none => simp
      | some position => simp

theorem exists_of_chooseGroup_eq_error {label : Option String} {failure : Failure}
    (h : chooseGroup o now label s = .error failure) :
    ∃ wanted, label = some wanted ∧ wanted ∉ s.options.groups.map (·.label) ∧
      failure = .unknownGroup wanted (s.options.groups.map (·.label)) := by
  have hrefused : ¬ ∃ s', chooseGroup o now label s = .ok s' := by
    rw [h]
    rintro ⟨_, ⟨⟩⟩
  rw [exists_chosen_iff] at hrefused
  push Not at hrefused
  obtain ⟨wanted, hwanted, hnot⟩ := hrefused
  rw [Option.mem_def] at hwanted
  rw [hwanted, chooseGroup] at h
  split at h
  · cases h
  · cases h
    exact ⟨wanted, hwanted, hnot, rfl⟩

theorem displays_chooseGroup {label : Option String} (h : s.Displays o now p)
    (hchoose : chooseGroup o now label s = .ok s') : s'.Displays o now p := by
  cases label with
  | none =>
      cases hchoose
      exact h
  | some wanted =>
      rw [CommandLine.chooseGroup] at hchoose
      split at hchoose
      · cases hchoose
        exact h.step rfl
      · cases hchoose

theorem displays_session (h : session o now saved a p = .ok s) : s.Displays o now p := by
  obtain ⟨chosen, hchoose, h⟩ := bind_eq_ok_iff.mp h
  cases h
  have hdelivered := Session.displays_delivered (s := .start o a.target saved) rfl o now p
  exact (displays_chooseGroup hdelivered hchoose).foldl_step fun _ => isChoice_of_mem_triggers

/-- The options are those of the snapshot, if it has groups. -/
theorem labels_delivered (o : Outlook) (now : Int) (target : Option String)
    (saved : Option SavedSelection) (p : Snapshot) :
    ((Session.start o target saved).step o now (.snapshot p)).options.groups.map (·.label) =
      if p.groups.isEmpty then [] else o.labelsOffered p := by
  cases hp : p.groups.isEmpty with
  | true =>
      have hempty : ∀ q, Trigger.snapshot p = .snapshot q → q.groups = [] := by
        rintro _ ⟨⟩
        exact List.isEmpty_iff.mp hp
      rw [((waiting_start o target saved).step o now hempty).options]
      rfl
  | false =>
      rw [Session.options_delivered (s := .start o target saved) rfl hp now]
      rfl

theorem exists_of_session_eq_error {failure : Failure}
    (h : session o now saved a p = .error failure) :
    ∃ label, a.group = some label ∧ label ∉ (if p.groups.isEmpty then [] else o.labelsOffered p) ∧
      failure = .unknownGroup label (if p.groups.isEmpty then [] else o.labelsOffered p) := by
  rcases bind_eq_error_iff.mp h with hchoose | ⟨_, _, ⟨⟩⟩
  rw [← labels_delivered o now a.target saved p]
  exact exists_of_chooseGroup_eq_error hchoose

theorem exists_session_iff (now : Int) :
    (∃ s, session o now saved a p = .ok s) ↔
      ∀ label ∈ a.group, label ∈ if p.groups.isEmpty then [] else o.labelsOffered p := by
  rw [← labels_delivered o now a.target saved p, ← exists_chosen_iff]
  constructor
  · intro h
    obtain ⟨s, hs⟩ := h
    obtain ⟨chosen, hchoose, _⟩ := bind_eq_ok_iff.mp hs
    exact ⟨chosen, hchoose⟩
  · intro h
    obtain ⟨chosen, hchoose⟩ := h
    exact ⟨_, bind_eq_ok_iff.mpr ⟨chosen, hchoose, rfl⟩⟩

end Choices

section Runs

variable {languages : Languages} {f : Files} {e : Environment} {config : Option String} {now : Int}
  {a : ViewArguments}

/-- What a view with a memory, or with none, reads before it makes its choices. -/
structure Sources (languages : Languages) (f : Files) (e : Environment) (config : Option String)
    (a : ViewArguments) (memory : Option String) where
  settings : Settings
  snapshot : Snapshot
  saved : Option SavedSelection
  outlook : Outlook
  settings_eq : CommandLine.settings f e config = .ok settings
  snapshot_eq : CommandLine.snapshot f a.snapshot = .ok snapshot
  saved_eq : remembered f memory = .ok saved
  outlook_eq : CommandLine.outlook settings languages = .ok outlook

namespace Sources

variable {memory : Option String} (x : Sources languages f e config a memory)

/-- The labels that a group can be chosen by. A snapshot without groups has none. -/
def labels : List String :=
  if x.snapshot.groups.isEmpty then [] else x.outlook.labelsOffered x.snapshot

def Offers : Prop :=
  ∀ label ∈ a.group, label ∈ x.labels

def view (now : Int) (s : Session) : View :=
  x.outlook.viewWith s.options x.snapshot s.selection now

def report (now : Int) (s : Session) : String :=
  (x.view now s).report (heading x.settings.labels (x.view now s) s) a.format

end Sources

section Reading

variable (languages f e config a)

/-- Everything can be read, and the group asked for is on offer. -/
def Ready : Prop :=
  ∃ memory, e.memoryPath? a.memory = .ok memory ∧
    ∃ x : Sources languages f e config a memory, x.Offers

/-- A part of a view that goes wrong, and the failure that it gives. -/
inductive Obstacle : Failure → Prop where
  | settings {failure : Failure} (h : settings f e config = .error failure) : Obstacle failure
  | snapshot {failure : Failure} (h : snapshot f a.snapshot = .error failure) : Obstacle failure
  | directory {failure : Failure} (h : e.memoryPath? a.memory = .error failure) : Obstacle failure
  | memory {failure : Failure} {path : Option String} (hpath : e.memoryPath? a.memory = .ok path)
      (h : remembered f path = .error failure) : Obstacle failure
  | locale {failure : Failure} {s : Settings} (hs : CommandLine.settings f e config = .ok s)
      (h : outlook s languages = .error failure) : Obstacle failure
  | group {path : Option String} (hpath : e.memoryPath? a.memory = .ok path)
      (x : Sources languages f e config a path) {label : String} (hlabel : a.group = some label)
      (h : label ∉ x.labels) : Obstacle (.unknownGroup label x.labels)

end Reading

theorem viewed_of_sources {memory : Option String} (hmemory : e.memoryPath? a.memory = .ok memory)
    (x : Sources languages f e config a memory) {s : Session}
    (hsession : session x.outlook now x.saved a x.snapshot = .ok s) :
    viewed languages f e config now a = .ok (x.report now s, memory.map (·, s.savedSelection)) := by
  refine bind_eq_ok_iff.mpr ⟨_, x.settings_eq, ?_⟩
  refine bind_eq_ok_iff.mpr ⟨_, x.snapshot_eq, ?_⟩
  refine bind_eq_ok_iff.mpr ⟨_, hmemory, ?_⟩
  refine bind_eq_ok_iff.mpr ⟨_, x.saved_eq, ?_⟩
  refine bind_eq_ok_iff.mpr ⟨_, x.outlook_eq, ?_⟩
  refine bind_eq_ok_iff.mpr ⟨_, hsession, ?_⟩
  rw [(displays_session hsession).view]
  rfl

theorem exists_sources {made : String × Option (String × SavedSelection)}
    (h : viewed languages f e config now a = .ok made) :
    ∃ memory, e.memoryPath? a.memory = .ok memory ∧
      ∃ x : Sources languages f e config a memory, ∃ s,
        session x.outlook now x.saved a x.snapshot = .ok s ∧
          made = (x.report now s, memory.map (·, s.savedSelection)) := by
  have hviewed := h
  obtain ⟨settings, hsettings, h⟩ := bind_eq_ok_iff.mp h
  obtain ⟨snapshot, hsnapshot, h⟩ := bind_eq_ok_iff.mp h
  obtain ⟨memory, hmemory, h⟩ := bind_eq_ok_iff.mp h
  obtain ⟨saved, hsaved, h⟩ := bind_eq_ok_iff.mp h
  obtain ⟨outlook, houtlook, h⟩ := bind_eq_ok_iff.mp h
  obtain ⟨s, hsession, _⟩ := bind_eq_ok_iff.mp h
  let x : Sources languages f e config a memory :=
    ⟨settings, snapshot, saved, outlook, hsettings, hsnapshot, hsaved, houtlook⟩
  have hmade := hviewed.symm.trans (viewed_of_sources hmemory x hsession)
  exact ⟨memory, hmemory, x, s, hsession, Except.ok.inj hmade⟩

/-- A view is ready exactly when there will be a report. -/
theorem ready_iff (now : Int) :
    Ready languages f e config a ↔ ∃ made, viewed languages f e config now a = .ok made := by
  constructor
  · intro h
    obtain ⟨memory, hmemory, x, hoffers⟩ := h
    obtain ⟨s, hsession⟩ := (exists_session_iff now).mpr hoffers
    exact ⟨_, viewed_of_sources hmemory x hsession⟩
  · intro h
    obtain ⟨made, hmade⟩ := h
    obtain ⟨memory, hmemory, x, s, hsession, _⟩ := exists_sources hmade
    exact ⟨memory, hmemory, x, (exists_session_iff now).mp ⟨s, hsession⟩⟩

theorem not_ready_of_error {failure : Failure}
    (h : viewed languages f e config now a = .error failure) : ¬ Ready languages f e config a := by
  rw [ready_iff now, h]
  rintro ⟨_, ⟨⟩⟩

/-- Once everything is read and the group is chosen there is a view, so no other part can fail. -/
theorem obstacle_of_error {failure : Failure}
    (h : viewed languages f e config now a = .error failure) :
    Obstacle languages f e config a failure := by
  rcases bind_eq_error_iff.mp h with hsettings | ⟨settings, hsettings, h⟩
  · exact .settings hsettings
  rcases bind_eq_error_iff.mp h with hsnapshot | ⟨snapshot, hsnapshot, h⟩
  · exact .snapshot hsnapshot
  rcases bind_eq_error_iff.mp h with hmemory | ⟨memory, hmemory, h⟩
  · exact .directory hmemory
  rcases bind_eq_error_iff.mp h with hsaved | ⟨saved, hsaved, h⟩
  · exact .memory hmemory hsaved
  rcases bind_eq_error_iff.mp h with houtlook | ⟨outlook, houtlook, h⟩
  · exact .locale hsettings houtlook
  rcases bind_eq_error_iff.mp h with hsession | ⟨s, hsession, h⟩
  · obtain ⟨label, hlabel, hnot, rfl⟩ := exists_of_session_eq_error hsession
    let x : Sources languages f e config a memory :=
      ⟨settings, snapshot, saved, outlook, hsettings, hsnapshot, hsaved, houtlook⟩
    exact .group hmemory x hlabel hnot
  · rw [(displays_session hsession).view] at h
    cases h

/-! No part of a view fails for want of a view. -/

theorem directory_ne_noView : e.directory ≠ .error .noView := by
  rw [Environment.directory]
  split
  · simp
  · exact ok_ne_error

theorem settings_ne_noView : settings f e config ≠ .error .noView := by
  have hpath : e.settingsPath config ≠ .error .noView := by
    unfold Environment.settingsPath
    split
    · exact ok_ne_error
    · split
      · exact bind_ne_error directory_ne_noView fun _ _ => ok_ne_error
      · exact ok_ne_error
    · exact bind_ne_error directory_ne_noView fun _ _ => ok_ne_error
  exact bind_ne_error hpath fun _ _ => mapError_ne_error (by simp)

theorem snapshot_ne_noView {path : String} : snapshot f path ≠ .error .noView := by
  rw [snapshot]
  split
  · simp
  · simp
  · exact mapError_ne_error (by simp)

theorem memoryPath?_ne_noView {memory : Memory} : e.memoryPath? memory ≠ .error .noView := by
  cases memory with
  | none | file _ => exact ok_ne_error
  | usual => exact bind_ne_error directory_ne_noView fun _ _ => ok_ne_error

theorem remembered_ne_noView {memory : Option String} : remembered f memory ≠ .error .noView := by
  cases memory with
  | none => exact ok_ne_error
  | some path => exact mapError_ne_error (by simp)

theorem Obstacle.ne_noView {failure : Failure} (h : Obstacle languages f e config a failure) :
    failure ≠ .noView := by
  rintro rfl
  cases h with
  | settings h => exact settings_ne_noView h
  | snapshot h => exact snapshot_ne_noView h
  | directory h => exact memoryPath?_ne_noView h
  | memory _ h => exact remembered_ne_noView h
  | locale _ h => exact mapError_ne_error (by simp) h

section Printing

/--
What comes of a report, by the device it goes to. Of a report that is cut off a part is printed and
nothing is saved. After a whole report the choices of its session are saved if there is a memory,
which may fail.
-/
inductive Delivered (d : Device) (f : Files) (report : String) (memory : Option String)
    (chosen : SavedSelection) : Outcome → Prop where
  | cut {taken cause : String} (hprinted : d report = .cut taken cause) :
      Delivered d f report memory chosen
        { output := taken, failure := some (.output cause), files := f }
  | whole (hprinted : d report = .whole) (hmemory : memory = none) :
      Delivered d f report memory chosen { output := report, failure := none, files := f }
  | saved {path : String} {files : Files} {fault : Option StorageFault}
      (hprinted : d report = .whole) (hmemory : memory = some path)
      (hsave : f.saveSelection path chosen = (files, fault)) :
      Delivered d f report memory chosen
        { output := report, failure := fault.map .selection, files }

theorem delivered_published (d : Device) (f : Files) (report : String) (memory : Option String)
    (chosen : SavedSelection) :
    Delivered d f report memory chosen (published f d report (memory.map (·, chosen))) := by
  cases hprinted : d report with
  | cut taken cause =>
      simp only [published, hprinted]
      exact .cut hprinted
  | whole =>
      cases memory with
      | none =>
          simp only [published, hprinted, Option.map_none]
          exact .whole hprinted rfl
      | some path =>
          simp only [published, hprinted, Option.map_some]
          exact .saved hprinted rfl rfl

namespace Delivered

variable {d : Device} {report : String} {memory : Option String} {chosen : SavedSelection}
  {out : Outcome} (h : Delivered d f report memory chosen out)
include h

theorem failure_ne_noView : out.failure ≠ some .noView := by
  cases h with
  | cut _ | whole _ _ => simp
  | saved _ _ _ => simp [Option.map_eq_some_iff]

/-- A report that goes with a failure was cut off, or its choices could not be saved. -/
theorem cut_or_unsaved {failure : Failure} (hfailure : out.failure = some failure) :
    (out.files = f ∧ ∃ cause, failure = .output cause) ∨
      ∃ path fault, memory = some path ∧ d out.output = .whole ∧
        f.saveSelection path chosen = (out.files, some fault) ∧ failure = .selection fault := by
  cases h with
  | cut _ =>
      cases hfailure
      exact .inl ⟨rfl, _, rfl⟩
  | whole _ _ => cases hfailure
  | saved hprinted hmemory hsave =>
      obtain ⟨fault, rfl, rfl⟩ := Option.map_eq_some_iff.mp hfailure
      exact .inr ⟨_, fault, hmemory, hprinted, hsave, rfl⟩

theorem saved_of_whole (hprinted : d report = .whole) {path : String}
    (hmemory : memory = some path) :
    out.output = report ∧ ∃ fault, f.saveSelection path chosen = (out.files, fault) ∧
      out.failure = fault.map .selection := by
  cases h with
  | cut hcut => cases hprinted.symm.trans hcut
  | whole _ hnone => cases hmemory.symm.trans hnone
  | saved _ hsome hsave =>
      cases hmemory.symm.trans hsome
      exact ⟨rfl, _, hsave, rfl⟩

theorem saved_of_changed (hchanged : out.files ≠ f) :
    ∃ path, memory = some path ∧ d out.output = .whole ∧
      out.files = (f.saveSelection path chosen).1 := by
  cases h with
  | cut _ | whole _ _ => exact absurd rfl hchanged
  | saved hprinted hmemory hsave => exact ⟨_, hmemory, hprinted, (congrArg Prod.fst hsave).symm⟩

end Delivered

end Printing

/-- A run that reads, makes its view, prints the report of it and saves, in this order. -/
structure Orderly (languages : Languages) (d : Device) (f : Files) (e : Environment)
    (config : Option String) (now : Int) (a : ViewArguments) (out : Outcome) : Prop where
  /-- What cannot be read or is not on offer is found out before anything is printed. -/
  refused : ¬ Ready languages f e config a →
    ∃ failure, Obstacle languages f e config a failure ∧
      out = { output := "", failure := some failure, files := f }
  /-- With everything read and the group on offer there is a view, and a report of it. -/
  shown : ∀ memory, e.memoryPath? a.memory = .ok memory →
    ∀ x : Sources languages f e config a memory, x.Offers →
      ∃ s, session x.outlook now x.saved a x.snapshot = .ok s ∧ s.view = some (x.view now s) ∧
        Delivered d f (x.report now s) memory s.savedSelection out
  viewed : out.failure ≠ some .noView
  /--
  A failure leaves all files as they were, unless it is that of saving, after all of the report.
  -/
  failed : ∀ failure, out.failure = some failure →
    (out.files = f ∧ (out.output = "" ∨ ∃ cause, failure = .output cause)) ∨
      ∃ path s fault, e.memoryPath? a.memory = .ok (some path) ∧ d out.output = .whole ∧
        f.saveSelection path s = (out.files, some fault) ∧ failure = .selection fault
  /-- With a report that is not printed in full nothing is saved. -/
  cut : ∀ cause, out.failure = some (.output cause) → out.files = f
  unremembered : a.memory = .none → out.files = f
  /-- Files that have changed were saved as a memory, with all of the report printed. -/
  changed : out.files ≠ f → ∃ path s, e.memoryPath? a.memory = .ok (some path) ∧
    d out.output = .whole ∧ out.files = (f.saveSelection path s).1

theorem delivered_runViewOn (d : Device) {memory : Option String}
    (hmemory : e.memoryPath? a.memory = .ok memory) (x : Sources languages f e config a memory)
    {s : Session} (hsession : session x.outlook now x.saved a x.snapshot = .ok s) :
    Delivered d f (x.report now s) memory s.savedSelection
      (runViewOn languages f e config d now a) := by
  rw [runViewOn, viewed_of_sources hmemory x hsession]
  exact delivered_published d f _ memory _

theorem runViewOn_of_error (d : Device) {failure : Failure}
    (h : viewed languages f e config now a = .error failure) :
    runViewOn languages f e config d now a =
      { output := "", failure := some failure, files := f } := by
  rw [runViewOn, h]

theorem orderly_runViewOn (languages : Languages) (d : Device) (f : Files) (e : Environment)
    (config : Option String) (now : Int) (a : ViewArguments) :
    Orderly languages d f e config now a (runViewOn languages f e config d now a) := by
  cases hviewed : viewed languages f e config now a with
  | error failure =>
      have hunready := not_ready_of_error hviewed
      have hobstacle := obstacle_of_error hviewed
      rw [runViewOn_of_error d hviewed]
      exact {
        refused := fun _ => ⟨failure, hobstacle, rfl⟩
        shown := fun memory hmemory x hoffers => absurd ⟨memory, hmemory, x, hoffers⟩ hunready
        viewed := fun heq => hobstacle.ne_noView (Option.some.inj heq)
        failed := fun _ _ => .inl ⟨rfl, .inl rfl⟩
        cut := fun _ _ => rfl
        unremembered := fun _ => rfl
        changed := fun hne => absurd rfl hne }
  | ok made =>
      obtain ⟨memory, hmemory, x, s, hsession, _⟩ := exists_sources hviewed
      have hdelivered := delivered_runViewOn d hmemory x hsession
      refine ⟨?_, ?_, hdelivered.failure_ne_noView, ?_, ?_, ?_, ?_⟩
      · exact fun hunready => absurd ((ready_iff now).mpr ⟨made, hviewed⟩) hunready
      · intro memory hmemory x hoffers
        obtain ⟨s, hsession⟩ := (exists_session_iff now).mpr hoffers
        exact ⟨s, hsession, (displays_session hsession).view,
          delivered_runViewOn d hmemory x hsession⟩
      · intro failure hfailure
        rcases hdelivered.cut_or_unsaved hfailure with
          ⟨hfiles, hcause⟩ | ⟨path, fault, rfl, hunsaved⟩
        · exact .inl ⟨hfiles, .inr hcause⟩
        · exact .inr ⟨path, _, fault, hmemory, hunsaved⟩
      · intro cause hfailure
        rcases hdelivered.cut_or_unsaved hfailure with ⟨hfiles, _⟩ | ⟨_, _, _, _, _, ⟨⟩⟩
        exact hfiles
      · intro hnone
        rw [hnone] at hmemory
        cases hmemory
        by_contra hchanged
        obtain ⟨_, ⟨⟩, _⟩ := hdelivered.saved_of_changed hchanged
      · intro hchanged
        obtain ⟨path, rfl, hsaved⟩ := hdelivered.saved_of_changed hchanged
        exact ⟨path, _, hmemory, hsaved⟩

end Runs

/--
A library that knows the root locale, with an order that is good for labels of which there is one.
-/
def rootLanguages : Languages where
  Locale := Unit
  read tag := if tag = "und" then .ok () else .error "unknown"
  tag _ := "und"
  order _ := .ok Collation.folding

/-- Settings with a text of their own, and a snapshot of a single group that nothing has used. -/
def cameraFiles : Files where
  items := [
    (["c.toml"], .file (RawText.ofString "[display]\nany_group_label = \"Everything\"\n")),
    (["s.json"], .file (RawText.ofString "[[[\"camera\", \"Camera\", \"android\"]]]"))]

def cameraView : ViewArguments where
  snapshot := "s.json"
  group := some "Camera"
  time := some .lastHour
  showSystem := some true
  now := some 5
  memory := .file "m/state.toml"

/-- A device that has room for the first line of a report. -/
def oneLine : Device := fun report =>
  .cut (String.ofList (report.toList.takeWhile (· != '\n'))) "no space left"

def cameraOutcome (d : Device) (a : ViewArguments) : Outcome :=
  runViewOn rootLanguages cameraFiles {} (some "c.toml") d 5 a

/-- The same view of a group that is not there. -/
def storageView : ViewArguments :=
  { cameraView with group := some "Storage" }

theorem camera_outcomes :
    (cameraOutcome .unlimited cameraView).output =
        "Permission usage (Camera / Last hour)\n" ++ String.ofList (List.replicate 50 '─') ++
          "\nNo permission usage found.\n" ∧
      (cameraOutcome .unlimited cameraView).failure.isNone = true ∧
      (cameraOutcome .unlimited cameraView).files ≠ cameraFiles ∧
      (cameraOutcome oneLine cameraView).output = "Permission usage (Camera / Last hour)" ∧
      (cameraOutcome oneLine cameraView).failure.map (·.chain {}) = some ["no space left"] ∧
      (cameraOutcome .unlimited storageView).failure.map (·.chain {}) =
        some ["unknown permission filter 'Storage', available: Everything, Camera"] ∧
      (viewed rootLanguages cameraFiles {} (some "c.toml") 5 storageView).isOk = false := by
  decide +kernel

/--
A report that is printed whole, with its choices saved; the same report, with no room for more than
a line of it; and a group that is not on offer.
-/
theorem orderly_runViewOn_camera :
    let printed := cameraOutcome .unlimited cameraView
    let cut := cameraOutcome oneLine cameraView
    let refused := cameraOutcome .unlimited storageView
    (∃ (x : Sources rootLanguages cameraFiles {} (some "c.toml") cameraView (some "m/state.toml"))
        (s : Session),
      s.view = some (x.view 5 s) ∧ printed.output = x.report 5 s ∧
        printed.output =
          "Permission usage (Camera / Last hour)\n" ++ String.ofList (List.replicate 50 '─') ++
            "\nNo permission usage found.\n" ∧
        cameraFiles.saveSelection "m/state.toml" s.savedSelection = (printed.files, none) ∧
        printed.files ≠ cameraFiles) ∧
      (cut.output = "Permission usage (Camera / Last hour)" ∧ cut.files = cameraFiles ∧
        cut.failure.map (·.chain {}) = some ["no space left"]) ∧
      ∃ failure, Obstacle rootLanguages cameraFiles {} (some "c.toml") storageView failure ∧
        failure.chain {} =
          ["unknown permission filter 'Storage', available: Everything, Camera"] ∧
        refused = { output := "", failure := some failure, files := cameraFiles } := by
  intro printed cut refused
  obtain ⟨houtput, hnone, hchanged, hline, hcut, hunknown, hbad⟩ := camera_outcomes
  refine ⟨?_, ⟨hline, ?_, hcut⟩, ?_⟩
  · have horderly : Orderly _ _ _ _ _ _ _ printed :=
      orderly_runViewOn rootLanguages .unlimited cameraFiles {} (some "c.toml") 5 cameraView
    have hready : Ready rootLanguages cameraFiles {} (some "c.toml") cameraView := by
      by_contra hunready
      obtain ⟨_, _, hrefused⟩ := horderly.refused hunready
      cases hnone.symm.trans (congrArg (·.failure.isNone) hrefused)
    obtain ⟨_, ⟨⟩, x, hoffers⟩ := hready
    obtain ⟨s, _, hview, hdelivered⟩ := horderly.shown _ rfl x hoffers
    obtain ⟨hreport, fault, hsave, hfault⟩ := hdelivered.saved_of_whole rfl rfl
    rw [Option.isNone_iff_eq_none.mp hnone] at hfault
    cases Option.map_eq_none_iff.mp hfault.symm
    exact ⟨x, s, hview, hreport, houtput, hsave, hchanged⟩
  · have horderly : Orderly _ _ _ _ _ _ _ cut :=
      orderly_runViewOn rootLanguages oneLine cameraFiles {} (some "c.toml") 5 cameraView
    obtain ⟨failure, hfailure, _⟩ := Option.map_eq_some_iff.mp hcut
    rcases horderly.failed failure hfailure with ⟨hfiles, _⟩ | ⟨_, _, _, _, ⟨⟩, _⟩
    exact hfiles
  · have horderly : Orderly _ _ _ _ _ _ _ refused :=
      orderly_runViewOn rootLanguages .unlimited cameraFiles {} (some "c.toml") 5 storageView
    have hunready : ¬ Ready rootLanguages cameraFiles {} (some "c.toml") storageView := by
      rw [ready_iff 5]
      rintro ⟨made, hmade⟩
      rw [hmade] at hbad
      cases hbad
    obtain ⟨failure, hobstacle, hrefused⟩ := horderly.refused hunready
    have hfailure : refused.failure = some failure := congrArg Outcome.failure hrefused
    obtain ⟨_, hsome, hchain⟩ := Option.map_eq_some_iff.mp hunknown
    cases hfailure.symm.trans hsome
    exact ⟨failure, hobstacle, hchain, hrefused⟩

end CommandLine
end AccessLedger
