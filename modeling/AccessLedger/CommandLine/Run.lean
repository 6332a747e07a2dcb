import AccessLedger.Collation.Locale
import AccessLedger.CommandLine.Arguments
import AccessLedger.Snapshot.Json
import AccessLedger.Storage.Stored

/-!
What the commands do. A run is a function of the files, the environment and the time, of the library
of languages, and of the device that its report goes to; it says what is printed, what fails, and
what the files are afterwards. Nothing is written before everything else is done.
-/

namespace AccessLedger.CommandLine

open Collation (Languages)

/-- What a run is told about its surroundings, each part only if it is set. -/
structure Environment where
  home : Option String := none
  profile : Option String := none
  /-- The settings file unless one is named on the command line. -/
  config : Option String := none
deriving DecidableEq, Inhabited, Repr

structure Wording where
  toml : Toml.Fault → String := Toml.Fault.message
  json : RawText → Json.Fault → String := fun text f => f.message text

inductive Failure where
  | noHome
  | settings (path : String) (cause : StorageFault)
  | snapshotAccess (path : String) (cause : AccessFault)
  | snapshotRead (path : String) (cause : AccessFault)
  | snapshotParse (path : String) (text : RawText) (cause : Json.Fault)
  | selection (cause : StorageFault)
  | locale (tag : String) (cause : Collation.LocaleFault)
  | unknownGroup (label : String) (available : List String)
  | noView
  | output (cause : String)
deriving Inhabited, Repr

namespace Failure

def readMessage (path : String) : String :=
  "Failed to read snapshot " ++ path

/-- The failure, then its causes. A cause may be told twice, once in the words of what it caused. -/
def chain (w : Wording) : Failure → List String
  | noHome => ["Could not determine home directory", "environment variable not found"]
  | settings path cause =>
    ["Failed to load config at " ++ path, cause.message w.toml, cause.cause w.toml]
  | snapshotAccess path cause => ["Failed to open snapshot " ++ path, cause.message]
  | snapshotRead path cause =>
    [readMessage path, Snapshot.unreadable ++ ": " ++ cause.message, cause.message]
  | snapshotParse path text cause =>
    [readMessage path, Snapshot.unreadable ++ ": " ++ w.json text cause, w.json text cause]
  | selection cause => [cause.message w.toml, cause.cause w.toml]
  | .locale tag cause => [Settings.localeMessage tag, cause.message]
  | unknownGroup label available =>
    ["unknown permission filter '" ++ label ++ "', available: " ++
      String.intercalate ", " available]
  | noView => ["Permission usage view was not computed"]
  | output cause => [cause]

def message (w : Wording) (f : Failure) : String :=
  "Error: " ++ String.intercalate ": " (f.chain w)

end Failure

/--
What becomes of a text on its way out: all of it is taken, or a part of it and the rest is refused.
-/
inductive Printed where
  | whole
  | cut (taken cause : String)
deriving DecidableEq, Inhabited, Repr

/-- Where reports go. -/
abbrev Device := String → Printed

def Device.unlimited : Device := fun _ => .whole

structure Outcome where
  output : String := ""
  failure : Option Failure := none
  files : Files

namespace Environment

def directory (e : Environment) : Except Failure String :=
  match e.home.or e.profile with
  | none => .error .noHome
  | some home => .ok (Path.join (Path.join home ".config") "permusage")

/--
The settings file: the one named, else the one in the environment unless blank, else the usual one.
-/
def settingsPath (e : Environment) (named : Option String) : Except Failure String :=
  match named, e.config with
  | some path, _ => .ok path
  | none, some path =>
    if Text.isBlankText path then do pure (Path.join (← e.directory) "permusage.toml") else .ok path
  | none, none => do pure (Path.join (← e.directory) "permusage.toml")

def memoryPath? (e : Environment) : Memory → Except Failure (Option String)
  | .none => .ok none
  | .file path => .ok (some path)
  | .usual => do pure (some (Path.join (← e.directory) "state.toml"))

end Environment

section Commands
variable (languages : Languages) (f : Files) (e : Environment) (config : Option String)

def settings : Except Failure Settings := do
  let path ← e.settingsPath config
  (f.loadSettings path).mapError (.settings path)

def snapshot (path : String) : Except Failure Snapshot :=
  match f.read path with
  | .error .isDirectory => .error (.snapshotRead path .isDirectory)
  | .error cause => .error (.snapshotAccess path cause)
  | .ok text => (Snapshot.ofJson text).mapError (.snapshotParse path text)

/-- The choices in a memory. Without a memory there are none. -/
def remembered (memory : Option String) : Except Failure (Option SavedSelection) :=
  match memory with
  | none => .ok none
  | some path => (f.loadSelection? path).mapError .selection

def outlook (s : Settings) (languages : Languages := .builtin) : Except Failure Outlook :=
  (s.outlook languages).mapError (.locale s.locale)

def chooseGroup (o : Outlook) (now : Int) (label : Option String) (s : Session) :
    Except Failure Session :=
  match label with
  | none => .ok s
  | some label =>
    match s.options.groups.findIdx? (·.label == label) with
    | some position => .ok (s.step o now (.groupOption position))
    | none => .error (.unknownGroup label (s.options.groups.map (·.label)))

/-- The choices that cannot go wrong. -/
def triggers (a : ViewArguments) : List Trigger :=
  (a.time.map fun w => Trigger.timeOption (Window.selectable.idxOf w)).toList ++
    (a.showSystem.map Trigger.systemApps).toList

def session (o : Outlook) (now : Int) (saved : Option SavedSelection) (a : ViewArguments)
    (snapshot : Snapshot) : Except Failure Session := do
  let s := (Session.start o a.target saved).step o now (.snapshot snapshot)
  let s ← chooseGroup o now a.group s
  pure ((triggers a).foldl (fun s t => s.step o now t) s)

def heading (l : Labels) (v : View) (s : Session) : Heading where
  group := (s.group.map (·.label)).getD l.anyGroup
  time := (v.options.times[s.timePosition]?.map (·.label)).getD l.anyTime
  showSystem := s.showSystem

/-- The report, and the choices to be saved with the file that they go to. -/
def viewed (now : Int) (a : ViewArguments) :
    Except Failure (String × Option (String × SavedSelection)) := do
  let settings ← settings f e config
  let snapshot ← snapshot f a.snapshot
  let memory ← e.memoryPath? a.memory
  let saved ← remembered f memory
  let o ← outlook settings languages
  let s ← session o now saved a snapshot
  match s.view with
  | none => throw .noView
  | some v =>
    pure (v.report (heading settings.labels v s) a.format, memory.map (·, s.savedSelection))

/-- Prints a report, and saves the choices that belong to it once all of it is out. -/
def published (d : Device) (report : String) (keep : Option (String × SavedSelection)) : Outcome :=
  match d report, keep with
  | .cut taken cause, _ => { output := taken, failure := some (.output cause), files := f }
  | .whole, none => { output := report, files := f }
  | .whole, some (path, selection) =>
    let (files, fault) := f.saveSelection path selection
    { output := report, failure := fault.map .selection, files }

def runViewOn (d : Device) (now : Int) (a : ViewArguments) : Outcome :=
  match viewed languages f e config now a with
  | .error failure => { failure := some failure, files := f }
  | .ok (report, keep) => published f d report keep

def runView (now : Int) (a : ViewArguments) : Outcome :=
  runViewOn languages f e config .unlimited now a

def filtersReport (path : String) (format : Format) : Except Failure String := do
  let settings ← settings f e config
  let snapshot ← snapshot f path
  let o ← outlook settings languages
  pure ((o.options snapshot).report format)

/-- The settings in force below the path that they come from. The locale is not looked at. -/
def configReport : Except Failure String := do
  let path ← e.settingsPath config
  let settings ← settings f e config
  pure (Text.ofLines ["# " ++ path] ++ settings.write)

def reported (report : Except Failure String) : Outcome :=
  match report with
  | .ok output => { output, files := f }
  | .error failure => { failure := some failure, files := f }

end Commands

def Invocation.paths (i : Invocation) (e : Environment) : List String :=
  (e.settingsPath i.config).toOption.toList ++
    match i.command with
    | .view a => a.snapshot :: (e.memoryPath? a.memory).toOption.join.toList
    | .filters path _ => [path]
    | .config => []

def run (f : Files) (e : Environment) (now : Int) (i : Invocation)
    (languages : Languages := .builtin) : Outcome :=
  match i.command with
  | .view a => runView languages f e i.config (a.now.getD now) a
  | .filters path format => reported f (filtersReport languages f e i.config path format)
  | .config => reported f (configReport f e i.config)

end AccessLedger.CommandLine
