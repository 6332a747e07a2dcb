import AccessLedger.Instant
import AccessLedger.Report
import AccessLedger.Text.Terminal

/-!
The parameters of the command line, and what can be wrong with its arguments.
-/

namespace AccessLedger.CommandLine

inductive CommandName where
  | view
  | filters
  | config
deriving DecidableEq, Inhabited, Repr

namespace CommandName

def all : List CommandName := [view, filters, config]

def word : CommandName → String
  | view => "view"
  | filters => "filters"
  | config => "config"

def ofWord? (s : String) : Option CommandName :=
  all.find? (·.word == s)

end CommandName

inductive Parameter where
  | config
  | snapshot
  | group
  | time
  | showSystem
  | hideSystem
  | target
  | now
  | state
  | remember
  | format
deriving DecidableEq, Inhabited, Repr

namespace Parameter

/-- The name after two hyphens; the snapshot is given by position. -/
def optionName? : Parameter → Option String
  | config => some "config"
  | snapshot => none
  | group => some "group"
  | time => some "time"
  | showSystem => some "show-system"
  | hideSystem => some "hide-system"
  | target => some "target"
  | now => some "now"
  | state => some "state"
  | remember => some "remember"
  | format => some "format"

/-- What stands for the value; a parameter without one is a switch. -/
def valueName? : Parameter → Option String
  | config => some "CONFIG"
  | snapshot => some "SNAPSHOT"
  | group => some "GROUP"
  | time => some "TIME"
  | target => some "TARGET"
  | now => some "NOW"
  | state => some "STATE"
  | format => some "FORMAT"
  | showSystem | hideSystem | remember => none

/-- A parameter as it is shown: its option, then its value between angle brackets. -/
def shown (p : Parameter) : String :=
  String.intercalate " " ((p.optionName?.map ("--" ++ ·)).toList ++
    (p.valueName?.map fun v => "<" ++ v ++ ">").toList)

/-- Two parameters of which only one can be given. -/
def excludes : Parameter → Parameter → Bool
  | showSystem, hideSystem | hideSystem, showSystem => true
  | remember, state | state, remember => true
  | _, _ => false

def available : Option CommandName → List Parameter
  | none => [config]
  | some .view => [config, snapshot, group, time, showSystem, hideSystem, target, now, state,
      remember, format]
  | some .filters => [config, snapshot, format]
  | some .config => [config]

def named? (command : Option CommandName) (option : String) : Option Parameter :=
  (available command).find? (·.optionName? == some option)

end Parameter

/-- What keeps a command line from being carried out; also a request for help instead. -/
inductive UsageFault where
  | help
  | version
  | nothingGiven
  | noCommand
  | noSnapshot
  | unknownCommand (word : String)
  | unknownArgument (argument : String)
  | noValue (p : Parameter)
  | badValue (value : String) (p : Parameter)
  | badInstant (value : String)
  | surplusValue (value option : String)
  | repeated (p : Parameter)
  | conflict (first second : Parameter)
deriving DecidableEq, Inhabited, Repr

namespace UsageFault

/-- Words of the user are shown without what would steer a terminal. -/
def quote (s : String) : String :=
  "'" ++ Text.withoutSteering s ++ "'"

def guide : String :=
  Text.ofLines ["Usage: permusage [--config <CONFIG>] <COMMAND>", "",
    "  view <SNAPSHOT> [--group <GROUP>] [--time <TIME>] [--show-system | --hide-system]",
    "    [--target <TARGET>] [--now <NOW>] [--state <STATE> | --remember] [--format <FORMAT>]",
    "  filters <SNAPSHOT> [--format <FORMAT>]",
    "  config"]

def message : UsageFault → String
  | help | nothingGiven => guide
  | version => "permusage 0.1.0"
  | noCommand => "error: 'permusage' requires a subcommand but one was not provided"
  | noSnapshot => "error: the following required arguments were not provided:\n  " ++
      Parameter.snapshot.shown
  | unknownCommand word => "error: unrecognized subcommand " ++ quote word
  | unknownArgument argument => "error: unexpected argument " ++ quote argument ++ " found"
  | noValue p => "error: a value is required for " ++ quote p.shown ++ " but none was supplied"
  | badValue value p => "error: invalid value " ++ quote value ++ " for " ++ quote p.shown
  | badInstant value => "error: invalid value " ++ quote value ++ " for " ++
      quote Parameter.now.shown
  | surplusValue value option => "error: unexpected value " ++ quote value ++ " for " ++
      quote option ++ " found; no more were expected"
  | repeated p => "error: the argument " ++ quote p.shown ++ " cannot be used multiple times"
  | conflict first second => "error: the argument " ++ quote first.shown ++
      " cannot be used with " ++ quote second.shown

/-- Asking for help or for the version is no failure. -/
def exitCode : UsageFault → Nat
  | help | version => 0
  | _ => 2

end UsageFault
end AccessLedger.CommandLine
