import AccessLedger.CommandLine.Parameter

/-!
Reading the arguments of the command line. A value is accepted only when the next argument is
understood or the arguments end, so that an argument that is not understood at all is complained
about first.
-/

namespace AccessLedger.CommandLine

inductive Choice where
  | config (path : String)
  | snapshot (path : String)
  | group (label : String)
  | time (w : Window)
  | showSystem
  | hideSystem
  | target (name : String)
  | now (t : Int)
  | state (path : String)
  | remember
  | format (f : Format)
deriving DecidableEq, Inhabited, Repr

namespace Choice

def parameter : Choice → Parameter
  | config _ => .config
  | snapshot _ => .snapshot
  | group _ => .group
  | time _ => .time
  | showSystem => .showSystem
  | hideSystem => .hideSystem
  | target _ => .target
  | now _ => .now
  | state _ => .state
  | remember => .remember
  | format _ => .format

/-- A path must not be empty. -/
def ofPath (p : Parameter) (make : String → Choice) (value : String) : Except UsageFault Choice :=
  if value.isEmpty then .error (.noValue p) else .ok (make value)

def ofWord {α : Type} (p : Parameter) (make : α → Choice) (find? : String → Option α)
    (value : String) : Except UsageFault Choice :=
  match find? value with
  | some a => .ok (make a)
  | none => .error (if value.isEmpty then .noValue p else .badValue value p)

/-- The choice that a value makes; switches make one without a value. -/
def ofValue (p : Parameter) (value : String) : Except UsageFault Choice :=
  match p with
  | .config => ofPath p config value
  | .snapshot => ofPath p snapshot value
  | .state => ofPath p state value
  | .group => .ok (group value)
  | .target => .ok (target value)
  | .time => ofWord p time (fun s => Window.selectable.find? (·.notate == s)) value
  | .format => ofWord p format Format.ofName? value
  | .now =>
    match Instant.parse? value with
    | some t => .ok (now t)
    | none => .error (.badInstant value)
  | .showSystem => .ok showSystem
  | .hideSystem => .ok hideSystem
  | .remember => .ok remember

end Choice

structure Reading where
  taken : List Choice := []
  /-- A parameter whose value is not accepted yet, or not even read. -/
  pending : Option (Parameter × Option String) := none
  /-- Whether two hyphens came by, after which no argument is an option. -/
  noOptions : Bool := false
deriving DecidableEq, Inhabited, Repr

namespace Reading

def has (r : Reading) (p : Parameter) : Bool :=
  r.taken.any (·.parameter == p) || r.pending.any (·.1 == p)

def awaitsValue (r : Reading) : Bool :=
  match r.pending with
  | some (_, none) => true
  | _ => false

def take (r : Reading) (p : Parameter) (value : String) : Except UsageFault Reading :=
  if r.taken.any (·.parameter == p) then .error (.repeated p)
  else do
    let c ← Choice.ofValue p value
    pure { r with taken := r.taken ++ [c] }

def settle (r : Reading) : Except UsageFault Reading :=
  match r.pending with
  | none => .ok r
  | some (p, none) => .error (.noValue p)
  | some (p, some value) => { r with pending := none }.take p value

def isCommandWord (s : String) : Bool :=
  s == "help" || (CommandName.ofWord? s).isSome

/-- An argument that is neither an option nor the value of one. -/
def positional (command : Option CommandName) (r : Reading) (argument : String) :
    Except UsageFault Reading :=
  if (Parameter.available command).contains .snapshot && !r.has .snapshot then do
    let r ← r.settle
    pure { r with pending := some (.snapshot, some argument) }
  else if command.isNone && !(r.noOptions && isCommandWord argument) then
    .error (.unknownCommand argument)
  else .error (.unknownArgument argument)

/-- Options without a parameter; the version is told only before a command. -/
def information? (command : Option CommandName) (option : String) : Option UsageFault :=
  match option with
  | "help" => some .help
  | "version" => if command.isNone then some .version else none
  | _ => none

/-- An option by its name, with a value if one is attached by an equals sign. -/
def option (command : Option CommandName) (r : Reading) (name : String) (value : Option String) :
    Except UsageFault Reading :=
  match information? command name, Parameter.named? command name, value with
  | some _, _, some value => .error (.surplusValue value ("--" ++ name))
  | some fault, _, none => do
    let _ ← r.settle
    .error fault
  | none, none, _ => .error (.unknownArgument ("--" ++ name))
  | none, some p, some value =>
    if p.valueName?.isSome then do (← r.settle).take p value
    else .error (.surplusValue value p.shown)
  | none, some p, none => do
    let r ← r.settle
    if p.valueName?.isSome then pure { r with pending := some (p, none) } else r.take p ""

def shortOption (command : Option CommandName) (r : Reading) (letter : Char) :
    Except UsageFault Reading :=
  let name := match letter with
    | 'h' => "help"
    | 'V' => "version"
    | _ => ""
  match information? command name with
  | some fault => do
    let _ ← r.settle
    .error fault
  | none => .error (.unknownArgument ("-" ++ letter.toString))

def nameAndValue (cs : List Char) : String × Option String :=
  let name := String.ofList (cs.takeWhile (· != '='))
  match cs.dropWhile (· != '=') with
  | [] => (name, none)
  | _ :: value => (name, some (String.ofList value))

def argument (command : Option CommandName) (r : Reading) (a : String) :
    Except UsageFault Reading :=
  if r.noOptions then r.positional command a
  else
    match a.toList with
    | ['-', '-'] => .ok { r with noOptions := true }
    | '-' :: '-' :: cs => r.option command (nameAndValue cs).1 (nameAndValue cs).2
    | '-' :: letter :: _ => r.shortOption command letter
    | _ =>
      match r.pending with
      | some (p, none) => .ok { r with pending := some (p, some a) }
      | _ => r.positional command a

def upToCommand (r : Reading) : List String →
    Except UsageFault (Reading × Option (String × List String))
  | [] => .ok (r, none)
  | a :: rest =>
    if !r.noOptions && !r.awaitsValue && isCommandWord a then .ok (r, some (a, rest))
    else do
      let r ← r.argument none a
      r.upToCommand rest

/-- Of two choices that exclude each other, complains about the one that was made first. -/
def refuseConflicts (r : Reading) : Except UsageFault Unit :=
  let clash := r.taken.findSome? fun c =>
    (r.taken.find? fun d => c.parameter.excludes d.parameter).map fun d =>
      (c.parameter, d.parameter)
  match clash with
  | some (first, second) => .error (.conflict first second)
  | none => .ok ()

end Reading

/-- Where the choices of earlier views are kept. -/
inductive Memory where
  | none
  | file (path : String)
  /-- The file that is meant when none is named. -/
  | usual
deriving DecidableEq, Inhabited, Repr

structure ViewArguments where
  snapshot : String
  group : Option String := none
  time : Option Window := none
  /-- Whether system apps are to be shown; if not given, as they were. -/
  showSystem : Option Bool := none
  target : Option String := none
  now : Option Int := none
  memory : Memory := .none
  format : Format := .text
deriving DecidableEq, Inhabited, Repr

inductive Command where
  | view (arguments : ViewArguments)
  | filters (snapshot : String) (format : Format)
  | config
deriving DecidableEq, Inhabited, Repr

structure Invocation where
  config : Option String
  command : Command
deriving DecidableEq, Inhabited, Repr

namespace Reading

def configPath? (r : Reading) : Option String :=
  r.taken.findSome? fun | .config path => some path | _ => none

def snapshotPath? (r : Reading) : Option String :=
  r.taken.findSome? fun | .snapshot path => some path | _ => none

def formatChosen (r : Reading) : Format :=
  (r.taken.findSome? fun | .format f => some f | _ => none).getD .text

def viewArguments (r : Reading) (snapshot : String) : ViewArguments where
  snapshot := snapshot
  group := r.taken.findSome? fun | .group label => some label | _ => none
  time := r.taken.findSome? fun | .time w => some w | _ => none
  showSystem := r.taken.findSome? fun
    | .showSystem => some true
    | .hideSystem => some false
    | _ => none
  target := r.taken.findSome? fun | .target name => some name | _ => none
  now := r.taken.findSome? fun | .now t => some t | _ => none
  memory := (r.taken.findSome? fun
    | .state path => some (Memory.file path)
    | .remember => some .usual
    | _ => none).getD .none
  format := r.formatChosen

def snapshotPath (r : Reading) : Except UsageFault String :=
  match r.snapshotPath? with
  | some path => .ok path
  | none => .error .noSnapshot

def command (r : Reading) : CommandName → Except UsageFault Command
  | .view => do
    r.refuseConflicts
    pure (.view (r.viewArguments (← r.snapshotPath)))
  | .filters => do pure (.filters (← r.snapshotPath) r.formatChosen)
  | .config => .ok .config

end Reading

def helpFault : List String → UsageFault
  | [] => .help
  | word :: rest =>
    if !Reading.isCommandWord word then .unknownCommand word
    else
      match rest with
      | [] => .help
      | other :: _ => .unknownCommand other

def Invocation.parse (arguments : List String) : Except UsageFault Invocation := do
  let (before, found) ← ({} : Reading).upToCommand arguments
  match found with
  | none =>
    let before ← before.settle
    throw (if before.taken.isEmpty then .nothingGiven else .noCommand)
  | some (word, rest) =>
    match CommandName.ofWord? word with
    | none => throw (helpFault rest)
    | some name =>
      let after ← rest.foldlM (fun r a => r.argument (some name) a) ({} : Reading)
      let after ← after.settle
      let command ← after.command name
      let before ← before.settle
      pure ⟨after.configPath?.or before.configPath?, command⟩

end AccessLedger.CommandLine
