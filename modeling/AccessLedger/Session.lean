import AccessLedger.Usage.View

/-!
A session keeps the chosen filters while snapshots come in. Each trigger is answered with a whole
new view, so that a view is never out of step with the choices.
-/

namespace AccessLedger

/-- The choices that outlive a session. -/
structure SavedSelection where
  showSystem : Bool := false
  groupPosition : Option Nat := none
  /-- The label at the saved position, which tells whether the position still means the same. -/
  groupLabel : Option String := none
  timePosition : Option Nat := none
deriving DecidableEq, Inhabited, Repr

structure Session where
  snapshot : Option Snapshot := none
  options : FilterOptions
  group : Option ChosenGroup := none
  timePosition : Nat
  showSystem : Bool
  /-- A group or permission asked for from outside, until options were built for the first time. -/
  target : Option String
  /-- Choices of an earlier session, until options were built for the first time. -/
  saved : Option SavedSelection
  attached : Bool := true
  view : Option View := none
deriving DecidableEq, Inhabited

inductive Trigger where
  | snapshot (s : Snapshot)
  | groupOption (position : Nat)
  | timeOption (position : Nat)
  | systemApps (shown : Bool)
  | recompute
  | detach
deriving DecidableEq, Inhabited

namespace Session

def start (o : Outlook) (target : Option String) (saved : Option SavedSelection) : Session where
  options := ⟨[], timeOptions o.labels⟩
  timePosition := restoreTimePosition (saved.bind (·.timePosition))
  showSystem := (saved.map (·.showSystem)).getD false
  target := target
  saved := saved

def selection (s : Session) : Selection :=
  .ofPositions s.options ((s.group.map (·.position)).getD 0) s.timePosition s.showSystem

def savedSelection (s : Session) : SavedSelection where
  showSystem := s.showSystem
  groupPosition := s.group.map (·.position)
  groupLabel := s.group.map (·.label)
  timePosition := some s.timePosition

/-- Views the last snapshot with the present choices; without a snapshot nothing changes. -/
def refresh (o : Outlook) (now : Int) (s : Session) : Session :=
  match s.snapshot with
  | none => s
  | some snapshot => { s with view := some (o.viewWith s.options snapshot s.selection now) }

/--
What the choice of a group goes by. Target and saved choices count only while there is no choice.
-/
def groupHints (o : Outlook) (snapshot : Snapshot) (s : Session) : GroupHints :=
  match s.group with
  | some chosen => { current := some chosen.label }
  | none =>
    { target := s.target.bind (resolveTarget? snapshot o.rules)
      savedPosition := s.saved.bind (·.groupPosition)
      savedLabel := s.saved.bind (·.groupLabel) }

/--
Builds the group options anew and carries the choice over; target and saved choices are used up.
-/
def rebuild (o : Outlook) (snapshot : Snapshot) (s : Session) : Session :=
  let options := (o.options snapshot).groups
  { s with
    options := { s.options with groups := options }
    group := some ((s.groupHints o snapshot).choose options)
    target := none
    saved := if s.group.isNone then none else s.saved }

/-- A snapshot without groups leaves the options as they are. -/
def deliver (o : Outlook) (now : Int) (snapshot : Snapshot) (s : Session) : Session :=
  let s := if snapshot.groups.isEmpty then s else s.rebuild o snapshot
  { s with snapshot := some snapshot }.refresh o now

def chooseGroup (position : Nat) (s : Session) : Session :=
  let position := if position < s.options.groups.length then position else 0
  { s with group := s.options.groups[position]?.map fun option => ⟨position, option.label⟩ }

/-- The session after a trigger at the moment `now`. A detached session never changes again. -/
def step (o : Outlook) (now : Int) (s : Session) (t : Trigger) : Session :=
  if s.attached then
    match t with
    | .snapshot snapshot => s.deliver o now snapshot
    | .groupOption position => (s.chooseGroup position).refresh o now
    | .timeOption position =>
      { s with timePosition := restoreTimePosition (some position) }.refresh o now
    | .systemApps shown => { s with showSystem := shown }.refresh o now
    | .recompute => s.refresh o now
    | .detach => { s with attached := false, view := none }
  else
    s

/-- The view that a trigger is answered with; none when detached or before the first snapshot. -/
def answer (o : Outlook) (now : Int) (s : Session) (t : Trigger) : Option View :=
  let after := s.step o now t
  if after.attached && after.snapshot.isSome then after.view else none

def rebuildDiagnostics (o : Outlook) (snapshot : Snapshot) (s : Session) : List Diagnostic :=
  let unknown := match s.group, s.target with
    | none, some target =>
      if (resolveTarget? snapshot o.rules target).isNone then [.unknownTarget target] else []
    | _, _ => []
  let gone := match s.group, (s.rebuild o snapshot).group with
    | some before, some after =>
      if before.label ≠ after.label then [.filterGone before.label] else []
    | _, _ => []
  unknown ++ gone

def refreshDiagnostics (o : Outlook) (now : Int) (s : Session) : List Diagnostic :=
  match s.snapshot with
  | none => []
  | some snapshot => o.viewDiagnostics snapshot s.selection now

def stepDiagnostics (o : Outlook) (now : Int) (s : Session) (t : Trigger) : List Diagnostic :=
  let before := match t with
    | .snapshot snapshot =>
      if snapshot.groups.isEmpty then [.noGroupsYet] else s.rebuildDiagnostics o snapshot
    | .groupOption position =>
      if position < s.options.groups.length then [] else [.noSuchGroupOption position]
    | _ => []
  if s.attached && t != .detach then
    before ++ (s.step o now t).refreshDiagnostics o now
  else
    []

end Session
end AccessLedger
