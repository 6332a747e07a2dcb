import AccessLedger.CommandLine.Run
import Std.Time.DateTime.Timestamp

/-!
The program: looks at the files that a command needs, carries the command out on them, and writes
the files that come out changed.
-/

namespace AccessLedger

open CommandLine

def environment : IO Environment := do
  pure {
    home := ← IO.getEnv "HOME"
    profile := ← IO.getEnv "USERPROFILE"
    config := ← IO.getEnv "PERMUSAGE_CONFIG" }

/-- What is found under a path; nothing if there is nothing that can be read. -/
def observeItem (path : String) : IO (Option Item) := do
  try
    if ← (← IO.FS.realPath path).isDir then pure (some .directory)
    else
      let bytes ← IO.FS.readBinFile path
      pure (some (.file (RawText.ofBytes bytes.toList)))
  catch _ => pure none

def observe (f : Files) (path : String) : IO Files := do
  let parts := Path.ofString path
  (List.range parts.names.length).foldlM (fun f n => do
    let names := parts.names.take (n + 1)
    match ← observeItem (String.intercalate "/" names) with
    | none => pure f
    | some item => pure (f.put (names.foldl Place.enter parts.start) item)) f

def store (before after : Files) : IO Unit := do
  for p in before.newDirectories after do
    IO.FS.createDirAll p.path
  for (p, content) in before.changes after do
    IO.FS.writeFile p.path (content.toString?.getD "")

/-- Prints a text; gives the reason if not all of it is taken. -/
def printed (text : String) : IO (Option String) := do
  try
    IO.print text
    (← IO.getStdout).flush
    pure none
  catch fault => pure (some fault.toString)

def carryOut (i : Invocation) : IO UInt32 := do
  let e ← environment
  let now ← Std.Time.Timestamp.now
  let before ← (i.paths e).foldlM observe {}
  let outcome := CommandLine.run before e now.toMillisecondsSinceUnixEpoch.val i .builtin
  let failure ← match ← printed outcome.output with
    | some cause => pure (some (Failure.output cause))
    | none =>
      store before outcome.files
      pure outcome.failure
  match failure with
  | none => pure 0
  | some failure =>
    IO.eprintln (failure.message {})
    pure 1

end AccessLedger

open AccessLedger CommandLine in
def main (arguments : List String) : IO UInt32 := do
  match Invocation.parse arguments with
  | .ok i => carryOut i
  | .error fault =>
    if fault.exitCode = 0 then IO.println fault.message else IO.eprintln fault.message
    pure fault.exitCode.toUInt32
