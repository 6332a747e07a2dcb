import AccessLedger.Session.Toml
import AccessLedger.Settings.Toml
import AccessLedger.Storage.Files

/-!
Settings and saved choices in files. A file that does not exist holds the default.
-/

namespace AccessLedger

inductive StorageFault where
  | access (path : String) (cause : AccessFault)
  | parse (path : String) (cause : Toml.Fault)
  | positionTooGreat
deriving Inhabited, Repr

namespace StorageFault

/-- The cause of a fault, in words for texts that are no TOML or the wrong one. -/
def cause (describe : Toml.Fault → String) : StorageFault → String
  | access _ cause => cause.message
  | parse _ cause => describe cause
  | positionTooGreat => "out-of-range value for u64 type"

def message (describe : Toml.Fault → String) (f : StorageFault) : String :=
  match f with
  | access path _ => "failed to access " ++ path ++ ": " ++ f.cause describe
  | parse path _ => "failed to parse " ++ path ++ ": " ++ f.cause describe
  | positionTooGreat => "failed to serialize: " ++ f.cause describe

end StorageFault

namespace Files

def readText? (f : Files) (path : String) : Except StorageFault (Option String) :=
  match f.read path with
  | .error .missing => .ok none
  | .error cause => .error (.access path cause)
  | .ok content =>
    match content.toString? with
    | none => .error (.access path .notText)
    | some text => .ok (some text)

/-- Reads a text; the path tells in complaints where it came from. -/
def readFrom {α : Type} (read : String → Except Toml.Fault α) (path text : String) :
    Except StorageFault α :=
  (read text).mapError (.parse path)

def loadSettings (f : Files) (path : String) : Except StorageFault Settings := do
  match ← f.readText? path with
  | none => pure {}
  | some text => readFrom Settings.read path text

def loadSelection? (f : Files) (path : String) : Except StorageFault (Option SavedSelection) := do
  match ← f.readText? path with
  | none => pure none
  | some text => some <$> FilterState.savedSelection <$> readFrom FilterState.read path text

/-- Saves choices. Nothing is touched unless they can be written. -/
def saveSelection (f : Files) (path : String) (s : SavedSelection) : Files × Option StorageFault :=
  match s.filterState.write? with
  | none => (f, some .positionTooGreat)
  | some text =>
    let (f, fault) := f.save path text
    (f, fault.map (.access path))

end Files
end AccessLedger
