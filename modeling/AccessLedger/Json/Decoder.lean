import AccessLedger.Json.Fault

/-!
Decoders read a value of a known type from the front of a text and leave the rest. When one fails,
the rest it had come to stays known, because a fault without a place is placed there by an outer
decoder.
-/

namespace AccessLedger.Json

abbrev Decoder := EStateM Fault RawText

namespace Decoder

/-- A fault that an outer decoder will place. -/
def fail {α : Type} (cause : Cause) : Decoder α :=
  throw { cause }

def failHere {α : Type} (cause : Cause) : Decoder α := do
  throw { cause, bytesAfter := some (← get).byteCount }

/-- A fault after so many bytes of the rest, or at its end. -/
def failAhead {α : Type} (bytes : Nat) (cause : Cause) : Decoder α := do
  throw { cause, bytesAfter := some ((← get).byteCount - bytes) }

def failNext {α : Type} (cause : Cause) : Decoder α :=
  failAhead 1 cause

def placed {α : Type} (d : Decoder α) : Decoder α := fun input =>
  match d input with
  | .ok a rest => .ok a rest
  | .error f rest => .error (f.placedBefore rest) rest

def isBlank (c : Option Char) : Bool :=
  c == some ' ' || c == some '\n' || c == some '\t' || c == some '\r'

def skipBlanks : Decoder Unit :=
  modify (·.dropWhile isBlank)

def word : List Char → Decoder Unit
  | [] => pure ()
  | c :: cs => do
    match ← get with
    | [] => failHere .endOfValue
    | x :: rest =>
      if x = some c then
        set rest
        word cs
      else
        failNext .noWord

/-- Whether another element of a list follows; `first` tells that none was read yet. -/
def nextElement (first : Bool) : Decoder Bool := do
  skipBlanks
  match ← get with
  | [] => failNext .endOfList
  | some ']' :: _ => pure false
  | some ',' :: rest =>
    if first then pure true
    else
      set rest
      skipBlanks
      match ← get with
      | [] => failNext .endOfValue
      | some ']' :: _ => failNext .trailingComma
      | _ => pure true
  | _ => if first then pure true else failNext .noListSeparator

/-- Whether another key of an object follows; if so, its opening quote is next. -/
def nextKey (first : Bool) : Decoder Bool := do
  skipBlanks
  match ← get with
  | [] => failNext .endOfObject
  | some '}' :: _ => pure false
  | some ',' :: rest =>
    if first then failNext .keyNotString
    else
      set rest
      skipBlanks
      match ← get with
      | [] => failNext .endOfValue
      | some '"' :: _ => pure true
      | some '}' :: _ => failNext .trailingComma
      | _ => failNext .keyNotString
  | some '"' :: _ => if first then pure true else failNext .noObjectSeparator
  | _ => failNext (if first then .keyNotString else .noObjectSeparator)

def colon : Decoder Unit := do
  skipBlanks
  match ← get with
  | [] => failNext .endOfObject
  | some ':' :: rest => set rest
  | _ => failNext .noColon

def closeList : Decoder Unit := do
  skipBlanks
  match ← get with
  | [] => failNext .endOfList
  | some ']' :: rest => set rest
  | some ',' :: rest =>
    set rest
    skipBlanks
    match ← get with
    | some ']' :: _ => failNext .trailingComma
    | _ => failNext .trailingCharacters
  | _ => failNext .trailingCharacters

def closeObject : Decoder Unit := do
  skipBlanks
  match ← get with
  | [] => failNext .endOfObject
  | some '}' :: rest => set rest
  | some ',' :: _ => failNext .trailingComma
  | _ => failNext .trailingCharacters

/--
Runs a decoder inside brackets. The closing is read even when it failed, but its own fault wins.
-/
def closedBy {α : Type} (close : Decoder Unit) (d : Decoder α) : Decoder α := fun input =>
  match d input with
  | .ok a rest =>
    match close rest with
    | .ok _ rest => .ok a rest
    | .error f rest => .error f rest
  | .error f rest =>
    match close rest with
    | .ok _ rest => .error f rest
    | .error _ rest => .error f rest

def finish : Decoder Unit := do
  skipBlanks
  match ← get with
  | [] => pure ()
  | _ => failNext .trailingCharacters

def runWhole {α : Type} (d : Decoder α) (text : RawText) : Except Fault α :=
  match (do let a ← d; finish; pure a : Decoder α) text with
  | .ok a _ => .ok a
  | .error f _ => .error f

end Decoder
end AccessLedger.Json
