import AccessLedger.Json.Literal

/-!
Reading past a value that nobody asked for. Nesting may be of any depth; strings need not be text,
and numbers may be of any size.
-/

namespace AccessLedger.Json

def skipString (input : RawText) : Except Fault RawText :=
  match input with
  | [] => .error (faultAhead 0 [] .endOfString)
  | some '"' :: rest => .ok rest
  | [some '\\'] => .error (faultAhead 0 [] .endOfString)
  | some '\\' :: some 'u' :: rest =>
    match _h : hexCode? rest with
    | none => .error (hexFault rest)
    | some (_, rest) => skipString rest
  | some '\\' :: c :: rest =>
    if (simpleEscape? c).isSome then skipString rest
    else .error (faultAhead 1 (c :: rest) .badEscape)
  | c :: rest =>
    if isControl c then .error (faultAhead 0 (c :: rest) .controlCharacter) else skipString rest
termination_by input.length
decreasing_by
  · have := hexCode?_length _h; simp only [List.length_cons]; omega
  · simp only [List.length_cons]; omega
  · simp

def skipQuoted : Decoder Unit := do
  match skipString (← get) with
  | .error f => throw f
  | .ok rest => set rest

def skipDigits : Decoder Unit :=
  modify fun input => (digits input).2

/-- One digit at least. -/
def skipExponent : Decoder Unit := do
  modify (·.drop 1)
  modify fun input => match input with
    | some '+' :: rest | some '-' :: rest => rest
    | _ => input
  match ← get with
  | some c :: rest =>
    if c.isDigit then
      set rest
      skipDigits
    else Decoder.failNext .badNumber
  | _ => Decoder.failNext .badNumber

def skipDecimals : Decoder Unit := do
  modify (·.drop 1)
  let (ds, rest) := digits (← get)
  if ds.isEmpty then Decoder.failNext .badNumber
  else
    set rest
    if atExponent rest then skipExponent

def skipNumber : Decoder Unit := do
  match ← get with
  | some '0' :: rest =>
    set rest
    if (digits rest).1.isEmpty then afterWhole else Decoder.failNext .badNumber
  | some c :: _ =>
    if c.isDigit then
      skipDigits
      afterWhole
    else Decoder.failNext .badNumber
  | _ => Decoder.failNext .badNumber
where
  afterWhole : Decoder Unit := do
    match ← get with
    | some '.' :: _ => skipDecimals
    | rest => if atExponent rest then skipExponent

inductive Frame where
  | list
  | object
deriving DecidableEq, Inhabited, Repr

def Frame.closer : Frame → Option Char
  | list => some ']'
  | object => some '}'

def Frame.ended : Frame → Cause
  | list => .endOfList
  | object => .endOfObject

def Frame.noSeparator : Frame → Cause
  | list => .noListSeparator
  | object => .noObjectSeparator

def skipKey : Decoder Unit := do
  Decoder.skipBlanks
  match ← get with
  | [] => Decoder.failNext .endOfObject
  | some '"' :: rest =>
    set rest
    skipQuoted
    Decoder.colon
  | _ => Decoder.failNext .keyNotString

def Frame.beforeValue : Frame → Decoder Unit
  | list => pure ()
  | object => skipKey

/-- After a value: the frames in which another value follows, or nothing if all are closed. -/
def afterValue : List Frame → Decoder (Option (List Frame))
  | [] => pure none
  | frame :: outer => do
    Decoder.skipBlanks
    match ← get with
    | [] => Decoder.failNext frame.ended
    | some ',' :: rest =>
      set rest
      frame.beforeValue
      pure (some (frame :: outer))
    | c :: rest =>
      if c = frame.closer then
        set rest
        afterValue outer
      else Decoder.failNext frame.noSeparator

def openFrame (frame : Frame) (outer : List Frame) : Decoder (Option (List Frame)) := do
  Decoder.skipBlanks
  match ← get with
  | [] => Decoder.failNext frame.ended
  | c :: rest =>
    if c = frame.closer then
      set rest
      afterValue outer
    else
      frame.beforeValue
      pure (some (frame :: outer))

/-- Reads a value that is no list or object, or the opening of one, and closes what ends with it. -/
def skipPiece (frames : List Frame) : Decoder (Option (List Frame)) := do
  Decoder.skipBlanks
  match ← get with
  | [] => Decoder.failNext .endOfValue
  | some 'n' :: rest => set rest; Decoder.word ['u', 'l', 'l']; afterValue frames
  | some 't' :: rest => set rest; Decoder.word ['r', 'u', 'e']; afterValue frames
  | some 'f' :: rest => set rest; Decoder.word ['a', 'l', 's', 'e']; afterValue frames
  | some '-' :: rest => set rest; skipNumber; afterValue frames
  | some '"' :: rest => set rest; skipQuoted; afterValue frames
  | some '[' :: rest => set rest; openFrame .list frames
  | some '{' :: rest => set rest; openFrame .object frames
  | some c :: _ =>
    if c.isDigit then
      skipNumber
      afterValue frames
    else Decoder.failNext .noValue
  | none :: _ => Decoder.failNext .noValue

/-- Every piece takes up input, so that its length bounds the number of pieces. -/
def skipPieces : Nat → List Frame → Decoder Unit
  | 0, _ => Decoder.failHere .endOfValue
  | pieces + 1, frames => do
    match ← skipPiece frames with
    | none => pure ()
    | some frames => skipPieces pieces frames

def skipValue : Decoder Unit := do
  skipPieces ((← get).length + 1) []

end AccessLedger.Json
