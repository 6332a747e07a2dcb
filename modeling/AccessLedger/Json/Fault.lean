import AccessLedger.Decoding.Mismatch
import AccessLedger.Text.Raw

/-!
What can be wrong with a JSON text, and where. Places are lines and columns; columns count bytes.
-/

namespace AccessLedger.Json

inductive Cause where
  | endOfValue
  | endOfList
  | endOfObject
  | endOfString
  | noValue
  | noWord
  | noColon
  | noListSeparator
  | noObjectSeparator
  | trailingComma
  | trailingCharacters
  | keyNotString
  | badNumber
  | numberOutOfRange
  | badEscape
  | endOfHexEscape
  | loneSurrogate
  | controlCharacter
  | badCodePoint
  | mismatch (m : Mismatch)
deriving Inhabited, Repr

/-- Positional from a hundred-thousandth up to sixteen digits; ties go to the even digit. -/
def floatStyle : Decimal.Style := ⟨some (-5, 15), .even⟩

def Cause.message : Cause → String
  | endOfValue => "EOF while parsing a value"
  | endOfList => "EOF while parsing a list"
  | endOfObject => "EOF while parsing an object"
  | endOfString => "EOF while parsing a string"
  | noValue => "expected value"
  | noWord => "expected ident"
  | noColon => "expected `:`"
  | noListSeparator => "expected `,` or `]`"
  | noObjectSeparator => "expected `,` or `\x7d`"
  | trailingComma => "trailing comma"
  | trailingCharacters => "trailing characters"
  | keyNotString => "key must be a string"
  | badNumber => "invalid number"
  | numberOutOfRange => "number out of range"
  | badEscape => "invalid escape"
  | endOfHexEscape => "unexpected end of hex escape"
  | loneSurrogate => "lone leading surrogate in hex escape"
  | controlCharacter => "control character (\\u0000-\\u001F) found while parsing a string"
  | badCodePoint => "invalid unicode code point"
  | mismatch m => m.message floatStyle

/-- A fault and, unless it belongs to no place, how many bytes of the text come after that place. -/
structure Fault where
  cause : Cause
  bytesAfter : Option Nat := none
deriving Inhabited, Repr

def Fault.placedBefore (rest : RawText) (f : Fault) : Fault :=
  match f.bytesAfter with
  | some _ => f
  | none => { f with bytesAfter := some rest.byteCount }

structure Position where
  line : Nat
  column : Nat
deriving DecidableEq, Inhabited, Repr

def positionAfter (bytes : Nat) (text : RawText) : Position :=
  go bytes text ⟨1, 0⟩
where
  go (bytes : Nat) (text : RawText) (p : Position) : Position :=
    match text with
    | [] => p
    | c :: rest =>
      let size := (c.map Char.utf8Size).getD 1
      if bytes < size then { p with column := p.column + bytes }
      else go (bytes - size) rest
        (if c = some '\n' then ⟨p.line + 1, 0⟩ else { p with column := p.column + size })

def Fault.position? (text : RawText) (f : Fault) : Option Position :=
  f.bytesAfter.map fun after => positionAfter (text.byteCount - after) text

def Fault.message (text : RawText) (f : Fault) : String :=
  match f.position? text with
  | none => f.cause.message
  | some p =>
    f.cause.message ++ " at line " ++ toString p.line ++ " column " ++ toString p.column

end AccessLedger.Json
