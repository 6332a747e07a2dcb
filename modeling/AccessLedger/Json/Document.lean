/-!
JSON documents to be written, in a compact form and in one with a line per item.
-/

namespace AccessLedger.Json

inductive Document where
  | null
  | bool (b : Bool)
  | integer (n : Int)
  | text (s : String)
  | list (items : List Document)
  | object (fields : List (String × Document))
deriving Inhabited, Repr

def hexDigitsOf (n : Nat) : List Char :=
  [Nat.digitChar (n / 16), Nat.digitChar (n % 16)]

/-- Quotes, backslashes and control characters are escaped, nothing else. -/
def escapeChar (c : Char) : List Char :=
  match c with
  | '"' => ['\\', '"']
  | '\\' => ['\\', '\\']
  | '\x08' => ['\\', 'b']
  | '\x0c' => ['\\', 'f']
  | '\n' => ['\\', 'n']
  | '\r' => ['\\', 'r']
  | '\t' => ['\\', 't']
  | c => if c.toNat < 0x20 then ['\\', 'u', '0', '0'] ++ hexDigitsOf c.toNat else [c]

def writeText (s : String) : List Char :=
  '"' :: s.toList.flatMap escapeChar ++ ['"']

def writeInteger (n : Int) : List Char :=
  if n < 0 then '-' :: Nat.toDigits 10 n.natAbs else Nat.toDigits 10 n.natAbs

def writeBool (b : Bool) : List Char :=
  if b then ['t', 'r', 'u', 'e'] else ['f', 'a', 'l', 's', 'e']

mutual

def Document.writeCompact : Document → List Char
  | .null => ['n', 'u', 'l', 'l']
  | .bool b => writeBool b
  | .integer n => writeInteger n
  | .text s => writeText s
  | .list [] => ['[', ']']
  | .list (d :: ds) => '[' :: d.writeCompact ++ writeItems ds ++ [']']
  | .object [] => ['{', '}']
  | .object ((k, d) :: fs) =>
    '{' :: writeText k ++ ':' :: d.writeCompact ++ writeFields fs ++ ['}']

def writeItems : List Document → List Char
  | [] => []
  | d :: ds => ',' :: d.writeCompact ++ writeItems ds

def writeFields : List (String × Document) → List Char
  | [] => []
  | (k, d) :: fs => ',' :: writeText k ++ ':' :: d.writeCompact ++ writeFields fs

end

def lineBreak (level : Nat) : List Char :=
  '\n' :: List.replicate (2 * level) ' '

mutual

def Document.writeLines (level : Nat) : Document → List Char
  | .null => ['n', 'u', 'l', 'l']
  | .bool b => writeBool b
  | .integer n => writeInteger n
  | .text s => writeText s
  | .list [] => ['[', ']']
  | .list (d :: ds) =>
    '[' :: lineBreak (level + 1) ++ d.writeLines (level + 1) ++ writeItemLines (level + 1) ds ++
      lineBreak level ++ [']']
  | .object [] => ['{', '}']
  | .object ((k, d) :: fs) =>
    '{' :: lineBreak (level + 1) ++ writeText k ++ [':', ' '] ++ d.writeLines (level + 1) ++
      writeFieldLines (level + 1) fs ++ lineBreak level ++ ['}']

def writeItemLines (level : Nat) : List Document → List Char
  | [] => []
  | d :: ds => ',' :: lineBreak level ++ d.writeLines level ++ writeItemLines level ds

def writeFieldLines (level : Nat) : List (String × Document) → List Char
  | [] => []
  | (k, d) :: fs =>
    ',' :: lineBreak level ++ writeText k ++ [':', ' '] ++ d.writeLines level ++
      writeFieldLines level fs

end

namespace Document

def compact (d : Document) : String :=
  String.ofList d.writeCompact

/--
One item or field a line, two blanks deeper per level; empty lists and objects stay closed up.
-/
def pretty (d : Document) : String :=
  String.ofList (d.writeLines 0)

def ofOption {α : Type} (f : α → Document) : Option α → Document
  | none => null
  | some a => f a

def nat (n : Nat) : Document :=
  integer n

end Document
end AccessLedger.Json
