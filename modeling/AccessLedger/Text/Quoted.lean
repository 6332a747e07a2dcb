import AccessLedger.Text.Visible

/-!
Text in double quotes as diagnostics and messages show it: quotes, backslashes and the common
controls are written with a backslash, every other character that has no picture as its code point
in hexadecimal.
-/

namespace AccessLedger.Text

def escapeForQuotes (c : Char) : List Char :=
  match c with
  | '"' => ['\\', '"']
  | '\\' => ['\\', '\\']
  | '\n' => ['\\', 'n']
  | '\r' => ['\\', 'r']
  | '\t' => ['\\', 't']
  | '\x00' => ['\\', '0']
  | c =>
    if isVisible c then [c]
    else ['\\', 'u', '{'] ++ Nat.toDigits 16 c.toNat ++ ['}']

def quoted (s : String) : String :=
  String.ofList (['"'] ++ s.toList.flatMap escapeForQuotes ++ ['"'])

end AccessLedger.Text
