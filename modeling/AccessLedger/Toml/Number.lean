import AccessLedger.Decimal.Nearest
import AccessLedger.Integer64
import AccessLedger.Toml.Text
import AccessLedger.Toml.Value

/-!
Numbers in TOML. Between two digits an underscore may stand. Integers have 64 bits with sign and may
also be hexadecimal, octal or binary; a point or an exponent makes a number floating point.
-/

namespace AccessLedger.Toml

/-- More digits of a number, each with at most one underscore before it. -/
def moreDigits (isDigit : Char → Bool) : List Char → Option (List Char × List Char)
  | '_' :: c :: rest =>
    if isDigit c then (moreDigits isDigit rest).map fun (ds, rest) => (c :: ds, rest) else none
  | ['_'] => none
  | c :: rest =>
    if isDigit c then (moreDigits isDigit rest).map fun (ds, rest) => (c :: ds, rest)
    else some ([], c :: rest)
  | [] => some ([], [])

/-- At least one digit, and first of all a digit. -/
def digits? (isDigit : Char → Bool) : List Char → Option (List Char × List Char)
  | c :: rest =>
    if isDigit c then (moreDigits isDigit rest).map fun (ds, rest) => (c :: ds, rest) else none
  | [] => none

/-- The sign and what follows it; no sign is a plus sign. -/
def sign : List Char → Bool × List Char
  | '-' :: rest => (true, rest)
  | '+' :: rest => (false, rest)
  | input => (false, input)

/-- The digits of a whole number; one that begins with zero has no further digits. -/
def wholeDigits? : List Char → Option (List Char × List Char)
  | '0' :: rest => some (['0'], rest)
  | input => digits? Char.isDigit input

def signed (negative : Bool) (n : Int) : Int :=
  if negative then -n else n

def integer? (n : Int) : Option Value :=
  if -int64Limit ≤ n ∧ n < int64Limit then some (.integer n) else none

/-- An integer with the given base, read after the letter that tells the base. -/
def basedInteger? (base : Nat) (isDigit : Char → Bool) (input : List Char) :
    Option (Value × List Char) := do
  let (ds, rest) ← digits? isDigit input
  let n := ds.foldl (fun n d => base * n + (hexDigit? d).getD 0) 0
  (integer? n).map (·, rest)

def isOctalDigit (c : Char) : Bool := '0' ≤ c && c ≤ '7'

def exponent? (input : List Char) : Option (Int × List Char) := do
  let (negative, rest) := sign input
  let (ds, rest) ← digits? Char.isDigit rest
  pure (signed negative (Nat.ofDigitChars 10 ds 0 : Nat), rest)

/-- A floating-point number; one that is too large exists only below zero. -/
def floating? (negative : Bool) (digits : List Char) (exponent : Int) : Option Value :=
  let x := Decimal.nearest (Nat.ofDigitChars 10 digits 0) exponent
  if negative then some (.floating (-x))
  else if x.isInf then none
  else some (.floating x)

/-- A number that has an exponent if a letter `e` comes next. -/
def withExponent? (negative : Bool) (digits : List Char) (scale : Int) (input : List Char) :
    Option (Value × List Char) :=
  match input with
  | 'e' :: rest | 'E' :: rest => do
    let (e, rest) ← exponent? rest
    (floating? negative digits (scale + e)).map (·, rest)
  | _ => (floating? negative digits scale).map (·, input)

def unsignedDecimal? (negative : Bool) (input : List Char) : Option (Value × List Char) := do
  let (whole, rest) ← wholeDigits? input
  match rest with
  | '.' :: rest =>
    let (decimals, rest) ← digits? Char.isDigit rest
    withExponent? negative (whole ++ decimals) (-decimals.length) rest
  | 'e' :: _ | 'E' :: _ => withExponent? negative whole 0 rest
  | _ => (integer? (signed negative (Nat.ofDigitChars 10 whole 0 : Nat))).map (·, rest)

def number? : List Char → Option (Value × List Char)
  | '0' :: 'x' :: rest => basedInteger? 16 (fun c => (hexDigit? c).isSome) rest
  | '0' :: 'o' :: rest => basedInteger? 8 isOctalDigit rest
  | '0' :: 'b' :: rest => basedInteger? 2 (fun c => c == '0' || c == '1') rest
  | input =>
    let (negative, rest) := sign input
    match rest with
    | 'i' :: 'n' :: 'f' :: rest => some (.floating (if negative then -(1 / 0) else 1 / 0), rest)
    | 'n' :: 'a' :: 'n' :: rest => some (.floating (0 / 0), rest)
    | _ => unsignedDecimal? negative rest

end AccessLedger.Toml
