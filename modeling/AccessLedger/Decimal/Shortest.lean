/-!
The shortest decimal number that denotes a binary floating-point number: of all decimals that round
to it, one with the fewest digits, and among those the nearest. Where two are equally near, a rule
for ties decides.
-/

namespace AccessLedger.Decimal

/-- The number `digits * 10 ^ exponent`. -/
structure Scaled where
  digits : Nat
  exponent : Int
deriving DecidableEq, Inhabited, Repr

/-- Which of two neighbouring numbers is taken when both are equally near. -/
inductive Tie where
  | even
  | greater
deriving DecidableEq, Inhabited, Repr

def Tie.takesLower (t : Tie) (lower : Nat) : Bool :=
  match t with
  | even => lower % 2 == 0
  | greater => false

structure Fraction where
  num : Nat
  den : Nat

def Fraction.scale (f : Fraction) (base : Nat) (exponent : Int) : Fraction :=
  if 0 ≤ exponent then ⟨f.num * base.pow exponent.toNat, f.den⟩
  else ⟨f.num, f.den * base.pow (-exponent).toNat⟩

def Fraction.le (f g : Fraction) : Bool :=
  f.num * g.den ≤ g.num * f.den

def Fraction.lt (f g : Fraction) : Bool :=
  f.num * g.den < g.num * f.den

/--
A positive number with the interval of reals that round to it. The ends belong to the interval when
`closed` holds.
-/
structure Rounding where
  low : Fraction
  value : Fraction
  high : Fraction
  closed : Bool

def Rounding.admits (r : Rounding) (f : Fraction) : Bool :=
  if r.closed then r.low.le f && f.le r.high else r.low.lt f && f.lt r.high

/--
The number `significand * 2 ^ exponent` of 53 bits; below a power of two the neighbour is nearer.
-/
def Rounding.ofBinary (significand : Nat) (exponent : Int) (nearBelow : Bool) : Rounding :=
  let at4 (n : Nat) : Fraction := Fraction.scale ⟨n, 1⟩ 2 (exponent - 2)
  ⟨at4 (4 * significand - if nearBelow then 1 else 2), at4 (4 * significand),
    at4 (4 * significand + 2), significand % 2 == 0⟩

/--
The neighbour of the value among the multiples of a power of ten, if one lies in the interval.
-/
def Rounding.neighbour? (r : Rounding) (tie : Tie) (exponent : Int) : Option Scaled :=
  let unit := r.value.scale 10 (-exponent)
  let below := unit.num / unit.den
  let onGrid (n : Nat) : Bool := r.admits (Fraction.scale ⟨n, 1⟩ 10 exponent)
  let twice := 2 * (unit.num % unit.den)
  let nearerBelow := twice < unit.den || (twice == unit.den && tie.takesLower below)
  match onGrid below, onGrid (below + 1) with
  | true, true => some ⟨if nearerBelow then below else below + 1, exponent⟩
  | true, false => some ⟨below, exponent⟩
  | false, true => some ⟨below + 1, exponent⟩
  | false, false => none

def Fraction.magnitude (f : Fraction) : Int :=
  let guess : Int := (Nat.toDigits 10 f.num).length - (Nat.toDigits 10 f.den).length
  if Fraction.le (Fraction.scale ⟨1, 1⟩ 10 guess) f then guess else guess - 1

/-- Tries grids from coarse to fine; seventeen digits always suffice for 53 bits. -/
def Rounding.shortest (r : Rounding) (tie : Tie) : Scaled :=
  let top := r.value.magnitude
  ((List.range 17).findSome? fun (n : Nat) => r.neighbour? tie (top - n)).getD ⟨0, 0⟩

/-- The first of the 53 bits of a significand, which is left out where the number is stored. -/
def leadingBit : Nat := 0x10000000000000

def shortestOfFloat (tie : Tie) (x : Float) : Scaled :=
  let bits := x.toBits.toNat
  let fraction := bits % leadingBit
  let biased : Nat := bits / leadingBit % 0x800
  if biased = 0 then (Rounding.ofBinary fraction (-1074) false).shortest tie
  else
    (Rounding.ofBinary (leadingBit + fraction) ((biased : Int) - 1075)
      (fraction == 0 && 1 < biased)).shortest tie

structure Style where
  /-- The powers of ten, both ends included, that are written without an exponent; all if absent. -/
  positional : Option (Int × Int)
  tie : Tie

/-- The digits with a point in them and zeros where there are none; a whole number ends in `.0`. -/
def positional (digits : List Char) (exponent : Int) : List Char :=
  let point := digits.length + exponent
  if 0 ≤ exponent then digits ++ List.replicate exponent.toNat '0' ++ ['.', '0']
  else if 0 < point then digits.take point.toNat ++ ['.'] ++ digits.drop point.toNat
  else ['0', '.'] ++ List.replicate (-point).toNat '0' ++ digits

def scientific (digits : List Char) (power : Int) : List Char :=
  let mantissa := match digits with
    | [] => []
    | [d] => [d]
    | d :: ds => d :: '.' :: ds
  mantissa ++ ['e', if power < 0 then '-' else '+'] ++ Nat.toDigits 10 power.natAbs

/-- The bit that is set where a stored number is negative; all other bits are below it. -/
def signBit : Nat := 0x8000000000000000

def write (style : Style) (x : Float) : String :=
  let sign := if x.toBits.toNat / signBit = 1 then ['-'] else []
  if x.isNaN then "NaN"
  else if x.isInf then String.ofList (sign ++ ['i', 'n', 'f'])
  else if x.toBits.toNat % signBit = 0 then String.ofList (sign ++ ['0', '.', '0'])
  else
    let n := shortestOfFloat style.tie x
    let all := Nat.toDigits 10 n.digits
    let digits := (all.reverse.dropWhile (· == '0')).reverse
    let exponent := n.exponent + (all.length - digits.length : Nat)
    let power := digits.length + exponent - 1
    let isPositional := match style.positional with
      | none => true
      | some (least, greatest) => least ≤ power && power ≤ greatest
    String.ofList (sign ++
      if isPositional then positional digits exponent
      else scientific digits power)

end AccessLedger.Decimal
