/-!
The floating-point number nearest to a decimal number.
-/

namespace AccessLedger.Decimal

/--
The number nearest to `digits * 10 ^ exponent`. Beyond any doubt about the outcome the number is not
computed: it is infinite or zero.
-/
def nearest (digits : Nat) (exponent : Int) : Float :=
  let magnitude := (Nat.toDigits 10 digits).length + exponent
  if digits = 0 || magnitude < -400 then 0
  else if 400 < magnitude then 1 / 0
  else if 0 ≤ exponent then Float.ofScientific digits false exponent.toNat
  else Float.ofScientific digits true exponent.natAbs

end AccessLedger.Decimal
