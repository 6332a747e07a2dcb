/-!
The bounds of integers of 64 bits, without and with sign.
-/

namespace AccessLedger

def nat64Count : Nat := 0x10000000000000000

/--
The number of naturals that fit in 64 bits with a sign; its negative is the least integer there.
-/
def int64Limit : Nat := 0x8000000000000000

def clampInt64 (n : Int) : Int :=
  if n < -int64Limit then -int64Limit
  else if n < int64Limit then n
  else int64Limit - 1

end AccessLedger
