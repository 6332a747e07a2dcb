/-!
Text as it is found in a file: characters in UTF-8, and a hole for each byte that is part of no
character.
-/

namespace AccessLedger

abbrev RawText := List (Option Char)

namespace RawText

def ofString (s : String) : RawText :=
  s.toList.map some

def toString? (t : RawText) : Option String :=
  (t.mapM id).map String.ofList

def byteCount (t : RawText) : Nat :=
  t.foldr (fun c n => (c.map Char.utf8Size).getD 1 + n) 0

private def isTail (b : UInt8) : Bool :=
  0x80 ≤ b && b ≤ 0xBF

private def bits (b : UInt8) (mask : Nat) : Nat :=
  b.toNat % mask

/--
Reads UTF-8. Overlong forms, surrogates and code points beyond the last one are no characters, so
each of their bytes leaves a hole.
-/
def ofBytes : List UInt8 → RawText
  | [] => []
  | a :: b :: c :: d :: rest =>
    if a < 0x80 then some (Char.ofNat a.toNat) :: ofBytes (b :: c :: d :: rest)
    else if 0xC2 ≤ a && a ≤ 0xDF && isTail b then
      some (Char.ofNat (bits a 0x20 * 0x40 + bits b 0x40)) :: ofBytes (c :: d :: rest)
    else if isThree a b c then
      some (Char.ofNat (bits a 0x10 * 0x1000 + bits b 0x40 * 0x40 + bits c 0x40)) ::
        ofBytes (d :: rest)
    else if isFour a b c d then
      some (Char.ofNat
        (bits a 0x8 * 0x40000 + bits b 0x40 * 0x1000 + bits c 0x40 * 0x40 + bits d 0x40)) ::
        ofBytes rest
    else none :: ofBytes (b :: c :: d :: rest)
  | [a, b, c] =>
    if a < 0x80 then some (Char.ofNat a.toNat) :: ofBytes [b, c]
    else if 0xC2 ≤ a && a ≤ 0xDF && isTail b then
      some (Char.ofNat (bits a 0x20 * 0x40 + bits b 0x40)) :: ofBytes [c]
    else if isThree a b c then
      [some (Char.ofNat (bits a 0x10 * 0x1000 + bits b 0x40 * 0x40 + bits c 0x40))]
    else none :: ofBytes [b, c]
  | [a, b] =>
    if a < 0x80 then some (Char.ofNat a.toNat) :: ofBytes [b]
    else if 0xC2 ≤ a && a ≤ 0xDF && isTail b then
      [some (Char.ofNat (bits a 0x20 * 0x40 + bits b 0x40))]
    else none :: ofBytes [b]
  | [a] => if a < 0x80 then [some (Char.ofNat a.toNat)] else [none]
where
  isThree (a b c : UInt8) : Bool :=
    isTail b && isTail c &&
      ((a == 0xE0 && 0xA0 ≤ b) || (0xE1 ≤ a && a ≤ 0xEC) || (a == 0xED && b ≤ 0x9F) ||
        (0xEE ≤ a && a ≤ 0xEF))
  isFour (a b c d : UInt8) : Bool :=
    isTail b && isTail c && isTail d &&
      ((a == 0xF0 && 0x90 ≤ b) || (0xF1 ≤ a && a ≤ 0xF3) || (a == 0xF4 && b ≤ 0x8F))

end RawText
end AccessLedger
