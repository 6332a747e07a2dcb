import AccessLedger.Integer64
import AccessLedger.Json.Decoder

/-!
Quoted strings and numbers. A string's content is checked to be text only once its closing quote is
reached. Numbers without point and exponent are integers as far as 64 bits go; all others are
floating point.
-/

namespace AccessLedger.Json

def hexDigit? : Option Char → Option Nat
  | some c =>
    if c.isDigit then some (c.toNat - '0'.toNat)
    else if 'a' ≤ c && c ≤ 'f' then some (c.toNat - 'a'.toNat + 10)
    else if 'A' ≤ c && c ≤ 'F' then some (c.toNat - 'A'.toNat + 10)
    else none
  | none => none

def hexValue? (a b c d : Option Char) : Option Nat := do
  let a ← hexDigit? a
  let b ← hexDigit? b
  let c ← hexDigit? c
  let d ← hexDigit? d
  pure (((a * 16 + b) * 16 + c) * 16 + d)

def isControl : Option Char → Bool
  | some c => c.toNat < 0x20
  | none => false

def simpleEscape? : Option Char → Option Char
  | some '"' => some '"'
  | some '\\' => some '\\'
  | some '/' => some '/'
  | some 'b' => some '\x08'
  | some 'f' => some '\x0c'
  | some 'n' => some '\n'
  | some 'r' => some '\r'
  | some 't' => some '\t'
  | _ => none

/-- A fault after so many bytes of `rest`, or at its end. -/
def faultAhead (bytes : Nat) (rest : RawText) (cause : Cause) : Fault :=
  ⟨cause, some (rest.byteCount - bytes)⟩

def hexFault (rest : RawText) : Fault :=
  if rest.byteCount < 4 then faultAhead 4 rest .endOfString else faultAhead 4 rest .badEscape

def hexCode? : RawText → Option (Nat × RawText)
  | a :: b :: c :: d :: rest => (hexValue? a b c d).map (·, rest)
  | _ => none

def isHighSurrogate (n : Nat) : Bool := 0xD800 ≤ n && n ≤ 0xDBFF

def isLowSurrogate (n : Nat) : Bool := 0xDC00 ≤ n && n ≤ 0xDFFF

/--
The character of an escape, read after the backslash. A high surrogate has to be followed by the
escape of a low one.
-/
def escape (input : RawText) : Except Fault (Char × RawText) :=
  match input with
  | [] => .error (faultAhead 0 [] .endOfString)
  | some 'u' :: rest =>
    match hexCode? rest with
    | none => .error (hexFault rest)
    | some (n, rest) =>
      if isLowSurrogate n then .error (faultAhead 0 rest .loneSurrogate)
      else if isHighSurrogate n then
        match rest with
        | some '\\' :: some 'u' :: rest =>
          match hexCode? rest with
          | none => .error (hexFault rest)
          | some (m, rest) =>
            if isLowSurrogate m then
              .ok (Char.ofNat (0x10000 + (n - 0xD800) * 0x400 + (m - 0xDC00)), rest)
            else .error (faultAhead 0 rest .loneSurrogate)
        | [] => .error (faultAhead 0 [] .endOfString)
        | [some '\\'] => .error (faultAhead 0 [] .endOfString)
        | some '\\' :: rest => .error (faultAhead 1 rest .endOfHexEscape)
        | rest => .error (faultAhead 1 rest .endOfHexEscape)
      else .ok (Char.ofNat n, rest)
  | c :: rest =>
    match simpleEscape? c with
    | some e => .ok (e, rest)
    | none => .error (faultAhead 1 (c :: rest) .badEscape)

theorem hexCode?_length {rest : RawText} {n : Nat} {rest' : RawText}
    (h : hexCode? rest = some (n, rest')) : rest'.length < rest.length := by
  match rest with
  | a :: b :: c :: d :: tail =>
    simp only [hexCode?, Option.map_eq_some_iff, Prod.mk.injEq] at h
    obtain ⟨_, _, _, rfl⟩ := h
    simp only [List.length_cons]; omega
  | [] | [_] | [_, _] | [_, _, _] => simp [hexCode?] at h

theorem escape_length {input : RawText} {c : Char} {rest : RawText}
    (h : escape input = .ok (c, rest)) : rest.length < input.length := by
  unfold escape at h
  split at h
  · cases h
  · split at h
    · cases h
    · next hx =>
      have hlen := hexCode?_length hx
      split at h
      · cases h
      · split at h
        · split at h
          · split at h
            · cases h
            · next hy =>
              have hlen' := hexCode?_length hy
              split at h
              · simp only [Except.ok.injEq, Prod.mk.injEq] at h
                obtain ⟨_, rfl⟩ := h
                simp only [List.length_cons] at *
                omega
              · cases h
          all_goals cases h
        · simp only [Except.ok.injEq, Prod.mk.injEq] at h
          obtain ⟨_, rfl⟩ := h
          simp only [List.length_cons]
          omega
  · split at h
    · cases h; simp
    · cases h

/-- The content of a string up to its closing quote, holes included, and what follows the quote. -/
def stringContent (input : RawText) : Except Fault (RawText × RawText) :=
  match input with
  | [] => .error (faultAhead 0 [] .endOfString)
  | some '"' :: rest => .ok ([], rest)
  | some '\\' :: rest =>
    match _h : escape rest with
    | .error f => .error f
    | .ok (c, rest) =>
      match stringContent rest with
      | .error f => .error f
      | .ok (content, rest) => .ok (some c :: content, rest)
  | c :: rest =>
    if isControl c then .error (faultAhead 1 (c :: rest) .controlCharacter)
    else
      match stringContent rest with
      | .error f => .error f
      | .ok (content, rest) => .ok (c :: content, rest)
termination_by input.length
decreasing_by
  · have := escape_length _h; simp only [List.length_cons]; omega
  · simp

def stringBody : Decoder String := do
  match stringContent (← get) with
  | .error f => throw f
  | .ok (content, rest) =>
    set rest
    match content.toString? with
    | some s => pure s
    | none => Decoder.failHere .badCodePoint

/-- A number as it is written: within 64 bits, with a sign if below zero, or floating point. -/
inductive Number where
  | natural (n : Nat)
  | negative (n : Int)
  | floating (x : Float)
deriving Inhabited, Repr

def digits : RawText → List Char × RawText
  | some c :: rest =>
    if c.isDigit then
      let (ds, rest) := digits rest
      (c :: ds, rest)
    else ([], some c :: rest)
  | rest => ([], rest)

/-- Appends digits to a number while it stays within 64 bits; gives how many were appended. -/
def absorb (n : Nat) : List Char → Nat × Nat
  | [] => (n, 0)
  | d :: ds =>
    let next := 10 * n + (d.toNat - '0'.toNat)
    if next < nat64Count then
      let (n, count) := absorb next ds
      (n, count + 1)
    else (n, 0)

/--
The number `f * 10 ^ exponent`, found by one multiplication or division as far as the power of ten
is a floating-point number itself; nothing if it is too large.
-/
def scaleByTen (f : Float) (exponent : Int) : Option Float :=
  if exponent.natAbs ≤ 308 then
    let power := Float.ofScientific 1 false exponent.natAbs
    if 0 ≤ exponent then
      if (f * power).isInf then none else some (f * power)
    else some (f / power)
  else if f == 0 then some f
  else if 0 ≤ exponent then none
  else scaleByTen (f / Float.ofScientific 1 false 308) (exponent + 308)
termination_by exponent.natAbs

def floating (negative : Bool) (significand : Nat) (exponent : Int) : Decoder Number := do
  match scaleByTen significand.toUInt64.toFloat exponent with
  | none => Decoder.failHere .numberOutOfRange
  | some f => pure (.floating (if negative then -f else f))

/-- The digits of an exponent up to the limit of 31 bits; nothing once they exceed it. -/
def exponentValue (n : Nat) : RawText → Option Nat × RawText
  | some c :: rest =>
    if c.isDigit then
      let next := 10 * n + (c.toNat - '0'.toNat)
      if next < 0x80000000 then exponentValue next rest else (none, rest)
    else (some n, some c :: rest)
  | rest => (some n, rest)

def exponent (negative : Bool) (significand : Nat) (offset : Int) : Decoder Number := do
  modify (·.drop 1)
  let down ← match ← get with
    | some '+' :: rest => set rest; pure false
    | some '-' :: rest => set rest; pure true
    | _ => pure false
  match ← get with
  | [] => Decoder.failHere .endOfValue
  | some c :: _ =>
    if c.isDigit then
      match exponentValue 0 (← get) with
      | (some e, rest) =>
        set rest
        floating negative significand (if down then offset - e else offset + e)
      | (none, rest) =>
        set rest
        if significand ≠ 0 && !down then Decoder.failHere .numberOutOfRange
        else
          modify fun input => (digits input).2
          pure (.floating (if negative then -0.0 else 0.0))
    else Decoder.failNext .badNumber
  | none :: _ => Decoder.failNext .badNumber

def atExponent : RawText → Bool
  | some c :: _ => c == 'e' || c == 'E'
  | _ => false

/-- The decimals of a number, the point being next. Digits beyond 64 bits do not count. -/
def decimals (negative : Bool) (significand : Nat) (offset : Int) : Decoder Number := do
  modify (·.drop 1)
  let (ds, rest) := digits (← get)
  if ds.isEmpty then
    match rest with
    | [] => Decoder.failNext .endOfValue
    | _ => Decoder.failNext .badNumber
  else
    set rest
    let (significand, count) := absorb significand ds
    if atExponent rest then exponent negative significand (offset - count)
    else floating negative significand (offset - count)

def unsignedNumber (negative : Bool) : Decoder Number := do
  match ← get with
  | [] => Decoder.failHere .endOfValue
  | some '0' :: some c :: rest =>
    if c.isDigit then
      set (some c :: rest)
      Decoder.failNext .badNumber
    else
      set (some c :: rest)
      afterWhole 0 0
  | some c :: _ =>
    if c.isDigit then
      let (ds, rest) := digits (← get)
      set rest
      let (significand, count) := absorb 0 ds
      afterWhole significand (ds.length - count)
    else Decoder.failNext .badNumber
  | none :: _ => Decoder.failNext .badNumber
where
  afterWhole (significand dropped : Nat) : Decoder Number := do
    match ← get with
    | some '.' :: _ => decimals negative significand dropped
    | rest =>
      if atExponent rest then exponent negative significand dropped
      else if dropped ≠ 0 then floating negative significand dropped
      else if !negative then pure (.natural significand)
      else if 0 < significand && significand ≤ int64Limit then pure (.negative (-significand))
      else pure (.floating (-significand.toUInt64.toFloat))

end AccessLedger.Json
