/-!
Strings in TOML have four forms: in double quotes with escapes or in single quotes without, and each
on one line or, between three quotes, on several. The readers here take a string off the front of a
text.
-/

namespace AccessLedger.Toml

def isPlain (c : Char) : Bool :=
  c == '\t' || (0x20 ≤ c.toNat && c.toNat ≠ 0x7F)

def isBlank (c : Char) : Bool :=
  c == ' ' || c == '\t'

def hexDigit? (c : Char) : Option Nat :=
  if c.isDigit then some (c.toNat - '0'.toNat)
  else if 'a' ≤ c && c ≤ 'f' then some (c.toNat - 'a'.toNat + 10)
  else if 'A' ≤ c && c ≤ 'F' then some (c.toNat - 'A'.toNat + 10)
  else none

/-- The value of the given number of hexadecimal digits, appended to those of `n`. -/
def hexValue? (n : Nat) : Nat → List Char → Option (Nat × List Char)
  | 0, rest => some (n, rest)
  | digits + 1, c :: rest => do
    let d ← hexDigit? c
    hexValue? (16 * n + d) digits rest
  | _ + 1, [] => none

/-- The character with a code point of so many hexadecimal digits. -/
def codePoint? (digits : Nat) (input : List Char) : Option (Char × List Char) := do
  let (n, rest) ← hexValue? 0 digits input
  if n.isValidChar then some (Char.ofNat n, rest) else none

def escape? : List Char → Option (Char × List Char)
  | '"' :: rest => some ('"', rest)
  | '\\' :: rest => some ('\\', rest)
  | 'b' :: rest => some ('\x08', rest)
  | 'f' :: rest => some ('\x0c', rest)
  | 'n' :: rest => some ('\n', rest)
  | 'r' :: rest => some ('\r', rest)
  | 't' :: rest => some ('\t', rest)
  | 'u' :: rest => codePoint? 4 rest
  | 'U' :: rest => codePoint? 8 rest
  | _ => none

theorem hexValue?_length {n digits m : Nat} {input rest : List Char}
    (h : hexValue? n digits input = some (m, rest)) : rest.length + digits = input.length := by
  induction digits generalizing n input with
  | zero => simp only [hexValue?, Option.some.injEq, Prod.mk.injEq] at h; simp [h.2]
  | succ digits ih =>
    cases input with
    | nil => simp [hexValue?] at h
    | cons c input =>
      simp only [hexValue?, Option.bind_eq_bind, Option.bind_eq_some_iff] at h
      obtain ⟨d, _, h⟩ := h
      have := ih h
      simp only [List.length_cons]; omega

theorem codePoint?_length {digits : Nat} {input rest : List Char} {c : Char}
    (h : codePoint? digits input = some (c, rest)) : rest.length ≤ input.length := by
  simp only [codePoint?, Option.bind_eq_bind, Option.bind_eq_some_iff] at h
  obtain ⟨⟨n, rest'⟩, hn, h⟩ := h
  have hlen : rest'.length + digits = input.length := hexValue?_length hn
  split at h
  · cases h
    show rest'.length ≤ input.length
    omega
  · cases h

theorem escape?_length {input rest : List Char} {c : Char} (h : escape? input = some (c, rest)) :
    rest.length < input.length := by
  unfold escape? at h
  split at h
  case h_8 | h_9 =>
    have := codePoint?_length h
    simp only [List.length_cons]; omega
  all_goals first | (cases h; simp) | cases h

def skipLineBreak : List Char → List Char
  | '\n' :: rest => rest
  | '\r' :: '\n' :: rest => rest
  | input => input

def skipBlankLines : List Char → List Char
  | '\n' :: rest => skipBlankLines rest
  | '\r' :: '\n' :: rest => skipBlankLines rest
  | c :: rest => if isBlank c then skipBlankLines rest else c :: rest
  | [] => []

theorem skipBlankLines_length (input : List Char) :
    (skipBlankLines input).length ≤ input.length := by
  fun_induction skipBlankLines input with
  | case1 rest ih | case2 rest ih | case3 c rest _ _ _ ih =>
    simp only [List.length_cons]; omega
  | case4 | case5 => exact Nat.le_refl _

/--
What follows a backslash at the end of a line: blanks, a line break, then all blanks and breaks.
-/
def continuation? (input : List Char) : Option (List Char) :=
  match input.dropWhile isBlank with
  | '\n' :: rest => some (skipBlankLines rest)
  | '\r' :: '\n' :: rest => some (skipBlankLines rest)
  | _ => none

theorem continuation?_length {input rest : List Char} (h : continuation? input = some rest) :
    rest.length < input.length := by
  have hd := (List.dropWhile_suffix isBlank (l := input)).length_le
  unfold continuation? at h
  split at h
  · next r hr =>
    cases h
    have := skipBlankLines_length r
    rw [hr] at hd
    simp only [List.length_cons] at hd
    omega
  · next r hr =>
    cases h
    have := skipBlankLines_length r
    rw [hr] at hd
    simp only [List.length_cons] at hd
    omega
  · cases h

def basicContent (input : List Char) : Option (List Char × List Char) :=
  match input with
  | [] => none
  | '"' :: rest => some ([], rest)
  | '\\' :: rest =>
    match _h : escape? rest with
    | none => none
    | some (c, rest) => (basicContent rest).map fun (content, rest) => (c :: content, rest)
  | c :: rest =>
    if isPlain c then (basicContent rest).map fun (content, rest) => (c :: content, rest)
    else none
termination_by input.length
decreasing_by
  · have := escape?_length _h; simp only [List.length_cons]; omega
  · simp

/--
The content up to three closing double quotes. One or two quotes belong to the content, also right
before the closing ones. Line breaks of two characters become one.
-/
def basicLines (input : List Char) : Option (List Char × List Char) :=
  match input with
  | [] => none
  | '"' :: '"' :: '"' :: '"' :: '"' :: rest => some (['"', '"'], rest)
  | '"' :: '"' :: '"' :: '"' :: rest => some (['"'], rest)
  | '"' :: '"' :: '"' :: rest => some ([], rest)
  | '\\' :: rest =>
    match _h : continuation? rest with
    | some rest => basicLines rest
    | none =>
      match _h : escape? rest with
      | none => none
      | some (c, rest) => (basicLines rest).map fun (content, rest) => (c :: content, rest)
  | '\r' :: '\n' :: rest => (basicLines rest).map fun (content, rest) => ('\n' :: content, rest)
  | c :: rest =>
    if c == '\n' || isPlain c then
      (basicLines rest).map fun (content, rest) => (c :: content, rest)
    else none
termination_by input.length
decreasing_by
  · have := continuation?_length _h; simp only [List.length_cons]; omega
  · have := escape?_length _h; simp only [List.length_cons]; omega
  · simp only [List.length_cons]; omega
  · simp

def literalContent : List Char → Option (List Char × List Char)
  | [] => none
  | '\'' :: rest => some ([], rest)
  | c :: rest =>
    if isPlain c then (literalContent rest).map fun (content, rest) => (c :: content, rest)
    else none

/--
The content up to three closing single quotes, where quotes and line breaks are as in `basicLines`.
-/
def literalLines : List Char → Option (List Char × List Char)
  | [] => none
  | '\'' :: '\'' :: '\'' :: '\'' :: '\'' :: rest => some (['\'', '\''], rest)
  | '\'' :: '\'' :: '\'' :: '\'' :: rest => some (['\''], rest)
  | '\'' :: '\'' :: '\'' :: rest => some ([], rest)
  | '\r' :: '\n' :: rest => (literalLines rest).map fun (content, rest) => ('\n' :: content, rest)
  | c :: rest =>
    if c == '\n' || isPlain c then
      (literalLines rest).map fun (content, rest) => (c :: content, rest)
    else none

/-- A string in any form. A line break right after three opening quotes does not count. -/
def string? : List Char → Option (List Char × List Char)
  | '"' :: '"' :: '"' :: rest => basicLines (skipLineBreak rest)
  | '"' :: rest => basicContent rest
  | '\'' :: '\'' :: '\'' :: rest => literalLines (skipLineBreak rest)
  | '\'' :: rest => literalContent rest
  | _ => none

end AccessLedger.Toml
