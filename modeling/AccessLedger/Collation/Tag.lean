/-!
Language tags such as `fr-FR` or `de-u-co-phonebk`: a language with optional script, region and
variants, then extensions, each opened by a letter. Lengths count bytes. Tags that mean the same
have one canonical spelling.
-/

namespace AccessLedger.Collation

inductive TagFault where
  | language
  | subtag
  | extension
  | duplicatedExtension
deriving DecidableEq, Inhabited, Repr

def TagFault.message : TagFault → String
  | language => "The given language subtag is invalid"
  | subtag => "Invalid subtag"
  | extension => "Invalid extension"
  | duplicatedExtension => "Duplicated extension"

/-- The language part of a tag; all subtags in their canonical case, variants in order. -/
structure LanguageId where
  language : String
  script : Option String := none
  region : Option String := none
  variants : List String := []
deriving DecidableEq, Inhabited, Repr

abbrev Keyword := String × List String

structure Tag where
  id : LanguageId
  /-- The `u` extension: attributes, then keywords ordered by key. -/
  unicode : Option (List String × List Keyword) := none
  /-- The `t` extension: a language of origin, then fields ordered by key. -/
  transform : Option (Option LanguageId × List Keyword) := none
  others : List (Char × List String) := []
  /-- The `x` extension, which takes everything after it. -/
  privateUse : List String := []
deriving DecidableEq, Inhabited, Repr

namespace Tag

abbrev Subtag := List Char

/-- Splits at hyphens; there is always at least one piece. -/
def pieces : List Char → List Subtag
  | [] => [[]]
  | c :: cs =>
    match pieces cs with
    | [] => [[c]]
    | p :: ps => if c = '-' then [] :: p :: ps else (c :: p) :: ps

def isLetters (s : Subtag) : Bool := s.all Char.isAlpha

def isAlphanumeric (s : Subtag) : Bool := s.all Char.isAlphanum

def lower (s : Subtag) : String := String.ofList (s.map Char.toLower)

def upper (s : Subtag) : String := String.ofList (s.map Char.toUpper)

def capitalized : Subtag → String
  | [] => ""
  | c :: cs => String.ofList (c.toUpper :: cs.map Char.toLower)

def language? (s : Subtag) : Option String :=
  if (s.length = 2 ∨ s.length = 3) ∧ isLetters s then some (lower s) else none

def script? (s : Subtag) : Option String :=
  if s.length = 4 ∧ isLetters s then some (capitalized s) else none

def region? (s : Subtag) : Option String :=
  if (s.length = 2 ∧ isLetters s) ∨ (s.length = 3 ∧ s.all Char.isDigit) then some (upper s)
  else none

/-- Five to eight letters or digits, or four that begin with a digit. -/
def variant? (s : Subtag) : Option String :=
  let fits := match s with
    | [a, _, _, _] => a.isDigit
    | _ => 5 ≤ s.length && s.length ≤ 8
  if fits && isAlphanumeric s then some (lower s) else none

/-- Letters or digits, `least` to eight of them. -/
def word? (least : Nat) (s : Subtag) : Option String :=
  if least ≤ s.length ∧ s.length ≤ 8 ∧ isAlphanumeric s then some (lower s) else none

def unicodeKey? : Subtag → Option String
  | [a, b] => if a.isAlphanum && b.isAlpha then some (lower [a, b]) else none
  | _ => none

def transformKey? : Subtag → Option String
  | [a, b] => if a.isAlpha && b.isDigit then some (lower [a, b]) else none
  | _ => none

/-- Inserts into an ordered list; nothing if it is there already. -/
def insertNew (x : String) : List String → Option (List String)
  | [] => some [x]
  | y :: ys =>
    if x < y then some (x :: y :: ys)
    else if x = y then none
    else (insertNew x ys).map (y :: ·)

/-- Inserts by key into an ordered list; the first value given for a key stays. -/
def insertKeyword (k : Keyword) : List Keyword → List Keyword
  | [] => [k]
  | l :: ls =>
    if k.1 < l.1 then k :: l :: ls
    else if k.1 = l.1 then l :: ls
    else l :: insertKeyword k ls

def byteCount (s : Subtag) : Nat :=
  s.foldr (fun c n => c.utf8Size + n) 0

/-- Where the next subtag of a language part belongs at the earliest. -/
inductive Slot where
  | script
  | region
  | variant
deriving DecidableEq, Inhabited, Repr

/--
Script, region and variants. Within a whole tag a single character ends them and any other misfit is
a fault; within an extension any misfit ends them.
-/
def languageRest (whole : Bool) (id : LanguageId) (slot : Slot) :
    List Subtag → Except TagFault (LanguageId × List Subtag)
  | [] => .ok (id, [])
  | s :: rest =>
    if whole && byteCount s == 1 then .ok (id, s :: rest)
    else
      match (if slot = .script then script? s else none) with
      | some script => languageRest whole { id with script := some script } .region rest
      | none =>
        match (if slot = .variant then none else region? s) with
        | some region => languageRest whole { id with region := some region } .variant rest
        | none =>
          match variant? s with
          | some v =>
            match insertNew v id.variants with
            | some variants => languageRest whole { id with variants := variants } .variant rest
            | none => .error .subtag
          | none => if whole then .error .subtag else .ok (id, s :: rest)

/-- Leading words of three letters or more, ordered and without repetitions. -/
def attributes (found : List String) : List Subtag → List String × List Subtag
  | [] => (found, [])
  | s :: rest =>
    match word? 3 s with
    | some a => attributes ((insertNew a found).getD found) rest
    | none => (found, s :: rest)

/-- The words of a value; the word `true` adds nothing to it. -/
def valueWords : List Subtag → List String × List Subtag
  | [] => ([], [])
  | s :: rest =>
    match word? 3 s with
    | some w =>
      let (ws, rest) := valueWords rest
      (if w = "true" then ws else w :: ws, rest)
    | none => ([], s :: rest)

theorem valueWords_length (ss : List Subtag) : (valueWords ss).2.length ≤ ss.length := by
  induction ss with
  | nil => simp [valueWords]
  | cons s rest ih =>
    simp only [valueWords]
    split
    · simp only [List.length_cons]; omega
    · simp

def keywords (found : List Keyword) (input : List Subtag) :
    Except TagFault (List Keyword × List Subtag) :=
  match input with
  | [] => .ok (found, [])
  | s :: rest =>
    if byteCount s = 2 then
      match unicodeKey? s with
      | none => .error .extension
      | some key =>
        have := valueWords_length rest
        keywords (insertKeyword (key, (valueWords rest).1) found) (valueWords rest).2
    else .ok (found, s :: rest)
termination_by input.length

/-- Fields of a `t` extension, each with at least one word, be it `true`. -/
def transformFields (found : List Keyword) (input : List Subtag) :
    Except TagFault (List Keyword × List Subtag) :=
  match input with
  | [] => .ok (found, [])
  | s :: rest =>
    match transformKey? s with
    | none => .ok (found, s :: rest)
    | some key =>
      have := valueWords_length rest
      if (valueWords rest).2.length = rest.length then .error .extension
      else transformFields (insertKeyword (key, (valueWords rest).1) found) (valueWords rest).2
termination_by input.length

/--
Words of an extension by another letter. A subtag of two to eight bytes that is no word is passed
over.
-/
def otherWords : List Subtag → List String × List Subtag
  | [] => ([], [])
  | s :: rest =>
    if 2 ≤ byteCount s && byteCount s ≤ 8 then
      let (ws, rest) := otherWords rest
      ((word? 2 s).toList ++ ws, rest)
    else ([], s :: rest)

def insertOther (o : Char × List String) : List (Char × List String) → List (Char × List String)
  | [] => [o]
  | p :: ps => if o.1 < p.1 then o :: p :: ps else p :: insertOther o ps

def extension (letter : Char) (t : Tag) (rest : List Subtag) :
    Except TagFault (Tag × List Subtag) := do
  if letter = 'u' then
    if t.unicode.isSome then throw .duplicatedExtension
    let (attributes, rest) := attributes [] rest
    let (keywords, rest) ← keywords [] rest
    if attributes.isEmpty && keywords.isEmpty then throw .extension
    pure ({ t with unicode := some (attributes, keywords) }, rest)
  else if letter = 't' then
    if t.transform.isSome then throw .duplicatedExtension
    let (origin, rest) ← match rest with
      | s :: others =>
        match language? s with
        | some language => do
          let (id, rest) ← languageRest false { language } .script others
          pure (some id, rest)
        | none => pure (none, rest)
      | [] => pure (none, rest)
    let (fields, rest) ← transformFields [] rest
    if origin.isNone && fields.isEmpty then throw .extension
    pure ({ t with transform := some (origin, fields) }, rest)
  else if letter = 'x' then
    if !t.privateUse.isEmpty then throw .duplicatedExtension
    match rest.mapM (word? 1) with
    | none => throw .extension
    | some [] => throw .extension
    | some words => pure ({ t with privateUse := words }, [])
  else if letter.isAlpha then
    if t.others.any (·.1 == letter) then throw .duplicatedExtension
    let (words, rest) := otherWords rest
    if words.isEmpty then throw .extension
    pure ({ t with others := insertOther (letter, words) t.others }, rest)
  else throw .extension

/--
The first letter of a subtag tells the extension that it opens. Every extension takes up subtags,
whose number bounds theirs.
-/
def extensions : Nat → Tag → List Subtag → Except TagFault Tag
  | _, t, [] => .ok t
  | bound + 1, t, (letter :: _) :: rest => do
    let (t, rest) ← extension letter.toLower t rest
    extensions bound t rest
  | _, _, _ => .error .extension

def parse (s : String) : Except TagFault Tag :=
  match pieces s.toList with
  | [] => .error .language
  | first :: rest =>
    match language? first with
    | none => .error .language
    | some language => do
      let (id, rest) ← languageRest true { language } .script rest
      extensions rest.length { id } rest

end Tag

def LanguageId.subtags (id : LanguageId) : List String :=
  id.language :: (id.script.toList ++ id.region.toList ++ id.variants)

namespace Tag

private def keywordSubtags (ks : List Keyword) : List String :=
  ks.flatMap fun (key, value) => key :: value

/-- A field always has a value, if only `true`. -/
private def fieldSubtags (ks : List Keyword) : List String :=
  ks.flatMap fun (key, value) => key :: if value.isEmpty then ["true"] else value

/--
The subtags in canonical order: other extensions by letter with `t` and `u` among them, `x` last.
-/
def subtags (t : Tag) : List String :=
  let transform := match t.transform with
    | none => []
    | some (origin, fields) =>
      "t" :: ((origin.map (·.subtags.map String.toLower)).getD [] ++ fieldSubtags fields)
  let unicode := match t.unicode with
    | none => []
    | some (attributes, keywords) => "u" :: (attributes ++ keywordSubtags keywords)
  let other (o : Char × List String) := String.singleton o.1 :: o.2
  t.id.subtags ++ (t.others.filter (·.1 < 't')).flatMap other ++ transform ++ unicode ++
    (t.others.filter fun o => !decide (o.1 < 't')).flatMap other ++
    (if t.privateUse.isEmpty then [] else "x" :: t.privateUse)

def canonical (t : Tag) : String :=
  String.intercalate "-" t.subtags

def keyword? (t : Tag) (key : String) : Option (List String) :=
  t.unicode.bind fun (_, keywords) => keywords.lookup key

end Tag
end AccessLedger.Collation
