import AccessLedger.Collation.Element
import AccessLedger.Collation.Languages
import AccessLedger.Collation.Tag
import AccessLedger.Text.Blank

/-!
The order of labels in a language. Languages are known to a library; those that are here without one
have the root order, with the letters that a few of them have of their own and with the options that
a tag can ask for.
-/

namespace AccessLedger.Collation

/-- Sequences of characters, marks apart, that have elements of their own. -/
abbrev Tailoring := List (List Char × List Element)

namespace Tailoring

private def casesOf (sequence : List Char) : List Nat :=
  (sequence.flatMap Element.ofChar).filterMap fun e => e.primary.map fun _ => e.case.kind

/--
Deals cases out to letters one by one; the last letter has a mixed case if several are left that
differ.
-/
private def dealCases : List Nat → List Element → List Element
  | _, [] => []
  | kinds, e :: es =>
    if e.primary.isNone then e :: dealCases kinds es
    else
      let isLast := es.all (·.primary.isNone)
      let kind := match kinds with
        | [] => 0
        | k :: ks => if isLast && ks.any (· != k) then 1 else k
      { e with case.kind := kind } :: dealCases (kinds.drop 1) es

/-- An entry whose letters have the cases of the sequence. -/
private def entry (sequence : String) (elements : List Element) : List Char × List Element :=
  (sequence.toList, dealCases (casesOf sequence.toList) elements)

/--
A letter of its own at a place after the Latin letters; `accent` and `form` tell variants of it
apart.
-/
private def own (place accent form : Nat) : Element :=
  ⟨some (Element.latinBlock, Element.lastLatin + place), accent, ⟨0, form⟩⟩

private def plain (c : Char) (form : Nat) : Element :=
  ⟨some (Element.latin c), 0, ⟨0, form⟩⟩

private def variant (c : Char) (accent form : Nat) : Element :=
  ⟨some (Element.latin c), accent, ⟨0, form⟩⟩

private def both (small capital : String) (element : Nat → Element) : Tailoring :=
  [entry small [element 0], entry capital [element Element.upperForm]]

/-- In every language the Cyrillic short i is a letter, not an i with a mark. -/
def root : Tailoring :=
  both "и\u0306" "И\u0306" fun form =>
    ⟨some (Element.cyrillicBlock, Element.cyrillic.idxOf 'й'), 0, ⟨0, form⟩⟩

def spanish : Tailoring :=
  both "n\u0303" "N\u0303" fun form => ⟨some (Element.latinAfter 'n'), 0, ⟨0, form⟩⟩

private def nordic : Tailoring :=
  both "đ" "Đ" (variant 'd' 1) ++ both "ð" "Ð" (variant 'd' 2) ++
    both "u\u0308" "U\u0308" (variant 'y' 1) ++ both "u\u030b" "U\u030b" (variant 'y' 2)

/-- After z: å, ä with æ, ö with ø. -/
def swedish : Tailoring := nordic ++ [
  entry "þ" [plain 't' 1, plain 'h' 0],
  entry "Þ" [plain 't' (Element.upperForm + 1), plain 'h' 0]] ++
  both "a\u030a" "A\u030a" (own 1 0) ++
  both "a\u0308" "A\u0308" (own 2 0) ++ both "æ" "Æ" (own 2 1) ++
  both "e\u0328" "E\u0328" (own 2 2) ++
  both "o\u0308" "O\u0308" (own 3 0) ++ both "ø" "Ø" (own 3 1) ++
  both "o\u030b" "O\u030b" (own 3 2) ++ both "œ" "Œ" (own 3 3) ++ both "o\u0302" "O\u0302" (own 3 4)

/-- After z: æ with ä, ø with ö, and å, which may be written as a double a. -/
def danish : Tailoring := nordic ++ [
  entry "þ" [plain 't' 0, plain 'h' 1],
  entry "Þ" [plain 't' Element.upperForm, plain 'h' (Element.upperForm + 1)],
  entry "œ" [plain 'o' 0, variant 'e' 1 0],
  entry "Œ" [plain 'o' 0, variant 'e' 1 1]] ++
  both "æ" "Æ" (own 1 0) ++ both "a\u0308" "A\u0308" (own 1 1) ++
  both "ø" "Ø" (own 2 0) ++ both "o\u0308" "O\u0308" (own 2 1) ++
  both "o\u030b" "O\u030b" (own 2 2) ++
  both "a\u030a" "A\u030a" (own 3 0) ++ [
  entry "aa" [own 3 0 (Element.upperForm + 1)],
  entry "Aa" [own 3 0 (Element.upperForm + 2)],
  entry "AA" [own 3 0 (Element.upperForm + 3)]]

/-- In directories an umlaut counts as the vowel and an e. -/
def germanPhonebook : Tailoring :=
  [('a', "a\u0308", "A\u0308"), ('o', "o\u0308", "O\u0308"), ('u', "u\u0308", "U\u0308")].flatMap
    fun (c, small, capital) => [
      entry small [plain c 0, variant 'e' 1 0],
      entry capital [plain c 0, variant 'e' 1 1]]

end Tailoring

/-- Whether capitals come before or after small letters; `form` leaves it to the order of forms. -/
inductive CaseFirst where
  | form
  | lower
  | upper
deriving DecidableEq, Inhabited, Repr

structure LocaleOrder where
  tailoring : Tailoring := Tailoring.root
  caseFirst : CaseFirst := .form
  numeric : Bool := false
deriving DecidableEq, Inhabited, Repr

namespace LocaleOrder

/-- A language without letters of its own has the root order. -/
def ofTag (t : Tag) : LocaleOrder :=
  let tailoring := match t.id.language with
    | "sv" => Tailoring.swedish
    | "da" => Tailoring.danish
    | "es" => Tailoring.spanish
    | "de" => if t.keyword? "co" = some ["phonebk"] then Tailoring.germanPhonebook else []
    | _ => []
  let usual := if t.id.language = "da" then .upper else .form
  { tailoring := tailoring ++ Tailoring.root
    caseFirst := match t.keyword? "kf" with
      | some ["upper"] => .upper
      | some ["lower"] => .lower
      | some ["false"] => .form
      | _ => usual
    numeric := t.keyword? "kn" = some [] }

def match? (t : Tailoring) (cs : List Char) : Option (List Char × List Element) :=
  (t.filter fun (sequence, _) => sequence.isPrefixOf cs).foldl (fun best entry =>
    match best with
    | some b => if b.1.length < entry.1.length then some entry else best
    | none => some entry) none

/-- The most digits that one element of a number stands for. -/
def segmentLength : Nat := 254

/--
The segments of a run of digits, each a number of its own. Zeros at the front of a segment do not
count; the run is cut from its front, and its length bounds the number of segments.
-/
def segments : Nat → List Char → List Element
  | 0, _ => []
  | bound + 1, run =>
    let rest := run.dropWhile (· == '0')
    if rest.isEmpty then [⟨some (Element.digitBlock, 0), 0, {}⟩]
    else
      ⟨some (Element.digitBlock, Nat.ofDigitChars 10 (rest.take segmentLength) 0), 0, {}⟩ ::
        if segmentLength < rest.length then segments bound (rest.drop segmentLength) else []

private def isDigitHead : List Char → Bool
  | c :: _ => c.isDigit
  | [] => false

/-- Elements of a text whose marks stand apart from their letters; its length bounds the steps. -/
def elementsOf (o : LocaleOrder) : Nat → List Char → List Element
  | 0, _ => []
  | _, [] => []
  | bound + 1, c :: cs =>
    if o.numeric && isDigitHead (c :: cs) then
      let run := (c :: cs).takeWhile Char.isDigit
      segments run.length run ++ o.elementsOf bound ((c :: cs).dropWhile Char.isDigit)
    else
      match match? o.tailoring (c :: cs) with
      | some (sequence, elements) =>
        elements ++ o.elementsOf bound ((c :: cs).drop sequence.length)
      | none => Element.ofChar c ++ o.elementsOf bound cs

def elements (o : LocaleOrder) (s : String) : List Element :=
  let cs := s.toList.flatMap Element.decompose
  o.elementsOf cs.length cs

def compareCase (o : LocaleOrder) (a b : Element) : Ordering :=
  let byForm := compare a.case.form b.case.form
  if a.primary.isNone || b.primary.isNone then byForm
  else
    match o.caseFirst with
    | .form => byForm
    | .lower => (compare a.case.kind b.case.kind).then byForm
    | .upper => (compare b.case.kind a.case.kind).then byForm

def comparePrimary (a b : Primary) : Ordering :=
  (compare a.1 b.1).then (compare a.2 b.2)

/-- Letters first, over the whole text; then accents, then case. -/
def collation (o : LocaleOrder) : Collation := fun a b =>
  let x := o.elements a
  let y := o.elements b
  (List.compareLex comparePrimary (x.filterMap (·.primary)) (y.filterMap (·.primary))).then <|
    (List.compareLex (fun s t => compare s.accent t.accent) x y).then <|
      List.compareLex o.compareCase x y

end LocaleOrder

/--
Stands in for a library of languages. It has the root order of western letters, digits and symbols,
with the letters of a few languages; other characters go by code point, and other languages by the
root order, where a library may well order them in another way.
-/
def Languages.builtin : Languages where
  Locale := Tag
  read text := (Tag.parse text).mapError TagFault.message
  tag := Tag.canonical
  order tag := .ok (LocaleOrder.ofTag tag).collation

/-- Blanks around a locale do not matter; it is quoted as it is in a fault. -/
def localeTag (locale : String) (languages : Languages := .builtin) :
    Except LocaleFault languages.Locale :=
  (languages.read (Text.trim locale)).mapError (.invalid locale)

def ofLocale (locale : String) (languages : Languages := .builtin) :
    Except LocaleFault Collation := do
  let tag ← localeTag locale languages
  (languages.order tag).mapError (.noData (languages.tag tag))

end AccessLedger.Collation
