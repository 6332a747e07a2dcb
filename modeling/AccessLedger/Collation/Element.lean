import AccessLedger.Text.Lowercase

/-!
Collation elements of the root order. Text is compared by its letters first, then by accents, then
by case; each character contributes elements that say what it adds on these levels. Latin, Greek and
Cyrillic letters, digits, and the symbols of western text have their places; other characters follow
by code point.
-/

namespace AccessLedger.Collation

/-- A place in the order of letters: a block of characters, then a place within it. -/
abbrev Primary := Nat × Nat

/-- The case of a letter: lower, mixed or upper, and among forms of one letter its place. -/
structure CaseWeight where
  kind : Nat := 0
  form : Nat := 0
deriving DecidableEq, Inhabited, Repr

/-- What a character adds; an accent of its own has no primary weight. -/
structure Element where
  primary : Option Primary
  /-- Zero on a plain letter. -/
  accent : Nat := 0
  case : CaseWeight := {}
deriving DecidableEq, Inhabited, Repr

namespace Element

/--
White space and punctuation, then symbols, in root order; members of a group differ in form only.
-/
def symbols : List String :=
  ["\t", "\n", "\x0b", "\x0c", "\r", "\x85", "\u2028", "\u2029", " \u00a0", "_", "-",
    "\u2010\u2011", "–", "—", ",", ";", ":", "!", "¡", "?", "¿", ".", "…", "·", "'", "\"", "«", "»",
    "(", ")", "[", "]", "\x7b", "\x7d", "§", "¶", "@", "*", "/", "\\", "&", "#", "%", "†", "‡", "•",
    "`", "´", "^", "¯", "¨", "¸", "°", "©", "®", "+", "±", "÷", "×", "<", "=", ">", "¬", "|", "¦",
    "~", "⁄", "¤", "¢", "$", "£", "¥", "€"]

def symbolBlock : Nat := 0
def digitBlock : Nat := 1
def latinBlock : Nat := 2
def greekBlock : Nat := 3
def cyrillicBlock : Nat := 4
def otherBlock : Nat := 5

/--
The last place a Latin letter takes in the root order; letters of an alphabet's own come after it.
-/
def lastLatin : Nat := 300

/-- Marks on letters, in the order in which they count. -/
def marks : List Char :=
  ['\u0332', '\u0313', '\u0314', '\u0301', '\u0300', '\u0306', '\u0302', '\u030c', '\u030a',
    '\u0342', '\u0308', '\u030b', '\u0303', '\u0307', '\u0338', '\u0327', '\u0328', '\u0304',
    '\u0336', '\u0335', '\u0305', '\u0309', '\u030f', '\u0310', '\u0311', '\u031b', '\u0321',
    '\u0322', '\u0323', '\u0324', '\u0325', '\u0326', '\u032d', '\u032e', '\u0330', '\u0331',
    '\u0334']

/-- Accents of variants of a letter are below this weight and those of marks from it on. -/
def leastMark : Nat := 10

/-- The accent weight of a combining mark; unknown marks come last. -/
def accentWeight (mark : Char) : Nat :=
  leastMark + (marks.idxOf? mark).getD marks.length

/-- The accent weight of letters that are joined or that have a shape of their own. -/
def shapeWeight : Nat := leastMark + marks.length + 1

/-- A mark, letters that bear it, and the same letters without it, in the same order. -/
def compositions : List (Char × String × String) := [
  ('\u0300', "ÀÈÌÒÙàèìòùЀЍѐѝ", "AEIOUaeiouЕИеи"),
  ('\u0301', "ÁÉÍÓÚÝáéíóúýĆćĹĺŃńŔŕŚśŹźΆΈΉΊΌΎΏΐάέήίΰόύώЃЌѓќ",
    "AEIOUYaeiouyCcLlNnRrSsZzΑΕΗΙΟΥΩϊαεηιϋουωГКгк"),
  ('\u0302', "ÂÊÎÔÛâêîôûĈĉĜĝĤĥĴĵŜŝŴŵŶŷ", "AEIOUaeiouCcGgHhJjSsWwYy"),
  ('\u0303', "ÃÑÕãñõĨĩŨũ", "ANOanoIiUu"),
  ('\u0304', "ĀāĒēĪīŌōŪū", "AaEeIiOoUu"),
  ('\u0306', "ĂăĔĕĞğĬĭŎŏŬŭЎЙйў", "AaEeGgIiOoUuУИиу"),
  ('\u0307', "ĊċĖėĠġİŻż", "CcEeGgIZz"),
  ('\u0308', "ÄËÏÖÜäëïöüÿŸΪΫϊϋЁЇёї", "AEIOUaeiouyYΙΥιυЕІеі"),
  ('\u030a', "ÅåŮů", "AaUu"),
  ('\u030b', "ŐőŰű", "OoUu"),
  ('\u030c', "ČčĎďĚěĽľŇňŘřŠšŤťŽž", "CcDdEeLlNnRrSsTtZz"),
  ('\u0327', "ÇçĢģĶķĻļŅņŖŗŞşŢţ", "CcGgKkLlNnRrSsTt"),
  ('\u0328', "ĄąĘęĮįŲų", "AaEeIiUu")]

def takeMark (c : Char) : List Char :=
  (compositions.findSome? fun (mark, composed, bases) =>
    ((composed.toList.zip bases.toList).lookup c).map fun base => [base, mark]).getD [c]

/-- Takes a letter and its marks apart; a letter has two at most. -/
def decompose (c : Char) : List Char :=
  (takeMark c).flatMap takeMark

def isUpper (c : Char) : Bool :=
  Text.lowercase c != [c]

def lowerOne (c : Char) : Char :=
  match Text.lowercase c with
  | [l] => l
  | _ => c

/-- Forms that are another way to write the small letter come before capitals. -/
def compatibleForm : Nat := 2
def upperForm : Nat := 3
/-- The form of raised letters and of the final sigma, after capitals. -/
def raisedForm : Nat := 5

def caseOf (c : Char) : CaseWeight :=
  if isUpper c then ⟨2, upperForm⟩ else {}

def mark (weight : Nat) : Element :=
  ⟨none, weight, {}⟩

/-- The place of an unaccented Latin letter, with room for letters in between. -/
def latin (c : Char) : Primary :=
  (latinBlock, 10 * (c.toNat - 0x60))

def latinAfter (c : Char) : Primary :=
  (latinBlock, (latin c).2 + 5)

def cyrillic : List Char :=
  "абвгдђеєжзѕиійјклљмнњопрстћуфхцчџшщъыьэюя".toList

/-- Letters that are neither one of the twenty-six nor such a letter with a mark, in lower case. -/
def specialLatin? (c : Char) (case : CaseWeight) : Option (List Element) :=
  match c with
  | 'æ' => some [⟨some (latin 'a'), 0, case⟩, mark shapeWeight, ⟨some (latin 'e'), 0, case⟩]
  | 'œ' => some [⟨some (latin 'o'), 0, case⟩, mark shapeWeight, ⟨some (latin 'e'), 0, case⟩]
  | 'ß' => some [⟨some (latin 's'), 0, case⟩, mark shapeWeight, ⟨some (latin 's'), 0, case⟩]
  | 'ĳ' => some
      [⟨some (latin 'i'), 0, { case with form := case.form + 1 }⟩, ⟨some (latin 'j'), 0, case⟩]
  | 'ø' => some [⟨some (latin 'o'), 0, case⟩, mark (accentWeight '\u0338')]
  | 'đ' => some [⟨some (latin 'd'), 0, case⟩, mark (accentWeight '\u0335')]
  | 'ħ' => some [⟨some (latin 'h'), 0, case⟩, mark (accentWeight '\u0335')]
  | 'ł' => some [⟨some (latin 'l'), 0, case⟩, mark (accentWeight '\u0335')]
  | 'ð' => some [⟨some (latin 'd'), 0, case⟩, mark shapeWeight]
  | 'ſ' => some [⟨some (latin 's'), 0, case⟩, mark shapeWeight]
  | 'ı' => some [⟨some (latinAfter 'i'), 0, case⟩]
  | 'ĸ' => some [⟨some (latinAfter 'q'), 0, case⟩]
  | 'ŋ' => some [⟨some (latinAfter 'n'), 0, case⟩]
  | 'ŧ' => some [⟨some (latinAfter 't'), 0, case⟩]
  | 'þ' => some [⟨some (latinAfter 'z'), 0, case⟩]
  | 'ª' => some [⟨some (latin 'a'), 0, ⟨0, raisedForm⟩⟩]
  | 'º' => some [⟨some (latin 'o'), 0, ⟨0, raisedForm⟩⟩]
  | _ => none

def greekOrCyrillic? (c : Char) (case : CaseWeight) : Option (List Element) :=
  match c with
  | 'ς' => some [⟨some (greekBlock, 'σ'.toNat), 0, ⟨0, raisedForm⟩⟩]
  | 'µ' => some [⟨some (greekBlock, 'μ'.toNat), 0, ⟨0, compatibleForm⟩⟩]
  | 'ґ' => some [⟨some (cyrillicBlock, (cyrillic.idxOf 'г')), 0, case⟩, mark shapeWeight]
  | c =>
    if 'α' ≤ c && c ≤ 'ω' then some [⟨some (greekBlock, c.toNat), 0, case⟩]
    else (cyrillic.idxOf? c).map fun place => [⟨some (cyrillicBlock, place), 0, case⟩]

/-- A digit, or a form of one that is not the digit itself. -/
def digit (c : Char) (form : Nat) : Element :=
  ⟨some (digitBlock, c.toNat - '0'.toNat), 0, ⟨0, form⟩⟩

def symbol? (c : Char) : Option Element :=
  (symbols.findIdx? (·.toList.contains c)).map fun place =>
    ⟨some (symbolBlock, place), 0, ⟨0, ((symbols.getD place "").toList.idxOf c)⟩⟩

def writtenNumber? (c : Char) : Option (List Element) :=
  let fraction (n d : Char) : List Element :=
    digit n compatibleForm :: (symbol? '⁄').toList ++ [digit d compatibleForm]
  match c with
  | '¹' => some [digit '1' raisedForm]
  | '²' => some [digit '2' raisedForm]
  | '³' => some [digit '3' raisedForm]
  | '¼' => some (fraction '1' '4')
  | '½' => some (fraction '1' '2')
  | '¾' => some (fraction '3' '4')
  | _ => none

/-- The soft hyphen and the controls that are no white space. -/
def isIgnored (c : Char) : Bool :=
  c.toNat < 0x20 || (0x7F ≤ c.toNat && c.toNat < 0xA0) || c == '\u00ad'

/-- The elements of one character that stands in no sequence of its own; some have none. -/
def ofChar (c : Char) : List Element :=
  match symbol? c with
  | some element => [element]
  | none =>
    let l := lowerOne c
    if isIgnored c then []
    else if c.isDigit then [digit c 0]
    else if 'a' ≤ l && l ≤ 'z' then [⟨some (latin l), 0, caseOf c⟩]
    else if 0x300 ≤ c.toNat && c.toNat ≤ 0x36F then [mark (accentWeight c)]
    else
      (specialLatin? l (caseOf c) <|> greekOrCyrillic? l (caseOf c) <|> writtenNumber? c).getD
        [⟨some (otherBlock, c.toNat), 0, {}⟩]

end Element
end AccessLedger.Collation
