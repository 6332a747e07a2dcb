import AccessLedger.Proofs.Json.Layout
import AccessLedger.Proofs.Text.Basic

/-!
The grammar of JSON, as far as numbers are whole. It says of a text which document it denotes, with
any blanks between the parts and any of the ways to write a character, and every layout keeps to it.
-/

namespace AccessLedger.Json

section Characters

/-- Hexadecimal digits of either case. -/
inductive IsHexDigit : Char → Nat → Prop
  | lower {n : Nat} (h : n < 16) : IsHexDigit (Nat.digitChar n) n
  | upper {n : Nat} (h : n < 16) : IsHexDigit (Nat.digitChar n).toUpper n

/-- Four hexadecimal digits. -/
inductive IsCode : List Char → Nat → Prop
  | digits {a b c d : Char} {w x y z : Nat} (ha : IsHexDigit a w) (hb : IsHexDigit b x)
      (hc : IsHexDigit c y) (hd : IsHexDigit d z) :
      IsCode [a, b, c, d] (((w * 16 + x) * 16 + y) * 16 + z)

/-- The characters that have a letter of their own to write them with. -/
def shortEscapes : List (Char × Char) := [
  ('"', '"'), ('\\', '\\'), ('/', '/'), ('b', '\x08'), ('f', '\x0c'), ('n', '\n'), ('r', '\r'),
    ('t', '\t')]

/--
What may be written for a character between quotes; beyond sixteen bits, its code is written in two
halves.
-/
inductive StandsFor : List Char → Char → Prop
  | plain {c : Char} (hquote : c ≠ '"') (hslash : c ≠ '\\') (hprintable : 0x20 ≤ c.toNat) :
      StandsFor [c] c
  | short {e c : Char} (h : (e, c) ∈ shortEscapes) : StandsFor ['\\', e] c
  | code {cs : List Char} {c : Char} (h : IsCode cs c.toNat) : StandsFor ('\\' :: 'u' :: cs) c
  | halves {cs ds : List Char} {c : Char} {n m : Nat} (hn : n < 0x400) (hm : m < 0x400)
      (hhigh : IsCode cs (0xD800 + n)) (hlow : IsCode ds (0xDC00 + m))
      (hvalue : c.toNat = 0x10000 + n * 0x400 + m) :
      StandsFor ('\\' :: 'u' :: cs ++ '\\' :: 'u' :: ds) c

/-- The text between the quotes of a string. -/
inductive IsContent : List Char → List Char → Prop
  | nil : IsContent [] []
  | cons {cs rest content : List Char} {c : Char} (h : StandsFor cs c)
      (hrest : IsContent rest content) :
      IsContent (cs ++ rest) (c :: content)

def IsQuoted (cs : List Char) (s : String) : Prop :=
  ∃ content, cs = '"' :: content ++ ['"'] ∧ IsContent content s.toList

theorem standsFor_escapeChar (c : Char) : StandsFor (escapeChar c) c := by
  unfold escapeChar
  split
  case h_8 hquote hslash _ _ _ _ _ =>
    split
    · next hsmall =>
      have hzero : IsHexDigit '0' 0 := .lower (n := 0) (by decide)
      have hcode := IsCode.digits hzero hzero (.lower (n := c.toNat / 16) (by omega))
        (.lower (n := c.toNat % 16) (by omega))
      have hvalue : ((0 * 16 + 0) * 16 + c.toNat / 16) * 16 + c.toNat % 16 = c.toNat := by omega
      rw [hvalue] at hcode
      exact .code hcode
    · next hlarge => exact .plain hquote hslash (Nat.le_of_not_lt hlarge)
  all_goals exact .short (by decide)

theorem isQuoted_writeText (s : String) : IsQuoted (writeText s) s := by
  refine ⟨s.toList.flatMap escapeChar, rfl, ?_⟩
  induction s.toList with
  | nil => exact .nil
  | cons c cs ih => exact .cons (standsFor_escapeChar c) ih

end Characters

section Numbers

/-- Digits with a zero in front only for zero. -/
structure IsNatural (ds : List Char) (n : Nat) : Prop where
  ne_nil : ds ≠ []
  digits : ∀ c ∈ ds, c.isDigit = true
  leading : ds.head? = some '0' → ds = ['0']
  value : Nat.ofDigitChars 10 ds 0 = n

inductive IsInteger : List Char → Int → Prop
  | natural {ds : List Char} {n : Nat} (h : IsNatural ds n) : IsInteger ds n
  | negative {ds : List Char} {n : Nat} (h : IsNatural ds n) : IsInteger ('-' :: ds) (-n)

theorem isNatural_toDigits (n : Nat) : IsNatural (Nat.toDigits 10 n) n := by
  obtain ⟨d, ds, hdigits, hzero, hall, hvalue⟩ := exists_digits n
  rw [hdigits]
  refine ⟨List.cons_ne_nil d ds, hall, ?_, hvalue⟩
  intro hhead
  obtain rfl : d = '0' := Option.some.inj hhead
  rw [hzero rfl]

theorem isInteger_writeInteger (n : Int) : IsInteger (writeInteger n) n := by
  have hnatural := isNatural_toDigits n.natAbs
  rw [writeInteger]
  split
  · have hvalue : -(n.natAbs : Int) = n := by omega
    have hnegative := IsInteger.negative hnatural
    rwa [hvalue] at hnegative
  · have hvalue : (n.natAbs : Int) = n := by omega
    have hpositive := IsInteger.natural hnatural
    rwa [hvalue] at hpositive

end Numbers

mutual

/-- A text without blanks around it that denotes a document. -/
inductive Denotes : List Char → Document → Prop
  | null : Denotes ['n', 'u', 'l', 'l'] .null
  | yes : Denotes ['t', 'r', 'u', 'e'] (.bool true)
  | no : Denotes ['f', 'a', 'l', 's', 'e'] (.bool false)
  | integer {cs : List Char} {n : Int} (h : IsInteger cs n) : Denotes cs (.integer n)
  | text {cs : List Char} {s : String} (h : IsQuoted cs s) : Denotes cs (.text s)
  | emptyList {bs : List Char} (hbs : AreBlanks bs) : Denotes ('[' :: bs ++ [']']) (.list [])
  | list {cs : List Char} {ds : List Document} (h : DenoteItems cs ds) :
      Denotes ('[' :: cs ++ [']']) (.list ds)
  | emptyObject {bs : List Char} (hbs : AreBlanks bs) : Denotes ('{' :: bs ++ ['}']) (.object [])
  | object {cs : List Char} {fs : List (String × Document)} (h : DenoteFields cs fs) :
      Denotes ('{' :: cs ++ ['}']) (.object fs)

/-- Items with commas between them. -/
inductive DenoteItems : List Char → List Document → Prop
  | last {before cs after : List Char} {d : Document} (hbefore : AreBlanks before)
      (h : Denotes cs d) (hafter : AreBlanks after) : DenoteItems (before ++ cs ++ after) [d]
  | more {before cs after rest : List Char} {d : Document} {ds : List Document}
      (hbefore : AreBlanks before) (h : Denotes cs d) (hafter : AreBlanks after)
      (hrest : DenoteItems rest ds) :
      DenoteItems (before ++ cs ++ after ++ ',' :: rest) (d :: ds)

/-- Names and values with colons between them, and commas between one pair and the next. -/
inductive DenoteFields : List Char → List (String × Document) → Prop
  | last {before key space space' cs after : List Char} {name : String} {d : Document}
      (hbefore : AreBlanks before) (hkey : IsQuoted key name) (hspace : AreBlanks space)
      (hspace' : AreBlanks space') (h : Denotes cs d) (hafter : AreBlanks after) :
      DenoteFields (before ++ key ++ space ++ ':' :: (space' ++ cs ++ after)) [(name, d)]
  | more {before key space space' cs after rest : List Char} {name : String} {d : Document}
      {fs : List (String × Document)} (hbefore : AreBlanks before) (hkey : IsQuoted key name)
      (hspace : AreBlanks space) (hspace' : AreBlanks space') (h : Denotes cs d)
      (hafter : AreBlanks after) (hrest : DenoteFields rest fs) :
      DenoteFields (before ++ key ++ space ++ ':' :: (space' ++ cs ++ after) ++ ',' :: rest)
        ((name, d) :: fs)

end

namespace Layout

section Parts

variable (l : Layout) {level : Nat} {after : List Char} (hafter : AreBlanks after)

include hafter

theorem denoteItems_write {d : Document} {ds : List Document}
    (h : ∀ e ∈ d :: ds, Denotes (l.write level e) e) :
    DenoteItems (l.gap level ++ (l.write level d ++ (l.writeItems level ds ++ after)))
      (d :: ds) := by
  induction ds generalizing d with
  | nil =>
      have hitem := DenoteItems.last (l.areBlanks_gap level) (h d (List.mem_cons_self ..)) hafter
      simpa [writeItems] using hitem
  | cons e ds ih =>
      rw [List.forall_mem_cons] at h
      have hitem := DenoteItems.more (l.areBlanks_gap level) h.1 areBlanks_nil (ih h.2)
      simpa [writeItems] using hitem

theorem denoteFields_write {k : String} {d : Document} {fs : List (String × Document)}
    (h : ∀ f ∈ (k, d) :: fs, Denotes (l.write level f.2) f.2) :
    DenoteFields (l.gap level ++ (writeText k ++ ':' :: (l.space ++ (l.write level d ++
      (l.writeFields level fs ++ after))))) ((k, d) :: fs) := by
  induction fs generalizing k d with
  | nil =>
      have hfield := DenoteFields.last (l.areBlanks_gap level) (isQuoted_writeText k) areBlanks_nil
        l.areBlanks_space (h (k, d) (List.mem_cons_self ..)) hafter
      simpa [writeFields] using hfield
  | cons f fs ih =>
      rw [List.forall_mem_cons] at h
      have hfield := DenoteFields.more (l.areBlanks_gap level) (isQuoted_writeText k) areBlanks_nil
        l.areBlanks_space h.1 areBlanks_nil (ih h.2)
      simpa [writeFields] using hfield

end Parts

mutual

/-- Every layout of a document denotes it. -/
theorem denotes_write (l : Layout) (level : Nat) : ∀ d : Document, Denotes (l.write level d) d
  | .null => by rw [write]; exact .null
  | .bool true => by rw [write]; exact .yes
  | .bool false => by rw [write]; exact .no
  | .integer n => by rw [write]; exact .integer (isInteger_writeInteger n)
  | .text s => by rw [write]; exact .text (isQuoted_writeText s)
  | .list [] => by rw [write]; exact .emptyList areBlanks_nil
  | .list (d :: ds) => by
      have hitems : ∀ e ∈ d :: ds, Denotes (l.write (level + 1) e) e :=
        List.forall_mem_cons.mpr
          ⟨l.denotes_write (level + 1) d, l.denotes_writeItems (level + 1) ds⟩
      rw [write]
      exact .list (l.denoteItems_write (l.areBlanks_gap level) hitems)
  | .object [] => by rw [write]; exact .emptyObject areBlanks_nil
  | .object ((k, d) :: fs) => by
      have hfields : ∀ f ∈ (k, d) :: fs, Denotes (l.write (level + 1) f.2) f.2 :=
        List.forall_mem_cons.mpr
          ⟨l.denotes_write (level + 1) d, l.denotes_writeFields (level + 1) fs⟩
      rw [write]
      exact .object (l.denoteFields_write (l.areBlanks_gap level) hfields)

theorem denotes_writeItems (l : Layout) (level : Nat) :
    ∀ ds : List Document, ∀ d ∈ ds, Denotes (l.write level d) d
  | [] => fun _ h => nomatch h
  | d :: ds => List.forall_mem_cons.mpr ⟨l.denotes_write level d, l.denotes_writeItems level ds⟩

theorem denotes_writeFields (l : Layout) (level : Nat) :
    ∀ fs : List (String × Document), ∀ f ∈ fs, Denotes (l.write level f.2) f.2
  | [] => fun _ h => nomatch h
  | (_, d) :: fs =>
      List.forall_mem_cons.mpr ⟨l.denotes_write level d, l.denotes_writeFields level fs⟩

end

end Layout
end AccessLedger.Json
