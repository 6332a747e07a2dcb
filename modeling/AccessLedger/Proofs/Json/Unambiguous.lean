import AccessLedger.Proofs.Json.Grammar
import AccessLedger.Proofs.Json.Literal

/-!
The grammar of JSON is unambiguous: a text denotes one document at most. What carries the induction
is that a value ends where it does whatever comes behind it, as long as that can come behind a
value.
-/

namespace AccessLedger.Json

/--
A text of some sort after which no longer or shorter one of that sort ends, and none that means
anything else.
-/
def Settles {α : Type} (Means : List Char → α → Prop) (Behind : List Char → Prop) (cs : List Char)
    (a : α) : Prop :=
  ∀ cs' a' rest rest', Means cs' a' → Behind rest → Behind rest' → cs ++ rest = cs' ++ rest' →
    cs = cs' ∧ a = a' ∧ rest = rest'

section Runs

/-- Two runs of characters of one kind that stop at others. -/
theorem append_inj_of_all {p : Char → Bool} {run run' rest rest' : List Char}
    (hrun : ∀ c ∈ run, p c = true) (hrun' : ∀ c ∈ run', p c = true)
    (hrest : ∀ c ∈ rest.head?, p c = false) (hrest' : ∀ c ∈ rest'.head?, p c = false)
    (heq : run ++ rest = run' ++ rest') : run = run' ∧ rest = rest' := by
  induction run generalizing run' with
  | nil =>
      cases run' with
      | nil => exact ⟨rfl, heq⟩
      | cons c run' =>
          have hout := hrest c (by rw [show rest = c :: (run' ++ rest') from heq]; rfl)
          rw [hrun' c (List.mem_cons_self ..)] at hout
          cases hout
  | cons c run ih =>
      cases run' with
      | nil =>
          have hout := hrest' c (by rw [show rest' = c :: (run ++ rest) from heq.symm]; rfl)
          rw [hrun c (List.mem_cons_self ..)] at hout
          cases hout
      | cons c' run' =>
          obtain ⟨rfl, htail⟩ := List.cons.inj heq
          rw [List.forall_mem_cons] at hrun hrun'
          obtain ⟨rfl, hsame⟩ := ih hrun.2 hrun'.2 htail
          exact ⟨rfl, hsame⟩

/-- Blanks end where something else begins. -/
theorem AreBlanks.append_inj {bs bs' : List Char} (hbs : AreBlanks bs) (hbs' : AreBlanks bs')
    {c c' : Char} (hc : Decoder.isBlank (some c) = false)
    (hc' : Decoder.isBlank (some c') = false) {rest rest' : List Char}
    (heq : bs ++ c :: rest = bs' ++ c' :: rest') : bs = bs' ∧ c = c' ∧ rest = rest' := by
  have hhead : ∀ d ∈ (c :: rest).head?, Decoder.isBlank (some d) = false :=
    fun _ hd => Option.some.inj hd ▸ hc
  have hhead' : ∀ d ∈ (c' :: rest').head?, Decoder.isBlank (some d) = false :=
    fun _ hd => Option.some.inj hd ▸ hc'
  obtain ⟨hsame, htail⟩ :=
    append_inj_of_all (p := fun d => Decoder.isBlank (some d)) hbs hbs' hhead hhead' heq
  exact ⟨hsame, List.cons.inj htail⟩

end Runs

section Characters

/-- The value of a hexadecimal digit. -/
def hexValueOf (c : Char) : Nat :=
  (List.range 16).findIdx fun n => c == Nat.digitChar n || c == (Nat.digitChar n).toUpper

theorem IsHexDigit.hexValueOf_eq {c : Char} {n : Nat} (h : IsHexDigit c n) : hexValueOf c = n := by
  have hlower : ∀ m < 16, hexValueOf (Nat.digitChar m) = m := by decide
  have hupper : ∀ m < 16, hexValueOf (Nat.digitChar m).toUpper = m := by decide
  cases h with
  | lower h => exact hlower n h
  | upper h => exact hupper n h

theorem IsHexDigit.eq {c : Char} {n m : Nat} (h : IsHexDigit c n) (h' : IsHexDigit c m) : n = m :=
  h.hexValueOf_eq.symm.trans h'.hexValueOf_eq

theorem IsCode.length_eq {cs : List Char} {n : Nat} (h : IsCode cs n) : cs.length = 4 := by
  cases h
  rfl

theorem IsCode.eq {cs : List Char} {n m : Nat} (h : IsCode cs n) (h' : IsCode cs m) : n = m := by
  cases h with
  | digits ha hb hc hd =>
      cases h' with
      | digits ha' hb' hc' hd' => rw [ha.eq ha', hb.eq hb', hc.eq hc', hd.eq hd']

theorem IsCode.settles {cs : List Char} {n : Nat} (h : IsCode cs n) :
    Settles IsCode (fun _ => True) cs n := by
  intro cs' n' rest rest' h' _ _ heq
  obtain ⟨rfl, hrest⟩ := List.append_inj heq (h.length_eq.trans h'.length_eq.symm)
  exact ⟨rfl, h.eq h', hrest⟩

theorem eq_of_mem_shortEscapes {e c c' : Char} (h : (e, c) ∈ shortEscapes)
    (h' : (e, c') ∈ shortEscapes) : c = c' := by
  have hall : ∀ x ∈ shortEscapes, ∀ y ∈ shortEscapes, x.1 = y.1 → x.2 = y.2 := by decide
  exact hall _ h _ h' rfl

theorem u_not_mem_shortEscapes (c : Char) : ('u', c) ∉ shortEscapes := by
  simp [shortEscapes]

/-- The code of a half is no character's own. -/
theorem toNat_ne_half (c : Char) {n : Nat} (hn : n < 0x400) : c.toNat ≠ 0xD800 + n := by
  have hvalid : c.toNat < 0xD800 ∨ 0xDFFF < c.toNat ∧ c.toNat < 0x110000 := c.valid
  omega

/--
What follows the letter that announces a code: the code of a character in one piece or in two
halves.
-/
inductive IsCoded : List Char → Char → Prop
  | whole {cs : List Char} {c : Char} (h : IsCode cs c.toNat) : IsCoded cs c
  | halves {cs ds : List Char} {c : Char} {n m : Nat} (hn : n < 0x400)
      (hhigh : IsCode cs (0xD800 + n)) (hlow : IsCode ds (0xDC00 + m))
      (hvalue : c.toNat = 0x10000 + n * 0x400 + m) :
      IsCoded (cs ++ '\\' :: 'u' :: ds) c

theorem IsCoded.settles {cs : List Char} {c : Char} (h : IsCoded cs c) :
    Settles IsCoded (fun _ => True) cs c := by
  intro cs' c' rest rest' h' _ _ heq
  cases h with
  | whole hcode =>
      cases h' with
      | whole hcode' =>
          obtain ⟨rfl, hvalue, hrest⟩ := hcode.settles _ _ _ _ hcode' trivial trivial heq
          exact ⟨rfl, Char.toNat_inj.mp hvalue, hrest⟩
      | halves hn hhigh _ _ =>
          rw [List.append_assoc] at heq
          obtain ⟨_, hvalue, _⟩ := hcode.settles _ _ _ _ hhigh trivial trivial heq
          exact absurd hvalue (toNat_ne_half _ hn)
  | halves hn hhigh hlow hvalue =>
      rw [List.append_assoc] at heq
      cases h' with
      | whole hcode' =>
          obtain ⟨_, hvalue', _⟩ := hhigh.settles _ _ _ _ hcode' trivial trivial heq
          exact absurd hvalue'.symm (toNat_ne_half _ hn)
      | halves hn' hhigh' hlow' hvalue' =>
          rw [List.append_assoc] at heq
          obtain ⟨rfl, hhighs, htail⟩ := hhigh.settles _ _ _ _ hhigh' trivial trivial heq
          simp only [List.cons_append, List.cons.injEq, true_and] at htail
          obtain ⟨rfl, hlows, hrest⟩ := hlow.settles _ _ _ _ hlow' trivial trivial htail
          have hsame : c.toNat = c'.toNat := by omega
          exact ⟨rfl, Char.toNat_inj.mp hsame, hrest⟩

/-- The first two characters tell how a character is written. -/
theorem StandsFor.cases_front {cs : List Char} {c : Char} (h : StandsFor cs c) :
    (cs = [c] ∧ c ≠ '\\') ∨ (∃ e, cs = ['\\', e] ∧ e ≠ 'u' ∧ (e, c) ∈ shortEscapes) ∨
      ∃ coded, cs = '\\' :: 'u' :: coded ∧ IsCoded coded c := by
  cases h with
  | plain _ hslash _ => exact .inl ⟨rfl, hslash⟩
  | short hshort =>
      refine .inr (.inl ⟨_, rfl, ?_, hshort⟩)
      rintro rfl
      exact u_not_mem_shortEscapes c hshort
  | code hcode => exact .inr (.inr ⟨_, rfl, .whole hcode⟩)
  | halves hn _ hhigh hlow hvalue => exact .inr (.inr ⟨_, rfl, .halves hn hhigh hlow hvalue⟩)

theorem StandsFor.settles {cs : List Char} {c : Char} (h : StandsFor cs c) :
    Settles StandsFor (fun _ => True) cs c := by
  intro cs' c' rest rest' h' _ _ heq
  obtain ⟨rfl, hslash⟩ | ⟨e, rfl, hu, hshort⟩ | ⟨coded, rfl, hcoded⟩ := h.cases_front
  · obtain ⟨rfl, _⟩ | ⟨_, rfl, _⟩ | ⟨_, rfl, _⟩ := h'.cases_front
    · obtain ⟨rfl, hrest⟩ := List.cons.inj heq
      exact ⟨rfl, rfl, hrest⟩
    all_goals exact absurd (List.cons.inj heq).1 hslash
  · obtain ⟨rfl, hslash'⟩ | ⟨e', rfl, _, hshort'⟩ | ⟨_, rfl, _⟩ := h'.cases_front
    · exact absurd (List.cons.inj heq).1.symm hslash'
    · obtain ⟨rfl, hrest⟩ := List.cons.inj (List.cons.inj heq).2
      exact ⟨rfl, eq_of_mem_shortEscapes hshort hshort', hrest⟩
    · exact absurd (List.cons.inj (List.cons.inj heq).2).1 hu
  · obtain ⟨rfl, hslash'⟩ | ⟨_, rfl, hu', _⟩ | ⟨coded', rfl, hcoded'⟩ := h'.cases_front
    · exact absurd (List.cons.inj heq).1.symm hslash'
    · exact absurd (List.cons.inj (List.cons.inj heq).2).1.symm hu'
    · obtain ⟨rfl, rfl, hrest⟩ := hcoded.settles _ _ _ _ hcoded' trivial trivial
        (List.cons.inj (List.cons.inj heq).2).2
      exact ⟨rfl, rfl, hrest⟩

/-- A character between quotes is not written with a quote in front. -/
theorem StandsFor.head_ne_quote {cs : List Char} {c : Char} (h : StandsFor cs c) :
    ∃ d ds, cs = d :: ds ∧ d ≠ '"' := by
  cases h with
  | plain hquote _ _ => exact ⟨_, _, rfl, hquote⟩
  | _ => exact ⟨_, _, rfl, by decide⟩

/-- The quotes of a string are its first and the next one that is not escaped. -/
theorem IsContent.settles {cs content : List Char} (h : IsContent cs content) :
    Settles IsContent (fun rest => rest.head? = some '"') cs content := by
  intro cs' content' rest rest' h' hrest hrest' heq
  induction h generalizing cs' content' with
  | nil =>
      cases h' with
      | nil => exact ⟨rfl, rfl, heq⟩
      | cons hstands _ =>
          obtain ⟨d, ds, rfl, hquote⟩ := hstands.head_ne_quote
          rw [List.nil_append] at heq
          rw [heq] at hrest
          exact absurd (Option.some.inj hrest) hquote
  | cons hstands _ ih =>
      cases h' with
      | nil =>
          obtain ⟨d, ds, rfl, hquote⟩ := hstands.head_ne_quote
          rw [List.nil_append] at heq
          rw [← heq] at hrest'
          exact absurd (Option.some.inj hrest') hquote
      | cons hstands' hmore' =>
          rw [List.append_assoc, List.append_assoc] at heq
          obtain ⟨rfl, rfl, htail⟩ := hstands.settles _ _ _ _ hstands' trivial trivial heq
          obtain ⟨rfl, rfl, hsame⟩ := ih _ _ hmore' htail
          exact ⟨rfl, rfl, hsame⟩

theorem IsQuoted.settles {cs : List Char} {s : String} (h : IsQuoted cs s) :
    Settles IsQuoted (fun _ => True) cs s := by
  intro cs' s' rest rest' h' _ _ heq
  obtain ⟨content, rfl, hcontent⟩ := h
  obtain ⟨content', rfl, hcontent'⟩ := h'
  simp only [List.cons_append, List.append_assoc, List.cons.injEq, true_and] at heq
  obtain ⟨rfl, hchars, hend⟩ := hcontent.settles _ _ _ _ hcontent' rfl rfl heq
  exact ⟨rfl, String.toList_inj.mp hchars, (List.cons.inj hend).2⟩

end Characters

/-- What a value ends before. -/
def Ends (rest : List Char) : Prop :=
  Follows (rest.map some)

section Numbers

theorem isDigit_of_ends {rest : List Char} (h : Ends rest) :
    ∀ c ∈ rest.head?, c.isDigit = false := by
  intro c hc
  have hhead : some c ∈ (rest.map some).head? := by
    rw [List.head?_map]
    exact Option.mem_map_of_mem some hc
  exact (isDigit_of_follows h hhead).1

theorem IsNatural.settles {ds : List Char} {n : Nat} (h : IsNatural ds n) :
    Settles IsNatural Ends ds n := by
  intro ds' n' rest rest' h' hrest hrest' heq
  obtain ⟨rfl, hsame⟩ :=
    append_inj_of_all h.digits h'.digits (isDigit_of_ends hrest) (isDigit_of_ends hrest') heq
  exact ⟨rfl, h.value.symm.trans h'.value, hsame⟩

theorem IsNatural.exists_cons {ds : List Char} {n : Nat} (h : IsNatural ds n) :
    ∃ d ds', ds = d :: ds' ∧ d.isDigit = true := by
  obtain ⟨d, ds', rfl⟩ := List.exists_cons_of_ne_nil h.ne_nil
  exact ⟨d, ds', rfl, h.digits d (List.mem_cons_self ..)⟩

theorem IsInteger.settles {cs : List Char} {n : Int} (h : IsInteger cs n) :
    Settles IsInteger Ends cs n := by
  intro cs' n' rest rest' h' hrest hrest' heq
  cases h with
  | natural h =>
      cases h' with
      | natural h' =>
          obtain ⟨rfl, hvalue, hsame⟩ := h.settles _ _ _ _ h' hrest hrest' heq
          exact ⟨rfl, congrArg Int.ofNat hvalue, hsame⟩
      | negative h' =>
          obtain ⟨d, ds, rfl, hd⟩ := h.exists_cons
          exact absurd (List.cons.inj heq).1 (ne_of_isDigit hd (by decide))
  | negative h =>
      cases h' with
      | natural h' =>
          obtain ⟨d, ds, rfl, hd⟩ := h'.exists_cons
          exact absurd (List.cons.inj heq).1.symm (ne_of_isDigit hd (by decide))
      | negative h' =>
          obtain ⟨rfl, hvalue, hsame⟩ := h.settles _ _ _ _ h' hrest hrest' (List.cons.inj heq).2
          rw [hvalue]
          exact ⟨rfl, rfl, hsame⟩

end Numbers

section Values

/-- What the first character of a value tells about it. -/
inductive Kind where
  | null
  | yes
  | no
  | integer
  | text
  | list
  | object

def Document.kind : Document → Kind
  | null => .null
  | bool true => .yes
  | bool false => .no
  | integer _ => .integer
  | text _ => .text
  | list _ => .list
  | object _ => .object

def kindFrom : Char → Kind
  | 'n' => .null
  | 't' => .yes
  | 'f' => .no
  | '"' => .text
  | '[' => .list
  | '{' => .object
  | _ => .integer

/-- A character that a value can begin with. -/
structure Opens (c : Char) (kind : Kind) : Prop where
  kind : kindFrom c = kind
  solid : Decoder.isBlank (some c) = false
  ne_close : c ≠ ']'

theorem opens_of_isDigit {c : Char} (hc : c.isDigit = true) : Opens c .integer where
  kind := by
    rw [kindFrom]
    all_goals exact ne_of_isDigit hc (by decide)
  solid := isBlank_of_isDigit hc
  ne_close := ne_of_isDigit hc (by decide)

theorem IsQuoted.exists_cons {cs : List Char} {s : String} (h : IsQuoted cs s) :
    ∃ rest, cs = '"' :: rest := by
  obtain ⟨content, rfl, _⟩ := h
  exact ⟨_, rfl⟩

theorem Denotes.opens {cs : List Char} {d : Document} (h : Denotes cs d) :
    ∃ c rest, cs = c :: rest ∧ Opens c d.kind := by
  cases h with
  | integer h =>
      cases h with
      | natural h =>
          obtain ⟨c, rest, rfl, hc⟩ := h.exists_cons
          exact ⟨c, rest, rfl, opens_of_isDigit hc⟩
      | negative _ => exact ⟨_, _, rfl, rfl, rfl, by decide⟩
  | text h =>
      obtain ⟨rest, rfl⟩ := h.exists_cons
      exact ⟨_, _, rfl, rfl, rfl, by decide⟩
  | _ => exact ⟨_, _, rfl, rfl, rfl, by decide⟩

theorem kind_eq {cs cs' rest rest' : List Char} {d d' : Document} (h : Denotes cs d)
    (h' : Denotes cs' d') (heq : cs ++ rest = cs' ++ rest') : d.kind = d'.kind := by
  obtain ⟨c, _, rfl, hopens⟩ := h.opens
  obtain ⟨c', _, rfl, hopens'⟩ := h'.opens
  have hsame : c = c' := (List.cons.inj heq).1
  rw [← hopens.kind, hsame, hopens'.kind]

/-- What separates or closes values. -/
def IsMark (c : Char) : Prop :=
  c = ',' ∨ c = ']' ∨ c = '}'

theorem IsMark.solid {c : Char} (h : IsMark c) : Decoder.isBlank (some c) = false := by
  obtain rfl | rfl | rfl := h
  all_goals rfl

theorem AreBlanks.ends {bs : List Char} (hbs : AreBlanks bs) {c : Char} (hc : IsMark c)
    (rest : List Char) :
    Ends (bs ++ c :: rest) := by
  have hmark :
      some c = some ',' ∨ some c = some ']' ∨ some c = some '}' := by simpa [IsMark] using hc
  rw [Ends, List.map_append]
  exact hbs.follows (follows_cons (rest.map some) hmark)

/-- Blanks in front leave a text settled. -/
theorem Settles.behind_blanks {α : Type} {Means : List Char → α → Prop}
    {Behind : List Char → Prop}
    (hfirst : ∀ cs a, Means cs a → ∃ c rest, cs = c :: rest ∧ Decoder.isBlank (some c) = false)
    {bs bs' cs cs' rest rest' : List Char} {a a' : α} (h : Settles Means Behind cs a)
    (hbs : AreBlanks bs) (hmeans : Means cs a) (hbs' : AreBlanks bs') (hmeans' : Means cs' a')
    (hrest : Behind rest) (hrest' : Behind rest')
    (heq : bs ++ (cs ++ rest) = bs' ++ (cs' ++ rest')) :
    bs = bs' ∧ cs = cs' ∧ a = a' ∧ rest = rest' := by
  obtain ⟨c, _, hcs, hc⟩ := hfirst cs a hmeans
  obtain ⟨c', _, hcs', hc'⟩ := hfirst cs' a' hmeans'
  have hfront := heq
  rw [hcs, hcs', List.cons_append, List.cons_append] at hfront
  obtain ⟨rfl, _⟩ := hbs.append_inj hbs' hc hc' hfront
  exact ⟨rfl, h cs' a' rest rest' hmeans' hrest hrest' (List.append_cancel_left heq)⟩

theorem Denotes.exists_solid (cs : List Char) (d : Document) (h : Denotes cs d) :
    ∃ c rest, cs = c :: rest ∧ Decoder.isBlank (some c) = false := by
  obtain ⟨c, rest, hcs, hopens⟩ := h.opens
  exact ⟨c, rest, hcs, hopens.solid⟩

theorem IsQuoted.exists_solid (cs : List Char) (s : String) (h : IsQuoted cs s) :
    ∃ c rest, cs = c :: rest ∧ Decoder.isBlank (some c) = false := by
  obtain ⟨rest, hcs⟩ := h.exists_cons
  exact ⟨_, rest, hcs, rfl⟩

section Marks

variable {before cs after before' cs' after' rest rest' : List Char} {d d' : Document} {c c' : Char}
  (hsettles : Settles Denotes Ends cs d) (hbefore : AreBlanks before) (h : Denotes cs d)
  (hafter : AreBlanks after) (hbefore' : AreBlanks before') (h' : Denotes cs' d')
  (hafter' : AreBlanks after') (hc : IsMark c) (hc' : IsMark c')

include hsettles hbefore h hafter hbefore' h' hafter' hc hc'

/-- A value ends, with the blanks behind it, at the mark that comes next. -/
theorem settles_item
    (heq : before ++ cs ++ after ++ c :: rest = before' ++ cs' ++ after' ++ c' :: rest') :
    before ++ cs ++ after = before' ++ cs' ++ after' ∧ d = d' ∧ c = c' ∧ rest = rest' := by
  simp only [List.append_assoc] at heq
  obtain ⟨rfl, rfl, rfl, hend⟩ := hsettles.behind_blanks Denotes.exists_solid hbefore h hbefore' h'
    (hafter.ends hc rest) (hafter'.ends hc' rest') heq
  obtain ⟨rfl, hmark, hrest⟩ := hafter.append_inj hafter' hc.solid hc'.solid hend
  exact ⟨rfl, rfl, hmark, hrest⟩

/-- So does a value with its name in front. -/
theorem settles_field {front key space front' key' space' : List Char} {name name' : String}
    (hfront : AreBlanks front) (hkey : IsQuoted key name) (hspace : AreBlanks space)
    (hfront' : AreBlanks front') (hkey' : IsQuoted key' name') (hspace' : AreBlanks space')
    (heq : front ++ key ++ space ++ ':' :: (before ++ cs ++ after) ++ c :: rest = front' ++ key' ++
      space' ++ ':' :: (before' ++ cs' ++ after') ++ c' :: rest') :
    front ++ key ++ space ++ ':' :: (before ++ cs ++ after) =
        front' ++ key' ++ space' ++ ':' :: (before' ++ cs' ++ after') ∧
      (name, d) = (name', d') ∧ c = c' ∧ rest = rest' := by
  simp only [List.append_assoc, List.cons_append] at heq
  obtain ⟨rfl, rfl, rfl, hcolon⟩ :=
    hkey.settles.behind_blanks IsQuoted.exists_solid hfront hkey hfront' hkey'
    trivial trivial heq
  obtain ⟨rfl, _, hvalue⟩ := hspace.append_inj hspace' rfl rfl hcolon
  simp only [← List.append_assoc] at hvalue
  obtain ⟨hsame, rfl, hmark, hrest⟩ :=
    settles_item hsettles hbefore h hafter hbefore' h' hafter' hc hc' hvalue
  rw [hsame]
  exact ⟨rfl, rfl, hmark, hrest⟩

end Marks

/-- Where a list has items, it does not close behind the blanks. -/
theorem DenoteItems.not_blanks {cs bs rest rest' : List Char} {ds : List Document}
    (h : DenoteItems cs ds) (hbs : AreBlanks bs) : bs ++ ']' :: rest ≠ cs ++ rest' := by
  intro heq
  cases h with
  | last hbefore h _ | more hbefore h _ _ =>
      obtain ⟨c, _, rfl, hopens⟩ := h.opens
      simp only [List.append_assoc, List.cons_append] at heq
      obtain ⟨_, hclose, _⟩ := hbs.append_inj hbefore rfl hopens.solid heq
      exact hopens.ne_close hclose.symm

theorem DenoteFields.not_blanks {cs bs rest rest' : List Char} {fs : List (String × Document)}
    (h : DenoteFields cs fs) (hbs : AreBlanks bs) : bs ++ '}' :: rest ≠ cs ++ rest' := by
  intro heq
  cases h with
  | last hbefore hkey _ _ _ _ | more hbefore hkey _ _ _ _ _ =>
      obtain ⟨_, rfl⟩ := hkey.exists_cons
      simp only [List.append_assoc, List.cons_append] at heq
      obtain ⟨_, hclose, _⟩ := hbs.append_inj hbefore rfl rfl heq
      exact absurd hclose (by decide)

-- The induction is on the first of the two derivations. What a value begins with fixes the sort of
-- the second one; in a list and an object the mark behind an item fixes whether it is the last.
mutual

theorem Denotes.settles {cs : List Char} {d : Document} : Denotes cs d → Settles Denotes Ends cs d
  | .null => by
      intro cs' d' rest rest' h' _ _ heq
      have hkind := kind_eq .null h' heq
      cases h' with
      | null => exact ⟨rfl, rfl, List.append_cancel_left heq⟩
      | _ => cases hkind
  | .yes => by
      intro cs' d' rest rest' h' _ _ heq
      have hkind := kind_eq .yes h' heq
      cases h' with
      | yes => exact ⟨rfl, rfl, List.append_cancel_left heq⟩
      | _ => cases hkind
  | .no => by
      intro cs' d' rest rest' h' _ _ heq
      have hkind := kind_eq .no h' heq
      cases h' with
      | no => exact ⟨rfl, rfl, List.append_cancel_left heq⟩
      | _ => cases hkind
  | .integer h => by
      intro cs' d' rest rest' h' hrest hrest' heq
      have hkind := kind_eq (.integer h) h' heq
      cases h' with
      | integer h' =>
          obtain ⟨rfl, rfl, hsame⟩ := h.settles _ _ _ _ h' hrest hrest' heq
          exact ⟨rfl, rfl, hsame⟩
      | _ => cases hkind
  | .text h => by
      intro cs' d' rest rest' h' _ _ heq
      have hkind := kind_eq (.text h) h' heq
      cases h' with
      | text h' =>
          obtain ⟨rfl, rfl, hsame⟩ := h.settles _ _ _ _ h' trivial trivial heq
          exact ⟨rfl, rfl, hsame⟩
      | _ => cases hkind
  | .emptyList hbs => by
      intro cs' d' rest rest' h' _ _ heq
      have hkind := kind_eq (.emptyList hbs) h' heq
      cases h' with
      | emptyList hbs' =>
          simp only [List.cons_append, List.append_assoc, List.cons.injEq, true_and] at heq
          obtain ⟨rfl, _, hsame⟩ := hbs.append_inj hbs' rfl rfl heq
          exact ⟨rfl, rfl, hsame⟩
      | list h' =>
          simp only [List.cons_append, List.append_assoc, List.cons.injEq, true_and] at heq
          exact absurd heq (h'.not_blanks hbs)
      | _ => cases hkind
  | .list h => by
      intro cs' d' rest rest' h' _ _ heq
      have hkind := kind_eq (.list h) h' heq
      cases h' with
      | emptyList hbs' =>
          simp only [List.cons_append, List.append_assoc, List.cons.injEq, true_and] at heq
          exact absurd heq.symm (h.not_blanks hbs')
      | list h' =>
          simp only [List.cons_append, List.append_assoc, List.cons.injEq, true_and] at heq
          obtain ⟨rfl, rfl, hsame⟩ := h.settles _ _ _ _ h' rfl rfl heq
          exact ⟨rfl, rfl, (List.cons.inj hsame).2⟩
      | _ => cases hkind
  | .emptyObject hbs => by
      intro cs' d' rest rest' h' _ _ heq
      have hkind := kind_eq (.emptyObject hbs) h' heq
      cases h' with
      | emptyObject hbs' =>
          simp only [List.cons_append, List.append_assoc, List.cons.injEq, true_and] at heq
          obtain ⟨rfl, _, hsame⟩ := hbs.append_inj hbs' rfl rfl heq
          exact ⟨rfl, rfl, hsame⟩
      | object h' =>
          simp only [List.cons_append, List.append_assoc, List.cons.injEq, true_and] at heq
          exact absurd heq (h'.not_blanks hbs)
      | _ => cases hkind
  | .object h => by
      intro cs' d' rest rest' h' _ _ heq
      have hkind := kind_eq (.object h) h' heq
      cases h' with
      | emptyObject hbs' =>
          simp only [List.cons_append, List.append_assoc, List.cons.injEq, true_and] at heq
          exact absurd heq.symm (h.not_blanks hbs')
      | object h' =>
          simp only [List.cons_append, List.append_assoc, List.cons.injEq, true_and] at heq
          obtain ⟨rfl, rfl, hsame⟩ := h.settles _ _ _ _ h' rfl rfl heq
          exact ⟨rfl, rfl, (List.cons.inj hsame).2⟩
      | _ => cases hkind

theorem DenoteItems.settles {cs : List Char} {ds : List Document} :
    DenoteItems cs ds → Settles DenoteItems (fun rest => rest.head? = some ']') cs ds
  | .last hbefore h hafter => by
      intro cs' ds' rest rest' h' hrest hrest' heq
      obtain ⟨tail, rfl⟩ := List.head?_eq_some_iff.mp hrest
      obtain ⟨tail', rfl⟩ := List.head?_eq_some_iff.mp hrest'
      cases h' with
      | last hbefore' h' hafter' =>
          obtain ⟨hsame, rfl, _, rfl⟩ := settles_item h.settles hbefore h hafter hbefore' h' hafter'
            (.inr (.inl rfl)) (.inr (.inl rfl)) heq
          exact ⟨hsame, rfl, rfl⟩
      | more hbefore' h' hafter' _ =>
          rw [List.append_assoc _ (',' :: _), List.cons_append] at heq
          obtain ⟨_, _, hmark, _⟩ := settles_item h.settles hbefore h hafter hbefore' h' hafter'
            (.inr (.inl rfl)) (.inl rfl) heq
          exact absurd hmark (by decide)
  | .more hbefore h hafter hmore => by
      intro cs' ds' rest rest' h' hrest hrest' heq
      cases h' with
      | last hbefore' h' hafter' =>
          obtain ⟨tail', rfl⟩ := List.head?_eq_some_iff.mp hrest'
          rw [List.append_assoc _ (',' :: _), List.cons_append] at heq
          obtain ⟨_, _, hmark, _⟩ := settles_item h.settles hbefore h hafter hbefore' h' hafter'
            (.inl rfl) (.inr (.inl rfl)) heq
          exact absurd hmark (by decide)
      | more hbefore' h' hafter' hmore' =>
          rw [List.append_assoc _ (',' :: _), List.append_assoc _ (',' :: _), List.cons_append,
            List.cons_append] at heq
          obtain ⟨hsame, rfl, _, htail⟩ :=
            settles_item h.settles hbefore h hafter hbefore' h' hafter'
            (.inl rfl) (.inl rfl) heq
          obtain ⟨rfl, rfl, hend⟩ := hmore.settles _ _ _ _ hmore' hrest hrest' htail
          rw [hsame]
          exact ⟨rfl, rfl, hend⟩

theorem DenoteFields.settles {cs : List Char} {fs : List (String × Document)} :
    DenoteFields cs fs → Settles DenoteFields (fun rest => rest.head? = some '}') cs fs
  | .last hbefore hkey hspace hspace' h hafter => by
      intro cs' fs' rest rest' h' hrest hrest' heq
      obtain ⟨tail, rfl⟩ := List.head?_eq_some_iff.mp hrest
      obtain ⟨tail', rfl⟩ := List.head?_eq_some_iff.mp hrest'
      cases h' with
      | last hbefore' hkey' hspace₁ hspace₂ h' hafter' =>
          obtain ⟨hsame, hentry, _, rfl⟩ :=
            settles_field h.settles hspace' h hafter hspace₂ h' hafter'
            (.inr (.inr rfl)) (.inr (.inr rfl)) hbefore hkey hspace hbefore' hkey' hspace₁ heq
          exact ⟨hsame, congrArg ([·]) hentry, rfl⟩
      | more hbefore' hkey' hspace₁ hspace₂ h' hafter' _ =>
          rw [List.append_assoc _ (',' :: _), List.cons_append] at heq
          obtain ⟨_, _, hmark, _⟩ := settles_field h.settles hspace' h hafter hspace₂ h' hafter'
            (.inr (.inr rfl)) (.inl rfl) hbefore hkey hspace hbefore' hkey' hspace₁ heq
          exact absurd hmark (by decide)
  | .more hbefore hkey hspace hspace' h hafter hmore => by
      intro cs' fs' rest rest' h' hrest hrest' heq
      cases h' with
      | last hbefore' hkey' hspace₁ hspace₂ h' hafter' =>
          obtain ⟨tail', rfl⟩ := List.head?_eq_some_iff.mp hrest'
          rw [List.append_assoc _ (',' :: _), List.cons_append] at heq
          obtain ⟨_, _, hmark, _⟩ := settles_field h.settles hspace' h hafter hspace₂ h' hafter'
            (.inl rfl) (.inr (.inr rfl)) hbefore hkey hspace hbefore' hkey' hspace₁ heq
          exact absurd hmark (by decide)
      | more hbefore' hkey' hspace₁ hspace₂ h' hafter' hmore' =>
          rw [List.append_assoc _ (',' :: _), List.append_assoc _ (',' :: _), List.cons_append,
            List.cons_append] at heq
          obtain ⟨hsame, hentry, _, htail⟩ :=
            settles_field h.settles hspace' h hafter hspace₂ h' hafter'
            (.inl rfl) (.inl rfl) hbefore hkey hspace hbefore' hkey' hspace₁ heq
          obtain ⟨rfl, rfl, hend⟩ := hmore.settles _ _ _ _ hmore' hrest hrest' htail
          rw [hsame, hentry]
          exact ⟨rfl, rfl, hend⟩

end

end Values

/-- A text denotes one document at most. -/
theorem Denotes.eq {cs : List Char} {d d' : Document} (h : Denotes cs d) (h' : Denotes cs d') :
    d = d' :=
  (h.settles cs d' [] [] h' follows_nil follows_nil rfl).2.1

end AccessLedger.Json
