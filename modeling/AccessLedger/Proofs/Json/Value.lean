import AccessLedger.Proofs.Json.Record

/-!
Reading a document whatever it is. Blanks are gone, strings are read, and of the rest all is kept:
what is read back from a written document is that document.
-/

namespace AccessLedger.Json

namespace Decoder

/--
Names and values up to the end of an object; each takes up input, whose length bounds their number.
-/
def entries {α : Type} (d : Decoder α) : Nat → Bool → Decoder (List (String × α))
  | 0, _ => failHere .endOfObject
  | bound + 1, first => do
    if ← nextKey first then
      modify (·.drop 1)
      let key ← stringBody
      colon
      let a ← d
      let rest ← entries d bound false
      pure ((key, a) :: rest)
    else pure []

def object {α : Type} (d : Decoder α) : Decoder (List (String × α)) := placed do
  skipBlanks
  match ← get with
  | some '{' :: rest =>
    set rest
    closedBy closeObject (entries d (rest.length + 1) true)
  | _ => unexpected "a map"

/-- A value by its first character, with `inner` for what is in lists and objects. -/
def valueFrom (inner : Decoder Document) : Option Char → Decoder Document
  | some 'n' => (fun _ => .null) <$> unit
  | some 't' | some 'f' => .bool <$> bool
  | some '"' => .text <$> string
  | some '[' => .list <$> list inner
  | some '{' => .object <$> object inner
  | _ => .integer <$> integer "an integer" some

theorem valueFrom_of_isDigit (inner : Decoder Document) {c : Char} (hc : c.isDigit = true) :
    valueFrom inner (some c) = .integer <$> integer "an integer" some := by
  rw [valueFrom]
  all_goals
    intro heq
    exact ne_of_isDigit hc (by decide) (Option.some.inj heq)

/-- Any document of integers, with lists and objects nested less deep than the bound. -/
def document : Nat → Decoder Document
  | 0 => failHere .endOfValue
  | depth + 1 => do
    skipBlanks
    match ← get with
    | [] => failHere .endOfValue
    | c :: _ => valueFrom (document depth) c

end Decoder

section Objects

variable {α : Type} {d : Decoder α}

/-- A name with a value that is read. -/
def ReadsEntry (d : Decoder α) (field : String × Document) (entry : String × α) : Prop :=
  entry.1 = field.1 ∧ Reads d field.2 entry.2

theorem entries_entry {l : Layout} {level bound : Nat} {field : String × Document}
    {entry : String × α} {rest : List (String × α)} {first : Bool} {input tail more : RawText}
    (hread : ReadsEntry d field entry)
    (hnext : Decoder.nextKey first input = .ok true ((l.writeField level field).map some ++ tail))
    (htail : Follows tail) (hmore : Decoder.entries d bound false tail = .ok rest more) :
    Decoder.entries d (bound + 1) first input = .ok (entry :: rest) more := by
  obtain ⟨hname, hvalue⟩ := hread
  have hkey :=
    stringBody_text field.1 (some ':' :: ((l.space ++ l.write level field.2).map some ++ tail))
  have hitem := hvalue l level l.space tail l.areBlanks_space htail
  rw [Decoder.entries, Decoder.bind_ok hnext, if_pos rfl, Decoder.modify_bind, writeField_eq_cons,
    List.drop_one, List.tail_cons, Decoder.bind_ok hkey, Decoder.bind_ok (colon_ok _),
    Decoder.bind_ok hitem,
    Decoder.bind_ok hmore, ← hname]
  rfl

/-- Entries that follow others are read up to the end of the object. -/
theorem entries_further {bs : List Char} (hbs : AreBlanks bs) (l : Layout) (level : Nat)
    (rest : RawText) {fields : List (String × Document)} {as : List (String × α)} {bound : Nat}
    (h : List.Forall₂ (ReadsEntry d) fields as) (hbound : fields.length < bound) :
    Decoder.entries d bound false
      ((l.writeFields level fields ++ bs).map some ++ some '}' :: rest) =
      .ok as (some '}' :: rest) := by
  induction h generalizing bound with
  | nil =>
      obtain ⟨bound, rfl⟩ : ∃ n, bound = n + 1 := ⟨bound - 1, by omega⟩
      rw [Layout.writeFields, List.nil_append, Decoder.entries,
        Decoder.bind_ok (nextKey_end hbs rest false)]
      rfl
  | @cons field entry fields as hread _ ih =>
      obtain ⟨bound, rfl⟩ : ∃ n, bound = n + 1 := ⟨bound - 1, by omega⟩
      have hcons : (l.writeFields level (field :: fields) ++ bs).map some ++ some '}' :: rest =
          some ',' :: ((l.gap level ++ l.writeField level field).map some ++
            ((l.writeFields level fields ++ bs).map some ++ some '}' :: rest)) := by
        simp [Layout.writeFields, Layout.writeField]
      rw [hcons]
      exact entries_entry hread (nextKey_further (l.areBlanks_gap level) l level field _)
        (follows_writeFields hbs l level fields rest) (ih (Nat.lt_of_succ_lt_succ hbound))

/-- An object is read entry by entry. -/
theorem reads_object {fields : List (String × Document)} {as : List (String × α)}
    (h : List.Forall₂ (ReadsEntry d) fields as) : Reads (Decoder.object d) (.object fields) as := by
  intro l level bs rest hbs hrest
  cases h with
  | nil =>
      have hcons : (bs ++ l.write level (.object [])).map some ++ rest =
          bs.map some ++ some '{' :: some '}' :: rest := by
        simp [Layout.write]
      rw [hcons]
      exact Decoder.placed_skipBlanks_ok hbs rfl (Decoder.closedBy_ok rfl rfl)
  | @cons field entry fields as hread hmore =>
      have hcons : (bs ++ l.write level (.object (field :: fields))).map some ++ rest =
          bs.map some ++
            some '{' :: ((l.gap (level + 1) ++ l.writeField (level + 1) field).map some ++
            ((l.writeFields (level + 1) fields ++ l.gap level).map some ++ some '}' :: rest)) := by
        simp [Layout.write, Layout.writeField]
      have hlength :
          fields.length < ((l.gap (level + 1) ++ l.writeField (level + 1) field).map some ++
          ((l.writeFields (level + 1) fields ++ l.gap level).map some ++
            some '}' :: rest)).length := by
        have hle := length_writeFields l (level + 1) fields
        simp only [List.length_append, List.length_map, List.length_cons]
        omega
      have hgap := l.areBlanks_gap level
      have hentries :=
        entries_entry hread (nextKey_first (l.areBlanks_gap (level + 1)) l (level + 1) field _)
        (follows_writeFields hgap l (level + 1) fields rest)
        (entries_further hgap l (level + 1) rest hmore hlength)
      rw [hcons]
      exact Decoder.placed_skipBlanks_ok hbs rfl (Decoder.closedBy_ok hentries rfl)

end Objects

/-- Documents with integers of 64 bits only, in which nothing is nested as deep as the bound. -/
inductive Document.Fits : Nat → Document → Prop
  | null {depth : Nat} : Fits (depth + 1) null
  | bool {depth : Nat} (b : Bool) : Fits (depth + 1) (bool b)
  | integer {depth : Nat} {n : Int} (hlow : -int64Limit ≤ n) (hhigh : n < nat64Count) :
      Fits (depth + 1) (integer n)
  | text {depth : Nat} (s : String) : Fits (depth + 1) (text s)
  | list {depth : Nat} {ds : List Document} (h : ∀ d ∈ ds, Fits depth d) :
      Fits (depth + 1) (list ds)
  | object {depth : Nat} {fs : List (String × Document)} (h : ∀ f ∈ fs, Fits depth f.2) :
      Fits (depth + 1) (object fs)

theorem reads_null : Reads Decoder.unit .null () := by
  intro l level bs rest hbs _
  have hcons : (bs ++ l.write level .null).map some ++ rest =
      bs.map some ++ some 'n' :: (['u', 'l', 'l'].map some ++ rest) := by
    simp [Layout.write]
  rw [hcons]
  exact Decoder.placed_skipBlanks_ok hbs rfl (Decoder.word_ok ['u', 'l', 'l'] rest)

/-- What is read by its first character is read as a document. -/
theorem reads_valueFrom {α : Type} {inner : Decoder α} {doc : Document} {a : α} {f : α → Document}
    {depth : Nat} (hread : Reads inner doc a)
    (hfirst : ∀ (l : Layout) (level : Nat), ∃ c cs,
      l.write level doc = c :: cs ∧ Decoder.isBlank (some c) = false ∧
        Decoder.valueFrom (Decoder.document depth) (some c) = f <$> inner) :
    Reads (Decoder.document (depth + 1)) doc (f a) := by
  intro l level bs rest hbs hrest
  obtain ⟨c, cs, hcs, hblank, hvalue⟩ := hfirst l level
  have hinner := (hread.map f) l level [] rest areBlanks_nil hrest
  rw [List.nil_append, hcs, List.map_cons, List.cons_append] at hinner
  rw [hcs, List.map_append, List.map_cons, List.append_assoc, List.cons_append, Decoder.document,
    Decoder.bind_ok (Decoder.skipBlanks_cons hbs hblank _), Decoder.get_bind]
  simp only [hvalue]
  exact hinner

theorem reads_document {depth : Nat} {d : Document} (h : d.Fits depth) :
    Reads (Decoder.document depth) d d := by
  induction h with
  | null => exact reads_valueFrom reads_null fun l level => ⟨'n', _, by rw [Layout.write], rfl, rfl⟩
  | bool b =>
      refine reads_valueFrom (reads_bool b) fun l level => ?_
      cases b with
      | true => exact ⟨'t', _, by rw [Layout.write]; rfl, rfl, rfl⟩
      | false => exact ⟨'f', _, by rw [Layout.write]; rfl, rfl, rfl⟩
  | @integer depth n hlow hhigh =>
      refine reads_valueFrom (reads_integer "an integer" rfl hlow hhigh) fun l level => ?_
      rw [Layout.write, writeInteger]
      split
      · exact ⟨'-', _, rfl, rfl, rfl⟩
      · obtain ⟨d, ds, hdigits, _, hall, _⟩ := exists_digits n.natAbs
        have hd := hall d (List.mem_cons_self ..)
        exact ⟨d, ds, hdigits, isBlank_of_isDigit hd, Decoder.valueFrom_of_isDigit _ hd⟩
  | text s => exact reads_valueFrom (reads_string _ s) fun l level =>
      ⟨'"', _, by rw [Layout.write]; rfl, rfl, rfl⟩
  | @list depth ds _ ih =>
      have hitems : List.Forall₂ (Reads (Decoder.document depth)) ds ds := List.forall₂_same.mpr ih
      refine reads_valueFrom (reads_list hitems) fun l level => ?_
      cases ds with
      | nil => exact ⟨'[', _, by rw [Layout.write], rfl, rfl⟩
      | cons d ds => exact ⟨'[', _, by rw [Layout.write]; rfl, rfl, rfl⟩
  | @object depth fs _ ih =>
      have hentries : List.Forall₂ (ReadsEntry (Decoder.document depth)) fs fs :=
        List.forall₂_same.mpr fun f hf => ⟨rfl, ih f hf⟩
      refine reads_valueFrom (reads_object hentries) fun l level => ?_
      cases fs with
      | nil => exact ⟨'{', _, by rw [Layout.write], rfl, rfl⟩
      | cons f fs => exact ⟨'{', _, by rw [Layout.write]; rfl, rfl, rfl⟩

end AccessLedger.Json
