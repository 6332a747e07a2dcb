import Mathlib.Data.List.Forall2
import AccessLedger.Json.Record
import AccessLedger.Proofs.Json.Literal
import AccessLedger.Proofs.Record

/-!
Decoders and the documents that they read. What a decoder makes of a document depends neither on the
blanks in it nor on what comes behind it. A record is read from the fields of an object in any
order, among strings under other names, and without those fields that hold what the record has from
the start.
-/

namespace AccessLedger.Json

/-- A decoder that makes one value of a document wherever it stands. -/
def Reads {α : Type} (d : Decoder α) (doc : Document) (a : α) : Prop :=
  ∀ (l : Layout) (level : Nat) (bs : List Char) (rest : RawText), AreBlanks bs → Follows rest →
    d ((bs ++ l.write level doc).map some ++ rest) = .ok a rest

theorem Reads.map {α β : Type} {d : Decoder α} {doc : Document} {a : α} (h : Reads d doc a)
    (f : α → β) :
    Reads (f <$> d) doc (f a) :=
  fun l level bs rest hbs hrest => Decoder.map_ok (h l level bs rest hbs hrest) f

theorem finish_blanks {bs : List Char} (hbs : AreBlanks bs) :
    Decoder.finish (bs.map some) = .ok () [] := by
  have hdrop : (bs.map some).dropWhile Decoder.isBlank = [] := by
    rw [← List.append_nil (bs.map some), List.dropWhile_append_of_pos (List.forall_mem_map.mpr hbs)]
    rfl
  rw [Decoder.finish, Decoder.skipBlanks, Decoder.modify_bind, Decoder.get_bind, hdrop]
  rfl

/-- A whole text that is a document in some layout, with blanks behind it. -/
theorem Reads.runWhole_blanks {α : Type} {d : Decoder α} {doc : Document} {a : α}
    (h : Reads d doc a) (l : Layout) (level : Nat) {bs : List Char} (hbs : AreBlanks bs) :
    d.runWhole ((l.write level doc ++ bs).map some) = .ok a := by
  have hfollows := hbs.follows follows_nil
  rw [List.append_nil] at hfollows
  have hread := h l level [] (bs.map some) areBlanks_nil hfollows
  rw [List.nil_append] at hread
  rw [Decoder.runWhole, List.map_append, Decoder.bind_ok hread, Decoder.bind_ok (finish_blanks hbs)]
  rfl

/-- A whole text that is a document in some layout. -/
theorem Reads.runWhole {α : Type} {d : Decoder α} {doc : Document} {a : α} (h : Reads d doc a)
    (l : Layout) (level : Nat) : d.runWhole ((l.write level doc).map some) = .ok a := by
  have hwhole := h.runWhole_blanks l level areBlanks_nil
  rwa [List.append_nil] at hwhole

section Values

theorem reads_string (expected : String) (s : String) :
    Reads (Decoder.string expected) (.text s) s := by
  intro l level bs rest hbs _
  have hcons : (bs ++ l.write level (.text s)).map some ++ rest =
      bs.map some ++ some '"' :: ((s.toList.flatMap escapeChar).map some ++ some '"' :: rest) := by
    simp [Layout.write, writeText]
  rw [hcons]
  exact Decoder.placed_skipBlanks_ok hbs rfl (stringBody_text s rest)

theorem reads_bool (b : Bool) : Reads Decoder.bool (.bool b) b := by
  intro l level bs rest hbs _
  cases b with
  | true =>
      have hcons : (bs ++ l.write level (.bool true)).map some ++ rest =
          bs.map some ++ some 't' :: (['r', 'u', 'e'].map some ++ rest) := by
        simp [Layout.write, writeBool]
      rw [hcons]
      apply Decoder.placed_skipBlanks_ok hbs rfl
      exact Decoder.bind_ok (Decoder.word_ok ['r', 'u', 'e'] rest) fun _ => pure true
  | false =>
      have hcons : (bs ++ l.write level (.bool false)).map some ++ rest =
          bs.map some ++ some 'f' :: (['a', 'l', 's', 'e'].map some ++ rest) := by
        simp [Layout.write, writeBool]
      rw [hcons]
      apply Decoder.placed_skipBlanks_ok hbs rfl
      exact Decoder.bind_ok (Decoder.word_ok ['a', 'l', 's', 'e'] rest) fun _ => pure false

/-- Integers of 64 bits, with a sign or without one, as far as they are accepted. -/
theorem reads_integer {α : Type} (expected : String) {accept : Int → Option α} {n : Int} {a : α}
    (haccept : accept n = some a) (hlow : -int64Limit ≤ n) (hhigh : n < nat64Count) :
    Reads (Decoder.integer expected accept) (.integer n) a := by
  intro l level bs rest hbs hrest
  rw [Decoder.integer]
  by_cases hn : n < 0
  · have hcons : (bs ++ l.write level (.integer n)).map some ++ rest =
        bs.map some ++ some '-' :: ((Nat.toDigits 10 n.natAbs).map some ++ rest) := by
      simp [Layout.write, writeInteger, hn]
    have hlimit : int64Limit < nat64Count := by decide
    have hread := unsignedNumber_toDigits true (n := n.natAbs) (by omega)
      (fun _ => by omega) hrest
    rw [hcons]
    apply Decoder.placed_skipBlanks_ok hbs rfl
    have hvalue : -(n.natAbs : Int) = n := by omega
    rw [if_pos rfl, hvalue] at hread
    simp only
    rw [Decoder.set_bind, Decoder.bind_ok hread]
    simp only [haccept]
    rfl
  · obtain ⟨d, ds, hdigits, _, hall, _⟩ := exists_digits n.natAbs
    have hd := hall d (List.mem_cons_self ..)
    have hread := unsignedNumber_toDigits false (n := n.natAbs) (by omega) (nomatch ·) hrest
    have hvalue : (n.natAbs : Int) = n := by omega
    rw [hdigits, List.map_cons, List.cons_append, if_neg Bool.false_ne_true] at hread
    have hcons : (bs ++ l.write level (.integer n)).map some ++ rest =
        bs.map some ++ some d :: (ds.map some ++ rest) := by
      simp [Layout.write, writeInteger, hn, hdigits]
    have hsign : d ≠ '-' := ne_of_isDigit hd (by decide)
    rw [hcons]
    apply Decoder.placed_skipBlanks_ok hbs (isBlank_of_isDigit hd)
    generalize hinput : some d :: (ds.map some ++ rest) = input at hread ⊢
    split
    · cases hinput
      exact absurd rfl hsign
    · cases hinput
      rw [if_pos hd, Decoder.bind_ok hread]
      simp only [hvalue, haccept]
      rfl
    · next hother =>
      exact absurd hinput.symm (hother d _)

/-- Integers of 64 bits with a sign. -/
theorem reads_int64 {n : Int} (hlow : -int64Limit ≤ n) (hhigh : n < int64Limit) :
    Reads Decoder.int64 (.integer n) n := by
  have hlimit : int64Limit < nat64Count := by decide
  exact reads_integer "i64" (if_pos hhigh) hlow (by omega)

/-- A value begins with a character that is not blank and closes or separates nothing. -/
theorem write_eq_cons (l : Layout) (level : Nat) (d : Document) :
    ∃ c cs, l.write level d = c :: cs ∧ Decoder.isBlank (some c) = false ∧ c ≠ ']' ∧ c ≠ ',' := by
  have hopen : ∀ c ∈ ['n', 't', 'f', '-', '"', '[', '{'],
      Decoder.isBlank (some c) = false ∧ c ≠ ']' ∧ c ≠ ',' := by simp [Decoder.isBlank]
  cases d with
  | null => exact ⟨'n', _, by rw [Layout.write], hopen 'n' (by simp)⟩
  | bool b =>
      cases b with
      | true => exact ⟨'t', _, by rw [Layout.write]; rfl, hopen 't' (by simp)⟩
      | false => exact ⟨'f', _, by rw [Layout.write]; rfl, hopen 'f' (by simp)⟩
  | integer n =>
      rw [Layout.write, writeInteger]
      split
      · exact ⟨'-', _, rfl, hopen '-' (by simp)⟩
      · obtain ⟨d, ds, hdigits, _, hall, _⟩ := exists_digits n.natAbs
        have hd := hall d (List.mem_cons_self ..)
        exact ⟨d, ds, hdigits, isBlank_of_isDigit hd, ne_of_isDigit hd (by decide),
          ne_of_isDigit hd (by decide)⟩
  | text s => exact ⟨'"', _, by rw [Layout.write]; rfl, hopen '"' (by simp)⟩
  | list ds =>
      cases ds with
      | nil => exact ⟨'[', _, by rw [Layout.write], hopen '[' (by simp)⟩
      | cons d ds => exact ⟨'[', _, by rw [Layout.write]; rfl, hopen '[' (by simp)⟩
  | object fs =>
      cases fs with
      | nil => exact ⟨'{', _, by rw [Layout.write], hopen '{' (by simp)⟩
      | cons f fs => exact ⟨'{', _, by rw [Layout.write]; rfl, hopen '{' (by simp)⟩

end Values

section Lists

variable {bs : List Char} (hbs : AreBlanks bs) (l : Layout) (level : Nat) (doc : Document)
  (rest : RawText)

include hbs

theorem nextElement_first : Decoder.nextElement true ((bs ++ l.write level doc).map some ++ rest) =
    .ok true ((l.write level doc).map some ++ rest) := by
  obtain ⟨c, cs, hcs, hblank, hclose, hcomma⟩ := write_eq_cons l level doc
  rw [hcs, List.map_append, List.append_assoc, List.map_cons, List.cons_append, Decoder.nextElement,
    Decoder.bind_ok (Decoder.skipBlanks_cons hbs hblank _), Decoder.get_bind]
  simp [hclose, hcomma, pure, EStateM.pure]

theorem nextElement_further :
    Decoder.nextElement false (some ',' :: ((bs ++ l.write level doc).map some ++ rest)) =
      .ok true ((l.write level doc).map some ++ rest) := by
  obtain ⟨c, cs, hcs, hblank, hclose, _⟩ := write_eq_cons l level doc
  rw [Decoder.nextElement, Decoder.bind_ok (Decoder.skipBlanks_none rfl _), Decoder.get_bind]
  simp only [Bool.false_eq_true, if_false]
  rw [Decoder.set_bind, hcs, List.map_append, List.append_assoc, List.map_cons, List.cons_append,
    Decoder.bind_ok (Decoder.skipBlanks_cons hbs hblank _), Decoder.get_bind]
  simp [hclose, pure, EStateM.pure]

theorem nextElement_end (first : Bool) :
    Decoder.nextElement first (bs.map some ++ some ']' :: rest) =
    .ok false (some ']' :: rest) := by
  rw [Decoder.nextElement, Decoder.bind_ok (Decoder.skipBlanks_cons hbs rfl _), Decoder.get_bind]
  rfl

theorem follows_writeItems (docs : List Document) :
    Follows ((l.writeItems level docs ++ bs).map some ++ some ']' :: rest) := by
  cases docs with
  | nil =>
      rw [Layout.writeItems, List.nil_append]
      exact hbs.follows (follows_cons rest (.inr (.inl rfl)))
  | cons doc docs =>
      rw [Layout.writeItems]
      exact follows_cons _ (.inl rfl)

omit hbs in
theorem elements_item {α : Type} {d : Decoder α} {doc : Document} {a : α} {as : List α}
    {bound : Nat} {first : Bool} {input tail : RawText} (hread : Reads d doc a)
    (hnext : Decoder.nextElement first input = .ok true ((l.write level doc).map some ++ tail))
    (htail : Follows tail) (hmore : Decoder.elements d bound false tail = .ok as rest) :
    Decoder.elements d (bound + 1) first input = .ok (a :: as) rest := by
  have hitem := hread l level [] tail areBlanks_nil htail
  rw [List.nil_append] at hitem
  rw [Decoder.elements, Decoder.bind_ok hnext, if_pos rfl, Decoder.bind_ok hitem,
    Decoder.bind_ok hmore]
  rfl

/-- Items that follow others are read up to the end of the list. -/
theorem elements_further {α : Type} {d : Decoder α} {docs : List Document} {as : List α}
    {bound : Nat} (h : List.Forall₂ (Reads d) docs as) (hbound : docs.length < bound) :
    Decoder.elements d bound false ((l.writeItems level docs ++ bs).map some ++ some ']' :: rest) =
      .ok as (some ']' :: rest) := by
  induction h generalizing bound with
  | nil =>
      obtain ⟨bound, rfl⟩ : ∃ n, bound = n + 1 := ⟨bound - 1, by omega⟩
      rw [Layout.writeItems, List.nil_append, Decoder.elements,
        Decoder.bind_ok (nextElement_end hbs rest false)]
      rfl
  | @cons doc a docs as hread _ ih =>
      obtain ⟨bound, rfl⟩ : ∃ n, bound = n + 1 := ⟨bound - 1, by omega⟩
      have hcons : (l.writeItems level (doc :: docs) ++ bs).map some ++ some ']' :: rest =
          some ',' :: ((l.gap level ++ l.write level doc).map some ++
            ((l.writeItems level docs ++ bs).map some ++ some ']' :: rest)) := by
        simp [Layout.writeItems]
      rw [hcons]
      exact elements_item l level _ hread
        (nextElement_further (l.areBlanks_gap level) l level doc _)
        (follows_writeItems hbs l level rest docs) (ih (Nat.lt_of_succ_lt_succ hbound))

omit hbs in
theorem length_writeItems (docs : List Document) :
    docs.length ≤ (l.writeItems level docs).length := by
  induction docs with
  | nil => exact Nat.zero_le _
  | cons doc docs ih =>
      rw [Layout.writeItems]
      simp only [List.length_cons, List.length_append]
      omega

end Lists

/-- A list is read item by item. -/
theorem reads_list {α : Type} {d : Decoder α} {docs : List Document} {as : List α}
    (h : List.Forall₂ (Reads d) docs as) : Reads (Decoder.list d) (.list docs) as := by
  intro l level bs rest hbs hrest
  cases h with
  | nil =>
      have hcons : (bs ++ l.write level (.list [])).map some ++ rest =
          bs.map some ++ some '[' :: some ']' :: rest := by
        simp [Layout.write]
      rw [hcons]
      exact Decoder.placed_skipBlanks_ok hbs rfl (Decoder.closedBy_ok rfl rfl)
  | @cons doc a docs as hread hmore =>
      have hcons : (bs ++ l.write level (.list (doc :: docs))).map some ++ rest =
          bs.map some ++ some '[' :: ((l.gap (level + 1) ++ l.write (level + 1) doc).map some ++
            ((l.writeItems (level + 1) docs ++ l.gap level).map some ++ some ']' :: rest)) := by
        simp [Layout.write]
      have hlength : docs.length < ((l.gap (level + 1) ++ l.write (level + 1) doc).map some ++
          ((l.writeItems (level + 1) docs ++ l.gap level).map some ++
            some ']' :: rest)).length := by
        have hle := length_writeItems l (level + 1) docs
        simp only [List.length_append, List.length_map, List.length_cons]
        omega
      have hgap := l.areBlanks_gap level
      have helements := elements_item l (level + 1) (some ']' :: rest) hread
        (nextElement_first (l.areBlanks_gap (level + 1)) l (level + 1) doc _)
        (follows_writeItems hgap l (level + 1) rest docs)
        (elements_further hgap l (level + 1) rest hmore hlength)
      rw [hcons]
      exact Decoder.placed_skipBlanks_ok hbs rfl (Decoder.closedBy_ok helements rfl)

section Objects

variable {α : Type} {s : Shape α} {parts : List (Part α)} {x : α}

/-- An entry of an object that gives a part of the record what it is in `x`, or nothing at all. -/
inductive Shape.Admits (s : Shape α) (parts : List (Part α)) (x : α) : String × Document → Prop
  | known {key : String} {doc : Document} {field : Field α} {change : α → α}
      (hfield : s.fields.find? (·.name == key) = some field)
      (hreads : Reads field.decode doc change) (hfills : Part.Fills parts x key change) :
      Admits s parts x (key, doc)
  | other {key t : String} (hfield : s.fields.find? (·.name == key) = none)
      (hpart : ∀ p ∈ parts, p.name ≠ key) : Admits s parts x (key, .text t)

section Keys

variable {bs : List Char} (hbs : AreBlanks bs) (l : Layout) (level : Nat)
  (field : String × Document) (rest : RawText)

theorem writeField_eq_cons : (l.writeField level field).map some ++ rest =
    some '"' :: ((field.1.toList.flatMap escapeChar).map some ++
      some '"' :: some ':' :: ((l.space ++ l.write level field.2).map some ++ rest)) := by
  simp [Layout.writeField, writeText]

theorem colon_ok : Decoder.colon (some ':' :: rest) = .ok () rest :=
  rfl

include hbs

theorem nextKey_first : Decoder.nextKey true ((bs ++ l.writeField level field).map some ++ rest) =
    .ok true ((l.writeField level field).map some ++ rest) := by
  rw [List.map_append, List.append_assoc, writeField_eq_cons, Decoder.nextKey,
    Decoder.bind_ok (Decoder.skipBlanks_cons hbs rfl _), Decoder.get_bind]
  rfl

theorem nextKey_further :
    Decoder.nextKey false (some ',' :: ((bs ++ l.writeField level field).map some ++ rest)) =
      .ok true ((l.writeField level field).map some ++ rest) := by
  rw [List.map_append, List.append_assoc, writeField_eq_cons, Decoder.nextKey,
    Decoder.bind_ok (Decoder.skipBlanks_none rfl _), Decoder.get_bind]
  simp only [Bool.false_eq_true, if_false]
  rw [Decoder.set_bind, Decoder.bind_ok (Decoder.skipBlanks_cons hbs rfl _), Decoder.get_bind]
  rfl

theorem nextKey_end (first : Bool) :
    Decoder.nextKey first (bs.map some ++ some '}' :: rest) = .ok false (some '}' :: rest) := by
  rw [Decoder.nextKey, Decoder.bind_ok (Decoder.skipBlanks_cons hbs rfl _), Decoder.get_bind]
  rfl

end Keys

section Members

variable {l : Layout} {level bound : Nat} {key : String} {doc : Document} {first : Bool}
  {seen : List String} {a : α} {input rest : RawText}
  (hnext : Decoder.nextKey first input =
    .ok true ((l.writeField level (key, doc)).map some ++ rest))
  (hrest : Follows rest)

include hnext hrest

theorem members_known {field : Field α} {change : α → α}
    (hfield : s.fields.find? (·.name == key) = some field) (hreads : Reads field.decode doc change)
    (hnew : key ∉ seen) :
    s.members (bound + 1) first seen a input =
      s.members bound false (key :: seen) (change a) rest := by
  have hkey := stringBody_text key (some ':' :: ((l.space ++ l.write level doc).map some ++ rest))
  have hvalue := hreads l level l.space rest l.areBlanks_space hrest
  have hcontains : seen.contains key = false := by simpa using hnew
  rw [Shape.members, Decoder.bind_ok hnext, if_pos rfl, Decoder.modify_bind, writeField_eq_cons,
    List.drop_one, List.tail_cons, Decoder.bind_ok hkey]
  simp only [hfield, hcontains, Bool.false_eq_true, if_false]
  rw [Decoder.bind_ok (colon_ok _), Decoder.bind_ok hvalue]

omit hrest in
theorem members_other {t : String} (hdoc : doc = .text t)
    (hfield : s.fields.find? (·.name == key) = none) :
    s.members (bound + 1) first seen a input = s.members bound false seen a rest := by
  have hkey := stringBody_text key (some ':' :: ((l.space ++ l.write level doc).map some ++ rest))
  have hskip := skipValue_text l.areBlanks_space t rest
  rw [Shape.members, Decoder.bind_ok hnext, if_pos rfl, Decoder.modify_bind, writeField_eq_cons,
    List.drop_one, List.tail_cons, Decoder.bind_ok hkey]
  simp only [hfield]
  rw [Decoder.bind_ok (colon_ok _), hdoc, Layout.write, Decoder.bind_ok hskip]

/-- One entry changes the record in its part, and a field is then known to have been there. -/
theorem members_entry (bound : Nat) (hadmits : s.Admits parts x (key, doc)) (hnew : key ∉ seen)
    (a : α) :
    ∃ change seen',
      s.members (bound + 1) first seen a input = s.members bound false seen' (change a) rest ∧
      Part.Fills parts x key change ∧ (∀ name ∈ seen', name = key ∨ name ∈ seen) ∧
      ∀ f ∈ s.fields, f.name = key ∨ f.name ∈ seen → f.name ∈ seen' := by
  cases hadmits with
  | @known _ _ field change hfield hreads hfills =>
      refine ⟨change, key :: seen, members_known hnext hrest hfield hreads hnew, hfills, ?_, ?_⟩
      · exact fun name hname => List.mem_cons.mp hname
      · exact fun f _ hname => List.mem_cons.mpr hname
  | other hfield hpart =>
      refine ⟨id, seen, members_other hnext rfl hfield, ?_, fun name hname => .inr hname, ?_⟩
      · intro a p hp
        rw [if_neg (hpart p hp), id]
      · rintro f hf (hname | hname)
        · exact absurd (beq_iff_eq.mpr hname) (List.find?_eq_none.mp hfield f hf)
        · exact hname

end Members

/-- Nothing is missing where all that is required was there. -/
theorem Shape.missing?_eq_none {seen : List String}
    (h : ∀ f ∈ s.fields, f.required = true → f.name ∈ seen) : s.missing? seen = none := by
  rw [Shape.missing?, Option.map_eq_none_iff, List.find?_eq_none]
  intro f hf hmissing
  rw [Bool.and_eq_true, Bool.not_eq_true'] at hmissing
  have hseen : seen.contains f.name = true := List.contains_iff_mem.mpr (h f hf hmissing.1)
  exact Bool.false_ne_true (hmissing.2.symm.trans hseen)

section Closing

variable {bs : List Char} (hbs : AreBlanks bs) {l : Layout} {level : Nat} {rest : RawText}

include hbs

theorem follows_writeFields (l : Layout) (level : Nat) (fields : List (String × Document))
    (rest : RawText) :
    Follows ((l.writeFields level fields ++ bs).map some ++ some '}' :: rest) := by
  cases fields with
  | nil =>
      rw [Layout.writeFields, List.nil_append]
      exact hbs.follows (follows_cons rest (.inr (.inr rfl)))
  | cons entry fields =>
      rw [Layout.writeFields]
      exact follows_cons _ (.inl rfl)

theorem members_end {seen : List String}
    (hrequired : ∀ f ∈ s.fields, f.required = true → f.name ∈ seen) (bound : Nat) (first : Bool)
    (a : α) (rest : RawText) :
    s.members (bound + 1) first seen a (bs.map some ++ some '}' :: rest) =
      .ok a (some '}' :: rest) := by
  rw [Shape.members, Decoder.bind_ok (nextKey_end hbs rest first)]
  simp only [Bool.false_eq_true, if_false, Shape.missing?_eq_none hrequired]
  rfl

/-- Entries are read one after the other up to the end of the object. -/
theorem members_entries {entry : String × Document} {fields : List (String × Document)}
    {seen : List String} {bound : Nat} {first : Bool} {input : RawText}
    (hnext : Decoder.nextKey first input =
      .ok true ((l.writeField level entry).map some ++
        ((l.writeFields level fields ++ bs).map some ++ some '}' :: rest)))
    (hentries : ∀ e ∈ entry :: fields, s.Admits parts x e)
    (hnodup : ((entry :: fields).map (·.1)).Nodup)
    (hnew : ∀ name ∈ (entry :: fields).map (·.1), name ∉ seen)
    (hrequired : ∀ f ∈ s.fields,
      f.required = true → f.name ∈ seen ∨ f.name ∈ (entry :: fields).map (·.1))
    (hbound : fields.length < bound) (a : α) :
    ∃ b, s.members (bound + 1) first seen a input = .ok b (some '}' :: rest) ∧
      Part.Filled parts x a ((entry :: fields).map (·.1)) b := by
  -- on the entries behind the first one: only these have a comma in front
  induction fields generalizing entry seen bound first input a with
  | nil =>
      obtain ⟨bound, rfl⟩ : ∃ n, bound = n + 1 := ⟨bound - 1, by omega⟩
      obtain ⟨change, seen', hstep, hfills, _, hknown⟩ := members_entry hnext
        (follows_writeFields hbs l level [] rest) (bound + 1)
          (hentries entry (List.mem_cons_self ..))
        (hnew entry.1 (List.mem_cons_self ..)) a
      have hall : ∀ f ∈ s.fields, f.required = true → f.name ∈ seen' := by
        intro f hf hwanted
        have hmem := hrequired f hf hwanted
        rw [List.map_singleton, List.mem_singleton] at hmem
        exact hknown f hf hmem.symm
      refine ⟨change a, ?_, Part.Filled.cons hfills (Part.Filled.refl parts x (change a))⟩
      rw [hstep, Layout.writeFields, List.nil_append]
      exact members_end hbs hall bound false (change a) rest
  | cons next fields ih =>
      obtain ⟨bound, rfl⟩ : ∃ n, bound = n + 1 := ⟨bound - 1, by omega⟩
      rw [List.forall_mem_cons] at hentries
      rw [List.map_cons, List.nodup_cons] at hnodup
      rw [List.map_cons, List.forall_mem_cons] at hnew
      obtain ⟨change, seen', hstep, hfills, hseen, hknown⟩ := members_entry hnext
        (follows_writeFields hbs l level (next :: fields) rest) (bound + 1) hentries.1 hnew.1 a
      have hnew' : ∀ name ∈ (next :: fields).map (·.1), name ∉ seen' := by
        intro name hname hmem
        rcases hseen name hmem with rfl | hmem
        · exact hnodup.1 hname
        · exact hnew.2 name hname hmem
      have hrequired' : ∀ f ∈ s.fields, f.required = true →
          f.name ∈ seen' ∨ f.name ∈ (next :: fields).map (·.1) := by
        intro f hf hwanted
        rcases hrequired f hf hwanted with hmem | hmem
        · exact .inl (hknown f hf (.inr hmem))
        · rw [List.map_cons, List.mem_cons] at hmem
          exact hmem.imp_left fun heq => hknown f hf (.inl heq)
      have hcons : (l.writeFields level (next :: fields) ++ bs).map some ++ some '}' :: rest =
          some ',' :: ((l.gap level ++ l.writeField level next).map some ++
            ((l.writeFields level fields ++ bs).map some ++ some '}' :: rest)) := by
        simp [Layout.writeFields, Layout.writeField]
      have hfurther := nextKey_further (l.areBlanks_gap level) l level next
        ((l.writeFields level fields ++ bs).map some ++ some '}' :: rest)
      rw [← hcons] at hfurther
      obtain ⟨b, hrest, hfilled⟩ := ih hfurther hentries.2 hnodup.2 hnew' hrequired'
        (Nat.lt_of_succ_lt_succ hbound) (change a)
      exact ⟨b, hstep.trans hrest, Part.Filled.cons hfills hfilled⟩

end Closing

theorem length_writeFields (l : Layout) (level : Nat) (fields : List (String × Document)) :
    fields.length ≤ (l.writeFields level fields).length := by
  induction fields with
  | nil => exact Nat.zero_le _
  | cons entry fields ih =>
      rw [Layout.writeFields]
      simp only [List.length_cons, List.length_append]
      omega

theorem Shape.decoder_object {bs : List Char} (hbs : AreBlanks bs) {body rest : RawText} {b : α}
    (h : s.members (body.length + 1) true [] s.initial body = .ok b (some '}' :: rest)) :
    s.decoder (bs.map some ++ some '{' :: body) = .ok b rest :=
  Decoder.placed_skipBlanks_ok hbs rfl (Decoder.closedBy_ok h rfl)

/--
A record is read from an object of which every entry is admitted and no name comes twice, as long as
what is required is there and what is not there is as at the start.
-/
theorem Shape.reads_object {fields : List (String × Document)} (hparts : Part.Determine parts)
    (hentries : ∀ entry ∈ fields, s.Admits parts x entry) (hnodup : (fields.map (·.1)).Nodup)
    (hrequired : ∀ f ∈ s.fields, f.required = true → f.name ∈ fields.map (·.1))
    (hleft : ∀ p ∈ parts, p.name ∉ fields.map (·.1) → p.get s.initial = p.get x) :
    Reads s.decoder (.object fields) x := by
  intro l level bs rest hbs hrest
  -- what is read has the parts of `x` where they are named and those of the start elsewhere
  suffices h :
      ∃ b, s.decoder ((bs ++ l.write level (.object fields)).map some ++ rest) = .ok b rest ∧
      Part.Filled parts x s.initial (fields.map (·.1)) b by
    obtain ⟨b, hread, hfilled⟩ := h
    rw [hread, hfilled.eq hparts hleft]
  cases fields with
  | nil =>
      have hcons : (bs ++ l.write level (.object [])).map some ++ rest =
          bs.map some ++ some '{' :: some '}' :: rest := by
        simp [Layout.write]
      have hnone : ∀ f ∈ s.fields, f.required = true → f.name ∈ ([] : List String) := hrequired
      have hmembers := members_end areBlanks_nil hnone (some '}' :: rest).length true s.initial rest
      refine ⟨s.initial, ?_, Part.Filled.refl parts x s.initial⟩
      rw [hcons]
      exact Shape.decoder_object hbs hmembers
  | cons entry fields =>
      have hcons : (bs ++ l.write level (.object (entry :: fields))).map some ++ rest =
          bs.map some ++
            some '{' :: ((l.gap (level + 1) ++ l.writeField (level + 1) entry).map some ++
            ((l.writeFields (level + 1) fields ++ l.gap level).map some ++ some '}' :: rest)) := by
        simp [Layout.write, Layout.writeField]
      have hlength :
          fields.length < ((l.gap (level + 1) ++ l.writeField (level + 1) entry).map some ++
          ((l.writeFields (level + 1) fields ++ l.gap level).map some ++
            some '}' :: rest)).length := by
        have hle := length_writeFields l (level + 1) fields
        simp only [List.length_append, List.length_map, List.length_cons]
        omega
      have hnext := nextKey_first (l.areBlanks_gap (level + 1)) l (level + 1) entry
        ((l.writeFields (level + 1) fields ++ l.gap level).map some ++ some '}' :: rest)
      obtain ⟨b, hmembers, hfilled⟩ := members_entries (l.areBlanks_gap level) hnext hentries hnodup
        (fun _ _ => List.not_mem_nil) (fun f hf hwanted => .inr (hrequired f hf hwanted))
        hlength s.initial
      refine ⟨b, ?_, hfilled⟩
      rw [hcons]
      exact Shape.decoder_object hbs hmembers

end Objects
end AccessLedger.Json
