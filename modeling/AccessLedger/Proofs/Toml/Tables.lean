import Mathlib.Data.List.Nodup
import AccessLedger.Proofs.Record
import AccessLedger.Proofs.Toml.Lines

/-!
Tables of TOML under headers, and records that are kept in them. Tables that were written are read
back with their values, whatever blank lines stand between them. A record is decoded as it was
written, and those of its entries that hold what is usual may be left out.
-/

namespace AccessLedger.Toml

/-- A name and the entries below it. -/
abbrev Table := String × List (String × Setting)

def writeTables (ts : List Table) : List Char :=
  ts.flatMap fun t => writeTable t.1 t.2

/-- What the entries of a table are read as. -/
def valuesOf (entries : List (String × Setting)) : List (String × Value) :=
  entries.map fun entry => (entry.1, entry.2.value)

section Headers

def tableLines (t : Table) : List Line :=
  .header ⟨[], t.1⟩ false :: (t.2.map assignmentOf).map .assignment

def sectionOf (t : Table) : Section :=
  ⟨⟨[], t.1⟩, false, t.2.map assignmentOf⟩

theorem readsAs_writeTables {ts : List Table} (hnames : ∀ t ∈ ts, isBareName t.1 = true)
    (hbodies : ∀ t ∈ ts, IsTable t.2) : ReadsAs (writeTables ts) (ts.flatMap tableLines) := by
  induction ts with
  | nil => exact ReadsAs.nil
  | cons t ts ih =>
      rw [List.forall_mem_cons] at hnames hbodies
      have hheader : ReadsAs ('[' :: (t.1.toList ++ [']', '\n'])) [.header ⟨[], t.1⟩ false] := by
        refine ReadsAs.line (List.cons_ne_nil _ _) ?_
        intro rest
        have hline := line?_header hnames.1 rest
        simpa using hline
      have hbody := readsAs_writeLines hbodies.1.fits hbodies.1.bare
      have hcons : writeTables (t :: ts) =
          '[' :: (t.1.toList ++ [']', '\n']) ++ (writeLines t.2 ++ writeTables ts) := by
        simp [writeTables, writeTable]
      rw [hcons]
      exact hheader.append (hbody.append (ih hnames.2 hbodies.2))

theorem readsAs_breaks (n : Nat) : ReadsAs (List.replicate n '\n') (List.replicate n .blank) := by
  induction n with
  | zero => exact ReadsAs.nil
  | succ n ih =>
      have hline : ReadsAs ['\n'] [.blank] := ReadsAs.line (List.cons_ne_nil _ _) fun _ => rfl
      exact hline.append ih

theorem ofLines_blank (n : Nat) (ls : List Line) :
    Source.ofLines (List.replicate n .blank ++ ls) = Source.ofLines ls := by
  induction n with
  | zero => rfl
  | succ n ih => exact ih

theorem ofLines_tables (ts : List Table) {ls : List Line} (hls : (Source.ofLines ls).top = []) :
    Source.ofLines (ts.flatMap tableLines ++ ls) =
      ⟨[], ts.map sectionOf ++ (Source.ofLines ls).sections⟩ := by
  induction ts with
  | nil =>
      show Source.ofLines ls = ⟨[], (Source.ofLines ls).sections⟩
      rw [← hls]
  | cons t ts ih =>
      rw [List.flatMap_cons, List.append_assoc, tableLines, List.cons_append, Source.ofLines,
        ofLines_assignments, ih, List.append_nil]
      rfl

/-- Tables with names that are all new are put one after the other. -/
theorem foldlM_add_tables (ms : Members) {ts : List Table} (hnew : ∀ t ∈ ts, ms.lookup t.1 = none)
    (hnodup : (ts.map (·.1)).Nodup) (hbodies : ∀ t ∈ ts, (t.2.map (·.1)).Nodup) :
    (ts.map sectionOf).foldlM Members.add ms =
      some (ms ++ ts.map fun t =>
        (t.1, .table .header (t.2.map fun e => (e.1, .leaf e.2.value)))) := by
  induction ts generalizing ms with
  | nil => simp
  | cons t ts ih =>
      rw [List.forall_mem_cons] at hnew hbodies
      rw [List.map_cons, List.nodup_cons] at hnodup
      have hbody := assignAll_bare [] (fun _ _ => rfl) hbodies.1
      have hadd : ms.add (sectionOf t) =
          some (ms ++ [(t.1, .table .header (t.2.map fun e => (e.1, .leaf e.2.value)))]) := by
        simp [Members.add, sectionOf, Members.openTable, Members.within, hnew.1, hbody]
      have hrest : ∀ other ∈ ts,
          (ms ++ [(t.1, Node.table .header (t.2.map fun e => (e.1, .leaf e.2.value)))]).lookup
            other.1 = none := by
        intro other hother
        refine lookup_concat_eq_none (hnew.2 other hother) _ ?_
        intro heq
        exact hnodup.1 (heq ▸ List.mem_map_of_mem hother)
      rw [List.map_cons, List.foldlM_cons, hadd, Option.bind_eq_bind, Option.bind_some,
        ih _ hrest hnodup.2 hbodies.2, List.map_cons, List.append_assoc, List.singleton_append]

theorem memberValues_tables (ts : List Table) :
    memberValues (ts.map fun t => (t.1, .table .header (t.2.map fun e => (e.1, .leaf e.2.value)))) =
      ts.map fun t => (t.1, .table (valuesOf t.2)) := by
  induction ts with
  | nil => rfl
  | cons t ts ih => rw [List.map_cons, memberValues, ih, Node.value, memberValues_leaves]; rfl

/-- Blank lines among tables do not count. -/
theorem ofLines_tables_apart (top bottom : List Table) (n : Nat) :
    Source.ofLines
      (top.flatMap tableLines ++ (List.replicate n .blank ++ bottom.flatMap tableLines)) =
      ⟨[], (top ++ bottom).map sectionOf⟩ := by
  have hbottom : Source.ofLines (bottom.flatMap tableLines) = ⟨[], bottom.map sectionOf⟩ := by
    have hnone : (Source.ofLines []).top = [] := rfl
    simpa [Source.ofLines] using ofLines_tables bottom hnone
  have hrest : Source.ofLines (List.replicate n .blank ++ bottom.flatMap tableLines) =
      ⟨[], bottom.map sectionOf⟩ := (ofLines_blank n _).trans hbottom
  rw [ofLines_tables top (by rw [hrest]), hrest, List.map_append]

theorem head?_writeTables (ts : List Table) {rest : List Char}
    (hrest : rest.head? ≠ some '\uFEFF') :
    (writeTables ts ++ rest).head? ≠ some '\uFEFF' := by
  cases ts with
  | nil => exact hrest
  | cons t ts => simp [writeTables, writeTable]

theorem head?_breaks (n : Nat) {rest : List Char} (hrest : rest.head? ≠ some '\uFEFF') :
    (List.replicate n '\n' ++ rest).head? ≠ some '\uFEFF' := by
  cases n with
  | zero => exact hrest
  | succ n => simp [List.replicate_succ]

/-- Tables with different names, and blank lines somewhere between them, are read back. -/
theorem read?_tables {top bottom : List Table}
    (hnames : ∀ t ∈ top ++ bottom, isBareName t.1 = true)
    (hnodup : ((top ++ bottom).map (·.1)).Nodup) (hbodies : ∀ t ∈ top ++ bottom, IsTable t.2)
    (n : Nat) :
    read? (String.ofList (writeTables top ++ (List.replicate n '\n' ++ writeTables bottom))) =
      some ((top ++ bottom).map fun t => (t.1, .table (valuesOf t.2))) := by
  have hbottom : (writeTables bottom).head? ≠ some '\uFEFF' := by
    have hnone : ([] : List Char).head? ≠ some '\uFEFF' := by simp
    simpa using head?_writeTables bottom hnone
  have hmark := head?_writeTables top (head?_breaks n hbottom)
  rw [List.forall_mem_append] at hnames
  have hreads := (readsAs_writeTables hnames.1 (List.forall_mem_append.mp hbodies).1).append
    ((readsAs_breaks n).append (readsAs_writeTables hnames.2 (List.forall_mem_append.mp hbodies).2))
  have hadd := foldlM_add_tables [] (fun _ _ => rfl) hnodup fun t ht => (hbodies t ht).nodup
  rw [read?, String.toList_ofList, skipByteOrderMark_of_head? hmark, hreads.lines?_eq,
    Option.bind_eq_bind, Option.bind_some, ofLines_tables_apart]
  show (((top ++ bottom).map sectionOf).foldlM Members.add []).bind
      (fun all => some (memberValues all)) = _
  rw [hadd, List.nil_append, Option.bind_some, memberValues_tables]

end Headers

section Records

variable {α : Type} {x usual : α}

theorem Field.decode_of {β : Type} {name : String} {decode : Value → Decoded β} {set : β → α → α}
    {v : Value} {y : β} (h : decode v = .ok y) :
    (Field.of name decode set).decode v = .ok (set y) := by
  show set <$> decode v = _
  rw [h]
  rfl

/-- A part of a record as it is written. -/
structure Column (α : Type) where
  name : String
  setting : α → Setting

def Column.part (c : Column α) : Part α :=
  ⟨c.name, Setting, c.setting⟩

def entriesOf (columns : List (Column α)) (a : α) : List (String × Setting) :=
  columns.map fun c => (c.name, c.setting a)

theorem isTable_entriesOf {columns : List (Column α)} (hfits : ∀ c ∈ columns, (c.setting x).Fits)
    (hbare : ∀ c ∈ columns, isBareName c.name = true) (hnodup : (columns.map (·.name)).Nodup) :
    IsTable (entriesOf columns x) where
  fits entry hentry := by
    obtain ⟨c, hc, rfl⟩ := List.mem_map.mp hentry
    exact hfits c hc
  bare entry hentry := by
    obtain ⟨c, hc, rfl⟩ := List.mem_map.mp hentry
    exact hbare c hc
  nodup := by
    rw [entriesOf, List.map_map]
    exact hnodup

/-- Some of the entries of a record; those that were left out hold what is usual. -/
structure LeavesUsual (columns : List (Column α)) (x usual : α) (kept : List (String × Setting)) :
    Prop where
  sublist : kept.Sublist (entriesOf columns x)
  left : ∀ entry ∈ entriesOf columns x, entry ∉ kept → entry ∈ entriesOf columns usual

/--
A record is decoded from its columns, each of which gives one part of it and all of which make it
up.
-/
structure Shape.Decodes (s : Shape α) (columns : List (Column α)) : Prop where
  column : ∀ x, ∀ c ∈ columns, ∃ field change, s.fields.find? (·.name == c.name) = some field ∧
    field.decode (c.setting x).value = .ok change ∧
      Part.Fills (columns.map Column.part) x c.name change
  determine : Part.Determine (columns.map Column.part)
  nodup : (columns.map (·.name)).Nodup

theorem Shape.Decodes.filled {s : Shape α} {columns : List (Column α)} (h : s.Decodes columns)
    {kept : List (String × Setting)} (hkept : ∀ entry ∈ kept, entry ∈ entriesOf columns x) (a : α) :
    ∃ b, s.ofFields a (valuesOf kept) = .ok b ∧
      Part.Filled (columns.map Column.part) x a (kept.map (·.1)) b := by
  induction kept generalizing a with
  | nil => exact ⟨a, rfl, Part.Filled.refl _ x a⟩
  | cons entry kept ih =>
      rw [List.forall_mem_cons] at hkept
      obtain ⟨c, hc, rfl⟩ := List.mem_map.mp hkept.1
      obtain ⟨field, change, hfield, hdecode, hfills⟩ := h.column x c hc
      obtain ⟨b, hrest, hfilled⟩ := ih hkept.2 (change a)
      refine ⟨b, ?_, Part.Filled.cons hfills hfilled⟩
      rw [valuesOf, List.map_cons, Shape.ofFields]
      simp only [hfield, hdecode]
      exact hrest

/-- What is left out of a record is what it would be without. -/
theorem Shape.Decodes.ofFields_eq {s : Shape α} {columns : List (Column α)} (h : s.Decodes columns)
    {kept : List (String × Setting)} (hkept : LeavesUsual columns x usual kept) :
    s.ofFields usual (valuesOf kept) = .ok x := by
  obtain ⟨b, hread, hfilled⟩ := h.filled (fun _ he => hkept.sublist.subset he) usual
  have hb : b = x := by
    refine hfilled.eq h.determine ?_
    intro p hp hname
    obtain ⟨c, hc, rfl⟩ := List.mem_map.mp hp
    have hout : (c.name, c.setting x) ∉ kept :=
      fun hmem => hname (List.mem_map_of_mem (f := (·.1)) hmem)
    -- what is usual is found under the name of the entry that was left out, which no other one has
    have husual := hkept.left _ (List.mem_map_of_mem hc) hout
    obtain ⟨d, hd, heq⟩ := List.mem_map.mp husual
    rw [Prod.mk.injEq] at heq
    have hsame : d = c := List.inj_on_of_nodup_map h.nodup hd hc heq.1
    rw [← hsame]
    show d.setting usual = d.setting x
    rw [heq.2, hsame]
  rw [hread, hb]

/-- A table of some of the entries of a record, or none at all if all of them may be left out. -/
inductive Abridges (columns : List (Column α)) (x usual : α) (name : String) : List Table → Prop
  | table {kept : List (String × Setting)} :
      LeavesUsual columns x usual kept → Abridges columns x usual name [(name, kept)]
  | nothing : LeavesUsual columns x usual [] → Abridges columns x usual name []

theorem LeavesUsual.all (columns : List (Column α)) (x usual : α) :
    LeavesUsual columns x usual (entriesOf columns x) :=
  ⟨List.Sublist.refl _, fun _ hmem hout => absurd hmem hout⟩

theorem IsTable.sublist {entries kept : List (String × Setting)} (h : IsTable entries)
    (hkept : kept.Sublist entries) : IsTable kept where
  fits entry hentry := h.fits entry (hkept.subset hentry)
  bare entry hentry := h.bare entry (hkept.subset hentry)
  nodup := (hkept.map _).nodup h.nodup

theorem Abridges.names_sublist {columns : List (Column α)} {name : String} {ts : List Table}
    (h : Abridges columns x usual name ts) : (ts.map (·.1)).Sublist [name] := by
  cases h with
  | table _ => exact List.Sublist.refl _
  | nothing _ => exact List.nil_sublist _

theorem Abridges.isTable {columns : List (Column α)} {name : String} {ts : List Table}
    (h : Abridges columns x usual name ts) (hentries : IsTable (entriesOf columns x)) :
    ∀ t ∈ ts, IsTable t.2 := by
  cases h with
  | table hkept =>
      intro t ht
      rw [List.mem_singleton.mp ht]
      exact hentries.sublist hkept.sublist
  | nothing _ => exact fun _ ht => nomatch ht

/-- The part of a larger record that an abridged table is for. -/
theorem Abridges.ofFields_eq {β : Type} {s : Shape α} {columns : List (Column α)} {name : String}
    {set : α → β → β} {b : β} {ts : List Table} (h : Abridges columns x usual name ts)
    (outer : Shape β)
    (hfield : outer.fields.find? (·.name == name) = some (.of name (s.decode usual) set))
    (hshape : s.Decodes columns) (hset : set usual b = b) (rest : List (String × Value)) :
    outer.ofFields b ((ts.map fun t => (t.1, .table (valuesOf t.2))) ++ rest) =
      outer.ofFields (set x b) rest := by
  cases h with
  | @table kept hkept =>
      have hdecode : s.decode usual (.table (valuesOf kept)) = .ok x := hshape.ofFields_eq hkept
      rw [List.map_singleton, List.singleton_append, Shape.ofFields]
      simp only [hfield, Field.decode_of hdecode]
      rfl
  | nothing hkept =>
      have husual : Except.ok usual = (Except.ok x : Decoded α) := hshape.ofFields_eq hkept
      cases husual
      rw [List.map_nil, List.nil_append, hset]

end Records
end AccessLedger.Toml
