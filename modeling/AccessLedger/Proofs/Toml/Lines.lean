import AccessLedger.Proofs.Toml.Values
import AccessLedger.Toml.Record

/-!
Lines of TOML, written and read. A line that was written is read back as one assignment, and lines
with different names as a table of their values.
-/

namespace AccessLedger.Toml

section Lines

theorem skipBlanks_cons {c : Char} (hc : isBlank c = false) (input : List Char) :
    skipBlanks (c :: input) = c :: input := by
  rw [skipBlanks, List.dropWhile_cons_of_neg (by rw [hc]; exact Bool.false_ne_true)]

/-- A name that needs no quotes. -/
def isBareName (name : String) : Bool :=
  !name.toList.isEmpty && name.toList.all isBare

theorem isBare_of_mem {name : String} (h : isBareName name = true) :
    ∀ c ∈ name.toList, isBare c = true := by
  rw [isBareName, Bool.and_eq_true] at h
  exact List.all_eq_true.mp h.2

theorem eq_cons_of_isBareName {name : String} (h : isBareName name = true) :
    ∃ c cs, name.toList = c :: cs ∧ isBare c = true := by
  cases hcs : name.toList with
  | nil => simp [isBareName, hcs] at h
  | cons c cs =>
      refine ⟨c, cs, rfl, isBare_of_mem h c ?_⟩
      rw [hcs]
      exact List.mem_cons_self ..

theorem ne_of_isBare {c d : Char} (hc : isBare c = true) (hd : isBare d = false) : c ≠ d := by
  rintro rfl
  rw [hc] at hd
  cases hd

theorem isBlank_of_isBare {c : Char} (hc : isBare c = true) : isBlank c = false := by
  rw [isBlank, Bool.or_eq_false_iff, beq_eq_false_iff_ne, beq_eq_false_iff_ne]
  exact ⟨ne_of_isBare hc (by decide), ne_of_isBare hc (by decide)⟩

/-- Where a line begins with a bare name, it is not blank. -/
theorem endLine?_of_isBare {c : Char} (hc : isBare c = true) (input : List Char) :
    endLine? (c :: input) = none := by
  have hcomment : c ≠ '#' := ne_of_isBare hc (by decide)
  have hbreak : c ≠ '\n' := ne_of_isBare hc (by decide)
  have hreturn : c ≠ '\r' := ne_of_isBare hc (by decide)
  simp [endLine?, skipBlanks_cons (isBlank_of_isBare hc), hcomment, hbreak, hreturn]

variable {name : String} (hname : isBareName name = true)

include hname

theorem keyPart?_bare {rest : List Char} (hrest : ∀ c ∈ rest.head?, isBare c = false) :
    keyPart? (name.toList ++ rest) = some (name, rest) := by
  obtain ⟨c, cs, hcs, hc⟩ := eq_cons_of_isBareName hname
  have hstop : rest.takeWhile isBare = [] ∧ rest.dropWhile isBare = rest := by
    cases rest with
    | nil => exact ⟨rfl, rfl⟩
    | cons d rest =>
        have hd : ¬ isBare d = true := by simpa using hrest d rfl
        exact ⟨List.takeWhile_cons_of_neg hd, List.dropWhile_cons_of_neg hd⟩
  have htake : (name.toList ++ rest).takeWhile isBare = name.toList := by
    rw [List.takeWhile_append_of_pos (isBare_of_mem hname), hstop.1, List.append_nil]
  have hdrop : (name.toList ++ rest).dropWhile isBare = rest := by
    rw [List.dropWhile_append_of_pos (isBare_of_mem hname), hstop.2]
  rw [hcs, List.cons_append] at htake hdrop ⊢
  rw [keyPart?]
  · simp only [htake, hdrop, ← hcs, String.ofList_toList]
    rw [hcs]
    rfl
  · rintro _ h
    exact ne_of_isBare hc (by decide) (List.cons.inj h).1
  · rintro _ h
    exact ne_of_isBare hc (by decide) (List.cons.inj h).1

/-- A bare name is a key of one part, up to what follows the blanks behind it. -/
theorem key?_bare {rest next : List Char} (hrest : ∀ c ∈ rest.head?, isBare c = false)
    (hskip : skipBlanks rest = next) (hdot : next.head? ≠ some '.') :
    key? (name.toList ++ rest) = some (⟨[], name⟩, next) := by
  obtain ⟨c, cs, hcs, hc⟩ := eq_cons_of_isBareName hname
  have hfront : skipBlanks (name.toList ++ rest) = name.toList ++ rest := by
    rw [hcs]
    exact skipBlanks_cons (isBlank_of_isBare hc) _
  have hparts : ∀ bound, keyParts? (bound + 1) (name.toList ++ rest) = some ([name], next) := by
    intro bound
    rw [keyParts?, hfront, keyPart?_bare hname hrest]
    simp only [Option.bind_eq_bind, Option.bind_some, hskip]
    split
    · exact absurd rfl hdot
    · rfl
  rw [key?, depthLimit, hparts]
  rfl

theorem assignment?_bare {x : Setting} (hx : x.Fits) (rest : List Char) :
    assignment? (value? depthLimit)
      (name.toList ++ ' ' :: '=' :: ' ' :: (x.write ++ '\n' :: rest)) =
      some (⟨⟨[], name⟩, x.value⟩, '\n' :: rest) := by
  obtain ⟨c, cs, hwritten, hblank⟩ := write_eq_cons_of_fits hx
  have hkey : key? (name.toList ++ ' ' :: '=' :: ' ' :: (x.write ++ '\n' :: rest)) =
      some (⟨[], name⟩, '=' :: ' ' :: (x.write ++ '\n' :: rest)) :=
    key?_bare hname (by simp; decide) rfl (by simp)
  have hskip : skipBlanks (' ' :: (x.write ++ '\n' :: rest)) = x.write ++ '\n' :: rest := by
    rw [hwritten]
    exact skipBlanks_cons hblank _
  have hvalue : value? depthLimit (x.write ++ '\n' :: rest) = some (x.value, '\n' :: rest) :=
    value?_write hx 78 rest
  rw [assignment?, hkey]
  simp only [Option.bind_eq_bind, Option.bind_some, hskip, hvalue]
  rfl

/-- A line is read back as an assignment to its name, with its end. -/
theorem line?_writeLine {x : Setting} (hx : x.Fits) (rest : List Char) :
    line? (writeLine (name, x) ++ rest) = some (.assignment ⟨⟨[], name⟩, x.value⟩, rest) := by
  obtain ⟨c, cs, hcs, hc⟩ := eq_cons_of_isBareName hname
  have hwritten : writeLine (name, x) ++ rest =
      name.toList ++ ' ' :: '=' :: ' ' :: (x.write ++ '\n' :: rest) := by
    simp [writeLine]
  have hread := assignment?_bare hname hx rest
  rw [← hwritten] at hread
  have hcons :
      writeLine (name, x) ++ rest =
        c :: (cs ++ ' ' :: '=' :: ' ' :: (x.write ++ '\n' :: rest)) := by
    rw [hwritten, hcs]
    rfl
  rw [hcons] at hread ⊢
  have hlist : c ≠ '[' := ne_of_isBare hc (by decide)
  have hend : endLine? ('\n' :: rest) = some rest := rfl
  simp [line?, skipBlanks_cons (isBlank_of_isBare hc), hlist, endLine?_of_isBare hc, hread, hend]

/-- The header of a table is read back with its end. -/
theorem line?_header (rest : List Char) :
    line? ('[' :: (name.toList ++ ']' :: '\n' :: rest)) =
      some (.header ⟨[], name⟩ false, rest) := by
  obtain ⟨c, cs, hcs, hc⟩ := eq_cons_of_isBareName hname
  have hkey : key? (name.toList ++ ']' :: '\n' :: rest) = some (⟨[], name⟩, ']' :: '\n' :: rest) :=
    key?_bare hname (by simp; decide) rfl (by simp)
  have hlist : c ≠ '[' := ne_of_isBare hc (by decide)
  have hend : endLine? ('\n' :: rest) = some rest := rfl
  have hskip : skipBlanks ('[' :: (name.toList ++ ']' :: '\n' :: rest)) =
      '[' :: (name.toList ++ ']' :: '\n' :: rest) := rfl
  rw [line?, hskip]
  rw [hcs, List.cons_append] at hkey ⊢
  simp [hlist, hkey, hend]

end Lines

section Texts

/-- A text that is read as some lines, whatever lines come behind it. -/
def ReadsAs (text : List Char) (ls : List Line) : Prop :=
  ∀ rest more, (∀ bound, rest.length ≤ bound → lines? bound rest = some more) →
    ∀ bound, (text ++ rest).length ≤ bound → lines? bound (text ++ rest) = some (ls ++ more)

theorem ReadsAs.nil : ReadsAs [] [] :=
  fun _ _ h => h

theorem ReadsAs.append {front back : List Char} {ls ms : List Line} (hfront : ReadsAs front ls)
    (hback : ReadsAs back ms) : ReadsAs (front ++ back) (ls ++ ms) := by
  intro rest more hrest
  rw [List.append_assoc, List.append_assoc]
  exact hfront (back ++ rest) (ms ++ more) (hback rest more hrest)

theorem ReadsAs.line {text : List Char} {l : Line} (htext : text ≠ [])
    (h : ∀ rest, line? (text ++ rest) = some (l, rest)) : ReadsAs text [l] := by
  intro rest more hrest bound hbound
  have hpos : 0 < text.length := List.length_pos_iff.mpr htext
  rw [List.length_append] at hbound
  obtain ⟨bound, rfl⟩ : ∃ n, bound = n + 1 := ⟨bound - 1, by omega⟩
  rw [lines?, h rest]
  · simp only [Option.bind_eq_bind, Option.bind_some, hrest bound (by omega)]
    rfl
  · simp [htext]

theorem ReadsAs.lines?_eq {text : List Char} {ls : List Line} (h : ReadsAs text ls) :
    lines? text.length text = some ls := by
  have hend : ∀ bound, ([] : List Char).length ≤ bound → lines? bound [] = some [] := by
    intro bound _
    cases bound <;> rfl
  have hread := h [] [] hend text.length (by simp)
  rwa [List.append_nil, List.append_nil] at hread

def assignmentOf (entry : String × Setting) : Assignment :=
  ⟨⟨[], entry.1⟩, entry.2.value⟩

theorem readsAs_writeLines {entries : List (String × Setting)}
    (hfits : ∀ entry ∈ entries, entry.2.Fits)
    (hbare : ∀ entry ∈ entries, isBareName entry.1 = true) :
    ReadsAs (writeLines entries) ((entries.map assignmentOf).map .assignment) := by
  induction entries with
  | nil => exact ReadsAs.nil
  | cons entry entries ih =>
      rw [List.forall_mem_cons] at hfits hbare
      have hcons : writeLines (entry :: entries) = writeLine entry ++ writeLines entries :=
        List.flatMap_cons
      have hne : writeLine entry ≠ [] := by simp [writeLine]
      rw [hcons]
      exact (ReadsAs.line hne (line?_writeLine hbare.1 hfits.1)).append (ih hfits.2 hbare.2)

theorem skipByteOrderMark_of_head? {text : List Char} (h : text.head? ≠ some '\uFEFF') :
    skipByteOrderMark text = text := by
  rw [skipByteOrderMark]
  rintro rest rfl
  exact h rfl

end Texts

section Tables

/-- Entries that a table can be written with: values under bare names, no name twice. -/
structure IsTable (entries : List (String × Setting)) : Prop where
  fits : ∀ entry ∈ entries, entry.2.Fits
  bare : ∀ entry ∈ entries, isBareName entry.1 = true
  nodup : (entries.map (·.1)).Nodup

theorem ofLines_assignments (as : List Assignment) (ls : List Line) :
    Source.ofLines (as.map .assignment ++ ls) =
      { Source.ofLines ls with top := as ++ (Source.ofLines ls).top } := by
  induction as with
  | nil => rfl
  | cons a as ih => rw [List.map_cons, List.cons_append, Source.ofLines, ih]; rfl

theorem lookup_concat_eq_none {ms : Members} {name other : String} (h : ms.lookup other = none)
    (n : Node) (hne : other ≠ name) : (ms ++ [(name, n)]).lookup other = none := by
  have hbeq : (other == name) = false := beq_eq_false_iff_ne.mpr hne
  rw [List.lookup_append, h, Option.none_or]
  simp [List.lookup_cons, hbeq]

/-- Bare names that are all new are put one after the other. -/
theorem assignAll_bare (ms : Members) {entries : List (String × Setting)}
    (hnew : ∀ entry ∈ entries, ms.lookup entry.1 = none) (hnodup : (entries.map (·.1)).Nodup) :
    ms.assignAll (entries.map assignmentOf) =
      some (ms ++ entries.map fun entry => (entry.1, .leaf entry.2.value)) := by
  induction entries generalizing ms with
  | nil => rw [List.map_nil, List.map_nil, List.append_nil]; rfl
  | cons entry entries ih =>
      rw [List.forall_mem_cons] at hnew
      rw [List.map_cons, List.nodup_cons] at hnodup
      have hassign :
          ms.assign (assignmentOf entry) = some (ms ++ [(entry.1, .leaf entry.2.value)]) := by
        simp [Members.assign, Members.within, assignmentOf, hnew.1]
      have hrest : ∀ other ∈ entries,
          (ms ++ [(entry.1, Node.leaf entry.2.value)]).lookup other.1 = none := by
        intro other hother
        refine lookup_concat_eq_none (hnew.2 other hother) _ ?_
        intro heq
        exact hnodup.1 (heq ▸ List.mem_map_of_mem hother)
      have hall := ih _ hrest hnodup.2
      rw [Members.assignAll] at hall ⊢
      rw [List.map_cons, List.foldlM_cons, hassign, Option.bind_eq_bind, Option.bind_some, hall,
        List.map_cons, List.append_assoc, List.singleton_append]

theorem memberValues_leaves (entries : List (String × Setting)) :
    memberValues (entries.map fun entry => (entry.1, .leaf entry.2.value)) =
      entries.map fun entry => (entry.1, entry.2.value) := by
  induction entries with
  | nil => rfl
  | cons entry entries ih => rw [List.map_cons, memberValues, ih]; rfl

/-- Lines under different bare names are read back as the table that they were written from. -/
theorem read?_writeLines {entries : List (String × Setting)} (h : IsTable entries) :
    read? (String.ofList (writeLines entries)) =
      some (entries.map fun entry => (entry.1, entry.2.value)) := by
  have hmark : (writeLines entries).head? ≠ some '\uFEFF' := by
    cases entries with
    | nil => simp [writeLines]
    | cons entry entries =>
        obtain ⟨c, cs, hname, hc⟩ := eq_cons_of_isBareName (h.bare entry (List.mem_cons_self ..))
        have hne : c ≠ '\uFEFF' := ne_of_isBare hc (by decide)
        simp [writeLines, writeLine, hname, hne]
  have hsource := ofLines_assignments (entries.map assignmentOf) []
  rw [List.append_nil] at hsource
  have hassign := assignAll_bare [] (fun _ _ => rfl) h.nodup
  rw [read?, String.toList_ofList, skipByteOrderMark_of_head? hmark]
  simp only [(readsAs_writeLines h.fits h.bare).lines?_eq, Option.bind_eq_bind, Option.bind_some,
    hsource]
  simp [Source.fields?, Source.ofLines, hassign, memberValues_leaves]

end Tables

end AccessLedger.Toml
