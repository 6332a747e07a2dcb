import AccessLedger.Proofs.Elapsed
import AccessLedger.Proofs.Text.Lines
import AccessLedger.Proofs.Usage.Entries
import AccessLedger.Proofs.Usage.Labelling
import AccessLedger.Report

/-!
Reports as lines. How many lines a report has and where its hint stands goes by the shape of the
view as long as no text in it breaks a line. The texts come from the snapshot and the settings as
they are, so that one with a line break in it takes more lines than its own, and these may look like
any part of a report.
-/

namespace AccessLedger

namespace Text

theorem le_length_padRight (width : Nat) (s : String) : width ≤ (padRight width s).length := by
  rw [padRight, String.length_append, String.length_ofList, List.length_replicate]
  omega

theorem breaks_padRight (width : Nat) (s : String) : breaks (padRight width s) = breaks s := by
  rw [padRight, breaks_append]
  simp [breaks, List.count_replicate]

theorem breaks_toString (n : Nat) : breaks (toString n) = 0 := by
  rw [breaks_eq_zero, Nat.toString_eq_repr, Nat.toList_repr]
  intro hc
  exact absurd (Nat.isDigit_of_mem_toDigits (by decide) (by decide) hc) (by decide)

end Text

namespace View

/-- The lines that tell by themselves how a report goes on. -/
def marks : List String := ["", "No permission usage found."]

theorem not_mark_of_mem {line : String} (h : '(' ∈ line.toList ∨ '─' ∈ line.toList) :
    line ∉ marks := by
  have hnone : ∀ mark ∈ marks, '(' ∉ mark.toList ∧ '─' ∉ mark.toList := by decide
  intro hmark
  obtain ⟨hopen, hrule⟩ := hnone line hmark
  exact h.elim hopen hrule

end View

namespace Entry

/-- What is written of an entry; the titles of rows below an app are not. -/
def texts : Entry → List String
  | single row => [row.title, row.summary]
  | grouped _ title _ _ rows => title :: rows.map (·.summary)

def lineCount : Entry → Nat
  | single _ => 1
  | grouped _ _ _ _ rows => rows.length + 1

/--
An app with one row is on one line, from its title to the summary; else the rows are on lines below
its title.
-/
inductive WrittenAs : Entry → List String → Prop
  | single {row : Row} {line : String} (opens : row.title.toList <+: line.toList)
      (closes : row.summary.toList <:+ line.toList) : WrittenAs (single row) [line]
  | grouped {appKey title icon : String} {icons : List String} {rows : List Row} {line : String}
      (opens : title.toList <+: line.toList) :
      WrittenAs (grouped appKey title icon icons rows)
        (line :: rows.map fun row => "  " ++ row.summary)

theorem WrittenAs.length_eq {e : Entry} {block : List String} (h : e.WrittenAs block) :
    block.length = e.lineCount := by
  cases h with
  | single => rfl
  | grouped => rw [List.length_cons, List.length_map, lineCount]

theorem length_flatten_of_writtenAs {es : List Entry} {blocks : List (List String)}
    (h : List.Forall₂ WrittenAs es blocks) : blocks.flatten.length = (es.map lineCount).sum := by
  induction h with
  | nil => rfl
  | cons hblock _ ih =>
      rw [List.flatten_cons, List.length_append, hblock.length_eq, ih, List.map_cons, List.sum_cons]

theorem writtenAs_lines (e : Entry) : e.WrittenAs e.lines := by
  cases e with
  | single row =>
      refine .single ⟨List.replicate (32 - row.title.length) ' ' ++ ' ' :: row.summary.toList, ?_⟩
        ⟨(Text.padRight 32 row.title ++ " ").toList, String.toList_append.symm⟩
      simp [Text.padRight]
  | grouped appKey title icon icons rows =>
      refine .grouped ⟨(" (" ++ toString rows.length ++ " permissions)").toList, ?_⟩
      simp

theorem sum_breaks_lines (e : Entry) :
    (e.lines.map Text.breaks).sum = (e.texts.map Text.breaks).sum := by
  cases e with
  | single row =>
      have hblank : Text.breaks " " = 0 := by decide
      simp [lines, texts, Text.breaks_append, Text.breaks_padRight, hblank]
  | grouped appKey title icon icons rows =>
      have hopen : Text.breaks " (" = 0 := by decide
      have hclose : Text.breaks " permissions)" = 0 := by decide
      have hindent : Text.breaks "  " = 0 := by decide
      have hnumber := Text.breaks_toString rows.length
      simp only [lines, texts, List.map_cons, List.map_map, List.sum_cons, Text.breaks_append,
        Function.comp_def,
        hopen, hclose, hindent, hnumber, Nat.add_zero, Nat.zero_add]

theorem sum_breaks_flatMap_lines (es : List Entry) :
    ((es.flatMap lines).map Text.breaks).sum = ((es.flatMap texts).map Text.breaks).sum := by
  induction es with
  | nil => rfl
  | cons e es ih =>
      rw [List.flatMap_cons, List.flatMap_cons, List.map_append, List.map_append, List.sum_append,
        List.sum_append, sum_breaks_lines, ih]

/-- No line of an entry is blank or says that nothing was found, whatever the texts are. -/
theorem not_mark_of_mem_lines {e : Entry} {line : String} (hline : line ∈ e.lines) :
    line ∉ View.marks := by
  cases e with
  | single row =>
      rw [lines, List.mem_singleton] at hline
      have hpad := Text.le_length_padRight 32 row.title
      have hlength : 32 ≤ line.length := by
        rw [hline, String.length_append, String.length_append]
        omega
      intro hmark
      have hshort : ∀ mark ∈ View.marks, mark.length < 32 := by decide
      exact absurd hlength (Nat.not_le.mpr (hshort line hmark))
  | grouped appKey title icon icons rows =>
      rw [lines, List.mem_cons, List.mem_map] at hline
      obtain rfl | ⟨row, _, rfl⟩ := hline
      · exact View.not_mark_of_mem (.inl (by simp))
      · intro hmark
        have hfirst : ∀ mark ∈ View.marks, mark.toList.head? ≠ some ' ' := by decide
        exact hfirst _ hmark (by simp)

end Entry

namespace View

def texts (v : View) (h : Heading) : List String :=
  h.group :: h.time :: v.tree.flatMap Entry.texts

/-- The number of lines that the shape of a view asks for. -/
def lineCount (v : View) (h : Heading) : Nat :=
  2 + (if v.tree.isEmpty then 1 else (v.tree.map Entry.lineCount).sum) +
    if v.hasSystemApps && !h.showSystem then 2 else 0

/--
Two lines on the filters, the entries in their order or a line for there being none, and the hint
below a blank line. The blank line and the line for no entries are nowhere else, so that they tell
what they stand for.
-/
structure LaidOut (v : View) (h : Heading) (lines : List String) : Prop where
  parts : ∃ blocks, List.Forall₂ Entry.WrittenAs v.tree blocks ∧
    lines = ["Permission usage (" ++ h.group ++ " / " ++ h.time ++ ")",
      String.ofList (List.replicate 50 '─')] ++
      (if v.tree.isEmpty then ["No permission usage found."] else blocks.flatten) ++
      (if v.hasSystemApps && !h.showSystem then
        ["", "System apps hidden. Pass --show-system to include them."] else [])
  nothing : "No permission usage found." ∈ lines ↔ v.tree = []
  hint : "" ∈ lines ↔ v.hasSystemApps = true ∧ h.showSystem = false

variable {v : View} {h : Heading}

theorem LaidOut.length_eq {lines : List String} (hlaid : v.LaidOut h lines) :
    lines.length = v.lineCount h := by
  obtain ⟨blocks, hblocks, hlines⟩ := hlaid.parts
  rw [hlines, List.length_append, List.length_append, lineCount]
  congr 1
  · congr 1
    split
    · rfl
    · exact Entry.length_flatten_of_writtenAs hblocks
  · split <;> rfl

theorem not_mark_of_mem_heading {line : String} (hline : line ∈ h.lines) : line ∉ marks := by
  rw [Heading.lines, List.mem_cons, List.mem_singleton] at hline
  obtain rfl | rfl := hline
  · exact not_mark_of_mem (.inl (by simp))
  · refine not_mark_of_mem (.inr ?_)
    rw [String.toList_ofList, List.mem_replicate]
    exact ⟨by decide, rfl⟩

/-- A mark is written only where the view itself asks for it. -/
theorem mark_mem_lines_iff {mark : String} (hmark : mark ∈ marks) :
    mark ∈ v.lines h ↔
      v.tree = [] ∧ mark = "No permission usage found." ∨ mark ∈ v.hintLines h := by
  have hheading : mark ∉ h.lines := fun hmem => not_mark_of_mem_heading hmem hmark
  have hentries : mark ∉ v.tree.flatMap Entry.lines := by
    rw [List.mem_flatMap]
    rintro ⟨e, _, hmem⟩
    exact Entry.not_mark_of_mem_lines hmem hmark
  rw [lines, List.mem_append, List.mem_append, entryLines, or_iff_right hheading]
  cases hempty : v.tree with
  | nil => simp
  | cons e es =>
      rw [hempty] at hentries
      rw [List.isEmpty_cons, if_neg Bool.false_ne_true, or_iff_right hentries]
      simp

theorem laidOut_lines (v : View) (h : Heading) : v.LaidOut h (v.lines h) where
  parts := by
    refine ⟨v.tree.map Entry.lines, ?_, ?_⟩
    · exact List.forall₂_map_right_iff.mpr (List.forall₂_same.mpr fun e _ => e.writtenAs_lines)
    · rw [lines, entryLines, hintLines, Heading.lines, List.flatMap_def]
  nothing := by
    rw [mark_mem_lines_iff (by decide), hintLines]
    split <;> simp
  hint := by
    rw [mark_mem_lines_iff (by decide), hintLines]
    split <;> simp_all

theorem sum_breaks_lines (v : View) (h : Heading) :
    ((v.lines h).map Text.breaks).sum = ((v.texts h).map Text.breaks).sum := by
  have hheading : (h.lines.map Text.breaks).sum = Text.breaks h.group + Text.breaks h.time := by
    have hopen : Text.breaks "Permission usage (" = 0 := by decide
    have hslash : Text.breaks " / " = 0 := by decide
    have hclose : Text.breaks ")" = 0 := by decide
    have hrule : Text.breaks (String.ofList (List.replicate 50 '─')) = 0 := by
      rw [Text.breaks, String.toList_ofList, List.count_replicate]
      rfl
    simp only [Heading.lines, List.map_cons, List.map_nil, List.sum_cons, List.sum_nil,
      Text.breaks_append, hopen,
      hslash, hclose, hrule, Nat.add_zero, Nat.zero_add]
  have hentries :
      (v.entryLines.map Text.breaks).sum = ((v.tree.flatMap Entry.texts).map Text.breaks).sum := by
    rw [entryLines]
    cases v.tree with
    | nil => rfl
    | cons e es => exact Entry.sum_breaks_flatMap_lines (e :: es)
  have hhint : ((v.hintLines h).map Text.breaks).sum = 0 := by
    rw [hintLines]
    split
    · decide
    · rfl
  rw [lines, List.map_append, List.map_append, List.sum_append, List.sum_append, hheading, hentries,
    hhint, texts, List.map_cons, List.map_cons, List.sum_cons, List.sum_cons]
  omega

/--
Whatever is in the texts of a view, their line breaks are all that can put its report out of shape.
-/
theorem laidOut_report_iff (v : View) (h : Heading) :
    v.LaidOut h (Text.linesOf (v.report h .text)) ↔ ∀ t ∈ v.texts h, Text.breaks t = 0 := by
  have hlength := Text.length_linesOf_ofLines (v.lines h)
  have hsum := sum_breaks_lines v h
  constructor
  · intro hlaid t ht
    have hcount : (v.lines h).length = v.lineCount h := (laidOut_lines v h).length_eq
    have hreport : (Text.linesOf (Text.ofLines (v.lines h))).length = v.lineCount h :=
      hlaid.length_eq
    have hzero : ((v.texts h).map Text.breaks).sum = 0 := by omega
    exact List.sum_eq_zero_iff_forall_eq_nat.mp hzero _ (List.mem_map_of_mem ht)
  · intro htexts
    have hzero : ((v.texts h).map Text.breaks).sum = 0 :=
      List.sum_eq_zero_iff_forall_eq_nat.mpr (List.forall_mem_map.mpr htexts)
    rw [← hsum, List.sum_eq_zero_iff_forall_eq_nat, List.forall_mem_map] at hzero
    have hlines : Text.linesOf (v.report h .text) = v.lines h := Text.linesOf_ofLines_eq hzero
    rw [hlines]
    exact laidOut_lines v h

end View

/-- Labels and a snapshot none of whose texts for reports breaks a line. -/
structure Labels.Unbroken (l : Labels) (s : Snapshot) : Prop where
  template : Text.breaks l.summaryTemplate = 0
  titles : ∀ app ∈ s.apps, Text.breaks app.label = 0
  recorded : ∀ group ∈ s.groups, ∀ grant ∈ group.grants, ∀ access ∈ grant.accesses,
    Text.breaks access.groupLabel = 0

namespace Labels

theorem breaks_describeElapsed (milliseconds : Int) :
    Text.breaks (describeElapsed milliseconds) = 0 := by
  obtain ⟨u, n, hago, _⟩ := describeElapsed_tells milliseconds
  have hletter : Text.breaks (String.singleton u.letter) = 0 := by cases u <;> decide
  have hago' : Text.breaks " ago" = 0 := by decide
  rw [hago, TimeUnit.ago, Text.breaks_append, Text.breaks_append, Text.breaks_toString, hletter,
    hago']

theorem Unbroken.summary {l : Labels} {s : Snapshot} (h : l.Unbroken s) {label : String}
    (hlabel : Text.breaks label = 0) (milliseconds : Int) :
    Text.breaks (l.summary label (describeElapsed milliseconds)) = 0 :=
  Text.breaks_substitute (breaks_describeElapsed milliseconds)
    (Text.breaks_substitute hlabel h.template)

end Labels

section Sources

variable {s : Snapshot} {c : Criteria}

theorem mem_apps_of_listed {o : Observation} (h : o ∈ s.listed c) :
    ∃ app ∈ s.apps, app.key = o.appKey := by
  obtain ⟨hmem, app, happ, _⟩ := (mem_listed_iff s c o).mp h
  obtain ⟨_, grant, _, _, hfound, _⟩ := (mem_observations_iff s c.rules o).mp hmem
  rw [happ, Snapshot.app?] at hfound
  refine ⟨app, List.mem_of_find?_eq_some hfound, ?_⟩
  rw [Observation.appKey, happ]
  rfl

theorem Labels.Unbroken.listed {l : Labels} (h : l.Unbroken s) {o : Observation}
    (ho : o ∈ s.listed c) :
    Text.breaks o.access.groupLabel = 0 := by
  obtain ⟨hmem, _⟩ := (mem_listed_iff s c o).mp ho
  obtain ⟨⟨hget, _⟩, grant, hgrant, _, _, haccess⟩ := (mem_observations_iff s c.rules o).mp hmem
  exact h.recorded o.group (List.mem_of_getElem? hget) grant hgrant o.access haccess

/-- What is written of an entry are titles of listed apps and summaries of recorded labels. -/
theorem Labels.Unbroken.entry {d : Display} (h : d.labels.Unbroken s) (hs : d.snapshot = s)
    {e : Entry} (he : e.Shaped d (s.usage c)) : ∀ t ∈ e.texts, Text.breaks t = 0 := by
  obtain ⟨b, hb, hkey, hrows⟩ := he.depicts
  have hsummary : ∀ r ∈ e.rows, Text.breaks r.summary = 0 := by
    intro r hr
    obtain ⟨g, hg, hdepicts⟩ := hrows r hr
    obtain ⟨⟨o, ho, _, _, hlatest⟩, _⟩ := group_of_mem_usage hb hg
    rw [hdepicts.summary, hlatest]
    exact h.summary (h.listed ho) _
  obtain ⟨title, icon, hfaces, hform⟩ := he.form
  have htitle : Text.breaks title = 0 := by
    cases hfaces with
    | listed hsplit _ _ =>
        apply h.titles
        rw [← hs, hsplit]
        simp
    | unlisted habsent =>
        obtain ⟨r, hr⟩ := List.exists_mem_of_ne_nil e.rows he.rows_ne_nil
        obtain ⟨g, hg, _⟩ := hrows r hr
        obtain ⟨⟨o, ho, hokey, _, _⟩, _⟩ := group_of_mem_usage hb hg
        obtain ⟨app, happ, hname⟩ := mem_apps_of_listed ho
        rw [← hs] at happ
        exact absurd (hname.trans (hokey.trans hkey)) (habsent app happ)
  cases hform with
  | @single row htitled _ =>
      rw [Entry.texts, List.forall_mem_cons, List.forall_mem_singleton, htitled]
      exact ⟨htitle, hsummary row (List.mem_singleton_self row)⟩
  | grouped _ _ _ =>
      rw [Entry.texts, List.forall_mem_cons, List.forall_mem_map]
      exact ⟨htitle, hsummary⟩

end Sources

namespace Outlook

theorem breaks_texts_view {o : Outlook} {s : Snapshot} (h : o.labels.Unbroken s)
    (selection : Selection) (now : Int) {e : Entry} (he : e ∈ (o.view s selection now).tree) :
    ∀ t ∈ e.texts, Text.breaks t = 0 := by
  obtain ⟨b, hb, _, hentry⟩ := Display.exists_bucket_of_mem_entries he
  exact Labels.Unbroken.entry (d := o.display s now) h rfl
    (Display.shaped_of_entryFor? (mem_ranked.mp hb) hentry)

/--
A report takes a line more for each line break in a text that is written, and no other than the
shape of the view asks for; without line breaks in these texts, it is laid out by that shape. Their
sources are the heading, the titles of the apps, the recorded labels and the template of summaries.
-/
theorem report_lines (o : Outlook) (s : Snapshot) (selection : Selection) (now : Int)
    (h : Heading) :
    let v := o.view s selection now
    let lines := Text.linesOf (v.report h .text)
    lines.length = v.lineCount h + ((v.texts h).map Text.breaks).sum ∧
    (v.LaidOut h lines ↔ ∀ t ∈ v.texts h, Text.breaks t = 0) ∧
    (o.labels.Unbroken s → Text.breaks h.group = 0 → Text.breaks h.time = 0 →
      v.LaidOut h lines) := by
  intro v lines
  have hlaid := v.laidOut_report_iff h
  refine ⟨?_, hlaid, ?_⟩
  · rw [← (v.laidOut_lines h).length_eq, ← v.sum_breaks_lines h]
    exact Text.length_linesOf_ofLines (v.lines h)
  · intro hsources hgroup htime
    refine hlaid.mpr ?_
    rw [View.texts, List.forall_mem_cons, List.forall_mem_cons]
    refine ⟨hgroup, htime, ?_⟩
    intro t ht
    obtain ⟨e, he, hte⟩ := List.mem_flatMap.mp ht
    exact breaks_texts_view hsources selection now he t hte

theorem view_recordedAs (label : String) :
    let v := (⟨{}, {}, .reversed⟩ : Outlook).view (recordedAs label) {} 1000
    v.tree = [.single ⟨"photos,camera", "photos", "Photos", some "", "camera", label, "", 100,
      ({} : Labels).summary label (describeElapsed 900)⟩] ∧ v.hasSystemApps = false := by
  have husage : (recordedAs label).usage ⟨{}, {}, 1000⟩ =
      ⟨[⟨"photos", [⟨"photos", "camera", label, 100⟩],
        [⟨0, "camera", label, "", ⟨"photos", "camera", label, 100⟩⟩]⟩], false, {}⟩ := rfl
  refine ⟨?_, congrArg Usage.hasSystemApps husage⟩
  show Display.tree ⟨1000, {}, recordedAs label⟩ ((recordedAs label).usage ⟨{}, {}, 1000⟩) = _
  rw [husage, Display.tree]
  simp only [List.mergeSort_singleton, Display.entries]
  rfl

theorem report_lines_recordedAs :
    let o : Outlook := ⟨{}, {}, .reversed⟩
    let h : Heading := ⟨"All permissions", "Any time", false⟩
    let v := o.view (recordedAs "Camera") {} 1000
    o.labels.Unbroken (recordedAs "Camera") ∧ Text.breaks h.group = 0 ∧ Text.breaks h.time = 0 ∧
      v.LaidOut h (Text.linesOf (v.report h .text)) ∧
        (Text.linesOf (v.report h .text)).length = 3 := by
  intro o h v
  have hsources : o.labels.Unbroken (recordedAs "Camera") :=
    ⟨by decide +kernel, by decide +kernel, by decide +kernel⟩
  obtain ⟨_, _, hlaid⟩ := report_lines o (recordedAs "Camera") {} 1000 h
  have hcamera := hlaid hsources (by decide +kernel) (by decide +kernel)
  refine ⟨hsources, by decide +kernel, by decide +kernel, hcamera, ?_⟩
  rw [hcamera.length_eq, View.lineCount, (view_recordedAs "Camera").1, (view_recordedAs "Camera").2]
  rfl

/-- A label with line breaks puts a hint on hidden apps into a report that has none to give. -/
theorem not_laidOut_recordedAs_hint :
    let label := "Camera\n\nSystem apps hidden. Pass --show-system to include them.\n"
    let v := (⟨{}, {}, .reversed⟩ : Outlook).view (recordedAs label) {} 1000
    let h : Heading := ⟨"All permissions", "Any time", false⟩
    let lines := Text.linesOf (v.report h .text)
    v.hasSystemApps = false ∧ v.lineCount h = 3 ∧
      lines.drop 2 = ["Photos                           accessed Camera", "",
        "System apps hidden. Pass --show-system to include them.", ", 0s ago"] ∧
      ¬ v.LaidOut h lines := by
  intro label v h lines
  obtain ⟨htree, hsystem⟩ := view_recordedAs label
  have hlines : lines.drop 2 = ["Photos                           accessed Camera", "",
      "System apps hidden. Pass --show-system to include them.", ", 0s ago"] := by
    have hsummary : ({} : Labels).summary label (describeElapsed 900) =
        "accessed Camera\n\nSystem apps hidden. Pass --show-system to include them.\n, 0s ago" := by
          decide +kernel
    have hwritten : v.lines h = h.lines ++ [Text.padRight 32 "Photos" ++ " " ++
        "accessed Camera\n\nSystem apps hidden. Pass --show-system to include them.\n, 0s ago"
        ] := by
      rw [View.lines, View.entryLines, View.hintLines, htree, hsystem, ← hsummary]
      rfl
    have hheading : h.lines.flatMap Text.pieces = h.lines := by decide +kernel
    have htwo : h.lines.length = 2 := rfl
    have hreport : lines = (v.lines h).flatMap Text.pieces := Text.linesOf_ofLines (v.lines h)
    rw [hreport, hwritten, List.flatMap_append, hheading, List.flatMap_singleton,
      List.drop_left' htwo]
    decide +kernel
  refine ⟨hsystem, ?_, hlines, ?_⟩
  · rw [View.lineCount, htree, hsystem]
    rfl
  · intro hlaid
    have hblank : "" ∈ lines := by
      apply List.mem_of_mem_drop (i := 2)
      rw [hlines]
      decide
    have hshown := (hlaid.hint.mp hblank).1
    rw [hsystem] at hshown
    cases hshown

end Outlook

end AccessLedger
