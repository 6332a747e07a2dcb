import AccessLedger.Proofs.Json.Member
import AccessLedger.Proofs.Json.Unambiguous
import AccessLedger.Proofs.Json.Value
import AccessLedger.Proofs.Usage.Rows
import AccessLedger.Report

/-!
Reports for programs and what they tell. A report is one JSON text whatever characters are in the
view, and the only document that it denotes tells the heading, the flag and the list, entry by
entry. None of these can change without the report.
-/

namespace AccessLedger
open Json

/-- A name under which always the same text stands. -/
def fixedMember {α : Type} (name text : String) : Member α :=
  ⟨⟨name, String, fun _ => text⟩, IsText, none⟩

/-- Documents for values that there are; nothing is written for one that there is not. -/
def IsGiven {α : Type} (Stands : α → Document → Prop) (a? : Option α) (d : Document) : Prop :=
  ∃ a, a? = some a ∧ Stands a d

def IsNumber (n : Int) (d : Document) : Prop :=
  d = .integer n

namespace Row

def members : List (Member Row) := [
  ⟨⟨"key", String, Row.key⟩, IsText, none⟩,
  ⟨⟨"app_key", String, Row.appKey⟩, IsText, none⟩,
  ⟨⟨"title", String, Row.title⟩, IsText, none⟩,
  ⟨⟨"app_icon", Option String, Row.appIcon⟩, IsGiven IsText, some none⟩,
  ⟨⟨"group_name", String, Row.groupName⟩, IsText, none⟩,
  ⟨⟨"group_label", String, Row.groupLabel⟩, IsText, none⟩,
  ⟨⟨"group_icon", String, Row.groupIcon⟩, IsText, none⟩,
  ⟨⟨"last_access_ms", Int, Row.time⟩, IsNumber, none⟩,
  ⟨⟨"summary", String, Row.summary⟩, IsText, none⟩]

def DescribedBy (r : Row) (d : Document) : Prop :=
  IsObjectOf members r d

end Row

/-- An app with several rows, as one record. -/
structure GroupedEntry where
  appKey : String
  title : String
  icon : String
  groupIcons : List String
  rows : List Row

namespace GroupedEntry

def members : List (Member GroupedEntry) := [
  ⟨⟨"app_key", String, GroupedEntry.appKey⟩, IsText, none⟩,
  ⟨⟨"title", String, GroupedEntry.title⟩, IsText, none⟩,
  ⟨⟨"icon", String, GroupedEntry.icon⟩, IsText, none⟩,
  ⟨⟨"group_icons", List String, GroupedEntry.groupIcons⟩, IsListOf IsText, none⟩,
  ⟨⟨"children", List Row, GroupedEntry.rows⟩, IsListOf Row.DescribedBy, none⟩]

end GroupedEntry

/-- Entries tell their kind by name. -/
inductive Entry.DescribedBy : Entry → Document → Prop
  | single {row : Row} {d : Document}
      (h : IsObjectOf (fixedMember "kind" "single" :: Row.members) row d) :
      DescribedBy (single row) d
  | grouped {appKey title icon : String} {groupIcons : List String} {rows : List Row}
      {d : Document}
      (h : IsObjectOf (fixedMember "kind" "grouped" :: GroupedEntry.members)
        ⟨appKey, title, icon, groupIcons, rows⟩ d) :
      DescribedBy (grouped appKey title icon groupIcons rows) d

def Heading.members : List (Member Heading) := [
  ⟨⟨"group", String, Heading.group⟩, IsText, none⟩,
  ⟨⟨"time", String, Heading.time⟩, IsText, none⟩,
  ⟨⟨"show_system", Bool, Heading.showSystem⟩, IsBool, none⟩]

/-- What a report tells. -/
structure Told where
  heading : Heading
  hasSystemApps : Bool
  entries : List Entry

namespace Told

def members : List (Member Told) := [
  fixedMember "version" "0.1",
  ⟨⟨"filters", Heading, Told.heading⟩, IsObjectOf Heading.members, none⟩,
  ⟨⟨"has_system_apps", Bool, Told.hasSystemApps⟩, IsBool, none⟩,
  ⟨⟨"entries", List Entry, Told.entries⟩, IsListOf Entry.DescribedBy, none⟩]

def DescribedBy (t : Told) (d : Document) : Prop :=
  IsObjectOf members t d

end Told

def View.told (v : View) (h : Heading) : Told :=
  ⟨h, v.hasSystemApps, v.tree⟩

section Identity

theorem leftUnique_isNumber : Relator.LeftUnique IsNumber := by
  intro n d m hn hm
  rw [IsNumber] at hn hm
  exact Document.integer.inj (hn.symm.trans hm)

theorem leftUnique_isGiven {α : Type} {Stands : α → Document → Prop}
    (h : Relator.LeftUnique Stands) :
    Relator.LeftUnique (IsGiven Stands) := by
  rintro _ d _ ⟨a, rfl, ha⟩ ⟨b, rfl, hb⟩
  rw [h ha hb]

/-- What is fixed tells nothing about a record. -/
theorem identifying_fixedMember {α : Type} {members : List (Member α)} (h : Identifying members)
    (name text : String) : Identifying (fixedMember name text :: members) where
  determine a b hparts := by
    rw [List.map_cons, List.forall_mem_cons] at hparts
    exact h.determine a b hparts.2
  leftUnique := List.forall_mem_cons.mpr ⟨leftUnique_isText, h.leftUnique⟩

/-- What is fixed differently tells documents apart. -/
theorem text_eq_of_isObjectOf {α β : Type} {ms : List (Member α)} {ms' : List (Member β)}
    {name text text' : String} {x : α} {y : β} {d : Document}
    (hx : IsObjectOf (fixedMember name text :: ms) x d)
    (hy : IsObjectOf (fixedMember name text' :: ms') y d) : text = text' := by
  obtain ⟨fields, rfl, hx⟩ := hx
  obtain ⟨_, hfields, hy⟩ := hy
  cases hfields
  by_cases hname : name ∈ fields.map (·.1)
  · obtain ⟨⟨_, doc⟩, hentry, rfl⟩ := List.mem_map.mp hname
    exact leftUnique_isText (hx.named _ (List.mem_cons_self ..) doc hentry)
      (hy.named _ (List.mem_cons_self ..) doc hentry)
  · cases hx.unnamed _ (List.mem_cons_self ..) hname

theorem Row.identifying : Identifying Row.members where
  determine a b h := by
    cases a
    cases b
    simpa [members] using h
  leftUnique := by
    simp only [members, List.forall_mem_cons]
    exact ⟨leftUnique_isText, leftUnique_isText, leftUnique_isText,
      leftUnique_isGiven leftUnique_isText, leftUnique_isText, leftUnique_isText,
      leftUnique_isText, leftUnique_isNumber, leftUnique_isText, nofun⟩

theorem GroupedEntry.identifying : Identifying GroupedEntry.members where
  determine a b h := by
    cases a
    cases b
    simpa [members] using h
  leftUnique := by
    simp only [members, List.forall_mem_cons]
    exact ⟨leftUnique_isText, leftUnique_isText, leftUnique_isText,
      leftUnique_isListOf leftUnique_isText,
      leftUnique_isListOf Row.identifying.leftUnique_isObjectOf, nofun⟩

/-- Single and grouped entries are told apart by their kinds. -/
theorem Entry.leftUnique_describedBy : Relator.LeftUnique Entry.DescribedBy := by
  intro e d e' he he'
  cases he with
  | single h =>
      cases he' with
      | single h' =>
          rw [(identifying_fixedMember Row.identifying _ _).leftUnique_isObjectOf h h']
      | grouped h' => exact absurd (text_eq_of_isObjectOf h h') (by decide)
  | grouped h =>
      cases he' with
      | single h' => exact absurd (text_eq_of_isObjectOf h h') (by decide)
      | grouped h' =>
          cases (identifying_fixedMember GroupedEntry.identifying _ _).leftUnique_isObjectOf h h'
          rfl

theorem Heading.identifying : Identifying Heading.members where
  determine a b h := by
    cases a
    cases b
    simpa [members] using h
  leftUnique := by
    simp only [members, List.forall_mem_cons]
    exact ⟨leftUnique_isText, leftUnique_isText, leftUnique_isBool, nofun⟩

theorem Told.identifying : Identifying Told.members where
  determine a b h := by
    cases a
    cases b
    simpa [members, fixedMember] using h
  leftUnique := by
    simp only [members, List.forall_mem_cons]
    exact ⟨leftUnique_isText, Heading.identifying.leftUnique_isObjectOf, leftUnique_isBool,
      leftUnique_isListOf Entry.leftUnique_describedBy, nofun⟩

end Identity

section Documents

/-- A row without an icon is written without the name for it. -/
theorem Row.exists_kept (r : Row) :
    ∃ kept : List (Member Row), kept.Sublist members ∧
      List.Forall₂ (fun m entry => m.name = entry.1 ∧ m.Stands (m.get r) entry.2) kept r.fields ∧
      ∀ m ∈ members, m ∈ kept ∨ m.usual = some (m.get r) := by
  have hback :
      List.Forall₂ (fun (m : Member Row) entry => m.name = entry.1 ∧ m.Stands (m.get r) entry.2)
      (members.drop 4) [("group_name", .text r.groupName), ("group_label", .text r.groupLabel),
        ("group_icon", .text r.groupIcon), ("last_access_ms", .integer r.time),
          ("summary", .text r.summary)] :=
    .cons ⟨rfl, rfl⟩
      (.cons ⟨rfl, rfl⟩ (.cons ⟨rfl, rfl⟩ (.cons ⟨rfl, rfl⟩ (.cons ⟨rfl, rfl⟩ .nil))))
  cases hicon : r.appIcon with
  | some icon =>
      refine ⟨members, List.Sublist.refl members, ?_, fun m hm => .inl hm⟩
      rw [fields, hicon]
      exact .cons ⟨rfl, rfl⟩
        (.cons ⟨rfl, rfl⟩ (.cons ⟨rfl, rfl⟩ (.cons ⟨rfl, icon, hicon, rfl⟩ hback)))
  | none =>
      refine ⟨members.eraseIdx 3, List.eraseIdx_sublist members 3, ?_, ?_⟩
      · rw [fields, hicon]
        exact .cons ⟨rfl, rfl⟩ (.cons ⟨rfl, rfl⟩ (.cons ⟨rfl, rfl⟩ hback))
      · have hsplit : members = members.take 3 ++
            ⟨⟨"app_icon", Option String, Row.appIcon⟩, IsGiven IsText, some none⟩ ::
              members.drop 4 := rfl
        intro m hm
        rw [hsplit, List.mem_append, List.mem_cons] at hm
        obtain hm | rfl | hm := hm
        · exact .inl (List.mem_append_left (members.drop 4) hm)
        · exact .inr (congrArg some hicon.symm)
        · exact .inl (List.mem_append_right (members.take 3) hm)

theorem Row.describedBy_document (r : Row) : r.DescribedBy (.object r.fields) := by
  obtain ⟨kept, hkept, hfields, hleft⟩ := r.exists_kept
  exact ⟨_, rfl, describes_kept hfields hkept (by decide) hleft⟩

theorem Entry.describedBy_document (e : Entry) : e.DescribedBy e.document := by
  cases e with
  | single row =>
      obtain ⟨kept, hkept, hfields, hleft⟩ := row.exists_kept
      refine .single
        ⟨_, rfl, describes_kept (.cons ⟨rfl, rfl⟩ hfields) (hkept.cons_cons _) (by decide) ?_⟩
      rw [List.forall_mem_cons]
      exact ⟨.inl (List.mem_cons_self ..),
        fun m hm => (hleft m hm).imp_left (List.mem_cons_of_mem _)⟩
  | grouped appKey title icon groupIcons rows =>
      have hicons : IsListOf IsText groupIcons (.list (groupIcons.map .text)) :=
        isListOf_map fun _ _ => rfl
      have hrows : IsListOf Row.DescribedBy rows (.list (rows.map fun row => .object row.fields)) :=
        isListOf_map fun row _ => row.describedBy_document
      refine .grouped ⟨_, rfl, describes_all ?_ (by decide)⟩
      exact .cons ⟨rfl, rfl⟩
        (.cons ⟨rfl, rfl⟩ (.cons ⟨rfl, rfl⟩ (.cons ⟨rfl, rfl⟩ (.cons ⟨rfl, hicons⟩
        (.cons ⟨rfl, hrows⟩ .nil)))))

theorem View.describedBy_document (v : View) (h : Heading) :
    (v.told h).DescribedBy (v.document h) := by
  have hheading : IsObjectOf Heading.members h h.document := by
    refine ⟨_, rfl, describes_all ?_ (by decide)⟩
    exact .cons ⟨rfl, rfl⟩ (.cons ⟨rfl, rfl⟩ (.cons ⟨rfl, rfl⟩ .nil))
  have hentries : IsListOf Entry.DescribedBy v.tree (.list (v.tree.map Entry.document)) :=
    isListOf_map fun e _ => e.describedBy_document
  refine ⟨_, rfl, describes_all ?_ (by decide)⟩
  exact .cons ⟨rfl, rfl⟩ (.cons ⟨rfl, hheading⟩ (.cons ⟨rfl, rfl⟩ (.cons ⟨rfl, hentries⟩ .nil)))

end Documents

section Nesting

/-- Times of accesses that 64 bits and a sign have room for. -/
def View.TimesFit (v : View) : Prop :=
  ∀ r ∈ rowsOf v.tree, -int64Limit ≤ r.time ∧ r.time < int64Limit

/-- How deep a document may be nested that is read. -/
def nestingLimit : Nat := 128

variable {depth : Nat}

theorem Row.fits_fields {r : Row} (hr : -int64Limit ≤ r.time ∧ r.time < int64Limit) :
    ∀ f ∈ r.fields, f.2.Fits (depth + 1) := by
  have hlimit : int64Limit < nat64Count := by decide
  have htime : (Document.integer r.time).Fits (depth + 1) := .integer hr.1 (by omega)
  rw [fields, List.forall_mem_append, List.forall_mem_append]
  refine ⟨⟨?_, ?_⟩, ?_⟩
  · simp only [List.forall_mem_cons]
    exact ⟨.text _, .text _, .text _, nofun⟩
  · cases r.appIcon with
    | none => exact nofun
    | some icon => exact List.forall_mem_singleton.mpr (.text icon)
  · simp only [List.forall_mem_cons]
    exact ⟨.text _, .text _, .text _, htime, .text _, nofun⟩

theorem Entry.fits_document {e : Entry}
    (h : ∀ r ∈ e.rows, -int64Limit ≤ r.time ∧ r.time < int64Limit) :
    e.document.Fits (depth + 4) := by
  cases e with
  | single row =>
      have hrow : ∀ f ∈ row.fields, f.2.Fits (depth + 3) :=
        Row.fits_fields (h row (List.mem_singleton_self row))
      exact .object (List.forall_mem_cons.mpr ⟨.text _, hrow⟩)
  | grouped appKey title icon groupIcons rows =>
      have hicons : (Document.list (groupIcons.map .text)).Fits (depth + 3) :=
        .list (List.forall_mem_map.mpr fun _ _ => .text _)
      have hrows : (Document.list (rows.map fun row => .object row.fields)).Fits (depth + 3) :=
        .list (List.forall_mem_map.mpr fun row hrow => .object (Row.fits_fields (h row hrow)))
      refine .object ?_
      simp only [List.forall_mem_cons]
      exact ⟨.text _, .text _, .text _, .text _, hicons, hrows, nofun⟩

theorem View.fits_document {v : View} (hv : v.TimesFit) (h : Heading) :
    (v.document h).Fits nestingLimit := by
  have hheading : h.document.Fits 127 := by
    refine .object ?_
    simp only [List.forall_mem_cons]
    exact ⟨.text _, .text _, .bool _, nofun⟩
  have hentry : ∀ e ∈ v.tree, e.document.Fits (122 + 4) :=
    fun e he => Entry.fits_document fun r hr => hv r (List.mem_flatMap.mpr ⟨e, he, hr⟩)
  have hentries : (Document.list (v.tree.map Entry.document)).Fits 127 :=
    .list (List.forall_mem_map.mpr hentry)
  refine .object ?_
  simp only [List.forall_mem_cons]
  exact ⟨.text _, hheading, .bool _, hentries, nofun⟩

end Nesting

namespace View

/-- The characters of a report are those of its document and a line break. -/
theorem toList_report_json (v : View) (h : Heading) :
    (v.report h .json).toList = Layout.lines.write 0 (v.document h) ++ ['\n'] := by
  rw [Layout.write_lines]
  simp [report, Text.ofLines, Document.pretty]

theorem runWhole_report_json {v : View} (hv : v.TimesFit) (h : Heading) :
    (Decoder.document nestingLimit).runWhole (RawText.ofString (v.report h .json)) =
      .ok (v.document h) := by
  have hbreak : AreBlanks ['\n'] := by
    intro c hc
    rw [List.mem_singleton.mp hc]
    rfl
  rw [RawText.ofString, toList_report_json]
  exact (reads_document (fits_document hv h)).runWhole_blanks .lines 0 hbreak

theorem denotes_report_json_iff (v : View) (h : Heading) (d : Document) :
    Denotes (Layout.lines.write 0 (v.document h)) d ↔ d = v.document h := by
  have hdenotes := Layout.denotes_write .lines 0 (v.document h)
  constructor
  · intro hd
    exact hd.eq hdenotes
  · rintro rfl
    exact hdenotes

theorem describedBy_document_iff (v : View) (h : Heading) (t : Told) :
    t.DescribedBy (v.document h) ↔ t = v.told h := by
  have hdescribed := describedBy_document v h
  constructor
  · intro ht
    exact Told.identifying.leftUnique_isObjectOf ht hdescribed
  · rintro rfl
    exact hdescribed

theorem document_eq_of_report {v v' : View} {h h' : Heading}
    (heq : v'.report h' .json = v.report h .json) :
    v'.document h' = v.document h := by
  have hlists := congrArg String.toList heq
  rw [toList_report_json, toList_report_json] at hlists
  have htexts := List.append_cancel_right hlists
  rw [← denotes_report_json_iff v h, ← htexts]
  exact Layout.denotes_write .lines 0 _

/--
A report for programs is one text in the grammar of JSON and a line break. The text denotes one
document, which is read from the report and tells the heading, the flag and the list of the view and
nothing else, so that reports are the same only where these are.
-/
theorem report_json_tells (v : View) (h : Heading) :
    (∃ text d, (v.report h .json).toList = text ++ ['\n'] ∧ (∀ d', Denotes text d' ↔ d' = d) ∧
      (v.TimesFit →
        (Decoder.document nestingLimit).runWhole (RawText.ofString (v.report h .json)) = .ok d) ∧
      ∀ t : Told, t.DescribedBy d ↔ t = v.told h) ∧
    ∀ (v' : View) (h' : Heading), v'.report h' .json = v.report h .json ↔
      v'.told h' = v.told h := by
  refine ⟨⟨_, v.document h, toList_report_json v h, denotes_report_json_iff v h,
    fun hv => runWhole_report_json hv h, describedBy_document_iff v h⟩, ?_⟩
  intro v' h'
  constructor
  · intro heq
    have hdescribed := describedBy_document v' h'
    rw [document_eq_of_report heq] at hdescribed
    exact (describedBy_document_iff v h _).mp hdescribed
  · intro htold
    obtain ⟨rfl, hsystem, htree⟩ := Told.mk.inj htold
    rw [report, report, document, document, hsystem, htree]

/--
An empty icon is not the same as none, and characters that need an escape are told as they are.
-/
theorem report_json_tells_icon :
    let row : Row := ⟨"k,g", "k", "\"K\"\n\\", some "", "g", "\x01é", "", -int64Limit, "s"⟩
    let v : View :=
      { tree := [.single row, .grouped "l" "L" "" [""] [{ row with appIcon := none }]] }
    let v' : View := { v with tree := .single { row with appIcon := none } :: v.tree.tail }
    let h : Heading := ⟨"All permissions", "Any time", true⟩
    v.TimesFit ∧
      (∃ d, (Decoder.document nestingLimit).runWhole (RawText.ofString (v.report h .json)) = .ok d ∧
        (v.told h).DescribedBy d ∧ ¬ (v'.told h).DescribedBy d) ∧
      v'.report h .json ≠ v.report h .json := by
  intro row v v' h
  have hv : v.TimesFit := by simp [TimesFit, v, row, rowsOf, Entry.rows, int64Limit]
  have htold : v'.told h ≠ v.told h := by
    intro heq
    have htree : v'.tree = v.tree := congrArg Told.entries heq
    exact absurd htree (by decide)
  obtain ⟨⟨_, d, _, _, hread, hdescribes⟩, hsame⟩ := report_json_tells v h
  refine ⟨hv, ⟨d, hread hv, (hdescribes _).mpr rfl, ?_⟩, ?_⟩
  · exact fun hd => htold ((hdescribes _).mp hd)
  · exact fun heq => htold ((hsame v' h).mp heq)

end View

end AccessLedger
