import Mathlib.Data.List.Nodup
import AccessLedger.Proofs.Json.Record

/-!
Objects that describe records. An object describes a record if every member that it names stands for
what the record has there and the record has what is usual wherever it names none. Members may come
in any order and among strings under other names. A decoder with a field for every member reads the
record from all that describe it.
-/

namespace AccessLedger.Json

/--
A part of a record with the documents that stand for its values, and the value that need not be
written.
-/
structure Member (α : Type) extends Part α where
  Stands : Kind → Document → Prop
  usual : Option Kind

section Kinds

def IsText (s : String) (d : Document) : Prop :=
  d = .text s

def IsBool (b : Bool) (d : Document) : Prop :=
  d = .bool b

/-- Integers that 64 bits and a sign have room for. -/
def IsInt64 (n : Int) (d : Document) : Prop :=
  d = .integer n ∧ -int64Limit ≤ n ∧ n < int64Limit

def IsListOf {α : Type} (Stands : α → Document → Prop) (as : List α) (d : Document) : Prop :=
  ∃ ds, d = .list ds ∧ List.Forall₂ Stands as ds

variable {α : Type} {d : Document}

theorem IsText.reads {s : String} (h : IsText s d) : Reads Decoder.string d s := by
  rw [IsText] at h
  rw [h]
  exact reads_string _ s

theorem IsBool.reads {b : Bool} (h : IsBool b d) : Reads Decoder.bool d b := by
  rw [IsBool] at h
  rw [h]
  exact reads_bool b

theorem IsInt64.reads {n : Int} (h : IsInt64 n d) : Reads Decoder.int64 d n := by
  obtain ⟨rfl, hlow, hhigh⟩ := h
  exact reads_int64 hlow hhigh

theorem IsListOf.reads {Stands : α → Document → Prop} {as : List α} {decoder : Decoder α}
    (hreads : ∀ a d, Stands a d → Reads decoder d a) (h : IsListOf Stands as d) :
    Reads (Decoder.list decoder) d as := by
  obtain ⟨ds, rfl, hall⟩ := h
  exact reads_list (hall.flip.imp fun d a ha => hreads a d ha)

theorem isListOf_map {Stands : α → Document → Prop} {document : α → Document} {as : List α}
    (h : ∀ a ∈ as, Stands a (document a)) : IsListOf Stands as (.list (as.map document)) := by
  refine ⟨_, rfl, ?_⟩
  rw [List.forall₂_map_right_iff, List.forall₂_same]
  exact h

theorem leftUnique_isText : Relator.LeftUnique IsText := by
  rintro s _ t rfl h
  exact Document.text.inj h

theorem leftUnique_isBool : Relator.LeftUnique IsBool := by
  rintro b _ c rfl h
  exact Document.bool.inj h

theorem leftUnique_isListOf {Stands : α → Document → Prop} (h : Relator.LeftUnique Stands) :
    Relator.LeftUnique (IsListOf Stands) := by
  rintro as _ bs ⟨ds, rfl, has⟩ ⟨_, hds, hbs⟩
  cases hds
  exact List.left_unique_forall₂' h has hbs

end Kinds

section Objects

variable {α : Type} {s : Shape α} {members : List (Member α)} {x : α}

/--
Members of a record in any order and among other strings; those that are left out are as usual.
-/
structure Describes (members : List (Member α)) (x : α) (fields : List (String × Document)) :
    Prop where
  nodup : (fields.map (·.1)).Nodup
  named : ∀ m ∈ members, ∀ d, (m.name, d) ∈ fields → m.Stands (m.get x) d
  unnamed : ∀ m ∈ members, m.name ∉ fields.map (·.1) → m.usual = some (m.get x)
  other : ∀ field ∈ fields, field.1 ∉ members.map (·.name) → ∃ t, field.2 = .text t

def IsObjectOf (members : List (Member α)) (x : α) (d : Document) : Prop :=
  ∃ fields, d = .object fields ∧ Describes members x fields

/-- A field of a decoder that reads a member. -/
structure Field.Gives (members : List (Member α)) (f : Field α) (m : Member α) : Prop where
  name : f.name = m.name
  required : f.required = m.usual.isNone
  reads : ∀ x d, m.Stands (m.get x) d →
    ∃ change, Reads f.decode d change ∧ Part.Fills (members.map Member.toPart) x m.name change

section Gives

variable {β : Type} {name : String} {get : α → β} {Stands : β → Document → Prop}
  {decoder : Decoder β} {set : β → α → α} (hreads : ∀ y d, Stands y d → Reads decoder d y)
  (hset : ∀ x, Part.Fills (members.map Member.toPart) x name (set (get x)))

include hreads hset

theorem Field.gives_mandatory :
    Field.Gives members (.mandatory name decoder set) ⟨⟨name, β, get⟩, Stands, none⟩ where
  name := rfl
  required := rfl
  reads x d hd := ⟨set (get x), (hreads (get x) d hd).map set, hset x⟩

theorem Field.gives_optional (usual : β) :
    Field.Gives members (.optional name decoder set) ⟨⟨name, β, get⟩, Stands, some usual⟩ where
  name := rfl
  required := rfl
  reads x d hd := ⟨set (get x), (hreads (get x) d hd).map set, hset x⟩

end Gives

/-- A decoder with a field for each member, which begins with what is usual. -/
structure Shape.Gives (s : Shape α) (members : List (Member α)) : Prop where
  fields : List.Forall₂ (Field.Gives members) s.fields members
  usual : ∀ m ∈ members, ∀ y ∈ m.usual, m.get s.initial = y
  determine : Part.Determine (members.map Member.toPart)

theorem exists_of_forall₂ {β γ : Type*} {R : β → γ → Prop} {bs : List β} {cs : List γ}
    (h : List.Forall₂ R bs cs) {b : β} (hb : b ∈ bs) : ∃ c ∈ cs, R b c := by
  induction h with
  | nil => cases hb
  | @cons b' c bs cs hrel _ ih =>
      rcases List.mem_cons.mp hb with rfl | hb
      · exact ⟨c, List.mem_cons_self .., hrel⟩
      · obtain ⟨c', hc', hrel'⟩ := ih hb
        exact ⟨c', List.mem_cons_of_mem _ hc', hrel'⟩

/--
An object with one entry for each of some members, in their order, where the others are as usual.
-/
theorem describes_kept {kept : List (Member α)} {fields : List (String × Document)}
    (h : List.Forall₂ (fun m entry => m.name = entry.1 ∧ m.Stands (m.get x) entry.2) kept fields)
    (hkept : kept.Sublist members) (hnodup : (members.map (·.name)).Nodup)
    (hleft : ∀ m ∈ members, m ∈ kept ∨ m.usual = some (m.get x)) : Describes members x fields where
  nodup := by
    have hnames : kept.map (·.name) = fields.map (·.1) := by
      clear hkept hleft
      induction h with
      | nil => rfl
      | cons hentry _ ih => rw [List.map_cons, List.map_cons, hentry.1, ih]
    exact hnames ▸ hnodup.sublist (hkept.map _)
  named m hm d hd := by
    obtain ⟨m', hm', hname, hstands⟩ := exists_of_forall₂ h.flip hd
    have hsame : m' = m := List.inj_on_of_nodup_map hnodup (hkept.subset hm') hm hname
    exact hsame ▸ hstands
  unnamed m hm hout := by
    rcases hleft m hm with hkeep | husual
    · obtain ⟨entry, hentry, hname, _⟩ := exists_of_forall₂ h hkeep
      exact absurd (hname ▸ List.mem_map_of_mem hentry) hout
    · exact husual
  other entry hentry hout := by
    obtain ⟨m, hm, hname, _⟩ := exists_of_forall₂ h.flip hentry
    exact absurd (hname ▸ List.mem_map_of_mem (hkept.subset hm)) hout

/-- An object with one entry for each member, in their order. -/
theorem describes_all {fields : List (String × Document)}
    (h : List.Forall₂ (fun m entry => m.name = entry.1 ∧ m.Stands (m.get x) entry.2) members fields)
    (hnodup : (members.map (·.name)).Nodup) : Describes members x fields :=
  describes_kept h (List.Sublist.refl members) hnodup fun _ hm => .inl hm

/-- Members that make up a record, each known from what stands for it. -/
structure Identifying (members : List (Member α)) : Prop where
  determine : Part.Determine (members.map Member.toPart)
  leftUnique : ∀ m ∈ members, Relator.LeftUnique m.Stands

theorem Identifying.leftUnique_isObjectOf (h : Identifying members) :
    Relator.LeftUnique (IsObjectOf members) := by
  rintro x d y ⟨fields, rfl, hx⟩ ⟨_, hfields, hy⟩
  cases hfields
  apply h.determine
  rw [List.forall_mem_map]
  intro m hm
  by_cases hname : m.name ∈ fields.map (·.1)
  · obtain ⟨⟨key, doc⟩, hentry, rfl⟩ := List.mem_map.mp hname
    exact h.leftUnique m hm (hx.named m hm doc hentry) (hy.named m hm doc hentry)
  · exact Option.some.inj ((hx.unnamed m hm hname).symm.trans (hy.unnamed m hm hname))

/-- Every entry of an object that describes a record is one that a good decoder admits. -/
theorem Describes.admits {fields : List (String × Document)} (hfields : Describes members x fields)
    (hshape : s.Gives members) {entry : String × Document} (hentry : entry ∈ fields) :
    s.Admits (members.map Member.toPart) x entry := by
  obtain ⟨key, doc⟩ := entry
  cases hfind : s.fields.find? (·.name == key) with
  | some f =>
      have hname : f.name = key := by simpa using List.find?_some hfind
      obtain ⟨m, hm, hgives⟩ := exists_of_forall₂ hshape.fields (List.mem_of_find?_eq_some hfind)
      have hkey : m.name = key := hgives.name.symm.trans hname
      have hstands := hfields.named m hm doc (hkey ▸ hentry)
      obtain ⟨change, hreads, hfills⟩ := hgives.reads x doc hstands
      exact .known hfind hreads (hkey ▸ hfills)
  | none =>
      have hother : ∀ m ∈ members, m.name ≠ key := by
        intro m hm hkey
        obtain ⟨f, hf, hgives⟩ := exists_of_forall₂ hshape.fields.flip hm
        have hname : (f.name == key) = true :=
          beq_iff_eq.mpr (Eq.trans (Field.Gives.name hgives) hkey)
        exact List.find?_eq_none.mp hfind f hf hname
      have hunknown : key ∉ members.map (·.name) := by
        intro hmem
        obtain ⟨m, hm, hkey⟩ := List.mem_map.mp hmem
        exact hother m hm hkey
      obtain ⟨t, rfl⟩ : ∃ t, doc = .text t := hfields.other _ hentry hunknown
      refine .other hfind ?_
      intro p hp
      obtain ⟨m, hm, rfl⟩ := List.mem_map.mp hp
      exact hother m hm

/-- A record is read from whatever describes it. -/
theorem Shape.Gives.reads (hshape : s.Gives members) {d : Document} (hd : IsObjectOf members x d) :
    Reads s.decoder d x := by
  obtain ⟨fields, rfl, hfields⟩ := hd
  refine Shape.reads_object hshape.determine (fun entry hentry => hfields.admits hshape hentry)
    hfields.nodup ?_ ?_
  · intro f hf hrequired
    obtain ⟨m, hm, hgives⟩ := exists_of_forall₂ hshape.fields hf
    rw [hgives.required, Option.isNone_iff_eq_none] at hrequired
    rw [hgives.name]
    by_contra hout
    have husual := hfields.unnamed m hm hout
    rw [hrequired] at husual
    cases husual
  · intro p hp hout
    obtain ⟨m, hm, rfl⟩ := List.mem_map.mp hp
    exact hshape.usual m hm _ (hfields.unnamed m hm hout)

end Objects
end AccessLedger.Json
