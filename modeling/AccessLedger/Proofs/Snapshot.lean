import AccessLedger.Proofs.Json.Member
import AccessLedger.Snapshot.Json

/-!
Snapshots and the documents that describe them. In each record what is required is there and what
has a default may be left out; members come in any order and among strings under other names, and
packages of launchers in any order and any number of times. A snapshot is read from every document
that describes it, and its own document does.
-/

namespace AccessLedger
open Json

namespace Access

def members : List (Member Access) := [
  ⟨⟨"package_name", String, Access.package⟩, IsText, none⟩,
  ⟨⟨"group_name", String, Access.groupName⟩, IsText, none⟩,
  ⟨⟨"group_label", String, Access.groupLabel⟩, IsText, none⟩,
  ⟨⟨"access_time_ms", Int, Access.time⟩, IsInt64, none⟩]

def DescribedBy (a : Access) (d : Document) : Prop :=
  IsObjectOf members a d

theorem shape_gives : Access.shape.Gives members where
  fields := by
    refine .cons (Field.gives_mandatory (fun _ _ => IsText.reads) ?_) <|
      .cons (Field.gives_mandatory (fun _ _ => IsText.reads) ?_) <|
      .cons (Field.gives_mandatory (fun _ _ => IsText.reads) ?_) <|
      .cons (Field.gives_mandatory (fun _ _ => IsInt64.reads) ?_) .nil
    all_goals simp [Part.Fills, members]
  usual := by simp [members]
  determine a b h := by
    cases a
    cases b
    simpa [members] using h

theorem DescribedBy.reads {a : Access} {d : Document} (h : a.DescribedBy d) :
    Reads Access.shape.decoder d a :=
  shape_gives.reads h

end Access

namespace Grant

def members : List (Member Grant) := [
  ⟨⟨"app_key", String, Grant.appKey⟩, IsText, none⟩,
  ⟨⟨"shown", Bool, Grant.shown⟩, IsBool, some true⟩,
  ⟨⟨"usages", List Access, Grant.accesses⟩, IsListOf Access.DescribedBy, some []⟩]

def DescribedBy (g : Grant) (d : Document) : Prop :=
  IsObjectOf members g d

theorem shape_gives : Grant.shape.Gives members where
  fields := by
    refine .cons (Field.gives_mandatory (fun _ _ => IsText.reads) ?_) <|
      .cons (Field.gives_optional (fun _ _ => IsBool.reads) ?_ true) <|
      .cons (Field.gives_optional
        (fun _ _ => IsListOf.reads fun _ _ => Access.DescribedBy.reads) ?_ []) .nil
    all_goals simp [Part.Fills, members]
  usual := by simp [members, Grant.shape]
  determine a b h := by
    cases a
    cases b
    simpa [members] using h

theorem DescribedBy.reads {g : Grant} {d : Document} (h : g.DescribedBy d) :
    Reads Grant.shape.decoder d g :=
  shape_gives.reads h

end Grant

namespace PermissionGroup

def members : List (Member PermissionGroup) := [
  ⟨⟨"name", String, PermissionGroup.name⟩, IsText, none⟩,
  ⟨⟨"label", String, PermissionGroup.label⟩, IsText, none⟩,
  ⟨⟨"declaring_namespace", String, PermissionGroup.declaredBy⟩, IsText, none⟩,
  ⟨⟨"icon", String, PermissionGroup.icon⟩, IsText, some ""⟩,
  ⟨⟨"permissions", List String, PermissionGroup.permissions⟩, IsListOf IsText, some []⟩,
  ⟨⟨"grants", List Grant, PermissionGroup.grants⟩, IsListOf Grant.DescribedBy, some []⟩]

def DescribedBy (g : PermissionGroup) (d : Document) : Prop :=
  IsObjectOf members g d

theorem shape_gives : PermissionGroup.shape.Gives members where
  fields := by
    refine .cons (Field.gives_mandatory (fun _ _ => IsText.reads) ?_) <|
      .cons (Field.gives_mandatory (fun _ _ => IsText.reads) ?_) <|
      .cons (Field.gives_mandatory (fun _ _ => IsText.reads) ?_) <|
      .cons (Field.gives_optional (fun _ _ => IsText.reads) ?_ "") <|
      .cons (Field.gives_optional (fun _ _ => IsListOf.reads fun _ _ => IsText.reads) ?_ []) <|
      .cons (Field.gives_optional
        (fun _ _ => IsListOf.reads fun _ _ => Grant.DescribedBy.reads) ?_ []) .nil
    all_goals simp [Part.Fills, members]
  usual := by simp [members, PermissionGroup.shape]
  determine a b h := by
    cases a
    cases b
    simpa [members] using h

theorem DescribedBy.reads {g : PermissionGroup} {d : Document} (h : g.DescribedBy d) :
    Reads PermissionGroup.shape.decoder d g :=
  shape_gives.reads h

end PermissionGroup

namespace App

def members : List (Member App) := [
  ⟨⟨"key", String, App.key⟩, IsText, none⟩,
  ⟨⟨"label", String, App.label⟩, IsText, none⟩,
  ⟨⟨"icon", String, App.icon⟩, IsText, some ""⟩,
  ⟨⟨"non_system_policy", Bool, App.userFacing⟩, IsBool, some false⟩]

def DescribedBy (a : App) (d : Document) : Prop :=
  IsObjectOf members a d

theorem shape_gives : App.shape.Gives members where
  fields := by
    refine .cons (Field.gives_mandatory (fun _ _ => IsText.reads) ?_) <|
      .cons (Field.gives_mandatory (fun _ _ => IsText.reads) ?_) <|
      .cons (Field.gives_optional (fun _ _ => IsText.reads) ?_ "") <|
      .cons (Field.gives_optional (fun _ _ => IsBool.reads) ?_ false) .nil
    all_goals simp [Part.Fills, members]
  usual := by simp [members, App.shape]
  determine a b h := by
    cases a
    cases b
    simpa [members] using h

theorem DescribedBy.reads {a : App} {d : Document} (h : a.DescribedBy d) :
    Reads App.shape.decoder d a :=
  shape_gives.reads h

end App

/-- A set is made of a list with its members, whatever their order and number. -/
theorem TextSet.ofList_eq {t : TextSet} {xs : List String} (h : ∀ x, x ∈ xs ↔ x ∈ t.members) :
    TextSet.ofList xs = t := by
  have hnodup : ∀ u : TextSet, u.members.Nodup :=
    fun u => u.sorted.imp fun hlt => String.ne_of_lt hlt
  have hperm : (TextSet.ofList xs).members.Perm t.members := by
    refine (List.perm_ext_iff_of_nodup (hnodup _) (hnodup t)).mpr ?_
    intro x
    rw [TextSet.mem_ofList, h]
  apply TextSet.ext
  refine hperm.eq_of_pairwise ?_ (TextSet.ofList xs).sorted t.sorted
  intro x y _ _ hxy hyx
  exact absurd hyx (String.lt_asymm hxy)

/-- Lists of the members of a set. -/
def IsListing (t : TextSet) (d : Document) : Prop :=
  ∃ xs : List String, d = .list (xs.map .text) ∧ ∀ x, x ∈ xs ↔ x ∈ t.members

theorem IsListing.reads {t : TextSet} {d : Document} (h : IsListing t d) :
    ∃ xs, Reads (Decoder.list Decoder.string) d xs ∧ TextSet.ofList xs = t := by
  obtain ⟨xs, rfl, hmem⟩ := h
  exact ⟨xs, IsListOf.reads (fun _ _ => IsText.reads) (isListOf_map fun _ _ => rfl),
    TextSet.ofList_eq hmem⟩

namespace Snapshot

def members : List (Member Snapshot) := [
  ⟨⟨"groups", List PermissionGroup, Snapshot.groups⟩, IsListOf PermissionGroup.DescribedBy,
    some []⟩,
  ⟨⟨"apps", List App, Snapshot.apps⟩, IsListOf App.DescribedBy, some []⟩,
  ⟨⟨"launcher_packages", TextSet, Snapshot.launchers⟩, IsListing, some .empty⟩]

def DescribedBy (s : Snapshot) (d : Document) : Prop :=
  IsObjectOf members s d

theorem launchers_gives : Field.Gives members
    (.optional "launcher_packages" (Decoder.list Decoder.string) fun x s =>
      { s with launchers := .ofList x })
    ⟨⟨"launcher_packages", TextSet, Snapshot.launchers⟩, IsListing, some .empty⟩ where
  name := rfl
  required := rfl
  reads s d hd := by
    obtain ⟨xs, hreads, hset⟩ := IsListing.reads hd
    exact ⟨_, hreads.map _, by simp [Part.Fills, members, hset]⟩

theorem shape_gives : Snapshot.shape.Gives members where
  fields := by
    refine .cons
      (Field.gives_optional
        (fun _ _ => IsListOf.reads fun _ _ => PermissionGroup.DescribedBy.reads) ?_ [])
      (.cons (Field.gives_optional
        (fun _ _ => IsListOf.reads fun _ _ => App.DescribedBy.reads) ?_ [])
        (.cons launchers_gives .nil))
    all_goals simp [Part.Fills, members]
  usual := by simp [members, Snapshot.shape]
  determine a b h := by
    cases a
    cases b
    simpa [members] using h

/-- Access times that 64 bits and a sign have room for. -/
def TimesFit (s : Snapshot) : Prop :=
  ∀ g ∈ s.groups, ∀ grant ∈ g.grants, ∀ a ∈ grant.accesses,
    -int64Limit ≤ a.time ∧ a.time < int64Limit

end Snapshot

section Documents

theorem Access.describedBy_document {a : Access} (hlow : -int64Limit ≤ a.time)
    (hhigh : a.time < int64Limit) :
    a.DescribedBy a.document := by
  refine ⟨_, rfl, describes_all ?_ (by decide)⟩
  exact .cons ⟨rfl, rfl⟩ (.cons ⟨rfl, rfl⟩ (.cons ⟨rfl, rfl⟩ (.cons ⟨rfl, rfl, hlow, hhigh⟩ .nil)))

theorem Grant.describedBy_document {g : Grant}
    (h : ∀ a ∈ g.accesses, -int64Limit ≤ a.time ∧ a.time < int64Limit) :
    g.DescribedBy g.document := by
  have haccesses :
      IsListOf Access.DescribedBy g.accesses (.list (g.accesses.map Access.document)) :=
    isListOf_map fun a ha => Access.describedBy_document (h a ha).1 (h a ha).2
  refine ⟨_, rfl, describes_all ?_ (by decide)⟩
  exact .cons ⟨rfl, rfl⟩ (.cons ⟨rfl, rfl⟩ (.cons ⟨rfl, haccesses⟩ .nil))

theorem PermissionGroup.describedBy_document {g : PermissionGroup}
    (h : ∀ grant ∈ g.grants, ∀ a ∈ grant.accesses, -int64Limit ≤ a.time ∧ a.time < int64Limit) :
    g.DescribedBy g.document := by
  have hpermissions : IsListOf IsText g.permissions (.list (g.permissions.map .text)) :=
    isListOf_map fun _ _ => rfl
  have hgrants : IsListOf Grant.DescribedBy g.grants (.list (g.grants.map Grant.document)) :=
    isListOf_map fun grant hgrant => Grant.describedBy_document (h grant hgrant)
  refine ⟨_, rfl, describes_all ?_ (by decide)⟩
  exact .cons ⟨rfl, rfl⟩ (.cons ⟨rfl, rfl⟩ (.cons ⟨rfl, rfl⟩ (.cons ⟨rfl, rfl⟩
    (.cons ⟨rfl, hpermissions⟩ (.cons ⟨rfl, hgrants⟩ .nil)))))

theorem App.describedBy_document (a : App) : a.DescribedBy a.document := by
  refine ⟨_, rfl, describes_all ?_ (by decide)⟩
  exact .cons ⟨rfl, rfl⟩ (.cons ⟨rfl, rfl⟩ (.cons ⟨rfl, rfl⟩ (.cons ⟨rfl, rfl⟩ .nil)))

namespace Snapshot

variable {s : Snapshot} {d : Document}

theorem describedBy_document (h : s.TimesFit) : s.DescribedBy s.document := by
  have hgroups :
      IsListOf PermissionGroup.DescribedBy s.groups
        (.list (s.groups.map PermissionGroup.document)) :=
    isListOf_map fun g hg => PermissionGroup.describedBy_document (h g hg)
  have happs : IsListOf App.DescribedBy s.apps (.list (s.apps.map App.document)) :=
    isListOf_map fun a _ => App.describedBy_document a
  have hlaunchers : IsListing s.launchers (.list (s.launchers.members.map .text)) :=
    ⟨_, rfl, fun _ => Iff.rfl⟩
  refine ⟨_, rfl, describes_all ?_ (by decide)⟩
  exact .cons ⟨rfl, hgroups⟩ (.cons ⟨rfl, happs⟩ (.cons ⟨rfl, hlaunchers⟩ .nil))

theorem ofJson_layout (h : s.DescribedBy d) (l : Layout) :
    ofJson ((l.write 0 d).map some) = .ok s :=
  (shape_gives.reads h).runWhole l 0

/--
A snapshot is read from its own document and from all others that describe it: without what is
usual, in any order, among other strings, at every level.
-/
theorem ofJson_describedBy (s : Snapshot) (hs : s.TimesFit) :
    ofJson (RawText.ofString s.document.compact) = .ok s ∧ s.DescribedBy s.document ∧
      ∀ d, s.DescribedBy d →
        ofJson (RawText.ofString d.compact) = .ok s ∧
          ofJson (RawText.ofString d.pretty) = .ok s := by
  have hread : ∀ d, s.DescribedBy d →
      ofJson (RawText.ofString d.compact) = .ok s ∧ ofJson (RawText.ofString d.pretty) = .ok s := by
    intro d hd
    rw [RawText.ofString, RawText.ofString, Document.compact, Document.pretty, String.toList_ofList,
      String.toList_ofList, ← Layout.write_compact 0 d, ← Layout.write_lines 0 d]
    exact ⟨ofJson_layout hd .compact, ofJson_layout hd .lines⟩
  have hown := describedBy_document hs
  exact ⟨(hread _ hown).1, hown, hread⟩

/--
A document without what is usual, out of order, with a name of its own at the top and a package
named twice.
-/
theorem ofJson_describedBy_among :
    let g : PermissionGroup := {
      name := "g", label := "G", declaredBy := "android"
      grants := [{ appKey := "k", accesses := [⟨"p", "g", "\"G\"", -1⟩] }] }
    let s : Snapshot := { groups := [g], launchers := .ofList ["a", "b"] }
    let access : Document := .object [
      ("access_time_ms", .integer (-1)), ("group_label", .text "\"G\""),
        ("package_name", .text "p"),
      ("group_name", .text "g")]
    let grant : Document := .object [("usages", .list [access]), ("app_key", .text "k")]
    let group : Document := .object [
      ("declaring_namespace", .text "android"), ("grants", .list [grant]), ("label", .text "G"),
      ("name", .text "g")]
    let d : Document := .object [
      ("launcher_packages", .list [.text "b", .text "a", .text "b"]), ("note", .text "n"),
      ("groups", .list [group])]
    s.TimesFit ∧ s.DescribedBy d ∧ ofJson (RawText.ofString d.compact) = .ok s := by
  intro g s access grant group d
  have hfit : s.TimesFit := by simp [TimesFit, s, g, int64Limit]
  have haccess : Access.DescribedBy ⟨"p", "g", "\"G\"", -1⟩ access :=
    ⟨_, rfl, by decide, by simp [Access.members, IsText, IsInt64, int64Limit],
      by simp [Access.members], by simp [Access.members]⟩
  have hgrant : Grant.DescribedBy { appKey := "k", accesses := [⟨"p", "g", "\"G\"", -1⟩] } grant :=
    ⟨_, rfl, by decide, by simp [Grant.members, IsText, IsListOf, haccess], by simp [Grant.members],
      by simp [Grant.members]⟩
  have hgroup : g.DescribedBy group :=
    ⟨_, rfl, by decide, by simp [g, PermissionGroup.members, IsText, IsListOf, hgrant],
      by simp [g, PermissionGroup.members], by simp [PermissionGroup.members]⟩
  have hlaunchers : IsListing s.launchers (.list [.text "b", .text "a", .text "b"]) := by
    refine ⟨["b", "a", "b"], rfl, fun x => ?_⟩
    rw [TextSet.mem_ofList]
    grind
  have hd : s.DescribedBy d := by
    refine ⟨_, rfl, by decide, ?_, ?_, ?_⟩
    · simp [members, IsListOf, s, hgroup, hlaunchers]
    · simp [members, s]
    · simp [members]
  exact ⟨hfit, hd, ((ofJson_describedBy s hfit).2.2 d hd).1⟩

end Snapshot
end Documents

end AccessLedger
