import AccessLedger.Proofs.Checked
import AccessLedger.Storage.Files

/-!
Files that are saved and read again. Making directories only adds to a tree and writing a file
replaces nothing but that file, so that all other files are read as before; saving a file once more,
with the same content, leaves the tree as it is.
-/

namespace AccessLedger

namespace Files

/--
Where a path leads to, whether there is anything or not, if every directory on the way exists.
-/
def place? (f : Files) (path : String) : Option Place :=
  (f.walk (Path.ofString path).start (Path.ofString path).names).toOption

/-- Every directory of the one tree is one of the other. -/
def HasDirectoriesOf (g f : Files) : Prop :=
  ∀ p, f.isDirectory p = true → g.isDirectory p = true

/-- Everything in the one tree is in the other. -/
def Extends (g f : Files) : Prop :=
  ∀ p item, f.item? p = some item → g.item? p = some item

theorem Extends.refl (f : Files) : f.Extends f :=
  fun _ _ h => h

theorem Extends.trans {f g h : Files} (hgf : g.Extends f) (hhg : h.Extends g) : h.Extends f :=
  fun p item hitem => hhg p item (hgf p item hitem)

theorem Extends.hasDirectoriesOf {f g : Files} (h : g.Extends f) : g.HasDirectoriesOf f := by
  intro p hp
  rw [isDirectory, beq_iff_eq] at hp ⊢
  exact h p .directory hp

section Put

theorem lookup_cons (entry : Place × Item) (entries : List (Place × Item)) (q : Place) :
    (entry :: entries).lookup q = if q = entry.1 then some entry.2 else entries.lookup q := by
  obtain ⟨place, there⟩ := entry
  rw [List.lookup_cons]
  by_cases hq : q = place
  · simp [hq]
  · have hbeq : (q == place) = false := beq_eq_false_iff_ne.mpr hq
    simp [hbeq, hq]

variable (f : Files) (p : Place) (item : Item)

/-- The entries of a tree, of which those at a place are given another item. -/
def replaced (entries : List (Place × Item)) : List (Place × Item) :=
  entries.map fun entry => if entry.1 == p then (p, item) else entry

theorem replaced_cons (entry : Place × Item) (entries : List (Place × Item)) :
    replaced p item (entry :: entries) =
      (if entry.1 = p then (p, item) else entry) :: replaced p item entries := by
  simp [replaced]

theorem lookup_replaced (entries : List (Place × Item)) (q : Place) :
    (replaced p item entries).lookup q =
      if q = p then (entries.lookup p).map fun _ => item else entries.lookup q := by
  induction entries with
  | nil => simp [replaced]
  | cons entry entries ih =>
      rw [replaced_cons, lookup_cons, ih, lookup_cons, lookup_cons]
      by_cases hentry : entry.1 = p
      · by_cases hq : q = p
        · simp [hentry, hq]
        · simp [hentry, hq]
      · by_cases hq : q = p
        · simp [hentry, hq, Ne.symm hentry]
        · simp [hentry, hq]

theorem replaced_replaced (before : Item) (entries : List (Place × Item)) :
    replaced p item (replaced p before entries) = replaced p item entries := by
  induction entries with
  | nil => rfl
  | cons entry entries ih =>
      rw [replaced_cons, replaced_cons, replaced_cons, ih]
      by_cases hentry : entry.1 = p
      · simp [hentry]
      · simp [hentry]

theorem replaced_of_lookup {entries : List (Place × Item)} (h : entries.lookup p = none) :
    replaced p item entries = entries := by
  induction entries with
  | nil => rfl
  | cons entry entries ih =>
      rw [lookup_cons] at h
      split at h
      · cases h
      · next hne => rw [replaced_cons, if_neg (Ne.symm hne), ih h]

/-- Putting an item replaces what is there, or else adds it at the end. -/
theorem items_put : (f.put p item).items =
    if (f.items.lookup p).isSome then replaced p item f.items else f.items ++ [(p, item)] := by
  rw [put]
  split <;> rfl

@[simp] theorem lookup_put (q : Place) :
    (f.put p item).items.lookup q = if q = p then some item else f.items.lookup q := by
  rw [items_put]
  cases hlookup : f.items.lookup p with
  | some there => simp [lookup_replaced, hlookup]
  | none =>
      rw [Option.isSome_none, if_neg Bool.false_ne_true, List.lookup_append, lookup_cons]
      by_cases hq : q = p
      · simp [hq, hlookup]
      · simp [hq]

@[simp] theorem item?_put (q : Place) :
    (f.put p item).item? q = if q = p then some item else f.item? q := by
  by_cases hq : q = p
  · simp [item?, hq]
  · simp [item?, hq]

/-- What was put there before does not matter. -/
@[simp] theorem put_put (before : Item) : (f.put p before).put p item = f.put p item := by
  have hitems : ((f.put p before).put p item).items = (f.put p item).items := by
    rw [items_put _ p item, lookup_put, if_pos rfl, Option.isSome_some, if_pos rfl, items_put,
      items_put]
    split
    · exact replaced_replaced p item before f.items
    · next hnone =>
      rw [Option.not_isSome_iff_eq_none] at hnone
      rw [replaced, List.map_append, ← replaced, replaced_of_lookup p item hnone]
      simp
  exact congrArg Files.mk hitems

end Put

section Walk

variable {f g : Files} {start p : Place} {names : List String}

theorem directory_eq_ok_iff {u : Unit} : f.directory p = .ok u ↔ f.isDirectory p = true := by
  rw [directory, isDirectory, beq_iff_eq]
  split <;> simp [*]

theorem step_eq_ok_iff {name : String} {q : Place} :
    f.step p name = .ok q ↔
      f.isDirectory p = true ∧ name.utf8ByteSize ≤ Path.nameLimit ∧ p.enter name = q := by
  rw [step, bind_eq_ok_iff]
  simp only [directory_eq_ok_iff]
  constructor
  · rintro ⟨_, hdirectory, h⟩
    split at h
    · cases h
    · next hshort =>
      cases h
      exact ⟨hdirectory, Nat.not_lt.mp hshort, rfl⟩
  · rintro ⟨hdirectory, hshort, rfl⟩
    refine ⟨(), hdirectory, ?_⟩
    rw [if_neg (Nat.not_lt.mpr hshort)]
    rfl

theorem walk_of_hasDirectoriesOf (hkept : g.HasDirectoriesOf f) (h : f.walk start names = .ok p) :
    g.walk start names = .ok p := by
  induction names generalizing start with
  | nil => exact h
  | cons name names ih =>
      rw [walk, List.foldlM_cons, bind_eq_ok_iff] at h ⊢
      obtain ⟨q, hstep, hwalk⟩ := h
      rw [step_eq_ok_iff] at hstep
      refine ⟨q, step_eq_ok_iff.mpr ⟨hkept start hstep.1, hstep.2⟩, ih hwalk⟩

end Walk

section Directories

variable {f g : Files} {start : Place} {names : List String}

theorem extends_put_directory {p : Place} (h : f.item? p = none) :
    (f.put p .directory).Extends f := by
  intro q item hitem
  rw [item?_put]
  split
  · next heq =>
    rw [heq, h] at hitem
    cases hitem
  · exact hitem

/-- A directory stands where names lead, and so it is not made once more. -/
def Stands (f : Files) (start : Place) (names : List String) : Prop :=
  Path.check (Path.spell names) = .ok () ∧ f.directoryThere start names = true

theorem directoryThere_iff :
    f.directoryThere start names = true ↔
      ∃ p, f.walk start names = .ok p ∧ f.isDirectory p = true := by
  rw [directoryThere]
  split
  · next p hwalk => simp [hwalk]
  · next hwalk => simp [hwalk]

theorem Stands.mono (h : f.Stands start names) (hkept : g.HasDirectoriesOf f) :
    g.Stands start names := by
  obtain ⟨hcheck, hthere⟩ := h
  obtain ⟨p, hwalk, hdirectory⟩ := directoryThere_iff.mp hthere
  exact ⟨hcheck,
    directoryThere_iff.mpr ⟨p, walk_of_hasDirectoriesOf hkept hwalk, hkept p hdirectory⟩⟩

/-- Where names lead, a directory is new unless there is something. -/
theorem newDirectory_of_walk {p : Place} (hcheck : Path.check (Path.spell names) = .ok ())
    (hwalk : f.walk start names = .ok p) :
    f.newDirectory start names = if (f.item? p).isSome then .error .exists else .ok p := by
  rw [newDirectory, hcheck, hwalk]
  cases hitem : f.item? p with
  | none | some item =>
      show (if (f.item? p).isSome then _ else _) = _
      rw [hitem]
      rfl

theorem newDirectory_eq_ok_iff {p : Place} :
    f.newDirectory start names = .ok p ↔
      Path.check (Path.spell names) = .ok () ∧ f.walk start names = .ok p ∧ f.item? p = none := by
  constructor
  · intro h
    obtain ⟨_, hcheck, hrest⟩ := bind_eq_ok_iff.mp h
    obtain ⟨q, hwalk, _⟩ := bind_eq_ok_iff.mp hrest
    rw [newDirectory_of_walk hcheck hwalk] at h
    split at h
    · cases h
    · next hnone =>
      cases h
      exact ⟨hcheck, hwalk, by simpa using hnone⟩
  · rintro ⟨hcheck, hwalk, hnone⟩
    rw [newDirectory_of_walk hcheck hwalk, hnone]
    rfl

theorem Stands.makeDirectory (h : f.Stands start names) :
    f.makeDirectory start names = (f, none) := by
  obtain ⟨hcheck, hthere⟩ := h
  obtain ⟨p, hwalk, hdirectory⟩ := directoryThere_iff.mp hthere
  have hitem : f.item? p = some .directory := by simpa [isDirectory] using hdirectory
  rw [Files.makeDirectory, newDirectory_of_walk hcheck hwalk, hitem]
  simp [hthere]

theorem extends_makeDirectory (f : Files) (start : Place) (names : List String) :
    (f.makeDirectory start names).1.Extends f := by
  rw [makeDirectory]
  split
  · next p hnew => exact extends_put_directory (newDirectory_eq_ok_iff.mp hnew).2.2
  · exact Extends.refl f

/-- Names that are refused as such are not refused because something exists. -/
theorem check_of_exists (h : f.newDirectory start names = .error .exists) :
    Path.check (Path.spell names) = .ok () := by
  cases hcheck : Path.check (Path.spell names) with
  | ok _ => rfl
  | error fault =>
      rw [newDirectory, hcheck] at h
      cases h
      rw [Path.check] at hcheck
      split at hcheck
      · cases hcheck
      · split at hcheck
        · cases hcheck
        · split at hcheck <;> cases hcheck

/-- A directory stands once it was made without fault. -/
theorem stands_of_makeDirectory (h : f.makeDirectory start names = (g, none)) :
    g.Stands start names := by
  rw [makeDirectory] at h
  split at h
  · next p hnew =>
    cases h
    obtain ⟨hcheck, hwalk, hnone⟩ := newDirectory_eq_ok_iff.mp hnew
    refine ⟨hcheck, directoryThere_iff.mpr ⟨p, ?_, ?_⟩⟩
    · exact walk_of_hasDirectoriesOf (extends_put_directory hnone).hasDirectoriesOf hwalk
    · simp [isDirectory]
  · next fault hnew =>
    rw [Prod.mk.injEq] at h
    obtain ⟨rfl, hfault⟩ := h
    simp at hfault
    rw [hfault.1] at hnew
    exact ⟨check_of_exists hnew, hfault.2⟩

theorem extends_makeDirectories (f : Files) (start : Place) (names : List String) :
    (f.makeDirectories start names).1.Extends f := by
  induction names generalizing f with
  | nil => exact Extends.refl f
  | cons name outer ih =>
      rw [makeDirectories]
      split
      · exact ih f
      · split
        · have houter := ih f
          split
          · next hmade => rwa [hmade] at houter
          · next g hmade =>
            rw [hmade] at houter
            exact houter.trans (extends_makeDirectory g start _)
        · exact extends_makeDirectory f start _

/-- Directories that were made without fault are not made once more. -/
theorem makeDirectories_of_made {h : Files} (hmade : f.makeDirectories start names = (g, none))
    (hkept : h.HasDirectoriesOf g) : h.makeDirectories start names = (h, none) := by
  induction names generalizing f with
  | nil => rfl
  | cons name outer ih =>
      rw [makeDirectories] at hmade ⊢
      split at hmade
      · next hstay => rw [if_pos hstay, ih hmade]
      · next hstep =>
        have hstands : g.Stands start (outer.reverse ++ [name]) := by
          split at hmade
          · split at hmade
            · cases hmade
            · exact stands_of_makeDirectory hmade
          · exact stands_of_makeDirectory hmade
        rw [if_neg hstep, (hstands.mono hkept).makeDirectory]

end Directories

section Saved

variable {f g : Files} {path content : String}

theorem place?_eq_some_iff {p : Place} :
    f.place? path = some p ↔
      f.walk (Path.ofString path).start (Path.ofString path).names = .ok p := by
  rw [place?]
  cases f.walk (Path.ofString path).start (Path.ofString path).names with
  | error fault => simp [Except.toOption]
  | ok q => simp [Except.toOption]

theorem read_eq_ok_iff {text : RawText} :
    f.read path = .ok text ↔
      Path.check path = .ok () ∧ ∃ p, f.place? path = some p ∧ f.item? p = some (.file text) := by
  simp only [read, bind_eq_ok_iff, place?_eq_some_iff]
  constructor
  · rintro ⟨_, hcheck, p, hwalk, hread⟩
    refine ⟨hcheck, p, hwalk, ?_⟩
    split at hread
    · cases hread
    · cases hread
    · next hitem =>
      cases hread
      exact hitem
  · rintro ⟨hcheck, p, hwalk, hitem⟩
    refine ⟨(), hcheck, p, hwalk, ?_⟩
    rw [hitem]
    rfl

theorem walk_concat_eq_ok_iff {start p : Place} {names : List String} {name : String} :
    f.walk start (names ++ [name]) = .ok p ↔
      ∃ q, f.walk start names = .ok q ∧ f.step q name = .ok p := by
  rw [walk, List.foldlM_append, bind_eq_ok_iff]
  simp [walk]

/-- The last of some names, none of which is left out at the end. -/
theorem names_eq_concat {names : List String}
    (hlength : ¬ (names.reverse.dropWhile (· == "")).length < names.length)
    (hname : (names.reverse.dropWhile (· == "")).headD "." ≠ ".") :
    ∃ parents name, names = parents ++ [name] ∧ name ≠ "" ∧
      names.reverse.dropWhile (· == "") = name :: parents.reverse := by
  have hall : names.reverse.dropWhile (· == "") = names.reverse := by
    apply (List.dropWhile_suffix _).eq_of_length_le
    simpa using hlength
  cases hnames : names.reverse.dropWhile (· == "") with
  | nil =>
      rw [hnames] at hname
      exact absurd rfl hname
  | cons name outer =>
      refine ⟨outer.reverse, name, ?_, ?_, ?_⟩
      · rw [← List.reverse_inj, ← hall, hnames]
        simp
      · rintro rfl
        have hhead := List.head?_dropWhile_not (· == "") names.reverse
        rw [hnames] at hhead
        simp at hhead
      · rw [List.reverse_reverse]

/-- A path to be written ends with the name of the file. -/
theorem writable_eq_ok_iff {path : Path} {p : Place} :
    f.writable path = .ok p ↔
      (∃ parents name, path.names = parents ++ [name] ∧ name ≠ "" ∧ name ≠ "." ∧ name ≠ "..") ∧
        f.walk path.start path.names = .ok p ∧ f.isDirectory p = false := by
  simp only [writable, bind_eq_ok_iff]
  constructor
  · rintro ⟨q, hwalk, _, _, h⟩
    split at h
    · cases h
    · next hgood =>
      obtain ⟨p', hstep, h⟩ := bind_eq_ok_iff.mp h
      split at h
      · cases h
      · next hfree =>
        cases h
        simp only [Bool.or_eq_true, decide_eq_true_eq, not_or] at hgood
        obtain ⟨⟨hstay, habove⟩, hlength⟩ := hgood
        obtain ⟨parents, name, hnames, hne, hdrop⟩ := names_eq_concat hlength hstay
        rw [hdrop] at hwalk hstep hstay habove
        refine ⟨⟨parents, name, hnames, hne, hstay, habove⟩, ?_, by simpa using hfree⟩
        rw [hnames, walk_concat_eq_ok_iff]
        rw [List.tail_cons, List.reverse_reverse] at hwalk
        exact ⟨q, hwalk, hstep⟩
  · rintro ⟨⟨parents, name, hnames, hne, hstay, habove⟩, hwalk, hfree⟩
    have hdrop : path.names.reverse.dropWhile (· == "") = name :: parents.reverse := by
      simp [hnames, hne]
    rw [hnames, walk_concat_eq_ok_iff] at hwalk
    obtain ⟨q, hwalk, hstep⟩ := hwalk
    refine ⟨q, ?_, (), directory_eq_ok_iff.mpr (step_eq_ok_iff.mp hstep).1, ?_⟩
    · rw [hdrop, List.tail_cons, List.reverse_reverse]
      exact hwalk
    · rw [hdrop, if_neg, List.headD_cons]
      · refine bind_eq_ok_iff.mpr ⟨p, hstep, ?_⟩
        rw [hfree]
        rfl
      · simp [hnames, hstay, habove]

theorem write_eq_ok_iff :
    f.write path content = .ok g ↔
      Path.check path = .ok () ∧ ∃ p, f.writable (Path.ofString path) = .ok p ∧
        f.put p (.file (RawText.ofString content)) = g := by
  simp only [write, bind_eq_ok_iff]
  constructor
  · rintro ⟨_, hcheck, p, hwritable, hput⟩
    exact ⟨hcheck, p, hwritable, Except.ok.inj hput⟩
  · rintro ⟨hcheck, p, hwritable, rfl⟩
    exact ⟨(), hcheck, p, hwritable, rfl⟩

/-- A file is written over a file or where there is nothing, so directories stay. -/
theorem hasDirectoriesOf_put {p : Place} (hfree : f.isDirectory p = false) (item : Item) :
    (f.put p item).HasDirectoriesOf f := by
  intro q hq
  have hne : q ≠ p := by
    rintro rfl
    rw [hfree] at hq
    cases hq
  rw [isDirectory, item?_put, if_neg hne]
  exact hq

/-- A file is put where its path leads. -/
theorem place?_put {p : Place} (h : f.writable (Path.ofString path) = .ok p) (item : Item) :
    (f.put p item).place? path = some p := by
  obtain ⟨_, hwalk, hfree⟩ := writable_eq_ok_iff.mp h
  rw [place?_eq_some_iff]
  exact walk_of_hasDirectoriesOf (hasDirectoriesOf_put hfree item) hwalk

/-- What was saved stands in the tree of all that was there before and of new directories. -/
theorem exists_of_save (h : f.save path content = (g, none)) :
    ∃ (made : Files) (p : Place),
      f.makeDirectories (Path.ofString path).start (Path.ofString path).parents.reverse =
        (made, none) ∧
      made.Extends f ∧ Path.check path = .ok () ∧ made.writable (Path.ofString path) = .ok p ∧
      g = made.put p (.file (RawText.ofString content)) := by
  rw [save] at h
  have hextends := extends_makeDirectories f (Path.ofString path).start
    (Path.ofString path).parents.reverse
  split at h
  · cases h
  · next made hmade =>
    rw [hmade] at hextends
    split at h
    · next hwrite =>
      cases h
      obtain ⟨hcheck, p, hwritable, hput⟩ := write_eq_ok_iff.mp hwrite
      exact ⟨made, p, hmade, hextends, hcheck, hwritable, hput.symm⟩
    · cases h

theorem write_fault {content' : String} {fault : AccessFault}
    (h : f.write path content = .error fault) :
    f.write path content' = .error fault := by
  rw [write] at h ⊢
  cases hcheck : Path.check path with
  | error other =>
      rw [hcheck] at h
      exact h
  | ok _ =>
      rw [hcheck] at h
      cases hplace : f.writable (Path.ofString path) with
      | error other =>
          rw [hplace] at h
          exact h
      | ok p =>
          rw [hplace] at h
          cases h

/-- What keeps a file from being saved does not depend on its content. -/
theorem save_fault_eq (f : Files) (path content content' : String) :
    (f.save path content).2 = (f.save path content').2 := by
  rw [save, save]
  split
  · rfl
  · next made _ =>
    cases hwrite : made.write path content with
    | error fault => simp only [write_fault hwrite]
    | ok written =>
        cases hwrite' : made.write path content' with
        | error fault =>
            rw [write_fault hwrite'] at hwrite
            cases hwrite
        | ok written' => rfl

/-- A saved file is read as it was written. -/
theorem read_save (h : f.save path content = (g, none)) :
    g.read path = .ok (RawText.ofString content) := by
  obtain ⟨made, p, _, _, hcheck, hwritable, rfl⟩ := exists_of_save h
  rw [read_eq_ok_iff]
  refine ⟨hcheck, p, place?_put hwritable _, ?_⟩
  simp

/-- Saving the same once more changes nothing. -/
theorem save_save (h : f.save path content = (g, none)) : g.save path content = (g, none) := by
  obtain ⟨made, p, hmade, _, hcheck, hwritable, rfl⟩ := exists_of_save h
  obtain ⟨hnames, hwalk, hfree⟩ := writable_eq_ok_iff.mp hwritable
  have hkept := hasDirectoriesOf_put hfree (.file (RawText.ofString content))
  have hwrite : (made.put p (.file (RawText.ofString content))).write path content =
      .ok (made.put p (.file (RawText.ofString content))) := by
    rw [write_eq_ok_iff]
    refine ⟨hcheck, p, ?_, put_put made p _ _⟩
    rw [writable_eq_ok_iff]
    refine ⟨hnames, walk_of_hasDirectoriesOf hkept hwalk, ?_⟩
    simp [isDirectory]
  rw [save, makeDirectories_of_made hmade hkept]
  simp only [hwrite]

/-- A file that is another one than the saved one is read as before. -/
theorem read_of_save (h : f.save path content = (g, none)) {other : String} {text : RawText}
    (hother : g.place? other ≠ g.place? path) (hread : f.read other = .ok text) :
    g.read other = .ok text := by
  obtain ⟨made, p, _, hextends, _, hwritable, rfl⟩ := exists_of_save h
  obtain ⟨_, _, hfree⟩ := writable_eq_ok_iff.mp hwritable
  have hkept := hasDirectoriesOf_put hfree (.file (RawText.ofString content))
  obtain ⟨hcheck, q, hplace, hitem⟩ := read_eq_ok_iff.mp hread
  have hplace : (made.put p (.file (RawText.ofString content))).place? other = some q := by
    rw [place?_eq_some_iff] at hplace ⊢
    exact walk_of_hasDirectoriesOf hkept (walk_of_hasDirectoriesOf hextends.hasDirectoriesOf hplace)
  have hne : q ≠ p := by
    rintro rfl
    exact hother (hplace.trans (place?_put hwritable _).symm)
  refine read_eq_ok_iff.mpr ⟨hcheck, q, hplace, ?_⟩
  rw [item?_put, if_neg hne]
  exact hextends q _ hitem

end Saved

end Files
end AccessLedger
