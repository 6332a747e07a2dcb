import AccessLedger.Proofs.Filter.Offered

/-!
Labels sorted without regard to language. The collation by lower-case form is a total order in which
nothing but a label itself ties with it, so a list of labels has one sorted form, however it stood
before and whatever way it is sorted. The lower-case form decides first, and labels that share
theirs stand side by side, among the options as in any other list.
-/

namespace AccessLedger

section Blocks

variable {α κ : Type} {cmp : κ → κ → Ordering} [Std.TransCmp cmp] [Std.LawfulEqCmp cmp]

theorem eq_of_ne_gt {k k' : κ} (h : cmp k k' ≠ .gt) (h' : cmp k' k ≠ .gt) : k = k' :=
  Std.LawfulEqCmp.eq_of_compare <|
    Std.OrientedCmp.isLE_antisymm (Ordering.isLE_iff_ne_gt.mpr h) (Ordering.isLE_iff_ne_gt.mpr h')

variable [DecidableEq κ] {key : α → κ} {k : κ} {l : List α}

/-- Elements of the least key stand in front. -/
theorem filter_prefix_of_pairwise (h : l.Pairwise fun a b => cmp (key a) (key b) ≠ .gt)
    (hleast : ∀ a ∈ l, cmp k (key a) ≠ .gt) : (l.filter fun a => key a = k) <+: l := by
  induction l with
  | nil => exact List.nil_prefix
  | cons a as ih =>
      rw [List.pairwise_cons] at h
      rw [List.forall_mem_cons] at hleast
      by_cases ha : key a = k
      · rw [List.filter_cons_of_pos (by simpa using ha)]
        exact List.cons_prefix_cons.mpr ⟨rfl, ih h.2 hleast.2⟩
      · -- Whatever has the least key would have come before this one.
        have hnone : ∀ b ∈ as, key b ≠ k := by
          intro b hb hkey
          exact ha (eq_of_ne_gt (hkey ▸ h.1 b hb) hleast.1)
        rw [List.filter_cons_of_neg (by simpa using ha),
          List.filter_eq_nil_iff.mpr fun b hb => by simpa using hnone b hb]
        exact List.nil_prefix

/-- Elements of one key stand side by side in a list that is sorted by the keys. -/
theorem filter_infix_of_pairwise (h : l.Pairwise fun a b => cmp (key a) (key b) ≠ .gt) (k : κ) :
    (l.filter fun a => key a = k) <:+: l := by
  induction l with
  | nil => exact List.infix_rfl
  | cons a as ih =>
      by_cases ha : key a = k
      · have hleast : ∀ b ∈ a :: as, cmp k (key b) ≠ .gt := by
          rw [List.forall_mem_cons, ← ha]
          exact ⟨by simp [Std.ReflCmp.compare_self], (List.pairwise_cons.mp h).1⟩
        exact (filter_prefix_of_pairwise h hleast).isInfix
      · rw [List.filter_cons_of_neg (by simpa using ha)]
        exact (ih (List.pairwise_cons.mp h).2).trans (List.suffix_cons a as).isInfix

end Blocks

namespace Collation

/-- A total order of labels, in which a label ties with itself alone. -/
structure IsTotalOrder (collation : Collation) : Prop where
  self : ∀ a, collation a a = .eq
  swap : ∀ a b, collation a b = (collation b a).swap
  trans : ∀ a b c, collation a b ≠ .gt → collation b c ≠ .gt → collation a c ≠ .gt
  eq_of_tie : ∀ a b, collation a b = .eq → a = b

def InOrder (collation : Collation) (labels : List String) : Prop :=
  labels.Pairwise fun a b => collation a b ≠ .gt

/-- Things of any kind sorted by their labels, as groups are for the options. -/
def sortOn {α : Type} (collation : Collation) (label : α → String) (things : List α) : List α :=
  things.mergeSort fun x y => collation (label x) (label y) != .gt

/--
Sorting brings out the only order of the labels that there is, with those of one form together.
-/
structure SortsToOne {α κ : Type} [DecidableEq κ] (collation : Collation) (form : String → κ)
    (label : α → String) (things : List α) : Prop where
  perm : (collation.sortOn label things).Perm things
  inOrder : collation.InOrder ((collation.sortOn label things).map label)
  unique : ∀ labels : List String, labels.Perm (things.map label) → collation.InOrder labels →
    labels = (collation.sortOn label things).map label
  independent : ∀ others : List α, others.Perm things →
    (collation.sortOn label others).map label = (collation.sortOn label things).map label
  together : ∀ f : κ, ((collation.sortOn label things).filter fun x => form (label x) = f) <:+:
    collation.sortOn label things

theorem isTotalOrder_of_lawful (collation : Collation) [Std.TransCmp collation]
    [Std.LawfulEqCmp collation] : collation.IsTotalOrder where
  self _ := Std.ReflCmp.compare_self
  swap _ _ := Std.OrientedCmp.eq_swap
  trans a b c hab hbc := by
    rw [ne_eq, ← Ordering.isLE_iff_ne_gt] at hab hbc ⊢
    exact Std.TransCmp.isLE_trans hab hbc
  eq_of_tie _ _ h := Std.LawfulEqCmp.eq_of_compare h

section Sorted

variable {α : Type} (collation : Collation) (label : α → String) (things : List α)

theorem sortOn_perm : (collation.sortOn label things).Perm things :=
  List.mergeSort_perm things _

variable [Std.TransCmp collation]

theorem pairwise_sortOn :
    (collation.sortOn label things).Pairwise fun x y => collation (label x) (label y) ≠ .gt := by
  refine (List.pairwise_mergeSort ?_ ?_ things).imp bne_iff_ne.mp
  · exact fun x y z => ne_gt_trans (label x) (label y) (label z)
  · exact fun x y => ne_gt_total (label x) (label y)

theorem inOrder_sortOn : collation.InOrder ((collation.sortOn label things).map label) :=
  List.pairwise_map.mpr (pairwise_sortOn collation label things)

variable {label things} in
theorem eq_sortOn_of_inOrder [Std.LawfulEqCmp collation] {labels : List String}
    (hperm : labels.Perm (things.map label)) (hlabels : collation.InOrder labels) :
    labels = (collation.sortOn label things).map label := by
  have hsorted : labels.Perm ((collation.sortOn label things).map label) :=
    hperm.trans ((sortOn_perm collation label things).map label).symm
  exact hsorted.eq_of_pairwise (fun a b _ _ => eq_of_ne_gt) hlabels
    (inOrder_sortOn collation label things)

end Sorted

theorem compareChars_fold_ne_gt {a b : String} (h : folding a b ≠ .gt) :
    compareChars (fold a) (fold b) ≠ .gt := by
  intro hgt
  rw [folding, hgt] at h
  exact h rfl

theorem sortsToOne_folding {α : Type} (label : α → String) (things : List α) :
    folding.SortsToOne fold label things where
  perm := sortOn_perm folding label things
  inOrder := inOrder_sortOn folding label things
  unique _ hperm hlabels := eq_sortOn_of_inOrder folding hperm hlabels
  independent others h := by
    apply eq_sortOn_of_inOrder folding
    · exact ((sortOn_perm folding label others).trans h).map label
    · exact inOrder_sortOn folding label others
  together f :=
    filter_infix_of_pairwise ((pairwise_sortOn folding label things).imp compareChars_fold_ne_gt) f

theorem offeredGroups_eq_sortOn (s : Snapshot) (r : Rules) (collation : Collation)
    [Std.TransCmp collation] :
    offeredGroups s r collation =
      collation.sortOn (·.label) (distinctOn (·.label) [] (s.declared r)) :=
  offeredGroups_eq_mergeSort s r collation

/-- The options are sorted groups, so what is together among these is so among the options. -/
theorem together_groupOptions (s : Snapshot) (r : Rules) (l : Labels) :
    ∃ options, groupOptions s r l .folding = .any l.anyGroup :: options ∧
      ∀ f, (options.filter fun o => fold o.label = f) <:+: options := by
  refine ⟨_, (offers_groupOptions s r l .folding).1, fun f => ?_⟩
  rw [List.filter_map, offeredGroups_eq_sortOn]
  exact ((sortsToOne_folding PermissionGroup.label _).together f).map _

/--
Without regard to language labels are totally ordered. Sorting comes to one result whatever the
order before, and labels that differ in case alone are neighbours, among the options too.
-/
theorem folding_isTotalOrder :
    folding.IsTotalOrder ∧
      (∀ {α : Type} (label : α → String) (things : List α), folding.SortsToOne fold label things) ∧
      ∀ (s : Snapshot) (r : Rules) (l : Labels), ∃ options,
        groupOptions s r l .folding = .any l.anyGroup :: options ∧
          ∀ f, (options.filter fun o => fold o.label = f) <:+: options :=
  ⟨isTotalOrder_of_lawful folding, sortsToOne_folding, together_groupOptions⟩

/-- Two spellings of one word that are apart at first. -/
theorem folding_isTotalOrder_fruits :
    let words := ["banana", "apple", "Banana", "Cherry"]
    let sorted := ["apple", "Banana", "banana", "Cherry"]
    (folding "apple" "Banana" ≠ .gt ∧ folding "Banana" "banana" ≠ .gt ∧
      folding "apple" "banana" ≠ .gt) ∧
      (sorted.Perm words ∧ folding.InOrder sorted ∧ folding.sortOn id words = sorted) ∧
      words.reverse.Perm words ∧ folding.sortOn id words.reverse = folding.sortOn id words := by
  intro words sorted
  obtain ⟨horder, hsorts, _⟩ := folding_isTotalOrder
  have hfirst : folding "apple" "Banana" ≠ .gt := by decide
  have hnext : folding "Banana" "banana" ≠ .gt := by decide
  have hperm : sorted.Perm words := @List.perm_middle _ "banana" ["apple", "Banana"] ["Cherry"]
  have hinOrder : folding.InOrder sorted := by
    rw [InOrder]
    decide
  have hwords := hsorts id words
  have hsorted := hwords.unique sorted (hperm.trans (.of_eq (List.map_id words).symm)) hinOrder
  have hsame := hwords.independent words.reverse (List.reverse_perm words)
  rw [List.map_id] at hsorted
  rw [List.map_id, List.map_id] at hsame
  exact ⟨⟨hfirst, hnext, horder.trans _ _ _ hfirst hnext⟩, ⟨hperm, hinOrder, hsorted.symm⟩,
    List.reverse_perm words, hsame⟩

end Collation
end AccessLedger
