import Mathlib.Data.List.Sort
import AccessLedger.Proofs.Distinct

/-!
Stable sorting and first elements. Sorting puts an element in front of its equals that come after it
in the list, so one that comes later and repeats the key of an earlier equal is passed over whenever
only the first element of each key is kept: a list with it and the list without it come to the same.
-/

namespace AccessLedger

universe u v
variable {α : Type u} {le : α → α → Bool}

theorem mergeSort_pair (le : α → α → Bool) (a b : α) :
    [a, b].mergeSort le = if le a b then [a, b] else [b, a] := by
  rw [List.mergeSort]
  simp [List.MergeSort.Internal.splitInTwo, List.cons_merge_cons]

/--
An element goes into a list on either side of a given place, the same with and without what is
there.
-/
theorem exists_orderedInsert_middle (a c : α) (l l' : List α) (hc : ∀ b ∈ l', le c b = true)
    (htrans : ∀ a b c, le a b = true → le b c = true → le a c = true) :
    ∃ m m', (l ++ c :: l').orderedInsert (le · ·) a = m ++ c :: m' ∧
      (l ++ l').orderedInsert (le · ·) a = m ++ m' ∧ (∀ b ∈ l, b ∈ m) ∧
        (le a c = true → a ∈ m) := by
  induction l with
  | nil =>
      by_cases hac : le a c = true
      · refine ⟨[a], l', ?_, ?_, nofun, fun _ => List.mem_singleton_self a⟩
        · exact List.orderedInsert_cons_of_le _ l' hac
        · cases l' with
          | nil => rfl
          | cons b bs =>
              have hab : le a b = true := htrans a c b hac (hc b (List.mem_cons_self ..))
              exact List.orderedInsert_cons_of_le _ bs hab
      · refine ⟨[], l'.orderedInsert (le · ·) a, ?_, rfl, nofun, fun h => absurd h hac⟩
        exact List.orderedInsert_of_not_le _ l' hac
  | cons b bs ih =>
      by_cases hab : le a b = true
      · refine ⟨a :: b :: bs, l', ?_, ?_, fun x hx => List.mem_cons_of_mem a hx,
          fun _ => List.mem_cons_self ..⟩
        · exact List.orderedInsert_cons_of_le _ _ hab
        · exact List.orderedInsert_cons_of_le _ _ hab
      · obtain ⟨m, m', hwith, hwithout, hkept, hafter⟩ := ih
        refine ⟨b :: m, m', ?_, ?_, ?_, fun h => List.mem_cons_of_mem b (hafter h)⟩
        · exact (List.orderedInsert_of_not_le (le · ·) _ hab).trans (congrArg (b :: ·) hwith)
        · exact (List.orderedInsert_of_not_le (le · ·) _ hab).trans (congrArg (b :: ·) hwithout)
        · intro x hx
          rcases List.mem_cons.mp hx with rfl | hx
          · exact List.mem_cons_self ..
          · exact List.mem_cons_of_mem b (hkept x hx)

section Insertion

variable (htrans : ∀ a b c, le a b = true → le b c = true → le a c = true)
  (htotal : ∀ a b, (le a b || le b a) = true)

include htrans htotal

/-- The head goes behind what is strictly smaller and in front of all else. -/
theorem mergeSort_cons_eq_orderedInsert (a : α) (l : List α) :
    (a :: l).mergeSort le = (l.mergeSort le).orderedInsert (le · ·) a := by
  obtain ⟨smaller, rest, hcons, hl, hsmaller⟩ := List.mergeSort_cons htrans htotal a l
  have hsorted := List.pairwise_mergeSort htrans htotal (a :: l)
  rw [hcons, List.pairwise_append, List.pairwise_cons] at hsorted
  have hrest : ∀ b ∈ rest, le a b = true := hsorted.2.1.1
  rw [hcons, hl]
  clear hcons hl hsorted
  induction smaller with
  | nil =>
      cases rest with
      | nil => rfl
      | cons b bs =>
          exact (List.orderedInsert_cons_of_le _ bs (hrest b (List.mem_cons_self ..))).symm
  | cons b bs ih =>
      rw [List.forall_mem_cons] at hsmaller
      have hab : ¬ le a b = true := by simpa using hsmaller.1
      rw [List.cons_append, ih hsmaller.2]
      exact (List.orderedInsert_of_not_le (le · ·) _ hab).symm

/-- Where sorting does not decide between two elements, they stand as they did before. -/
theorem pairwise_mergeSort_stable {R : α → α → Prop} {l : List α} (h : l.Pairwise R) :
    (l.mergeSort le).Pairwise fun a b => le a b = true ∧ (le b a = true → R a b) := by
  induction l with
  | nil => simp
  | cons a as ih =>
      rw [List.pairwise_cons] at h
      obtain ⟨smaller, rest, hcons, has, hsmaller⟩ := List.mergeSort_cons htrans htotal a as
      have hsorted := List.pairwise_mergeSort htrans htotal (a :: as)
      have hstable := ih h.2
      have hmem : ∀ b ∈ rest, b ∈ as := by
        intro b hb
        have hb' : b ∈ as.mergeSort le := has ▸ List.mem_append_right smaller hb
        exact List.mem_mergeSort.mp hb'
      rw [hcons, List.pairwise_append, List.pairwise_cons] at hsorted
      rw [has, List.pairwise_append] at hstable
      obtain ⟨_, ⟨hafter, _⟩, hacross⟩ := hsorted
      obtain ⟨hleft, hright, hbetween⟩ := hstable
      rw [hcons, List.pairwise_append, List.pairwise_cons]
      refine ⟨hleft, ⟨?_, hright⟩, ?_⟩
      · intro b hb
        exact ⟨hafter b hb, fun _ => h.1 b (hmem b hb)⟩
      · intro b hb b' hb'
        rcases List.mem_cons.mp hb' with rfl | hb'
        · refine ⟨hacross b hb b' (List.mem_cons_self ..), ?_⟩
          -- What stands in front of the new element is strictly smaller.
          intro hle
          have hnot := hsmaller b hb
          rw [hle] at hnot
          cases hnot
        · exact hbetween b hb b' hb'

/-- An element is sorted into a list behind the earlier elements that are not greater. -/
theorem exists_mergeSort_middle (before : List α) (c : α) (after : List α) :
    ∃ l l', (before ++ c :: after).mergeSort le = l ++ c :: l' ∧
      (before ++ after).mergeSort le = l ++ l' ∧ ∀ a ∈ before, le a c = true → a ∈ l := by
  induction before with
  | nil =>
      obtain ⟨l, l', hcons, hl, _⟩ := List.mergeSort_cons htrans htotal c after
      exact ⟨l, l', hcons, hl, nofun⟩
  | cons a as ih =>
      obtain ⟨l, l', hwith, hwithout, hbefore⟩ := ih
      have hsorted := List.pairwise_mergeSort htrans htotal (as ++ c :: after)
      rw [hwith, List.pairwise_append, List.pairwise_cons] at hsorted
      obtain ⟨_, ⟨hright, _⟩, _⟩ := hsorted
      obtain ⟨m, m', hwith', hwithout', hkept, hafter⟩ :=
        exists_orderedInsert_middle a c l l' hright htrans
      refine ⟨m, m', ?_, ?_, ?_⟩
      · rw [List.cons_append, mergeSort_cons_eq_orderedInsert htrans htotal, hwith, hwith']
      · rw [List.cons_append, mergeSort_cons_eq_orderedInsert htrans htotal, hwithout, hwithout']
      · intro b hb hbc
        rcases List.mem_cons.mp hb with rfl | hb
        · exact hafter hbc
        · exact hkept b (hbefore b hb hbc)

/-- What comes after an equal of its own key adds nothing to the first elements of a sorted list. -/
theorem distinctOn_mergeSort_middle {κ : Type v} [DecidableEq κ] (key : α → κ) {before : List α}
    {c a : α} (ha : a ∈ before) (hac : le a c = true) (hkey : key a = key c) (after : List α) :
    distinctOn key [] ((before ++ c :: after).mergeSort le) =
      distinctOn key [] ((before ++ after).mergeSort le) := by
  obtain ⟨l, l', hwith, hwithout, hbefore⟩ := exists_mergeSort_middle htrans htotal before c after
  have hseen : ∀ x ∈ [c], key x ∈ l.map key := by
    intro x hx
    rw [List.mem_singleton.mp hx, ← hkey]
    exact List.mem_map_of_mem (hbefore a ha hac)
  rw [hwith, hwithout]
  exact distinctOn_append_middle hseen l'

/--
Where equals of one key are the only ones to go, they may as well go before the list is sorted.
-/
theorem distinctOn_mergeSort {κ : Type v} [DecidableEq κ] {key : α → κ}
    (htie : ∀ a b, key a = key b → le a b = true) (l : List α) :
    distinctOn key [] (l.mergeSort le) = (distinctOn key [] l).mergeSort le := by
  -- The elements are gone through one by one, those so far being of distinct keys.
  suffices h : ∀ kept : List α, (kept.map key).Nodup →
      distinctOn key [] ((kept ++ l).mergeSort le) =
        (distinctOn key [] (kept ++ l)).mergeSort le from
    h [] List.nodup_nil
  induction l with
  | nil =>
      intro kept hkept
      have hsorted : ((kept.mergeSort le).map key).Nodup :=
        ((List.mergeSort_perm kept le).map key).nodup_iff.mpr hkept
      rw [List.append_nil, distinctOn_of_nodup hsorted (fun _ _ => List.not_mem_nil),
        distinctOn_of_nodup hkept (fun _ _ => List.not_mem_nil)]
  | cons c cs ih =>
      intro kept hkept
      by_cases hc : key c ∈ kept.map key
      · obtain ⟨a, ha, hkey⟩ := List.mem_map.mp hc
        have hrepeated : ∀ x ∈ [c], key x ∈ kept.map key := by
          intro x hx
          rwa [List.mem_singleton.mp hx]
        rw [distinctOn_mergeSort_middle htrans htotal key ha (htie a c hkey) hkey, ih kept hkept]
        exact congrArg (List.mergeSort · le) (distinctOn_append_middle hrepeated cs).symm
      · have hmore : ((kept ++ [c]).map key).Nodup := by
          rw [List.map_append, List.map_singleton, ← List.concat_eq_append]
          exact hkept.concat hc
        rw [← List.singleton_append, ← List.append_assoc]
        exact ih (kept ++ [c]) hmore

end Insertion
end AccessLedger
