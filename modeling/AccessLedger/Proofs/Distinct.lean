import Mathlib.Algebra.BigOperators.Group.List.Lemmas
import Mathlib.Algebra.GroupWithZero.Nat
import Mathlib.Data.List.Nodup

/-!
Lists with only the first element of each key. The list of filter options and the list of rows are
both made in this way, the first by label and the second by row key, each with its own recursion.
-/

namespace AccessLedger

universe u v
variable {α : Type u} {κ : Type v} [DecidableEq κ]

/-- The elements whose key is neither in `taken` nor the key of an earlier element. -/
def distinctOn (key : α → κ) (taken : List κ) : List α → List α
  | [] => []
  | a :: as =>
    if key a ∈ taken then distinctOn key taken as
    else a :: distinctOn key (key a :: taken) as

/-- Only the members of `taken` count, not their order. -/
theorem distinctOn_congr (key : α → κ) (l : List α) {taken taken' : List κ}
    (h : ∀ k, k ∈ taken ↔ k ∈ taken') : distinctOn key taken l = distinctOn key taken' l := by
  induction l generalizing taken taken' with
  | nil => rfl
  | cons a as ih =>
      have hcons : ∀ k, k ∈ key a :: taken ↔ k ∈ key a :: taken' := by
        intro k
        simp only [List.mem_cons, h k]
      simp only [distinctOn, h (key a), ih h, ih hcons]

theorem distinctOn_append (key : α → κ) (taken : List κ) (l l' : List α) :
    distinctOn key taken (l ++ l') =
      distinctOn key taken l ++ distinctOn key (l.map key ++ taken) l' := by
  induction l generalizing taken with
  | nil => rfl
  | cons a as ih =>
      simp only [List.cons_append, distinctOn, List.map_cons]
      split
      · next h =>
        rw [ih]
        congr 1
        apply distinctOn_congr
        intro k
        simp only [List.mem_cons, List.mem_append]
        refine ⟨Or.inr, ?_⟩
        intro h
        obtain rfl | hk := h
        · exact .inr h
        · exact hk
      · rw [ih, List.cons_append]
        congr 2
        apply distinctOn_congr
        intro k
        simp only [List.mem_cons, List.mem_append, or_left_comm]

theorem distinctOn_eq_nil {key : α → κ} {taken : List κ} {l : List α} (h : ∀ a ∈ l, key a ∈ taken) :
    distinctOn key taken l = [] := by
  induction l with
  | nil => rfl
  | cons a as ih =>
      rw [List.forall_mem_cons] at h
      rw [distinctOn, if_pos h.1, ih h.2]

/-- What repeats the keys in front of it is passed over. -/
theorem distinctOn_append_middle {key : α → κ} {l m : List α} (h : ∀ a ∈ m, key a ∈ l.map key)
    (l' : List α) : distinctOn key [] (l ++ (m ++ l')) = distinctOn key [] (l ++ l') := by
  have htaken : ∀ k, k ∈ m.map key ++ (l.map key ++ []) ↔ k ∈ l.map key ++ [] := by
    intro k
    rw [List.append_nil, List.mem_append, or_iff_right_iff_imp]
    intro hk
    obtain ⟨a, ha, rfl⟩ := List.mem_map.mp hk
    exact h a ha
  have hm : distinctOn key (l.map key ++ []) m = [] := distinctOn_eq_nil (by simpa using h)
  rw [distinctOn_append, distinctOn_append, distinctOn_append, hm, List.nil_append,
    distinctOn_congr key l' htaken]

theorem distinctOn_map {β : Type u} (key : β → κ) (f : α → β) (taken : List κ) (l : List α) :
    distinctOn key taken (l.map f) = (distinctOn (fun a => key (f a)) taken l).map f := by
  induction l generalizing taken with
  | nil => rfl
  | cons a as ih =>
      simp only [List.map_cons, distinctOn, ih]
      split <;> rfl

theorem distinctOn_sublist (key : α → κ) (taken : List κ) (l : List α) :
    (distinctOn key taken l).Sublist l := by
  induction l generalizing taken with
  | nil => exact List.Sublist.slnil
  | cons a as ih =>
      simp only [distinctOn]
      split
      · exact (ih taken).cons a
      · exact (ih _).cons_cons a

/-- What is kept is what comes first with its key. -/
theorem mem_distinctOn_iff (key : α → κ) (taken : List κ) (l : List α) (a : α) :
    a ∈ distinctOn key taken l ↔
      key a ∉ taken ∧ ∃ before after, l = before ++ a :: after ∧ ∀ b ∈ before, key b ≠ key a := by
  induction l generalizing taken with
  | nil => simp [distinctOn]
  | cons c cs ih =>
      have hsplit : (∃ before after, c :: cs = before ++ a :: after ∧
          ∀ b ∈ before, key b ≠ key a) ↔ c = a ∨ (key c ≠ key a ∧
            ∃ before after, cs = before ++ a :: after ∧ ∀ b ∈ before, key b ≠ key a) := by
        constructor
        · intro h
          obtain ⟨before, after, h, hb⟩ := h
          cases before with
          | nil =>
              simp only [List.nil_append, List.cons.injEq] at h
              exact .inl h.1
          | cons b bs =>
              simp only [List.cons_append, List.cons.injEq] at h
              obtain ⟨rfl, rfl⟩ := h
              exact .inr ⟨hb c (List.mem_cons_self ..), bs, after, rfl,
                fun x hx => hb x (List.mem_cons_of_mem _ hx)⟩
        · intro h
          obtain rfl | ⟨hc, before, after, rfl, hb⟩ := h
          · exact ⟨[], cs, rfl, by simp⟩
          · exact ⟨c :: before, after, rfl, List.forall_mem_cons.mpr ⟨hc, hb⟩⟩
      rw [hsplit]
      simp only [distinctOn]
      by_cases hc : key c ∈ taken
      · rw [if_pos hc, ih]
        constructor
        · intro h
          obtain ⟨ha, hl⟩ := h
          exact ⟨ha, .inr ⟨fun e => ha (e ▸ hc), hl⟩⟩
        · intro h
          obtain ⟨ha, rfl | ⟨_, hl⟩⟩ := h
          · exact absurd hc ha
          · exact ⟨ha, hl⟩
      · rw [if_neg hc, List.mem_cons, ih, List.mem_cons, not_or]
        constructor
        · intro h
          obtain rfl | ⟨⟨hne, ha⟩, hl⟩ := h
          · exact ⟨hc, .inl rfl⟩
          · exact ⟨ha, .inr ⟨fun e => hne e.symm, hl⟩⟩
        · intro h
          obtain ⟨ha, rfl | ⟨hne, hl⟩⟩ := h
          · exact .inl rfl
          · exact .inr ⟨⟨fun e => hne e.symm, ha⟩, hl⟩

theorem not_mem_of_mem_distinctOn {key : α → κ} {taken : List κ} {l : List α} {a : α}
    (h : a ∈ distinctOn key taken l) : key a ∉ taken :=
  ((mem_distinctOn_iff key taken l a).mp h).1

theorem nodup_map_distinctOn (key : α → κ) (taken : List κ) (l : List α) :
    ((distinctOn key taken l).map key).Nodup := by
  induction l generalizing taken with
  | nil => exact List.nodup_nil
  | cons a as ih =>
      simp only [distinctOn]
      split
      · exact ih taken
      · rw [List.map_cons, List.nodup_cons]
        refine ⟨?_, ih _⟩
        intro hmem
        obtain ⟨b, hb, hba⟩ := List.mem_map.mp hmem
        exact not_mem_of_mem_distinctOn hb (hba ▸ List.mem_cons_self ..)

/-- Each key of the list that is not taken is kept. -/
theorem mem_map_distinctOn_iff (key : α → κ) (taken : List κ) (l : List α) (k : κ) :
    k ∈ (distinctOn key taken l).map key ↔ k ∈ l.map key ∧ k ∉ taken := by
  induction l generalizing taken with
  | nil => simp [distinctOn]
  | cons a as ih =>
      simp only [distinctOn, List.map_cons, List.mem_cons]
      by_cases ha : key a ∈ taken
      · rw [if_pos ha, ih]
        constructor
        · intro h
          obtain ⟨hk, ht⟩ := h
          exact ⟨.inr hk, ht⟩
        · intro h
          obtain ⟨rfl | hk, ht⟩ := h
          · exact absurd ha ht
          · exact ⟨hk, ht⟩
      · rw [if_neg ha, List.map_cons, List.mem_cons, ih, List.mem_cons, not_or]
        by_cases hka : k = key a
        · simp [hka, ha]
        · simp [hka]

/--
Where earlier elements are related to later ones, a kept element is related to all others of its
key.
-/
theorem rel_of_mem_distinctOn {key : α → κ} {taken : List κ} {l : List α} {R : α → α → Prop}
    (hl : l.Pairwise R) {a b : α} (ha : a ∈ distinctOn key taken l) (hb : b ∈ l)
    (hkey : key b = key a) : b = a ∨ R a b := by
  obtain ⟨_, before, after, rfl, hbefore⟩ := (mem_distinctOn_iff key taken l a).mp ha
  rcases List.mem_append.mp hb with hb | hb
  · exact absurd hkey (hbefore b hb)
  · rcases List.mem_cons.mp hb with rfl | hb
    · exact .inl rfl
    · have hright := (List.pairwise_append.mp hl).2.1
      exact .inr ((List.pairwise_cons.mp hright).1 b hb)

/-- Without a taken key in the list, `taken` does not matter. -/
theorem distinctOn_of_fresh (key : α → κ) (taken : List κ) (l : List α)
    (h : ∀ a ∈ l, key a ∉ taken) : distinctOn key taken l = distinctOn key [] l := by
  suffices hgen : ∀ seen, distinctOn key (seen ++ taken) l = distinctOn key seen l from hgen []
  induction l with
  | nil => intro seen; rfl
  | cons a as ih =>
      intro seen
      rw [List.forall_mem_cons] at h
      simp only [distinctOn, List.mem_append, h.1, or_false, ← List.cons_append, ih h.2]

theorem distinctOn_of_nodup {key : α → κ} {taken : List κ} {l : List α} (hl : (l.map key).Nodup)
    (h : ∀ a ∈ l, key a ∉ taken) : distinctOn key taken l = l := by
  induction l generalizing taken with
  | nil => rfl
  | cons a as ih =>
      rw [List.map_cons, List.nodup_cons] at hl
      rw [List.forall_mem_cons] at h
      rw [distinctOn, if_neg h.1, ih hl.2]
      intro b hb hmem
      rcases List.mem_cons.mp hmem with hba | hmem
      · exact hl.1 (hba ▸ List.mem_map_of_mem hb)
      · exact h.2 b hb hmem

/-- A taken key is as good as a list without it. -/
theorem distinctOn_cons_taken (key : α → κ) (k : κ) (taken : List κ) (l : List α) :
    distinctOn key (k :: taken) l =
      distinctOn key taken (l.filter (fun a => !decide (key a = k))) := by
  induction l generalizing taken with
  | nil => rfl
  | cons a as ih =>
      by_cases hk : key a = k
      · simp only [distinctOn, hk, List.mem_cons_self, if_true, ih, decide_true, Bool.not_true,
          Bool.false_eq_true, not_false_eq_true, List.filter_cons_of_neg]
      · have hswap : distinctOn key (key a :: k :: taken) as =
            distinctOn key (k :: key a :: taken) as := by
          apply distinctOn_congr
          intro x
          simp only [List.mem_cons, or_left_comm]
        have hmem : key a ∈ k :: taken ↔ key a ∈ taken := by
          simp only [List.mem_cons, hk, false_or]
        rw [List.filter_cons_of_pos (by simp [hk])]
        simp only [distinctOn, hmem, hswap, ih]

/-- Taken keys may as well be left out in the end. -/
theorem distinctOn_eq_filter (key : α → κ) (taken : List κ) (l : List α) :
    distinctOn key taken l = (distinctOn key [] l).filter fun a => key a ∉ taken := by
  induction l generalizing taken with
  | nil => rfl
  | cons a as ih =>
      simp only [distinctOn, List.not_mem_nil, if_false]
      rw [List.filter_cons, ih [key a], List.filter_filter]
      by_cases ha : key a ∈ taken
      · simp only [ha, if_true, not_true_eq_false, decide_false, Bool.false_eq_true, if_false]
        rw [ih taken]
        apply List.filter_congr
        intro b _
        by_cases hb : key b = key a
        · simp [hb, ha]
        · simp [hb]
      · simp only [ha, if_false, not_false_eq_true, decide_true, if_true]
        rw [ih (key a :: taken)]
        congr 1
        apply List.filter_congr
        intro b _
        by_cases hb : key b = key a
        · simp [hb]
        · simp [hb]

theorem map_distinctOn (key : α → κ) (l : List α) :
    (distinctOn key [] l).map key = (l.map key).eraseDups := by
  match l with
  | [] => rfl
  | a :: as =>
      simp only [distinctOn, List.not_mem_nil, if_false, List.map_cons]
      rw [distinctOn_cons_taken, map_distinctOn, List.eraseDups_cons, List.filter_map]
      rfl
termination_by l.length
decreasing_by
  exact Nat.lt_succ_of_le (List.length_filter_le _ _)

theorem eraseDups_append_middle {l m : List κ} (h : ∀ k ∈ m, k ∈ l) (l' : List κ) :
    (l ++ (m ++ l')).eraseDups = (l ++ l').eraseDups := by
  have hm : ∀ k ∈ m, id k ∈ l.map id := by simpa using h
  have hid := congrArg (List.map id) (distinctOn_append_middle hm l')
  rwa [map_distinctOn, map_distinctOn, List.map_id, List.map_id] at hid

theorem nodup_eraseDups (l : List κ) : l.eraseDups.Nodup := by
  have h := nodup_map_distinctOn id [] l
  rwa [map_distinctOn, List.map_id] at h

theorem eraseDups_sublist (l : List κ) : l.eraseDups.Sublist l := by
  have h := (distinctOn_sublist id [] l).map id
  rwa [map_distinctOn, List.map_id] at h

/-- Without repetitions elements stand in the order in which they are first met. -/
theorem pairwise_idxOf_eraseDups (l : List κ) :
    l.eraseDups.Pairwise fun a b => l.idxOf a < l.idxOf b := by
  suffices h : ∀ taken, (distinctOn id taken l).Pairwise fun a b => l.idxOf a < l.idxOf b by
    have hnil := h []
    rwa [← List.map_id (distinctOn id [] l), map_distinctOn, List.map_id] at hnil
  induction l with
  | nil => intro taken; exact List.Pairwise.nil
  | cons a as ih =>
      have hrest : ∀ taken, a ∈ taken →
          (distinctOn id taken as).Pairwise fun x y => (a :: as).idxOf x < (a :: as).idxOf y := by
        intro taken ha
        refine (ih taken).imp_of_mem ?_
        intro x y hx hy hlt
        have hne : ∀ z ∈ distinctOn id taken as, a ≠ z := fun z hz heq =>
          not_mem_of_mem_distinctOn hz (heq ▸ ha)
        rw [List.idxOf_cons_ne _ (hne x hx), List.idxOf_cons_ne _ (hne y hy)]
        exact Nat.succ_lt_succ hlt
      intro taken
      simp only [distinctOn, id]
      split
      · next ha => exact hrest taken ha
      · rw [List.pairwise_cons]
        refine ⟨?_, hrest _ (List.mem_cons_self ..)⟩
        intro b hb
        have hne : a ≠ b := fun heq => not_mem_of_mem_distinctOn hb (heq ▸ List.mem_cons_self ..)
        rw [List.idxOf_cons_self, List.idxOf_cons_ne _ hne]
        exact Nat.succ_pos _

/-- Repetitions are all that keeps a list in order from increasing. -/
theorem pairwise_lt_eraseDups {l : List Nat} (h : l.Pairwise (· ≤ ·)) :
    l.eraseDups.Pairwise (· < ·) := by
  have hne : l.eraseDups.Pairwise (· ≠ ·) := nodup_eraseDups l
  exact (h.sublist (eraseDups_sublist l)).imp₂ (fun _ _ => Nat.lt_of_le_of_ne) hne

/-- A list is shared out among distinct keys that cover it. -/
theorem sum_length_filter_of_cover (key : α → κ) {keys : List κ}
    (hkeys : keys.Nodup) {l : List α} (hcover : ∀ a ∈ l, key a ∈ keys) :
    (keys.map fun k => (l.filter fun a => key a = k).length).sum = l.length := by
  induction l with
  | nil => simp
  | cons a as ih =>
      rw [List.forall_mem_cons] at hcover
      have hcons : ∀ k, ((a :: as).filter fun a => key a = k).length =
          (as.filter fun a => key a = k).length + if key a = k then 1 else 0 := by
        intro k
        by_cases hk : key a = k <;> simp [hk]
      -- The key of the first element is among the keys, and once only.
      have hone : (keys.map fun k => if key a = k then 1 else 0).sum = 1 := by
        rw [List.sum_map_eq_nsmul_single (key a) _ fun k hk _ => if_neg (Ne.symm hk),
          List.count_eq_one_of_mem hkeys hcover.1, if_pos rfl]
        rfl
      simp only [hcons, List.sum_map_add, ih hcover.2, hone, List.length_cons]

end AccessLedger
