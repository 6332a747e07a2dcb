import AccessLedger.Snapshot.Basic

/-!
The latest of some accesses. Whoever keeps an access until a later one comes by ends with the
latest, and of several at one moment with the first; accesses that are older than it might as well
not have been there.
-/

namespace AccessLedger.Access

/-- The later of two accesses, the first if they are of the same moment. -/
def later (x y : Access) : Access :=
  if x.time < y.time then y else x

/-- Nothing in the list is later, and nothing before it is of the same moment. -/
def IsLatest (l : List Access) (a : Access) : Prop :=
  ∃ before after, l = before ++ a :: after ∧
    (∀ x ∈ before, x.time < a.time) ∧ ∀ x ∈ after, x.time ≤ a.time

variable {l : List Access} {a b x : Access}

theorem isLatest_cons_iff :
    IsLatest (x :: l) a ↔
      (x = a ∧ ∀ y ∈ l, y.time ≤ a.time) ∨ (x.time < a.time ∧ IsLatest l a) := by
  constructor
  · intro h
    obtain ⟨before, after, hsplit, hbefore, hafter⟩ := h
    cases before with
    | nil =>
        rw [List.nil_append, List.cons.injEq] at hsplit
        exact .inl ⟨hsplit.1, hsplit.2 ▸ hafter⟩
    | cons y ys =>
        rw [List.cons_append, List.cons.injEq] at hsplit
        rw [List.forall_mem_cons] at hbefore
        exact .inr ⟨hsplit.1 ▸ hbefore.1, ys, after, hsplit.2, hbefore.2, hafter⟩
  · intro h
    rcases h with ⟨rfl, hle⟩ | ⟨hlt, before, after, rfl, hbefore, hafter⟩
    · exact ⟨[], l, rfl, fun _ hy => absurd hy List.not_mem_nil, hle⟩
    · exact ⟨x :: before, after, rfl, List.forall_mem_cons.mpr ⟨hlt, hbefore⟩, hafter⟩

theorem IsLatest.mem (h : IsLatest l a) : a ∈ l := by
  obtain ⟨before, after, rfl, _⟩ := h
  exact List.mem_append_right before (List.mem_cons_self ..)

theorem IsLatest.time_le (h : IsLatest l a) (hx : x ∈ l) : x.time ≤ a.time := by
  obtain ⟨before, after, rfl, hbefore, hafter⟩ := h
  rcases List.mem_append.mp hx with hx | hx
  · exact Int.le_of_lt (hbefore x hx)
  · rcases List.mem_cons.mp hx with rfl | hx
    · exact Int.le_refl _
    · exact hafter x hx

theorem isLatest_foldl_later (a : Access) (l : List Access) :
    IsLatest (a :: l) (l.foldl later a) := by
  induction l generalizing a with
  | nil => exact ⟨[], [], rfl, by simp, by simp⟩
  | cons x xs ih =>
      rw [List.foldl_cons, later]
      split
      · next hlater =>
        have hx := (ih x).time_le (List.mem_cons_self ..)
        exact isLatest_cons_iff.mpr (.inr ⟨Int.lt_of_lt_of_le hlater hx, ih x⟩)
      · next hlater =>
        have hle : x.time ≤ a.time := Int.not_lt.mp hlater
        -- What comes next was passed over, so it stands behind the first access or is older than
        -- the latest.
        rw [isLatest_cons_iff]
        rcases isLatest_cons_iff.mp (ih a) with ⟨ha, hxs⟩ | ⟨hlt, hxs⟩
        · exact .inl ⟨ha, List.forall_mem_cons.mpr ⟨ha ▸ hle, hxs⟩⟩
        · exact .inr ⟨hlt, isLatest_cons_iff.mpr (.inr ⟨Int.lt_of_le_of_lt hle hlt, hxs⟩)⟩

theorem IsLatest.unique (ha : IsLatest l a) (hb : IsLatest l b) : a = b := by
  induction l with
  | nil => exact absurd ha.mem List.not_mem_nil
  | cons x xs ih =>
      rcases isLatest_cons_iff.mp ha with ⟨hxa, hales⟩ | ⟨hxa, ha⟩
      · rcases isLatest_cons_iff.mp hb with ⟨hxb, _⟩ | ⟨hxb, hb⟩
        · exact hxa.symm.trans hxb
        · exact absurd (hales b hb.mem) (Int.not_le.mpr (hxa ▸ hxb))
      · rcases isLatest_cons_iff.mp hb with ⟨hxb, hbles⟩ | ⟨_, hb⟩
        · exact absurd (hbles a ha.mem) (Int.not_le.mpr (hxb ▸ hxa))
        · exact ih ha hb

/-- The latest of what is kept is the latest of all, where only older accesses are left out. -/
theorem IsLatest.of_filter {p : Access → Bool} (h : IsLatest (l.filter p) a)
    (hold : ∀ x ∈ l, p x = false → x.time < a.time) : IsLatest l a := by
  induction l with
  | nil => exact absurd h.mem List.not_mem_nil
  | cons x xs ih =>
      rw [List.forall_mem_cons] at hold
      rw [List.filter_cons] at h
      rw [isLatest_cons_iff]
      split at h
      · rcases isLatest_cons_iff.mp h with ⟨hxa, hles⟩ | ⟨hlt, h⟩
        · refine .inl ⟨hxa, ?_⟩
          intro y hy
          cases hp : p y with
          | true => exact hles y (List.mem_filter.mpr ⟨hy, hp⟩)
          | false => exact Int.le_of_lt (hold.2 y hy hp)
        · exact .inr ⟨hlt, ih h hold.2⟩
      · next hp => exact .inr ⟨hold.1 (Bool.eq_false_iff.mpr hp), ih h hold.2⟩

end AccessLedger.Access
