import AccessLedger.Proofs.Distinct

/-!
Lists grouped by a key in the order in which the keys are first met. A pass opens a bucket for an
app and a matched group for a group in the same way, so both are read off the laws here.
-/

namespace AccessLedger

universe u v w
variable {α : Type u} {β : Type v} {κ : Type w} [DecidableEq κ]

/-- Changes the first element with the key `k`, or puts a new one at the end. -/
def upsert (key : β → κ) (k : κ) (new : β) (change : β → β) : List β → List β
  | [] => [new]
  | b :: bs => if key b = k then change b :: bs else b :: upsert key k new change bs

/--
How elements are grouped: `start` opens a group, `extend` adds to it, and neither alters a key.
-/
structure Grouping (α : Type u) (β : Type v) (κ : Type w) where
  key : β → κ
  source : α → κ
  start : α → β
  extend : β → α → β
  key_start : ∀ a, key (start a) = source a
  key_extend : ∀ b a, key (extend b a) = key b

namespace Grouping

variable (G : Grouping α β κ)

def insert (groups : List β) (a : α) : List β :=
  upsert G.key (G.source a) (G.start a) (fun b => G.extend b a) groups

/-- The groups of a list, keys in the order of their first elements. -/
def gather (l : List α) : List β :=
  l.foldl G.insert []

def collapse? : List α → Option β
  | [] => none
  | a :: as => some (as.foldl G.extend (G.start a))

omit [DecidableEq κ] in
theorem key_foldl_extend (b : β) (l : List α) : G.key (l.foldl G.extend b) = G.key b := by
  induction l generalizing b with
  | nil => rfl
  | cons a as ih => rw [List.foldl_cons, ih, G.key_extend]

/-- The first group takes its own elements, and the others are gathered as if it were not there. -/
theorem foldl_insert_cons (b : β) (bs : List β) (l : List α) :
    l.foldl G.insert (b :: bs) =
      (l.filter (fun a => G.source a = G.key b)).foldl G.extend b ::
        (l.filter (fun a => !decide (G.source a = G.key b))).foldl G.insert bs := by
  induction l generalizing b bs with
  | nil => rfl
  | cons a as ih =>
      rw [List.foldl_cons]
      by_cases h : G.source a = G.key b
      · have hinsert : G.insert (b :: bs) a = G.extend b a :: bs := by
          simp only [insert, upsert, h, if_true]
        rw [hinsert, ih, G.key_extend]
        simp [h]
      · have hinsert : G.insert (b :: bs) a = b :: G.insert bs a := by
          simp only [insert, upsert, Ne.symm h, if_false]
        rw [hinsert, ih]
        simp [h]

theorem gather_cons (a : α) (as : List α) :
    G.gather (a :: as) =
      (as.filter (fun x => G.source x = G.source a)).foldl G.extend (G.start a) ::
        G.gather (as.filter (fun x => !decide (G.source x = G.source a))) := by
  have h := G.foldl_insert_cons (G.start a) [] as
  rw [G.key_start] at h
  exact h

theorem keys_gather (l : List α) : (G.gather l).map G.key = (l.map G.source).eraseDups := by
  match l with
  | [] => rfl
  | a :: as =>
      rw [gather_cons, List.map_cons, key_foldl_extend, key_start, List.map_cons,
        List.eraseDups_cons, List.filter_map,
        keys_gather (as.filter (fun x => !decide (G.source x = G.source a)))]
      rfl
termination_by l.length
decreasing_by
  exact Nat.lt_succ_of_le (List.length_filter_le _ _)

/-- A group is made of all elements that have its key. -/
theorem collapse?_of_mem_gather (l : List α) (b : β) (hb : b ∈ G.gather l) :
    G.collapse? (l.filter (fun a => G.source a = G.key b)) = some b := by
  match l with
  | [] => exact absurd hb List.not_mem_nil
  | a :: as =>
      rw [gather_cons, List.mem_cons] at hb
      rcases hb with rfl | hb
      · rw [key_foldl_extend, key_start]
        simp [collapse?]
      · have ih := collapse?_of_mem_gather
          (as.filter (fun x => !decide (G.source x = G.source a))) b hb
        have hne : G.key b ≠ G.source a := by
          have hkey := List.mem_map_of_mem (f := G.key) hb
          rw [keys_gather, List.mem_eraseDups, List.mem_map] at hkey
          obtain ⟨x, hx, hxb⟩ := hkey
          rw [← hxb]
          simpa using (List.mem_filter.mp hx).2
        rw [← ih, List.filter_filter, List.filter_cons_of_neg (by simpa using Ne.symm hne)]
        congr 1
        apply List.filter_congr
        intro x _
        by_cases hx : G.source x = G.key b
        · simp [hx, hne]
        · simp [hx]
termination_by l.length
decreasing_by
  exact Nat.lt_succ_of_le (List.length_filter_le _ _)

theorem mem_keys_gather_iff (l : List α) (k : κ) :
    k ∈ (G.gather l).map G.key ↔ ∃ a ∈ l, G.source a = k := by
  rw [keys_gather, List.mem_eraseDups, List.mem_map]

/-- Where elements come in blocks of one key each, every block makes a group of its own. -/
theorem gather_flatMap {ι : Type*} (place : ι → κ) (block : ι → List α) {blocks : List ι}
    (hblock : ∀ i ∈ blocks, ∀ a ∈ block i, G.source a = place i)
    (hnodup : (blocks.map place).Nodup) :
    G.gather (blocks.flatMap block) = blocks.filterMap fun i => G.collapse? (block i) := by
  induction blocks with
  | nil => rfl
  | cons i is ih =>
      rw [List.forall_mem_cons] at hblock
      rw [List.map_cons, List.nodup_cons] at hnodup
      have hrest := ih hblock.2 hnodup.2
      rw [List.flatMap_cons, List.filterMap_cons]
      cases hi : block i with
      | nil => exact hrest
      | cons a as =>
          have hsame : ∀ x ∈ as, G.source x = G.source a := by
            intro x hx
            rw [hblock.1 x (hi ▸ List.mem_cons_of_mem a hx),
              hblock.1 a (hi ▸ List.mem_cons_self ..)]
          have hother : ∀ x ∈ is.flatMap block, G.source x ≠ G.source a := by
            intro x hx hkey
            obtain ⟨j, hj, hx⟩ := List.mem_flatMap.mp hx
            rw [hblock.2 j hj x hx, hblock.1 a (hi ▸ List.mem_cons_self ..)] at hkey
            exact hnodup.1 (hkey ▸ List.mem_map_of_mem hj)
          have hown : (as ++ is.flatMap block).filter (fun x => G.source x = G.source a) = as := by
            rw [List.filter_append, List.filter_eq_self.mpr (by simpa using hsame),
              List.filter_eq_nil_iff.mpr (by simpa using hother), List.append_nil]
          have hothers : (as ++ is.flatMap block).filter
              (fun x => !decide (G.source x = G.source a)) = is.flatMap block := by
            rw [List.filter_append, List.filter_eq_nil_iff.mpr (by simpa using hsame),
              List.filter_eq_self.mpr (by simpa using hother), List.nil_append]
          rw [List.cons_append, gather_cons, hown, hothers, hrest]
          rfl

/-- An element of another key adds nothing to the groups that are kept. -/
theorem filter_insert (p : κ → Bool) (groups : List β) (a : α) :
    (G.insert groups a).filter (fun b => p (G.key b)) =
      if p (G.source a) then G.insert (groups.filter fun b => p (G.key b)) a
      else groups.filter fun b => p (G.key b) := by
  induction groups with
  | nil =>
      simp only [insert, upsert, List.filter_cons, List.filter_nil, G.key_start]
  | cons b bs ih =>
      by_cases hkey : G.key b = G.source a
      · have hinsert : G.insert (b :: bs) a = G.extend b a :: bs := if_pos hkey
        rw [hinsert, List.filter_cons, G.key_extend, List.filter_cons, hkey]
        split
        · exact (if_pos hkey).symm
        · rfl
      · have hinsert : ∀ bs, G.insert (b :: bs) a = b :: G.insert bs a := fun _ => if_neg hkey
        rw [hinsert, List.filter_cons, List.filter_cons, ih]
        split
        · rw [hinsert]
          split <;> rfl
        · rfl

/-- Only the elements of certain keys have a part in the groups of those keys. -/
theorem gather_filter (p : κ → Bool) (l : List α) :
    G.gather (l.filter fun a => p (G.source a)) =
      (G.gather l).filter fun b => p (G.key b) := by
  suffices h : ∀ groups, (l.filter fun a => p (G.source a)).foldl G.insert
      (groups.filter fun b => p (G.key b)) =
        (l.foldl G.insert groups).filter fun b => p (G.key b) from h []
  induction l with
  | nil => intro groups; rfl
  | cons a as ih =>
      intro groups
      rw [List.foldl_cons, ← ih, G.filter_insert, List.filter_cons]
      split
      · rfl
      · rfl

end Grouping
end AccessLedger
