/-!
Sets of texts, kept in increasing order of code points without repetitions, so that equal sets are
equal values.
-/

namespace AccessLedger

structure TextSet where
  members : List String
  sorted : members.Pairwise (· < ·)

namespace TextSet

@[ext] theorem ext {s t : TextSet} (h : s.members = t.members) : s = t := by
  cases s; cases t; cases h; rfl

instance : DecidableEq TextSet := fun s t =>
  if h : s.members = t.members then isTrue (ext h)
  else isFalse fun e => h (congrArg members e)

def empty : TextSet :=
  ⟨[], List.Pairwise.nil⟩

instance : Inhabited TextSet := ⟨empty⟩

def contains (s : TextSet) (x : String) : Bool :=
  s.members.contains x

private def place (x : String) : List String → List String
  | [] => [x]
  | y :: ys =>
    if x < y then x :: y :: ys
    else if y < x then y :: place x ys
    else y :: ys

private theorem mem_place {x z : String} {ys : List String} :
    z ∈ place x ys ↔ z = x ∨ z ∈ ys := by
  induction ys with
  | nil => simp [place]
  | cons y ys ih =>
    simp only [place]
    split
    · simp
    · next hxy =>
      split
      · rw [List.mem_cons, ih, List.mem_cons]
        exact or_left_comm
      · next hyx =>
        -- two texts of which neither is less are one
        have hsame : x = y := String.le_antisymm (String.not_lt.mp hyx) (String.not_lt.mp hxy)
        rw [hsame, List.mem_cons, ← or_assoc, or_self]

private theorem sorted_place {x : String} {ys : List String} (h : ys.Pairwise (· < ·)) :
    (place x ys).Pairwise (· < ·) := by
  induction ys with
  | nil => simp [place]
  | cons y ys ih =>
    rw [List.pairwise_cons] at h
    simp only [place]
    split
    · next hxy =>
      refine List.pairwise_cons.2 ⟨fun z hz => ?_, List.pairwise_cons.2 h⟩
      rcases List.mem_cons.1 hz with rfl | hz
      · exact hxy
      · exact String.lt_trans hxy (h.1 z hz)
    · split
      · next hyx =>
        refine List.pairwise_cons.2 ⟨fun z hz => ?_, ih h.2⟩
        rcases mem_place.1 hz with rfl | hz
        · exact hyx
        · exact h.1 z hz
      · exact List.pairwise_cons.2 h

def insert (s : TextSet) (x : String) : TextSet :=
  ⟨place x s.members, sorted_place s.sorted⟩

theorem mem_insert {s : TextSet} {x z : String} :
    z ∈ (s.insert x).members ↔ z = x ∨ z ∈ s.members :=
  mem_place

def ofList (xs : List String) : TextSet :=
  xs.foldl insert empty

theorem mem_ofList {xs : List String} {z : String} : z ∈ (ofList xs).members ↔ z ∈ xs := by
  have hfold : ∀ s : TextSet, z ∈ (xs.foldl insert s).members ↔ z ∈ s.members ∨ z ∈ xs := by
    induction xs with
    | nil => simp
    | cons x xs ih =>
      intro s
      rw [List.foldl_cons, ih, mem_insert, List.mem_cons, or_comm (a := z = x), or_assoc]
  exact (hfold empty).trans (or_iff_right List.not_mem_nil)

end TextSet
end AccessLedger
