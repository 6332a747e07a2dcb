import AccessLedger.Proofs.Distinct
import AccessLedger.Usage.Tree

/-!
The rows of a list of entries. Whatever entries they stand in, they are the matched groups of all
buckets, buckets by rank and groups by recency, less those whose row key came before.
-/

namespace AccessLedger

def rowsOf (tree : List Entry) : List Row :=
  tree.flatMap Entry.rows

/-- A row without the icon that tells whether it stands alone. -/
def Row.bare (r : Row) : Row :=
  { r with appIcon := none }

def Bucket.recentFirst (b : Bucket) : List MatchedGroup :=
  b.groups.mergeSort fun x y => y.time ≤ x.time

def Usage.ranked (u : Usage) : List Bucket :=
  u.buckets.mergeSort fun x y => x.ranking y != .gt

/-- What could become a row, with the key of its app. -/
abbrev Candidate := String × MatchedGroup

namespace Candidate

def key (x : Candidate) : String :=
  rowKey x.1 x.2.name

def ofBucket (b : Bucket) : List Candidate :=
  b.recentFirst.map fun g => (b.appKey, g)

def ofBuckets (buckets : List Bucket) : List Candidate :=
  buckets.flatMap ofBucket

def row (d : Display) (x : Candidate) : Row :=
  d.row x.1 none x.2

end Candidate

theorem ofBuckets_cons (b : Bucket) (bs : List Bucket) :
    Candidate.ofBuckets (b :: bs) = Candidate.ofBucket b ++ Candidate.ofBuckets bs :=
  List.flatMap_cons

theorem mem_recentFirst {b : Bucket} {g : MatchedGroup} : g ∈ b.recentFirst ↔ g ∈ b.groups :=
  List.mem_mergeSort

theorem mem_ranked {u : Usage} {b : Bucket} : b ∈ u.ranked ↔ b ∈ u.buckets :=
  List.mem_mergeSort

theorem mem_ofBuckets {buckets : List Bucket} {x : Candidate} :
    x ∈ Candidate.ofBuckets buckets ↔ ∃ b ∈ buckets, b.appKey = x.1 ∧ x.2 ∈ b.groups := by
  obtain ⟨appKey, g⟩ := x
  simp only [Candidate.ofBuckets, Candidate.ofBucket, List.mem_flatMap, List.mem_map,
    mem_recentFirst, Prod.mk.injEq]
  constructor
  · intro h
    obtain ⟨b, hb, g', hg, rfl, rfl⟩ := h
    exact ⟨b, hb, rfl, hg⟩
  · intro h
    obtain ⟨b, hb, rfl, hg⟩ := h
    exact ⟨b, hb, g, hg, rfl, rfl⟩

theorem nodup_ranked {u : Usage} (h : (u.buckets.map (·.appKey)).Nodup) :
    (u.ranked.map (·.appKey)).Nodup :=
  ((List.mergeSort_perm _ _).map _).nodup_iff.mpr h

theorem pairwise_recentFirst (b : Bucket) :
    b.recentFirst.Pairwise fun x y => y.time ≤ x.time := by
  rw [Bucket.recentFirst]
  refine List.Pairwise.imp (fun {_ _} hle => of_decide_eq_true hle)
    (List.pairwise_mergeSort ?_ ?_ b.groups)
  · intro x y z hxy hyz
    simp only [decide_eq_true_eq] at *
    omega
  · intro x y
    simp only [Bool.or_eq_true, decide_eq_true_eq]
    omega

/-- Of two candidates of one app the later one is not the more recent one. -/
theorem pairwise_ofBuckets {buckets : List Bucket} (h : (buckets.map (·.appKey)).Nodup) :
    (Candidate.ofBuckets buckets).Pairwise fun x y => y.1 = x.1 → y.2.time ≤ x.2.time := by
  induction buckets with
  | nil => exact List.Pairwise.nil
  | cons b bs ih =>
      rw [List.map_cons, List.nodup_cons] at h
      rw [ofBuckets_cons, List.pairwise_append]
      refine ⟨?_, ih h.2, ?_⟩
      · rw [Candidate.ofBucket, List.pairwise_map]
        refine (pairwise_recentFirst b).imp ?_
        intro g g' hle _
        exact hle
      · intro x hx y hy hkey
        obtain ⟨b', hb', hkey', _⟩ := mem_ofBuckets.mp hy
        obtain ⟨g, _, rfl⟩ := List.mem_map.mp hx
        exact absurd (List.mem_map.mpr ⟨b', hb', hkey'.trans hkey⟩) h.1

namespace Display

theorem unclaimed_fst (appKey : String) (taken : List String) (groups : List MatchedGroup) :
    (unclaimed appKey taken groups).1 =
      distinctOn (fun g => rowKey appKey g.name) taken groups := by
  induction groups generalizing taken with
  | nil => rfl
  | cons g gs ih =>
      simp only [unclaimed, distinctOn, List.contains_eq_mem, decide_eq_true_eq, ← ih]
      split <;> rfl

theorem mem_unclaimed_snd (appKey : String) (taken : List String) (groups : List MatchedGroup)
    (key : String) :
    key ∈ (unclaimed appKey taken groups).2 ↔
      key ∈ groups.map (fun g => rowKey appKey g.name) ++ taken := by
  induction groups generalizing taken with
  | nil => rfl
  | cons g gs ih =>
      simp only [unclaimed, List.contains_eq_mem, decide_eq_true_eq]
      split
      · next htaken =>
        rw [ih]
        simp only [List.map_cons, List.cons_append, List.mem_cons, List.mem_append]
        refine ⟨Or.inr, ?_⟩
        intro h
        obtain rfl | h := h
        · exact .inr htaken
        · exact h
      · rw [ih]
        simp only [List.map_cons, List.cons_append, List.mem_cons, List.mem_append]
        exact or_left_comm

theorem bare_rows_entryFor? (d : Display) (appKey : String) (groups : List MatchedGroup) :
    (rowsOf (d.entryFor? appKey groups).toList).map Row.bare = groups.map (d.row appKey none) := by
  match groups with
  | [] => rfl
  | [_] => rfl
  | g :: g' :: gs =>
      simp only [entryFor?, rowsOf, Option.toList_some, List.flatMap_singleton, Entry.rows,
        List.map_map]
      rfl

theorem entries_cons (d : Display) (taken : List String) (b : Bucket) (bs : List Bucket) :
    d.entries taken (b :: bs) =
      (d.entryFor? b.appKey (unclaimed b.appKey taken b.recentFirst).1).toList ++
        d.entries (unclaimed b.appKey taken b.recentFirst).2 bs :=
  rfl

/--
Entries are formed bucket by bucket, but their rows are those of one walk over all candidates.
-/
theorem bare_rows_entries (d : Display) (taken : List String) (buckets : List Bucket) :
    (rowsOf (d.entries taken buckets)).map Row.bare =
      (distinctOn Candidate.key taken (Candidate.ofBuckets buckets)).map (Candidate.row d) := by
  induction buckets generalizing taken with
  | nil => rfl
  | cons b bs ih =>
      have hfirst : (unclaimed b.appKey taken b.recentFirst).1.map (d.row b.appKey none) =
          (distinctOn Candidate.key taken (Candidate.ofBucket b)).map (Candidate.row d) := by
        rw [unclaimed_fst, Candidate.ofBucket, distinctOn_map, List.map_map]
        rfl
      have hrest : distinctOn Candidate.key (unclaimed b.appKey taken b.recentFirst).2
            (Candidate.ofBuckets bs) =
          distinctOn Candidate.key ((Candidate.ofBucket b).map Candidate.key ++ taken)
            (Candidate.ofBuckets bs) := by
        apply distinctOn_congr
        intro key
        rw [mem_unclaimed_snd, Candidate.ofBucket, List.map_map]
        rfl
      rw [entries_cons, rowsOf, List.flatMap_append, List.map_append]
      change (rowsOf _).map _ ++ (rowsOf _).map _ = _
      rw [bare_rows_entryFor?, ih, hrest, hfirst, ofBuckets_cons, distinctOn_append,
        List.map_append]

theorem bare_rows_tree (d : Display) (u : Usage) :
    (rowsOf (d.tree u)).map Row.bare =
      (distinctOn Candidate.key [] (Candidate.ofBuckets u.ranked)).map (Candidate.row d) :=
  bare_rows_entries d [] u.ranked

/-- A row tells which candidate it was made of: the first one with its key. -/
theorem exists_candidate_of_mem_rows {d : Display} {u : Usage} {r : Row}
    (hr : r ∈ rowsOf (d.tree u)) :
    ∃ x ∈ distinctOn Candidate.key [] (Candidate.ofBuckets u.ranked), r.bare = x.row d := by
  have h := List.mem_map_of_mem (f := Row.bare) hr
  rw [bare_rows_tree, List.mem_map] at h
  obtain ⟨x, hx, hrow⟩ := h
  exact ⟨x, hx, hrow.symm⟩

theorem keys_rows_tree (d : Display) (u : Usage) :
    (rowsOf (d.tree u)).map (·.key) =
      ((Candidate.ofBuckets u.ranked).map Candidate.key).eraseDups := by
  have h := congrArg (List.map (·.key)) (bare_rows_tree d u)
  rw [List.map_map, List.map_map] at h
  rw [← map_distinctOn]
  exact h

theorem nodup_keys_rows_tree (d : Display) (u : Usage) :
    ((rowsOf (d.tree u)).map (·.key)).Nodup := by
  rw [keys_rows_tree]
  exact nodup_eraseDups _

theorem mem_keys_rows_tree_iff (d : Display) (u : Usage) (key : String) :
    key ∈ (rowsOf (d.tree u)).map (·.key) ↔
      ∃ b ∈ u.buckets, ∃ g ∈ b.groups, key = rowKey b.appKey g.name := by
  rw [keys_rows_tree, List.mem_eraseDups, List.mem_map]
  constructor
  · intro h
    obtain ⟨x, hx, rfl⟩ := h
    obtain ⟨b, hb, hkey, hg⟩ := mem_ofBuckets.mp hx
    exact ⟨b, mem_ranked.mp hb, x.2, hg, by rw [Candidate.key, hkey]⟩
  · intro h
    obtain ⟨b, hb, g, hg, rfl⟩ := h
    exact ⟨(b.appKey, g), mem_ofBuckets.mpr ⟨b, mem_ranked.mpr hb, rfl, hg⟩, rfl⟩

end Display
end AccessLedger
