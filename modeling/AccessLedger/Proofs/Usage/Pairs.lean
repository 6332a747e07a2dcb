import AccessLedger.Proofs.Usage.Buckets
import AccessLedger.Proofs.Usage.Rows

/-!
Pairs of an app and a group name, and their rows. A row key joins the two parts of a pair with a
comma, and the parts may hold commas themselves. Every pair has its own row exactly when no two
pairs of the pass join to the same key; pairs that do have one row between them.
-/

namespace AccessLedger

/-- The pairs for which a pass found listed accesses, a pair once for each group of its name. -/
def Usage.pairs (u : Usage) : List (String × String) :=
  u.buckets.flatMap fun b => b.groups.map fun g => (b.appKey, g.name)

def Row.pair (r : Row) : String × String :=
  (r.appKey, r.groupName)

/-- No two pairs of the pass join to the same row key. -/
def Usage.KeysApart (u : Usage) : Prop :=
  ∀ p ∈ u.pairs, ∀ q ∈ u.pairs, rowKey p.1 p.2 = rowKey q.1 q.2 → p = q

/-- Nothing that a pass found is lost from its list. -/
structure ShowsEachPair (d : Display) (u : Usage) : Prop where
  once : ∀ p ∈ u.pairs, ((rowsOf (d.tree u)).filter fun r => r.pair = p).length = 1
  /-- Each bucket has its entry, with as many rows as it was ranked by. -/
  counted : (d.tree u).map (fun e => (e.appKey, e.rows.length)) =
    u.ranked.map fun b => (b.appKey, b.groupCount)

theorem mem_pairs_iff {u : Usage} {p : String × String} :
    p ∈ u.pairs ↔ ∃ b ∈ u.buckets, b.appKey = p.1 ∧ ∃ g ∈ b.groups, g.name = p.2 := by
  obtain ⟨appKey, name⟩ := p
  simp only [Usage.pairs, List.mem_flatMap, List.mem_map, Prod.mk.injEq]
  constructor
  · intro h
    obtain ⟨b, hb, g, hg, hkey, hname⟩ := h
    exact ⟨b, hb, hkey, g, hg, hname⟩
  · intro h
    obtain ⟨b, hb, hkey, g, hg, hname⟩ := h
    exact ⟨b, hb, g, hg, hkey, hname⟩

section Keys

theorem toList_rowKey (appKey name : String) :
    (rowKey appKey name).toList = appKey.toList ++ ',' :: name.toList := by
  simp [rowKey]

/-- Within one app the key tells group names apart, whatever characters they hold. -/
theorem rowKey_right_inj {appKey name name' : String} :
    rowKey appKey name = rowKey appKey name' ↔ name = name' :=
  String.append_right_inj _

/-- The first comma ends the app key, if app keys have none. -/
theorem rowKey_inj_of_no_comma {appKey appKey' name name' : String} (h : ',' ∉ appKey.toList)
    (h' : ',' ∉ appKey'.toList) (heq : rowKey appKey name = rowKey appKey' name') :
    appKey = appKey' ∧ name = name' := by
  have hlists := congrArg String.toList heq
  rw [toList_rowKey, toList_rowKey] at hlists
  have hcut : ∀ {key rest : List Char}, ',' ∉ key →
      (key ++ ',' :: rest).takeWhile (· != ',') = key := by
    intro key rest hkey
    rw [List.takeWhile_append_of_pos]
    · simp
    · intro x hx
      have hne : x ≠ ',' := fun e => hkey (e ▸ hx)
      simpa using hne
  have hkeys : appKey.toList = appKey'.toList := by rw [← hcut h, hlists, hcut h']
  have happ : appKey = appKey' := String.toList_inj.mp hkeys
  subst happ
  exact ⟨rfl, rowKey_right_inj.mp heq⟩

theorem keysApart_of_no_comma {u : Usage} (h : ∀ b ∈ u.buckets, ',' ∉ b.appKey.toList) :
    u.KeysApart := by
  intro p hp q hq hkey
  obtain ⟨b, hb, hbp, _⟩ := mem_pairs_iff.mp hp
  obtain ⟨b', hb', hbq, _⟩ := mem_pairs_iff.mp hq
  obtain ⟨happ, hname⟩ := rowKey_inj_of_no_comma (hbp ▸ h b hb) (hbq ▸ h b' hb') hkey
  exact Prod.ext happ hname

end Keys

theorem pair_mem_pairs {d : Display} {u : Usage} {r : Row} (hr : r ∈ rowsOf (d.tree u)) :
    r.pair ∈ u.pairs ∧ r.key = rowKey r.pair.1 r.pair.2 := by
  obtain ⟨x, hx, hrow⟩ := Display.exists_candidate_of_mem_rows hr
  have hpair : r.pair = (x.1, x.2.name) := congrArg Row.pair hrow
  have hkey : r.key = x.key := congrArg Row.key hrow
  obtain ⟨b, hb, hbx, hg⟩ := mem_ofBuckets.mp ((distinctOn_sublist Candidate.key [] _).subset hx)
  rw [hpair, hkey]
  exact ⟨mem_pairs_iff.mpr ⟨b, mem_ranked.mp hb, hbx, x.2, hg, rfl⟩, rfl⟩

theorem exists_row_of_mem_pairs (d : Display) {u : Usage} {p : String × String} (hp : p ∈ u.pairs) :
    ∃ r ∈ rowsOf (d.tree u), r.key = rowKey p.1 p.2 := by
  obtain ⟨b, hb, hkey, g, hg, hname⟩ := mem_pairs_iff.mp hp
  have hmem : rowKey p.1 p.2 ∈ (rowsOf (d.tree u)).map (·.key) :=
    (Display.mem_keys_rows_tree_iff d u _).mpr ⟨b, hb, g, hg, by rw [hkey, hname]⟩
  exact List.mem_map.mp hmem

theorem eq_of_key_eq {d : Display} {u : Usage} {r r' : Row} (hr : r ∈ rowsOf (d.tree u))
    (hr' : r' ∈ rowsOf (d.tree u)) (hkey : r.key = r'.key) : r = r' :=
  List.inj_on_of_nodup_map (Display.nodup_keys_rows_tree d u) hr hr' hkey

/-- Where every pair has one row, two pairs of one key would share it. -/
theorem keysApart_of_once {d : Display} {u : Usage}
    (h : ∀ p ∈ u.pairs, ((rowsOf (d.tree u)).filter fun r => r.pair = p).length = 1) :
    u.KeysApart := by
  intro p hp q hq hkey
  have hrow : ∀ p ∈ u.pairs, ∃ r ∈ rowsOf (d.tree u), r.pair = p ∧ r.key = rowKey p.1 p.2 := by
    intro p hp
    obtain ⟨r, hr⟩ := List.length_pos_iff_exists_mem.mp
      (Nat.lt_of_lt_of_eq Nat.zero_lt_one (h p hp).symm)
    obtain ⟨hr, hpair⟩ := List.mem_filter.mp hr
    have hpair : r.pair = p := of_decide_eq_true hpair
    exact ⟨r, hr, hpair, hpair ▸ (pair_mem_pairs hr).2⟩
  obtain ⟨r, hr, rfl, hrkey⟩ := hrow p hp
  obtain ⟨r', hr', rfl, hrkey'⟩ := hrow q hq
  rw [eq_of_key_eq hr hr' (hrkey.trans (hkey.trans hrkey'.symm))]

/-- Where keys are apart, the row with the key of a pair is its own, and there is no other. -/
theorem once_of_keysApart (d : Display) {u : Usage} (h : u.KeysApart) (p : String × String)
    (hp : p ∈ u.pairs) : ((rowsOf (d.tree u)).filter fun r => r.pair = p).length = 1 := by
  obtain ⟨r, hr, hkey⟩ := exists_row_of_mem_pairs d hp
  have hpair : r.pair = p :=
    h r.pair (pair_mem_pairs hr).1 p hp ((pair_mem_pairs hr).2.symm.trans hkey)
  have hnodup : (rowsOf (d.tree u)).Nodup := (Display.nodup_keys_rows_tree d u).of_map
  have hperm : ((rowsOf (d.tree u)).filter fun r => r.pair = p).Perm [r] := by
    rw [List.perm_ext_iff_of_nodup (hnodup.filter _) (List.nodup_singleton r)]
    intro r'
    rw [List.mem_filter, List.mem_singleton, decide_eq_true_eq]
    constructor
    · intro h
      obtain ⟨hr', hpair'⟩ := h
      exact eq_of_key_eq hr' hr ((pair_mem_pairs hr').2.trans (hpair' ▸ hkey.symm))
    · intro heq
      subst heq
      exact ⟨hr, hpair⟩
  exact hperm.length_eq

/-- Within an app the rows are as many as the group names, however many groups share a name. -/
theorem length_distinctOn_recentFirst (b : Bucket) :
    (distinctOn (fun g => rowKey b.appKey g.name) [] b.recentFirst).length = b.groupCount := by
  have hlength : (distinctOn (fun g => rowKey b.appKey g.name) [] b.recentFirst).length =
      ((b.recentFirst.map (·.name)).eraseDups.map (rowKey b.appKey)).length := by
    rw [← List.length_map (f := fun g : MatchedGroup => rowKey b.appKey g.name), map_distinctOn]
    apply List.Perm.length_eq
    rw [List.perm_ext_iff_of_nodup (nodup_eraseDups _)
      ((nodup_eraseDups _).map fun _ _ h => rowKey_right_inj.mp h)]
    intro key
    simp only [List.mem_eraseDups, List.mem_map, exists_exists_and_eq_and]
  have hperm : (b.recentFirst.map (·.name)).eraseDups.Perm (b.groups.map (·.name)).eraseDups := by
    rw [List.perm_ext_iff_of_nodup (nodup_eraseDups _) (nodup_eraseDups _)]
    intro name
    simp only [List.mem_eraseDups, List.mem_map, mem_recentFirst]
  rw [hlength, List.length_map, hperm.length_eq]
  rfl

theorem map_entryFor? (d : Display) (appKey : String) {groups : List MatchedGroup}
    (h : groups ≠ []) :
    (d.entryFor? appKey groups).toList.map (fun e => (e.appKey, e.rows.length)) =
      [(appKey, groups.length)] := by
  match groups with
  | [] => exact absurd rfl h
  | [_] => rfl
  | _ :: _ :: _ => simp [Display.entryFor?, Entry.appKey, Entry.rows]

/-- Buckets whose keys meet neither each other nor the taken ones have all their rows. -/
theorem map_entries (d : Display) (taken : List String) (buckets : List Bucket)
    (hgroups : ∀ b ∈ buckets, b.groups ≠ [])
    (hfresh : ∀ b ∈ buckets, ∀ g ∈ b.groups, rowKey b.appKey g.name ∉ taken)
    (hapart : buckets.Pairwise fun b b' => ∀ g ∈ b.groups, ∀ g' ∈ b'.groups,
      rowKey b'.appKey g'.name ≠ rowKey b.appKey g.name) :
    (d.entries taken buckets).map (fun e => (e.appKey, e.rows.length)) =
      buckets.map fun b => (b.appKey, b.groupCount) := by
  induction buckets generalizing taken with
  | nil => rfl
  | cons b bs ih =>
      rw [List.forall_mem_cons] at hgroups hfresh
      rw [List.pairwise_cons] at hapart
      have hkept : (Display.unclaimed b.appKey taken b.recentFirst).1 =
          distinctOn (fun g => rowKey b.appKey g.name) [] b.recentFirst := by
        rw [Display.unclaimed_fst]
        exact distinctOn_of_fresh _ taken b.recentFirst fun g hg =>
          hfresh.1 g (mem_recentFirst.mp hg)
      have hsome : distinctOn (fun g => rowKey b.appKey g.name) [] b.recentFirst ≠ [] := by
        intro hnil
        have hcount := length_distinctOn_recentFirst b
        rw [hnil] at hcount
        obtain ⟨g, hg⟩ := List.exists_mem_of_ne_nil b.groups hgroups.1
        have hname : g.name ∈ (b.groups.map (·.name)).eraseDups :=
          List.mem_eraseDups.mpr (List.mem_map_of_mem hg)
        exact absurd hcount (Nat.ne_of_lt (List.length_pos_of_mem hname))
      have hrest : (d.entries (Display.unclaimed b.appKey taken b.recentFirst).2 bs).map
            (fun e => (e.appKey, e.rows.length)) = bs.map fun b => (b.appKey, b.groupCount) := by
        apply ih _ hgroups.2 _ hapart.2
        intro b' hb' g' hg' hmem
        rw [Display.mem_unclaimed_snd, List.mem_append, List.mem_map] at hmem
        rcases hmem with ⟨g, hg, hkey⟩ | hmem
        · exact hapart.1 b' hb' g (mem_recentFirst.mp hg) g' hg' hkey.symm
        · exact hfresh.2 b' hb' g' hg' hmem
      rw [Display.entries_cons, List.map_append, hrest, hkept, map_entryFor? d _ hsome,
        length_distinctOn_recentFirst]
      rfl

section Usage

variable {s : Snapshot} {c : Criteria}

theorem counted_of_keysApart (d : Display) (h : (s.usage c).KeysApart) :
    (d.tree (s.usage c)).map (fun e => (e.appKey, e.rows.length)) =
      (s.usage c).ranked.map fun b => (b.appKey, b.groupCount) := by
  apply map_entries d [] (s.usage c).ranked
  · intro b hb
    exact groups_ne_nil_of_mem_usage (mem_ranked.mp hb)
  · intro b _ g _
    exact List.not_mem_nil
  · have hkeys := nodup_ranked (nodup_appKeys s c)
    rw [List.nodup_iff_pairwise_ne, List.pairwise_map] at hkeys
    refine hkeys.imp_of_mem ?_
    intro b b' hb hb' hne g hg g' hg' hkey
    have hp : (b.appKey, g.name) ∈ (s.usage c).pairs :=
      mem_pairs_iff.mpr ⟨b, mem_ranked.mp hb, rfl, g, hg, rfl⟩
    have hq : (b'.appKey, g'.name) ∈ (s.usage c).pairs :=
      mem_pairs_iff.mpr ⟨b', mem_ranked.mp hb', rfl, g', hg', rfl⟩
    exact hne (congrArg Prod.fst (h _ hp _ hq hkey.symm))

/-- Nothing is lost from a list exactly when no two pairs of the pass join to the same key. -/
theorem showsEachPair_iff_keysApart (s : Snapshot) (c : Criteria) (d : Display) :
    ShowsEachPair d (s.usage c) ↔ (s.usage c).KeysApart := by
  constructor
  · intro h
    exact keysApart_of_once h.once
  · intro h
    exact ⟨once_of_keysApart d h, counted_of_keysApart d h⟩

/-- Two apps and two group names that join to the one key `a,b,c`. -/
def sharedKey : Snapshot where
  groups := [
    { name := "b,c", label := "Camera", declaredBy := "android"
      grants := [{ appKey := "a", accesses := [⟨"a", "b,c", "Camera", 100⟩] }] },
    { name := "c", label := "Contacts", declaredBy := "android"
      grants := [{ appKey := "a,b", accesses := [⟨"a,b", "c", "Contacts", 200⟩] }] }]
  apps := [
    { key := "a", label := "First", userFacing := true },
    { key := "a,b", label := "Second", userFacing := true }]

/-- Of the two pairs one goes without a row. -/
theorem not_showsEachPair_sharedKey :
    ¬ ShowsEachPair ⟨1000, {}, sharedKey⟩ (sharedKey.usage ⟨{}, {}, 1000⟩) := by
  intro h
  have hapart : (sharedKey.usage ⟨{}, {}, 1000⟩).KeysApart := keysApart_of_once h.once
  have hpair : (("a", "b,c") : String × String) = ("a,b", "c") :=
    hapart _ (by decide) _ (by decide) (by decide)
  exact absurd hpair (by decide)

end Usage
end AccessLedger
