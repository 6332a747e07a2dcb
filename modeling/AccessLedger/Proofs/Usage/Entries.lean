import AccessLedger.Proofs.Usage.Buckets
import AccessLedger.Proofs.Usage.Rows

/-!
The shape of a list. An entry is made of one bucket, with a row for each of its groups whose row key
is not taken by then, and a bucket all of whose keys are taken has no entry. Whatever is taken, an
app has no more than one entry, an entry is never without rows, and its form goes by the number of
its rows alone.
-/

namespace AccessLedger

namespace Snapshot

/--
What an app goes by: title and icon of the first app that is listed with its key, or the key and no
icon.
-/
inductive Faces (s : Snapshot) (appKey : String) : String → String → Prop
  | listed {before after : List App} {app : App} (split : s.apps = before ++ app :: after)
      (key : app.key = appKey) (first : ∀ x ∈ before, x.key ≠ appKey) :
      Faces s appKey app.label app.icon
  | unlisted (absent : ∀ x ∈ s.apps, x.key ≠ appKey) : Faces s appKey appKey ""

end Snapshot

/-- A row all of whose parts are taken from one matched group. -/
structure Row.Depicts (d : Display) (g : MatchedGroup) (r : Row) : Prop where
  groupName : r.groupName = g.name
  groupLabel : r.groupLabel = g.latest.groupLabel
  groupIcon : r.groupIcon = g.icon
  time : r.time = g.latest.time
  summary : r.summary =
    d.labels.summary g.latest.groupLabel (describeElapsed (elapsed d.now g.latest.time))

namespace Entry

/-- One row with the icon of the app, or several rows without it below the app. -/
inductive Form (title icon : String) : Entry → Prop
  | single {row : Row} (titled : row.title = title) (marked : row.appIcon = some icon) :
      Form title icon (single row)
  | grouped {appKey : String} {rows : List Row} (several : 2 ≤ rows.length)
      (titled : ∀ r ∈ rows, r.title = title) (unmarked : ∀ r ∈ rows, r.appIcon = none) :
      Form title icon (grouped appKey title icon (rows.map (·.groupIcon)) rows)

/-- An entry of a pass, as far as one entry goes. -/
structure Shaped (d : Display) (u : Usage) (e : Entry) : Prop where
  rows_ne_nil : e.rows ≠ []
  single_iff : (∃ row, e = single row) ↔ e.rows.length = 1
  form : ∃ title icon, d.snapshot.Faces e.appKey title icon ∧ e.Form title icon
  appKey : ∀ r ∈ e.rows, r.appKey = e.appKey
  depicts : ∃ b ∈ u.buckets, b.appKey = e.appKey ∧ ∀ r ∈ e.rows, ∃ g ∈ b.groups, r.Depicts d g

theorem Form.single_iff {title icon : String} {e : Entry} (h : e.Form title icon) :
    (∃ row, e = .single row) ↔ e.rows.length = 1 := by
  cases h with
  | @single row _ _ => exact iff_of_true ⟨row, rfl⟩ rfl
  | grouped several _ _ =>
      refine iff_of_false ?_ (Nat.ne_of_gt several)
      rintro ⟨row, hrow⟩
      cases hrow

theorem Form.rows_ne_nil {title icon : String} {e : Entry} (h : e.Form title icon) :
    e.rows ≠ [] := by
  cases h with
  | @single row _ _ => exact List.cons_ne_nil row []
  | grouped several _ _ =>
      exact List.ne_nil_of_length_pos (Nat.lt_of_lt_of_le Nat.zero_lt_two several)

end Entry

/-- The list of a pass. -/
structure Display.Shaped (d : Display) (u : Usage) (tree : List Entry) : Prop where
  nil_iff : tree = [] ↔ u.buckets = []
  once : (tree.map (·.appKey)).Nodup
  entries : ∀ e ∈ tree, e.Shaped d u

/-- The groups of a bucket that have a row where some row keys are taken. -/
def Bucket.free (b : Bucket) (taken : List String) : List MatchedGroup :=
  distinctOn (fun g => rowKey b.appKey g.name) taken b.recentFirst

theorem free_sublist (b : Bucket) (taken : List String) : (b.free taken).Sublist b.recentFirst :=
  distinctOn_sublist _ taken b.recentFirst

theorem free_nil_ne_nil {b : Bucket} (h : b.groups ≠ []) : b.free [] ≠ [] := by
  rw [Bucket.free]
  cases hgroups : b.recentFirst with
  | nil =>
      obtain ⟨g, hg⟩ := List.exists_mem_of_ne_nil b.groups h
      rw [← mem_recentFirst, hgroups] at hg
      exact absurd hg List.not_mem_nil
  | cons g gs =>
      rw [distinctOn, if_neg List.not_mem_nil]
      exact List.cons_ne_nil _ _

namespace Display

variable {d : Display} {taken : List String} {buckets : List Bucket} {e : Entry}

theorem entryFor?_cases {appKey : String} {groups : List MatchedGroup}
    (h : d.entryFor? appKey groups = some e) :
    (∃ g, groups = [g] ∧ e = .single (d.row appKey (some (d.appFace appKey).2) g)) ∨
      (2 ≤ groups.length ∧ e = .grouped appKey (d.appFace appKey).1 (d.appFace appKey).2
        (groups.map (·.icon)) (groups.map (d.row appKey none))) := by
  match groups with
  | [] => cases h
  | [g] => exact .inl ⟨g, rfl, (Option.some.inj h).symm⟩
  | _ :: _ :: _ => exact .inr ⟨Nat.le_add_left 2 _, (Option.some.inj h).symm⟩

theorem entryFor?_ne_none {appKey : String} {groups : List MatchedGroup} (h : groups ≠ []) :
    d.entryFor? appKey groups ≠ none := by
  match groups with
  | [] => exact absurd rfl h
  | [_] => exact Option.some_ne_none _
  | _ :: _ :: _ => exact Option.some_ne_none _

theorem appKey_of_entryFor? {appKey : String} {groups : List MatchedGroup}
    (h : d.entryFor? appKey groups = some e) : e.appKey = appKey := by
  rcases entryFor?_cases h with ⟨g, _, rfl⟩ | ⟨_, rfl⟩
  · rfl
  · rfl

/-- The rows of an entry are those of its groups, in their order. -/
theorem rows_of_entryFor? {appKey : String} {groups : List MatchedGroup}
    (h : d.entryFor? appKey groups = some e) : ∃ icon, e.rows = groups.map (d.row appKey icon) := by
  rcases entryFor?_cases h with ⟨g, rfl, rfl⟩ | ⟨_, rfl⟩
  · exact ⟨_, rfl⟩
  · exact ⟨none, rfl⟩

theorem faces_appFace (d : Display) (appKey : String) :
    d.snapshot.Faces appKey (d.appFace appKey).1 (d.appFace appKey).2 := by
  rw [appFace]
  cases happ : d.snapshot.app? appKey with
  | none =>
      rw [Snapshot.app?, List.find?_eq_none] at happ
      exact .unlisted fun x hx hkey => happ x hx (beq_iff_eq.mpr hkey)
  | some app =>
      rw [Snapshot.app?, List.find?_eq_some_iff_append] at happ
      obtain ⟨hkey, before, after, hsplit, hbefore⟩ := happ
      refine .listed hsplit (beq_iff_eq.mp hkey) ?_
      intro x hx
      simpa using hbefore x hx

theorem form_of_entryFor? {appKey : String} {groups : List MatchedGroup}
    (h : d.entryFor? appKey groups = some e) :
    e.Form (d.appFace appKey).1 (d.appFace appKey).2 := by
  rcases entryFor?_cases h with ⟨g, _, rfl⟩ | ⟨hlength, rfl⟩
  · exact .single rfl rfl
  · have hicons : groups.map (·.icon) = (groups.map (d.row appKey none)).map (·.groupIcon) := by
      rw [List.map_map]
      rfl
    rw [hicons]
    refine .grouped ?_ ?_ ?_
    · rwa [List.length_map]
    · exact List.forall_mem_map.mpr fun _ _ => rfl
    · exact List.forall_mem_map.mpr fun _ _ => rfl

/-- An entry is made of what is free of one bucket. -/
theorem exists_bucket_of_mem_entries (he : e ∈ d.entries taken buckets) :
    ∃ b ∈ buckets, ∃ taken', d.entryFor? b.appKey (b.free taken') = some e := by
  induction buckets generalizing taken with
  | nil => exact absurd he List.not_mem_nil
  | cons b bs ih =>
      rw [entries_cons, unclaimed_fst, List.mem_append, Option.mem_toList] at he
      rcases he with he | he
      · exact ⟨b, List.mem_cons_self .., taken, he⟩
      · obtain ⟨b', hb', h⟩ := ih he
        exact ⟨b', List.mem_cons_of_mem b hb', h⟩

/-- Entries stand in the order of their buckets. -/
theorem appKeys_entries_sublist (d : Display) (taken : List String) (buckets : List Bucket) :
    ((d.entries taken buckets).map (·.appKey)).Sublist (buckets.map (·.appKey)) := by
  induction buckets generalizing taken with
  | nil => exact List.Sublist.slnil
  | cons b bs ih =>
      rw [entries_cons, List.map_append, List.map_cons]
      cases he : d.entryFor? b.appKey (unclaimed b.appKey taken b.recentFirst).1 with
      | none => exact (ih _).cons b.appKey
      | some e =>
          rw [Option.toList_some, List.map_singleton, appKey_of_entryFor? he]
          exact (ih _).cons_cons b.appKey

/-- Nothing is taken from the first bucket, so there is an entry where there is a bucket. -/
theorem entries_eq_nil_iff (d : Display) (h : ∀ b ∈ buckets, b.groups ≠ []) :
    d.entries [] buckets = [] ↔ buckets = [] := by
  cases buckets with
  | nil => exact iff_of_true rfl rfl
  | cons b bs =>
      refine iff_of_false ?_ (List.cons_ne_nil b bs)
      rw [entries_cons, unclaimed_fst, List.append_eq_nil_iff, Option.toList_eq_nil_iff]
      intro hnil
      exact entryFor?_ne_none (free_nil_ne_nil (h b (List.mem_cons_self ..))) hnil.1

theorem shaped_of_entryFor? {u : Usage} {b : Bucket} (hb : b ∈ u.buckets)
    (h : d.entryFor? b.appKey (b.free taken) = some e) : e.Shaped d u := by
  have hkey : e.appKey = b.appKey := appKey_of_entryFor? h
  have hform := form_of_entryFor? h
  obtain ⟨icon, hrows⟩ := rows_of_entryFor? h
  refine ⟨hform.rows_ne_nil, hform.single_iff, ⟨_, _, ?_, hform⟩, ?_, b, hb, hkey.symm, ?_⟩
  · rw [hkey]
    exact faces_appFace d b.appKey
  · rw [hrows, hkey]
    exact List.forall_mem_map.mpr fun _ _ => rfl
  · rw [hrows]
    refine List.forall_mem_map.mpr ?_
    intro g hg
    exact ⟨g, mem_recentFirst.mp ((free_sublist b taken).subset hg), rfl, rfl, rfl, rfl, rfl⟩

end Display

/-- The list of any pass has its shape, whatever titles, moment and texts it is shown with. -/
theorem Display.shaped_tree (d : Display) (s : Snapshot) (c : Criteria) :
    d.Shaped (s.usage c) (d.tree (s.usage c)) where
  nil_iff := by
    have hempty : (s.usage c).ranked = [] ↔ (s.usage c).buckets = [] := by
      rw [← List.length_eq_zero_iff, Usage.ranked, List.length_mergeSort, List.length_eq_zero_iff]
    exact (entries_eq_nil_iff d fun _ hb => groups_ne_nil_of_mem_usage (mem_ranked.mp hb)).trans
      hempty
  once := (nodup_ranked (nodup_appKeys s c)).sublist
    (appKeys_entries_sublist d [] (s.usage c).ranked)
  entries e he := by
    obtain ⟨b, hb, taken, h⟩ := exists_bucket_of_mem_entries he
    exact shaped_of_entryFor? (mem_ranked.mp hb) h

end AccessLedger
