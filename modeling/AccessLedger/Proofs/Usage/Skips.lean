import AccessLedger.Proofs.Usage.Passing

/-!
The counters of a pass: each reason is counted once for every observation that is skipped for it.
-/

namespace AccessLedger

namespace SkipCounts

def number (n : SkipCounts) : Skip → Nat
  | .neverAccessed => n.neverAccessed
  | .groupFiltered => n.groupFiltered
  | .excludedLabel => n.excludedLabel
  | .outsideWindow => n.outsideWindow
  | .systemHidden => n.systemHidden
  | .malformed => n.malformed

theorem number_count (n : SkipCounts) (counted reason : Skip) :
    (n.count counted).number reason = n.number reason + if counted = reason then 1 else 0 := by
  cases counted <;> cases reason <;> rfl

theorem ext_number {n m : SkipCounts} (h : ∀ reason, n.number reason = m.number reason) :
    n = m := by
  cases n
  cases m
  rw [SkipCounts.mk.injEq]
  exact ⟨h .neverAccessed, h .groupFiltered, h .excludedLabel, h .outsideWindow, h .systemHidden,
    h .malformed⟩

end SkipCounts

theorem number_skipped_note (u : Usage) (o : Observation) (v : Verdict) (reason : Skip) :
    (u.note o v).skipped.number reason =
      u.skipped.number reason + if v = .skipped reason then 1 else 0 := by
  cases v with
  | skipped counted =>
      show (u.skipped.count counted).number reason = _
      rw [SkipCounts.number_count]
      simp only [Verdict.skipped.injEq]
  | listed app isSystem =>
      show u.skipped.number reason = _
      simp

theorem usage_skipped (s : Snapshot) (c : Criteria) (reason : Skip) :
    (s.usage c).skipped.number reason =
      (s.observations c.rules).countP fun o => s.verdict c o = .skipped reason := by
  suffices h : ∀ (l : List Observation) (u : Usage),
      (l.foldl (fun u o => u.note o (s.verdict c o)) u).skipped.number reason =
        u.skipped.number reason + l.countP fun o => s.verdict c o = .skipped reason by
    rw [Snapshot.usage, h]
    cases reason <;> exact Nat.zero_add _
  intro l
  induction l with
  | nil => intro u; rfl
  | cons o os ih =>
      intro u
      rw [List.foldl_cons, ih, number_skipped_note, List.countP_cons]
      simp only [decide_eq_true_eq]
      omega

end AccessLedger
