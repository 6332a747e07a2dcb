import AccessLedger.Window

/-!
Ages are counted within 64 bits, yet for the accesses that a pass looks at the recency test is the
one of unbounded integers: what is cut off below lies in the future, and nothing is cut off above.
-/

namespace AccessLedger

theorem clampInt64_of_bounds {n : Int} (hlow : -int64Limit ≤ n) (hhigh : n < int64Limit) :
    clampInt64 n = n := by
  rw [clampInt64, if_neg (by omega), if_pos hhigh]

theorem clampInt64_of_lt {n : Int} (h : n < -int64Limit) : clampInt64 n = -int64Limit :=
  if_pos h

/-- Less than nothing is at most any threshold. -/
theorem tdiv_le_of_neg {n : Int} (threshold : Nat) (h : n < 0) :
    n.tdiv 1000 ≤ threshold := by
  have hneg : 0 ≤ (-n).tdiv 1000 := Int.tdiv_nonneg (by omega) (by omega)
  rw [Int.neg_tdiv] at hneg
  omega

/-- Whole seconds are within a threshold up to the last millisecond before one more is full. -/
theorem tdiv_le_iff_lt (n : Int) (threshold : Nat) :
    n.tdiv 1000 ≤ threshold ↔ n < 1000 * (threshold + 1) := by
  by_cases hneg : n < 0
  · -- truncation goes up here, by less than the second that there is to spare
    exact iff_of_true (tdiv_le_of_neg threshold hneg) (by omega)
  · rw [Int.tdiv_eq_ediv_of_nonneg (Int.not_lt.mp hneg)]
    omega

private theorem isRecent_iff (now time : Int) (threshold : Nat) :
    isRecent now time threshold = true ↔
      (elapsed now time).tdiv 1000 < 0 ∨ (elapsed now time).tdiv 1000 ≤ threshold := by
  simp only [isRecent, Bool.or_eq_true, decide_eq_true_eq]

/-- A distance that does not fit is one to the future, in both readings. -/
theorem isRecent_iff_tdiv_le {now time : Int} {threshold : Nat} (hnow : now < int64Limit)
    (htime : 0 ≤ time) :
    isRecent now time threshold = true ↔ (now - time).tdiv 1000 ≤ threshold := by
  rw [isRecent_iff]
  by_cases hlow : -int64Limit ≤ now - time
  · rw [elapsed, clampInt64_of_bounds hlow (by omega)]
    omega
  · rw [elapsed, clampInt64_of_lt (by omega)]
    have hfuture : (now - time).tdiv 1000 ≤ threshold :=
      tdiv_le_of_neg threshold (by simp only [int64Limit] at hlow; omega)
    have hfloor : (-int64Limit : Int).tdiv 1000 ≤ threshold :=
      tdiv_le_of_neg threshold (by decide)
    exact ⟨fun _ => hfuture, fun _ => .inr hfloor⟩

theorem isRecent_iff_lt {now time : Int} {threshold : Nat} (hnow : now < int64Limit)
    (htime : 0 ≤ time) :
    isRecent now time threshold = true ↔ now - time < 1000 * (threshold + 1) :=
  (isRecent_iff_tdiv_le hnow htime).trans (tdiv_le_iff_lt (now - time) threshold)

theorem clampInt64_mono {m n : Int} (h : m ≤ n) : clampInt64 m ≤ clampInt64 n := by
  simp only [clampInt64, int64Limit]
  grind

theorem clampInt64_lt (n : Int) : clampInt64 n < int64Limit := by
  simp only [clampInt64, int64Limit]
  grind

/--
What is recent stays so when it is later, when less time has passed, and when more is admitted.
-/
theorem isRecent_mono {now now' time time' : Int} {threshold threshold' : Nat} (hnow : now' ≤ now)
    (htime : time ≤ time') (hthreshold : threshold ≤ threshold')
    (h : isRecent now time threshold = true) : isRecent now' time' threshold' = true := by
  rw [isRecent_iff] at h ⊢
  have helapsed : elapsed now' time' ≤ elapsed now time := clampInt64_mono (by omega)
  have hage : (elapsed now' time').tdiv 1000 ≤ (elapsed now time).tdiv 1000 :=
    Int.tdiv_le_tdiv (by omega) helapsed
  rcases h with hfuture | hle
  · exact .inl (Int.lt_of_le_of_lt hage hfuture)
  · exact .inr (by omega)

/-- No distance of 64 bits has as many seconds as the threshold that stands for no bound. -/
theorem isRecent_unboundedThreshold (now time : Int) :
    isRecent now time Window.unboundedThreshold = true := by
  have hlimit : (int64Limit : Int) ≤ 1000 * (Window.unboundedThreshold + 1) := by decide
  have helapsed : elapsed now time < int64Limit := clampInt64_lt (now - time)
  rw [isRecent_iff, tdiv_le_iff_lt]
  exact .inr (Int.lt_of_lt_of_le helapsed hlimit)

end AccessLedger
