import AccessLedger.Labels
import AccessLedger.Proofs.Recency

/-!
Lengths of time in words. A length is told as a number of its largest unit, with what is left of it
dropped, so that longer lengths never look shorter. For accesses that are listed, counting within 64
bits tells the same as counting without bounds.
-/

namespace AccessLedger

/-- The whole seconds of a length of time, of which none is below zero. -/
def wholeSeconds (milliseconds : Int) : Nat :=
  (milliseconds.tdiv 1000).toNat

inductive TimeUnit where
  | second
  | minute
  | hour
  | day
deriving DecidableEq

namespace TimeUnit

def seconds : TimeUnit → Nat
  | second => 1
  | minute => 60
  | hour => 60 * 60
  | day => 24 * 60 * 60

def letter : TimeUnit → Char
  | second => 's'
  | minute => 'm'
  | hour => 'h'
  | day => 'd'

/-- So many units before now, in words. -/
def ago (u : TimeUnit) (n : Nat) : String :=
  toString n ++ String.singleton u.letter ++ " ago"

/--
A number of seconds, rounded down in the largest unit that it fills; no seconds at all are told as
such.
-/
structure Tells (u : TimeUnit) (n seconds : Nat) : Prop where
  filled : u.seconds ≤ seconds ∨ seconds = 0 ∧ u = second
  largest : ∀ v : TimeUnit, v.seconds ≤ seconds → v.seconds ≤ u.seconds
  le : n * u.seconds ≤ seconds
  lt : seconds < (n + 1) * u.seconds
  below60 : u = second ∨ u = minute → n < 60
  below24 : u = hour → n < 24

variable {u v : TimeUnit} {m n s t : Nat}

theorem toList_ago (u : TimeUnit) (n : Nat) :
    (u.ago n).toList = Nat.toDigits 10 n ++ u.letter :: " ago".toList := by
  simp [ago]

/-- The words tell the unit and the number. -/
theorem ago_inj (h : u.ago n = v.ago m) : u = v ∧ n = m := by
  have hlists := congrArg String.toList h
  rw [toList_ago, toList_ago] at hlists
  obtain ⟨hdigits, hletters⟩ := List.append_inj' hlists rfl
  have hletter : u.letter = v.letter := (List.cons.inj hletters).1
  have hvalue := congrArg (Nat.ofDigitChars 10 · 0) hdigits
  simp only [Nat.ofDigitChars_ten_toDigits] at hvalue
  refine ⟨?_, hvalue⟩
  revert hletter
  cases u <;> cases v <;> decide

theorem seconds_pos (u : TimeUnit) : 0 < u.seconds := by
  cases u <;> decide

theorem Tells.seconds_le (hu : u.Tells n s) (hv : v.Tells m t) (h : s ≤ t) :
    u.seconds ≤ v.seconds := by
  obtain hfilled | ⟨_, rfl⟩ := hu.filled
  · exact hv.largest u (Nat.le_trans hfilled h)
  · exact v.seconds_pos

/-- More seconds are never told as fewer. -/
theorem Tells.mono (hu : u.Tells n s) (hv : v.Tells m t) (h : s ≤ t) :
    n * u.seconds ≤ m * v.seconds := by
  obtain hsame | hless := Nat.eq_or_lt_of_le (hu.seconds_le hv h)
  · have hlt : n * v.seconds < (m + 1) * v.seconds := by
      rw [← hsame]
      exact Nat.lt_of_le_of_lt (Nat.le_trans hu.le h) (hsame ▸ hv.lt)
    have hle : n ≤ m := Nat.le_of_lt_succ (Nat.lt_of_mul_lt_mul_right hlt)
    rw [hsame]
    exact Nat.mul_le_mul_right v.seconds hle
  · -- the shorter length does not fill the unit of the longer one, of which there is one at least
    have hshort : s < v.seconds :=
      Nat.lt_of_not_le fun hle => Nat.not_le_of_lt hless (hu.largest v hle)
    have hone : 0 < m := by
      obtain hfilled | ⟨_, rfl⟩ := hv.filled
      · have hlt : 1 * v.seconds < (m + 1) * v.seconds := by
          rw [Nat.one_mul]
          exact Nat.lt_of_le_of_lt hfilled hv.lt
        exact Nat.lt_of_succ_lt_succ (Nat.lt_of_mul_lt_mul_right hlt)
      · exact absurd hless (Nat.not_lt_of_le u.seconds_pos)
    calc n * u.seconds ≤ s := hu.le
      _ ≤ v.seconds := Nat.le_of_lt hshort
      _ ≤ m * v.seconds := Nat.le_mul_of_pos_left _ hone

/-- The next larger unit; days are told however many they are. -/
def next : TimeUnit → TimeUnit
  | second => minute
  | minute => hour
  | hour | day => day

theorem seconds_next_le (h : u.seconds < v.seconds) : u ≠ day ∧ u.next.seconds ≤ v.seconds := by
  revert h
  cases u <;> cases v <;> decide

/-- A unit tells a number of seconds that fills it and not the next larger one. -/
theorem tells_div (hfilled : u.seconds ≤ s ∨ s = 0 ∧ u = second)
    (hnext : u ≠ day → s < u.next.seconds) :
    u.Tells (s / u.seconds) s where
  filled := hfilled
  largest v hv := by
    refine Nat.le_of_not_lt fun hlarger => ?_
    obtain ⟨hday, hle⟩ := seconds_next_le hlarger
    exact Nat.not_lt_of_le (Nat.le_trans hle hv) (hnext hday)
  le := Nat.div_mul_le_self s u.seconds
  lt := by
    rw [Nat.mul_comm]
    exact Nat.lt_mul_div_succ s u.seconds_pos
  below60 := by
    rintro (rfl | rfl)
    all_goals
      simp only [ne_eq, reduceCtorEq, not_false_eq_true, next, seconds, true_imp_iff] at *
      omega
  below24 := by
    rintro rfl
    simp only [ne_eq, reduceCtorEq, not_false_eq_true, next, seconds, true_imp_iff] at *
    omega

end TimeUnit

/-- A length is told in the unit that its whole seconds fill. -/
theorem describeElapsed_tells (d : Int) :
    ∃ (u : TimeUnit) (n : Nat), describeElapsed d = u.ago n ∧ u.Tells n (wholeSeconds d) := by
  have hseconds : (d.tdiv 1000).toNat = wholeSeconds d := rfl
  simp only [describeElapsed, hseconds]
  generalize wholeSeconds d = s
  split
  · next hminute =>
    have hfilled : 1 ≤ s ∨ s = 0 ∧ TimeUnit.second = .second :=
      (Nat.eq_zero_or_pos s).symm.imp_right fun hzero => ⟨hzero, rfl⟩
    exact ⟨.second, s / 1, by rw [Nat.div_one]; rfl, TimeUnit.tells_div hfilled fun _ => hminute⟩
  · next hminute =>
    split
    · next hhour =>
      exact ⟨.minute, s / 60, rfl,
        TimeUnit.tells_div (.inl (Nat.le_of_not_lt hminute)) fun _ => hhour⟩
    · next hhour =>
      split
      · next hday =>
        exact ⟨.hour, s / 3600, rfl,
          TimeUnit.tells_div (.inl (Nat.le_of_not_lt hhour)) fun _ => hday⟩
      · next hday =>
        exact ⟨.day, s / 86400, rfl,
          TimeUnit.tells_div (.inl (Nat.le_of_not_lt hday)) fun h => absurd rfl h⟩

theorem wholeSeconds_mono {d d' : Int} (h : d ≤ d') : wholeSeconds d ≤ wholeSeconds d' := by
  have hdiv : d.tdiv 1000 ≤ d'.tdiv 1000 := Int.tdiv_le_tdiv (by omega) h
  rw [wholeSeconds, wholeSeconds]
  omega

theorem wholeSeconds_eq_zero {d : Int} (h : d < 0) : wholeSeconds d = 0 :=
  Int.toNat_eq_zero.mpr (tdiv_le_of_neg 0 h)

/-- A distance that is cut off lies in the future, where nothing is told but no time at all. -/
theorem wholeSeconds_elapsed {now time : Int} (hnow : now < int64Limit) (htime : 0 ≤ time) :
    wholeSeconds (elapsed now time) = wholeSeconds (now - time) := by
  by_cases hlow : -int64Limit ≤ now - time
  · rw [elapsed, clampInt64_of_bounds hlow (by omega)]
  · rw [elapsed, clampInt64_of_lt (by omega), wholeSeconds_eq_zero (by decide),
      wholeSeconds_eq_zero (by simp only [int64Limit] at hlow; omega)]

end AccessLedger
