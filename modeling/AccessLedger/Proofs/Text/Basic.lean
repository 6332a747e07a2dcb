import AccessLedger.Text.Raw

/-!
Numbers as their digits, and texts as they are found in a file.
-/

namespace AccessLedger

/-- Only zero is written with a zero in front. -/
theorem toDigits_eq_cons (n : Nat) :
    ∃ d ds, Nat.toDigits 10 n = d :: ds ∧ (d = '0' → ds = []) := by
  induction n using Nat.strongRecOn with
  | ind n ih =>
      by_cases hn : n < 10
      · exact ⟨n.digitChar, [], Nat.toDigits_of_lt_base hn, fun _ => rfl⟩
      · obtain ⟨d, ds, hdigits, hzero⟩ := ih (n / 10) (by omega)
        refine ⟨d, ds ++ [(n % 10).digitChar], ?_, ?_⟩
        · rw [Nat.toDigits_of_base_le (by omega) (by omega), hdigits, List.cons_append]
        · intro hd
          rw [hd, hzero hd] at hdigits
          have hvalue : n / 10 = Nat.ofDigitChars 10 ['0'] 0 := by
            rw [← hdigits, Nat.ofDigitChars_ten_toDigits]
          have hten : n / 10 ≠ 0 := by omega
          exact absurd hvalue hten

/-- A number is written with digits, and these give the number. -/
theorem exists_digits (n : Nat) :
    ∃ d ds, Nat.toDigits 10 n = d :: ds ∧ (d = '0' → ds = []) ∧
      (∀ c ∈ d :: ds, c.isDigit = true) ∧ Nat.ofDigitChars 10 (d :: ds) 0 = n := by
  obtain ⟨d, ds, hdigits, hzero⟩ := toDigits_eq_cons n
  refine ⟨d, ds, hdigits, hzero, ?_, ?_⟩
  · intro c hc
    rw [← hdigits] at hc
    exact Nat.isDigit_of_mem_toDigits (by omega) (by omega) hc
  · rw [← hdigits, Nat.ofDigitChars_ten_toDigits]

theorem ne_of_isDigit {d c : Char} (hd : d.isDigit = true) (hc : c.isDigit = false) : d ≠ c := by
  rintro rfl
  rw [hc] at hd
  cases hd

theorem RawText.toString?_ofString (s : String) : (RawText.ofString s).toString? = some s := by
  have hmap : ∀ cs : List Char, (cs.map some).mapM id = some cs := by
    intro cs
    induction cs with
    | nil => rfl
    | cons c cs ih => simp [List.mapM_cons, ih]
  simp [RawText.ofString, RawText.toString?, hmap]

end AccessLedger
