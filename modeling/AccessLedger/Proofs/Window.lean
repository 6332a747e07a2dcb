import AccessLedger.Window
import Mathlib.Data.List.DropRight
import Mathlib.Data.Nat.Digits.Defs

/-!
Windows in short notation. What is read as a window is a fixed word or a number of seconds, with
blanks around and in any case; every other text is handed back. A window that was written is read
back as it was.
-/

namespace AccessLedger

namespace Text

/-- A text that has no blanks at its ends. -/
def IsTrimmed (cs : List Char) : Prop :=
  (∀ c ∈ cs.head?, isBlank c = false) ∧ ∀ c ∈ cs.getLast?, isBlank c = false

/-- What is cut off a text are the blanks around it. -/
theorem trimChars_append {before core after : List Char} (hbefore : ∀ c ∈ before, isBlank c = true)
    (hcore : IsTrimmed core) (hafter : ∀ c ∈ after, isBlank c = true) :
    trimChars (before ++ core ++ after) = core := by
  obtain ⟨hfirst, hlast⟩ := hcore
  cases core with
  | nil =>
      have hall : ∀ c ∈ before ++ [] ++ after, isBlank c = true := by
        simpa [or_imp, forall_and] using ⟨hbefore, hafter⟩
      rw [trimChars, List.dropWhile_eq_nil_iff.mpr hall]
      rfl
  | cons c cs =>
      have hc : ¬ isBlank c = true := by simpa using hfirst c rfl
      have hback : after.rdropWhile isBlank = [] := List.rdropWhile_eq_nil_iff.mpr hafter
      rw [trimChars, List.append_assoc, List.dropWhile_append_of_pos hbefore, List.cons_append,
        List.dropWhile_cons_of_neg hc, ← List.cons_append]
      rw [List.reverse_append, List.dropWhile_append_of_pos (by simpa using hafter)]
      have hself : (c :: cs).rdropWhile isBlank = c :: cs := by
        rw [List.rdropWhile_eq_self_iff]
        intro hne
        simpa using hlast _ (List.getLast?_eq_some_getLast hne)
      exact hself

/-- Only blanks are cut off a text. -/
theorem exists_eq_append_trimChars (cs : List Char) :
    ∃ before after, cs = before ++ trimChars cs ++ after ∧ (∀ c ∈ before, isBlank c = true) ∧
      ∀ c ∈ after, isBlank c = true := by
  refine ⟨cs.takeWhile isBlank, (cs.dropWhile isBlank).rtakeWhile isBlank, ?_, ?_, ?_⟩
  · have hback : trimChars cs ++ (cs.dropWhile isBlank).rtakeWhile isBlank = cs.dropWhile isBlank :=
      List.rdropWhile_append_rtakeWhile
    rw [List.append_assoc, hback, List.takeWhile_append_dropWhile]
  · exact fun c hc => List.mem_takeWhile_imp hc
  · exact fun c hc => List.mem_rtakeWhile_imp hc

theorem toLower_of_not_upper {c : Char} (h : ¬ (c.val ≥ 'A'.val ∧ c.val ≤ 'Z'.val)) :
    c.toLower = c :=
  dif_neg h

/-- No letter is a blank, whatever its case. -/
theorem isBlank_toLower (c : Char) : isBlank c.toLower = isBlank c := by
  by_cases hupper : c.val ≥ 'A'.val ∧ c.val ≤ 'Z'.val
  · have hlow : 65 ≤ c.toNat := hupper.1
    have hhigh : c.toNat ≤ 90 := hupper.2
    have hlower : c.toLower.toNat = c.toNat + 32 := by
      have hletter : c.toLower = _ := dif_pos hupper
      rw [hletter]
      have hsum : (c.val + ('a'.val - 'A'.val)).toNat = (c.val.toNat + 32) % 2 ^ 32 :=
        UInt32.toNat_add _ _
      have hval : c.val.toNat = c.toNat := rfl
      show (c.val + ('a'.val - 'A'.val)).toNat = c.toNat + 32
      omega
    simp only [isBlank, hlower]
    grind
  · rw [toLower_of_not_upper hupper]

end Text

namespace Window

open Text

/-- The number that decimal digits stand for, the last of them being the ones. -/
def numberOf (digits : List Char) : Nat :=
  Nat.ofDigits 10 (digits.reverse.map fun d => d.toNat - '0'.toNat)

/-- What a window is called in lower case and without blanks around. -/
inductive Called : List Char → Window → Prop
  | any : Called "any".toList anyTime
  | all : Called "all".toList anyTime
  | sevenDays : Called "7d".toList last7Days
  | dayInHours : Called "24h".toList last24Hours
  | day : Called "1d".toList last24Hours
  | hour : Called "1h".toList lastHour
  | quarter : Called "15m".toList last15Minutes
  | seconds {plus digits : List Char} (hplus : plus = [] ∨ plus = ['+']) (hsome : digits ≠ [])
      (hdigits : ∀ d ∈ digits, '0' ≤ d ∧ d ≤ '9') (hsmall : numberOf digits < nat64Count) :
      Called (plus ++ digits ++ ['s']) (custom (numberOf digits))

/--
A text that comes down to a word in lower case: blanks may stand around it, in any case of its
letters.
-/
def ComesDownTo (s : String) (word : List Char) : Prop :=
  ∃ before core after, s.toList = before ++ core ++ after ∧ (∀ c ∈ before, isBlank c = true) ∧
    (∀ c ∈ after, isBlank c = true) ∧ core.map Char.toLower = word

section Digits

theorem isDigit_iff {d : Char} : d.isDigit = true ↔ '0' ≤ d ∧ d ≤ '9' := by
  simp [Char.isDigit, Char.le_def]

theorem numberOf_eq (digits : List Char) : numberOf digits = Nat.ofDigitChars 10 digits 0 := by
  induction digits using List.reverseRecOn with
  | nil => rfl
  | append_singleton ds d ih =>
      rw [Nat.ofDigitChars_append, ← ih]
      simp [numberOf, Nat.ofDigits_cons, Nat.ofDigitChars_cons, Nat.add_comm]

/-- The number of seconds that digits stand for, if it has at most 64 bits. -/
def readDigits? (digits : List Char) : Option Nat :=
  if digits.isEmpty || !digits.all Char.isDigit then none
  else if numberOf digits < nat64Count then some (numberOf digits) else none

theorem readDigits?_eq_some_iff {digits : List Char} {n : Nat} :
    readDigits? digits = some n ↔
      digits ≠ [] ∧ (∀ d ∈ digits, '0' ≤ d ∧ d ≤ '9') ∧ numberOf digits < nat64Count ∧
        numberOf digits = n := by
  simp only [readDigits?, Option.ite_none_left_eq_some, Option.ite_none_right_eq_some,
    Bool.or_eq_true, not_or, List.isEmpty_iff, Bool.not_eq_true', Bool.not_eq_false,
    List.all_eq_true, isDigit_iff,
    Option.some.injEq, and_assoc, ne_eq]

theorem readSeconds?_plus (cs : List Char) : readSeconds? ('+' :: cs) = readDigits? cs := by
  simp only [readSeconds?, readDigits?, numberOf_eq]

theorem readSeconds?_of_head? {cs : List Char} (h : cs.head? ≠ some '+') :
    readSeconds? cs = readDigits? cs := by
  have hplus : ∀ rest, cs ≠ '+' :: rest := by
    rintro rest rfl
    exact h rfl
  simp only [readSeconds?, readDigits?, numberOf_eq]

/-- A number of seconds has a plus sign before it or not. -/
theorem readSeconds?_eq_some_iff {cs : List Char} {n : Nat} :
    readSeconds? cs = some n ↔
      ∃ plus digits, cs = plus ++ digits ∧ (plus = [] ∨ plus = ['+']) ∧
        readDigits? digits = some n := by
  constructor
  · intro h
    by_cases hhead : cs.head? = some '+'
    · obtain ⟨rest, rfl⟩ := List.head?_eq_some_iff.mp hhead
      rw [readSeconds?_plus] at h
      exact ⟨['+'], rest, rfl, .inr rfl, h⟩
    · rw [readSeconds?_of_head? hhead] at h
      exact ⟨[], cs, rfl, .inl rfl, h⟩
  · rintro ⟨plus, digits, rfl, rfl | rfl, h⟩
    · have hhead : ([] ++ digits).head? ≠ some '+' := by
        intro hplus
        obtain ⟨_, hdigits, _⟩ := readDigits?_eq_some_iff.mp h
        have hmem : '+' ∈ digits := List.mem_of_mem_head? hplus
        exact absurd (hdigits '+' hmem) (by decide)
      rw [readSeconds?_of_head? hhead]
      exact h
    · exact (readSeconds?_plus digits).trans h

end Digits

section Words

/-- No name of a window begins or ends with a blank. -/
theorem Called.isTrimmed {word : List Char} {w : Window} (h : Called word w) : IsTrimmed word := by
  cases h with
  | any | all | sevenDays | dayInHours | day | hour | quarter =>
      exact ⟨by rintro _ ⟨⟩; decide, by rintro _ ⟨⟩; decide⟩
  | @seconds plus digits hplus hsome hdigits hsmall =>
      refine ⟨?_, by simp; decide⟩
      have hdigit : ∀ d ∈ digits, isBlank d = false := by
        intro d hd
        obtain ⟨hlow, hhigh⟩ := hdigits d hd
        have hlow : 48 ≤ d.toNat := hlow
        have hhigh : d.toNat ≤ 57 := hhigh
        simp only [isBlank]
        grind
      rcases hplus with rfl | rfl
      · obtain ⟨d, ds, rfl⟩ := List.exists_cons_of_ne_nil hsome
        simpa using hdigit d (List.mem_cons_self ..)
      · simp; decide

theorem isTrimmed_of_map_toLower {cs : List Char} (h : IsTrimmed (cs.map Char.toLower)) :
    IsTrimmed cs := by
  obtain ⟨hfirst, hlast⟩ := h
  rw [List.head?_map] at hfirst
  rw [List.getLast?_map] at hlast
  refine ⟨fun c hc => ?_, fun c hc => ?_⟩
  · rw [← isBlank_toLower]
    exact hfirst c.toLower (Option.mem_map_of_mem _ hc)
  · rw [← isBlank_toLower]
    exact hlast c.toLower (Option.mem_map_of_mem _ hc)

theorem comesDownTo_iff {s : String} {word : List Char} (hword : IsTrimmed word) :
    ComesDownTo s word ↔ (trimChars s.toList).map Char.toLower = word := by
  constructor
  · rintro ⟨before, core, after, hs, hbefore, hafter, rfl⟩
    rw [hs, trimChars_append hbefore (isTrimmed_of_map_toLower hword) hafter]
  · rintro rfl
    obtain ⟨before, after, hs, hbefore, hafter⟩ := exists_eq_append_trimChars s.toList
    exact ⟨before, _, after, hs, hbefore, hafter, rfl⟩

theorem parse?_eq_some_iff {s : String} {w : Window} :
    parse? s = some w ↔ Called ((trimChars s.toList).map Char.toLower) w := by
  rw [parse?]
  generalize (trimChars s.toList).map Char.toLower = word
  constructor
  · intro h
    split at h
    case h_8 =>
      split at h
      · next digits hreverse =>
        obtain ⟨n, hn, rfl⟩ := Option.map_eq_some_iff.mp h
        obtain ⟨plus, digits, hparts, hplus, hread⟩ := readSeconds?_eq_some_iff.mp hn
        obtain ⟨hsome, hdigits, hsmall, rfl⟩ := readDigits?_eq_some_iff.mp hread
        have hword : word = plus ++ digits ++ ['s'] := by
          rw [← hparts, ← List.reverse_cons, ← hreverse, List.reverse_reverse]
        rw [hword]
        exact .seconds hplus hsome hdigits hsmall
      · cases h
    all_goals
      next hword =>
      replace hword := congrArg String.toList hword
      rw [String.toList_ofList] at hword
      cases h
      rw [hword]
      constructor
  · intro h
    cases h with
    | any | all | sevenDays | dayInHours | day | hour | quarter => rfl
    | @seconds plus digits hplus hsome hdigits hsmall =>
        have hlast : ∀ s : String, s.toList.getLast? ≠ some 's' →
            String.ofList (plus ++ digits ++ ['s']) ≠ s := by
          rintro s hs rfl
          simp at hs
        have hread : readSeconds? (plus ++ digits) = some (numberOf digits) :=
          readSeconds?_eq_some_iff.mpr ⟨plus, digits, rfl, hplus,
            readDigits?_eq_some_iff.mpr ⟨hsome, hdigits, hsmall, rfl⟩⟩
        split
        case h_8 => simp [hread]
        all_goals
          next hword =>
          exact absurd hword (hlast _ (by decide))

end Words

theorem read_eq_ok_iff {s : String} {w : Window} :
    read s = .ok w ↔ ∃ word, ComesDownTo s word ∧ Called word w := by
  have hparse : read s = .ok w ↔ parse? s = some w := by
    rw [read]
    split <;> simp [*]
  rw [hparse, parse?_eq_some_iff]
  constructor
  · exact fun h => ⟨_, (comesDownTo_iff h.isTrimmed).mpr rfl, h⟩
  · rintro ⟨word, hs, h⟩
    rw [(comesDownTo_iff h.isTrimmed).mp hs]
    exact h

theorem read_eq_error_iff {s : String} {u : Unknown} :
    read s = .error u ↔ (¬ ∃ word w, ComesDownTo s word ∧ Called word w) ∧ u.given = s := by
  have hnone : (¬ ∃ word w, ComesDownTo s word ∧ Called word w) ↔ ∀ w, read s ≠ .ok w := by
    simp only [ne_eq, read_eq_ok_iff, not_exists]
    exact forall_comm
  rw [hnone, read]
  obtain ⟨given⟩ := u
  cases parse? s with
  | some w => simp
  | none => simp [eq_comm]

theorem toList_notate_custom (n : Nat) : (custom n).notate.toList = Nat.toDigits 10 n ++ ['s'] := by
  simp [notate, Nat.toString_eq_repr, Nat.repr_eq_ofList_toDigits]

theorem called_notate {w : Window} (h : w.threshold < nat64Count) : Called w.notate.toList w := by
  cases w with
  | anyTime => exact .any
  | last7Days => exact .sevenDays
  | last24Hours => exact .dayInHours
  | lastHour => exact .hour
  | last15Minutes => exact .quarter
  | custom n =>
      have hnumber : numberOf (Nat.toDigits 10 n) = n := by
        rw [numberOf_eq, Nat.ofDigitChars_ten_toDigits]
      have hseconds :
          Called ([] ++ Nat.toDigits 10 n ++ ['s']) (custom (numberOf (Nat.toDigits 10 n))) :=
        .seconds (.inl rfl) Nat.toDigits_ne_nil
          (fun d hd => isDigit_iff.mp (Nat.isDigit_of_mem_toDigits (by omega) (by omega) hd))
          (hnumber.symm ▸ h)
      rw [hnumber] at hseconds
      rw [toList_notate_custom]
      exact hseconds

/-- Windows are written in lower case. -/
theorem comesDownTo_notate (w : Window) : ComesDownTo w.notate w.notate.toList := by
  refine ⟨[], w.notate.toList, [], by simp, by simp, by simp, ?_⟩
  cases w with
  | anyTime | last7Days | last24Hours | lastHour | last15Minutes => decide
  | custom n =>
      have hdigits : ∀ d ∈ Nat.toDigits 10 n, d.toLower = d := by
        intro d hd
        have hdigit : d.isDigit = true := Nat.isDigit_of_mem_toDigits (by omega) (by omega) hd
        apply toLower_of_not_upper
        rintro ⟨hupper, _⟩
        have hlow : 65 ≤ d.toNat := hupper
        have hhigh : d.toNat ≤ 57 := (isDigit_iff.mp hdigit).2
        omega
      rw [toList_notate_custom, List.map_append, List.map_congr_left hdigits, List.map_id']
      rfl

/-- What has a name is a window of at most 64 bits. -/
theorem Called.threshold_lt {word : List Char} {w : Window} (h : Called word w) :
    w.threshold < nat64Count := by
  cases h with
  | any | all | sevenDays | dayInHours | day | hour | quarter => decide
  | seconds _ _ _ hsmall => exact hsmall

/--
The notations of windows are read as what they stand for and every other text is handed back, and
reading undoes writing, whatever blanks are put around and whatever letters are capital.
-/
theorem reads_notations :
    (∀ s w, read s = .ok w ↔ ∃ word, ComesDownTo s word ∧ Called word w) ∧
      (∀ s u, read s = .error u ↔ (¬ ∃ word w, ComesDownTo s word ∧ Called word w) ∧ u.given = s) ∧
      (∀ w : Window, w.threshold < nat64Count → ∀ s,
        ComesDownTo s w.notate.toList → read s = .ok w) ∧
      ∀ s w, read s = .ok w → read w.notate = .ok w := by
  have hback : ∀ w : Window, w.threshold < nat64Count →
      ∀ s, ComesDownTo s w.notate.toList → read s = .ok w :=
    fun w hw s hs => read_eq_ok_iff.mpr ⟨_, hs, called_notate hw⟩
  refine ⟨fun s w => read_eq_ok_iff, fun s u => read_eq_error_iff, hback, ?_⟩
  intro s w h
  obtain ⟨word, _, hcalled⟩ := read_eq_ok_iff.mp h
  exact hback w hcalled.threshold_lt w.notate (comesDownTo_notate w)

/-- Ninety seconds with zeros and a plus sign in front, and as they are written. -/
theorem reads_notations_ninety :
    (ComesDownTo " +0090S\t" "+0090s".toList ∧ Called "+0090s".toList (custom 90) ∧
      read " +0090S\t" = .ok (custom 90)) ∧
    ((custom 90).threshold < nat64Count ∧ ComesDownTo "\u300090S" (custom 90).notate.toList ∧
      read "\u300090S" = .ok (custom 90)) := by
  obtain ⟨hread, _, hback, _⟩ := reads_notations
  have hcalled : Called "+0090s".toList (custom 90) :=
    @Called.seconds ['+'] ['0', '0', '9', '0'] (.inr rfl) (by decide) (by simp) (by decide)
  have hspelled : ComesDownTo " +0090S\t" "+0090s".toList :=
    ⟨[' '], "+0090S".toList, ['\t'], by decide, by simp; decide, by simp; decide, by decide⟩
  have hwritten : ComesDownTo "\u300090S" (custom 90).notate.toList :=
    ⟨['\u3000'], "90S".toList, [], by decide, by simp; decide, by simp, by decide⟩
  have hsmall : (custom 90).threshold < nat64Count := by decide
  exact ⟨⟨hspelled, hcalled, (hread _ _).mpr ⟨_, hspelled, hcalled⟩⟩, hsmall, hwritten,
    hback _ hsmall _ hwritten⟩

end Window
end AccessLedger
