import Mathlib.Data.List.Infix
import AccessLedger.Text.Substitute

/-!
Marks and gaps. A pattern whose first character does not come again in it cannot overlap itself, so
every place where it stands is found and replaced. Text with gaps is marked where something is still
to come; filling the gaps is then the same as replacing the marks, provided that the mark stands
nowhere else.
-/

namespace AccessLedger.Text

/-- A pattern whose first character does not come again. -/
structure Mark where
  first : Char
  rest : List Char
  fresh : first ∉ rest

def Mark.chars (m : Mark) : List Char :=
  m.first :: m.rest

/-- In how many places of a text a pattern stands. -/
def occurrences (pattern text : List Char) : Nat :=
  text.tails.countP (pattern.isPrefixOf ·)

section Patterns

variable {pattern replacement text : List Char} {c : Char}

theorem substituteChars_nil (pattern replacement : List Char) :
    substituteChars pattern replacement [] = [] := by
  rw [substituteChars]

theorem substituteChars_cons_of_not (h : ¬ pattern <+: c :: text) :
    substituteChars pattern replacement (c :: text) =
      c :: substituteChars pattern replacement text := by
  rw [substituteChars, if_neg]
  rwa [List.isPrefixOf_iff_prefix]

theorem occurrences_cons_of_not (h : ¬ pattern <+: c :: text) :
    occurrences pattern (c :: text) = occurrences pattern text := by
  rw [occurrences, List.tails, List.countP_cons, if_neg, Nat.add_zero, occurrences]
  rwa [List.isPrefixOf_iff_prefix]

theorem occurrences_cons (h : pattern <+: c :: text) :
    occurrences pattern (c :: text) = occurrences pattern text + 1 := by
  rw [occurrences, List.tails, List.countP_cons, if_pos, occurrences]
  rwa [List.isPrefixOf_iff_prefix]

end Patterns

namespace Mark

variable (m : Mark)

theorem not_prefix_cons {c : Char} (h : m.first ≠ c) (text : List Char) : ¬ m.chars <+: c :: text :=
  fun hprefix => h (List.cons_prefix_cons.mp hprefix).1

theorem occurrences_nil : occurrences m.chars [] = 0 := rfl

/-- Text without the first character has no place for a mark. -/
theorem substituteChars_skip (replacement : List Char) {skipped : List Char} (h : m.first ∉ skipped)
    (text : List Char) : substituteChars m.chars replacement (skipped ++ text) =
      skipped ++ substituteChars m.chars replacement text := by
  induction skipped with
  | nil => rfl
  | cons c cs ih =>
      rw [List.mem_cons, not_or] at h
      rw [List.cons_append, substituteChars_cons_of_not (m.not_prefix_cons h.1 _), ih h.2,
        List.cons_append]

theorem occurrences_skip {skipped : List Char} (h : m.first ∉ skipped) (text : List Char) :
    occurrences m.chars (skipped ++ text) = occurrences m.chars text := by
  induction skipped with
  | nil => rfl
  | cons c cs ih =>
      rw [List.mem_cons, not_or] at h
      rw [List.cons_append, occurrences_cons_of_not (m.not_prefix_cons h.1 _), ih h.2]

theorem substituteChars_append (replacement text : List Char) :
    substituteChars m.chars replacement (m.chars ++ text) =
      replacement ++ substituteChars m.chars replacement text := by
  have hprefix : m.chars.isPrefixOf (m.first :: (m.rest ++ text)) = true :=
    List.isPrefixOf_iff_prefix.mpr (List.prefix_append m.chars text)
  have hdrop : (m.rest ++ text).drop (m.chars.length - 1) = text := List.drop_left
  rw [show m.chars ++ text = m.first :: (m.rest ++ text) from rfl, substituteChars, if_pos hprefix,
    hdrop]

theorem occurrences_append (text : List Char) :
    occurrences m.chars (m.chars ++ text) = occurrences m.chars text + 1 := by
  have hprefix : m.chars <+: m.first :: (m.rest ++ text) := List.prefix_append m.chars text
  exact (occurrences_cons hprefix).trans (congrArg (· + 1) (m.occurrences_skip m.fresh text))

end Mark

/-- Text with gaps, each filled in the same way. -/
def fill (filling : List Char) (gaps : List (Option Char)) : List Char :=
  gaps.flatMap fun c? => c?.elim filling ([·])

section Filling

variable (filling : List Char) (gaps : List (Option Char))

theorem fill_none : fill filling (none :: gaps) = filling ++ fill filling gaps := rfl

theorem fill_some (c : Char) : fill filling (some c :: gaps) = c :: fill filling gaps := rfl

theorem fill_append (gaps' : List (Option Char)) :
    fill filling (gaps ++ gaps') = fill filling gaps ++ fill filling gaps' :=
  List.flatMap_append

theorem fill_map_some (text : List Char) : fill filling (text.map some) = text := by
  rw [fill, List.flatMap_map]
  exact List.flatMap_singleton' text

theorem length_fill :
    (fill filling gaps).length + gaps.count none =
      gaps.length + gaps.count none * filling.length := by
  induction gaps with
  | nil => simp [fill]
  | cons c? gaps ih =>
      cases c? with
      | none =>
          simp only [fill_none, List.length_append, List.count_cons_self, List.length_cons,
            Nat.succ_mul]
          omega
      | some c =>
          simp only [fill_some, List.length_cons, List.count_cons_of_ne (Option.some_ne_none c)]
          omega

end Filling

namespace Mark

variable (m : Mark)

/-- What stands in a text with marked gaps, in front of all of them, is in the text itself. -/
theorem exists_of_append_eq_fill {before text : List Char} {gaps : List (Option Char)}
    (hbefore : m.first ∉ before) (h : before ++ text = fill m.chars gaps) :
    ∃ gaps', gaps = before.map some ++ gaps' := by
  induction before generalizing gaps with
  | nil => exact ⟨gaps, rfl⟩
  | cons c cs ih =>
      rw [List.mem_cons, not_or] at hbefore
      match gaps with
      | [] => cases h
      | none :: _ => exact absurd (List.cons.inj h).1.symm hbefore.1
      | some _ :: gaps =>
          obtain ⟨rfl, htext⟩ := List.cons.inj h
          obtain ⟨gaps', rfl⟩ := ih hbefore.2 htext
          exact ⟨gaps', rfl⟩

/-- Where the mark stands there is a gap, or else it is a part of the text. -/
theorem cases_of_prefix_fill {gaps : List (Option Char)} (h : m.chars <+: fill m.chars gaps) :
    (∃ gaps', gaps = none :: gaps') ∨ ∃ gaps', gaps = m.chars.map some ++ gaps' := by
  obtain ⟨text, h⟩ := h
  match gaps with
  | [] => cases h
  | none :: gaps' => exact .inl ⟨gaps', rfl⟩
  | some _ :: gaps =>
      obtain ⟨rfl, htext⟩ := List.cons.inj h
      obtain ⟨gaps', rfl⟩ := m.exists_of_append_eq_fill m.fresh htext
      exact .inr ⟨gaps', rfl⟩

/-- A text with gaps is gone through as it is searched when its gaps are marked. -/
theorem gaps_induction {motive : List (Option Char) → Prop} (nil : motive [])
    (gap : ∀ gaps, motive gaps → motive (none :: gaps))
    (mark : ∀ gaps, motive gaps → motive (m.chars.map some ++ gaps))
    (char : ∀ c gaps, ¬ m.chars <+: c :: fill m.chars gaps → motive gaps → motive (some c :: gaps))
    (gaps : List (Option Char)) : motive gaps := by
  induction h : gaps.length using Nat.strongRecOn generalizing gaps with
  | ind n ih =>
      subst h
      match gaps with
      | [] => exact nil
      | none :: gaps => exact gap gaps (ih gaps.length (Nat.lt_succ_self _) gaps rfl)
      | some c :: gaps =>
          by_cases hprefix : m.chars <+: fill m.chars (some c :: gaps)
          · obtain ⟨_, hgap⟩ | ⟨gaps', hmark⟩ := m.cases_of_prefix_fill hprefix
            · cases hgap
            · rw [hmark] at ih ⊢
              refine mark gaps' (ih gaps'.length ?_ gaps' rfl)
              rw [List.length_append, List.length_map]
              exact Nat.lt_add_of_pos_left (Nat.succ_pos _)
          · exact char c gaps hprefix (ih gaps.length (Nat.lt_succ_self _) gaps rfl)

section Fill

variable (replacement : List Char) (gaps : List (Option Char))

theorem substituteChars_fill_none :
    substituteChars m.chars replacement (fill m.chars (none :: gaps)) =
      replacement ++ substituteChars m.chars replacement (fill m.chars gaps) :=
  m.substituteChars_append replacement _

theorem occurrences_fill_none :
    occurrences m.chars (fill m.chars (none :: gaps)) =
      occurrences m.chars (fill m.chars gaps) + 1 :=
  m.occurrences_append _

theorem fill_mark (filling : List Char) :
    fill filling (m.chars.map some ++ gaps) = m.chars ++ fill filling gaps := by
  rw [fill_append, fill_map_some]

theorem count_none_mark : (m.chars.map some ++ gaps).count none = gaps.count none := by
  rw [List.count_append, List.count_eq_zero_of_not_mem, Nat.zero_add]
  simp

theorem count_none_some (c : Char) : (some c :: gaps).count none = gaps.count none :=
  List.count_cons_of_ne (Option.some_ne_none c)

/-- Every gap is a place where its mark stands. -/
theorem count_none_le : gaps.count none ≤ occurrences m.chars (fill m.chars gaps) := by
  induction gaps using m.gaps_induction with
  | nil => exact Nat.le_refl 0
  | gap gaps ih =>
      rw [occurrences_fill_none, List.count_cons_self]
      exact Nat.succ_le_succ ih
  | mark gaps ih =>
      rw [fill_mark, occurrences_append, count_none_mark]
      exact Nat.le_succ_of_le ih
  | char c gaps h ih =>
      rw [fill_some, occurrences_cons_of_not h, count_none_some]
      exact ih

theorem substituteChars_self (text : List Char) : substituteChars m.chars m.chars text = text := by
  rw [← fill_map_some m.chars text]
  induction text.map some using m.gaps_induction with
  | nil => exact substituteChars_nil _ _
  | gap gaps ih => rw [substituteChars_fill_none, ih, fill_none]
  | mark gaps ih => rw [fill_mark, substituteChars_append, ih]
  | char c gaps h ih => rw [fill_some, substituteChars_cons_of_not h, ih]

/-- Each place where the mark stands is replaced. -/
theorem length_substituteChars (text : List Char) :
    (substituteChars m.chars replacement text).length +
        occurrences m.chars text * m.chars.length =
      text.length + occurrences m.chars text * replacement.length := by
  rw [← fill_map_some m.chars text]
  induction text.map some using m.gaps_induction with
  | nil =>
      rw [show fill m.chars [] = [] from rfl, substituteChars_nil, occurrences_nil, Nat.zero_mul,
        Nat.zero_mul]
  | gap gaps ih =>
      rw [substituteChars_fill_none, occurrences_fill_none, fill_none, List.length_append,
        List.length_append, Nat.succ_mul, Nat.succ_mul]
      omega
  | mark gaps ih =>
      rw [fill_mark, substituteChars_append, occurrences_append, List.length_append,
        List.length_append, Nat.succ_mul, Nat.succ_mul]
      omega
  | char c gaps h ih =>
      rw [fill_some, substituteChars_cons_of_not h, occurrences_cons_of_not h, List.length_cons,
        List.length_cons]
      omega

/-- Marks that stand for gaps and nothing else are replaced as the gaps are filled. -/
theorem substituteChars_fill (h : occurrences m.chars (fill m.chars gaps) = gaps.count none) :
    substituteChars m.chars replacement (fill m.chars gaps) = fill replacement gaps := by
  induction gaps using m.gaps_induction with
  | nil => exact substituteChars_nil _ _
  | gap gaps ih =>
      rw [occurrences_fill_none, List.count_cons_self] at h
      rw [substituteChars_fill_none, ih (Nat.succ.inj h), fill_none]
  | mark gaps ih =>
      -- A mark in the text is one too many.
      rw [fill_mark, occurrences_append, count_none_mark] at h
      exact absurd h (Nat.ne_of_gt (Nat.lt_succ_of_le (m.count_none_le gaps)))
  | char c gaps hprefix ih =>
      rw [fill_some, occurrences_cons_of_not hprefix, count_none_some] at h
      rw [fill_some, substituteChars_cons_of_not hprefix, ih h, fill_some]

/--
A replacement as long as the mark leaves all in its place, so a mark in the text is seen to change.
-/
theorem eq_or_of_length_eq (hlength : replacement.length = m.chars.length)
    (h : substituteChars m.chars replacement (fill m.chars gaps) = fill replacement gaps) :
    replacement = m.chars ∨ occurrences m.chars (fill m.chars gaps) = gaps.count none := by
  induction gaps using m.gaps_induction with
  | nil => exact .inr rfl
  | gap gaps ih =>
      rw [substituteChars_fill_none, fill_none, List.append_cancel_left_eq] at h
      refine (ih h).imp_right ?_
      intro hcount
      rw [occurrences_fill_none, List.count_cons_self, hcount]
  | mark gaps _ =>
      rw [fill_mark, fill_mark, substituteChars_append] at h
      exact .inl (List.append_inj_left h hlength)
  | char c gaps hprefix ih =>
      rw [fill_some, substituteChars_cons_of_not hprefix, fill_some, List.cons.injEq] at h
      refine (ih h.2).imp_right ?_
      intro hcount
      rw [fill_some, occurrences_cons_of_not hprefix, count_none_some, hcount]

/--
Replacing marks is filling gaps just in case no other mark is there, unless nothing changes anyway.
-/
theorem substituteChars_fill_iff :
    substituteChars m.chars replacement (fill m.chars gaps) = fill replacement gaps ↔
      replacement = m.chars ∨ occurrences m.chars (fill m.chars gaps) = gaps.count none := by
  constructor
  · intro h
    obtain ⟨extra, hextra⟩ := Nat.exists_eq_add_of_le (m.count_none_le gaps)
    -- Every mark too many makes the text longer or shorter by the same amount.
    have hlengths : extra * m.chars.length = extra * replacement.length := by
      have hreplaced := m.length_substituteChars replacement (fill m.chars gaps)
      have hmarked := length_fill m.chars gaps
      have hfilled := length_fill replacement gaps
      rw [h, hextra, Nat.add_mul, Nat.add_mul] at hreplaced
      omega
    rcases Nat.eq_zero_or_pos extra with hzero | hpos
    · rw [hzero, Nat.add_zero] at hextra
      exact .inr hextra
    · exact m.eq_or_of_length_eq replacement gaps (Nat.eq_of_mul_eq_mul_left hpos hlengths).symm h
  · intro h
    obtain rfl | hcount := h
    · exact m.substituteChars_self _
    · exact m.substituteChars_fill replacement gaps hcount

end Fill
end Mark
end AccessLedger.Text
