import AccessLedger.Labels
import AccessLedger.Proofs.Text.Substitute

/-!
The summary of a row and its template. A template is made of characters and placeholders, and what
it asks for is that each placeholder is filled in where it stands. The placeholders are replaced one
after the other, so the time is also put in where the group label brings a placeholder for it, or
completes one.
-/

namespace AccessLedger

inductive Placeholder where
  | group
  | time
deriving DecidableEq

inductive Piece where
  | char (c : Char)
  | placeholder (p : Placeholder)
deriving DecidableEq

namespace Placeholder

/-- The name of the placeholder in braces. -/
def mark : Placeholder → Text.Mark
  | group => ⟨'{', "group\x7d".toList, by decide⟩
  | time => ⟨'{', "time\x7d".toList, by decide⟩

/-- The placeholder with which a text begins. -/
def at? (text : List Char) : Option Placeholder :=
  [group, time].find? fun p => p.mark.chars.isPrefixOf text

/-- What is put in for a placeholder. -/
def value (group time : List Char) : Placeholder → List Char
  | .group => group
  | .time => time

end Placeholder

/-- A template taken apart from the left. -/
def pieces (template : List Char) : List Piece :=
  match template with
  | [] => []
  | c :: rest =>
    match Placeholder.at? (c :: rest) with
    | some p => .placeholder p :: pieces (rest.drop p.mark.rest.length)
    | none => .char c :: pieces rest
termination_by template.length
decreasing_by all_goals simp_wf; try omega

def Piece.text (value : Placeholder → List Char) : Piece → List Char
  | char c => [c]
  | placeholder p => value p

/-- The template with all its placeholders filled in at once, and nothing else touched. -/
def Labels.filled (l : Labels) (groupLabel time : String) : String :=
  String.ofList ((pieces l.summaryTemplate.toList).flatMap
    (Piece.text (Placeholder.value groupLabel.toList time.toList)))

namespace Placeholder

variable {p q : Placeholder} {text : List Char}

theorem first_not_mem_rest (p q : Placeholder) : p.mark.first ∉ q.mark.rest := by
  have hfirst : p.mark.first = q.mark.first := by cases p <;> cases q <;> rfl
  exact hfirst ▸ q.mark.fresh

/-- No two placeholders stand in one place. -/
theorem eq_of_prefixes (hp : p.mark.chars <+: text) (hq : q.mark.chars <+: text) : p = q := by
  have hcompare : ∀ p q : Placeholder, p.mark.chars <+: q.mark.chars → p = q := by
    intro p q
    cases p <;> cases q <;> decide
  obtain h | h := List.prefix_or_prefix_of_prefix hp hq
  · exact hcompare p q h
  · exact (hcompare q p h).symm

theorem not_prefix_of_ne (h : q ≠ p) (text : List Char) :
    ¬ p.mark.chars <+: q.mark.first :: (q.mark.rest ++ text) :=
  fun hp => h (eq_of_prefixes (List.prefix_append q.mark.chars text) hp)

theorem at?_eq_some (h : p.mark.chars <+: text) : at? text = some p := by
  cases hfind : at? text with
  | none =>
      rw [at?, List.find?_eq_none] at hfind
      have hmem : p ∈ [group, time] := by cases p <;> decide
      exact absurd (List.isPrefixOf_iff_prefix.mpr h) (hfind p hmem)
  | some q =>
      have hq := List.find?_some hfind
      rw [eq_of_prefixes h (List.isPrefixOf_iff_prefix.mp hq)]

theorem at?_eq_none (h : ∀ p : Placeholder, ¬ p.mark.chars <+: text) : at? text = none := by
  rw [at?, List.find?_eq_none]
  intro p _ hp
  exact h p (List.isPrefixOf_iff_prefix.mp hp)

/-- Of one placeholder the mark of another has nothing, and it lets what comes next be. -/
theorem substituteChars_ne (h : q ≠ p) (replacement text : List Char) :
    Text.substituteChars p.mark.chars replacement (q.mark.chars ++ text) =
      q.mark.chars ++ Text.substituteChars p.mark.chars replacement text := by
  have hrest := p.mark.substituteChars_skip replacement (first_not_mem_rest p q) text
  exact (Text.substituteChars_cons_of_not (not_prefix_of_ne h text)).trans
    (congrArg (q.mark.first :: ·) hrest)

theorem occurrences_ne (h : q ≠ p) (text : List Char) :
    Text.occurrences p.mark.chars (q.mark.chars ++ text) = Text.occurrences p.mark.chars text := by
  have hrest := p.mark.occurrences_skip (first_not_mem_rest p q) text
  exact (Text.occurrences_cons_of_not (not_prefix_of_ne h text)).trans hrest

end Placeholder

section Pieces

theorem pieces_nil : pieces [] = [] := by
  rw [pieces]

theorem pieces_mark (p : Placeholder) (rest : List Char) :
    pieces (p.mark.chars ++ rest) = .placeholder p :: pieces rest := by
  have hat := Placeholder.at?_eq_some (List.prefix_append p.mark.chars rest)
  have hdrop : (p.mark.rest ++ rest).drop p.mark.rest.length = rest := List.drop_left
  rw [show p.mark.chars ++ rest = p.mark.first :: (p.mark.rest ++ rest) from rfl] at hat ⊢
  rw [pieces, hat]
  exact congrArg (.placeholder p :: pieces ·) hdrop

theorem pieces_char {c : Char} {rest : List Char}
    (h : ∀ p : Placeholder, ¬ p.mark.chars <+: c :: rest) :
    pieces (c :: rest) = .char c :: pieces rest := by
  rw [pieces, Placeholder.at?_eq_none h]

/-- A template begins with a placeholder or with a character that begins none. -/
theorem template_induction {motive : List Char → Prop} (nil : motive [])
    (mark : ∀ (p : Placeholder) (rest : List Char), motive rest → motive (p.mark.chars ++ rest))
    (char : ∀ (c : Char) (rest : List Char), (∀ p : Placeholder, ¬ p.mark.chars <+: c :: rest) →
      motive rest → motive (c :: rest))
    (template : List Char) : motive template := by
  induction h : template.length using Nat.strongRecOn generalizing template with
  | ind n ih =>
      subst h
      match template with
      | [] => exact nil
      | c :: rest =>
          by_cases hmark : ∃ p : Placeholder, p.mark.chars <+: c :: rest
          · obtain ⟨p, rest', hrest⟩ := hmark
            rw [← hrest] at ih ⊢
            refine mark p rest' (ih rest'.length ?_ rest' rfl)
            rw [List.length_append]
            exact Nat.lt_add_of_pos_left (Nat.succ_pos _)
          · rw [not_exists] at hmark
            exact char c rest hmark (ih rest.length (Nat.lt_succ_self _) rest rfl)

/-- The places where a placeholder stands are the pieces that it has. -/
theorem occurrences_eq_count (p : Placeholder) (template : List Char) :
    Text.occurrences p.mark.chars template = (pieces template).count (.placeholder p) := by
  induction template using template_induction with
  | nil => rw [pieces_nil, Text.Mark.occurrences_nil, List.count_nil]
  | mark q rest ih =>
      rw [pieces_mark]
      by_cases hq : q = p
      · rw [hq, Text.Mark.occurrences_append, ih, List.count_cons_self]
      · have hne : Piece.placeholder q ≠ .placeholder p := fun h => hq (Piece.placeholder.inj h)
        rw [Placeholder.occurrences_ne hq, ih, List.count_cons_of_ne hne]
  | char c rest h ih =>
      have hne : Piece.char c ≠ .placeholder p := nofun
      rw [pieces_char h, Text.occurrences_cons_of_not (h p), ih, List.count_cons_of_ne hne]

/-- Replacing one placeholder in a template leaves the other as it is. -/
theorem substituteChars_eq_flatMap (p : Placeholder) (replacement template : List Char) :
    Text.substituteChars p.mark.chars replacement template =
      (pieces template).flatMap
        (Piece.text (Function.update (fun q => q.mark.chars) p replacement)) := by
  induction template using template_induction with
  | nil => rw [pieces_nil, Text.substituteChars_nil, List.flatMap_nil]
  | mark q rest ih =>
      rw [pieces_mark, List.flatMap_cons, ← ih, Piece.text]
      by_cases hq : q = p
      · rw [hq, Text.Mark.substituteChars_append, Function.update_self]
      · rw [Placeholder.substituteChars_ne hq, Function.update_of_ne hq]
  | char c rest h ih =>
      rw [pieces_char h, List.flatMap_cons, ← ih, Text.substituteChars_cons_of_not (h p)]
      rfl

end Pieces

section Gaps

/-- A piece when the group label is in and the time is to come. -/
def Piece.gaps (group : List Char) : Piece → List (Option Char)
  | char c => [some c]
  | placeholder .group => group.map some
  | placeholder .time => [none]

variable (group : List Char) (ps : List Piece)

theorem fill_gaps (time : List Char) :
    Text.fill time (ps.flatMap (Piece.gaps group)) =
      ps.flatMap (Piece.text (Placeholder.value group time)) := by
  rw [Text.fill, List.flatMap_assoc]
  apply List.flatMap_congr
  intro piece _
  cases piece with
  | char _ => rfl
  | placeholder p =>
      cases p with
      | group => exact Text.fill_map_some time group
      | time => exact List.append_nil time

theorem count_none_gaps :
    (ps.flatMap (Piece.gaps group)).count none = ps.count (.placeholder .time) := by
  induction ps with
  | nil => rfl
  | cons piece ps ih =>
      rw [List.flatMap_cons, List.count_append, ih, List.count_cons, Nat.add_comm]
      congr 1
      cases piece with
      | char _ => rfl
      | placeholder p =>
          cases p with
          | group => exact List.count_eq_zero_of_not_mem (by simp [Piece.gaps])
          | time => rfl

end Gaps

namespace Labels

/-- The template when the group label has been put in. -/
def labelled (l : Labels) (groupLabel : String) : String :=
  Text.substitute "\x7bgroup\x7d" groupLabel l.summaryTemplate

theorem toList_labelled (l : Labels) (groupLabel : String) :
    (l.labelled groupLabel).toList =
      Text.fill Placeholder.time.mark.chars
        ((pieces l.summaryTemplate.toList).flatMap (Piece.gaps groupLabel.toList)) := by
  have hvalue : Function.update (fun q : Placeholder => q.mark.chars) .group groupLabel.toList =
      Placeholder.value groupLabel.toList Placeholder.time.mark.chars := by
    funext p
    cases p <;> rfl
  rw [labelled, Text.substitute, String.toList_ofList, fill_gaps, ← hvalue]
  exact substituteChars_eq_flatMap .group groupLabel.toList l.summaryTemplate.toList

/--
A summary is its template filled in just in case the group label does not bring further places for
the time, by itself or together with the text around it.
-/
theorem summary_eq_filled_iff (l : Labels) (groupLabel time : String) :
    l.summary groupLabel time = l.filled groupLabel time ↔
      time = "\x7btime\x7d" ∨
        Text.occurrences "\x7btime\x7d".toList (l.labelled groupLabel).toList =
          Text.occurrences "\x7btime\x7d".toList l.summaryTemplate.toList := by
  have hmark : "\x7btime\x7d".toList = Placeholder.time.mark.chars := rfl
  have hsummary : l.summary groupLabel time = String.ofList
      (Text.substituteChars Placeholder.time.mark.chars time.toList
        (l.labelled groupLabel).toList) := rfl
  rw [hsummary, filled, String.ofList_inj, ← fill_gaps, toList_labelled,
    Text.Mark.substituteChars_fill_iff, hmark, occurrences_eq_count .time l.summaryTemplate.toList,
    count_none_gaps, ← String.toList_inj, hmark]

/-- In the label a word in braces gets the time, though it is not a part of the template. -/
theorem summary_ne_filled_timeLabel :
    ({} : Labels).summary "{time}" "5m ago" ≠ ({} : Labels).filled "{time}" "5m ago" := by
  decide +kernel

end Labels
end AccessLedger
