import Mathlib.Algebra.GroupWithZero.Nat
import AccessLedger.Report.Text
import AccessLedger.Text.Substitute

/-!
The lines of a text as a reader sees them. Lines that were written are seen as they are unless they
have line breaks of their own: each of these makes one line more.
-/

namespace AccessLedger.Text

/-- The pieces of a text between its line breaks. -/
def pieces (s : String) : List String :=
  (s.toList.splitOn '\n').map String.ofList

/--
The lines of a text whose last line is ended too, so that nothing stands behind the last line break.
-/
def linesOf (s : String) : List String :=
  (pieces s).dropLast

def breaks (s : String) : Nat :=
  s.toList.count '\n'

theorem breaks_append (s t : String) : breaks (s ++ t) = breaks s + breaks t := by
  rw [breaks, String.toList_append, List.count_append, breaks, breaks]

theorem breaks_eq_zero {s : String} : breaks s = 0 ↔ '\n' ∉ s.toList :=
  List.count_eq_zero

theorem length_splitOn_break (cs : List Char) : (cs.splitOn '\n').length = cs.count '\n' + 1 := by
  induction cs with
  | nil => rfl
  | cons c cs ih =>
      rw [List.splitOn] at ih ⊢
      rw [List.splitOnP_cons_eq_if_modifyHead, List.count_cons]
      split
      · rw [List.length_cons, ih]
      · rw [List.length_modifyHead, ih, Nat.add_zero]

theorem length_pieces (s : String) : (pieces s).length = breaks s + 1 := by
  rw [pieces, List.length_map, length_splitOn_break, breaks]

theorem pieces_eq_singleton {s : String} (h : breaks s = 0) : pieces s = [s] := by
  have hnone : ∀ c ∈ s.toList, (c == '\n') = false := by
    intro c hc
    rw [beq_eq_false_iff_ne]
    rintro rfl
    exact breaks_eq_zero.mp h hc
  rw [pieces, List.splitOn, List.splitOnP_eq_singleton hnone, List.map_singleton,
    String.ofList_toList]

/-- What is written line by line breaks into the pieces of its lines. -/
theorem pieces_ofLines (ls : List String) : pieces (ofLines ls) = ls.flatMap pieces ++ [""] := by
  induction ls with
  | nil => rfl
  | cons l ls ih =>
      have hcons : (ofLines (l :: ls)).toList = l.toList ++ '\n' :: (ofLines ls).toList := by
        simp [ofLines]
      have hpieces : pieces (ofLines (l :: ls)) = pieces l ++ pieces (ofLines ls) := by
        rw [pieces, hcons, List.splitOn, List.splitOnP_append_cons _ _ (by rfl), List.map_append]
        rfl
      rw [hpieces, ih, List.flatMap_cons, List.append_assoc]

theorem linesOf_ofLines (ls : List String) : linesOf (ofLines ls) = ls.flatMap pieces := by
  rw [linesOf, pieces_ofLines, List.dropLast_concat]

theorem length_linesOf_ofLines (ls : List String) :
    (linesOf (ofLines ls)).length = ls.length + (ls.map breaks).sum := by
  rw [linesOf_ofLines]
  induction ls with
  | nil => rfl
  | cons l ls ih =>
      rw [List.flatMap_cons, List.length_append, length_pieces, ih, List.length_cons, List.map_cons,
        List.sum_cons]
      omega

/-- Lines without line breaks of their own are seen as they were written. -/
theorem linesOf_ofLines_eq {ls : List String} (h : ∀ l ∈ ls, breaks l = 0) :
    linesOf (ofLines ls) = ls := by
  rw [linesOf_ofLines]
  induction ls with
  | nil => rfl
  | cons l ls ih =>
      rw [List.forall_mem_cons] at h
      rw [List.flatMap_cons, pieces_eq_singleton h.1, ih h.2, List.singleton_append]

section Substitution

theorem mem_substituteChars {pattern replacement text : List Char} {c : Char}
    (hc : c ∈ substituteChars pattern replacement text) : c ∈ replacement ∨ c ∈ text := by
  induction text using substituteChars.induct pattern with
  | case1 => rw [substituteChars] at hc; exact .inr hc
  | case2 d rest hprefix ih =>
      rw [substituteChars, if_pos hprefix, List.mem_append] at hc
      obtain hc | hc := hc
      · exact .inl hc
      · exact (ih hc).imp_right fun hrest => List.mem_cons_of_mem d (List.mem_of_mem_drop hrest)
  | case3 d rest hprefix ih =>
      rw [substituteChars, if_neg hprefix, List.mem_cons] at hc
      obtain rfl | hc := hc
      · exact .inr (List.mem_cons_self ..)
      · exact (ih hc).imp_right (List.mem_cons_of_mem d)

/-- Replacing brings in no line break but those of the replacement. -/
theorem breaks_substitute {pattern replacement text : String}
    (hreplacement : breaks replacement = 0) (htext : breaks text = 0) :
    breaks (substitute pattern replacement text) = 0 := by
  rw [breaks_eq_zero] at hreplacement htext ⊢
  rw [substitute, String.toList_ofList]
  intro hc
  exact (mem_substituteChars hc).elim hreplacement htext

end Substitution

end AccessLedger.Text
