import AccessLedger.Collation.Folding

/-!
Orders of labels. A collation is a total preorder when it compares the two ways round with opposite
results and is transitive; labels may then tie without being equal. The collation by lower-case form
is of this kind, and in it only a label itself ties with it, for it ends with the text.
-/

namespace AccessLedger.Collation

variable {collation : Collation}

theorem ne_gt_of_eq [Std.ReflCmp collation] {a b : String} (h : a = b) :
    (collation a b != .gt) = true := by
  rw [h, show collation b b = .eq from Std.ReflCmp.compare_self]
  rfl

theorem ne_gt_trans [Std.TransCmp collation] (a b c : String)
    (hab : (collation a b != .gt) = true) (hbc : (collation b c != .gt) = true) :
    (collation a c != .gt) = true := by
  simp only [bne_iff_ne, ne_eq, ← Ordering.isLE_iff_ne_gt] at *
  exact Std.TransCmp.isLE_trans hab hbc

theorem ne_gt_total [Std.OrientedCmp collation] (a b : String) :
    (collation a b != .gt || collation b a != .gt) = true := by
  have hswap : collation b a = (collation a b).swap := Std.OrientedCmp.eq_swap
  rw [hswap]
  cases collation a b <;> rfl

instance : Std.TransCmp reversed :=
  inferInstanceAs (Std.TransCmp fun a b : String => compare b a)

instance : Std.TransCmp compareChars :=
  inferInstanceAs (Std.TransCmp (List.compareLex (compareOn Char.toNat)))

instance : Std.LawfulEqCmp compareChars where
  eq_of_compare {a b} h := by
    have : Std.LawfulEqCmp (compareOn Char.toNat) :=
      ⟨fun h => Char.toNat_inj.mp (Nat.compare_eq_eq.mp h)⟩
    have hlex : Std.LawfulEqCmp (List.compareLex (compareOn Char.toNat)) := inferInstance
    exact hlex.eq_of_compare h

/-- Texts compared by what they are turned into. -/
theorem transCmp_comap {α : Type} {cmp : α → α → Ordering} [Std.TransCmp cmp] (f : String → α) :
    Std.TransCmp fun a b => cmp (f a) (f b) where
  eq_swap := Std.OrientedCmp.eq_swap
  isLE_trans hab hbc := Std.TransCmp.isLE_trans hab hbc

instance : Std.TransCmp folding := by
  have hfold : Std.TransCmp fun a b => compareChars (fold a) (fold b) := transCmp_comap fold
  have htext : Std.TransCmp fun a b : String => compareChars a.toList b.toList :=
    transCmp_comap String.toList
  exact inferInstanceAs (Std.TransCmp (compareLex (fun a b => compareChars (fold a) (fold b))
    fun a b : String => compareChars a.toList b.toList))

instance : Std.LawfulEqCmp folding where
  eq_of_compare h := by
    rw [folding, Ordering.then_eq_eq] at h
    exact String.toList_inj.mp (Std.LawfulEqCmp.eq_of_compare h.2)

end AccessLedger.Collation
