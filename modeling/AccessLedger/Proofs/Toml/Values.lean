import AccessLedger.Proofs.Text.Basic
import AccessLedger.Proofs.Toml.Text
import AccessLedger.Toml.Source

/-!
Values of TOML, written and read. A number, a string or a list of strings that was written is read
back as the value that it stands for, up to the end of its line.
-/

namespace AccessLedger.Toml

/-- The value that a setting is written for. -/
def Setting.value : Setting → Value
  | flag b => .boolean b
  | number n => .integer n
  | text s => .text s
  | texts items => .list (items.map .text)

/-- A single value that TOML has; there are no greater integers than those of 64 bits. -/
def Setting.IsScalar : Setting → Prop
  | flag _ | text _ => True
  | number n => n < int64Limit
  | texts _ => False

/-- A value that TOML has; there are no greater integers than those of 64 bits. -/
def Setting.Fits : Setting → Prop
  | flag _ | text _ | texts _ => True
  | number n => n < int64Limit

section Numbers

theorem integer?_of_lt {n : Nat} (h : n < int64Limit) : integer? n = some (.integer n) := by
  have hlow : -int64Limit ≤ (n : Int) := by omega
  rw [integer?, if_pos ⟨hlow, Int.ofNat_lt.mpr h⟩]

theorem cons_ne_of_isDigit {d c : Char} (hd : d.isDigit = true) (hc : c.isDigit = false)
    (l l' : List Char) : d :: l ≠ c :: l' :=
  fun h => ne_of_isDigit hd hc (List.cons.inj h).1

variable {ds : List Char} (hds : ∀ c ∈ ds, c.isDigit = true) (rest : List Char)

include hds

/-- What follows some digits of a number is another digit or the end of the line. -/
theorem fixedNumber?_digits {n count m : Nat} {more : List Char}
    (h : fixedNumber? n count (ds ++ '\n' :: rest) = some (m, more)) :
    ∃ ds', (∀ c ∈ ds', c.isDigit = true) ∧ more = ds' ++ '\n' :: rest := by
  induction count generalizing n ds with
  | zero =>
      cases h
      exact ⟨ds, hds, rfl⟩
  | succ count ih =>
      cases ds with
      | nil => cases h
      | cons d ds =>
          rw [List.forall_mem_cons] at hds
          rw [List.cons_append, fixedNumber?, if_pos hds.1] at h
          exact ih hds.2 h

theorem expect?_digits {c : Char} (hc : c.isDigit = false) (hbreak : c ≠ '\n') :
    expect? c (ds ++ '\n' :: rest) = none := by
  cases ds with
  | nil => exact if_neg (Ne.symm hbreak)
  | cons d ds =>
      exact if_neg (ne_of_isDigit (hds d (List.mem_cons_self ..)) hc)

theorem date?_digits : date? (ds ++ '\n' :: rest) = none := by
  rw [date?]
  cases hyear : fixedNumber? 0 4 (ds ++ '\n' :: rest) with
  | none => rfl
  | some year =>
      obtain ⟨ds', hds', hmore⟩ := fixedNumber?_digits hds rest hyear
      simp [hmore, expect?_digits hds' rest (c := '-') (by decide) (by decide)]

theorem timeOfDay?_digits : timeOfDay? (ds ++ '\n' :: rest) = none := by
  rw [timeOfDay?, pair?]
  cases hhour : fixedNumber? 0 2 (ds ++ '\n' :: rest) with
  | none => rfl
  | some hour =>
      obtain ⟨ds', hds', hmore⟩ := fixedNumber?_digits hds rest hhour
      simp only [Option.bind_eq_bind, Option.bind_some]
      split
      · simp [hmore, expect?_digits hds' rest (c := ':') (by decide) (by decide)]
      · rfl

/-- A number is no date and no time of day. -/
theorem moment?_digits : moment? (ds ++ '\n' :: rest) = none := by
  rw [moment?, date?_digits hds, timeOfDay?_digits hds]

theorem moreDigits_digits :
    moreDigits Char.isDigit (ds ++ '\n' :: rest) = some (ds, '\n' :: rest) := by
  induction ds with
  | nil =>
      rw [List.nil_append, moreDigits]
      · rfl
      · simp
      · simp
  | cons d ds ih =>
      rw [List.forall_mem_cons] at hds
      rw [List.cons_append, moreDigits, if_pos hds.1, ih hds.2]
      · rfl
      · rintro c more rfl hmore
        exact absurd hds.1 (by decide)
      · rintro rfl hmore
        exact absurd hds.1 (by decide)

/-- Digits are read as a whole number, which does not begin with zero unless it is zero. -/
theorem unsignedDecimal?_digits {d : Char} (hzero : d = '0' → ds = []) (hd : d.isDigit = true)
    (hsmall : Nat.ofDigitChars 10 (d :: ds) 0 < int64Limit) :
    unsignedDecimal? false (d :: (ds ++ '\n' :: rest)) =
      some (.integer (Nat.ofDigitChars 10 (d :: ds) 0 : Nat), '\n' :: rest) := by
  have hwhole : wholeDigits? (d :: (ds ++ '\n' :: rest)) = some (d :: ds, '\n' :: rest) := by
    by_cases hz : d = '0'
    · rw [hz, hzero hz]
      rfl
    · rw [wholeDigits?, digits?, if_pos hd, moreDigits_digits hds]
      · rfl
      · rintro more hmore
        rw [List.cons.injEq] at hmore
        exact hz hmore.1
  have hinteger : integer? (signed false (Nat.ofDigitChars 10 (d :: ds) 0 : Nat)) =
      some (.integer (Nat.ofDigitChars 10 (d :: ds) 0 : Nat)) := by
    rw [signed, if_neg Bool.false_ne_true, integer?_of_lt hsmall]
  rw [unsignedDecimal?, hwhole, Option.bind_eq_bind, Option.bind_some]
  simp only
  split
  · next h => simp at h
  · next h => simp at h
  · next h => simp at h
  · rw [hinteger, Option.map_some]

theorem number?_digits {d : Char} (hzero : d = '0' → ds = []) (hd : d.isDigit = true)
    (hsmall : Nat.ofDigitChars 10 (d :: ds) 0 < int64Limit) :
    number? (d :: (ds ++ '\n' :: rest)) =
      some (.integer (Nat.ofDigitChars 10 (d :: ds) 0 : Nat), '\n' :: rest) := by
  have hnext : ∀ c more, c ≠ '\n' → d :: (ds ++ '\n' :: rest) ≠ '0' :: c :: more := by
    intro c more hc h
    rw [List.cons.injEq] at h
    rw [hzero h.1, List.nil_append, List.cons.injEq] at h
    exact hc h.2.1.symm
  have hsign : sign (d :: (ds ++ '\n' :: rest)) = (false, d :: (ds ++ '\n' :: rest)) := by
    rw [sign]
    · exact fun _ => cons_ne_of_isDigit hd (by decide) _ _
    · exact fun _ => cons_ne_of_isDigit hd (by decide) _ _
  rw [number?]
  · rw [hsign]
    simp only
    split
    · next h => exact absurd h (cons_ne_of_isDigit hd (by decide) _ _)
    · next h => exact absurd h (cons_ne_of_isDigit hd (by decide) _ _)
    · exact unsignedDecimal?_digits hds rest hzero hd hsmall
  · exact fun more => hnext 'x' more (by decide)
  · exact fun more => hnext 'o' more (by decide)
  · exact fun more => hnext 'b' more (by decide)

end Numbers

section Scalars

/-- A number is read back up to the end of its line. -/
theorem scalar?_number {n : Nat} (hn : n < int64Limit) (rest : List Char) :
    scalar? (Nat.toDigits 10 n ++ '\n' :: rest) = some (.integer n, '\n' :: rest) := by
  obtain ⟨d, ds, hdigits, hzero, hall, hvalue⟩ := exists_digits n
  have hmoment := moment?_digits hall rest
  rw [List.forall_mem_cons] at hall
  have hnumber := number?_digits hall.2 rest hzero hall.1 (hvalue ▸ hn)
  rw [hdigits, List.cons_append, scalar?]
  · rw [List.cons_append] at hmoment
    rw [hmoment, hnumber, hvalue]
  · exact fun _ => cons_ne_of_isDigit hall.1 (by decide) _ _
  · exact fun _ => cons_ne_of_isDigit hall.1 (by decide) _ _
  · exact fun _ => cons_ne_of_isDigit hall.1 (by decide) _ _
  · exact fun _ => cons_ne_of_isDigit hall.1 (by decide) _ _

theorem writeText_eq_cons (s : String) :
    ∃ q cs, writeText s = q :: cs ∧ (q = '"' ∨ q = '\'') := by
  simp only [writeText]
  cases TextForm.of s.toList with
  | basic => exact ⟨'"', _, rfl, .inl rfl⟩
  | literal => exact ⟨'\'', _, rfl, .inr rfl⟩
  | basicLines => exact ⟨'"', _, rfl, .inl rfl⟩
  | literalLines => exact ⟨'\'', _, rfl, .inr rfl⟩

theorem scalar?_text (s : String) {rest : List Char} (hdouble : rest.head? ≠ some '"')
    (hsingle : rest.head? ≠ some '\'') :
    scalar? (writeText s ++ rest) = some (.text s, rest) := by
  have hread : string? (writeText s ++ rest) = some (s.toList, rest) :=
    string?_writeText s hdouble hsingle
  obtain ⟨q, cs, hwritten, hquote⟩ := writeText_eq_cons s
  rw [hwritten, List.cons_append] at hread ⊢
  rcases hquote with rfl | rfl
  · simp only [scalar?, hread, Option.map_some, String.ofList_toList]
  · simp only [scalar?, hread, Option.map_some, String.ofList_toList]

/-- What begins a scalar begins no list, no table and no blank space. -/
theorem Setting.write_eq_cons {x : Setting} (hx : x.IsScalar) :
    ∃ c cs, x.write = c :: cs ∧ isBlank c = false ∧ c ≠ '[' ∧ c ≠ '\x7b' := by
  cases x with
  | flag b => cases b <;> exact ⟨_, _, rfl, by decide, by decide, by decide⟩
  | number n =>
      obtain ⟨d, ds, hdigits, _⟩ := toDigits_eq_cons n
      have hd : d.isDigit = true := by
        refine Nat.isDigit_of_mem_toDigits (b := 10) (n := n) (by omega) (by omega) ?_
        rw [hdigits]
        exact List.mem_cons_self ..
      have hne : ∀ c, c.isDigit = false → d ≠ c := by
        rintro c hc rfl
        rw [hd] at hc
        cases hc
      refine ⟨d, ds, hdigits, ?_, hne _ (by decide), hne _ (by decide)⟩
      rw [isBlank, Bool.or_eq_false_iff, beq_eq_false_iff_ne, beq_eq_false_iff_ne]
      exact ⟨hne _ (by decide), hne _ (by decide)⟩
  | text s =>
      obtain ⟨q, cs, hwritten, hquote⟩ := writeText_eq_cons s
      refine ⟨q, cs, hwritten, ?_⟩
      rcases hquote with rfl | rfl
      · exact ⟨rfl, by decide, by decide⟩
      · exact ⟨rfl, by decide, by decide⟩
  | texts items => exact hx.elim

theorem scalar?_write {x : Setting} (hx : x.IsScalar) (rest : List Char) :
    scalar? (x.write ++ '\n' :: rest) = some (x.value, '\n' :: rest) := by
  cases x with
  | flag b => cases b <;> rfl
  | number n => exact scalar?_number hx rest
  | text s => exact scalar?_text s (by simp) (by simp)
  | texts items => exact hx.elim

theorem value?_scalar {x : Setting} (hx : x.IsScalar) (depth : Nat) (rest : List Char) :
    value? depth (x.write ++ '\n' :: rest) = some (x.value, '\n' :: rest) := by
  obtain ⟨c, cs, hwritten, _, hlist, htable⟩ := Setting.write_eq_cons hx
  rw [← scalar?_write hx rest, hwritten, List.cons_append]
  cases depth with
  | zero => rfl
  | succ depth =>
      rw [value?]
      · rintro _ h
        exact hlist (List.cons.inj h).1
      · rintro _ h
        exact htable (List.cons.inj h).1

end Scalars

section Lists

theorem value?_text (depth : Nat) (s : String) {rest : List Char} (hdouble : rest.head? ≠ some '"')
    (hsingle : rest.head? ≠ some '\'') :
    value? depth (writeText s ++ rest) = some (.text s, rest) := by
  have hscalar := scalar?_text s hdouble hsingle
  obtain ⟨q, cs, hwritten, hquote⟩ := writeText_eq_cons s
  rw [hwritten, List.cons_append] at hscalar ⊢
  cases depth with
  | zero => exact hscalar
  | succ depth =>
      rcases hquote with rfl | rfl
      · exact hscalar
      · exact hscalar

/--
Between the items of a list, a string begins where it stands, or on a line of its own further in.
-/
theorem skipLayout_text (s : String) (rest : List Char) (bound : Nat) :
    skipLayout bound (writeText s ++ rest) = writeText s ++ rest ∧
      skipLayout (bound + 2) ('\n' :: ' ' :: ' ' :: ' ' :: ' ' :: (writeText s ++ rest)) =
        writeText s ++ rest := by
  obtain ⟨q, cs, hwritten, hquote⟩ := writeText_eq_cons s
  rw [hwritten, List.cons_append]
  rcases hquote with rfl | rfl
  · exact ⟨by cases bound <;> rfl, rfl⟩
  · exact ⟨by cases bound <;> rfl, rfl⟩

theorem skipLayout_comma (bound : Nat) (rest : List Char) :
    skipLayout bound (',' :: rest) = ',' :: rest := by
  cases bound <;> rfl

theorem skipLayout_close (bound : Nat) (rest : List Char) :
    skipLayout bound (']' :: rest) = ']' :: rest := by
  cases bound <;> rfl

/-- An item before a comma is followed by the items behind it. -/
theorem items?_cons {item? : ValueReader} {bound : Nat} {input start rest : List Char} {v : Value}
    (hskip : skipLayout input.length input = start) (hstart : start.head? ≠ some ']')
    (hitem : item? start = some (v, ',' :: rest)) :
    items? item? (bound + 1) input =
      (items? item? bound rest).map fun (vs, rest) => (v :: vs, rest) := by
  rw [items?, hskip]
  split
  · exact absurd rfl hstart
  · simp only [hitem, Option.bind_eq_bind, Option.bind_some, skipLayout_comma]
    cases items? item? bound rest <;> rfl

theorem items?_last {item? : ValueReader} {bound : Nat} {input rest : List Char} {v : Value}
    (hskip : skipLayout input.length input = input) (hstart : input.head? ≠ some ']')
    (hitem : item? input = some (v, ']' :: rest)) :
    items? item? (bound + 1) input = some ([v], rest) := by
  rw [items?, hskip]
  split
  · exact absurd rfl hstart
  · simp only [hitem, Option.bind_eq_bind, Option.bind_some, skipLayout_close]
    rfl

theorem head?_writeText_ne_close (s : String) (rest : List Char) :
    (writeText s ++ rest).head? ≠ some ']' := by
  obtain ⟨q, cs, hwritten, hquote⟩ := writeText_eq_cons s
  rw [hwritten]
  rcases hquote with rfl | rfl
  · simp
  · simp

theorem length_le_flatMap_writeItem (items : List String) :
    items.length ≤ (items.flatMap writeItem).length := by
  induction items with
  | nil => exact Nat.le_refl _
  | cons s items ih =>
      rw [List.flatMap_cons, List.length_append, List.length_cons, writeItem]
      simp only [List.length_append, List.length_cons]
      omega

/-- Items on a line each. -/
theorem items?_writeItems (depth : Nat) (items : List String) (rest : List Char) {bound : Nat}
    (hbound : items.length < bound) :
    items? (value? depth) bound ('\n' :: (items.flatMap writeItem ++ ']' :: rest)) =
      some (items.map .text, rest) := by
  induction items generalizing bound with
  | nil =>
      obtain ⟨bound, rfl⟩ : ∃ n, bound = n + 1 := ⟨bound - 1, by omega⟩
      rfl
  | cons s items ih =>
      rw [List.length_cons] at hbound
      obtain ⟨bound, rfl⟩ : ∃ n, bound = n + 1 := ⟨bound - 1, by omega⟩
      let after := '\n' :: (items.flatMap writeItem ++ ']' :: rest)
      have hinput : '\n' :: ((s :: items).flatMap writeItem ++ ']' :: rest) =
          '\n' :: ' ' :: ' ' :: ' ' :: ' ' :: (writeText s ++ ',' :: after) := by
        simp [writeItem, after]
      have hitem : value? depth (writeText s ++ ',' :: after) = some (.text s, ',' :: after) :=
        value?_text depth s (by simp) (by simp)
      rw [hinput, items?_cons (skipLayout_text s _ _).2 (head?_writeText_ne_close s _) hitem,
        ih (by omega)]
      rfl

/-- A list is read back with the items that it was written with. -/
theorem value?_texts (depth : Nat) (items : List String) (rest : List Char) :
    value? (depth + 1) ((Setting.texts items).write ++ rest) =
      some (.list (items.map .text), rest) := by
  have hlist : ∀ {input : List Char} {vs : List Value},
      items? (value? depth) input.length input = some (vs, rest) →
        value? (depth + 1) ('[' :: input) = some (.list vs, rest) := by
    intro input vs h
    rw [value?, h]
    rfl
  match items with
  | [] => exact hlist rfl
  | [s] =>
      have hitem : value? depth (writeText s ++ ']' :: rest) = some (.text s, ']' :: rest) :=
        value?_text depth s (by simp) (by simp)
      have hwritten : (Setting.texts [s]).write ++ rest = '[' :: (writeText s ++ ']' :: rest) := by
        simp [Setting.write]
      rw [hwritten]
      refine hlist ?_
      have hlength : (writeText s ++ ']' :: rest).length = (writeText s ++ rest).length + 1 := by
        simp; omega
      rw [hlength]
      refine items?_last ?_ (head?_writeText_ne_close s _) hitem
      exact (skipLayout_text s _ _).1
  | s :: t :: items =>
      have hwritten : (Setting.texts (s :: t :: items)).write ++ rest =
          '[' :: '\n' :: ((s :: t :: items).flatMap writeItem ++ ']' :: rest) := by
        simp [Setting.write]
      rw [hwritten]
      refine hlist (items?_writeItems depth _ rest ?_)
      have hlength := length_le_flatMap_writeItem (s :: t :: items)
      simp only [List.length_cons, List.length_append] at hlength ⊢
      omega

end Lists

section Settings

variable {x : Setting} (hx : x.Fits)
include hx

theorem value?_write (depth : Nat) (rest : List Char) :
    value? (depth + 1) (x.write ++ '\n' :: rest) = some (x.value, '\n' :: rest) := by
  cases x with
  | flag b => exact value?_scalar (x := .flag b) trivial (depth + 1) rest
  | number n => exact value?_scalar (x := .number n) hx (depth + 1) rest
  | text s => exact value?_scalar (x := .text s) trivial (depth + 1) rest
  | texts items => exact value?_texts depth items ('\n' :: rest)

/-- No value begins with a blank. -/
theorem write_eq_cons_of_fits : ∃ c cs, x.write = c :: cs ∧ isBlank c = false := by
  have hscalar : ∀ {y : Setting}, y.IsScalar → ∃ c cs, y.write = c :: cs ∧ isBlank c = false := by
    intro y hy
    obtain ⟨c, cs, hwritten, hblank, _⟩ := Setting.write_eq_cons hy
    exact ⟨c, cs, hwritten, hblank⟩
  cases x with
  | flag b => exact hscalar (y := .flag b) trivial
  | number n => exact hscalar (y := .number n) hx
  | text s => exact hscalar (y := .text s) trivial
  | texts items =>
      match items with
      | [] => exact ⟨'[', _, rfl, rfl⟩
      | [s] => exact ⟨'[', _, rfl, rfl⟩
      | s :: t :: items => exact ⟨'[', _, rfl, rfl⟩

end Settings
end AccessLedger.Toml
