import AccessLedger.Json.Skip
import AccessLedger.Proofs.Json.Layout
import AccessLedger.Proofs.Text.Basic

/-!
Words, strings and integers of JSON, written and read. Each is read back, or passed over, up to what
follows it in a document.
-/

namespace AccessLedger.Json

namespace Decoder

variable {α β : Type} {d : Decoder α} {input rest : RawText} {a : α}

theorem get_bind (k : RawText → Decoder β) (input : RawText) :
    (get >>= k) input = k input input := rfl

theorem set_bind (k : PUnit → Decoder β) (input rest : RawText) :
    (set rest >>= k) input = k ⟨⟩ rest := rfl

theorem modify_bind (f : RawText → RawText) (k : PUnit → Decoder β) (input : RawText) :
    (modify f >>= k) input = k ⟨⟩ (f input) := rfl

theorem bind_ok (h : d input = .ok a rest) (k : α → Decoder β) : (d >>= k) input = k a rest := by
  show EStateM.bind d k input = _
  rw [EStateM.bind, h]

theorem map_ok (h : d input = .ok a rest) (f : α → β) : (f <$> d) input = .ok (f a) rest := by
  show EStateM.map f d input = _
  rw [EStateM.map, h]

theorem placed_ok (h : d input = .ok a rest) : placed d input = .ok a rest := by
  rw [placed, h]

theorem closedBy_ok {close : Decoder Unit} {more : RawText} (h : d input = .ok a rest)
    (hclose : close rest = .ok () more) : closedBy close d input = .ok a more := by
  rw [closedBy, h]
  simp only [hclose]

theorem skipBlanks_cons {bs : List Char} (hbs : AreBlanks bs) {c : Option Char}
    (hc : isBlank c = false) (rest : RawText) :
    skipBlanks (bs.map some ++ c :: rest) = .ok () (c :: rest) := by
  have hdrop : (bs.map some ++ c :: rest).dropWhile isBlank = c :: rest := by
    rw [List.dropWhile_append_of_pos, List.dropWhile_cons_of_neg]
    · rw [hc]
      exact Bool.false_ne_true
    · intro x hx
      obtain ⟨b, hb, rfl⟩ := List.mem_map.mp hx
      exact hbs b hb
  show EStateM.Result.ok () ((bs.map some ++ c :: rest).dropWhile isBlank) = _
  rw [hdrop]

theorem skipBlanks_none {c : Option Char} (hc : isBlank c = false) (rest : RawText) :
    skipBlanks (c :: rest) = .ok () (c :: rest) :=
  skipBlanks_cons areBlanks_nil hc rest

/-- A decoder that begins by looking at what comes behind the blanks. -/
theorem placed_skipBlanks_ok {bs : List Char} (hbs : AreBlanks bs) {c : Option Char}
    (hc : isBlank c = false) {k : RawText → Decoder α} {tail : RawText}
    (h : k (c :: tail) (c :: tail) = .ok a rest) :
    placed (skipBlanks >>= fun _ => get >>= k) (bs.map some ++ c :: tail) = .ok a rest := by
  apply placed_ok
  rw [bind_ok (skipBlanks_cons hbs hc tail), get_bind]
  exact h

theorem word_ok (cs : List Char) (rest : RawText) :
    word cs (cs.map some ++ rest) = .ok () rest := by
  induction cs with
  | nil => rfl
  | cons c cs ih =>
      show (if some c = some c then _ else _ : Decoder Unit) _ = _
      rw [if_pos rfl]
      exact ih

end Decoder

/-- What can come right behind a value in a document. -/
def Follows (rest : RawText) : Prop :=
  ∀ c ∈ rest.head?, Decoder.isBlank c = true ∨ c = some ',' ∨ c = some ']' ∨ c = some '}'

theorem follows_nil : Follows [] :=
  fun _ h => nomatch h

theorem follows_cons {c : Option Char} (rest : RawText)
    (h : c = some ',' ∨ c = some ']' ∨ c = some '}') :
    Follows (c :: rest) := by
  intro x hx
  cases hx
  exact .inr h

theorem AreBlanks.follows {bs : List Char} (hbs : AreBlanks bs) {rest : RawText}
    (hrest : Follows rest) :
    Follows (bs.map some ++ rest) := by
  cases bs with
  | nil => exact hrest
  | cons b bs =>
      intro x hx
      cases hx
      exact .inl (hbs b (List.mem_cons_self ..))

section Strings

/--
What stands for a character between quotes: the character itself, a letter for it, or its code.
-/
inductive EscapedAs (c : Char) : List Char → Prop
  | plain (hquote : c ≠ '"') (hslash : c ≠ '\\') (hc : isControl (some c) = false) : EscapedAs c [c]
  | short {e : Char} (hu : e ≠ 'u') (h : simpleEscape? (some e) = some c) : EscapedAs c ['\\', e]
  | code {x y : Char} (h : hexValue? (some '0') (some '0') (some x) (some y) = some c.toNat)
      (hsmall : c.toNat < 0x20) : EscapedAs c ['\\', 'u', '0', '0', x, y]

theorem escapedAs (c : Char) : EscapedAs c (escapeChar c) := by
  unfold escapeChar
  split
  case h_8 hquote hslash _ _ _ _ _ =>
    split
    · next hsmall =>
      -- two digits are enough for a control character
      have hcodes : ∀ n < 0x20, hexValue? (some '0') (some '0') (some (Nat.digitChar (n / 16)))
          (some (Nat.digitChar (n % 16))) = some n := by decide
      exact .code (hcodes c.toNat hsmall) hsmall
    · next hlarge => exact .plain hquote hslash (decide_eq_false hlarge)
  all_goals exact .short (by decide) rfl

variable {c : Char} {rest more : RawText}

theorem escape_short {e : Char} (hu : e ≠ 'u') (h : simpleEscape? (some e) = some c)
    (rest : RawText) :
    escape (some e :: rest) = .ok (c, rest) := by
  rw [escape]
  · rw [h]
  · intro heq
    exact hu (Option.some.inj heq)

theorem escape_code {x y : Char}
    (h : hexValue? (some '0') (some '0') (some x) (some y) = some c.toNat)
    (hsmall : c.toNat < 0x20) (rest : RawText) :
    escape (some 'u' :: some '0' :: some '0' :: some x :: some y :: rest) = .ok (c, rest) := by
  have hlow : isLowSurrogate c.toNat = false := by simp [isLowSurrogate]; omega
  have hhigh : isHighSurrogate c.toNat = false := by simp [isHighSurrogate]; omega
  simp [escape, hexCode?, h, hlow, hhigh]

theorem stringContent_escaped {content : RawText} {input : RawText}
    (hescape : escape input = .ok (c, rest)) (h : stringContent rest = .ok (content, more)) :
    stringContent (some '\\' :: input) = .ok (some c :: content, more) := by
  rw [stringContent]
  split
  · next hfault => rw [hescape] at hfault; cases hfault
  · next hok =>
    rw [hescape] at hok
    cases hok
    rw [h]

/-- A character is read back from what stands for it. -/
theorem EscapedAs.stringContent_eq {cs : List Char} {content : RawText} (hcs : EscapedAs c cs)
    (h : stringContent rest = .ok (content, more)) :
    stringContent (cs.map some ++ rest) = .ok (some c :: content, more) := by
  cases hcs with
  | plain hquote hslash hc =>
      rw [List.map_singleton, List.singleton_append, stringContent, if_neg (by simp [hc]), h]
      · simpa using hquote
      · simpa using hslash
  | short hu hshort => exact stringContent_escaped (escape_short hu hshort rest) h
  | code hcode hsmall => exact stringContent_escaped (escape_code hcode hsmall rest) h

theorem EscapedAs.skipString_eq {cs : List Char} (hcs : EscapedAs c cs) :
    skipString (cs.map some ++ rest) = skipString rest := by
  cases hcs with
  | plain hquote hslash hc =>
      have hquote' : some c ≠ some '"' := by simpa using hquote
      have hslash' : some c ≠ some '\\' := by simpa using hslash
      rw [List.map_singleton, List.singleton_append, skipString, if_neg (by simp [hc])]
      · exact hquote'
      · exact fun heq _ => hslash' heq
      · exact fun _ heq _ => hslash' heq
      · exact fun _ _ heq _ => hslash' heq
  | short hu hshort =>
      rw [List.map_cons, List.map_singleton, List.cons_append, List.singleton_append, skipString]
      · rw [if_pos (by rw [hshort]; rfl)]
      · exact fun heq => hu (Option.some.inj heq)
  | @code x y hcode hsmall =>
      have hhex : hexCode? (some '0' :: some '0' :: some x :: some y :: rest) =
          some (c.toNat, rest) := by
        simp [hexCode?, hcode]
      show
        skipString (some '\\' :: some 'u' :: some '0' :: some '0' :: some x :: some y :: rest) = _
      rw [skipString]
      split
      · next hnone => rw [hhex] at hnone; cases hnone
      · next hsome => rw [hhex] at hsome; cases hsome; rfl

theorem stringBody_text (s : String) (rest : RawText) :
    stringBody ((s.toList.flatMap escapeChar).map some ++ some '"' :: rest) = .ok s rest := by
  have hcontent : ∀ cs : List Char,
      stringContent ((cs.flatMap escapeChar).map some ++ some '"' :: rest) =
        .ok (cs.map some, rest) := by
    intro cs
    induction cs with
    | nil => simp [stringContent]
    | cons c cs ih =>
        rw [List.flatMap_cons, List.map_append, List.append_assoc]
        exact (escapedAs c).stringContent_eq ih
  have htext := RawText.toString?_ofString s
  rw [RawText.ofString] at htext
  rw [stringBody, Decoder.get_bind]
  simp only [hcontent]
  rw [Decoder.set_bind, htext]
  rfl

theorem skipQuoted_text (s : String) (rest : RawText) :
    skipQuoted ((s.toList.flatMap escapeChar).map some ++ some '"' :: rest) = .ok () rest := by
  have hskip : ∀ cs : List Char,
      skipString ((cs.flatMap escapeChar).map some ++ some '"' :: rest) = .ok rest := by
    intro cs
    induction cs with
    | nil => simp [skipString]
    | cons c cs ih =>
        rw [List.flatMap_cons, List.map_append, List.append_assoc, (escapedAs c).skipString_eq]
        exact ih
  rw [skipQuoted, Decoder.get_bind]
  simp only [hskip]
  rfl

/-- A string is passed over like any other value. -/
theorem skipValue_text {bs : List Char} (hbs : AreBlanks bs) (s : String) (rest : RawText) :
    skipValue ((bs ++ writeText s).map some ++ rest) = .ok () rest := by
  have hcons : (bs ++ writeText s).map some ++ rest =
      bs.map some ++ some '"' :: ((s.toList.flatMap escapeChar).map some ++ some '"' :: rest) := by
    simp [writeText]
  have hpiece : skipPiece [] ((bs ++ writeText s).map some ++ rest) = .ok none rest := by
    rw [hcons, skipPiece, Decoder.bind_ok (Decoder.skipBlanks_cons hbs rfl _), Decoder.get_bind]
    simp only
    rw [Decoder.set_bind, Decoder.bind_ok (skipQuoted_text s rest)]
    rfl
  rw [skipValue, Decoder.get_bind, skipPieces, Decoder.bind_ok hpiece]
  rfl

end Strings

section Numbers

theorem isBlank_of_isDigit {d : Char} (hd : d.isDigit = true) :
    Decoder.isBlank (some d) = false := by
  have hspace : d ≠ ' ' := ne_of_isDigit hd (by decide)
  have hbreak : d ≠ '\n' := ne_of_isDigit hd (by decide)
  have htab : d ≠ '\t' := ne_of_isDigit hd (by decide)
  have hreturn : d ≠ '\r' := ne_of_isDigit hd (by decide)
  simp [Decoder.isBlank, hspace, hbreak, htab, hreturn]

theorem isDigit_of_follows {rest : RawText} (hrest : Follows rest) {c : Char}
    (hc : some c ∈ rest.head?) :
    c.isDigit = false ∧ c ≠ '.' ∧ c ≠ 'e' ∧ c ≠ 'E' := by
  rcases hrest _ hc with hblank | h | h | h
  · simp only [Decoder.isBlank, Bool.or_eq_true, beq_iff_eq, Option.some.injEq] at hblank
    rcases hblank with ((rfl | rfl) | rfl) | rfl <;> decide
  all_goals
    cases h
    decide

theorem digits_digits {ds : List Char} (hds : ∀ c ∈ ds, c.isDigit = true) {rest : RawText}
    (hrest : Follows rest) : digits (ds.map some ++ rest) = (ds, rest) := by
  induction ds with
  | nil =>
      cases rest with
      | nil => rfl
      | cons c rest =>
          cases c with
          | none => rfl
          | some c =>
              have hdigit := (isDigit_of_follows hrest (c := c) rfl).1
              simp [digits, hdigit]
  | cons d ds ih =>
      rw [List.forall_mem_cons] at hds
      rw [List.map_cons, List.cons_append, digits, if_pos hds.1, ih hds.2]

/-- Digits of a number of 64 bits are all taken in. -/
theorem absorb_digits {ds : List Char} {n : Nat} (h : Nat.ofDigitChars 10 ds n < nat64Count) :
    absorb n ds = (Nat.ofDigitChars 10 ds n, ds.length) := by
  induction ds generalizing n with
  | nil => rfl
  | cons d ds ih =>
      rw [Nat.ofDigitChars_cons] at h
      have hle : 10 * n + (d.toNat - '0'.toNat) ≤
          Nat.ofDigitChars 10 ds (10 * n + (d.toNat - '0'.toNat)) := by
        rw [Nat.ofDigitChars_eq_ofDigitChars_zero]
        have hone : 1 ≤ 10 ^ ds.length := Nat.one_le_pow _ _ (by omega)
        exact Nat.le_trans (Nat.le_mul_of_pos_left _ hone) (Nat.le_add_right _ _)
      have hnext : 10 * n + (d.toNat - '0'.toNat) < nat64Count := Nat.lt_of_le_of_lt hle h
      rw [absorb]
      simp only [if_pos hnext, ih h]
      rw [Nat.ofDigitChars_cons, List.length_cons]

theorem afterWhole_ok {negative : Bool} {n : Nat} (hn : negative = true → 0 < n ∧ n ≤ int64Limit)
    {rest : RawText} (hrest : Follows rest) :
    unsignedNumber.afterWhole negative n 0 rest =
      .ok (if negative then .negative (-n) else .natural n) rest := by
  have hexponent : atExponent rest = false := by
    cases rest with
    | nil => rfl
    | cons c rest =>
        cases c with
        | none => rfl
        | some c =>
            obtain ⟨_, _, he, hE⟩ := isDigit_of_follows hrest (c := c) rfl
            simp [atExponent, he, hE]
  rw [unsignedNumber.afterWhole, Decoder.get_bind]
  split
  · next rest => exact absurd rfl (isDigit_of_follows hrest (c := '.') rfl).2.1
  · rw [if_neg (by rw [hexponent]; exact Bool.false_ne_true), if_neg (by simp)]
    cases negative with
    | false => rfl
    | true =>
        simp only [Bool.not_true, Bool.false_eq_true, if_false, hn rfl, decide_true, Bool.and_self,
          if_true]
        rfl

theorem unsignedNumber_toDigits (negative : Bool) {n : Nat} (hlarge : n < nat64Count)
    (hn : negative = true → 0 < n ∧ n ≤ int64Limit) {rest : RawText} (hrest : Follows rest) :
    unsignedNumber negative ((Nat.toDigits 10 n).map some ++ rest) =
      .ok (if negative then .negative (-n) else .natural n) rest := by
  obtain ⟨d, ds, hdigits, hzero, hall, hvalue⟩ := exists_digits n
  have hread := digits_digits hall hrest
  have habsorb := absorb_digits (hvalue ▸ hlarge)
  have hd := hall d (List.mem_cons_self ..)
  rw [List.map_cons, List.cons_append] at hread
  rw [← afterWhole_ok hn hrest, hdigits, unsignedNumber, Decoder.get_bind, List.map_cons,
    List.cons_append]
  generalize hinput : some d :: (ds.map some ++ rest) = input at hread ⊢
  split
  · cases hinput
  · next c more =>
    -- a zero in front is all that there is
    rw [List.cons.injEq, Option.some.injEq] at hinput
    obtain ⟨rfl, htail⟩ := hinput
    rw [hzero rfl] at htail hvalue
    rw [List.map_nil, List.nil_append] at htail
    subst htail
    have hc := (isDigit_of_follows hrest (c := c) rfl).1
    have hnone : n = 0 := hvalue.symm
    rw [if_neg (by rw [hc]; exact Bool.false_ne_true), Decoder.set_bind, hnone]
  · next c more _ =>
    rw [List.cons.injEq, Option.some.injEq] at hinput
    obtain ⟨rfl, rfl⟩ := hinput
    rw [if_pos hd, Decoder.get_bind]
    simp only [hread]
    rw [Decoder.set_bind]
    simp only [habsorb, hvalue, Nat.sub_self]
  · cases hinput

end Numbers
end AccessLedger.Json
