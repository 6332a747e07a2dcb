import AccessLedger.Toml.Text
import AccessLedger.Toml.Writer

/-!
Strings in TOML, written and read. Whatever form a string takes, and whatever characters it holds,
it is read back as it was, up to the quote that ends it. What comes behind must not begin with a
quote, which could be taken for part of the string.
-/

namespace AccessLedger.Toml

section Characters

theorem isPlain_of_not_isControl {c : Char} (hcontrol : isControl c = false) (hbreak : c ≠ '\n') :
    isPlain c = true := by
  simp only [isControl, Bool.or_eq_false_iff, Bool.and_eq_false_iff, decide_eq_false_iff_not,
    bne_eq_false_iff_eq, beq_eq_false_iff_ne] at hcontrol
  obtain ⟨hlow, hdelete⟩ := hcontrol
  simp only [isPlain, Bool.or_eq_true, beq_iff_eq, Bool.and_eq_true, decide_eq_true_eq]
  rcases hlow with (hlow | htab) | hline
  · exact .inr ⟨Nat.le_of_not_lt hlow, hdelete⟩
  · exact .inl htab
  · exact absurd hline hbreak

theorem hexDigit?_upperHexDigit : ∀ d < 16, hexDigit? (upperHexDigit d) = some d := by
  decide

/-- A control character is the one with the code point of its two last digits. -/
theorem codePoint?_control {c : Char} (hcontrol : isControl c = true) (rest : List Char) :
    codePoint? 4
      ('0' :: '0' :: upperHexDigit (c.toNat / 16) :: upperHexDigit (c.toNat % 16) :: rest) =
      some (c, rest) := by
  have hsmall : c.toNat < 128 := by
    simp only [isControl, Bool.or_eq_true, Bool.and_eq_true, decide_eq_true_eq, beq_iff_eq]
      at hcontrol
    omega
  have hhigh := hexDigit?_upperHexDigit (c.toNat / 16) (by omega)
  have hlow := hexDigit?_upperHexDigit (c.toNat % 16) (by omega)
  have hzero : hexDigit? '0' = some 0 := by decide
  have hvalue :
      16 * (16 * (16 * (16 * 0 + 0) + 0) + c.toNat / 16) + c.toNat % 16 = c.toNat := by omega
  have hvalid : c.toNat.isValidChar := c.valid
  simp only [codePoint?, hexValue?, hzero, hhigh, hlow, Option.bind_eq_bind, Option.bind_some,
    hvalue, hvalid, if_true, Char.ofNat_toNat]

/-- A character stands for itself or is behind a backslash, where it is read back. -/
theorem writeChar_cases (c : Char) :
    (writeChar c = [c] ∧ isPlain c = true ∧ c ≠ '\\' ∧ c ≠ '\n') ∨
      ∃ escaped, writeChar c = '\\' :: escaped ∧ ∀ rest,
        escape? (escaped ++ rest) = some (c, rest) ∧ continuation? (escaped ++ rest) = none := by
  unfold writeChar
  split
  · exact .inr ⟨['b'], rfl, fun rest => ⟨rfl, rfl⟩⟩
  · exact .inr ⟨['t'], rfl, fun rest => ⟨rfl, rfl⟩⟩
  · exact .inr ⟨['n'], rfl, fun rest => ⟨rfl, rfl⟩⟩
  · exact .inr ⟨['f'], rfl, fun rest => ⟨rfl, rfl⟩⟩
  · exact .inr ⟨['r'], rfl, fun rest => ⟨rfl, rfl⟩⟩
  · exact .inr ⟨['\\'], rfl, fun rest => ⟨rfl, rfl⟩⟩
  · next hbreak _ _ hbackslash =>
    split
    · next hcontrol =>
      exact .inr ⟨_, rfl, fun rest => ⟨codePoint?_control hcontrol rest, rfl⟩⟩
    · next hcontrol =>
      exact .inl ⟨rfl, isPlain_of_not_isControl (by simpa using hcontrol) hbreak, hbackslash,
        hbreak⟩

end Characters

section Basic

theorem basicContent_escape {input rest : List Char} {c : Char}
    (h : escape? input = some (c, rest)) :
    basicContent ('\\' :: input) =
      (basicContent rest).map fun (content, rest) => (c :: content, rest) := by
  rw [basicContent]
  split
  · next hnone =>
    rw [h] at hnone
    cases hnone
  · next hsome =>
    rw [h] at hsome
    cases hsome
    rfl

/-- Between double quotes a written character is read as one, unless it is itself a double quote. -/
theorem basicContent_writeChar {c : Char} (hquote : c ≠ '"') (input : List Char) :
    basicContent (writeChar c ++ input) =
      (basicContent input).map fun (content, rest) => (c :: content, rest) := by
  rcases writeChar_cases c with ⟨hwritten, hplain, hbackslash, _⟩ | ⟨escaped, hwritten, hread⟩
  · rw [hwritten, List.singleton_append, basicContent]
    · rw [if_pos hplain]
    · exact hquote
    · exact hbackslash
  · rw [hwritten, List.cons_append, basicContent_escape (hread input).1]

theorem writeBasic_cons (c : Char) (cs : List Char) :
    writeBasic (c :: cs) = (if c = '"' then ['\\', '"'] else writeChar c) ++ writeBasic cs :=
  List.flatMap_cons

theorem basicContent_writeBasic (cs rest : List Char) :
    basicContent (writeBasic cs ++ '"' :: rest) = some (cs, rest) := by
  induction cs with
  | nil => rw [writeBasic, List.flatMap_nil, List.nil_append, basicContent]
  | cons c cs ih =>
      rw [writeBasic_cons, List.append_assoc]
      split
      · next hquote =>
        have hescape : escape? ('"' :: (writeBasic cs ++ '"' :: rest)) =
            some ('"', writeBasic cs ++ '"' :: rest) := rfl
        rw [hquote]
        show basicContent ('\\' :: '"' :: (writeBasic cs ++ '"' :: rest)) = _
        rw [basicContent_escape hescape, ih, Option.map_some]
      · next hquote => rw [basicContent_writeChar hquote, ih, Option.map_some]

end Basic

/-- Up to two quotes are read one by one where a single one is, as long as no more follow. -/
theorem read_quotes {read : List Char → Option (List Char × List Char)} {q : Char}
    (hread : ∀ input, (∀ rest, input ≠ q :: q :: rest) →
      read (q :: input) = (read input).map fun (content, rest) => (q :: content, rest))
    {quotes : Nat} (hquotes : quotes ≤ 2) {input : List Char} (hinput : input.head? ≠ some q) :
    read (List.replicate quotes q ++ input) =
      (read input).map fun (content, rest) => (List.replicate quotes q ++ content, rest) := by
  have hfirst := hread input (by
    rintro rest rfl
    exact hinput rfl)
  match quotes, hquotes with
  | 0, _ => simp
  | 1, _ => exact hfirst
  | 2, _ =>
      have hsecond := hread (q :: input) (by
        intro rest hrest
        rw [List.cons.injEq] at hrest
        rw [hrest.2] at hinput
        exact hinput rfl)
      show read (q :: q :: input) = _
      rw [hsecond, hfirst, Option.map_map]
      rfl

section BasicLines

/-- A character that begins neither the end of the content nor an escape is read as itself. -/
theorem basicLines_cons {c : Char} {input : List Char} (hplain : (c == '\n' || isPlain c) = true)
    (hend : ∀ rest, c = '"' → input ≠ '"' :: '"' :: rest) (hbackslash : c ≠ '\\') :
    basicLines (c :: input) = (basicLines input).map fun (content, rest) =>
      (c :: content, rest) := by
  rw [basicLines]
  · rw [if_pos hplain]
  · exact fun rest hc hinput => hend ('"' :: '"' :: rest) hc hinput
  · exact fun rest hc hinput => hend ('"' :: rest) hc hinput
  · exact hend
  · exact hbackslash
  · rintro _ rfl _
    exact absurd hplain (by decide)

theorem basicLines_escape {input rest : List Char} {c : Char}
    (hcontinue : continuation? input = none) (h : escape? input = some (c, rest)) :
    basicLines ('\\' :: input) =
      (basicLines rest).map fun (content, rest) => (c :: content, rest) := by
  rw [basicLines]
  split
  · next hsome =>
    rw [hcontinue] at hsome
    cases hsome
  · split
    · next hnone =>
      rw [h] at hnone
      cases hnone
    · next hsome =>
      rw [h] at hsome
      cases hsome
      rfl

theorem basicLines_quotes {quotes : Nat} (hquotes : quotes ≤ 2) {input : List Char}
    (hinput : input.head? ≠ some '"') :
    basicLines (List.replicate quotes '"' ++ input) =
      (basicLines input).map fun (content, rest) =>
        (List.replicate quotes '"' ++ content, rest) := by
  refine read_quotes ?_ hquotes hinput
  intro input hend
  exact basicLines_cons (by decide) (fun rest _ => hend rest) (by decide)

theorem head?_writeChar {c : Char} (hquote : c ≠ '"') (input : List Char) :
    (writeChar c ++ input).head? ≠ some '"' := by
  rcases writeChar_cases c with ⟨hwritten, _⟩ | ⟨escaped, hwritten, _⟩
  · rw [hwritten]
    simpa using hquote
  · rw [hwritten]
    simp

/--
Between three double quotes a written character is read as one, unless it is itself a double quote.
-/
theorem basicLines_writeChar {c : Char} (hquote : c ≠ '"') (input : List Char) :
    basicLines (writeChar c ++ input) =
      (basicLines input).map fun (content, rest) => (c :: content, rest) := by
  rcases writeChar_cases c with ⟨hwritten, hplain, hbackslash, _⟩ | ⟨escaped, hwritten, hread⟩
  · rw [hwritten, List.singleton_append, basicLines_cons _ _ hbackslash]
    · rw [hplain, Bool.or_true]
    · exact fun _ hc => absurd hc hquote
  · rw [hwritten, List.cons_append, basicLines_escape (hread input).2 (hread input).1]

/-- The content ends with the last three of the quotes in a row. -/
theorem basicLines_end {quotes : Nat} (hquotes : quotes ≤ 2) {rest : List Char}
    (hrest : rest.head? ≠ some '"') :
    basicLines (List.replicate quotes '"' ++ '"' :: '"' :: '"' :: rest) =
      some (List.replicate quotes '"', rest) := by
  match quotes, hquotes with
  | 0, _ =>
      show basicLines ('"' :: '"' :: '"' :: rest) = _
      rw [basicLines]
      · rfl
      · rintro _ rfl
        exact hrest rfl
      · rintro _ rfl
        exact hrest rfl
  | 1, _ =>
      show basicLines ('"' :: '"' :: '"' :: '"' :: rest) = _
      rw [basicLines]
      · rfl
      · rintro _ rfl
        exact hrest rfl
  | 2, _ =>
      show basicLines ('"' :: '"' :: '"' :: '"' :: '"' :: rest) = _
      rw [basicLines]
      rfl

/-- The quotes right before are read together with what follows, for which they count. -/
theorem basicLines_writeBasicLines {quotes : Nat} (hquotes : quotes ≤ 2) (cs : List Char)
    {rest : List Char} (hrest : rest.head? ≠ some '"') :
    basicLines (List.replicate quotes '"' ++
      (writeBasicLines quotes cs ++ '"' :: '"' :: '"' :: rest)) =
      some (List.replicate quotes '"' ++ cs, rest) := by
  induction cs generalizing quotes with
  | nil =>
      rw [writeBasicLines, List.nil_append, List.append_nil, basicLines_end hquotes hrest]
  | cons c cs ih =>
      by_cases hquote : c = '"'
      · subst hquote
        rw [writeBasicLines]
        split
        · next hfew =>
          have h := ih (Nat.succ_le_of_lt hfew)
          rw [List.replicate_succ'] at h
          simpa using h
        · next hmany =>
          -- A third quote in a row is escaped, and the count begins anew.
          have hread := ih (Nat.zero_le 2)
          rw [List.replicate_zero, List.nil_append, List.nil_append] at hread
          rw [List.cons_append, List.cons_append, basicLines_quotes hquotes (by simp),
            basicLines_escape rfl rfl, hread]
          rfl
      · have hread := ih (Nat.zero_le 2)
        rw [List.replicate_zero, List.nil_append, List.nil_append] at hread
        by_cases hbreak : c = '\n'
        · subst hbreak
          rw [writeBasicLines, List.cons_append, basicLines_quotes hquotes (by simp),
            basicLines_cons rfl (by simp) (by simp), hread]
          rfl
        · rw [writeBasicLines, List.append_assoc,
            basicLines_quotes hquotes (head?_writeChar hquote _),
            basicLines_writeChar hquote, hread]
          · rfl
          · exact hquote
          · exact hbreak

end BasicLines

section Literal

theorem le_longestRun (c : Char) (before : Nat) (cs : List Char) :
    before ≤ longestRun c before cs := by
  induction cs generalizing before with
  | nil => exact Nat.le_refl _
  | cons x cs ih =>
      rw [longestRun]
      split
      · exact Nat.le_trans (Nat.le_succ before) (ih (before + 1))
      · exact Nat.le_max_left _ _

theorem not_mem_of_longestRun {c : Char} {cs : List Char} (h : longestRun c 0 cs = 0) : c ∉ cs := by
  induction cs with
  | nil => exact List.not_mem_nil
  | cons x cs ih =>
      rw [longestRun] at h
      split at h
      · have hle := le_longestRun c (0 + 1) cs
        omega
      · next hx =>
        rw [List.mem_cons, not_or]
        exact ⟨Ne.symm hx, ih (by omega)⟩

theorem literalContent_append {cs : List Char} (hplain : ∀ c ∈ cs, isPlain c = true)
    (hquote : '\'' ∉ cs) (rest : List Char) :
    literalContent (cs ++ '\'' :: rest) = some (cs, rest) := by
  induction cs with
  | nil => rfl
  | cons c cs ih =>
      rw [List.forall_mem_cons] at hplain
      rw [List.mem_cons, not_or] at hquote
      rw [List.cons_append, literalContent]
      · rw [if_pos hplain.1, ih hplain.2 hquote.2]
        rfl
      · exact Ne.symm hquote.1

theorem literalLines_cons {c : Char} {input : List Char} (hplain : (c == '\n' || isPlain c) = true)
    (hend : ∀ rest, c = '\'' → input ≠ '\'' :: '\'' :: rest) :
    literalLines (c :: input) =
      (literalLines input).map fun (content, rest) => (c :: content, rest) := by
  rw [literalLines]
  · rw [if_pos hplain]
  · exact fun rest hc hinput => hend ('\'' :: '\'' :: rest) hc hinput
  · exact fun rest hc hinput => hend ('\'' :: rest) hc hinput
  · exact hend
  · rintro _ rfl _
    exact absurd hplain (by decide)

theorem literalLines_quotes {quotes : Nat} (hquotes : quotes ≤ 2) {input : List Char}
    (hinput : input.head? ≠ some '\'') :
    literalLines (List.replicate quotes '\'' ++ input) =
      (literalLines input).map
        fun (content, rest) => (List.replicate quotes '\'' ++ content, rest) := by
  refine read_quotes ?_ hquotes hinput
  intro input hend
  exact literalLines_cons (by decide) fun rest _ => hend rest

theorem literalLines_end {quotes : Nat} (hquotes : quotes ≤ 2) {rest : List Char}
    (hrest : rest.head? ≠ some '\'') :
    literalLines (List.replicate quotes '\'' ++ '\'' :: '\'' :: '\'' :: rest) =
      some (List.replicate quotes '\'', rest) := by
  match quotes, hquotes with
  | 0, _ =>
      show literalLines ('\'' :: '\'' :: '\'' :: rest) = _
      rw [literalLines]
      · rfl
      · rintro _ rfl
        exact hrest rfl
      · rintro _ rfl
        exact hrest rfl
  | 1, _ =>
      show literalLines ('\'' :: '\'' :: '\'' :: '\'' :: rest) = _
      rw [literalLines]
      · rfl
      · rintro _ rfl
        exact hrest rfl
  | 2, _ =>
      show literalLines ('\'' :: '\'' :: '\'' :: '\'' :: '\'' :: rest) = _
      rw [literalLines]
      rfl

/-- Runs of at most two single quotes do not end the content. -/
theorem literalLines_append {quotes : Nat} {cs : List Char}
    (hplain : ∀ c ∈ cs, (c == '\n' || isPlain c) = true) (hruns : longestRun '\'' quotes cs ≤ 2)
    {rest : List Char} (hrest : rest.head? ≠ some '\'') :
    literalLines (List.replicate quotes '\'' ++ (cs ++ '\'' :: '\'' :: '\'' :: rest)) =
      some (List.replicate quotes '\'' ++ cs, rest) := by
  induction cs generalizing quotes with
  | nil =>
      rw [longestRun] at hruns
      rw [List.nil_append, List.append_nil, literalLines_end hruns hrest]
  | cons c cs ih =>
      have hquotes : quotes ≤ 2 := Nat.le_trans (le_longestRun _ _ _) hruns
      rw [List.forall_mem_cons] at hplain
      rw [longestRun] at hruns
      split at hruns
      · next hquote =>
        have h := ih hplain.2 hruns
        rw [List.replicate_succ'] at h
        rw [hquote]
        simpa using h
      · next hquote =>
        have hread := @ih 0 hplain.2 (by omega)
        rw [List.replicate_zero, List.nil_append, List.nil_append] at hread
        rw [List.cons_append, literalLines_quotes hquotes (by simpa using hquote),
          literalLines_cons hplain.1 (fun _ hc => absurd hc hquote), hread]
        rfl

end Literal

section Forms

/-- A line break right after the opening quotes is there to be skipped, and only then. -/
theorem skipLineBreak_openingBreak (cs : List Char) {input : List Char}
    (hbreak : '\n' ∉ cs → input.head? ≠ some '\n') (hreturn : input.head? ≠ some '\r') :
    skipLineBreak (openingBreak cs ++ input) = input := by
  rw [openingBreak]
  split
  · rfl
  · next hnone =>
    rw [List.nil_append]
    unfold skipLineBreak
    split
    · exact absurd rfl (hbreak (by simpa using hnone))
    · exact absurd rfl hreturn
    · rfl

theorem isPlain_of_any_isControl {cs : List Char} (h : cs.any isControl = false) :
    ∀ c ∈ cs, (c == '\n' || isPlain c) = true := by
  intro c hc
  rw [List.any_eq_false] at h
  by_cases hbreak : c = '\n'
  · rw [hbreak]
    rfl
  · rw [isPlain_of_not_isControl (by simpa using h c hc) hbreak, Bool.or_true]

theorem TextForm.of_eq_literal {cs : List Char} (h : TextForm.of cs = .literal) :
    (∀ c ∈ cs, isPlain c = true) ∧ '\'' ∉ cs := by
  simp only [TextForm.of] at h
  repeat' split at h
  case isFalse.isTrue hliteral =>
    simp only [Bool.and_eq_true, Bool.not_eq_true', decide_eq_true_eq] at hliteral
    obtain ⟨⟨hcontrols, hsingles⟩, hbreaks⟩ := hliteral
    refine ⟨?_, not_mem_of_longestRun hsingles⟩
    intro c hc
    have hne : (c == '\n') = false := by
      rw [beq_eq_false_iff_ne]
      rintro rfl
      simp [hc] at hbreaks
    simpa [hne] using isPlain_of_any_isControl hcontrols c hc
  all_goals cases h

theorem TextForm.of_eq_literalLines {cs : List Char} (h : TextForm.of cs = .literalLines) :
    (∀ c ∈ cs, (c == '\n' || isPlain c) = true) ∧ longestRun '\'' 0 cs ≤ 2 := by
  simp only [TextForm.of] at h
  repeat' split at h
  case isFalse.isFalse.isFalse.isTrue hliteral =>
    simp only [Bool.and_eq_true, Bool.not_eq_true', decide_eq_true_eq] at hliteral
    exact ⟨isPlain_of_any_isControl hliteral.1, hliteral.2⟩
  all_goals cases h

theorem head?_writeBasic_cons (c : Char) (cs input : List Char) :
    (writeBasic (c :: cs) ++ input).head? ≠ some '"' := by
  rw [writeBasic_cons, List.append_assoc]
  split
  · simp
  · next hquote => exact head?_writeChar hquote _

theorem string?_basic (cs : List Char) {rest : List Char} (hrest : rest.head? ≠ some '"') :
    string? ('"' :: (writeBasic cs ++ '"' :: rest)) = some (cs, rest) := by
  rw [string?, basicContent_writeBasic]
  intro r hr
  cases cs with
  | nil =>
      rw [writeBasic, List.flatMap_nil, List.nil_append, List.cons.injEq] at hr
      rw [hr.2] at hrest
      exact hrest rfl
  | cons c cs =>
      have hhead := head?_writeBasic_cons c cs ('"' :: rest)
      rw [hr] at hhead
      exact hhead rfl

theorem string?_literal {cs : List Char} (hplain : ∀ c ∈ cs, isPlain c = true)
    (hquote : '\'' ∉ cs) {rest : List Char} (hrest : rest.head? ≠ some '\'') :
    string? ('\'' :: (cs ++ '\'' :: rest)) = some (cs, rest) := by
  rw [string?, literalContent_append hplain hquote]
  intro r hr
  cases cs with
  | nil =>
      rw [List.nil_append, List.cons.injEq] at hr
      rw [hr.2] at hrest
      exact hrest rfl
  | cons c cs =>
      rw [List.cons_append, List.cons.injEq] at hr
      exact hquote (hr.1 ▸ List.mem_cons_self ..)

/-- A written character is no line break, and it begins with none. -/
theorem head?_writeChar_ne_break (c : Char) (input : List Char) :
    (writeChar c ++ input).head? ≠ some '\n' ∧ (writeChar c ++ input).head? ≠ some '\r' := by
  rcases writeChar_cases c with ⟨hwritten, hplain, _, hbreak⟩ | ⟨escaped, hwritten, _⟩
  · have hreturn : c ≠ '\r' := by
      rintro rfl
      exact absurd hplain (by decide)
    rw [hwritten]
    simp [hbreak, hreturn]
  · rw [hwritten]
    simp

theorem head?_writeBasicLines (cs input : List Char) :
    ('\n' ∉ cs → (writeBasicLines 0 cs ++ '"' :: input).head? ≠ some '\n') ∧
      (writeBasicLines 0 cs ++ '"' :: input).head? ≠ some '\r' := by
  unfold writeBasicLines
  split
  · simp
  · simp
  · simp
  · next c rest hquote hbreak =>
    rw [List.append_assoc]
    exact ⟨fun _ => (head?_writeChar_ne_break c _).1, (head?_writeChar_ne_break c _).2⟩

theorem string?_basicLines (cs : List Char) {rest : List Char} (hrest : rest.head? ≠ some '"') :
    string? ('"' :: '"' :: '"' ::
      (openingBreak cs ++ (writeBasicLines 0 cs ++ '"' :: '"' :: '"' :: rest))) =
        some (cs, rest) := by
  obtain ⟨hbreak, hreturn⟩ := head?_writeBasicLines cs ('"' :: '"' :: rest)
  rw [string?, skipLineBreak_openingBreak cs hbreak hreturn]
  exact basicLines_writeBasicLines (Nat.zero_le 2) cs hrest

theorem string?_literalLines {cs : List Char} (hplain : ∀ c ∈ cs, (c == '\n' || isPlain c) = true)
    (hruns : longestRun '\'' 0 cs ≤ 2) {rest : List Char} (hrest : rest.head? ≠ some '\'') :
    string? ('\'' :: '\'' :: '\'' :: (openingBreak cs ++ (cs ++ '\'' :: '\'' :: '\'' :: rest))) =
      some (cs, rest) := by
  rw [string?, skipLineBreak_openingBreak cs]
  · exact @literalLines_append 0 cs hplain hruns rest hrest
  · intro hbreak
    cases cs with
    | nil => simp
    | cons c cs =>
        rw [List.mem_cons, not_or] at hbreak
        simpa using Ne.symm hbreak.1
  · cases cs with
    | nil => simp
    | cons c cs =>
        rw [List.forall_mem_cons] at hplain
        simp only [List.cons_append, List.head?_cons, ne_eq, Option.some.injEq]
        rintro rfl
        exact absurd hplain.1 (by decide)

/-- Every text is read back as it was written. -/
theorem string?_writeText (s : String) {rest : List Char} (hdouble : rest.head? ≠ some '"')
    (hsingle : rest.head? ≠ some '\'') :
    string? (writeText s ++ rest) = some (s.toList, rest) := by
  simp only [writeText]
  cases hform : TextForm.of s.toList with
  | basic => simpa using string?_basic s.toList hdouble
  | literal =>
      obtain ⟨hplain, hquote⟩ := TextForm.of_eq_literal hform
      simpa using string?_literal hplain hquote hsingle
  | basicLines => simpa using string?_basicLines s.toList hdouble
  | literalLines =>
      obtain ⟨hplain, hruns⟩ := TextForm.of_eq_literalLines hform
      simpa using string?_literalLines hplain hruns hsingle

end Forms
end AccessLedger.Toml
