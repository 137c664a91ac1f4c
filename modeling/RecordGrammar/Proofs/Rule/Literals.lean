import RecordGrammar.Proofs.Rule.Spelling
import RecordGrammar.Proofs.Scanner.Partition

namespace RecordGrammar

open RecordGrammar.Text

/-! Literals of rules and strings of program text are read alike.

So a literal can be copied from the text that it is to match. The one difference is a line break
without a backslash in front of it: a literal may hold it, and a string breaks off there. -/

/-- A line ends before the quote that would close a text. A backslash goes with the character behind
it, whatever that is. -/
def BreaksOff (mark : Char) (body : List Char) : Prop :=
  ∃ (strokes : List Stroke) (c : Char) (rest : List Char),
    body = strokes.flatMap Stroke.text ++ c :: rest ∧ (∀ stroke ∈ strokes, stroke.Fits mark) ∧
    (c = '\r' ∨ c = '\n')

/-- What is made of one text, as the rule of a field and as program text: a literal and a string, of
the same characters and up to the same offset, from which reading goes on; or complaints in both
that the quote at the front is not closed. -/
inductive ReadsAlike (field : Field) (ordinal : Nat) (mark : Char) (body : List Char) :
    Except RuleError (List RuleToken) → Except ScanError Token × Reader → Prop
  | closed {letters : List Char} {width : Nat} {after : Reader}
      (read : RuleToken.literalText? mark body = some (letters, width)) (left : after.left = 0)
      (right : after.right = (width + 1 : Nat)) :
      ReadsAlike field ordinal mark body
        ((RuleToken.lexFrom field ordinal body.length (width + 1) (body.drop width)).map
          ({ text := String.ofList letters, kind := .literal, offset := 0, field, ordinal } :: ·))
        (.ok { kind := some .string, text := .ofChars letters, position := .start }, after)
  | unclosed {after : Reader} (unread : RuleToken.literalText? mark body = none) :
      ReadsAlike field ordinal mark body
        (.error { problem := .missingQuote mark, rule := field.rule, field := field.name,
                  offset := some 0 })
        (.error (.blocked { position := .start, condition := "string" }), after)

variable {mark : Char} {body : List Char}

section Reading

open RuleToken Lexemes

theorem BreaksOff.unclosed (broken : BreaksOff mark body) : Unclosed mark body := by
  obtain ⟨strokes, c, rest, split, fits, ends⟩ := broken
  exact ⟨strokes, c :: rest, split, fits, .inr (.inr ⟨c, rest, rfl, ends⟩)⟩

theorem literalText?_stroke (quotes : mark = '\'' ∨ mark = '"') {stroke : Stroke}
    (fits : stroke.Fits mark) (rest : List Char) : literalText? mark (stroke.text ++ rest) =
      (literalText? mark rest).map fun part =>
        (stroke.char :: part.1, part.2 + stroke.text.length) := by
  obtain ⟨escaped, c⟩ := stroke
  cases escaped with
  | true => exact literalText?_escaped (ne_of_quote quotes (by decide))
  | false =>
      have alone : c ∉ ['\\', mark, '\r', '\n'] := fits rfl
      simp only [List.mem_cons, List.not_mem_nil, or_false, not_or] at alone
      exact literalText?_plain alone.2.1 alone.1

theorem literalText?_strokes (quotes : mark = '\'' ∨ mark = '"') {strokes : List Stroke}
    (fits : ∀ stroke ∈ strokes, stroke.Fits mark) (rest : List Char) :
    literalText? mark (strokes.flatMap Stroke.text ++ rest) =
      (literalText? mark rest).map fun part =>
        (strokes.map Stroke.char ++ part.1, part.2 + (strokes.flatMap Stroke.text).length) :=
  Stroke.read_strokes (fun _ fits => literalText?_stroke quotes fits) fits rest

/-- Where no line ends, what is read of a literal is what is read of a string. -/
theorem literalText?_eq_stringContent? (quotes : mark = '\'' ∨ mark = '"')
    (unbroken : ¬ BreaksOff mark body) :
    literalText? mark body = stringContent? mark body := by
  have slash : mark ≠ '\\' := ne_of_quote quotes (by decide)
  -- Both read the same strokes. So it is enough to see what comes behind them.
  rcases exists_strokes mark body with
    ⟨strokes, tail, split, fits, ended⟩ | ⟨strokes, rest, split, fits⟩
  · rw [split, literalText?_strokes quotes fits, stringContent?_strokes quotes fits]
    rcases ended with none | alone | ⟨c, rest, whole, ends⟩
    · subst none
      rfl
    · subst alone
      simp [literalText?, stringContent?, slash.symm]
    · exact absurd ⟨strokes, c, rest, whole ▸ split, fits, ends⟩ unbroken
  · have closed : literalText? mark (mark :: rest) = some ([], 1) := by simp [literalText?.eq_def]
    rw [split, stringContent?_text quotes fits, literalText?_strokes quotes fits, closed,
      Option.map_some, List.append_nil, Nat.add_comm]

end Reading

section Calls

variable {field : Field} {ordinal : Nat} {lexemes : Lexemes}

theorem RuleToken.lex_quote (quotes : mark = '\'' ∨ mark = '"')
    (written : field.rule.toList = mark :: body) :
    lex field ordinal = match literalText? mark body with
      | some (letters, width) =>
          (lexFrom field ordinal body.length (width + 1) (body.drop width)).map
            ({ text := String.ofList letters, kind := .literal, offset := 0, field, ordinal } :: ·)
      | none =>
          .error { problem := .missingQuote mark, rule := field.rule, field := field.name,
                   offset := some 0 } := by
  rw [lex, written, List.length_cons, lexFrom_quote quotes]
  cases literalText? mark body with
  | none => rfl
  | some part => simp only [Nat.zero_add]

theorem Lexemes.next_quote (quotes : mark = '\'' ∨ mark = '"') (plain : mark ∉ lexemes.operators) :
    lexemes.next (.start (mark :: body)) = match stringContent? mark body with
      | some (content, width) =>
          (.ok { kind := some .string, text := .ofChars content, position := .start },
            (Reader.start (mark :: body)).skip (width + 1))
      | none =>
          (.error (.blocked { position := .start, condition := "string" }),
            .start (mark :: body)) := by
  have none : (mark :: body).takeWhile isBlank = [] := by simp [not_isBlank_of_quote quotes]
  have more : (Reader.start (mark :: body)).hasMore = true := rfl
  have upcoming : (Reader.start (mark :: body)).upcoming? = some (mark :: body) := rfl
  simp only [Lexemes.next, more, upcoming, none, recognize_quote quotes plain, Bool.not_true,
    Bool.false_eq_true, if_false, if_true, List.length_nil, beq_self_eq_true, List.drop_zero]
  cases stringContent? mark body with
  | none => rfl
  | some part => rfl

/-- A text that begins with a quote is read alike by a rule and by a scanner, unless its line ends
before the quote is closed: then the scanner is stuck at the quote. -/
theorem lex_next_alike (field : Field) (ordinal : Nat) (lexemes : Lexemes)
    (quotes : mark = '\'' ∨ mark = '"') (written : field.rule.toList = mark :: body)
    (plain : mark ∉ lexemes.operators) :
    (¬ BreaksOff mark body →
      ReadsAlike field ordinal mark body (RuleToken.lex field ordinal)
        (lexemes.next (.start field.rule.toList))) ∧
    (BreaksOff mark body → ∃ after, lexemes.next (.start field.rule.toList) =
      (.error (.blocked { position := .start, condition := "string" }), after)) := by
  rw [RuleToken.lex_quote quotes written, written, Lexemes.next_quote quotes plain]
  constructor
  · intro unbroken
    rw [← literalText?_eq_stringContent? quotes unbroken]
    cases read : RuleToken.literalText? mark body with
    | none => exact .unclosed read
    | some part => exact .closed read rfl (Int.zero_add _)
  · intro broken
    rw [Lexemes.stringContent?_of_unclosed quotes broken.unclosed]
    exact ⟨_, rfl⟩

/-- A quote behind a backslash closes neither, and neither does the other quote. A line break behind
a backslash does no harm, and the next one does. -/
theorem escaped_quote_alike :
    let body := "it\\'s \"\\\\' @x".toList
    let broken := "a\\\n\n'".toList
    let field : Field := { name := "said", rule := "'it\\'s \"\\\\' @x" }
    let other : Field := { name := "said", rule := "'a\\\n\n'" }
    '\'' ∉ Lexemes.standard.operators ∧
      (field.rule.toList = '\'' :: body ∧ ¬ BreaksOff '\'' body ∧ ReadsAlike field 0 '\'' body
        (RuleToken.lex field 0) (Lexemes.standard.next (.start field.rule.toList))) ∧
      (other.rule.toList = '\'' :: broken ∧ BreaksOff '\'' broken ∧
        ∃ after, Lexemes.standard.next (.start other.rule.toList) =
          (.error (.blocked { position := .start, condition := "string" }), after)) := by
  intro body broken field other
  have plain : '\'' ∉ Lexemes.standard.operators := by decide +kernel
  have written : field.rule.toList = '\'' :: body := by decide
  have writtenToo : other.rule.toList = '\'' :: broken := by decide
  have unbroken : ¬ BreaksOff '\'' body := fun broken =>
    absurd (Lexemes.stringContent?_of_unclosed (.inl rfl) broken.unclosed) (by decide)
  have breaks : BreaksOff '\'' broken :=
    ⟨[⟨false, 'a'⟩, ⟨true, '\n'⟩], '\n', ['\''], by decide, by decide, .inr rfl⟩
  exact ⟨plain,
    ⟨written, unbroken, (lex_next_alike field 0 .standard (.inl rfl) written plain).1 unbroken⟩,
    ⟨writtenToo, breaks, (lex_next_alike other 0 .standard (.inl rfl) writtenToo plain).2 breaks⟩⟩

end Calls

end RecordGrammar
