import RecordGrammar.Proofs.Rule.Spelling

namespace RecordGrammar

open RecordGrammar.Text RuleWord

/-! The tokens of a rule are those that it is written with, and a rule that is not written with
tokens is complained about at the first place where none can be read. -/

namespace RuleToken

/-- A stretch of a rule that begins at an offset, cut into the words of its tokens and white space.
Every token stands at the offset where its word begins. -/
inductive LaidOut (field : Field) (ordinal : Nat) : Nat → List Char → List RuleToken → Prop
  | nil {offset : Nat} : LaidOut field ordinal offset [] []
  | blank {offset : Nat} {c : Char} (skipped : isBlank c = true)
      (rest : LaidOut field ordinal (offset + 1) chars tokens) :
      LaidOut field ordinal offset (c :: chars) tokens
  | word {offset : Nat} {word : RuleWord} {spelling : List Char} (spelled : Spells word spelling)
      (ends : word.EndsBefore chars)
      (rest : LaidOut field ordinal (offset + spelling.length) chars tokens) :
      LaidOut field ordinal offset (spelling ++ chars) (word.token field ordinal offset :: tokens)

/-- Why no token can be read where the given characters begin, and what is said about it. -/
inductive Stuck : List Char → String → Prop
  | foreign (solid : isBlank c = false)
      (foreign : ∀ word spelling, Spells word spelling → spelling.head? ≠ some c) :
      Stuck (c :: rest) ("Invalid character " ++ quote (String.ofList [c]))
  | unclosed (quotes : c = '\'' ∨ c = '"')
      (unclosed : ∀ letters body after, Escapes c letters body → rest ≠ body ++ c :: after) :
      Stuck (c :: rest) ("Missing closing quote " ++ String.ofList [c])

/-- What stands at the front of a rest: white space, a word, or nothing that can be read. -/
inductive Front : List Char → Prop
  | blank (skipped : isBlank c = true) : Front (c :: rest)
  | word {word : RuleWord} {spelling : List Char} (spelled : Spells word spelling)
      (ends : word.EndsBefore rest) :
      Front (spelling ++ rest)
  | stuck (stuck : Stuck chars message) : Front chars

/-- What is to be read from an offset on: all the tokens, or those in front of a place where none
can be read. -/
inductive Reads (field : Field) (ordinal offset : Nat) (chars : List Char) :
    Except RuleError (List RuleToken) → Prop
  | tokens (laid : LaidOut field ordinal offset chars tokens) :
      Reads field ordinal offset chars (.ok tokens)
  | stuck {problem : RuleProblem} (split : chars = before ++ after)
      (laid : LaidOut field ordinal offset before tokens) (stuck : Stuck after problem.message) :
      Reads field ordinal offset chars
        (.error { problem, rule := field.rule, field := field.name,
                  offset := some (offset + before.length : Nat) })

variable {field : Field} {ordinal offset fuel : Nat} {c : Char} {chars rest spelling : List Char}
  {word : RuleWord} {tokens : List RuleToken} {result : Except RuleError (List RuleToken)}

namespace LaidOut

theorem lexFrom (laid : LaidOut field ordinal offset chars tokens) (enough : chars.length ≤ fuel) :
    RuleToken.lexFrom field ordinal fuel offset chars = .ok tokens := by
  induction laid generalizing fuel with
  | nil => cases fuel <;> rfl
  | blank skipped rest ih =>
      cases fuel with
      | zero => cases enough
      | succ fuel =>
          rw [lexFrom_blank skipped]
          exact ih (Nat.le_of_succ_le_succ enough)
  | word spelled ends rest ih =>
      have width := spelled.length_pos
      rw [List.length_append] at enough
      cases fuel with
      | zero => omega
      | succ fuel =>
          rw [lexFrom_word spelled ends, ih (by omega)]
          rfl

theorem stands (laid : LaidOut field ordinal offset chars tokens) : ∀ token ∈ tokens,
    offset ≤ token.offset ∧ token.field = field ∧
      ∃ spelling, Spells token.word spelling ∧ spelling <+: chars.drop (token.offset - offset) := by
  induction laid with
  | nil => exact List.forall_mem_nil _
  | @blank chars tokens offset c skipped rest ih =>
      intro token member
      obtain ⟨behind, owned, spelling, spelled, begins⟩ := ih token member
      have place : token.offset - offset = token.offset - (offset + 1) + 1 := by omega
      exact ⟨by omega, owned, spelling, spelled, by rwa [place, List.drop_succ_cons]⟩
  | @word chars tokens offset word spelling spelled ends rest ih =>
      intro token member
      rcases List.mem_cons.mp member with same | later
      · subst same
        refine ⟨Nat.le_refl _, rfl, spelling, spelled, ?_⟩
        rw [RuleWord.token, Nat.sub_self]
        exact List.prefix_append _ _
      · obtain ⟨behind, owned, other, spelledToo, begins⟩ := ih token later
        have place : token.offset - offset =
            spelling.length + (token.offset - (offset + spelling.length)) := by omega
        exact ⟨by omega, owned, other, spelledToo, by rwa [place, List.drop_length_add_append]⟩

theorem increasing (laid : LaidOut field ordinal offset chars tokens) :
    tokens.Pairwise fun earlier later => earlier.offset < later.offset := by
  induction laid with
  | nil => exact .nil
  | blank skipped rest ih => exact ih
  | word spelled ends rest ih =>
      refine .cons (fun later member => ?_) ih
      have behind := (rest.stands later member).1
      have width := spelled.length_pos
      change _ < _
      dsimp only [RuleWord.token]
      omega

end LaidOut

/-- A literal that is read ends with the first quote that no backslash stands before. -/
theorem exists_escapes {delimiter : Char} {letters : List Char} {width : Nat}
    (read : literalText? delimiter rest = some (letters, width)) :
    ∃ body after, Escapes delimiter letters body ∧ rest = body ++ delimiter :: after := by
  fun_induction literalText? delimiter rest generalizing letters width with
  | case1 => cases read
  | case2 c rest closing =>
      cases read
      exact ⟨[], rest, .nil, by rw [beq_iff_eq.mp closing]; rfl⟩
  | case3 c other escape => cases read
  | case4 c other escape escaped after ih =>
      obtain ⟨⟨letters, width⟩, found, same⟩ := Option.map_eq_some_iff.mp read
      cases same
      obtain ⟨body, further, escapes, split⟩ := ih found
      refine ⟨'\\' :: escaped :: body, further, .escaped escapes, ?_⟩
      rw [split, beq_iff_eq.mp escape]
      rfl
  | case5 c rest inside unescaped ih =>
      obtain ⟨⟨letters, width⟩, found, same⟩ := Option.map_eq_some_iff.mp read
      cases same
      obtain ⟨body, further, escapes, split⟩ := ih found
      refine ⟨c :: body, further,
        .plain (by simpa using inside) (by simpa using unescaped) escapes, ?_⟩
      rw [split]
      rfl

/-- The characters that words begin with. -/
theorem head_of_spells (spelled : Spells word spelling) (front : spelling.head? = some c) :
    c = '|' ∨ c ∈ marks ∨ (c = '\'' ∨ c = '"') ∨ startsPlainWord c = true := by
  cases spelled with
  | bar =>
      cases front
      exact .inl rfl
  | mark member =>
      cases front
      exact .inr (.inl member)
  | literal quotes escapes =>
      cases front
      exact .inr (.inr (.inl quotes))
  | name starts continues =>
      cases front
      exact .inr (.inr (.inr starts))

/-- A quote opens a literal, or it is never closed. -/
theorem front_of_quote (quotes : c = '\'' ∨ c = '"') (rest : List Char) : Front (c :: rest) := by
  by_cases closed : ∃ letters body after, Escapes c letters body ∧ rest = body ++ c :: after
  · obtain ⟨letters, body, after, escapes, split⟩ := closed
    have whole : c :: rest = c :: (body ++ [c]) ++ after := by simp [split]
    rw [whole]
    exact .word (.literal quotes escapes) nofun
  · exact .stuck (.unclosed quotes fun letters body after escapes split =>
      closed ⟨letters, body, after, escapes, split⟩)

/-- A name takes all the characters that go on with it. -/
theorem front_of_name (starts : startsPlainWord c = true) (rest : List Char) :
    Front (c :: rest) := by
  have spelled : Spells (.name (String.ofList (c :: rest.takeWhile continuesPlainWord)))
      (c :: rest.takeWhile continuesPlainWord) :=
    .name starts fun part member => List.all_eq_true.mp List.all_takeWhile part member
  have whole :
      c :: rest = c :: rest.takeWhile continuesPlainWord ++ rest.dropWhile continuesPlainWord := by
    rw [List.cons_append, List.takeWhile_append_dropWhile]
  rw [whole]
  refine .word spelled fun _ next front => ?_
  have stops := List.head?_dropWhile_not continuesPlainWord rest
  rw [front] at stops
  simpa using stops

theorem front (c : Char) (rest : List Char) : Front (c :: rest) := by
  by_cases skipped : isBlank c = true
  · exact .blank skipped
  by_cases bar : c = '|'
  · subst bar
    exact @Front.word rest _ _ .bar nofun
  by_cases mark : c ∈ marks
  · exact @Front.word rest _ _ (.mark mark) nofun
  by_cases quotes : c = '\'' ∨ c = '"'
  · exact front_of_quote quotes rest
  by_cases starts : startsPlainWord c = true
  · exact front_of_name starts rest
  · refine .stuck (.foreign (by simpa using skipped) fun word spelling spelled front => ?_)
    rcases head_of_spells spelled front with same | member | quote | letter
    · exact bar same
    · exact mark member
    · exact quotes quote
    · exact starts letter

/-- Where nothing can be read, a complaint is made that says so. -/
theorem lexFrom_stuck (field : Field) (ordinal fuel offset : Nat) {message : String}
    (stuck : Stuck chars message) :
    ∃ problem : RuleProblem, problem.message = message ∧
      RuleToken.lexFrom field ordinal (fuel + 1) offset chars =
        .error { problem, rule := field.rule, field := field.name, offset := some offset } := by
  cases stuck with
  | @foreign c rest solid foreign =>
      have bar : (c == '|') = false := by
        rw [beq_eq_false_iff_ne]
        intro same
        subst same
        exact foreign _ _ .bar rfl
      have mark : marks.contains c = false := by
        rw [List.contains_eq_mem, decide_eq_false_iff_not]
        exact fun member => foreign _ _ (.mark member) rfl
      have quotes : (c == '\'' || c == '"') = false := by
        rw [← Bool.not_eq_true, Bool.or_eq_true, beq_iff_eq, beq_iff_eq]
        exact fun quotes => foreign _ _ (.literal quotes .nil) rfl
      have starts : startsPlainWord c = false := by
        rw [← Bool.not_eq_true]
        exact fun starts => foreign _ [c] (.name starts (by simp)) rfl
      refine ⟨.invalidCharacter c, rfl, ?_⟩
      simp only [RuleToken.lexFrom, solid, bar, mark, quotes, starts, Bool.false_eq_true, if_false]
  | @unclosed c rest quotes unclosed =>
      have none : literalText? c rest = none := by
        cases read : literalText? c rest with
        | none => rfl
        | some part =>
            obtain ⟨body, after, escapes, split⟩ := exists_escapes read
            exact absurd split (unclosed _ _ _ escapes)
      exact ⟨.missingQuote c, rfl, by rw [lexFrom_quote quotes, none]⟩

namespace Reads

theorem skip (skipped : isBlank c = true) (reads : Reads field ordinal (offset + 1) chars result) :
    Reads field ordinal offset (c :: chars) result := by
  cases reads with
  | tokens laid => exact .tokens (.blank skipped laid)
  | @stuck before after tokens problem split laid stuck =>
      have place : offset + 1 + before.length = offset + (c :: before).length := by
        rw [List.length_cons]
        omega
      rw [place, split]
      exact .stuck rfl (.blank skipped laid) stuck

theorem prepend (spelled : Spells word spelling) (ends : word.EndsBefore chars)
    (reads : Reads field ordinal (offset + spelling.length) chars result) :
    Reads field ordinal offset (spelling ++ chars)
      (result.map (word.token field ordinal offset :: ·)) := by
  cases reads with
  | tokens laid => exact .tokens (.word spelled ends laid)
  | @stuck before after tokens problem split laid stuck =>
      have place :
          offset + spelling.length + before.length = offset + (spelling ++ before).length := by
        rw [List.length_append]
        omega
      have endsToo : word.EndsBefore before := by
        intro named next front
        refine ends named next ?_
        rw [split, List.head?_append, front]
        rfl
      rw [place, split, ← List.append_assoc]
      exact .stuck rfl (.word spelled endsToo laid) stuck

end Reads

/-- Word by word a rule is read to its end, or to the first place where nothing can be read. -/
theorem lexFrom_reads (enough : chars.length ≤ fuel) :
    Reads field ordinal offset chars (RuleToken.lexFrom field ordinal fuel offset chars) := by
  induction fuel generalizing offset chars with
  | zero =>
      have none : chars = [] := List.length_eq_zero_iff.mp (Nat.le_zero.mp enough)
      subst none
      exact .tokens .nil
  | succ fuel ih =>
      cases chars with
      | nil => exact .tokens .nil
      | cons c rest =>
          have front := front c rest
          generalize c :: rest = chars at front enough
          cases front with
          | blank skipped =>
              rw [lexFrom_blank skipped]
              exact (ih (Nat.le_of_succ_le_succ enough)).skip skipped
          | word spelled ends =>
              have width := spelled.length_pos
              rw [List.length_append] at enough
              rw [lexFrom_word spelled ends]
              exact (ih (by omega)).prepend spelled ends
          | stuck stuck =>
              obtain ⟨problem, said, complained⟩ := lexFrom_stuck field ordinal fuel offset stuck
              rw [complained]
              exact .stuck (List.nil_append _).symm .nil (said ▸ stuck)

theorem lex_reads (field : Field) (ordinal : Nat) :
    Reads field ordinal 0 field.rule.toList (lex field ordinal) :=
  lexFrom_reads (Nat.le_refl _)

/-- A rule is read just if it is written with words and white space, and its tokens are the words
that it is written with, from left to right, each at the offset where it stands. Otherwise the
complaint is about the first place where no word can be read, and in front of that place the rule is
written so. -/
theorem lex_decides_writing (field : Field) (ordinal : Nat) :
    (∀ tokens, lex field ordinal = .ok tokens ↔ LaidOut field ordinal 0 field.rule.toList tokens) ∧
    (∀ tokens, lex field ordinal = .ok tokens →
      tokens.Pairwise (fun earlier later => earlier.offset < later.offset) ∧
      ∀ token ∈ tokens, token.field = field ∧
        ∃ spelling, Spells token.word spelling ∧ spelling <+: field.rule.toList.drop token.offset) ∧
    (∀ error, lex field ordinal = .error error →
      error.rule = field.rule ∧ error.field = field.name ∧
      ∃ before after tokens, field.rule.toList = before ++ after ∧
      error.offset = some (before.length : Int) ∧
        LaidOut field ordinal 0 before tokens ∧ Stuck after error.problem.message) ∧
    ((∃ error, lex field ordinal = .error error) ↔
      ¬ ∃ tokens, LaidOut field ordinal 0 field.rule.toList tokens) := by
  have reads := lex_reads field ordinal
  have written {tokens : List RuleToken} (laid : LaidOut field ordinal 0 field.rule.toList tokens) :
      lex field ordinal = .ok tokens := laid.lexFrom (Nat.le_refl _)
  generalize lex field ordinal = result at reads written
  cases reads with
  | tokens laid =>
      refine ⟨fun tokens => ⟨?_, written⟩, ?_, nofun, ?_⟩
      · intro same
        cases same
        exact laid
      · intro tokens same
        cases same
        exact ⟨laid.increasing, fun token member => (laid.stands token member).2⟩
      · exact iff_of_false nofun (not_not_intro ⟨_, laid⟩)
  | stuck split laid stuck =>
      refine ⟨fun tokens => ⟨nofun, written⟩, nofun, ?_, ?_⟩
      · intro error same
        cases same
        exact ⟨rfl, rfl, _, _, _, split, by rw [Nat.zero_add], laid, stuck⟩
      · refine iff_of_true ⟨_, rfl⟩ ?_
        intro whole
        obtain ⟨tokens, laid⟩ := whole
        cases written laid

end RuleToken

end RecordGrammar
