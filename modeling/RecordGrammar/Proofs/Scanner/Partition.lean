import RecordGrammar.Proofs.Scanner.Calls
import RecordGrammar.Proofs.Scanner.Printing

namespace RecordGrammar

open RecordGrammar.Text

/-! The lexemes of program text partition it.

Every match lies inside the text and takes something, and nothing but white space lies between two
matches. The calls end with the end of the text, or in front of the first lexeme that is not
complete. -/

/-- White space fills a text from one offset to another. -/
structure Blank (text : List Char) (start stop : Nat) : Prop where
  ordered : start ≤ stop
  inside : stop ≤ text.length
  each : ∀ c ∈ slice text start stop, isBlank c = true

/-- The matches of some calls lie in a text from left to right, with nothing but white space before,
between and behind them. Except for a string, a token stands for the text of its match. -/
inductive Partition (text : List Char) : Nat → List Call → Nat → Prop
  | nil (blank : Blank text start stop) : Partition text start [] stop
  | cons {call : Call} {start left right stop : Nat} {calls : List Call}
      (blank : Blank text start left)
      (opens : call.after.left = left) (closes : call.after.right = right) (wide : left < right)
      (position : call.token.position = .behind (text.take left))
      (stands : call.token.kind ≠ some .string → call.token.text = .ofChars (slice text left right))
      (later : Partition text right calls stop) : Partition text start (call :: calls) stop

namespace Lexemes

/-- The end of the line or of the text comes before the quote that would close a string. A backslash
goes with the character behind it, whatever that is. -/
def Unclosed (mark : Char) (body : List Char) : Prop :=
  ∃ (strokes : List Stroke) (tail : List Char), body = strokes.flatMap Stroke.text ++ tail ∧
    (∀ stroke ∈ strokes, stroke.Fits mark) ∧
    (tail = [] ∨ tail = ['\\'] ∨ ∃ c rest, tail = c :: rest ∧ (c = '\r' ∨ c = '\n'))

/-- A quote that is no operator opens a string that is not closed. -/
def OpensString (lexemes : Lexemes) (ahead : List Char) : Prop :=
  ∃ mark body, ahead = mark :: body ∧ (mark = '\'' ∨ mark = '"') ∧ mark ∉ lexemes.operators ∧
    Unclosed mark body

/-- A comment in brackets is opened and not closed. -/
def OpensComment (ahead : List Char) : Prop :=
  ∃ body, ahead = '/' :: '*' :: body ∧ ¬ ['*', '/'] <:+: body

/-- No lexeme begins with the character that comes next. -/
def Foreign (lexemes : Lexemes) (ahead : List Char) : Prop :=
  ∃ c rest, ahead = c :: rest ∧ c ∉ lexemes.operators ∧ isPlainDigit c = false ∧
    startsPlainWord c = false ∧ c ≠ '\'' ∧ c ≠ '"' ∧
    (c = '/' → rest.head? ≠ some '/' ∧ rest.head? ≠ some '*')

/-- Why no lexeme is complete here, told by the condition that the scanner names. -/
inductive Stuck (lexemes : Lexemes) (ahead : List Char) : String → Prop
  | string (opens : lexemes.OpensString ahead) : Stuck lexemes ahead "string"
  | comment (opens : OpensComment ahead) : Stuck lexemes ahead "block comment"
  | foreign (foreign : lexemes.Foreign ahead) : Stuck lexemes ahead "INITIAL"

section Strings

variable {mark : Char} {body : List Char}

/-- Stroke by stroke a string leads to the quote that closes it, or to a place where it can no
longer be closed. -/
theorem exists_strokes (mark : Char) (body : List Char) :
    Unclosed mark body ∨ ∃ (strokes : List Stroke) (rest : List Char),
      body = strokes.flatMap Stroke.text ++ mark :: rest ∧
      ∀ stroke ∈ strokes, stroke.Fits mark := by
  induction length : body.length using Nat.strongRecOn generalizing body with
  | ind size ih =>
      have onward (stroke : Stroke) (rest : List Char) (whole : body = stroke.text ++ rest)
          (fits : stroke.Fits mark) (shorter : rest.length < size) :
          Unclosed mark body ∨ ∃ (strokes : List Stroke) (rest : List Char),
            body = strokes.flatMap Stroke.text ++ mark :: rest ∧
            ∀ stroke ∈ strokes, stroke.Fits mark := by
        subst whole
        rcases ih rest.length shorter rest rfl with
          ⟨strokes, tail, split, each, ended⟩ | ⟨strokes, tail, split, each⟩
        · refine .inl ⟨stroke :: strokes, tail, ?_, List.forall_mem_cons.mpr ⟨fits, each⟩, ended⟩
          rw [List.flatMap_cons, List.append_assoc, split]
        · refine .inr ⟨stroke :: strokes, tail, ?_, List.forall_mem_cons.mpr ⟨fits, each⟩⟩
          rw [List.flatMap_cons, List.append_assoc, split]
      cases body with
      | nil => exact .inl ⟨[], [], rfl, by simp, .inl rfl⟩
      | cons c rest =>
          simp only [List.length_cons] at length
          by_cases closing : c = mark
          · subst closing
            exact .inr ⟨[], rest, rfl, by simp⟩
          · by_cases broken : c = '\r' ∨ c = '\n'
            · exact .inl ⟨[], c :: rest, rfl, by simp, .inr (.inr ⟨c, rest, rfl, broken⟩)⟩
            · by_cases slash : c = '\\'
              · subst slash
                cases rest with
                | nil => exact .inl ⟨[], ['\\'], rfl, by simp, .inr (.inl rfl)⟩
                | cons next rest =>
                    simp only [List.length_cons] at length
                    exact onward ⟨true, next⟩ rest rfl nofun (by omega)
              · refine onward ⟨false, c⟩ rest rfl (fun _ => ?_) (by omega)
                simpa [slash, closing] using broken

theorem stringContent?_of_unclosed (quote : mark = '\'' ∨ mark = '"')
    (unclosed : Unclosed mark body) :
    stringContent? mark body = none := by
  obtain ⟨strokes, tail, split, fits, ended⟩ := unclosed
  have plain : mark ≠ '\n' ∧ mark ≠ '\r' ∧ mark ≠ '\\' :=
    ⟨ne_of_quote quote (by decide), ne_of_quote quote (by decide), ne_of_quote quote (by decide)⟩
  subst split
  rw [stringContent?_strokes quote fits, Option.map_eq_none_iff]
  rcases ended with none | slash | ⟨c, rest, whole, broken⟩
  · subst none
    rfl
  · subst slash
    simp [stringContent?, plain.2.2.symm]
  · subst whole
    have other : c ≠ mark := by
      intro same
      subst same
      rcases broken with line | feed
      · exact plain.2.1 line
      · exact plain.1 feed
    cases rest with
    | nil => simp [stringContent?, other]
    | cons next rest => simp [stringContent?, broken.symm]

theorem stringContent?_eq_none_iff (quote : mark = '\'' ∨ mark = '"') :
    stringContent? mark body = none ↔ Unclosed mark body := by
  constructor
  · intro none
    rcases exists_strokes mark body with unclosed | ⟨strokes, rest, split, fits⟩
    · exact unclosed
    · rw [split, stringContent?_text quote fits] at none
      cases none
  · exact stringContent?_of_unclosed quote

theorem stringContent?_width (quote : mark = '\'' ∨ mark = '"') {content : List Char} {width : Nat}
    (closed : stringContent? mark body = some (content, width)) : width ≤ body.length := by
  rcases exists_strokes mark body with unclosed | ⟨strokes, rest, split, fits⟩
  · rw [stringContent?_of_unclosed quote unclosed] at closed
    cases closed
  · rw [split, stringContent?_text quote fits] at closed
    cases closed
    rw [split, List.length_append, List.length_cons]
    omega

end Strings

section Widths

variable {lexemes : Lexemes} {reader : Reader} {text ahead : List Char} {offset : Nat}

/-- A width that takes something and stays inside the text. -/
def Fitting (ahead : List Char) (width : Int) : Prop :=
  ∃ count : Nat, width = count ∧ 0 < count ∧ count ≤ ahead.length

theorem lineCommentWidth_at (stands : reader.At text offset) :
    lineCommentWidth reader =
      ((findIn? ['\n'] (text.drop offset)).getD (text.length - offset) : Nat) := by
  have inside := stands.inside
  rw [lineCommentWidth, stands.right, stands.whole, findFrom?_natCast inside]
  cases findIn? ['\n'] (text.drop offset) with
  | none =>
      simp only [Option.map_none, Option.getD_none]
      omega
  | some place =>
      simp only [Option.map_some, Option.getD_some]
      omega

theorem lineCommentWidth_fitting (stands : reader.At text offset) {rest : List Char}
    (opened : text.drop offset = '/' :: rest) :
    Fitting (text.drop offset) (lineCommentWidth reader) := by
  refine ⟨_, lineCommentWidth_at stands, ?_⟩
  have length : (text.drop offset).length = text.length - offset := List.length_drop
  cases found : findIn? ['\n'] (text.drop offset) with
  | none =>
      have some : (text.drop offset).length ≠ 0 := by simp [opened]
      simp only [Option.getD_none]
      omega
  | some place =>
      simp only [Option.getD_some]
      have front := prefix_of_findIn? found
      constructor
      · cases place with
        | zero =>
            rw [opened, List.drop_zero, List.cons_prefix_cons] at front
            exact absurd front.1 (by decide)
        | succ place => exact Nat.succ_pos place
      · have few := front.length_le
        rw [List.length_drop, List.length_singleton] at few
        omega

theorem blockCommentWidth?_at (stands : reader.At text offset) {body : List Char}
    (opened : text.drop offset = '/' :: '*' :: body) :
    blockCommentWidth? reader = (findIn? ['*', '/'] body).map fun place =>
      ((place + 4 : Nat) : Int) := by
  have length : (text.drop offset).length = text.length - offset := List.length_drop
  rw [opened, List.length_cons, List.length_cons] at length
  have behind : text.drop (offset + 2) = body := by
    rw [← List.drop_drop, opened]
    rfl
  have start : reader.right + 2 = ((offset + 2 : Nat) : Int) := by
    rw [stands.right]
    omega
  rw [blockCommentWidth?, start, stands.whole, findFrom?_natCast (by omega), behind, stands.right]
  cases findIn? ['*', '/'] body with
  | none => rfl
  | some place =>
      change some (((place + (offset + 2) : Nat) : Int) + 2 - offset) =
        some ((place + 4 : Nat) : Int)
      congr 1
      omega

theorem blockCommentWidth?_fitting (stands : reader.At text offset) {body : List Char}
    (opened : text.drop offset = '/' :: '*' :: body) {width : Int}
    (closed : blockCommentWidth? reader = some width) :
    Fitting (text.drop offset) width := by
  rw [blockCommentWidth?_at stands opened] at closed
  obtain ⟨place, found, same⟩ := Option.map_eq_some_iff.mp closed
  have few := (prefix_of_findIn? found).length_le
  refine ⟨place + 4, same.symm, by omega, ?_⟩
  rw [List.length_drop] at few
  rw [opened]
  simp only [List.length_cons, List.length_nil] at few ⊢
  omega

theorem length_takeWhile_le (holds : Char → Bool) (text : List Char) :
    (text.takeWhile holds).length ≤ text.length :=
  (List.takeWhile_prefix holds).length_le

theorem numberWidth_fitting {c : Char} {rest : List Char} (digit : isPlainDigit c = true) :
    Fitting (c :: rest) (numberWidth (c :: rest)) := by
  refine ⟨_, rfl, ?_⟩
  have some : 0 < ((c :: rest).takeWhile isPlainDigit).length := by simp [digit]
  have whole := length_takeWhile_le isPlainDigit (c :: rest)
  unfold numberWidth
  dsimp only
  split
  · rename_i point places split
    have behind := congrArg List.length split
    have further := length_takeWhile_le isPlainDigit places
    rw [List.length_drop, List.length_cons (a := point)] at behind
    split <;> omega
  · omega

/-- What is told about a lexeme. Whatever is recognized takes something, stays inside the text, and
is not the end of it. But for a string it stands for itself. -/
inductive Tells (lexemes : Lexemes) (ahead : List Char) :
    Except String (TokenKind × Int × Option Wording) → Prop
  | lexeme {kind : TokenKind} {width : Int} {meaning : Option Wording} (inner : kind ≠ .endOfText)
      (fitting : Fitting ahead width) (plain : kind ≠ .string → meaning = none) :
      Tells lexemes ahead (.ok (kind, width, meaning))
  | stuck {condition : String} (stuck : Stuck lexemes ahead condition) :
      Tells lexemes ahead (.error condition)

theorem tells_of_comment (stands : reader.At text offset) {body : List Char}
    (opened : text.drop offset = '/' :: '*' :: body) :
    Tells lexemes (text.drop offset) (match blockCommentWidth? reader with
      | some width => .ok (.comment, width, none)
      | none => .error "block comment") := by
  cases closed : blockCommentWidth? reader with
  | some width =>
      exact .lexeme (by decide) (blockCommentWidth?_fitting stands opened closed) fun _ => rfl
  | none =>
      rw [blockCommentWidth?_at stands opened] at closed
      exact .stuck (.comment
        ⟨body, opened, findIn?_eq_none_iff.mp (Option.map_eq_none_iff.mp closed)⟩)

theorem tells_of_string {mark : Char} {body : List Char} (quote : mark = '\'' ∨ mark = '"')
    (operator : mark ∉ lexemes.operators) :
    Tells lexemes (mark :: body) (match stringContent? mark body with
      | some (content, width) => .ok (.string, width + 1, some (.ofChars content))
      | none => .error "string") := by
  cases closed : stringContent? mark body with
  | some part =>
      obtain ⟨content, width⟩ := part
      have few := stringContent?_width quote closed
      have fits : Fitting (mark :: body) (width + 1 : Nat) :=
        ⟨width + 1, rfl, Nat.succ_pos _, Nat.succ_le_succ few⟩
      exact .lexeme (by decide) fits fun other => absurd rfl other
  | none =>
      exact .stuck (.string
        ⟨mark, body, rfl, quote, operator, (stringContent?_eq_none_iff quote).mp closed⟩)

/-- The branches of `recognize`, one by one. What is known behind each is that none before it
applied. -/
theorem recognize_tells (stands : reader.At text offset) (more : offset < text.length) :
    Tells lexemes (text.drop offset) (lexemes.recognize reader (text.drop offset)) := by
  obtain ⟨c, rest, here⟩ : ∃ c rest, text.drop offset = c :: rest :=
    List.exists_cons_of_ne_nil fun none => absurd (List.drop_eq_nil_iff.mp none) (by omega)
  rw [here]
  simp only [recognize]
  split
  · rename_i line
    simp only [Bool.and_eq_true, beq_iff_eq] at line
    have opened : text.drop offset = '/' :: rest := by rw [here, line.1]
    exact .lexeme (by decide) (here ▸ lineCommentWidth_fitting stands opened) fun _ => rfl
  rename_i line
  split
  · rename_i block
    simp only [Bool.and_eq_true, beq_iff_eq] at block
    obtain ⟨body, star⟩ := List.head?_eq_some_iff.mp block.2
    have opened : text.drop offset = '/' :: '*' :: body := by rw [here, block.1, star]
    exact here ▸ tells_of_comment stands opened
  rename_i block
  split
  · exact .lexeme (by decide) ⟨1, rfl, Nat.one_pos, Nat.le_add_left 1 _⟩ fun _ => rfl
  rename_i operator
  split
  · rename_i digit
    exact .lexeme (by decide) (numberWidth_fitting digit) fun _ => rfl
  rename_i digit
  split
  · have run := length_takeWhile_le continuesPlainWord rest
    refine .lexeme ?_ ⟨_, rfl, by omega, by rw [List.length_cons]; omega⟩ fun _ => rfl
    split <;> decide
  rename_i word
  have plain : c ∉ lexemes.operators := by simpa using operator
  split
  · rename_i quote
    simp only [Bool.or_eq_true, beq_iff_eq] at quote
    exact tells_of_string quote plain
  rename_i quote
  simp only [Bool.or_eq_true, beq_iff_eq, not_or] at quote
  simp only [Bool.and_eq_true, beq_iff_eq, not_and] at line block
  exact .stuck (.foreign
    ⟨c, rest, rfl, plain, by simpa using digit, by simpa using word, quote.1, quote.2,
      fun slash => ⟨line slash, block slash⟩⟩)

end Widths

/-- What a call for the next token does from an offset of a text, behind the white space that comes
first: it comes to the end of the text, gives a token of what it matches, or gets stuck and has
taken nothing more. -/
inductive Gives (lexemes : Lexemes) (text : List Char) (start : Nat) :
    Except ScanError Token × Reader → Prop
  | finish {after : Reader} (blank : Blank text start text.length)
      (stands : after.At text text.length)
      (left : after.left = after.right) : Gives lexemes text start (.ok (.atEnd text), after)
  | token {call : Call} {left right : Nat} (blank : Blank text start left)
      (opens : call.after.left = left) (wide : left < right) (unmarked : call.token.isEnd = false)
      (position : call.token.position = .behind (text.take left))
      (means : call.token.kind ≠ some .string → call.token.text = .ofChars (slice text left right))
      (stands : call.after.At text right) : Gives lexemes text start (.ok call.token, call.after)
  | stuck {after : Reader} {stop : Nat} {condition : String} (blank : Blank text start stop)
      (more : stop < text.length)
      (stuck : Stuck lexemes (text.drop stop) condition) (stands : after.At text stop) :
      Gives lexemes text start
        (.error (.blocked { position := .behind (text.take stop), condition }), after)

section Run

variable {lexemes : Lexemes} {reader : Reader} {text : List Char} {start : Nat}

/-- The white space that comes first leads from one offset to another. -/
theorem exists_landing (stands : reader.At text start) {blanks : Nat}
    (count : ((text.drop start).takeWhile isBlank).length = blanks) :
    (if blanks == 0 then reader else reader.skip blanks).At text (start + blanks) ∧
      Blank text start (start + blanks) := by
  have few := length_takeWhile_le isBlank (text.drop start)
  have inside := stands.inside
  rw [count, List.length_drop] at few
  constructor
  · by_cases none : blanks = 0
    · subst none
      exact stands
    · rw [if_neg (by simpa using none)]
      exact (stands.skip (by omega)).1
  · refine ⟨Nat.le_add_right _ _, by omega, ?_⟩
    have front : slice text start (start + blanks : Nat) = (text.drop start).takeWhile isBlank := by
      rw [slice_natCast, Nat.add_sub_cancel_left, ← count]
      exact (List.prefix_iff_eq_take.mp (List.takeWhile_prefix isBlank)).symm
    rw [front]
    exact fun c held => List.all_eq_true.mp List.all_takeWhile c held

theorem next_gives (lexemes : Lexemes) (stands : reader.At text start) :
    Gives lexemes text start (lexemes.next reader) := by
  unfold Lexemes.next
  rw [stands.hasMore]
  by_cases more : start < text.length
  · have upcoming : reader.upcoming? = some (text.drop start) := by
      rw [Reader.upcoming?, if_pos stands.front, stands.rest]
    rw [decide_eq_true more]
    simp only [Bool.not_true, Bool.false_eq_true, if_false, upcoming]
    generalize count : ((text.drop start).takeWhile isBlank).length = blanks
    obtain ⟨landed, blank⟩ := exists_landing stands count
    generalize (if blanks == 0 then reader else reader.skip blanks) = behind at landed
    rw [landed.hasMore, List.drop_drop]
    by_cases further : start + blanks < text.length
    · rw [decide_eq_true further]
      simp only [Bool.not_true, Bool.false_eq_true, if_false]
      have tells : Tells lexemes _ _ := recognize_tells landed further
      generalize lexemes.recognize behind (text.drop (start + blanks)) = told at tells
      cases tells with
      | stuck stuck =>
          simp only [landed.blocked]
          exact .stuck blank further stuck landed
      | @lexeme kind width meaning notEnd fitting plain =>
          obtain ⟨count, same, wide, fits⟩ := fitting
          subst same
          rw [List.length_drop] at fits
          have short : start + blanks + count ≤ text.length := by omega
          obtain ⟨standsToo, opens⟩ := landed.skip short
          simp only [landed.emit]
          refine @Gives.token _ _ _ ⟨_, behind.skip count⟩ _ _ blank opens
            (Nat.lt_add_of_pos_right wide) ?_ rfl ?_
            standsToo
          · simpa [Token.isEnd] using notEnd
          · intro other
            have itself : meaning = none := plain fun string => other (congrArg some string)
            rw [itself, slice_natCast, Nat.add_sub_cancel_left]
            rfl
    · have ended : start + blanks = text.length :=
        Nat.le_antisymm landed.inside (Nat.not_lt.mp further)
      rw [ended] at landed blank
      simp only [decide_eq_false further, Bool.not_false, if_true, landed.finish]
      exact .finish blank landed.finished rfl
  · have ended : start = text.length := Nat.le_antisymm stands.inside (Nat.not_lt.mp more)
    subst ended
    simp only [decide_eq_false more, Bool.not_false, if_true, stands.finish]
    refine .finish ⟨Nat.le_refl _, Nat.le_refl _, ?_⟩ stands.finished rfl
    rw [slice_natCast, Nat.sub_self, List.take_zero]
    simp

/-- At the end of the text every further call gives the same. -/
theorem next_repeats (lexemes : Lexemes) (stands : reader.At text text.length)
    (left : reader.left = reader.right) :
    lexemes.next reader = (.ok (.atEnd text), reader) := by
  have same : reader.finish.2 = reader := by
    cases reader
    cases left
    rfl
  unfold Lexemes.next
  rw [stands.hasMore, decide_eq_false (Nat.lt_irrefl _)]
  simp only [Bool.not_false, if_true, stands.finish, same]

theorem OpensString.head {c : Char} {rest : List Char} (opens : lexemes.OpensString (c :: rest)) :
    c = '\'' ∨ c = '"' := by
  obtain ⟨mark, body, whole, quote, _⟩ := opens
  obtain ⟨same, _⟩ := List.cons.inj whole
  exact same ▸ quote

theorem OpensComment.head {c : Char} {rest : List Char} (opens : OpensComment (c :: rest)) :
    c = '/' ∧ rest.head? = some '*' := by
  obtain ⟨body, whole, _⟩ := opens
  obtain ⟨same, behind⟩ := List.cons.inj whole
  exact ⟨same, behind ▸ rfl⟩

/-- The conditions exclude each other. -/
theorem Stuck.condition_iff {ahead : List Char} {condition : String}
    (stuck : Stuck lexemes ahead condition) :
    (condition = "string" ↔ lexemes.OpensString ahead) ∧
      (condition = "block comment" ↔ OpensComment ahead) ∧
      (condition = "INITIAL" ↔ ¬ lexemes.OpensString ahead ∧ ¬ OpensComment ahead) := by
  have apart : ¬ ('/' = '\'' ∨ '/' = '"') := by decide
  cases stuck with
  | string opens =>
      obtain ⟨mark, body, whole, _⟩ := id opens
      subst whole
      have other : ¬ OpensComment (mark :: body) :=
        fun comment => apart (comment.head.1 ▸ opens.head)
      simp [opens, other]
  | comment opens =>
      obtain ⟨body, whole, _⟩ := id opens
      subst whole
      have other : ¬ lexemes.OpensString ('/' :: '*' :: body) := fun string => apart string.head
      simp [opens, other]
  | foreign foreign =>
      obtain ⟨c, rest, whole, _, _, _, single, double, slash⟩ := foreign
      subst whole
      have noString : ¬ lexemes.OpensString (c :: rest) :=
        fun string => string.head.elim single double
      have noComment : ¬ OpensComment (c :: rest) :=
        fun comment => (slash comment.head.1).2 comment.head.2
      simp [noString, noComment]

/-- The end of a run: the end of the text, which every further call gives again, or the first lexeme
that is not complete, with the condition that tells what is wrong with it. -/
inductive Ends (lexemes : Lexemes) (text : List Char) : Nat → Except ScanError Token × Reader → Prop
  | finish {after : Reader} (repeats : lexemes.next after = (.ok (.atEnd text), after)) :
      Ends lexemes text text.length (.ok (.atEnd text), after)
  | stuck {after : Reader} {stop : Nat} {condition : String} (more : stop < text.length)
      (stuck : Stuck lexemes (text.drop stop) condition)
      (string : condition = "string" ↔ lexemes.OpensString (text.drop stop))
      (comment : condition = "block comment" ↔ OpensComment (text.drop stop))
      (otherwise : condition = "INITIAL" ↔
        ¬ lexemes.OpensString (text.drop stop) ∧ ¬ OpensComment (text.drop stop)) :
      Ends lexemes text stop
        (.error (.blocked { position := .behind (text.take stop), condition }), after)

theorem exists_calls (lexemes : Lexemes) (stands : reader.At text start) :
    ∃ calls stop last, Calls lexemes.next reader calls last ∧ Partition text start calls stop ∧
      Ends lexemes text stop last := by
  generalize left : text.length - start = fuel
  induction fuel using Nat.strongRecOn generalizing reader start with
  | ind fuel ih =>
      have gives := next_gives lexemes stands
      generalize given : lexemes.next reader = result at gives
      cases gives with
      | finish blank standsToo left =>
          exact ⟨[], _, _, .finish given rfl, .nil blank,
            .finish (next_repeats lexemes standsToo left)⟩
      | @token call left right blank opens wide unmarked position means standsToo =>
          have inside := standsToo.inside
          have ordered := blank.ordered
          obtain ⟨calls, stop, last, called, partition, ends⟩ := ih _ (by omega) standsToo rfl
          exact ⟨call :: calls, stop, last, .token given unmarked called,
            .cons blank opens standsToo.right wide position means partition, ends⟩
      | stuck blank more stuck standsToo =>
          obtain ⟨string, comment, otherwise⟩ := stuck.condition_iff
          exact ⟨[], _, _, .stuck given, .nil blank, .stuck more stuck string comment otherwise⟩

/-- Calls for the next token partition any text, whatever the operators and keywords are. The
matches take something, follow each other from left to right, have nothing but white space between
them, and end with the end of the text or in front of the first lexeme that is not complete. -/
theorem calls_partition (lexemes : Lexemes) (text : List Char) :
    ∃ calls stop last, Calls lexemes.next (.start text) calls last ∧ Partition text 0 calls stop ∧
      Ends lexemes text stop last :=
  exists_calls lexemes (Reader.start_at text)

end Run

end Lexemes

end RecordGrammar
