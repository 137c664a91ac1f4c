import RecordGrammar.Proofs.Scanner.Ranking
import RecordGrammar.Proofs.Worked.Ini

namespace RecordGrammar.Worked.Ini

open RecordGrammar.Text
open RecordGrammar.Decimal (Written digitLimit)

/-! However sections are laid out as a settings file, its text is read back as the sections. -/

section Words

/-- What ends a word, next to white space. -/
def stops : List Char := ['[', ']', '=', '#', ';']

def IsLetter (c : Char) : Prop := isBlank c = false ∧ c ∉ stops

instance (c : Char) :
    Decidable (IsLetter c) := inferInstanceAs (Decidable (isBlank c = false ∧ c ∉ stops))

/-- What a number looks like: a zero, or digits that begin with another one, and perhaps a
fraction. -/
def IsNumeral (text : List Char) : Prop :=
  ∃ written : Written, written.WellFormed ∧ written.Proper ∧ written.negative = false ∧
    written.exponent = none ∧ written.text = text

/-- No word goes on like this. -/
def Ends (rest : List Char) : Prop := ∀ c ∈ rest.head?, ¬ IsLetter c

variable {c : Char} {text taken rest : List Char} {width : Nat}

def letter : CharSet := .complement (.union .blank (.ofList ['[', ']', '=', '#', ';']))

theorem holds_letter : letter.holds c = true ↔ IsLetter c := by
  have inside : (CharSet.ofList ['[', ']', '=', '#', ';']).holds c = true ↔ c ∈ stops :=
    Pattern.holds_ofList stops c
  rw [IsLetter, ← inside]
  simp only [letter, CharSet.holds, Bool.not_eq_true', Bool.or_eq_false_iff, Bool.not_eq_true]

theorem ends_cons (stops : ¬ IsLetter c) :
    Ends (c :: rest) := fun _ here => Option.some.inj here ▸ stops

theorem isLetter_of_isDecimalDigit (digit : isDecimalDigit c = true) : IsLetter c := by
  have none : ∀ other ∈ stops, isDecimalDigit other = false := by decide
  refine ⟨not_isBlank_of_isDecimalDigit digit, fun held => ?_⟩
  simp [none c held] at digit

theorem IsNumeral.letters (numeral : IsNumeral text) : ∀ c ∈ text, IsLetter c := by
  obtain ⟨written, wellFormed, _, _, _, rfl⟩ := numeral
  have marks : ∀ c ∈ ['-', '+', '.', 'e', 'E'], IsLetter c := by decide
  intro c held
  rcases wellFormed.mem_text held with digit | mark
  · exact isLetter_of_isDecimalDigit digit
  · exact marks c mark

theorem IsNumeral.ne_nil (numeral : IsNumeral text) : text ≠ [] := by
  obtain ⟨written, wellFormed, _, _, _, rfl⟩ := numeral
  intro none
  simp [Written.text, wellFormed.whole.1] at none

theorem IsNumeral.number_over (numeral : IsNumeral text) (ends : Ends rest) :
    number.Over text rest := by
  obtain ⟨written, wellFormed, proper, positive, plain, rfl⟩ := numeral
  have shape : written.text = written.whole ++ written.fractionText := by
    simp [Written.text, Written.signText, Written.exponentText, positive, plain]
  have behind : ∀ c ∈ rest.head?, isDecimalDigit c = false ∧ c ≠ '.' := by
    intro c here
    refine ⟨Bool.eq_false_iff.mpr fun digit => ends c here (isLetter_of_isDecimalDigit digit), ?_⟩
    intro point
    exact ends c here (point ▸ by decide)
  have fraction := wellFormed.whole_ended
  rw [Written.exponentText, plain, Option.elim_none, List.append_nil] at fraction
  rw [shape]
  refine .both (wholeNumber_over wellFormed proper ?_) (fraction_over wellFormed behind)
  exact forall_head?_append fraction fun c here => (behind c here).1

theorem isNumeral_iff : IsNumeral text ↔ number.matchWidth? (.front text) = some text.length := by
  constructor
  · intro numeral
    have ends : Ends [] := nofun
    exact (numeral.number_over ends).matchWidth? (List.append_nil _).symm
  · intro matched
    have covers := (Pattern.covers_of_matchWidth? matched).2
    rw [show (Spot.front text).rest = text from rfl, List.take_length] at covers
    exact exists_written covers

instance (text : List Char) : Decidable (IsNumeral text) := decidable_of_iff _ isNumeral_iff.symm

/-- Letters in a row do not reach beyond the end of a word. -/
theorem width_le_of_letters (ends : Ends rest) (within : width ≤ (taken ++ rest).length)
    (letters : ∀ c ∈ (taken ++ rest).take width, IsLetter c) : width ≤ taken.length := by
  by_contra far
  cases rest with
  | nil => simp at within; omega
  | cons c rest =>
      obtain ⟨more, long⟩ : ∃ more, width = taken.length + (more + 1) :=
        ⟨width - taken.length - 1, by omega⟩
      refine ends c rfl (letters c ?_)
      rw [long, List.take_length_add_append]
      simp

/-- A word as it may be written: no number, and nothing in it that ends a word. -/
structure Word where
  text : List Char
  some : text ≠ []
  letters : ∀ c ∈ text, IsLetter c
  worded : ¬ IsNumeral text

end Words

section Chapters

/-- A value: a word, or a whole number with not too many digits. -/
inductive Datum where
  | word (text : Word)
  | whole (n : Nat) (short : (Nat.toDigits 10 n).length ≤ digitLimit)

structure Entry where
  key : Word
  datum : Datum

structure Chapter where
  title : Word
  entries : List Entry

namespace Datum

def value : Datum → Value
  | .word text => .text (.ofChars text.text)
  | .whole n _ => .int n

def setting : Datum → Setting
  | .word text => .word (.ofChars text.text)
  | .whole n _ => .number (.ofInt n) (Written.ofInt_wellFormed n)

theorem setting_value (datum : Datum) : datum.setting.value = datum.value := by
  cases datum with
  | word text => rfl
  | whole n short => exact Written.value_ofInt n

end Datum

namespace Entry

def line (entry : Entry) : Line := ⟨.ofChars entry.key.text, entry.datum.setting⟩

def record (entry : Entry) : Value :=
  .entity (.record 0) "Entry" none
    [("key", .text (.ofChars entry.key.text)), ("value", entry.datum.value)]

theorem line_record (entry : Entry) : entry.line.record = entry.record := by
  rw [Line.record, line, entry.datum.setting_value, record]

end Entry

namespace Chapter

def part (chapter : Chapter) : Part := ⟨.ofChars chapter.title.text, chapter.entries.map Entry.line⟩

def record (chapter : Chapter) : Value :=
  .entity (.record 1) "Section" none
    [("title", .text (.ofChars chapter.title.text)),
      ("entries", .list (chapter.entries.map Entry.record))]

theorem part_record (chapter : Chapter) : chapter.part.record = chapter.record := by
  have entries :
      (chapter.entries.map Entry.line).map Line.record = chapter.entries.map Entry.record := by
    simp [Entry.line_record]
  rw [Part.record, part, entries, record]

def records (chapters : List Chapter) : Value :=
  .entity (.record 2) "IniFile" none [("sections", .list (chapters.map record))]

theorem file_record (chapters : List Chapter) :
    (File.mk (chapters.map part)).record = records chapters := by
  have parts : (chapters.map part).map Part.record = chapters.map record := by simp [part_record]
  rw [File.record, parts, records]

end Chapter

end Chapters

section Layout

/-- A token of a file: a sign, or what a key, a value or a title is. -/
inductive Mark where
  | sign (c : Char) (known : c ∈ ['[', ']', '='])
  | item (datum : Datum)

namespace Mark

def text : Mark → List Char
  | .sign c _ => [c]
  | .item (.word text) => text.text
  | .item (.whole n _) => Nat.toDigits 10 n

def face : Mark → Face
  | .sign c _ => (some .operator, .ofChars [c])
  | .item datum => datum.setting.face

/-- Nothing goes on with a word or a number. -/
def Apart : Mark → List Char → Prop
  | .sign _ _, _ => True
  | .item _, rest => Ends rest

end Mark

def Entry.marks (entry : Entry) : List Mark :=
  [.item (.word entry.key), .sign '=' (by decide), .item entry.datum]

def Chapter.marks (chapter : Chapter) : List Mark :=
  [.sign '[' (by decide), .item (.word chapter.title), .sign ']' (by decide)] ++
    chapter.entries.flatMap Entry.marks

/-- What may stand between tokens: blanks, and comments with the ends of their lines. -/
inductive Gap : List Char → Prop
  | nothing : Gap []
  | blank (blank : isBlank c = true) (later : Gap rest) : Gap (c :: rest)
  | comment (opens : c ∈ ['#', ';']) (line : '\n' ∉ body) (later : Gap rest) :
      Gap (c :: (body ++ '\n' :: rest))

/-- A comment that goes to the end of the text, or nothing. -/
inductive Trail : List Char → Prop
  | nothing : Trail []
  | comment (opens : c ∈ ['#', ';']) (line : '\n' ∉ body) : Trail (c :: body)

/-- A text is some tokens, one after the other, with any blanks and comments around them. No word
and no number is followed by what would go on with it. -/
inductive Printed : List Mark → List Char → Prop
  | done (gap : Gap front) (trail : Trail last) : Printed [] (front ++ last)
  | mark {mark : Mark} (gap : Gap front) (apart : mark.Apart text) (later : Printed marks text) :
      Printed (mark :: marks) (front ++ (mark.text ++ text))

end Layout

section Scan

open ScanRule

def blankRule : ScanRule := .ignore blanks 0

def commentRule : ScanRule := .ignore comment 0

def numberRule : ScanRule := .token "Number" number (some .number) 0

def wordRule : ScanRule := .token "String" word (some .string) 0

def signRule : ScanRule := .token "Operator" (.one (.ofList [']', '[', '='])) (some .operator) 0

theorem rules_eq : scanner.rules = [blankRule, commentRule, numberRule, wordRule, signRule] := rfl

variable {spot : Spot} {c : Char} {taken front rest text last : List Char} {told : List Face}
  {place width : Nat} {rule : ScanRule}

theorem silent_of_isLetter (letter : IsLetter c) :
    silentAt [blankRule, commentRule, signRule] c = true := by
  obtain ⟨solid, none⟩ := letter
  simp only [stops, List.mem_cons, List.not_mem_nil, or_false, not_or] at none
  simp [silentAt, blankRule, commentRule, signRule, ignore, ScanRule.token, blanks, comment,
    Pattern.plus, Pattern.star, Pattern.nullable, Pattern.mayBegin, CharSet.ofList, CharSet.holds,
    solid, none]

/-- Letters lie ahead, and nothing goes on with them. -/
structure Row (spot : Spot) (taken rest : List Char) : Prop where
  some : taken ≠ []
  letters : ∀ c ∈ taken, IsLetter c
  ends : Ends rest
  ahead : spot.rest = taken ++ rest

namespace Row

variable (row : Row spot taken rest)
include row

/-- Only the rules for numbers and for words take anything of a row, and nothing beyond it. -/
theorem cases_of_takes (takes : ScanRule.Takes width? scanner.rules spot place rule width) :
    width ≤ taken.length ∧
      ((place = 2 ∧ rule = numberRule ∧ IsNumeral (taken.take width)) ∨
        (place = 3 ∧ rule = wordRule)) := by
  obtain ⟨listed, matched, wide⟩ := takes
  obtain ⟨within, covers⟩ := Pattern.covers_of_matchWidth? matched
  rw [row.ahead] at within covers
  have silent (held : rule ∈ [blankRule, commentRule, signRule]) : False := by
    obtain ⟨first, more, shape⟩ := List.exists_cons_of_ne_nil row.some
    have quiet := silent_of_isLetter (row.letters first (by simp [shape]))
    have ahead : spot.rest = first :: (more ++ rest) := by rw [row.ahead, shape, List.cons_append]
    have fails := fails_of_silentAt quiet held ahead
    cases (width?_of_fails fails).symm.trans matched
  rw [rules_eq] at listed
  match place, listed with
  | 0, listed =>
      cases listed
      exact (silent (by simp)).elim
  | 1, listed =>
      cases listed
      exact (silent (by simp)).elim
  | 2, listed =>
      cases listed
      have numeral : IsNumeral _ := exists_written covers
      have short := width_le_of_letters row.ends within numeral.letters
      rw [List.take_append_of_le_length short] at numeral
      exact ⟨short, .inl ⟨rfl, rfl, numeral⟩⟩
  | 3, listed =>
      cases listed
      have each := fun c held => holds_letter.mp (covers.holds_of_repeated c held)
      exact ⟨width_le_of_letters row.ends within each, .inr ⟨rfl, rfl⟩⟩
  | 4, listed =>
      cases listed
      exact (silent (by simp)).elim

/-- A rule that takes a whole row wins if it was defined before all others that do. -/
theorem wins_of_first (takes : ScanRule.Takes width? scanner.rules spot place rule taken.length)
    (first : ∀ otherPlace other,
      ScanRule.Takes width? scanner.rules spot otherPlace other taken.length → place ≤ otherPlace) :
    Wins width? scanner.rules spot place rule taken.length := by
  have level {place width : Nat} {rule : ScanRule}
      (takes : ScanRule.Takes width? scanner.rules spot place rule width) : rule.rank = 0 := by
    rcases (row.cases_of_takes takes).2 with ⟨_, rfl, _⟩ | ⟨_, rfl⟩ <;> rfl
  refine ⟨takes, ?_, ?_, ?_⟩
  · intro otherPlace other width also
    rw [level also, level takes]
  · exact fun otherPlace other width also _ => (row.cases_of_takes also).1
  · intro otherPlace other width also _ wide
    exact first otherPlace other (wide ▸ also)

/-- No word is taken for a number. The longer match wins, and a number in front of a word is
shorter. -/
theorem word_wins (worded : ¬ IsNumeral taken) :
    Wins width? scanner.rules spot 3 wordRule taken.length := by
  have held : ∀ c ∈ taken, letter.holds c = true :=
    fun c held => holds_letter.mpr (row.letters c held)
  have ended : ∀ c ∈ rest.head?, letter.holds c = false :=
    fun c here => Bool.eq_false_iff.mpr fun more => row.ends c here (holds_letter.mp more)
  have whole : wordRule.pattern.Over taken rest := .plus_one row.some held ended
  refine row.wins_of_first ⟨rfl, whole.matchWidth? row.ahead, List.length_pos_iff.mpr row.some⟩ ?_
  intro otherPlace other also
  rcases (row.cases_of_takes also).2 with ⟨_, _, numeral⟩ | ⟨here, _⟩
  · rw [List.take_length] at numeral
    exact absurd numeral worded
  · exact Nat.le_of_eq here.symm

/-- A number may pass for a word, but the rule for numbers was defined first. -/
theorem number_wins (numeral : IsNumeral taken) :
    Wins width? scanner.rules spot 2 numberRule taken.length := by
  have whole : numberRule.pattern.Over taken rest := numeral.number_over row.ends
  refine row.wins_of_first ⟨rfl, whole.matchWidth? row.ahead, List.length_pos_iff.mpr row.some⟩ ?_
  intro otherPlace other also
  rcases (row.cases_of_takes also).2 with ⟨here, _⟩ | ⟨here, _⟩ <;> omega

end Row

/-- Wherever such a text lies ahead, this is what the rules make of it. -/
def Reads (text : List Char) (told : List Face) : Prop :=
  ∀ spot : Spot, spot.rest = text → ∃ stretches, Course scanner.rules spot stretches ∧
    faces stretches = told

theorem Reads.nothing : Reads [] [] := fun _ ended => ⟨[], .done ended, rfl⟩

theorem Reads.wins (later : Reads rest told) {face : Option Face}
    (won : ∀ spot : Spot, spot.rest = taken ++ rest → ∃ rule,
      best? false spot scanner.rules none = some (rule, taken.length) ∧ rule.face? taken = face) :
    Reads (taken ++ rest) (face.toList ++ told) := by
  intro spot ahead
  obtain ⟨rule, best, made⟩ := won spot ahead
  have behind : (spot.advance taken.length).rest = rest := by simp [ahead]
  obtain ⟨stretches, course, same⟩ := later _ behind
  refine ⟨(rule, taken) :: stretches, .wins ahead best course, ?_⟩
  rw [faces, List.filterMap_cons, made]
  cases face with
  | none => exact same
  | some face => exact congrArg (face :: ·) same

theorem Reads.blanks (later : Reads rest told) (blank : ∀ c ∈ front, isBlank c = true)
    (solid : ∀ c ∈ rest.head?, isBlank c = false) : Reads (front ++ rest) told := by
  cases front with
  | nil => exact later
  | cons first more =>
      have silent : silentAt [commentRule, numberRule, wordRule, signRule] first = true :=
        of_isBlank (fun c => silentAt [commentRule, numberRule, wordRule, signRule] c = true)
          (by decide) (blank first (by simp))
      have whole : blankRule.pattern.Over (first :: more) rest := .plus_one (by simp) blank solid
      have won (spot : Spot) (ahead : spot.rest = first :: more ++ rest) :
          ∃ rule, best? false spot scanner.rules none = some (rule, (first :: more).length) ∧
            rule.face? (first :: more) = none :=
        ⟨blankRule,
          best?_of_over [] [commentRule, numberRule, wordRule, signRule] whole silent ahead, rfl⟩
      exact later.wins won

theorem Reads.comment (later : Reads rest told) (opens : c ∈ ['#', ';']) (line : '\n' ∉ front)
    (ended : ∀ c ∈ rest.head?, c = '\n') : Reads (c :: (front ++ rest)) told := by
  have silent : silentAt [blankRule, numberRule, wordRule, signRule] c = true := by
    have each :
        ∀ c ∈ ['#', ';'], silentAt [blankRule, numberRule, wordRule, signRule] c = true := by decide
    exact each c opens
  have body : (Pattern.star (.one .inLine)).Over front rest := by
    refine .star_one (fun c held => ?_) (fun c here => ?_)
    · have other : c ≠ '\n' := fun same => line (same ▸ held)
      simpa [CharSet.inLine, CharSet.holds] using other
    · simp [CharSet.inLine, CharSet.holds, ended c here]
  have whole : commentRule.pattern.Over (c :: front) rest :=
    .one_both ((Pattern.holds_ofList _ c).mpr opens) body
  have won (spot : Spot) (ahead : spot.rest = c :: front ++ rest) :
      ∃ rule, best? false spot scanner.rules none = some (rule, (c :: front).length) ∧
        rule.face? (c :: front) = none :=
    ⟨commentRule, best?_of_over [blankRule] [numberRule, wordRule, signRule] whole silent ahead,
      rfl⟩
  exact later.wins won

/-- A gap is skipped. Blanks that stand in front of it are skipped along with those that it begins
with. -/
theorem Gap.reads_behind (gap : Gap front) (later : Reads rest told)
    (solid : ∀ c ∈ rest.head?, isBlank c = false) {before : List Char}
    (blank : ∀ c ∈ before, isBlank c = true) : Reads (before ++ (front ++ rest)) told := by
  induction gap generalizing before with
  | nothing => exact later.blanks blank solid
  | @blank c front here _ ih =>
      -- The rule for blanks takes this one along with those in front, so none of them is a match of
      -- its own.
      have longer : ∀ other ∈ before ++ [c], isBlank other = true :=
        List.forall_mem_append.mpr ⟨blank, List.forall_mem_singleton.mpr here⟩
      have joined := ih longer
      rwa [List.append_assoc] at joined
  | @comment c body front opens line _ ih =>
      -- The end of the line is no part of the comment, but the first of the blanks behind it.
      have behind : Reads ('\n' :: (front ++ rest)) told := @ih ['\n'] (by decide)
      have plain : ∀ c ∈ ['#', ';'], isBlank c = false := by decide
      rw [List.cons_append, List.append_assoc]
      refine (behind.comment opens line ?_).blanks blank ?_
      · exact fun c here => (Option.some.inj here).symm
      · exact fun c here => Option.some.inj here ▸ plain _ opens

theorem Gap.reads (gap : Gap front) (later : Reads rest told)
    (solid : ∀ c ∈ rest.head?, isBlank c = false) :
    Reads (front ++ rest) told := by
  have none : ∀ c ∈ ([] : List Char), isBlank c = true := nofun
  exact gap.reads_behind later solid none

theorem Trail.reads (trail : Trail last) : Reads last [] ∧ ∀ c ∈ last.head?, isBlank c = false := by
  cases trail with
  | nothing => exact ⟨.nothing, nofun⟩
  | comment opens line =>
      have plain : ∀ c ∈ ['#', ';'], isBlank c = false := by decide
      have skipped := Reads.nothing.comment opens line nofun
      rw [List.append_nil] at skipped
      exact ⟨skipped, fun c here => Option.some.inj here ▸ plain _ opens⟩

theorem text_ofInt_natCast (n : Nat) : (Written.ofInt n).text = Nat.toDigits 10 n := by
  have positive : ¬ (n : Int) < 0 := by omega
  simp [Written.text, Written.ofInt, Written.signText, Written.fractionText,
    Written.exponentText, positive]

theorem isNumeral_toDigits (n : Nat) : IsNumeral (Nat.toDigits 10 n) := by
  have positive : (Written.ofInt n).negative = false :=
    decide_eq_false (show ¬ (n : Int) < 0 by omega)
  exact ⟨.ofInt n, Written.ofInt_wellFormed n, Written.ofInt_proper n, positive, rfl,
    text_ofInt_natCast n⟩

theorem Mark.wins (mark : Mark) (apart : mark.Apart rest) (ahead : spot.rest = mark.text ++ rest) :
    ∃ rule, best? false spot scanner.rules none = some (rule, mark.text.length) ∧
      rule.face? mark.text = some mark.face := by
  match mark, apart, ahead with
  | .sign c known, _, ahead =>
      have silent : silentAt [blankRule, commentRule, numberRule, wordRule] c = true := by
        have each : ∀ c ∈ ['[', ']', '='],
            silentAt [blankRule, commentRule, numberRule, wordRule] c = true := by decide
        exact each c known
      have held : (CharSet.ofList [']', '[', '=']).holds c = true := by
        have each :
            ∀ c ∈ ['[', ']', '='], (CharSet.ofList [']', '[', '=']).holds c = true := by decide
        exact each c known
      have whole : signRule.pattern.Over [c] rest := .one held rest
      exact ⟨signRule, best?_of_over [blankRule, commentRule, numberRule, wordRule]
        [] whole silent ahead, rfl⟩
  | .item (.word word), apart, ahead =>
      have row : Row spot word.text rest := ⟨word.some, word.letters, apart, ahead⟩
      exact ⟨wordRule, best?_of_wins (row.word_wins word.worded), rfl⟩
  | .item (.whole n _), apart, ahead =>
      have numeral := isNumeral_toDigits n
      have row : Row spot (Nat.toDigits 10 n) rest :=
        ⟨numeral.ne_nil, numeral.letters, apart, ahead⟩
      refine ⟨numberRule, best?_of_wins (row.number_wins numeral), ?_⟩
      rw [Mark.face, Datum.setting, Setting.face, text_ofInt_natCast]
      rfl

theorem Mark.solid (mark : Mark) (rest : List Char) :
    ∀ c ∈ (mark.text ++ rest).head?, isBlank c = false := by
  have first {text : List Char} (some : text ≠ []) (letters : ∀ c ∈ text, IsLetter c) :
      ∀ c ∈ (text ++ rest).head?, isBlank c = false := by
    intro c here
    rw [List.head?_append_of_ne_nil _ some] at here
    exact (letters c (List.mem_of_mem_head? here)).1
  match mark with
  | .sign c known =>
      have each : ∀ c ∈ ['[', ']', '='], isBlank c = false := by decide
      exact fun other here => Option.some.inj here ▸ each c known
  | .item (.word word) => exact first word.some word.letters
  | .item (.whole n _) => exact first (isNumeral_toDigits n).ne_nil (isNumeral_toDigits n).letters

theorem Printed.reads {marks : List Mark} (printed : Printed marks text) :
    Reads text (marks.map Mark.face) := by
  induction printed with
  | done gap trail => exact gap.reads trail.reads.1 trail.reads.2
  | @mark front text marks mark gap apart later ih =>
      exact gap.reads (ih.wins fun spot ahead => mark.wins apart ahead) (mark.solid text)

theorem Printed.scan {marks : List Mark} (printed : Printed marks text) :
    (scanner.scan text).error = none ∧
      (scanner.scan text).tokens.map Token.face = marks.map Mark.face ++ [.finish] := by
  obtain ⟨stretches, course, told⟩ := printed.reads (.front text) rfl
  have scanned := byTable.scan_course course
  rwa [told] at scanned

end Scan

section Parse

variable {chapters : List Chapter} {text : List Char}

theorem Entry.line_faces (entry : Entry) : entry.line.faces = entry.marks.map Mark.face := rfl

theorem Chapter.part_faces (chapter : Chapter) :
    chapter.part.faces = chapter.marks.map Mark.face := by
  have entries : (chapter.entries.map Entry.line).flatMap Line.faces =
      (chapter.entries.flatMap Entry.marks).map Mark.face := by
    rw [List.flatMap_map, List.map_flatMap]
    exact List.flatMap_congr fun entry _ => entry.line_faces
  rw [Part.faces, part, entries, marks, List.map_append]
  rfl

theorem Chapter.file_faces (chapters : List Chapter) :
    (File.mk (chapters.map part)).faces = (chapters.flatMap marks).map Mark.face := by
  rw [File.faces, List.flatMap_map, List.map_flatMap]
  exact List.flatMap_congr fun chapter _ => chapter.part_faces

/-- There is a way to lay out any tokens: each on a line of its own. -/
theorem printed_lines (marks : List Mark) :
    Printed marks (marks.flatMap fun mark => '\n' :: mark.text) := by
  have feed : Gap ['\n'] := .blank (by decide) .nothing
  induction marks with
  | nil => exact .done .nothing .nothing
  | cons mark marks ih =>
      have apart : mark.Apart (marks.flatMap fun mark => '\n' :: mark.text) := by
        have ends : Ends (marks.flatMap fun mark => '\n' :: mark.text) := by
          cases marks with
          | nil => exact nofun
          | cons second later => exact ends_cons (by decide)
        cases mark with
        | sign c known => trivial
        | item datum => exact ends
      exact .mark feed apart ih

theorem Printed.short {marks : List Mark} (printed : Printed marks text) :
    ShortNumbers (scanner.scan text).tokens := by
  intro token held number written _ same
  have shown : token.face ∈ marks.map Mark.face ++ [.finish] :=
    printed.scan.2 ▸ List.mem_map_of_mem held
  have kind : token.face.1 = some .number := number
  have text : token.face.2 = .ofChars written.text := same
  rcases List.mem_append.mp shown with inside | ended
  · obtain ⟨mark, _, face⟩ := List.mem_map.mp inside
    rw [← face] at kind text
    match mark, kind, text with
    | .item (.whole n short), _, text =>
        have spelled : (Written.ofInt n).text = written.text := Wording.ofChars_inj.mp text
        rw [text_ofInt_natCast] at spelled
        exact written.short_of_length (spelled ▸ short)
  · rw [List.mem_singleton.mp ended] at kind
    cases kind

/-- However chapters are laid out, a parse of the text gives them back: the titles, the keys and the
values, in their order. Words stay words, also where they begin like numbers. -/
theorem parse_laidOut (printed : Printed (chapters.flatMap Chapter.marks) text) :
    (parse text).result = .ok (Chapter.records chapters) := by
  obtain ⟨clean, told⟩ := printed.scan
  obtain ⟨stream, tokens, last, streamed⟩ := Registry.exists_streamed byTable clean
  have short : ShortNumbers tokens :=
    fun token held => printed.short token (by simp [streamed.whole, held])
  have spelled : (File.mk (chapters.map Chapter.part)).Spelled (scanner.scan text).tokens := by
    rw [File.Spelled, Chapter.file_faces, told]
  rw [← Chapter.file_record]
  exact (parse_ok_iff streamed short).mpr ⟨_, spelled, rfl⟩

/-- Words that begin like numbers, a comment between lines, and one at the end. -/
def mixed : List Char := "[ 00501 ];x\n1e5=0 k=007#end".toList

def mixedChapters : List Chapter :=
  [{ title := ⟨"00501".toList, by decide, by decide, by decide⟩
     entries :=
      [{ key := ⟨"1e5".toList, by decide, by decide, by decide⟩, datum := .whole 0 (by decide) },
       { key := ⟨"k".toList, by decide, by decide, by decide⟩
         datum := .word ⟨"007".toList, by decide, by decide, by decide⟩ }] }]

theorem mixed_printed : Printed (mixedChapters.flatMap Chapter.marks) mixed := by
  have space : Gap [' '] := .blank (by decide) .nothing
  have remark : Gap [';', 'x', '\n'] := @Gap.comment ';' ['x'] [] (by decide) (by decide) .nothing
  refine @Printed.mark [] _ _ (.sign '[' _) .nothing trivial ?_
  refine @Printed.mark [' '] _ _ (.item (.word _)) space (@ends_cons ' ' _ (by decide)) ?_
  refine @Printed.mark [' '] _ _ (.sign ']' _) space trivial ?_
  refine @Printed.mark [';', 'x', '\n'] _ _ (.item (.word _)) remark
    (@ends_cons '=' _ (by decide)) ?_
  refine @Printed.mark [] _ _ (.sign '=' _) .nothing trivial ?_
  refine @Printed.mark [] _ _ (.item (.whole 0 _)) .nothing (@ends_cons ' ' _ (by decide)) ?_
  refine @Printed.mark [' '] _ _ (.item (.word _)) space (@ends_cons '=' _ (by decide)) ?_
  refine @Printed.mark [] _ _ (.sign '=' _) .nothing trivial ?_
  refine @Printed.mark [] _ _ (.item (.word _)) .nothing (@ends_cons '#' _ (by decide)) ?_
  exact @Printed.done [] "#end".toList .nothing (.comment (by decide) (by decide))

theorem mixed_parsed :
    Printed (mixedChapters.flatMap Chapter.marks) mixed ∧
      (parse mixed).result = .ok
        (.entity (.record 2) "IniFile" none
          [("sections", .list
            [.entity (.record 1) "Section" none
              [("title", .text (.ofString "00501")),
               ("entries", .list
                [.entity (.record 0) "Entry" none
                  [("key", .text (.ofString "1e5")), ("value", .int 0)],
                 .entity (.record 0) "Entry" none
                  [("key", .text (.ofString "k")), ("value", .text (.ofString "007"))]])]])]) :=
  ⟨mixed_printed, parse_laidOut mixed_printed⟩

end Parse

end RecordGrammar.Worked.Ini
