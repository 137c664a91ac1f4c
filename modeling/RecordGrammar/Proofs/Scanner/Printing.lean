import RecordGrammar.Proofs.Scanner.Tables
import RecordGrammar.Proofs.Text.Classes

namespace RecordGrammar

open RecordGrammar.Text

/-! Program text that is printed lexeme by lexeme is scanned as those lexemes.

What stands between two lexemes begins with a blank, so no lexeme runs into what follows it.
-/

/-- A character of a string as it is printed: on its own, or with a backslash in front of it. -/
structure Stroke where
  escaped : Bool
  char : Char

/-- A lexeme as it is printed. -/
inductive Lexeme where
  | word (first : Char) (rest : List Char)
  | number (whole : List Char) (fraction : Option (List Char))
  | operator (c : Char)
  | string (mark : Char) (strokes : List Stroke)

/-- What may stand between lexemes: a blank, a comment in brackets, or a comment with the end of its
line. -/
inductive Filler where
  | blank (c : Char)
  | block (body : List Char)
  | line (body : List Char)

structure Separator where
  blank : Char
  fillers : List Filler

namespace Stroke

def text (stroke : Stroke) : List Char :=
  if stroke.escaped then ['\\', stroke.char] else [stroke.char]

/-- A backslash, the quote around the string and the ends of lines do not stand on their own. -/
def Fits (mark : Char) (stroke : Stroke) : Prop :=
  stroke.escaped = false → stroke.char ∉ ['\\', mark, '\r', '\n']

instance (mark : Char) (stroke : Stroke) : Decidable (stroke.Fits mark) :=
  inferInstanceAs (Decidable (_ → _))

/-- What reads one stroke at a time reads a row of them. -/
theorem read_strokes {mark : Char} {read : List Char → Option (List Char × Nat)}
    (step : ∀ stroke : Stroke, stroke.Fits mark → ∀ rest, read (stroke.text ++ rest) =
      (read rest).map fun part => (stroke.char :: part.1, part.2 + stroke.text.length))
    {strokes : List Stroke} (fits : ∀ stroke ∈ strokes, stroke.Fits mark) (rest : List Char) :
    read (strokes.flatMap Stroke.text ++ rest) = (read rest).map fun part =>
      (strokes.map Stroke.char ++ part.1, part.2 + (strokes.flatMap Stroke.text).length) := by
  induction strokes with
  | nil => simp
  | cons stroke strokes ih =>
      obtain ⟨here, later⟩ := List.forall_mem_cons.mp fits
      rw [List.flatMap_cons, List.append_assoc, step stroke here, ih later, Option.map_map]
      congr 1
      funext part
      simp only [Function.comp_apply, List.map_cons, List.cons_append, List.length_append,
        Prod.mk.injEq, true_and]
      omega

end Stroke

namespace Lexeme

def text : Lexeme → List Char
  | word first rest => first :: rest
  | number whole fraction => whole ++ fraction.elim [] ('.' :: ·)
  | operator c => [c]
  | string mark strokes => mark :: (strokes.flatMap Stroke.text ++ [mark])

/-- The kind of a lexeme and what it stands for. -/
def face (lexemes : Lexemes) : Lexeme → Face
  | word first rest =>
      (some (if lexemes.keywords.contains (String.ofList (first :: rest)) then .keyword
        else .identifier), .ofChars (first :: rest))
  | number whole fraction => (some .number, .ofChars (number whole fraction).text)
  | operator c => (some .operator, .ofChars [c])
  | string _ strokes => (some .string, .ofChars (strokes.map Stroke.char))

def WellFormed (lexemes : Lexemes) : Lexeme → Prop
  | word first rest => startsPlainWord first = true ∧ ∀ c ∈ rest, continuesPlainWord c = true
  | number whole fraction =>
      (whole ≠ [] ∧ ∀ c ∈ whole, isPlainDigit c = true) ∧
        ∀ places ∈ fraction, places ≠ [] ∧ ∀ c ∈ places, isPlainDigit c = true
  | operator c => c ∈ lexemes.operators
  | string mark strokes => (mark = '\'' ∨ mark = '"') ∧ ∀ stroke ∈ strokes, stroke.Fits mark

instance (lexemes : Lexemes) : (lexeme : Lexeme) → Decidable (lexeme.WellFormed lexemes)
  | word _ _ => inferInstanceAs (Decidable (_ ∧ _))
  | number _ none => inferInstanceAs (Decidable (_ ∧ _))
  | number _ (some _) => inferInstanceAs (Decidable (_ ∧ _))
  | operator _ => inferInstanceAs (Decidable (_ ∈ _))
  | string _ _ => inferInstanceAs (Decidable (_ ∧ _))

/-- No lexeme is a comment, and none marks the end of the text. -/
theorem face_kind (lexemes : Lexemes) (lexeme : Lexeme) :
    (lexeme.face lexemes).1 ≠ some .comment ∧ (lexeme.face lexemes).1 ≠ some .endOfText := by
  cases lexeme with
  | word first more => simp only [face]; split <;> simp
  | number whole fraction => simp [face]
  | operator c => simp [face]
  | string mark strokes => simp [face]

end Lexeme

namespace Filler

def text : Filler → List Char
  | blank c => [c]
  | block body => ['/', '*'] ++ (body ++ ['*', '/'])
  | line body => ['/', '/'] ++ (body ++ ['\n'])

def WellFormed : Filler → Prop
  | blank c => isBlank c = true
  | block body => ¬ ['*', '/'] <:+: body
  | line body => '\n' ∉ body

instance : (filler : Filler) → Decidable filler.WellFormed
  | blank _ => inferInstanceAs (Decidable (_ = _))
  | block body => inferInstanceAs (Decidable (¬ ['*', '/'] <:+: body))
  | line _ => inferInstanceAs (Decidable (_ ∉ _))

end Filler

namespace Separator

def text (separator : Separator) : List Char :=
  separator.blank :: separator.fillers.flatMap Filler.text

structure WellFormed (separator : Separator) : Prop where
  blank : isBlank separator.blank = true
  each : ∀ filler ∈ separator.fillers, filler.WellFormed

end Separator

namespace Lexemes

/-- No operator is part of a lexeme of another kind, or of what stands between lexemes. -/
def Clear (lexemes : Lexemes) : Prop :=
  ∀ c ∈ lexemes.operators, isBlank c = false ∧ continuesPlainWord c = false ∧ c ≠ '\'' ∧ c ≠ '"'

instance (lexemes : Lexemes) : Decidable lexemes.Clear :=
  inferInstanceAs (Decidable (∀ c ∈ lexemes.operators, _))

/-- A text is some lexemes, one after the other, with separators between them. -/
inductive Printed (lexemes : Lexemes) : List Lexeme → List Char → Prop
  | nothing : Printed lexemes [] []
  | last (wellFormed : lexeme.WellFormed lexemes) : Printed lexemes [lexeme] lexeme.text
  | before (wellFormed : lexeme.WellFormed lexemes) {separator : Separator}
      (separates : separator.WellFormed) (rest : Printed lexemes (second :: later) text) :
      Printed lexemes (lexeme :: second :: later) (lexeme.text ++ (separator.text ++ text))

/-- What follows a lexeme keeps clear of it: nothing, or a blank. -/
def Apart (rest : List Char) : Prop := ∀ c ∈ rest.head?, isBlank c = true

/-- How a text is scanned from a place on: blanks are skipped, comments are left out, lexemes make
tokens. -/
inductive Course (lexemes : Lexemes) : List Char → List Lexeme → Prop
  | done (blank : ∀ c ∈ blanks, isBlank c = true) : Course lexemes blanks []
  | block (blank : ∀ c ∈ blanks, isBlank c = true) (closed : ¬ ['*', '/'] <:+: body)
      (rest : Course lexemes text printed) :
      Course lexemes (blanks ++ (['/', '*'] ++ (body ++ (['*', '/'] ++ text)))) printed
  | line (blank : ∀ c ∈ blanks, isBlank c = true) (single : '\n' ∉ body)
      (rest : Course lexemes ('\n' :: text) printed) :
      Course lexemes (blanks ++ (['/', '/'] ++ (body ++ ('\n' :: text)))) printed
  | lexeme (blank : ∀ c ∈ blanks, isBlank c = true) (wellFormed : lexeme.WellFormed lexemes)
      (apart : Apart text) (rest : Course lexemes text printed) :
      Course lexemes (blanks ++ (lexeme.text ++ text)) (lexeme :: printed)

variable {lexemes : Lexemes} {text : List Char} {printed : List Lexeme} {reader : Reader}

section Separators

/-- Blanks in front change nothing. -/
theorem Course.blanks (course : Course lexemes text printed) (front : List Char)
    (blank : ∀ c ∈ front, isBlank c = true) : Course lexemes (front ++ text) printed := by
  have joined {blanks : List Char} (more : ∀ c ∈ blanks, isBlank c = true) :
      ∀ c ∈ front ++ blanks, isBlank c = true :=
    List.forall_mem_append.mpr ⟨blank, more⟩
  cases course with
  | done more => exact .done (joined more)
  | block more closed rest =>
      rw [← List.append_assoc]
      exact .block (joined more) closed rest
  | line more single rest =>
      rw [← List.append_assoc]
      exact .line (joined more) single rest
  | lexeme more wellFormed apart rest =>
      rw [← List.append_assoc]
      exact .lexeme (joined more) wellFormed apart rest

theorem Course.filler (course : Course lexemes text printed) {filler : Filler}
    (wellFormed : filler.WellFormed) :
    Course lexemes (filler.text ++ text) printed := by
  cases filler with
  | blank c => exact course.blanks [c] (by simpa [Filler.WellFormed] using wellFormed)
  | block body =>
      have left : Course lexemes ([] ++ _) printed := .block (by simp) wellFormed course
      simpa [Filler.text] using left
  | line body =>
      have ended : Course lexemes ('\n' :: text) printed := course.blanks ['\n'] (by decide)
      have left : Course lexemes ([] ++ _) printed := .line (by simp) wellFormed ended
      simpa [Filler.text] using left

theorem Course.separator (course : Course lexemes text printed) {separator : Separator}
    (wellFormed : separator.WellFormed) : Course lexemes (separator.text ++ text) printed := by
  obtain ⟨blank, each⟩ := wellFormed
  have fillers : ∀ fillers : List Filler, (∀ filler ∈ fillers, filler.WellFormed) →
      Course lexemes (fillers.flatMap Filler.text ++ text) printed := by
    intro fillers each
    induction fillers with
    | nil => exact course
    | cons filler rest ih =>
        rw [List.flatMap_cons, List.append_assoc]
        exact (ih fun other held => each other (by simp [held])).filler (each filler (by simp))
  exact (fillers separator.fillers each).blanks [separator.blank] (by simpa using blank)

theorem Printed.course (spells : Printed lexemes printed text) : Course lexemes text printed := by
  induction spells with
  | nothing => exact .done (by simp)
  | @last lexeme wellFormed =>
      have ended : Course lexemes [] [] := .done (by simp)
      have alone : Course lexemes ([] ++ (lexeme.text ++ [])) [lexeme] :=
        .lexeme (by simp) wellFormed (by simp [Apart]) ended
      simpa using alone
  | @before second later text lexeme wellFormed separator separates rest ih =>
      have apart : Apart (separator.text ++ text) := by
        simpa [Apart, Separator.text] using separates.blank
      have whole : Course lexemes ([] ++ (lexeme.text ++ (separator.text ++ text)))
          (lexeme :: second :: later) :=
        .lexeme (by simp) wellFormed apart (ih.separator separates)
      exact whole

end Separators

section Widths

/-- A run of characters after which a blank comes, or nothing. -/
theorem takeWhile_apart {holds : Char → Bool} {run rest : List Char}
    (each : ∀ c ∈ run, holds c = true) (apart : Apart rest)
    (other : ∀ c, isBlank c = true → holds c = false) : (run ++ rest).takeWhile holds = run :=
  takeWhile_append_of_all each fun c here => other c (apart c here)

theorem numberWidth_text {whole : List Char} {fraction : Option (List Char)}
    (wellFormed : (Lexeme.number whole fraction).WellFormed lexemes) {rest : List Char}
    (apart : Apart rest) :
    numberWidth ((Lexeme.number whole fraction).text ++ rest) =
      (Lexeme.number whole fraction).text.length := by
  obtain ⟨⟨_, digits⟩, places⟩ := wellFormed
  have blank (c : Char) (blank : isBlank c = true) : isPlainDigit c = false :=
    (blank_plain blank).2.1
  cases fraction with
  | none =>
      have run : (whole ++ rest).takeWhile isPlainDigit = whole :=
        takeWhile_apart digits apart blank
      simp only [Lexeme.text, Option.elim_none, List.append_nil, numberWidth, run, List.drop_left]
      cases rest with
      | nil => rfl
      | cons c rest =>
          have point : (c == '.') = false := by simpa using (blank_plain (apart c rfl)).2.2.1
          simp [point]
  | some part =>
      obtain ⟨some, each⟩ := places part rfl
      have run : (whole ++ ('.' :: (part ++ rest))).takeWhile isPlainDigit = whole :=
        takeWhile_append_of_all digits (by simp; decide)
      have more : (part ++ rest).takeWhile isPlainDigit = part := takeWhile_apart each apart blank
      have wide : part.length ≠ 0 := by simpa using some
      simp only [Lexeme.text, Option.elim_some, List.append_assoc, List.cons_append, numberWidth,
        run, List.drop_left, more]
      simp [wide]
      omega

theorem stringContent?_stroke {mark : Char} (quote : mark = '\'' ∨ mark = '"') {stroke : Stroke}
    (fits : stroke.Fits mark) (rest : List Char) : stringContent? mark (stroke.text ++ rest) =
      (stringContent? mark rest).map fun part =>
        (stroke.char :: part.1, part.2 + stroke.text.length) := by
  have slash : '\\' ≠ mark := (ne_of_quote quote (by decide)).symm
  obtain ⟨escaped, c⟩ := stroke
  cases escaped with
  | true => simp [Stroke.text, stringContent?, slash]
  | false =>
      have alone : c ∉ ['\\', mark, '\r', '\n'] := fits rfl
      simp only [List.mem_cons, List.not_mem_nil, or_false, not_or] at alone
      cases rest with
      | nil => simp [Stroke.text, stringContent?, alone]
      | cons next rest => simp [Stroke.text, stringContent?, alone]

theorem stringContent?_strokes {mark : Char} (quote : mark = '\'' ∨ mark = '"')
    {strokes : List Stroke} (fits : ∀ stroke ∈ strokes, stroke.Fits mark) (rest : List Char) :
    stringContent? mark (strokes.flatMap Stroke.text ++ rest) =
      (stringContent? mark rest).map fun part =>
        (strokes.map Stroke.char ++ part.1, part.2 + (strokes.flatMap Stroke.text).length) :=
  Stroke.read_strokes (fun _ fits => stringContent?_stroke quote fits) fits rest

theorem stringContent?_text {mark : Char} {strokes : List Stroke} (quote : mark = '\'' ∨ mark = '"')
    (fits : ∀ stroke ∈ strokes, stroke.Fits mark) (rest : List Char) :
    stringContent? mark (strokes.flatMap Stroke.text ++ mark :: rest) =
      some (strokes.map Stroke.char, (strokes.flatMap Stroke.text).length + 1) := by
  have plain : mark ≠ '\n' ∧ mark ≠ '\r' :=
    ⟨ne_of_quote quote (by decide), ne_of_quote quote (by decide)⟩
  have closed : stringContent? mark (mark :: rest) = some ([], 1) := by
    cases rest <;> simp [stringContent?, plain]
  rw [stringContent?_strokes quote fits, closed, Option.map_some, List.append_nil, Nat.add_comm]

theorem not_prefix_drop {c : Char} {body rest : List Char} (single : c ∉ body) :
    ∀ start < body.length, ¬ [c] <+: (body ++ rest).drop start := by
  rintro start inside ⟨tail, same⟩
  rw [List.drop_append_of_le_length (Nat.le_of_lt inside), List.drop_eq_getElem_cons inside] at same
  obtain ⟨here, _⟩ := List.cons.inj same
  exact single (here ▸ List.getElem_mem inside)

/-- A comment in brackets is closed where it ends, and not before. -/
theorem not_closed_drop {body rest : List Char} (closed : ¬ ['*', '/'] <:+: body) :
    ∀ start < body.length, ¬ ['*', '/'] <+: (body ++ (['*', '/'] ++ rest)).drop start := by
  rintro start inside ⟨tail, same⟩
  rw [List.drop_append_of_le_length (Nat.le_of_lt inside)] at same
  cases left : body.drop start with
  | nil => simp at left; omega
  | cons first more =>
      rw [left] at same
      cases more with
      | nil => simp at same
      | cons second more =>
          simp only [List.cons_append, List.nil_append, List.cons.injEq] at same
          obtain ⟨rfl, rfl, _⟩ := same
          exact closed ((List.infix_iff_prefix_suffix).mpr
            ⟨body.drop start, ⟨more, left.symm⟩, List.drop_suffix _ _⟩)

theorem rest_eq_drop (placed : reader.Placed) {right : Nat} (here : reader.right = right) :
    reader.spot.rest = reader.text.drop right := by
  rw [show reader.spot = _ from placed, here]
  rfl

theorem lineCommentWidth_eq {body rest : List Char} (inside : 0 ≤ reader.right)
    (placed : reader.Placed) (ahead : reader.spot.rest = ['/', '/'] ++ (body ++ '\n' :: rest))
    (single : '\n' ∉ body) :
    lineCommentWidth reader = (body.length + 2 : Nat) := by
  obtain ⟨right, here⟩ := Int.eq_ofNat_of_zero_le inside
  rw [rest_eq_drop placed here] at ahead
  have within : right ≤ reader.text.length := by
    have length := congrArg List.length ahead
    simp only [List.length_drop, List.length_append, List.length_cons] at length
    omega
  have found : findIn? ['\n'] ((['/', '/'] ++ body) ++ (['\n'] ++ rest)) =
      some (['/', '/'] ++ body).length :=
    findIn?_append (by simp) (not_prefix_drop (by simpa using single))
  have found : findIn? ['\n'] (reader.text.drop right) = some (body.length + 2) := by
    simpa [ahead] using found
  simp only [lineCommentWidth, here, findFrom?_natCast within, found, Option.map_some,
    Option.getD_some]
  omega

theorem blockCommentWidth?_eq {body rest : List Char} (inside : 0 ≤ reader.right)
    (placed : reader.Placed)
    (ahead : reader.spot.rest = ['/', '*'] ++ (body ++ (['*', '/'] ++ rest)))
    (closed : ¬ ['*', '/'] <:+: body) :
    blockCommentWidth? reader = some ((body.length + 4 : Nat) : Int) := by
  obtain ⟨right, here⟩ := Int.eq_ofNat_of_zero_le inside
  rw [rest_eq_drop placed here] at ahead
  have within : right + 2 ≤ reader.text.length := by
    have length := congrArg List.length ahead
    simp only [List.length_drop, List.length_append, List.length_cons] at length
    omega
  have behind : reader.text.drop (right + 2) = body ++ (['*', '/'] ++ rest) := by
    rw [← List.drop_drop, ahead]
    rfl
  have found : findIn? ['*', '/'] (reader.text.drop (right + 2)) = some body.length := by
    rw [behind]
    exact findIn?_append (by simp) (not_closed_drop closed)
  have start : reader.right + 2 = ((right + 2 : Nat) : Int) := by omega
  rw [blockCommentWidth?, start, findFrom?_natCast within, found, here]
  change some (((body.length + (right + 2) : Nat) : Int) + 2 - right) = _
  congr 1
  omega

end Widths

section Next

/-- A reader stands at a place in its text, with so much ahead of it. -/
structure Stands (reader : Reader) (rest : List Char) : Prop where
  inside : 0 ≤ reader.right
  placed : reader.Placed
  ahead : reader.spot.rest = rest

theorem Stands.hasMore {rest : List Char} (stands : Stands reader rest) :
    reader.hasMore = !rest.isEmpty := by
  have more := Reader.hasMore_iff stands.inside
  rw [stands.ahead] at more
  cases rest <;> simp_all

theorem Stands.skip {taken rest : List Char} (stands : Stands reader (taken ++ rest)) :
    Stands (reader.skip taken.length) rest ∧
      (reader.skip taken.length).spot.remaining = reader.spot.remaining - taken.length := by
  have inside := stands.inside
  obtain ⟨right, spot⟩ := Reader.skip_natCast inside taken.length
  refine ⟨⟨by omega, Reader.skip_placed stands.placed _, ?_⟩, by rw [spot, Spot.advance_remaining]⟩
  rw [spot, Spot.advance_rest, stands.ahead, List.drop_left]

/-- The reader behind the blanks that come first. -/
def landed (reader : Reader) (blanks : List Char) : Reader :=
  if blanks.length == 0 then reader else reader.skip blanks.length

theorem Stands.land {blanks rest : List Char} (stands : Stands reader (blanks ++ rest)) :
    Stands (landed reader blanks) rest ∧
      (landed reader blanks).spot.remaining ≤ reader.spot.remaining := by
  cases blanks with
  | nil => exact ⟨stands, Nat.le_refl _⟩
  | cons first blanks =>
      obtain ⟨standsToo, remaining⟩ := stands.skip
      exact ⟨standsToo, Nat.le_trans (Nat.le_of_eq remaining) (Nat.sub_le _ _)⟩

/-- Behind blanks, where nothing is left, the text ends. -/
theorem Stands.next_done {blanks : List Char} (stands : Stands reader blanks)
    (blank : ∀ c ∈ blanks, isBlank c = true) :
    ∃ token after, lexemes.next reader = (.ok token, after) ∧ token.face = .finish := by
  rw [← List.append_nil blanks] at stands
  obtain ⟨behind, _⟩ := stands.land
  have run : (blanks ++ []).takeWhile isBlank = blanks := takeWhile_append_of_all blank (by simp)
  have upcoming : reader.upcoming? = some (blanks ++ []) := by
    simp [Reader.upcoming?, stands.inside, stands.ahead]
  have ended : (if blanks.length == 0 then reader else reader.skip blanks.length).hasMore = false :=
    behind.hasMore
  unfold Lexemes.next
  split
  · exact ⟨_, _, rfl, rfl⟩
  · simp only [upcoming, run, ended, Bool.not_false, if_true]
    exact ⟨_, _, rfl, rfl⟩

/-- Where a text stands ahead, its front is recognized, as a token of this kind and with this
meaning. -/
def Reads (lexemes : Lexemes) (taken rest : List Char) (face : Face) : Prop :=
  ∀ reader, Stands reader (taken ++ rest) → ∃ kind text,
    lexemes.recognize reader (taken ++ rest) = .ok (kind, taken.length, text) ∧
    (some kind, text.getD (.ofChars taken)) = face

/-- Behind blanks, what is recognized is read, and scanning goes on behind it. -/
theorem Stands.next_ok {blanks taken rest : List Char}
    (stands : Stands reader (blanks ++ (taken ++ rest))) (blank : ∀ c ∈ blanks, isBlank c = true)
    (solid : ∃ c ∈ taken.head?, isBlank c = false) {face : Face}
    (reads : lexemes.Reads taken rest face) :
    ∃ token after, lexemes.next reader = (.ok token, after) ∧ token.face = face ∧
      Stands after rest ∧ after.spot.remaining < reader.spot.remaining := by
  obtain ⟨here, nearer⟩ := stands.land
  obtain ⟨behind, remaining⟩ := here.skip
  obtain ⟨kind, text, recognized, same⟩ := reads _ here
  obtain ⟨first, front, solid⟩ := solid
  have wide : taken ≠ [] := by rintro rfl; cases front
  have run : (blanks ++ (taken ++ rest)).takeWhile isBlank = blanks := by
    refine takeWhile_append_of_all blank fun c ahead => ?_
    rw [List.head?_append, front] at ahead
    cases ahead
    exact solid
  have upcoming : reader.upcoming? = some (blanks ++ (taken ++ rest)) := by
    simp [Reader.upcoming?, stands.inside, stands.ahead]
  have more : reader.hasMore = true := by simp [stands.hasMore, wide]
  have moreHere : (landed reader blanks).hasMore = true := by simp [here.hasMore, wide]
  have taking : (landed reader blanks).spot.rest.take taken.length = taken := by
    rw [here.ahead, List.take_left]
  have shorter : (landed reader blanks).spot.remaining - taken.length < reader.spot.remaining := by
    have counted := (landed reader blanks).spot.counted
    have length := congrArg List.length here.ahead
    have long := List.length_pos_iff.mpr wide
    simp only [List.length_append] at length
    omega
  have emitted := Reader.emit_natCast here.inside (some kind) taken.length text
  rw [taking] at emitted
  have next : lexemes.next reader =
      (.ok { kind := some kind, text := text.getD (.ofChars taken),
             position := (landed reader blanks).here },
        (landed reader blanks).skip taken.length) := by
    rw [Lexemes.next, if_neg (by simp [more])]
    simp only [upcoming, run, List.drop_left]
    rw [show (if blanks.length == 0 then reader else reader.skip blanks.length) =
      landed reader blanks from rfl, if_neg (by simp [moreHere])]
    simp only [recognized, emitted]
  exact ⟨_, _, next, same, behind, by rw [remaining]; exact shorter⟩

end Next

section Recognition

variable {rest : List Char}

theorem reads_line {body : List Char} (single : '\n' ∉ body) :
    lexemes.Reads ('/' :: '/' :: body) ('\n' :: rest)
      (some .comment, .ofChars ('/' :: '/' :: body)) := by
  intro reader stands
  have width := lineCommentWidth_eq stands.inside stands.placed stands.ahead single
  exact ⟨.comment, none, by simp [recognize, width]; omega, rfl⟩

theorem reads_block {body : List Char} (closed : ¬ ['*', '/'] <:+: body) :
    lexemes.Reads ('/' :: '*' :: (body ++ ['*', '/'])) rest
      (some .comment, .ofChars ('/' :: '*' :: (body ++ ['*', '/']))) := by
  intro reader stands
  have ahead : reader.spot.rest = ['/', '*'] ++ (body ++ (['*', '/'] ++ rest)) := by
    simpa using stands.ahead
  have width := blockCommentWidth?_eq stands.inside stands.placed ahead closed
  exact ⟨.comment, none, by simp [recognize, width]; omega, rfl⟩

/-- A character that is part of a word is neither an operator nor a slash. -/
theorem Clear.not_operator (clear : lexemes.Clear) {c : Char}
    (plain : continuesPlainWord c = true) :
    c ∉ lexemes.operators ∧ c ≠ '/' := by
  refine ⟨fun held => ?_, ?_⟩
  · simp [(clear c held).2.1] at plain
  · rintro rfl
    revert plain
    decide

theorem Stands.passing {taken : List Char} (stands : Stands reader (taken ++ rest)) :
    reader.passing taken.length = taken := by
  have ahead : reader.goesAhead taken.length = true := by simp [Reader.goesAhead, stands.inside]
  rw [Reader.passing, if_pos ahead, stands.ahead, Int.toNat_natCast, List.take_left]

theorem reads_word (clear : lexemes.Clear) {first : Char} {more : List Char}
    (wellFormed : (Lexeme.word first more).WellFormed lexemes) (apart : Apart rest) :
    lexemes.Reads (first :: more) rest ((Lexeme.word first more).face lexemes) := by
  intro reader stands
  obtain ⟨starts, each⟩ := wellFormed
  obtain ⟨operator, slash⟩ := clear.not_operator (c := first) (by simp [continuesPlainWord, starts])
  have number := not_isPlainDigit_of_startsPlainWord starts
  have run : (more ++ rest).takeWhile continuesPlainWord = more :=
    takeWhile_apart each apart fun c blank => (blank_plain blank).1
  have passing := stands.passing
  rw [List.length_cons, Nat.add_comm] at passing
  refine ⟨_, none, ?_, rfl⟩
  have slash : (first == '/') = false := by simpa using slash
  have operator : lexemes.operators.contains first = false := by simpa using operator
  simp only [recognize, List.cons_append, slash, operator, number, starts, run, passing,
    Bool.false_and, Bool.false_eq_true, if_false, if_true]
  rw [Nat.add_comm, List.length_cons]

theorem reads_number (clear : lexemes.Clear) {whole : List Char} {fraction : Option (List Char)}
    (wellFormed : (Lexeme.number whole fraction).WellFormed lexemes) (apart : Apart rest) :
    lexemes.Reads (Lexeme.number whole fraction).text rest
      ((Lexeme.number whole fraction).face lexemes) := by
  intro reader stands
  have width := numberWidth_text wellFormed apart
  obtain ⟨⟨some, digits⟩, _⟩ := wellFormed
  cases whole with
  | nil => exact absurd rfl some
  | cons first more =>
      have number : isPlainDigit first = true := digits first (by simp)
      obtain ⟨operator, slash⟩ :=
        clear.not_operator (c := first) (by simp [continuesPlainWord, number])
      refine ⟨.number, none, ?_, rfl⟩
      rw [← width]
      simp [recognize, slash, operator, number, Lexeme.text]

theorem reads_operator {c : Char} (held : c ∈ lexemes.operators) (apart : Apart rest) :
    lexemes.Reads [c] rest (some .operator, .ofChars [c]) := by
  intro reader stands
  have line : rest.head? ≠ some '/' := fun ahead => (blank_plain (apart _ ahead)).2.2.2.1 rfl
  have block : rest.head? ≠ some '*' := fun ahead => (blank_plain (apart _ ahead)).2.2.2.2 rfl
  refine ⟨.operator, none, ?_, rfl⟩
  simp [recognize, line, block, held]

theorem recognize_quote {mark : Char} (quote : mark = '\'' ∨ mark = '"')
    (plain : mark ∉ lexemes.operators) (body : List Char) :
    lexemes.recognize reader (mark :: body) = match stringContent? mark body with
      | some (content, width) => .ok (.string, width + 1, some (.ofChars content))
      | none => .error "string" := by
  have slash : mark ≠ '/' := ne_of_quote quote (by decide)
  have classes : isPlainDigit mark = false ∧ startsPlainWord mark = false := by
    rcases quote with rfl | rfl <;> decide
  cases closed : stringContent? mark body with
  | none => simp [recognize, slash, classes, plain, quote, closed]
  | some part => simp [recognize, slash, classes, plain, quote, closed]

theorem reads_string (clear : lexemes.Clear) {mark : Char} {strokes : List Stroke}
    (wellFormed : (Lexeme.string mark strokes).WellFormed lexemes) :
    lexemes.Reads (Lexeme.string mark strokes).text rest
      ((Lexeme.string mark strokes).face lexemes) := by
  intro reader stands
  obtain ⟨quote, fits⟩ := wellFormed
  have operator : mark ∉ lexemes.operators := fun held => by
    obtain ⟨_, _, single, double⟩ := clear mark held
    exact quote.elim single double
  refine ⟨.string, some (.ofChars (strokes.map Stroke.char)), ?_, rfl⟩
  have whole : (Lexeme.string mark strokes).text ++ rest =
      mark :: (strokes.flatMap Stroke.text ++ mark :: rest) := by
    simp [Lexeme.text]
  rw [whole, recognize_quote quote operator, stringContent?_text quote fits]
  simp [Lexeme.text]

/-- Every lexeme is recognized where nothing follows it, or a blank. -/
theorem reads_lexeme (clear : lexemes.Clear) {lexeme : Lexeme}
    (wellFormed : lexeme.WellFormed lexemes) (apart : Apart rest) :
    lexemes.Reads lexeme.text rest (lexeme.face lexemes) := by
  cases lexeme with
  | word first more => exact reads_word clear wellFormed apart
  | number whole fraction => exact reads_number clear wellFormed apart
  | operator c => exact reads_operator wellFormed apart
  | string mark strokes => exact reads_string clear wellFormed

end Recognition

section Run

theorem Clear.solid (clear : lexemes.Clear) {lexeme : Lexeme}
    (wellFormed : lexeme.WellFormed lexemes) :
    ∃ c ∈ lexeme.text.head?, isBlank c = false := by
  cases lexeme with
  | word first more => exact ⟨first, rfl, isBlank_of_startsPlainWord wellFormed.1⟩
  | number whole fraction =>
      obtain ⟨⟨some, digits⟩, _⟩ := wellFormed
      cases whole with
      | nil => exact absurd rfl some
      | cons first more =>
          refine ⟨first, rfl, ?_⟩
          have digit := isPlainDigit_code (digits first (by simp))
          simp only [isBlank, Bool.or_eq_false_iff, Bool.and_eq_false_iff, decide_eq_false_iff_not,
            beq_eq_false_iff_ne]
          omega
  | operator c => exact ⟨c, rfl, (clear c wellFormed).1⟩
  | string mark strokes => exact ⟨mark, rfl, not_isBlank_of_quote wellFormed.1⟩

/-- What the next token of a printed text is: the end, a comment, or the first of the lexemes. -/
theorem Course.next (clear : lexemes.Clear) (course : Course lexemes text printed)
    (stands : Stands reader text) :
    ∃ token after, lexemes.next reader = (.ok token, after) ∧
      ((token.face = .finish ∧ printed = []) ∨
        (after.spot.remaining < reader.spot.remaining ∧ ∃ rest later,
          Stands after rest ∧ Course lexemes rest later ∧
          ((token.kind = some .comment ∧ printed = later) ∨
            ∃ lexeme, token.face = Lexeme.face lexemes lexeme ∧ printed = lexeme :: later))) := by
  cases course with
  | done blank =>
      obtain ⟨token, after, next, ended⟩ := stands.next_done blank
      exact ⟨token, after, next, .inl ⟨ended, rfl⟩⟩
  | @block blanks body rest _ blank closed later =>
      have ahead : Stands reader (blanks ++ (('/' :: '*' :: (body ++ ['*', '/'])) ++ rest)) := by
        simpa using stands
      obtain ⟨token, after, next, face, behind, shorter⟩ :=
        ahead.next_ok blank ⟨'/', rfl, by decide⟩ (reads_block closed)
      exact ⟨token, after, next,
        .inr ⟨shorter, rest, _, behind, later, .inl ⟨congrArg Prod.fst face, rfl⟩⟩⟩
  | @line blanks body rest _ blank single later =>
      have ahead : Stands reader (blanks ++ (('/' :: '/' :: body) ++ ('\n' :: rest))) := by
        simpa using stands
      obtain ⟨token, after, next, face, behind, shorter⟩ :=
        ahead.next_ok blank ⟨'/', rfl, by decide⟩ (reads_line single)
      exact ⟨token, after, next,
        .inr ⟨shorter, _, _, behind, later, .inl ⟨congrArg Prod.fst face, rfl⟩⟩⟩
  | @lexeme blanks rest printed lexeme blank wellFormed apart later =>
      obtain ⟨token, after, next, face, behind, shorter⟩ :=
        stands.next_ok blank (clear.solid wellFormed) (reads_lexeme clear wellFormed apart)
      exact ⟨token, after, next,
        .inr ⟨shorter, rest, printed, behind, later, .inr ⟨lexeme, face, rfl⟩⟩⟩

end Run

end Lexemes

namespace Scanner

open Lexemes

variable {scanner : Scanner} {lexemes : Lexemes} {text : List Char} {printed : List Lexeme}

theorem scanFrom_course (dialect : scanner.dialect = .lexemes lexemes) (clear : lexemes.Clear)
    (omits : ∀ kind, kind ∈ scanner.omitted ↔ kind = .comment) {reader : Reader} {fuel : Nat}
    (stands : Stands reader text) (course : Course lexemes text printed)
    (enough : reader.spot.remaining < fuel) :
    (scanner.scanFrom fuel reader).error = none ∧
      (scanner.scanFrom fuel reader).tokens.map Token.face =
        printed.map (Lexeme.face lexemes) ++ [.finish] := by
  induction fuel generalizing reader text printed with
  | zero => cases enough
  | succ fuel ih =>
      obtain ⟨token, after, came, made⟩ := course.next clear stands
      have next : scanner.next reader = (.ok token, after) := by
        rw [Scanner.next, dialect]; exact came
      have leavesOut : scanner.omits token = true ↔ token.kind = some .comment := by
        cases kind : token.kind <;> simp [Scanner.omits, kind, omits]
      simp only [scanFrom, next]
      rcases made with ⟨ended, rfl⟩ | ⟨shorter, rest, later, behind, onward, made⟩
      · have kind : token.kind = some .endOfText := congrArg Prod.fst ended
        have kept : ¬ scanner.omits token = true := by simp [leavesOut, kind]
        simp [kept, Token.isEnd, kind, ended]
      · obtain ⟨clean, tokens⟩ := ih behind onward (by omega)
        rcases made with ⟨comment, rfl⟩ | ⟨lexeme, face, rfl⟩
        · simp [leavesOut.mpr comment, clean, tokens]
        · have kind : token.kind = (lexeme.face lexemes).1 := congrArg Prod.fst face
          obtain ⟨noComment, inside⟩ := lexeme.face_kind lexemes
          have kept : ¬ scanner.omits token = true := by simpa [leavesOut, kind] using noComment
          have unmarked : token.isEnd = false := by simpa [Token.isEnd, kind] using inside
          simp [kept, unmarked, clean, tokens, face]

/-- A text printed lexeme by lexeme is scanned as those lexemes and the end of the text. -/
theorem scan_printed (dialect : scanner.dialect = .lexemes lexemes) (clear : lexemes.Clear)
    (omits : ∀ kind, kind ∈ scanner.omitted ↔ kind = .comment)
    (spells : Printed lexemes printed text) :
    (scanner.scan text).error = none ∧
      (scanner.scan text).tokens.map Token.face =
        printed.map (Lexeme.face lexemes) ++ [.finish] := by
  have stands : Stands (.start text) text := ⟨Int.le_refl 0, Reader.start_placed text, rfl⟩
  have enough : text.length < scanner.calls text := by
    rw [Scanner.calls, dialect]
    exact Nat.lt_succ_self _
  exact scanFrom_course dialect clear omits stands spells.course enough

/-- The lexemes of a line, with a comment between them and one behind. -/
theorem standard_scan_printed :
    (standard.scan "let x /**/= // 'no'\n'it\\'s'".toList).error = none ∧
      (standard.scan "let x /**/= // 'no'\n'it\\'s'".toList).tokens.map Token.face =
        [(some .keyword, .ofString "let"), (some .identifier, .ofString "x"),
          (some .operator, .ofString "="), (some .string, .ofString "it's"), Face.finish] := by
  have clear : Lexemes.standard.Clear := by decide +kernel
  have omits (kind : TokenKind) : kind ∈ standard.omitted ↔ kind = .comment := by simp [standard]
  have blank : Separator.WellFormed ⟨' ', []⟩ := ⟨by decide, by decide⟩
  have block : Separator.WellFormed ⟨' ', [.block []]⟩ := ⟨by decide, by decide⟩
  have line : Separator.WellFormed ⟨' ', [.line " 'no'".toList]⟩ := ⟨by decide, by decide⟩
  have word :
      Printed .standard [.string '\'' [⟨false, 'i'⟩, ⟨false, 't'⟩, ⟨true, '\''⟩, ⟨false, 's'⟩]]
      "'it\\'s'".toList := .last (by decide)
  have equal : Printed .standard (.operator '=' :: _) "= // 'no'\n'it\\'s'".toList :=
    .before (by decide) line word
  have name : Printed .standard (.word 'x' [] :: _) "x /**/= // 'no'\n'it\\'s'".toList :=
    .before (by decide) block equal
  have whole :
      Printed .standard (.word 'l' ['e', 't'] :: _) "let x /**/= // 'no'\n'it\\'s'".toList :=
    .before (by decide) blank name
  exact scan_printed rfl clear omits whole

end Scanner

end RecordGrammar
