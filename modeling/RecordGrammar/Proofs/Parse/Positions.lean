import RecordGrammar.Proofs.Parse.Failure
import RecordGrammar.Proofs.Scanner.Tracking

namespace RecordGrammar

open RecordGrammar.Text
open RecordGrammar.Source (SourceText Paired)

/-! What a scanner counts on its way through a text and what the table of its lines tells are the
same place. -/

/-- A position is that of a place in a text, or of its end. -/
def Position.Within (text : List Char) (position : Position) : Prop :=
  ∃ passed ahead, text = passed ++ ahead ∧ position = .behind passed

theorem Position.within_take (text : List Char) (offset : Nat) :
    (Position.behind (text.take offset)).Within text :=
  ⟨_, text.drop offset, (List.take_append_drop offset text).symm, rfl⟩

theorem Position.within_end (text : List Char) : (Position.behind text).Within text :=
  ⟨text, [], (List.append_nil text).symm, rfl⟩

namespace Scanner

/-- The position that a call tells, of a token or of a place where the scanner is stuck. -/
def told? : Except ScanError Token → Option Position
  | .ok token => some token.position
  | .error (.blocked blocked) => some blocked.position
  | .error _ => none

variable {ask : Asking} {text : List Char} {reader : Reader} {offset : Nat}

/-- A call has left the reader in its text, and has told a place of the text. -/
def Stays (text : List Char) (result : Except ScanError Token × Reader) : Prop :=
  (∃ stop, result.2.At text stop) ∧ ∀ position ∈ told? result.1, position.Within text

theorem stays_of_lexemes {lexemes : Lexemes} {result : Except ScanError Token × Reader}
    (gives : Lexemes.Gives lexemes text offset result) : Stays text result := by
  cases gives with
  | finish blank stands left =>
      refine ⟨⟨_, stands⟩, ?_⟩
      intro position told
      cases told
      exact Position.within_end text
  | token blank opens wide unmarked position means stands =>
      refine ⟨⟨_, stands⟩, ?_⟩
      intro other told
      cases told
      rw [position]
      exact Position.within_take text _
  | stuck blank more stuck stands =>
      refine ⟨⟨_, stands⟩, ?_⟩
      intro position told
      cases told
      exact Position.within_take text _

theorem stays_of_table {widths : ScanRule → Spot → Option Nat} {rules : List ScanRule}
    {result : Except ScanError Token × Reader}
    (gives : ScanRule.Gives widths rules text offset result) :
    Stays text result := by
  cases gives with
  | finish cut yields stands =>
      refine ⟨⟨_, stands⟩, ?_⟩
      intro position told
      cases told
      exact Position.within_end text
  | token cut yields further unmarked placed stands =>
      refine ⟨⟨_, stands⟩, ?_⟩
      intro position told
      cases told
      obtain ⟨start, position⟩ := placed
      rw [position]
      exact Position.within_take text start
  | stuck cut yields more idle stands =>
      refine ⟨⟨_, stands⟩, ?_⟩
      intro position told
      cases told
      exact Position.within_take text _

theorem stays_of_looks (looks : Reader.Looks ask) (stands : reader.At text offset) :
    Stays text (ask reader) := by
  cases looks with
  | lexemes lexemes => exact stays_of_lexemes (Lexemes.next_gives lexemes stands)
  | table within => exact stays_of_table (ScanRule.next_gives within stands)

theorem readerAfter_at (looks : Reader.Looks ask) (text : List Char) (count : Nat) :
    ∃ offset, (readerAfter ask text count).At text offset := by
  induction count with
  | zero => exact ⟨0, Reader.start_at text⟩
  | succ count ih =>
      obtain ⟨offset, stands⟩ := ih
      exact (stays_of_looks looks stands).1

theorem answerAfter_within (looks : Reader.Looks ask) (text : List Char) (count : Nat) :
    ∀ position ∈ told? (answerAfter ask text count), position.Within text := by
  obtain ⟨offset, stands⟩ := readerAfter_at looks text count
  exact (stays_of_looks looks stands).2

/-- What a scanner finds is in its text if it gives what calls give that look through the text. -/
theorem scan_within {scanner : Scanner} (looks : Reader.Looks ask)
    (follows : scanner.Follows ask text) {token : Token}
    (held : token ∈ (scanner.scan text).tokens) : token.position.Within text := by
  have scanned :
      token ∈ (scanner.scanFrom (scanner.calls text) (readerAfter scanner.next text 0)).tokens :=
    held
  obtain ⟨count, given⟩ := exists_answer_of_mem scanned
  apply answerAfter_within looks text count
  rw [← follows count, given]
  rfl

end Scanner

namespace Source.SourceText

variable {source : SourceText} {position : Position}

/-- The table of lines has a place of the text where the position says. -/
theorem rowColumn_within (normal : source.lineBreaks = "normal") (first : source.firstLine = 1)
    (paired : Paired source.content) (within : position.Within source.content) :
    source.rowColumn position.index = .ok (position.line, position.column) := by
  obtain ⟨passed, ahead, whole, same⟩ := within
  have found := rowColumn_behind normal whole paired
  rw [first] at found
  rw [same]
  exact found

/-- A place inside the text is in the line and the column that the position says. -/
theorem line_within (source : SourceText) (normal : source.lineBreaks = "normal")
    (first : source.firstLine = 1) (paired : Paired source.content)
    (within : position.Within source.content) (inside : position.index < source.content.length) :
    ∃ line c, source.line position.line = .ok line ∧ itemAt? line position.column = some c ∧
      itemAt? source.content position.index = some c := by
  have found := rowColumn_within normal first paired within
  obtain ⟨passed, ahead, whole, same⟩ := within
  subst same
  have short : passed.length < source.content.length := Int.ofNat_lt.mp inside
  have known : LineBreaks.named? source.lineBreaks = some .normal := by
    rw [normal]
    rfl
  obtain ⟨row, column, line, placed, lined, held⟩ := exists_line_at known short
  have agreed : (((row : Int) + source.firstLine, (column : Int)) : Int × Int) = _ :=
    Except.ok.inj (placed.symm.trans found)
  obtain ⟨rowed, columned⟩ := Prod.mk.inj agreed
  have here : source.content[passed.length]? = some source.content[passed.length] :=
    List.getElem?_eq_getElem short
  refine ⟨line, source.content[passed.length], rowed ▸ lined, ?_, ?_⟩
  · rw [← columned, itemAt?_natCast, held, here]
  · rw [Position.behind, itemAt?_natCast, here]

/-- A complaint begins with the row and the column of the place that it is about. -/
theorem complaint_located {left right row column : Int} {message complaint : String}
    (placed : source.rowColumn left = .ok (row, column))
    (complained : source.complaint left right message = .ok complaint) :
    ∃ shown, complaint = source.located row column message ++ "\n" ++ shown := by
  simp only [SourceText.complaint, placed, bind, Except.bind] at complained
  split at complained
  · cases complained
  · split at complained
    · cases complained
    · cases complained
      exact ⟨_, rfl⟩

def lead (source : SourceText) : String :=
  match source.filename with
  | none => "At"
  | some filename => filename ++ ":"

theorem located_eq (source : SourceText) (position : Position) (message : String) :
    source.located position.line position.column message =
      source.lead ++ " " ++ position.describe ++ ": " ++ message := by
  have gap : " line " = " " ++ "line " := by decide
  unfold located lead Position.describe
  cases source.filename <;> simp only [gap, toString, String.append_assoc]

end Source.SourceText

namespace Registry

variable {registry : Registry} {parser : Parser} {source : SourceText} {stream : TokenStream}
  {failure : ParseFailure}

/-- What is explained is a token of the stream, and the complaint is about the place where it
stands. -/
theorem explainMismatch_ok {cursor : Cursor} {mismatch : Mismatch} {complaint : String}
    (explained : explainMismatch source stream cursor mismatch = .ok (failure, complaint)) :
    ∃ token right, stream.token? cursor.furthest = some token ∧
      failure.position = some token.position ∧
      source.complaint token.position.index right failure.what = .ok complaint := by
  unfold explainMismatch at explained
  split at explained
  · cases explained
  · rename_i token deepest
    dsimp only at explained
    split at explained
    · cases explained
    · rename_i complained
      cases explained
      exact ⟨token, _, deepest, rfl, complained⟩

theorem not_noMatch_of_explainMismatch {cursor : Cursor} {mismatch : Mismatch} :
    explainMismatch source stream cursor mismatch ≠ .error (.noMatch failure) := by
  unfold explainMismatch
  split
  · nofun
  · dsimp only
    split <;> nofun

/-- A parse that finds no match explains it by a token of its stream, and logs the complaint about
that. -/
theorem parse_noMatch_explained
    (failed : (registry.parse parser source).result = .error (.noMatch failure)) :
    ∃ stream cursor mismatch complaint, streamOf (registry.scanFor parser source) = .ok stream ∧
      explainMismatch source stream cursor mismatch = .ok (failure, complaint) ∧
      (registry.parse parser source).log = logLine complaint := by
  obtain ⟨stream, streamed, read⟩ := parse_unmatched failed trivial
  obtain ⟨root, mismatch, next, rooted, attempted, explained⟩ := read_unmatched read trivial
  rcases explained with other | ⟨_, complaint, same, explained⟩
  · exact absurd other not_noMatch_of_explainMismatch
  · cases same
    refine ⟨stream, next.cursor, mismatch, complaint, streamed, explained, ?_⟩
    cases compiled : (registry.compiledFor parser).result with
    | error fault =>
        rw [parse_eq, compiled] at failed
        cases failed
        exact absurd trivial (spares_compile _ _ _ compiled)
    | ok done =>
        rw [parse_eq, compiled]
        simp only [streamed, Registry.read, rooted, attempted, conclude, explained]

theorem mem_of_streamOf {scan : Scanner.Scan} {place : Nat} {token : Token}
    (streamed : streamOf scan = .ok stream) (found : stream.token? place = some token) :
    token ∈ scan.tokens := by
  have listed : stream.tokens = scan.tokens.toArray := by
    unfold streamOf at streamed
    split at streamed
    · cases streamed
    · rename_i ended
      cases streamed
      unfold TokenStream.ofList? at ended
      split at ended
      · cases ended
      · split at ended
        · cases ended
          rfl
        · cases ended
    · cases streamed
  rw [TokenStream.token?, listed, ← Array.getElem?_toList] at found
  exact List.mem_of_getElem? found

/-- Where every carriage return belongs to a line feed, the two ways to tell a place agree, for
lexemes and for a table of rules, however these match. The table of lines has every position that a
call for the next token tells in the line and the column that the position says, and the character
there is the one at the index of the position. So a complaint about a text that does not match names
the line and the column that the failure names. -/
theorem positions_agree {text : List Char} (paired : Paired text) {ask : Asking}
    (looks : Reader.Looks ask) :
    (∀ count, ∀ position ∈ Scanner.told? (answerAfter ask text count),
      SourceText.rowColumn { content := text } position.index =
        .ok (position.line, position.column) ∧
      (position.index < text.length →
        ∃ line c, SourceText.line { content := text } position.line = .ok line ∧
          itemAt? line position.column = some c ∧ itemAt? text position.index = some c)) ∧
    ∀ (registry : Registry) (parser : Parser) (filename : Option String) (failure : ParseFailure),
      ((registry.scannerFor parser).1.scanner (registry.scannerFor parser).2).Follows ask text →
      (registry.parse parser { content := text, filename }).result = .error (.noMatch failure) →
        ∃ position picture, failure.position = some position ∧
          failure.message = failure.what ++ " at " ++ position.describe ∧
          (registry.parse parser { content := text, filename }).log =
            filename.elim "At" (· ++ ":") ++ " " ++ position.describe ++ ": " ++ failure.what ++
            "\n" ++ picture ++ "\n" := by
  constructor
  · intro count position told
    have within := Scanner.answerAfter_within looks text count position told
    let source : SourceText := { content := text }
    have placed : source.rowColumn position.index = .ok (position.line, position.column) :=
      SourceText.rowColumn_within rfl rfl paired within
    exact ⟨placed, fun inside => source.line_within rfl rfl paired within inside⟩
  · intro registry parser filename failure follows failed
    obtain ⟨stream, cursor, mismatch, complaint, streamed, explained, logged⟩ :=
      parse_noMatch_explained failed
    obtain ⟨token, right, found, position, complained⟩ := explainMismatch_ok explained
    have within : token.position.Within text :=
      Scanner.scan_within looks follows (mem_of_streamOf streamed found)
    let source : SourceText := { content := text, filename }
    have placed :
        source.rowColumn token.position.index = .ok (token.position.line, token.position.column) :=
      SourceText.rowColumn_within rfl rfl paired within
    obtain ⟨picture, shown⟩ := SourceText.complaint_located placed complained
    refine ⟨token.position, picture, position, ?_, ?_⟩
    · rw [ParseFailure.message, position]
    · rw [logged, logLine, shown, SourceText.located_eq]
      cases filename <;> rfl

end Registry

namespace Nest

def below : Position where
  line := 2
  column := 1
  index := 3

def unopenedBelow : ParseFailure where
  position := some below
  token := some { position := below, kind := some .operator, text := .ofString ")" }
  what := "Unexpected token ')'; expected '(' or end of text"

/-- A blank is skipped, and any other sign is one behind a space. -/
def behindSpace (rule : ScanRule) (spot : Spot) : Option Nat :=
  match spot.rest with
  | [] => none
  | c :: _ =>
      if (if rule.kind.isNone then isBlank c else spot.last == some ' ') then some 1 else none

def signs : List ScanRule :=
  [.ignore (.one (.ofList [])) 1, .token "Sign" (.one (.ofList [])) (some .operator) 0]

theorem behindSpace_within : ScanRule.Within behindSpace signs := by
  intro rule _ spot width matched
  unfold behindSpace at matched
  split at matched
  · cases matched
  · rename_i c rest ahead
    rw [ahead, List.length_cons]
    simp only [Option.ite_none_right_eq_some, Option.some.injEq] at matched
    omega

/-- The same shape, with a scanner that looks behind itself. -/
def lookingBehind : Registry :=
  { registry with
    scanners :=
      [{ scanner := .answering (fun reader => ScanRule.next signs reader behindSpace)
          fun text => text.length + 1 }] }

/-- The failure of a parse whose text does not match. -/
def unmatched? : Except Fault Value → Option ParseFailure
  | .error (.noMatch failure) => some failure
  | _ => none

theorem eq_of_unmatched? {result : Except Fault Value} {failure : ParseFailure}
    (unmatched : unmatched? result = some failure) : result = .error (.noMatch failure) := by
  unfold unmatched? at unmatched
  split at unmatched
  · cases unmatched
    rfl
  · cases unmatched

theorem below_positions_agree :
    ∃ text : List Char, Paired text ∧ Reader.Looks Scanner.standard.next ∧
      below ∈ Scanner.told? (answerAfter Scanner.standard.next text 0) ∧
      SourceText.rowColumn { content := text } 3 = .ok (2, 1) ∧ 3 < text.length ∧
      (∃ line c, SourceText.line { content := text } 2 = .ok line ∧ itemAt? line 1 = some c ∧
        itemAt? text 3 = some c) ∧
      (registry.parse { shape := 0 } { content := text }).result = .error (.noMatch unopenedBelow) ∧
      (∃ picture, (registry.parse { shape := 0 } { content := text }).log =
        "At line 2, column 2: Unexpected token ')'; expected '(' or end of text\n" ++
        picture ++ "\n") ∧
      Reader.Looks (fun reader => ScanRule.next signs reader behindSpace) ∧
      (lookingBehind.parse { shape := 0, scanner := some 0 } { content := text }).result =
        .error (.noMatch unopenedBelow) ∧
      ∃ picture, (lookingBehind.parse { shape := 0, scanner := some 0 } { content := text }).log =
        "At line 2, column 2: Unexpected token ')'; expected '(' or end of text\n" ++
        picture ++ "\n" := by
  have paired : Paired ['\r', '\n', ' ', ')'] := by decide
  have looks := Reader.looks_next Scanner.standard_byReader
  have told : Scanner.told? (answerAfter Scanner.standard.next ['\r', '\n', ' ', ')'] 0) =
      some below := by cbv
  have failed : (registry.parse { shape := 0 } { content := ['\r', '\n', ' ', ')'] }).result =
      .error (.noMatch unopenedBelow) :=
    eq_of_unmatched? (by decide +kernel)
  have failedToo : (lookingBehind.parse { shape := 0, scanner := some 0 }
      { content := ['\r', '\n', ' ', ')'] }).result = .error (.noMatch unopenedBelow) :=
    eq_of_unmatched? (by decide +kernel)
  obtain ⟨scanned, explained⟩ := Registry.positions_agree paired looks
  obtain ⟨placed, lined⟩ := scanned 0 below told
  obtain ⟨position, picture, same, _, logged⟩ :=
    explained registry { shape := 0 } none unopenedBelow (fun _ => rfl) failed
  have looksBehind : Reader.Looks (fun reader => ScanRule.next signs reader behindSpace) :=
    .table behindSpace_within
  obtain ⟨positionToo, pictureToo, sameToo, _, loggedToo⟩ :=
    (Registry.positions_agree paired looksBehind).2 lookingBehind
      { shape := 0, scanner := some 0 } none unopenedBelow (Scanner.answering_follows _ _ _) failedToo
  cases same
  cases sameToo
  refine ⟨_, paired, looks, told, placed, by decide, lined (by decide), failed, ⟨picture, ?_⟩,
    looksBehind, failedToo, pictureToo, ?_⟩
  · rw [logged]
    congr 2
  · rw [loggedToo]
    congr 2

end Nest

end RecordGrammar
