import RecordGrammar.Proofs.Match.Attributes
import RecordGrammar.Proofs.Match.Verdicts
import RecordGrammar.Proofs.Parse.Decision
import RecordGrammar.Proofs.Source.Places
import RecordGrammar.Proofs.Worked.Numerals

namespace RecordGrammar.Worked.Ini

open RecordGrammar.Text
open RecordGrammar.Decimal (Written digitLimit)

/-! Settings files are just what their tokens spell: sections in brackets, each with keys and
values. -/

/-- A value as it is written: a number, or any other word. -/
inductive Setting where
  | number (written : Written) (wellFormed : written.WellFormed)
  | word (text : Wording)

namespace Setting

def face : Setting → Face
  | .number written _ => (some .number, .ofChars written.text)
  | .word text => (some .string, text)

def value : Setting → Value
  | .number written _ => written.value
  | .word text => .text text

def Short : Setting → Prop
  | .number written _ => written.Short
  | .word _ => True

end Setting

/-- A bracket or an equals sign. -/
def sign (text : String) : Face := (some .operator, .ofString text)

/-- A key with its value. -/
structure Line where
  key : Wording
  setting : Setting

namespace Line

def faces (line : Line) : List Face := [(some .string, line.key), sign "=", line.setting.face]

def bindings (line : Line) : List Binding :=
  [.assign "key" (.text line.key), .assign "value" line.setting.value]

def record (line : Line) : Value :=
  .entity (.record 0) "Entry" none [("key", .text line.key), ("value", line.setting.value)]

end Line

/-- A title with its lines. -/
structure Part where
  title : Wording
  lines : List Line

namespace Part

def faces (part : Part) : List Face :=
  [sign "[", (some .string, part.title), sign "]"] ++ part.lines.flatMap Line.faces

def bindings (part : Part) : List Binding :=
  .assign "title" (.text part.title) :: part.lines.map fun line => .append "entries" line.record

def record (part : Part) : Value :=
  .entity (.record 1) "Section" none
    [("title", .text part.title), ("entries", .list (part.lines.map Line.record))]

end Part

/-- A whole file: its parts, from the first to the last. -/
structure File where
  parts : List Part

namespace File

def faces (file : File) : List Face := file.parts.flatMap Part.faces

def bindings (file : File) : List Binding :=
  file.parts.map fun part => .append "sections" part.record

def record (file : File) : Value :=
  .entity (.record 2) "IniFile" none [("sections", .list (file.parts.map Part.record))]

end File

section Trees

def keyField : Field := { name := "key", rule := "@String '='" }

def settingField : Field := { name := "value", rule := "(@Number | @String)", kind := .scalar }

def titleField : Field := { name := "title", rule := "'[' @String ']'" }

def entriesField : Field :=
  { name := "entries", rule := "(@@)*", kind := .nested, element := some (.named "Entry"),
    many := true }

def sectionsField : Field :=
  { name := "sections", rule := "(@@)*", kind := .nested, element := some (.named "Section"),
    many := true }

def settingTree : Tree :=
  .alternation
    [.leaf (.captureKind (some .number) "Number" settingField),
     .leaf (.captureKind (some .string) "String" settingField)]

def entryTree : Tree :=
  .sequence [.leaf (.captureKind (some .string) "String" keyField), .leaf (.literal "=" keyField),
    settingTree]

def sectionTree : Tree :=
  .sequence
    [.leaf (.literal "[" titleField), .leaf (.captureKind (some .string) "String" titleField),
     .leaf (.literal "]" titleField),
     .repetition (.reference (.named "Entry") entriesField) .optionalOrMore]

def fileTree : Tree := .repetition (.reference (.named "Section") sectionsField) .optionalOrMore

/-- What references stand for in the rules of settings files. -/
def env : Environment := registry.environment scanner.kinds

set_option maxRecDepth 10000 in
theorem root_entry : env.root 0 = .ok entryTree := by cbv

set_option maxRecDepth 10000 in
theorem root_section : env.root 1 = .ok sectionTree := by cbv

set_option maxRecDepth 10000 in
theorem root_file : env.root 2 = .ok fileTree := by cbv

theorem fresh_entry :
    env.fresh 0 = .ok (.entity (.record 0) "Entry" none [("key", .null), ("value", .null)]) := rfl

theorem fresh_section :
    env.fresh 1 =
      .ok (.entity (.record 1) "Section" none [("title", .null), ("entries", .list [])]) := rfl

theorem fresh_file :
    env.fresh 2 = .ok (.entity (.record 2) "IniFile" none [("sections", .list [])]) := rfl

theorem resolve_entry {site : Site} (owned : site.owner = some 1) :
    env.resolve site (.named "Entry") = .ok 0 := by
  obtain ⟨owner, slot⟩ := site
  cases owned
  rw [show env.resolve = registry.resolve from rfl]
  cbv

theorem resolve_section {site : Site} (owned : site.owner = some 2) :
    env.resolve site (.named "Section") = .ok 1 := by
  obtain ⟨owner, slot⟩ := site
  cases owned
  rw [show env.resolve = registry.resolve from rfl]
  cbv

end Trees

/-- A token has a face. -/
def Shows (face : Face) (token : Token) : Prop := token.face = face

section Spelled

variable {stream : TokenStream} {site : Site} {place stop : Nat} {bindings : List Binding}

theorem Shows.kind {kind : Option TokenKind} {text : Wording} {token : Token}
    (shows : Shows (kind, text) token) :
    token.kind = kind := congrArg Prod.fst shows

theorem Shows.text {kind : Option TokenKind} {text : Wording} {token : Token}
    (shows : Shows (kind, text) token) :
    token.text = text := congrArg Prod.snd shows

theorem Setting.takes (setting : Setting) (short : setting.Short)
    (spells : stream.Spells Shows place [setting.face]) :
    Derives env stream site settingTree place
      (.success (place + 1) [.assign "value" setting.value]) := by
  obtain ⟨⟨token, here, unmarked, shows⟩, _⟩ := spells
  cases setting with
  | number written wellFormed =>
      refine .choiceTakes
        (Derives.captureKind_iff.mpr ⟨token, _, here, unmarked, shows.kind, ?_, rfl, rfl⟩)
      rw [shows.kind, shows.text]
      exact ValueKind.toScalar_written wellFormed short
  | word text =>
      have other : ∀ next, stream.token? place = some next → next.isEnd = false →
          next.kind ≠ some .number := by
        intro next also _
        cases here.symm.trans also
        rw [shows.kind]
        decide
      refine .choiceSkips (Derives.captureKind_fails other)
        (.choiceTakes
          (Derives.captureKind_iff.mpr ⟨token, _, here, unmarked, shows.kind, ?_, rfl, rfl⟩))
      rw [shows.kind, shows.text]
      rfl

theorem Line.takes (line : Line) (short : line.setting.Short)
    (spells : stream.Spells Shows place line.faces) :
    Derives env stream site entryTree place (.success (place + 3) line.bindings) := by
  obtain ⟨⟨key, keyHere, keyUnmarked, keyShows⟩, ⟨equals, equalsHere, equalsUnmarked, equalsShows⟩,
    settingSpells⟩ := spells
  have first : Derives env stream site (.leaf (.captureKind (some .string) "String" keyField)) place
      (.success (place + 1) [.assign "key" (.text line.key)]) :=
    Derives.captureKind_iff.mpr
      ⟨key, _, keyHere, keyUnmarked, keyShows.kind, by rw [keyShows.text]; rfl, rfl, rfl⟩
  have second (site : Site) : Derives env stream site (.leaf (.literal "=" keyField)) (place + 1)
      (.success (place + 2) []) :=
    Derives.literal_iff.mpr ⟨equals, equalsHere, equalsUnmarked, equalsShows.text, rfl, rfl⟩
  have third (site : Site) : Derives env stream site settingTree (place + 2) _ :=
    line.setting.takes short settingSpells
  exact .sequenceStep first (.sequenceStep (second _) (.sequenceStep (third _) .sequenceEnd))

/-- No word comes next. -/
def Wordless (stream : TokenStream) (place : Nat) : Prop :=
  ∀ token, stream.token? place = some token → token.isEnd = false → token.kind ≠ some .string

theorem Line.fills (line : Line) :
    Binding.applyAll line.bindings
      (.entity (.record 0) "Entry" none [("key", .null), ("value", .null)]) = .ok line.record := rfl

theorem Line.refers (owned : site.owner = some 1) (line : Line) (short : line.setting.Short)
    (spells : stream.Spells Shows place line.faces) :
    Derives env stream site (.reference (.named "Entry") entriesField) place
      (.success (place + line.faces.length) [.append "entries" line.record]) :=
  (Derives.reference_iff (resolve_entry owned) root_entry fresh_entry).mpr
    ⟨_, _, line.takes short spells, line.fills, rfl⟩

theorem entry_fails (owned : site.owner = some 1) (wordless : Wordless stream place) :
    Derives env stream site (.reference (.named "Entry") entriesField) place .failure :=
  .referenceFails 0 (resolve_entry owned) root_entry
    (.sequenceFails (Derives.captureKind_fails wordless))

/-- A part ends where no word comes next. -/
theorem Part.takes (owned : site.owner = some 1) (part : Part)
    (short : ∀ line ∈ part.lines, line.setting.Short)
    (spells : stream.Spells Shows place part.faces)
    (wordless : Wordless stream (place + part.faces.length)) :
    Derives env stream site sectionTree place
      (.success (place + part.faces.length) part.bindings) := by
  obtain ⟨head, lines⟩ := TokenStream.spells_append.mp spells
  obtain ⟨⟨opening, openHere, openUnmarked, openShows⟩,
    ⟨title, titleHere, titleUnmarked, titleShows⟩, ⟨closing, closeHere, closeUnmarked, closeShows⟩,
    _⟩ := head
  have long : place + part.faces.length = place + 3 + (part.lines.flatMap Line.faces).length := by
    simp only [Part.faces, List.length_append, List.length_cons, List.length_nil]
    omega
  rw [long] at wordless ⊢
  have first (site : Site) :
      Derives env stream site (.leaf (.literal "[" titleField)) place (.success (place + 1) []) :=
    Derives.literal_iff.mpr ⟨opening, openHere, openUnmarked, openShows.text, rfl, rfl⟩
  have second (site : Site) :
      Derives env stream site (.leaf (.captureKind (some .string) "String" titleField))
      (place + 1) (.success (place + 2) [.assign "title" (.text part.title)]) :=
    Derives.captureKind_iff.mpr
      ⟨title, _, titleHere, titleUnmarked, titleShows.kind, by rw [titleShows.text]; rfl, rfl, rfl⟩
  have third (site : Site) : Derives env stream site (.leaf (.literal "]" titleField)) (place + 2)
      (.success (place + 3) []) :=
    Derives.literal_iff.mpr ⟨closing, closeHere, closeUnmarked, closeShows.text, rfl, rfl⟩
  have rest (site : Site) (owned : site.owner = some 1) : Derives env stream site
      (.repetition (.reference (.named "Entry") entriesField) .optionalOrMore) (place + 3)
      (.success (place + 3 + (part.lines.flatMap Line.faces).length)
        (part.lines.flatMap fun line => [.append "entries" line.record])) :=
    Derives.repetition_of_items (fun _ => True) (by simp [Line.faces])
      (fun line held place spells _ => line.refers owned (short line held) spells)
      (fun _ _ _ _ => trivial) lines (entry_fails owned wordless) trivial
  have whole := Derives.sequenceStep (first site) (.sequenceStep (second _) (.sequenceStep (third _)
    (.sequenceStep (rest _ owned) .sequenceEnd)))
  rw [Part.bindings, List.map_eq_flatMap]
  simp only [Verdict.prepend, List.nil_append, List.append_nil, List.cons_append] at whole
  exact whole

theorem Part.fills (part : Part) :
    Binding.applyAll part.bindings
      (.entity (.record 1) "Section" none [("title", .null), ("entries", .list [])]) =
        .ok part.record := by
  have entries :=
    @Binding.applyAll_appends 1 "Section" "entries" none [("title", .text part.title)] []
      (by simp) [] (part.lines.map Line.record)
  rw [List.map_map] at entries
  exact entries

theorem Part.refers (owned : site.owner = some 2) (part : Part)
    (short : ∀ line ∈ part.lines, line.setting.Short)
    (spells : stream.Spells Shows place part.faces)
    (wordless : Wordless stream (place + part.faces.length)) :
    Derives env stream site (.reference (.named "Section") sectionsField) place
      (.success (place + part.faces.length) [.append "sections" part.record]) :=
  (Derives.reference_iff (resolve_section owned) root_section fresh_section).mpr
    ⟨_, _, part.takes rfl short spells wordless, part.fills, rfl⟩

/-- A bracket is no word. -/
theorem Part.wordless (part : Part) (spells : stream.Spells Shows place part.faces) :
    Wordless stream place := by
  obtain ⟨⟨opening, openHere, _, openShows⟩, _⟩ := spells
  intro token here _
  cases openHere.symm.trans here
  rw [openShows.kind]
  decide

theorem File.fills (file : File) :
    Binding.applyAll file.bindings (.entity (.record 2) "IniFile" none [("sections", .list [])]) =
      .ok file.record := by
  have sections :=
    @Binding.applyAll_appends 2 "IniFile" "sections" none [] [] (by simp) []
      (file.parts.map Part.record)
  rw [List.map_map] at sections
  exact sections

/-- A file that is spelled up to the end of the text is taken up to the end of the text. -/
theorem File.takes (owned : site.owner = some 2) (file : File)
    (short : ∀ part ∈ file.parts, ∀ line ∈ part.lines, line.setting.Short)
    (spells : stream.Spells Shows place file.faces) {last : Token}
    (found : stream.token? (place + file.faces.length) = some last) (marked : last.isEnd = true) :
    Derives env stream site fileTree place
      (.success (place + file.faces.length) file.bindings) := by
  have ended :
      ∀ token, stream.token? (place + file.faces.length) = some token → token.isEnd = true := by
    intro token here
    cases found.symm.trans here
    exact marked
  have stopped : Derives env stream site (.reference (.named "Section") sectionsField)
      (place + file.faces.length)
      .failure := by
    refine .referenceFails 1 (resolve_section owned) root_section
      (.sequenceFails (Derives.leaf_fails ?_))
    intro token here unmarked
    simp [ended token here] at unmarked
  have wordless : Wordless stream (place + file.faces.length) := by
    intro token here unmarked
    simp [ended token here] at unmarked
  rw [File.bindings, List.map_eq_flatMap]
  exact Derives.repetition_of_items (Wordless stream) (by simp [Part.faces])
    (fun part held place spells follows => part.refers owned (short part held) spells follows)
    (fun part _ place spells => part.wordless spells) spells stopped wordless

end Spelled

section Tokens

open ScanRule

variable {token : Token}

theorem byTable : scanner.ByTable := ⟨rfl, rfl, by decide⟩

/-- The rules of the scanner give the text that was matched as it stands. -/
theorem exists_taken (recognized : Recognized scanner.rules token) :
    ∃ rule ∈ scanner.rules, ∃ taken kind, rule.pattern.Covers taken ∧ rule.kind = some kind ∧
      token.kind = some kind ∧ token.text = .ofChars taken := by
  obtain ⟨rule, held, taken, _, covers, made⟩ := recognized
  obtain ⟨kind, kinded, same⟩ := Option.map_eq_some_iff.mp made
  have plain : ∀ rule ∈ scanner.rules, rule.meaning taken = some (.ofChars taken) := by
    simp [Scanner.rules, scanner, ignore, ScanRule.token]
  rw [plain rule held] at same
  exact ⟨rule, held, taken, kind, covers, kinded, (congrArg Prod.fst same).symm,
    (congrArg Prod.snd same).symm⟩

theorem number_of_kind (recognized : Recognized scanner.rules token)
    (numbered : token.kind = some .number) :
    ∃ written : Written, written.WellFormed ∧ token.text = .ofChars written.text := by
  obtain ⟨rule, held, taken, kind, covers, kinded, same, text⟩ := exists_taken recognized
  have only : ∀ rule ∈ scanner.rules, rule.kind = some .number → rule.pattern = number := by decide
  rw [only rule held (by rw [kinded, ← same, numbered])] at covers
  obtain ⟨written, wellFormed, _, _, _, rfl⟩ := exists_written covers
  exact ⟨written, wellFormed, text⟩

/-- No word and no number reads like a bracket or an equals sign. -/
theorem kind_of_sign {c : Char} (sign : c ∈ ['[', ']', '='])
    (recognized : Recognized scanner.rules token) (text : token.text = .ofChars [c]) :
    token.kind = some .operator := by
  obtain ⟨rule, held, taken, kind, covers, kinded, same, spelled⟩ := exists_taken recognized
  rw [text] at spelled
  cases Wording.ofChars_inj.mp spelled
  have only : ∀ rule ∈ scanner.rules, rule.kind ≠ none → rule.pattern.mayBegin c = true →
      rule.kind = some .operator := by
    simp only [List.mem_cons, List.not_mem_nil, or_false] at sign
    rcases sign with rfl | rfl | rfl <;> decide
  rw [same, ← kinded]
  exact only rule held (by simp [kinded]) (covers.mayBegin rfl)

end Tokens

section Sound

variable {stream : TokenStream} {site : Site} {place stop : Nat} {bindings : List Binding}

/-- Every token before the end was made by a rule of the scanner. -/
def Lexical (stream : TokenStream) : Prop :=
  ∀ place token, stream.token? place = some token → token.isEnd = false →
    ScanRule.Recognized scanner.rules token

theorem Setting.of_derives (lexical : Lexical stream)
    (derived : Derives env stream site settingTree place (.success stop bindings)) :
    ∃ setting : Setting, stream.Spells Shows place [setting.face] ∧ setting.Short ∧
      stop = place + 1 ∧ bindings = [.assign "value" setting.value] := by
  simp only [settingTree, Derives.alternation_cons_iff, Derives.captureKind_iff,
    Derives.not_alternation_nil, and_false, or_false] at derived
  rcases derived with ⟨token, value, here, unmarked, kind, coerced, rfl, rfl⟩ |
    ⟨_, token, value, here, unmarked, kind, coerced, rfl, rfl⟩
  · obtain ⟨written, wellFormed, text⟩ := number_of_kind (lexical place token here unmarked) kind
    rw [kind, text] at coerced
    by_cases short : written.Short
    · have read : ValueKind.toScalar _ _ = .ok value := coerced
      rw [ValueKind.toScalar_written wellFormed short] at read
      cases read
      exact ⟨.number written wellFormed, ⟨⟨token, here, unmarked, Prod.ext kind text⟩, trivial⟩,
        short, rfl, rfl⟩
    · have read : ValueKind.toScalar _ _ = .ok value := coerced
      rw [ValueKind.toScalar_long wellFormed short] at read
      cases read
  · rw [kind] at coerced
    cases coerced
    exact ⟨.word token.text, ⟨⟨token, here, unmarked, Prod.ext kind rfl⟩, trivial⟩,
      trivial, rfl, rfl⟩

theorem sign_of_literal {c : Char} {field : Field} (lexical : Lexical stream)
    (signed : c ∈ ['[', ']', '=']) (text : String) (single : text.toList = [c])
    (plain : field.kind = .text)
    (derived : Derives env stream site (.leaf (.literal text field)) place
      (.success stop bindings)) :
    stream.Spells Shows place [sign text] ∧ stop = place + 1 ∧ bindings = [] := by
  obtain ⟨token, here, unmarked, spelled, rfl, rfl⟩ := Derives.literal_iff.mp derived
  have chars : Wording.ofString text = .ofChars [c] := congrArg Wording.ofChars single
  have kind := kind_of_sign signed (lexical place token here unmarked) (spelled.trans chars)
  exact ⟨⟨⟨token, here, unmarked, Prod.ext kind spelled⟩, trivial⟩, rfl, by simp [plain]⟩

theorem Line.of_derives (lexical : Lexical stream)
    (derived : Derives env stream site entryTree place (.success stop bindings)) :
    ∃ line : Line, stream.Spells Shows place line.faces ∧ line.setting.Short ∧ stop = place + 3 ∧
      bindings = line.bindings := by
  simp only [entryTree, Derives.sequence_cons_iff, Derives.sequence_nil_iff] at derived
  obtain ⟨_, _, _, first, ⟨_, _, _, second, ⟨_, _, _, third, ⟨rfl, rfl⟩, rfl⟩, rfl⟩, rfl⟩ := derived
  obtain ⟨key, value, here, unmarked, kind, coerced, rfl, rfl⟩ := Derives.captureKind_iff.mp first
  cases coerced
  obtain ⟨equals, rfl, rfl⟩ := sign_of_literal lexical (c := '=') (by decide) "=" rfl rfl second
  obtain ⟨setting, spells, short, rfl, rfl⟩ := Setting.of_derives lexical third
  exact ⟨⟨key.text, setting⟩, ⟨⟨key, here, unmarked, Prod.ext kind rfl⟩, equals.1, spells⟩,
    short, rfl, rfl⟩

theorem Line.of_reference (lexical : Lexical stream) (owned : site.owner = some 1)
    (derived : Derives env stream site (.reference (.named "Entry") entriesField) place
      (.success stop bindings)) :
    ∃ line : Line, line.setting.Short ∧ stream.Spells Shows place line.faces ∧
      stop = place + line.faces.length ∧ bindings = [.append "entries" line.record] := by
  obtain ⟨inside, item, nested, filled, rfl⟩ :=
    (Derives.reference_iff (resolve_entry owned) root_entry fresh_entry).mp derived
  obtain ⟨line, spells, short, rfl, rfl⟩ := Line.of_derives lexical nested
  cases filled.symm.trans line.fills
  exact ⟨line, short, spells, rfl, rfl⟩

theorem Part.of_derives (lexical : Lexical stream) (owned : site.owner = some 1)
    (derived : Derives env stream site sectionTree place (.success stop bindings)) :
    ∃ part : Part, (∀ line ∈ part.lines, line.setting.Short) ∧
      stream.Spells Shows place part.faces ∧ stop = place + part.faces.length ∧
      bindings = part.bindings := by
  simp only [sectionTree, Derives.sequence_cons_iff, Derives.sequence_nil_iff] at derived
  obtain ⟨_, _, _, first,
    ⟨_, _, _, second, ⟨_, _, _, third, ⟨_, _, _, rest, ⟨rfl, rfl⟩, rfl⟩, rfl⟩, rfl⟩, rfl⟩ := derived
  obtain ⟨opening, rfl, rfl⟩ := sign_of_literal lexical (c := '[') (by decide) "[" rfl rfl first
  obtain ⟨title, value, here, unmarked, kind, coerced, rfl, rfl⟩ :=
    Derives.captureKind_iff.mp second
  cases coerced
  obtain ⟨closing, rfl, rfl⟩ := sign_of_literal lexical (c := ']') (by decide) "]" rfl rfl third
  obtain ⟨lines, short, spells, rfl, rfl⟩ := Derives.items_of_repetition
    (fun place middle found _ turn => Line.of_reference lexical owned turn) rest
  have titled : stream.Spells Shows (place + 1) [(some .string, title.text)] :=
    ⟨⟨title, here, unmarked, Prod.ext kind rfl⟩, trivial⟩
  refine ⟨⟨title.text, lines⟩, short, ?_, ?_, ?_⟩
  · exact TokenStream.spells_append.mpr ⟨⟨opening.1, titled.1, closing.1, trivial⟩, spells⟩
  · simp only [Part.faces, List.length_append, List.length_cons, List.length_nil]
    omega
  · rw [Part.bindings, List.map_eq_flatMap]
    simp [titleField]

theorem Part.of_reference (lexical : Lexical stream) (owned : site.owner = some 2)
    (derived : Derives env stream site (.reference (.named "Section") sectionsField) place
      (.success stop bindings)) :
    ∃ part : Part, (∀ line ∈ part.lines, line.setting.Short) ∧
      stream.Spells Shows place part.faces ∧ stop = place + part.faces.length ∧
      bindings = [.append "sections" part.record] := by
  obtain ⟨inside, item, nested, filled, rfl⟩ :=
    (Derives.reference_iff (resolve_section owned) root_section fresh_section).mp derived
  obtain ⟨part, short, spells, rfl, rfl⟩ := Part.of_derives lexical rfl nested
  cases filled.symm.trans part.fills
  exact ⟨part, short, spells, rfl, rfl⟩

theorem File.of_derives (lexical : Lexical stream) (owned : site.owner = some 2)
    (derived : Derives env stream site fileTree place (.success stop bindings)) :
    ∃ file : File, (∀ part ∈ file.parts, ∀ line ∈ part.lines, line.setting.Short) ∧
      stream.Spells Shows place file.faces ∧ stop = place + file.faces.length ∧
      bindings = file.bindings := by
  obtain ⟨parts, short, spells, rfl, rfl⟩ := Derives.items_of_repetition
    (fun place middle found _ turn => Part.of_reference lexical owned turn) derived
  exact ⟨⟨parts⟩, short, spells, rfl, (List.map_eq_flatMap).symm⟩

/-- Whatever comes next, it is decided whether it is a file. -/
theorem decided (lexical : Lexical stream) : Decided env stream ⟨some 2, 0⟩ fileTree := by
  have entry (site : Site) (owned : site.owner = some 1) :
      Decided env stream site (.reference (.named "Entry") entriesField) := by
    refine .reference (resolve_entry owned) root_entry fresh_entry (.sequence ?_) ?_
    · simp only [List.forall_mem_cons, settingTree]
      intro site _
      exact ⟨.leaf _, .leaf _, .alternation fun place _ => by simp [Decided.leaf], by simp⟩
    · intro start stop bindings derived
      obtain ⟨line, _, _, _, rfl⟩ := Line.of_derives lexical derived
      exact ⟨_, line.fills⟩
  refine .repetition (.reference (resolve_section rfl) root_section fresh_section (.sequence ?_) ?_)
  · simp only [List.forall_mem_cons]
    intro site owned
    exact ⟨.leaf _, .leaf _, .leaf _, .repetition (entry site owned), by simp⟩
  · intro start stop bindings derived
    obtain ⟨part, _, _, _, rfl⟩ := Part.of_derives lexical rfl derived
    exact ⟨_, part.fills⟩

end Sound

section Parse

variable {text : List Char} {stream : TokenStream} {tokens : List Token} {last : Token}
  {value : Value}

/-- The tokens spell a file, with a token at the end behind it. -/
def File.Spelled (file : File) (tokens : List Token) : Prop :=
  tokens.map Token.face = file.faces ++ [.finish]

/-- No integer among the tokens has too many digits. -/
def ShortNumbers (tokens : List Token) : Prop :=
  ∀ token ∈ tokens, token.kind = some .number → ∀ written : Written, written.WellFormed →
    token.text = .ofChars written.text → written.Short

theorem File.spelled_iff (streamed : Registry.Streamed scanner text stream tokens last)
    (file : File) :
    file.Spelled (scanner.scan text).tokens ↔ List.Forall₂ Shows file.faces tokens := by
  have shown : List.Forall₂ Shows file.faces tokens ↔
      (scanner.scan text).tokens.map Token.face = file.faces.map id ++ [.finish] :=
        streamed.shows_iff
  rw [shown, List.map_id, File.Spelled]

theorem File.short (short : ShortNumbers tokens) {file : File}
    (spells : List.Forall₂ Shows file.faces tokens) :
    ∀ part ∈ file.parts, ∀ line ∈ part.lines, line.setting.Short := by
  intro part partHeld line lineHeld
  cases written : line.setting with
  | word text => trivial
  | number numeral wellFormed =>
      have face : (some .number, .ofChars numeral.text) ∈ file.faces := by
        refine List.mem_flatMap.mpr
          ⟨part, partHeld, List.mem_append_right _ (List.mem_flatMap.mpr ⟨line, lineHeld, ?_⟩)⟩
        simp [Line.faces, written, Setting.face]
      have shown : tokens.map Token.face = file.faces.map id := Token.forall₂_face_iff.mp spells
      rw [← List.map_id file.faces, ← shown] at face
      obtain ⟨token, held, same⟩ := List.mem_map.mp face
      exact short token held (congrArg Prod.fst same) numeral wellFormed (congrArg Prod.snd same)

/-- What can be derived for the tokens of a text are the files that they spell. -/
theorem derived_iff (streamed : Registry.Streamed scanner text stream tokens last)
    (short : ShortNumbers tokens) :
    Registry.Derived env stream 2 fileTree
      (.entity (.record 2) "IniFile" none [("sections", .list [])]) value ↔
      ∃ file : File, file.Spelled (scanner.scan text).tokens ∧ value = file.record := by
  have lexical : Lexical stream :=
    fun place token found unmarked => streamed.recognized found unmarked
  constructor
  · rintro ⟨stop, token, bindings, derived, found, marked, applied⟩
    obtain ⟨file, _, spells, rfl, rfl⟩ := File.of_derives lexical rfl derived
    rw [Nat.zero_add] at found
    have each := streamed.spells_iff.mp ⟨spells, token, found, marked⟩
    cases applied.symm.trans file.fills
    exact ⟨file, (file.spelled_iff streamed).mpr each, rfl⟩
  · rintro ⟨file, spelled, rfl⟩
    have each := (file.spelled_iff streamed).mp spelled
    obtain ⟨spells, stop, found, marked⟩ := streamed.spells_iff.mpr each
    have derived : Derives env stream ⟨some 2, 0⟩ fileTree 0 _ :=
      file.takes rfl (file.short short each) spells (by simpa using found) marked
    exact ⟨_, stop, _, derived, by simpa using found, marked, file.fills⟩

theorem registry_pending : registry.EachShape fun shape => shape.phase = .pending :=
  Registry.pending_ofGrammar (by decide)

theorem kinds_distinct : scanner.kinds.Distinct := by
  unfold KindTable.Distinct
  decide

theorem kindsFor_file : registry.kindsFor { shape := fileId } = scanner.kinds := rfl

theorem scanFor_file (text : List Char) :
    registry.scanFor { shape := fileId } { content := text } = scanner.scan text := by
  have same : (registry.scannerFor { shape := fileId }).1.scanner
      (registry.scannerFor { shape := fileId }).2 = scanner :=
    rfl
  rw [Registry.scanFor_eq, same]

/-- A parse gives the record of a file just if the tokens spell the file. -/
theorem parse_ok_iff (streamed : Registry.Streamed scanner text stream tokens last)
    (short : ShortNumbers tokens) :
    (parse text).result = .ok value ↔ ∃ file : File, file.Spelled (scanner.scan text).tokens ∧
      value = file.record := by
  have built : (registry.environment scanner.kinds).root ({ shape := fileId } : Parser).shape =
      .ok fileTree := root_file
  have made : (registry.environment scanner.kinds).fresh ({ shape := fileId } : Parser).shape =
      .ok (.entity (.record 2) "IniFile" none [("sections", .list [])]) := fresh_file
  have told : (parse text).result = .ok value ↔ _ :=
    Registry.parse_ok_iff registry_pending kindsFor_file kinds_distinct
    (scanFor_file text) streamed.streamed rfl built made
  exact told.trans (derived_iff streamed short)

end Parse

end RecordGrammar.Worked.Ini
