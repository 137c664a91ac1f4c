import RecordGrammar.Proofs.Worked.Json.Grammar
import RecordGrammar.Proofs.Worked.Numerals

namespace RecordGrammar.Worked.Json

open RecordGrammar.Text
open RecordGrammar.Decimal (Written)

/-! Whatever is parsed as JSON spells an object, and its record holds what the object stands for.

Signs are told by their text alone, so a string may stand where a datum ends or goes on. Where a
datum begins, a string is a word. -/

section Tokens

open ScanRule

variable {token : Token} {face : Face}

theorem byTable : scanner.ByTable := ⟨rfl, rfl, by decide⟩

/-- The signs and the names of JSON texts. -/
def fixedFaces : List Face :=
  [']', '[', '\x7b', '\x7d', ':', ','].map (fun c => (some .operator, .ofChars [c])) ++
    ["true", "false", "null"].map fun name => (some .keyword, .ofString name)

/-- A token is a number, a string, a sign or a name. -/
theorem recognized_cases (recognized : Recognized scanner.rules token) :
    (∃ written : Written, written.WellFormed ∧ written.Proper ∧
      token.face = (Mark.number written).face) ∨ token.kind = some .string ∨
      token.face ∈ fixedFaces := by
  obtain ⟨rule, held, taken, _, covers, made⟩ := recognized
  simp only [Scanner.rules, scanner, List.mem_cons, List.not_mem_nil, or_false] at held
  rcases held with rfl | rfl | rfl | rfl | rfl
  · cases made
  · obtain ⟨written, wellFormed, proper, rfl⟩ := exists_written covers
    exact .inl ⟨written, wellFormed, proper, (Option.some.inj made).symm⟩
  · exact .inr (.inl (congrArg Prod.fst (Option.some.inj made)).symm)
  · obtain ⟨c, held, rfl⟩ := Pattern.covers_one_iff.mp covers
    have each : ∀ c ∈ [']', '[', '\x7b', '\x7d', ':', ','],
        ((some .operator, .ofChars [c]) : Face) ∈ fixedFaces := by
      simp [fixedFaces]
    rw [← Option.some.inj made]
    exact .inr (.inr (each c ((Pattern.holds_ofList _ c).mp held)))
  · have named : taken = "true".toList ∨ taken = "false".toList ∨ taken = "null".toList := by
      rcases Pattern.covers_either_iff.mp covers with covers | covers
      · exact .inl covers.eq_of_ofText
      · exact .inr ((Pattern.covers_either_iff.mp covers).imp (·.eq_of_ofText) (·.eq_of_ofText))
    rw [← Option.some.inj made]
    refine .inr (.inr ?_)
    rcases named with rfl | rfl | rfl <;> simp [fixedFaces, ScanRule.token, Wording.ofString]

/-- Signs and names have no digits, which every number has. -/
theorem not_digit_of_fixed (fixed : face ∈ fixedFaces) {c : Char} (held : .char c ∈ face.2) :
    isDecimalDigit c = false := by
  rcases List.mem_append.mp fixed with signs | names
  · obtain ⟨sign, listed, rfl⟩ := List.mem_map.mp signs
    have each : ∀ c ∈ [']', '[', '\x7b', '\x7d', ':', ','], isDecimalDigit c = false := by decide
    have same : c = sign := by simpa [Wording.ofChars] using held
    exact same ▸ each sign listed
  · obtain ⟨name, listed, rfl⟩ := List.mem_map.mp names
    have each :
        ∀ name ∈ ["true", "false", "null"], ∀ c ∈ name.toList, isDecimalDigit c = false := by decide
    exact each name listed c (by simpa [Wording.ofString, Wording.ofChars] using held)

/-- What reads like a sign or a name is one, or it is a string. -/
theorem face_of_text (recognized : Recognized scanner.rules token) (fixed : face ∈ fixedFaces)
    (same : token.text = face.2) : token.face = face ∨ token.face = (some .string, face.2) := by
  rcases recognized_cases recognized with ⟨written, wellFormed, _, number⟩ | string | other
  · obtain ⟨some, digits⟩ := wellFormed.whole
    obtain ⟨digit, rest, whole⟩ := List.exists_cons_of_ne_nil some
    have text : face.2 = .ofChars written.text := same.symm.trans (congrArg Prod.snd number)
    have inside : CodePoint.char digit ∈ face.2 := by
      rw [text, Wording.ofChars, List.mem_map]
      exact ⟨digit, by simp [Written.text, whole], rfl⟩
    have plain := not_digit_of_fixed fixed inside
    rw [digits digit (by simp [whole])] at plain
    cases plain
  · exact .inr (Prod.ext string same)
  · have only : ∀ one ∈ fixedFaces, ∀ other ∈ fixedFaces, one.2 = other.2 → one = other := by decide
    exact .inl (only _ other _ fixed same)

end Tokens

section Sound

variable {stream : TokenStream} {site : Site} {place stop : Nat} {bindings : List Binding}

/-- Every token before the end was made by a rule of the scanner. -/
def Lexical (stream : TokenStream) : Prop :=
  ∀ place token, stream.token? place = some token → token.isEnd = false →
    ScanRule.Recognized scanner.rules token

variable {left right : Char} {target : ShapeRef} {field : Field} {text : String}

/-- A literal is a sign or a name, or it is a string. -/
theorem fits_of_literal (lexical : Lexical stream)
    (nested : field.kind = .nested ∨ field.kind = .text) {c : Char}
    (fixed : ((some .operator, .ofChars [c]) : Face) ∈ fixedFaces)
    (derived : Derives env stream site (.leaf (.literal (.singleton c) field)) place
      (.success stop bindings)) :
    stream.Spells Mark.Fits place [.sign c true] ∧ stop = place + 1 ∧ bindings = [] := by
  obtain ⟨token, here, unmarked, spelled, rfl, rfl⟩ := Derives.literal_iff.mp derived
  have text : token.text = .ofChars [c] := by simpa [Wording.ofString] using spelled
  have faces := face_of_text (lexical place token here unmarked) fixed text
  refine ⟨⟨⟨token, here, unmarked, faces.imp_right fun string => ⟨rfl, string⟩⟩, trivial⟩, rfl, ?_⟩
  rcases nested with plain | plain <;> simp [plain]

theorem lt_size_of_spells {mark : Mark} {marks : List Mark}
    (spells : stream.Spells Mark.Fits place (mark :: marks)) :
    place < stream.size := by
  obtain ⟨⟨token, here, _⟩, _⟩ := spells
  exact (Array.getElem?_eq_some_iff.mp here).1

/-- No string comes next. -/
def Wordless (stream : TokenStream) (place : Nat) : Prop :=
  ∀ token, stream.token? place = some token → token.isEnd = false → token.kind ≠ some .string

theorem Wordless.sign (wordless : Wordless stream place) {c : Char} {marks : List Mark}
    (spells : stream.Spells Mark.Fits place (.sign c true :: marks)) :
    stream.Spells Mark.Fits place (.sign c false :: marks) := by
  obtain ⟨⟨token, here, unmarked, fits⟩, rest⟩ := spells
  refine ⟨⟨token, here, unmarked, fits.imp_right fun string => ?_⟩, rest⟩
  exact absurd (congrArg Prod.fst string.2) (wordless token here unmarked)

theorem Wordless.name (wordless : Wordless stream place) (lexical : Lexical stream)
    (fixed : ((some .keyword, .ofString text) : Face) ∈ fixedFaces) {token : Token}
    (here : stream.token? place = some token) (unmarked : token.isEnd = false)
    (same : token.text = .ofString text) :
    stream.Spells Mark.Fits place [.name text] := by
  refine ⟨⟨token, here, unmarked, .inl ?_⟩, trivial⟩
  refine (face_of_text (lexical place token here unmarked) fixed same).resolve_right
    fun string => ?_
  exact wordless token here unmarked (congrArg Prod.fst string)

section Groups

variable {Item : Type} {owner : Option ShapeId} {marks : Item → List Mark} {give : Item → Value}
  {good : Item → Prop} {others : List Tree}

/-- What a reference takes in some place is an item. -/
def Refers (stream : TokenStream) (owner : Option ShapeId) (target : ShapeRef) (field : Field)
    (marks : Item → List Mark) (give : Item → Value) (good : Item → Prop) (place : Nat) : Prop :=
  ∀ site stop bindings, Site.owner site = owner →
    Derives env stream site (.reference target field) place (.success stop bindings) →
    ∃ item, good item ∧ stream.Spells Mark.Fits place (marks item) ∧
    stop = place + (marks item).length ∧
      bindings = [.append field.name (give item)]

theorem group_of_derives (lexical : Lexical stream) (nested : field.kind = .nested)
    (opening : ((some .operator, .ofChars [left]) : Face) ∈ fixedFaces)
    (closing : ((some .operator, .ofChars [right]) : Face) ∈ fixedFaces)
    (refers : ∀ later, place < later → later ≤ stream.size →
      Refers stream owner target field marks give good later)
    (owned : site.owner = owner)
    (derived : Derives env stream site
      (.alternation (fullTree left right target field :: emptyTree left right field :: others))
        place
      (.success stop bindings)) :
    (∃ items, (∀ item ∈ items, good item) ∧
      stream.Spells Mark.Fits place (groupMarks left right true marks items) ∧
        stop = place + (groupMarks left right true marks items).length ∧
        bindings = items.map fun item => .append field.name (give item)) ∨
      ∃ site, Site.owner site = owner ∧
      Derives env stream site (.alternation others) place (.success stop bindings) := by
  rw [Derives.alternation_cons_iff, Derives.alternation_cons_iff] at derived
  rcases derived with full | ⟨_, empty | ⟨_, rest⟩⟩
  · left
    simp only [fullTree, Derives.sequence_cons_iff, Derives.sequence_nil_iff] at full
    obtain ⟨_, _, _, first,
      ⟨inner, _, _, one, ⟨_, _, _, more, ⟨_, _, _, last, ⟨rfl, rfl⟩, rfl⟩, rfl⟩, rfl⟩, rfl⟩ := full
    obtain ⟨opened, rfl, rfl⟩ := fits_of_literal lexical (.inl nested) opening first
    have within : place + 1 ≤ stream.size := lt_size_of_spells opened
    obtain ⟨item, right, spells, rfl, rfl⟩ := refers (place + 1) (by omega) within _ _ _ owned one
    have again (site : Site) (owned : site.owner = owner) (start middle : Nat)
        (found : List Binding) (behind : place + 1 ≤ start)
        (turn : Derives env stream site
          (.sequence [.leaf (.literal "," field), .reference target field]) start
          (.success middle found)) :
        ∃ item, good item ∧ stream.Spells Mark.Fits start (.sign ',' true :: marks item) ∧
          middle = start + (Mark.sign ',' true :: marks item).length ∧
          found = [.append field.name (give item)] := by
      simp only [Derives.sequence_cons_iff, Derives.sequence_nil_iff] at turn
      obtain ⟨_, _, _, comma, ⟨_, _, _, next, ⟨rfl, rfl⟩, rfl⟩, rfl⟩ := turn
      obtain ⟨mark, rfl, rfl⟩ :=
        fits_of_literal lexical (.inl nested) (by decide)
          (show Derives env stream site (.leaf (.literal (.singleton ',') field)) start _ from comma)
      have within : start + 1 ≤ stream.size := lt_size_of_spells mark
      obtain ⟨item, good, spells, rfl, rfl⟩ := refers _ (by omega) within _ _ _ owned next
      refine ⟨item, good, ⟨mark.1, spells⟩, ?_, rfl⟩
      rw [List.length_cons]
      omega
    obtain ⟨items, each, later, rfl, rfl⟩ := Derives.items_of_repetition
      (fun start middle found behind turn =>
        again ((site.after _).after _) owned start middle found (by omega) turn) more
    obtain ⟨closed, rfl, rfl⟩ := fits_of_literal lexical (.inl nested) closing last
    have listed : (item :: items).flatMap (fun item => Mark.sign ',' true :: marks item) =
        .sign ',' true :: (marks item ++ items.flatMap fun item => .sign ',' true :: marks item) :=
          rfl
    refine ⟨item :: items, List.forall_mem_cons.mpr ⟨right, each⟩, ⟨opened.1, ?_⟩, ?_, ?_⟩
    · rw [listed, List.tail_cons, List.append_assoc, TokenStream.spells_append,
        TokenStream.spells_append]
      exact ⟨spells, later, closed⟩
    · simp only [groupMarks, listed, List.tail_cons, List.length_cons, List.length_append,
        List.length_nil]
      omega
    · rw [List.map_cons, List.map_eq_flatMap]
      simp
  · left
    simp only [emptyTree, Derives.sequence_cons_iff, Derives.sequence_nil_iff] at empty
    obtain ⟨_, _, _, first, ⟨_, _, _, second, ⟨rfl, rfl⟩, rfl⟩, rfl⟩ := empty
    obtain ⟨opened, rfl, rfl⟩ := fits_of_literal lexical (.inl nested) opening first
    obtain ⟨closed, rfl, rfl⟩ := fits_of_literal lexical (.inl nested) closing second
    exact ⟨[], by simp, ⟨opened.1, closed⟩, rfl, rfl⟩
  · exact .inr ⟨(site.after _).after _, owned, rest⟩

end Groups

namespace Datum

/-- A number that the scanner finds and that can be read. No zero stands in front of other digits,
and the digits are those of any script, but for the first of those before the point. -/
def Scanned : Datum → Prop
  | .number written => written.WellFormed ∧ written.Proper ∧ written.Short
  | _ => True

/-- What the tree of values takes in some place is a datum. -/
def Read (stream : TokenStream) (place : Nat) : Prop :=
  ∀ site stop bindings, Site.owner site = some valueId →
    Derives env stream site valueTree place (.success stop bindings) →
    ∃ datum : Datum, datum.Every Scanned ∧ stream.Spells Mark.Fits place datum.marks ∧
      stop = place + datum.marks.length ∧ bindings = datum.bindings

theorem Read.of_reference (read : Read stream place)
    (owned : site.owner = some pairId ∨ site.owner = some valueId)
    (derived : Derives env stream site (.reference (.named "JsonValue") field) place
      (.success stop bindings)) :
    ∃ datum : Datum, datum.Every Scanned ∧ stream.Spells Mark.Fits place datum.marks ∧
      stop = place + datum.marks.length ∧ bindings = [field.holding datum.record] := by
  obtain ⟨inside, item, nested, filled, rfl⟩ :=
    (Derives.reference_iff (resolve_value owned) root_value fresh_value).mp derived
  obtain ⟨datum, scanned, spells, rfl, rfl⟩ := read _ _ _ rfl nested
  cases filled.symm.trans datum.fills
  exact ⟨datum, scanned, spells, rfl, rfl⟩

variable (lexical : Lexical stream)
  (read : ∀ later, place < later → later ≤ stream.size → Read stream later)

include lexical read

theorem pair_of_reference {later : Nat} (behind : place < later) :
    Refers stream (some objectId) (.named "Pair") pairsField pairMarks
      (fun member => pairRecord member.1 member.2.record)
      (fun member => member.2.Every Scanned) later := by
  intro site stop bindings owned derived
  obtain ⟨inside, item, nested, filled, rfl⟩ :=
    (Derives.reference_iff (resolve_pair owned) root_pair fresh_pair).mp derived
  simp only [pairTree, Derives.sequence_cons_iff, Derives.sequence_nil_iff] at nested
  obtain ⟨_, _, _, first, ⟨_, _, _, second, ⟨_, _, _, third, ⟨rfl, rfl⟩, rfl⟩, rfl⟩, rfl⟩ := nested
  obtain ⟨key, value, here, unmarked, kind, coerced, rfl, rfl⟩ := Derives.captureKind_iff.mp first
  cases coerced
  obtain ⟨colon, rfl, rfl⟩ :=
    fits_of_literal lexical (.inr rfl) (by decide)
      (show Derives env stream _ (.leaf (.literal (.singleton ':') keyField)) _ _ from second)
  have within : later + 1 + 1 ≤ stream.size := lt_size_of_spells colon
  obtain ⟨datum, scanned, spells, rfl, rfl⟩ :=
    (read _ (by omega) within).of_reference (.inl rfl) third
  cases filled.symm.trans (pairRecord_fills key.text datum.record)
  refine ⟨(key.text, datum), scanned,
    ⟨⟨key, here, unmarked, .inl (Prod.ext kind rfl)⟩, colon.1, spells⟩, ?_, rfl⟩
  simp only [pairMarks, List.length_cons]
  omega

/-- What the tree of objects takes is an object, whichever way it is opened. -/
theorem object_of_derives (owned : site.owner = some objectId)
    (derived : Derives env stream site objectTree place (.success stop bindings)) :
    ∃ members : List (Wording × Datum), (∀ member ∈ members, member.2.Every Scanned) ∧
      stream.Spells Mark.Fits place (wholeMarks members) ∧
      stop = place + (wholeMarks members).length ∧
      bindings = (memberRecords members).map (.append "pairs") := by
  have told := group_of_derives lexical rfl (by decide) (by decide)
    (fun later behind _ => pair_of_reference lexical read behind) owned derived
  rcases told with ⟨members, each, spells, rfl, rfl⟩ | ⟨site, _, rest⟩
  · exact ⟨members, each, spells, rfl, by rw [memberRecords_eq, List.map_map]; rfl⟩
  · exact absurd rest Derives.not_alternation_nil

omit lexical read in
/-- A number that is taken can be read. -/
theorem number_of_capture (lexical : Lexical stream)
    (derived : Derives env stream site
      (.leaf (.captureKind (some .number) "Number" numberField)) place (.success stop bindings)) :
    ∃ datum : Datum, datum.Every Scanned ∧ stream.Spells Mark.Fits place datum.marks ∧
      stop = place + datum.marks.length ∧ bindings = datum.bindings := by
  obtain ⟨token, value, here, unmarked, kind, coerced, rfl, rfl⟩ :=
    Derives.captureKind_iff.mp derived
  have read : ValueKind.toScalar token.text token.kind = .ok value := coerced
  have face : ∃ written : Written, written.WellFormed ∧ written.Proper ∧
      token.face = (Mark.number written).face := by
    rcases recognized_cases (lexical place token here unmarked) with number | string | fixed
    · exact number
    · simp [kind] at string
    · have other : ∀ face ∈ fixedFaces, face.1 ≠ some .number := by decide
      exact absurd kind (other _ fixed)
  obtain ⟨written, wellFormed, proper, same⟩ := face
  rw [kind, show token.text = .ofChars written.text from congrArg Prod.snd same] at read
  have short : written.Short := by
    by_contra long
    rw [ValueKind.toScalar_long wellFormed long] at read
    cases read
  rw [ValueKind.toScalar_written wellFormed short] at read
  cases read
  exact ⟨.number written, .number ⟨wellFormed, proper, short⟩,
    ⟨⟨token, here, unmarked, .inl same⟩, trivial⟩, rfl, rfl⟩

theorem value_of_derives : Read stream place := by
  intro site stop bindings owned derived
  rcases Derives.alternation_cons_iff.mp derived with word | ⟨noWord, derived⟩
  · obtain ⟨token, value, here, unmarked, kind, coerced, rfl, rfl⟩ :=
      Derives.captureKind_iff.mp word
    cases coerced
    exact ⟨.word token.text, .word trivial,
      ⟨⟨token, here, unmarked, .inl (Prod.ext kind rfl)⟩, trivial⟩, rfl, rfl⟩
  have wordless : Wordless stream place := by
    cases noWord with
    | leafRefuses refused =>
        intro token here unmarked string
        exact refused token _ here unmarked (by simp [Leaf.accepts, string]) rfl
  rcases Derives.alternation_cons_iff.mp derived with number | ⟨_, derived⟩
  · exact number_of_capture lexical number
  rcases group_of_derives lexical rfl (by decide) (by decide)
    (fun later behind within site stop bindings owned turn =>
    (read later behind within).of_reference (.inr owned) turn) owned derived with
    ⟨items, each, spells, rfl, rfl⟩ | ⟨site, owned, derived⟩
  · refine ⟨.list items, .list trivial each, ?_, ?_, rfl⟩
    · rw [marks_list]
      exact wordless.sign spells
    · rw [marks_list]
      rfl
  rcases Derives.alternation_cons_iff.mp derived with truth | ⟨_, derived⟩
  · simp only [truthTree, Derives.alternation_cons_iff, Derives.captureLiteral_iff,
      Derives.not_alternation_nil, and_false, or_false] at truth
    rcases truth with ⟨token, value, here, unmarked, same, coerced, rfl, rfl⟩ |
      ⟨_, token, value, here, unmarked, same, coerced, rfl, rfl⟩
    · rw [same] at coerced
      cases coerced
      exact ⟨.truth true, .truth trivial,
        wordless.name lexical (by decide) here unmarked same, rfl, rfl⟩
    · rw [same] at coerced
      cases coerced
      exact ⟨.truth false, .truth trivial,
        wordless.name lexical (by decide) here unmarked same, rfl, rfl⟩
  rcases Derives.alternation_cons_iff.mp derived with null | ⟨_, derived⟩
  · obtain ⟨token, here, unmarked, same, rfl, rfl⟩ := Derives.literal_iff.mp null
    exact ⟨.null, .null trivial, wordless.name lexical (by decide) here unmarked same, rfl, rfl⟩
  rcases Derives.alternation_cons_iff.mp derived with object | ⟨_, derived⟩
  · obtain ⟨inside, item, nested, filled, rfl⟩ :=
      (Derives.reference_iff (resolve_object owned) root_object fresh_object).mp object
    obtain ⟨members, each, spells, rfl, rfl⟩ := object_of_derives lexical read rfl nested
    cases filled.symm.trans (objectRecord_fills (memberRecords members))
    refine ⟨.object members, .object trivial each, ?_, ?_, rfl⟩
    · rw [marks_object]
      exact wordless.sign spells
    · rw [marks_object]
      rfl
  · exact absurd derived Derives.not_alternation_nil

omit read in
theorem read_all (place : Nat) (within : place ≤ stream.size) : Read stream place := by
  generalize left : stream.size - place = size
  induction size using Nat.strongRecOn generalizing place with
  | ind size ih =>
      exact value_of_derives lexical fun later behind inside =>
        ih (stream.size - later) (by omega) later inside rfl

end Datum

end Sound

section Parse

variable {text : List Char} {stream : TokenStream} {tokens : List Token} {last : Token}
  {value : Value}

theorem registry_pending : registry.EachShape fun shape => shape.phase = .pending :=
  Registry.pending_ofGrammar (by decide)

theorem kinds_distinct : scanner.kinds.Distinct := by
  unfold KindTable.Distinct
  decide

theorem kindsFor_object : registry.kindsFor { shape := objectId } = scanner.kinds := rfl

theorem scanFor_object (text : List Char) :
    registry.scanFor { shape := objectId } { content := text } = scanner.scan text := by
  have same : (registry.scannerFor { shape := objectId }).1.scanner
      (registry.scannerFor { shape := objectId }).2 = scanner := rfl
  rw [Registry.scanFor_eq, same]

/-- A parse of a whole text gives what can be derived for its tokens. -/
theorem parse_ok_iff (streamed : Registry.streamOf (scanner.scan text) = .ok stream) :
    (parse objectId text).result = .ok value ↔
      Registry.Derived env stream objectId objectTree blankObject value := by
  have built : (registry.environment scanner.kinds).root ({ shape := objectId } : Parser).shape =
      .ok objectTree :=
    root_object
  have made : (registry.environment scanner.kinds).fresh ({ shape := objectId } : Parser).shape =
      .ok blankObject :=
    fresh_object
  exact Registry.parse_ok_iff registry_pending kindsFor_object kinds_distinct
    (scanFor_object text) streamed rfl built made

/-- The tokens of a text are what they are to be, up to the end of the text. -/
def Spelled (fits : Mark → Token → Prop) (marks : List Mark) (text : List Char) : Prop :=
  ∃ tokens last, (scanner.scan text).tokens = tokens ++ [last] ∧ List.Forall₂ fits marks tokens ∧
    last.face = .finish

/-- What is parsed spells an object, and the record becomes what the object stands for. -/
theorem parse_spells {record : Value} (clean : (scanner.scan text).error = none)
    (parsed : (parse objectId text).result = .ok record) :
    ∃ members : List (Wording × Datum), (∀ member ∈ members, member.2.Every Datum.Scanned) ∧
      Spelled Mark.Fits (Datum.wholeMarks members) text ∧
      data record = (Datum.object members).value := by
  obtain ⟨stream, tokens, last, streamed⟩ := Registry.exists_streamed byTable clean
  have lexical : Lexical stream :=
    fun place token found unmarked => streamed.recognized found unmarked
  obtain ⟨stop, token, bindings, derived, found, marked, applied⟩ :=
    (parse_ok_iff streamed.streamed).mp parsed
  obtain ⟨members, scanned, spells, rfl, rfl⟩ :=
    Datum.object_of_derives lexical
      (fun later _ within => Datum.read_all lexical later within) rfl derived
  rw [Nat.zero_add] at found
  have each := streamed.spells_iff.mp ⟨spells, token, found, marked⟩
  cases applied.symm.trans (objectRecord_fills (Datum.memberRecords members))
  exact ⟨members, scanned, ⟨tokens, last, streamed.whole, each, streamed.recognizes.ended⟩,
    Datum.data_object fun member _ => member.2.data_record⟩

theorem exists_ok {text : List Char}
    (succeeds : (parse objectId text).result.toOption.isSome = true) :
    ∃ record, (parse objectId text).result = .ok record := by
  cases parsed : (parse objectId text).result with
  | ok record => exact ⟨record, rfl⟩
  | error error => simp [parsed, Except.toOption] at succeeds

/-- A string in the place of the brace that opens a text. -/
def quotedBrace : List Char := "\"\x7b\" \x7d".toList

theorem quotedBrace_parsed :
    (scanner.scan quotedBrace).error = none ∧
      (∃ record, (parse objectId quotedBrace).result = .ok record) ∧
      ¬ ∃ members : List (Wording × Datum),
        Spelled (fun mark token => token.face = mark.face)
          (Datum.wholeMarks members) quotedBrace := by
  refine ⟨by decide +kernel, exists_ok (by decide +kernel), ?_⟩
  rintro ⟨members, tokens, last, whole, each, _⟩
  have first : (scanner.scan quotedBrace).tokens.head?.map Token.face =
      some (some .string, .ofChars ['\x7b']) := by
    decide +kernel
  obtain ⟨token, rest, same, _, rfl⟩ := List.forall₂_cons_left_iff.mp each
  rw [whole] at first
  cases same.symm.trans (Option.some.inj first)

/-- A string in the place of a comma, and a key that stands twice. -/
def quotedComma : List Char := "\x7b\"k\": [true] \",\" \"k\": \x7b\x7d \x7d".toList

theorem quotedComma_parsed :
    ∃ record members, (parse objectId quotedComma).result = .ok record ∧
      Spelled Mark.Fits (Datum.wholeMarks members) quotedComma ∧
      data record = (Datum.object members).value := by
  have clean : (scanner.scan quotedComma).error = none := by decide +kernel
  obtain ⟨record, parsed⟩ : ∃ record, (parse objectId quotedComma).result = .ok record :=
    exists_ok (by decide +kernel)
  obtain ⟨members, _, spelled, same⟩ := parse_spells clean parsed
  exact ⟨record, members, parsed, spelled, same⟩

end Parse

end RecordGrammar.Worked.Json
