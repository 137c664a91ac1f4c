import RecordGrammar.Proofs.Worked.Json.Accepted

namespace RecordGrammar.Worked.Json

open RecordGrammar.Text
open RecordGrammar.Decimal (IsDigits Written WrittenExponent)

/-! However an object is printed as JSON, its text is read back as the object. -/

section Strings

/-- What may stand behind a backslash, and what it stands for there. -/
def escapes : List (Char × Char) :=
  [('"', '"'), ('\\', '\\'), ('/', '/'), ('b', '\x08'), ('f', '\x0c'), ('n', '\n'), ('r', '\r'),
    ('t', '\t')]

/-- How a character of a string may be written: as it is, by its escape, or by four hexadecimal
digits. -/
inductive WritesChar : Char → List Char → Prop
  | raw (quote : c ≠ '"') (slash : c ≠ '\\') : WritesChar c [c]
  | escape (listed : (letter, c) ∈ escapes) : WritesChar c ['\\', letter]
  | code {first second third fourth : Char} {i j k l : Nat} (hexFirst : hexValue? first = some i)
      (hexSecond : hexValue? second = some j) (hexThird : hexValue? third = some k)
      (hexFourth : hexValue? fourth = some l)
      (number : c.toNat = ((i * 16 + j) * 16 + k) * 16 + l) :
      WritesChar c ['\\', 'u', first, second, third, fourth]

/-- How the characters of a string may be written, one after the other. -/
inductive WritesChars : List Char → List Char → Prop
  | nil : WritesChars [] []
  | cons (first : WritesChar c front) (later : WritesChars rest back) :
      WritesChars (c :: rest) (front ++ back)

variable {c : Char} {chars text rest : List Char}

/-- One character of a string, or a backslash with the character behind it. -/
def stringPart : Pattern :=
  .either (.both (.one (.character '\\')) (.one .inLine)) (.one (.complement (.ofList ['"', '\\'])))

theorem part_raw (quote : c ≠ '"') (slash : c ≠ '\\') (rest : List Char) :
    stringPart.Over [c] rest := by
  refine .right rfl ?_ (.one ?_ rest)
  · rintro _ ⟨⟩
    simpa [Pattern.mayBegin, Pattern.nullable, CharSet.holds] using slash
  · simp [CharSet.holds, CharSet.ofList, quote, slash]

theorem part_escaped (line : c ≠ '\n') (rest : List Char) : stringPart.Over ['\\', c] rest :=
  .left (.one_both rfl (.one (by simpa [CharSet.inLine, CharSet.holds] using line) rest))

theorem hex_plain {value : Nat} (hex : hexValue? c = some value) : c ≠ '"' ∧ c ≠ '\\' := by
  constructor <;> rintro rfl <;> cases hex

theorem escape_plain {letter : Char} (listed : (letter, c) ∈ escapes) :
    letter ≠ '\n' ∧ letter ≠ 'u' ∧ escaped letter = c := by
  have each :
      ∀ entry ∈ escapes, entry.1 ≠ '\n' ∧ entry.1 ≠ 'u' ∧ escaped entry.1 = entry.2 := by decide
  exact each _ listed

/-- What is written for a character is taken as parts of a string. -/
theorem WritesChar.over {front back : List Char} (writes : WritesChar c front)
    (later : stringPart.star.Over back rest) :
    stringPart.star.Over (front ++ back) rest := by
  have raw {c : Char} {back : List Char} (plain : c ≠ '"' ∧ c ≠ '\\')
      (later : stringPart.star.Over back rest) :
      stringPart.star.Over ([c] ++ back) rest :=
    .star_append (by simp) (part_raw plain.1 plain.2 _) later
  cases writes with
  | raw quote slash => exact raw ⟨quote, slash⟩ later
  | escape listed => exact .star_append (by simp) (part_escaped (escape_plain listed).1 _) later
  | code hexFirst hexSecond hexThird hexFourth number =>
      have digits := raw (hex_plain hexFirst) (raw (hex_plain hexSecond) (raw (hex_plain hexThird)
        (raw (hex_plain hexFourth) later)))
      have whole : stringPart.star.Over (['\\', 'u'] ++ _) rest :=
        .star_append (by simp) (part_escaped (by decide) _) digits
      exact whole

theorem WritesChars.over (writes : WritesChars chars text) (rest : List Char) :
    string.Over ('"' :: (text ++ ['"'])) rest := by
  have inside : stringPart.star.Over text (['"'] ++ rest) := by
    induction writes with
    | nil => exact .star_nil rfl (by rintro _ ⟨⟩; decide)
    | cons first later ih => exact first.over ih
  exact .one_both rfl (.both inside (.one rfl rest))

theorem hexCode?_of_digits {first second third fourth : Char} {i j k l : Nat}
    (hexFirst : hexValue? first = some i) (hexSecond : hexValue? second = some j)
    (hexThird : hexValue? third = some k) (hexFourth : hexValue? fourth = some l)
    (rest : List Char) :
    hexCode? (first :: second :: third :: fourth :: rest) =
      some (((i * 16 + j) * 16 + k) * 16 + l, rest) := by
  simp [hexCode?, hexFirst, hexSecond, hexThird, hexFourth]

/-- The number of a character spells the character. -/
theorem ofNat_toNat (c : Char) : CodePoint.ofNat c.toNat = .char c := by
  have whole : isHalf c.toNat = false := by
    have valid : c.toNat < 0xD800 ∨ (0xDFFF < c.toNat ∧ c.toNat < 0x110000) := c.valid
    simp only [isHalf, Bool.and_eq_false_iff, decide_eq_false_iff_not]
    omega
  simp [CodePoint.ofNat, whole, Char.ofNat_toNat]

theorem unescapeWithin_nil (fuel : Nat) : unescapeWithin fuel [] = [] := by cases fuel <;> rfl

theorem unescapeWithin_raw (slash : c ≠ '\\') (fuel : Nat) (rest : List Char) :
    unescapeWithin (fuel + 1) (c :: rest) = .char c :: unescapeWithin fuel rest := by
  cases rest with
  | nil => rw [unescapeWithin_nil]; rfl
  | cons next rest => simp [unescapeWithin, slash]

/-- What is written for a character is read as the character. -/
theorem WritesChar.unescape {front : List Char} (writes : WritesChar c front) {fuel : Nat}
    (rest : List Char) (enough : front.length + rest.length ≤ fuel) :
    ∃ less, rest.length ≤ less ∧ unescapeWithin fuel (front ++ rest) =
      .char c :: unescapeWithin less rest := by
  have long : 0 < front.length := by cases writes <;> simp
  obtain ⟨fuel, rfl⟩ : ∃ less, fuel = less + 1 := ⟨fuel - 1, by omega⟩
  refine ⟨fuel, by omega, ?_⟩
  cases writes with
  | raw quote slash => exact unescapeWithin_raw slash fuel rest
  | escape listed =>
      obtain ⟨line, number, same⟩ := escape_plain listed
      simp [unescapeWithin, line, number, same]
  | code hexFirst hexSecond hexThird hexFourth number =>
      have spelled := hexCode?_of_digits hexFirst hexSecond hexThird hexFourth rest
      rw [← number] at spelled
      simp [unescapeWithin, spelled, ofNat_toNat]

theorem WritesChars.unescape (writes : WritesChars chars text) :
    unescape text = .ofChars chars := by
  suffices all : ∀ fuel, text.length ≤ fuel →
      unescapeWithin fuel text = .ofChars chars from all _ (Nat.le_refl _)
  induction writes with
  | nil => exact fun fuel _ => unescapeWithin_nil fuel
  | cons first later ih =>
      intro fuel enough
      rw [List.length_append] at enough
      obtain ⟨less, further, same⟩ := first.unescape _ enough
      rw [same, ih less further]
      rfl

theorem unquote_quoted (text : List Char) : unquote ('"' :: (text ++ ['"'])) = unescape text := by
  rw [unquote, slice_inner]

end Strings

section Numbers

/-- What no numeral goes on with. -/
def Ends (rest : List Char) : Prop :=
  ∀ c ∈ rest.head?, isDecimalDigit c = false ∧ c ∉ ['.', 'e', 'E']

variable {written : Written} {rest : List Char}

theorem not_sign {c : Char} (digit : isDecimalDigit c = true) :
    (Pattern.one (.ofList ['-', '+'])).mayBegin c = false := by
  have minus := ne_of_isDecimalDigit digit (show isDecimalDigit '-' = false by decide)
  have plus := ne_of_isDecimalDigit digit (show isDecimalDigit '+' = false by decide)
  simp [Pattern.mayBegin, CharSet.ofList, CharSet.holds, minus, plus]

/-- The exponent of a number, if there is one. -/
def exponentPart : Pattern :=
  .optional
    (.both (.one (.ofList ['e', 'E'])) (.both (.optional (.one (.ofList ['-', '+']))) digits))

theorem exponent_over (wellFormed : written.WellFormed) (ends : Ends rest) :
    exponentPart.Over written.exponentText rest := by
  cases raised : written.exponent with
  | none =>
      simp only [Written.exponentText, raised, Option.elim_none]
      refine .noOptional rfl fun c here => ?_
      have other := (ends c here).2
      simp only [List.mem_cons, List.not_mem_nil, or_false, not_or] at other
      simp [Pattern.mayBegin, Pattern.nullable, CharSet.ofList, CharSet.holds, other]
  | some exponent =>
      have right := wellFormed.exponent exponent raised
      have size : digits.Over exponent.digits rest :=
        digits_over right.digits fun c here => (ends c here).1
      have signed : (Pattern.both (.optional (.one (.ofList ['-', '+']))) digits).Over
          (exponent.sign.toList ++ exponent.digits) rest := by
        refine .both ?_ size
        rcases right.sign with absent | minus | plus
        · obtain ⟨digit, more, shape⟩ := List.exists_cons_of_ne_nil right.digits.1
          have size := right.digits.2
          rw [absent, shape]
          rw [shape] at size
          refine .noOptional rfl ?_
          rintro _ ⟨⟩
          exact not_sign (size digit (by simp))
        · rw [minus]
          exact .optional (.one rfl _)
        · rw [plus]
          exact .optional (.one rfl _)
      simp only [Written.exponentText, raised, Option.elim_some, WrittenExponent.text]
      refine .optional (.one_both ?_ signed)
      rcases right.mark with lower | upper
      · rw [lower]; rfl
      · rw [upper]; rfl

/-- A numeral is taken as a whole where nothing goes on with it. -/
theorem number_over (wellFormed : written.WellFormed) (proper : written.Proper) (ends : Ends rest) :
    number.Over written.text rest := by
  have exponent : ∀ c ∈ written.exponentText.head?, isDecimalDigit c = false ∧ c ≠ '.' := by
    intro c here
    rcases wellFormed.exponentText_head? here with rfl | rfl <;> decide
  have behindFraction :
      ∀ c ∈ (written.exponentText ++ rest).head?, isDecimalDigit c = false ∧ c ≠ '.' :=
    forall_head?_append exponent fun c here =>
      ⟨(ends c here).1, fun same => (ends c here).2 (by simp [same])⟩
  have behindWhole : ∀ c ∈ (written.fractionText ++ written.exponentText ++ rest).head?,
      isDecimalDigit c = false :=
    forall_head?_append wellFormed.whole_ended fun c here => (ends c here).1
  have fraction := fraction_over wellFormed behindFraction
  have whole := wholeNumber_over wellFormed proper behindWhole
  have unsigned := Pattern.Over.both whole (fraction.both (exponent_over wellFormed ends))
  refine .both ?_ unsigned
  unfold Written.signText
  cases written.negative with
  | true => exact .optional (.one rfl _)
  | false =>
      obtain ⟨digit, more, shape⟩ := List.exists_cons_of_ne_nil wellFormed.whole.1
      have size := wellFormed.whole.2
      rw [shape] at size ⊢
      refine .noOptional rfl ?_
      rintro _ ⟨⟩
      have minus :=
        ne_of_isDecimalDigit (size digit (by simp)) (show isDecimalDigit '-' = false by decide)
      simpa [Pattern.mayBegin, CharSet.holds] using minus

end Numbers

section Marks

open ScanRule

def blankRule : ScanRule := .ignore blanks 0

def numberRule : ScanRule := .token "Number" number (some .number) 0

def stringRule : ScanRule :=
  { ScanRule.token "String" string (some .string) 0 with
    meaning := fun text => some (unquote text) }

def signRule : ScanRule :=
  .token "Operator" (.one (.ofList [']', '[', '\x7b', '\x7d', ':', ','])) (some .operator) 0

def nameRule : ScanRule := .token "Keyword" keyword (some .keyword) 0

theorem rules_eq : scanner.rules = [blankRule, numberRule, stringRule, signRule, nameRule] := rfl

/-- How a token may be written. -/
def Mark.Writes : Mark → List Char → Prop
  | .word text, lexeme =>
      ∃ chars body, WritesChars chars body ∧ text = .ofChars chars ∧ lexeme = '"' :: (body ++ ['"'])
  | .number written, lexeme => written.WellFormed ∧ written.Proper ∧ lexeme = written.text
  | .sign c _, lexeme => c ∈ [']', '[', '\x7b', '\x7d', ':', ','] ∧ lexeme = [c]
  | .name text, lexeme => text ∈ ["true", "false", "null"] ∧ lexeme = text.toList

/-- A text is some tokens, one after the other, with any blanks before and behind them. -/
inductive Printed : List Mark → List Char → Prop
  | done (blank : ∀ c ∈ front, isBlank c = true) : Printed [] front
  | mark (blank : ∀ c ∈ front, isBlank c = true) (writes : Mark.Writes mark lexeme)
      (later : Printed marks text) :
      Printed (mark :: marks) (front ++ (lexeme ++ text))

/-- Of two tokens side by side, one is a sign. -/
def Separated (marks : List Mark) : Prop :=
  marks.IsChain fun first second => first.isSign = true ∨ second.isSign = true

variable {mark : Mark} {lexeme rest : List Char} {spot : Spot}

/-- No rule but that for numbers matches anything that begins like a numeral. -/
theorem first_of_number {written : Written} (proper : written.Proper) :
    ∃ first more, written.text = first :: more ∧
      silentAt [blankRule, stringRule, signRule, nameRule] first = true := by
  have digits : ∀ code < 58, 48 ≤ code →
      silentAt [blankRule, stringRule, signRule, nameRule] (Char.ofNat code) = true := by decide
  unfold Written.text Written.signText
  cases written.negative with
  | true => exact ⟨'-', _, rfl, by decide⟩
  | false =>
      rcases proper with zero | ⟨first, more, whole, low, high⟩
      · exact ⟨'0', _, by rw [zero]; rfl, by decide⟩
      · have plain :=
          digits first.toNat (Nat.lt_succ_of_le (Char.le_def.mp high))
            (Nat.le_of_succ_le (Char.le_def.mp low))
        rw [Char.ofNat_toNat] at plain
        exact ⟨first, _, by rw [whole]; rfl, plain⟩

/-- What is written for a token is scanned as the token. -/
theorem Mark.Writes.wins (writes : mark.Writes lexeme) (ends : mark.isSign = false → Ends rest)
    (ahead : spot.rest = lexeme ++ rest) :
    ∃ rule, best? false spot scanner.rules none = some (rule, lexeme.length) ∧
      rule.face? lexeme = some mark.face := by
  rw [rules_eq]
  cases mark with
  | word text =>
      obtain ⟨chars, body, writes, rfl, rfl⟩ := writes
      refine ⟨stringRule, best?_of_over [blankRule, numberRule] [signRule, nameRule]
        (writes.over rest) (by decide) ahead, ?_⟩
      have meant : unquote ('"' :: (body ++ ['"'])) = .ofChars chars :=
        (unquote_quoted body).trans writes.unescape
      simp [stringRule, ScanRule.token, face?, meant, Mark.face]
  | number written =>
      obtain ⟨wellFormed, proper, rfl⟩ := writes
      have takes := number_over wellFormed proper (ends rfl)
      obtain ⟨first, more, shape, silent⟩ := first_of_number proper
      rw [shape] at takes ahead ⊢
      refine ⟨numberRule,
        best?_of_over [blankRule] [stringRule, signRule, nameRule] takes silent ahead, ?_⟩
      simp [numberRule, ScanRule.token, face?, shape, Mark.face]
  | sign c quotable =>
      obtain ⟨held, rfl⟩ := writes
      refine ⟨signRule, best?_of_over [blankRule, numberRule, stringRule] [nameRule]
        (.one ((Pattern.holds_ofList _ c).mpr held) rest) ?_ ahead, rfl⟩
      simp only [List.mem_cons, List.not_mem_nil, or_false] at held
      rcases held with rfl | rfl | rfl | rfl | rfl | rfl <;> decide
  | name text =>
      obtain ⟨held, rfl⟩ := writes
      simp only [List.mem_cons, List.not_mem_nil, or_false] at held
      rcases held with rfl | rfl | rfl
      · have takes : keyword.Over "true".toList rest := .left (.ofText _ rest)
        exact ⟨nameRule, best?_of_over [blankRule, numberRule, stringRule, signRule] [] takes
          (by decide) ahead, rfl⟩
      · have takes : keyword.Over "false".toList rest :=
          .right rfl (by rintro _ ⟨⟩; decide) (.left (.ofText _ rest))
        exact ⟨nameRule, best?_of_over [blankRule, numberRule, stringRule, signRule] [] takes
          (by decide) ahead, rfl⟩
      · have takes : keyword.Over "null".toList rest := .right rfl (by rintro _ ⟨⟩; decide)
          (.right rfl (by rintro _ ⟨⟩; decide) (.ofText _ rest))
        exact ⟨nameRule, best?_of_over [blankRule, numberRule, stringRule, signRule] [] takes
          (by decide) ahead, rfl⟩

/-- No token begins with a blank. -/
theorem Mark.Writes.first (writes : mark.Writes lexeme) :
    ∃ c more, lexeme = c :: more ∧ isBlank c = false := by
  cases mark with
  | word text =>
      obtain ⟨chars, body, _, _, rfl⟩ := writes
      exact ⟨'"', _, rfl, by decide⟩
  | number written =>
      obtain ⟨wellFormed, proper, rfl⟩ := writes
      obtain ⟨first, more, shape, _⟩ := first_of_number proper
      exact ⟨first, more, shape, wellFormed.not_isBlank (by simp [shape])⟩
  | sign c quotable =>
      obtain ⟨held, rfl⟩ := writes
      refine ⟨c, [], rfl, ?_⟩
      simp only [List.mem_cons, List.not_mem_nil, or_false] at held
      rcases held with rfl | rfl | rfl | rfl | rfl | rfl <;> decide
  | name text =>
      obtain ⟨held, rfl⟩ := writes
      simp only [List.mem_cons, List.not_mem_nil, or_false] at held
      rcases held with rfl | rfl | rfl
      · exact ⟨'t', _, rfl, by decide⟩
      · exact ⟨'f', _, rfl, by decide⟩
      · exact ⟨'n', _, rfl, by decide⟩

variable {marks : List Mark} {text : List Char}

theorem blanks_over {front : List Char} (some : front ≠ []) (blank : ∀ c ∈ front, isBlank c = true)
    (solid : ∀ c ∈ rest.head?, isBlank c = false) (ahead : spot.rest = front ++ rest) :
    best? false spot scanner.rules none = .some (blankRule, front.length) := by
  rw [rules_eq]
  cases front with
  | nil => exact absurd rfl some
  | cons first more =>
      have silent : silentAt [numberRule, stringRule, signRule, nameRule] first = true :=
        of_isBlank (fun c => silentAt [numberRule, stringRule, signRule, nameRule] c = true)
          (by decide) (blank first (by simp))
      exact best?_of_over [] [numberRule, stringRule, signRule, nameRule]
        (.plus_one some blank solid) silent ahead

/-- Blanks in front are skipped. -/
theorem exists_course {front : List Char} {stretches : List (ScanRule × List Char)}
    (blank : ∀ c ∈ front, isBlank c = true) (solid : ∀ c ∈ rest.head?, isBlank c = false)
    (ahead : spot.rest = front ++ rest)
    (later : Course scanner.rules (spot.advance front.length) stretches) :
    ∃ whole, Course scanner.rules spot whole ∧ faces whole = faces stretches := by
  cases front with
  | nil => exact ⟨stretches, by simpa using later, rfl⟩
  | cons first more => exact ⟨_, .wins ahead (blanks_over (by simp) blank solid ahead) later, rfl⟩

/-- Behind a number comes a blank, a sign or nothing. -/
theorem Printed.ends (printed : Printed marks text)
    (signed : ∀ mark ∈ marks.head?, mark.isSign = true) : Ends text := by
  have plain {c : Char} (blank : isBlank c = true) :
      isDecimalDigit c = false ∧ c ∉ ['.', 'e', 'E'] :=
    of_isBlank (fun c => isDecimalDigit c = false ∧ c ∉ ['.', 'e', 'E']) (by decide) blank
  cases printed with
  | done blank => exact fun c here => plain (blank c (List.mem_of_mem_head? here))
  | @mark front mark lexeme marks text blank writes later =>
      refine forall_head?_append (fun c here => plain (blank c (List.mem_of_mem_head? here))) ?_
      cases mark with
      | sign c quotable =>
          obtain ⟨held, rfl⟩ := writes
          rintro _ ⟨⟩
          simp only [List.mem_cons, List.not_mem_nil, or_false] at held
          rcases held with rfl | rfl | rfl | rfl | rfl | rfl <;> decide
      | _ => cases signed _ rfl

theorem Printed.course (printed : Printed marks text) (separated : Separated marks)
    (ahead : spot.rest = text) :
    ∃ stretches, Course scanner.rules spot stretches ∧ faces stretches = marks.map Mark.face := by
  induction printed generalizing spot with
  | @done front blank =>
      have whole : spot.rest = front ++ [] := by simpa using ahead
      have ended : (spot.advance front.length).rest = [] := by simp [ahead]
      exact exists_course blank (by simp) whole (.done ended)
  | @mark front mark lexeme marks text blank writes later ih =>
      obtain ⟨first, more, shape, solid⟩ := writes.first
      have here : (spot.advance front.length).rest = lexeme ++ text := by simp [ahead]
      have behind : ((spot.advance front.length).advance lexeme.length).rest = text := by
        simp [ahead]
      have ends (plain : mark.isSign = false) : Ends text := by
        refine later.ends fun second ahead => ?_
        obtain ⟨tail, rfl⟩ := List.head?_eq_some_iff.mp ahead
        exact (List.isChain_cons_cons.mp separated).1.resolve_left (by simp [plain])
      obtain ⟨rule, won, face⟩ := writes.wins ends here
      obtain ⟨stretches, course, told⟩ := ih separated.tail behind
      obtain ⟨whole, courseWhole, same⟩ :=
        exists_course blank (by simpa [shape] using solid) ahead (.wins here won course)
      have joined : faces ((rule, lexeme) :: stretches) = mark.face :: faces stretches := by
        simp [faces, face]
      exact ⟨whole, courseWhole, by rw [same, joined, told, List.map_cons]⟩

/-- A printed text is scanned as its tokens and the end of the text. -/
theorem Printed.scan (printed : Printed marks text) (separated : Separated marks) :
    (scanner.scan text).error = none ∧ (scanner.scan text).tokens.map Token.face =
      marks.map Mark.face ++ [.finish] := by
  have whole : (Spot.front text).rest = text := rfl
  obtain ⟨stretches, course, told⟩ := printed.course separated whole
  have scanned := byTable.scan_course course
  rwa [told] at scanned

/-- The tokens of lists and objects are apart. -/
theorem separated_sign {c : Char} {quotable : Bool} (separated : Separated marks) :
    Separated (.sign c quotable :: marks) := by
  cases marks with
  | nil => exact .singleton _
  | cons second rest => exact List.isChain_cons_cons.mpr ⟨.inl rfl, separated⟩

theorem separated_append {front : List Mark} (separated : Separated front) (later : Separated marks)
    (signed : ∀ mark ∈ marks.head?, mark.isSign = true) : Separated (front ++ marks) :=
  List.isChain_append.mpr ⟨separated, later, fun _ _ second here => .inr (signed second here)⟩

theorem separated_group {Item : Type} {tokens : Item → List Mark} {items : List Item}
    (left right : Char) (quotable : Bool) (each : ∀ item ∈ items, Separated (tokens item)) :
    Separated (groupMarks left right quotable tokens items) := by
  have closed :
      Separated
        ((items.flatMap fun item => .sign ',' true :: tokens item) ++ [.sign right true]) := by
    induction items with
    | nil => exact .singleton _
    | cons first rest ih =>
        obtain ⟨here, later⟩ := List.forall_mem_cons.mp each
        rw [List.flatMap_cons, List.append_assoc]
        refine separated_append (separated_sign here) (ih later) ?_
        cases rest <;> rintro _ ⟨⟩ <;> rfl
  cases items with
  | nil => exact separated_sign (.singleton _)
  | cons first rest => exact separated_sign closed.tail

theorem Datum.separated_pair {member : Wording × Datum} (separated : Separated member.2.marks) :
    Separated (Datum.pairMarks member) :=
  List.isChain_cons_cons.mpr ⟨.inr rfl, separated_sign separated⟩

theorem Datum.separated (datum : Datum) : Separated datum.marks := by
  induction datum with
  | word text => exact .singleton _
  | number written => exact .singleton _
  | list items each =>
      rw [marks_list]
      exact separated_group '[' ']' false each
  | truth held => exact .singleton _
  | null => exact .singleton _
  | object members each =>
      rw [marks_object]
      exact separated_group '\x7b' '\x7d' false fun member held => separated_pair (each member held)

end Marks

section Parse

variable {members : List (Wording × Datum)} {text : List Char}

/-- However an object is printed, a parse of the text gives the object back. Its keys must differ,
and no integer in it may have too many digits. -/
theorem parse_printed (legible : (Datum.object members).Every Datum.Legible)
    (distinct : (Datum.object members).Every Datum.Distinct)
    (printed : Printed (Datum.wholeMarks members) text) :
    (parse objectId text).result.map data = .ok (Datum.object members).plain := by
  have inside : ∀ member ∈ members, member.2.Every Datum.Legible := by
    cases legible with
    | object _ inside => exact inside
  have separated : Separated (Datum.wholeMarks members) :=
    separated_group '\x7b' '\x7d' true fun member _ => Datum.separated_pair member.2.separated
  obtain ⟨clean, faces⟩ := printed.scan separated
  obtain ⟨stream, tokens, last, streamed⟩ := Registry.exists_streamed byTable clean
  have shown : List.Forall₂ Mark.Shows (Datum.wholeMarks members) tokens :=
    streamed.shows_iff.mpr faces
  obtain ⟨spells, stop, found, marked⟩ := streamed.spells_iff.mpr shown
  have taken : ∀ member ∈ members, member.2.Taken stream :=
    fun member held => Datum.takes (inside member held)
  have derived : Registry.Derived env stream objectId objectTree blankObject
      (objectRecord (Datum.memberRecords members)) :=
    ⟨_, stop, _, Datum.object_takes taken true rfl spells, by rwa [Nat.zero_add], marked,
      objectRecord_fills _⟩
  have parsed := (parse_ok_iff streamed.streamed).mpr derived
  have read : data (objectRecord (Datum.memberRecords members)) = (Datum.object members).value :=
    Datum.data_object fun member _ => member.2.data_record
  rw [parsed, Except.map, read, Datum.value_eq_plain distinct]

/-- A key written by an escape and by a code, and blanks on either side of a comma. -/
def escapedKey : List Char := "\x7b\"\\/\\u0041\": [-12 , \"\"]\x7d".toList

def escapedKeyMembers : List (Wording × Datum) :=
  [(.ofChars ['/', 'A'], .list [.number (.ofInt (-12)), .word []])]

theorem escapedKey_printed : Printed (Datum.wholeMarks escapedKeyMembers) escapedKey := by
  have key : WritesChars ['/', 'A'] ['\\', '/', '\\', 'u', '0', '0', '4', '1'] :=
    .cons (.escape (by decide)) (.cons (.code rfl rfl rfl rfl rfl) .nil)
  have space : ∀ c ∈ [' '], isBlank c = true := List.forall_mem_singleton.mpr rfl
  refine @Printed.mark [] _ ['\x7b'] _ _ (by simp) ⟨by simp, rfl⟩ ?_
  refine @Printed.mark [] _ "\"\\/\\u0041\"".toList _ _ (by simp) ⟨_, _, key, rfl, rfl⟩ ?_
  refine @Printed.mark [] _ [':'] _ _ (by simp) ⟨by simp, rfl⟩ ?_
  refine @Printed.mark [' '] _ ['['] _ _ space ⟨by simp, rfl⟩ ?_
  refine @Printed.mark [] _ ['-', '1', '2'] _ _ (by simp)
    ⟨Written.ofInt_wellFormed _, Written.ofInt_proper _, rfl⟩ ?_
  refine @Printed.mark [' '] _ [','] _ _ space ⟨by simp, rfl⟩ ?_
  refine @Printed.mark [' '] _ ['"', '"'] _ _ space ⟨[], [], .nil, rfl, rfl⟩ ?_
  refine @Printed.mark [] _ [']'] _ _ (by simp) ⟨by simp, rfl⟩ ?_
  exact @Printed.mark [] _ ['\x7d'] _ [] (by simp) ⟨by simp, rfl⟩ (.done (by simp))

theorem escapedKey_parsed :
    (Datum.object escapedKeyMembers).Every Datum.Legible ∧
      (Datum.object escapedKeyMembers).Every Datum.Distinct ∧
      Printed (Datum.wholeMarks escapedKeyMembers) escapedKey ∧
      (parse objectId escapedKey).result.map data =
        .ok (.dictionary [(.ofString "/A", .list [.int (-12), .text []])]) := by
  have number : (Nat.toDigits 10 (-12 : Int).natAbs).length ≤ Decimal.digitLimit := by decide
  have legible : (Datum.object escapedKeyMembers).Every Datum.Legible := by
    refine .object trivial (List.forall_mem_singleton.mpr (.list trivial ?_))
    refine List.forall_mem_cons.mpr
      ⟨.number ⟨Written.ofInt_wellFormed _, Written.ofInt_short number⟩, ?_⟩
    exact List.forall_mem_singleton.mpr (.word trivial)
  have distinct : (Datum.object escapedKeyMembers).Every Datum.Distinct := by
    refine .object (List.nodup_singleton _) (List.forall_mem_singleton.mpr (.list trivial ?_))
    exact List.forall_mem_cons.mpr ⟨.number trivial, List.forall_mem_singleton.mpr (.word trivial)⟩
  exact ⟨legible, distinct, escapedKey_printed, parse_printed legible distinct escapedKey_printed⟩

end Parse

end RecordGrammar.Worked.Json
