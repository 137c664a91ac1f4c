import RecordGrammar.Proofs.Text.Classes
import RecordGrammar.ValueKind

namespace RecordGrammar

open RecordGrammar.Text

/-! Decimal literals: the texts that are numbers without anything around or between their digits.

Readers of integers and of floating-point numbers take more than these. On these they agree with
what the digits denote, and an integer fails only by the number of its digits. -/

namespace Decimal

/-- Digits of any script, at least one. -/
def IsDigits (text : List Char) : Prop := text ≠ [] ∧ ∀ c ∈ text, isDecimalDigit c = true

instance (text : List Char) : Decidable (IsDigits text) :=
  inferInstanceAs (Decidable (text ≠ [] ∧ ∀ c ∈ text, isDecimalDigit c = true))

/-- What the digits of a text stand for, one by one. -/
def digitsOf (text : List Char) : List Nat := text.filterMap digitValue?

/-- The exponent of a numeral as it is written: the mark, a sign if there is one, and digits. -/
structure WrittenExponent where
  mark : Char
  sign : Option Char
  digits : List Char

namespace WrittenExponent

def text (exponent : WrittenExponent) : List Char :=
  exponent.mark :: exponent.sign.toList ++ exponent.digits

def value (exponent : WrittenExponent) : Int :=
  if exponent.sign = some '-' then -(ofDigits (digitsOf exponent.digits) : Int)
  else ofDigits (digitsOf exponent.digits)

structure WellFormed (exponent : WrittenExponent) : Prop where
  mark : exponent.mark = 'e' ∨ exponent.mark = 'E'
  sign : exponent.sign = none ∨ exponent.sign = some '-' ∨ exponent.sign = some '+'
  digits : IsDigits exponent.digits

end WrittenExponent

def IsSign (sign : Option Char) : Prop := sign = none ∨ sign = some '-' ∨ sign = some '+'

/-- A decimal literal: a sign if there is one, digits, a point and digits after it, and perhaps an
exponent. -/
structure Literal where
  sign : Option Char
  whole : List Char
  fraction : Option (List Char)
  exponent : Option WrittenExponent

namespace Literal

variable (literal : Literal)

def fractionText : List Char := literal.fraction.elim [] ('.' :: ·)

def exponentText : List Char := literal.exponent.elim [] WrittenExponent.text

def body : List Char := literal.whole ++ (literal.fractionText ++ literal.exponentText)

def text : List Char := literal.sign.toList ++ literal.body

/-- Whether a literal is an integer's: it has neither a point nor an exponent. -/
def isWhole : Bool := literal.fraction.isNone && literal.exponent.isNone

def integer : Int :=
  if literal.sign = some '-' then -(ofDigits (digitsOf literal.whole) : Int)
    else ofDigits (digitsOf literal.whole)

def parts : Numeral where
  negative := decide (literal.sign = some '-')
  whole := digitsOf literal.whole
  fraction := literal.fraction.elim [] digitsOf
  exponent := literal.exponent.elim 0 WrittenExponent.value

/-- There are digits on one side of the point at least, and without a point there are digits. -/
structure WellFormed : Prop where
  sign : IsSign literal.sign
  whole : ∀ c ∈ literal.whole, isDecimalDigit c = true
  fraction : ∀ digits ∈ literal.fraction, ∀ c ∈ digits, isDecimalDigit c = true
  digits : literal.whole ≠ [] ∨ ∃ digits ∈ literal.fraction, digits ≠ []
  exponent : ∀ exponent ∈ literal.exponent, exponent.WellFormed

end Literal

section Digits

variable {text rest : List Char}

theorem digitsOf_cons {c : Char} (digit : isDecimalDigit c = true) (rest : List Char) :
    ∃ value, digitValue? c = some value ∧ digitsOf (c :: rest) = value :: digitsOf rest := by
  obtain ⟨value, found⟩ := Option.isSome_iff_exists.mp ((isSome_digitValue? c).trans digit)
  exact ⟨value, found, by simp [digitsOf, found]⟩

theorem length_digitsOf (each : ∀ c ∈ text, isDecimalDigit c = true) :
    (digitsOf text).length = text.length := by
  induction text with
  | nil => rfl
  | cons c rest ih =>
      obtain ⟨value, _, step⟩ := digitsOf_cons (each c (by simp)) rest
      rw [step, List.length_cons, List.length_cons,
        ih fun other held => each other (by simp [held])]

theorem digitsOf_ne_nil (digits : IsDigits text) : digitsOf text ≠ [] := by
  intro none
  have length := length_digitsOf digits.2
  rw [none] at length
  exact digits.1 (List.length_eq_zero_iff.mp length.symm)

theorem spanDigits_append (each : ∀ c ∈ text, isDecimalDigit c = true)
    (ended : ∀ c ∈ rest.head?, isDecimalDigit c = false) :
    spanDigits (text ++ rest) = (digitsOf text, rest) := by
  rw [spanDigits, takeWhile_append_of_all each ended, dropWhile_append_of_all each ended]
  rfl

/-- Without underscores, a run of digits is read as it stands. -/
theorem groupedDigits?_eq (digits : IsDigits text) :
    groupedDigits? text = some (digitsOf text) := by
  obtain ⟨some, each⟩ := digits
  induction text with
  | nil => exact absurd rfl some
  | cons c rest ih =>
      obtain ⟨value, found, step⟩ := digitsOf_cons (each c (by simp)) rest
      cases rest with
      | nil => simp [groupedDigits?, found, digitsOf]
      | cons next rest =>
          have plain : next ≠ '_' := ne_of_isDecimalDigit (each next (by simp)) (by decide)
          have later := ih (by simp) fun other held => each other (by simp [held])
          rw [groupedDigits?.eq_4 _ _ (by simp) (by intro _ same; cases same; exact plain rfl)]
          simp [found, later, step]

theorem splitSign_signed {sign : Option Char} (spelled : IsSign sign)
    (plain : ∀ c ∈ rest.head?, c ≠ '-' ∧ c ≠ '+') :
    splitSign (sign.toList ++ rest) = (decide (sign = some '-'), rest) := by
  rcases spelled with rfl | rfl | rfl
  · cases rest with
    | nil => rfl
    | cons c rest =>
        obtain ⟨minus, plus⟩ := plain c rfl
        exact splitSign.eq_3 _ (by intro _ same; cases same; exact minus rfl)
          (by intro _ same; cases same; exact plus rfl)
  · rfl
  · rfl

theorem splitSign_spells {negative : Bool} (parted : splitSign text = (negative, rest)) :
    ∃ sign, IsSign sign ∧ text = sign.toList ++ rest ∧ negative = decide (sign = some '-') := by
  unfold splitSign at parted
  split at parted <;> cases parted
  · exact ⟨some '-', .inr (.inl rfl), rfl, rfl⟩
  · exact ⟨some '+', .inr (.inr rfl), rfl, rfl⟩
  · exact ⟨none, .inl rfl, rfl, rfl⟩

theorem mem_sign {sign : Option Char} (spelled : IsSign sign) {c : Char} (held : c ∈ sign.toList) :
    c ∈ ['-', '+'] := by
  rcases spelled with rfl | rfl | rfl
  · cases held
  · exact List.mem_cons.mpr (.inl (List.mem_singleton.mp held))
  · exact List.mem_cons_of_mem _ held

theorem spanDigits_spells {digits : List Nat} (parted : spanDigits text = (digits, rest)) :
    ∃ run, (∀ c ∈ run, isDecimalDigit c = true) ∧ text = run ++ rest ∧ digits = digitsOf run := by
  cases parted
  refine ⟨text.takeWhile isDecimalDigit, ?_, List.takeWhile_append_dropWhile.symm, rfl⟩
  intro c held
  exact List.all_eq_true.mp List.all_takeWhile c held

theorem WrittenExponent.WellFormed.readExponent?_text {exponent : WrittenExponent}
    (right : exponent.WellFormed) :
    readExponent? exponent.text = some exponent.value := by
  obtain ⟨size, sizes, values⟩ := List.exists_cons_of_ne_nil (digitsOf_ne_nil right.digits)
  have spanned : spanDigits (exponent.digits ++ []) = (digitsOf exponent.digits, []) :=
    spanDigits_append right.digits.2 (by simp)
  rw [List.append_nil] at spanned
  have signed : splitSign (exponent.sign.toList ++ exponent.digits) =
      (decide (exponent.sign = some '-'), exponent.digits) := by
    apply splitSign_signed right.sign
    intro c here
    have digit := right.digits.2 c (List.mem_of_mem_head? here)
    exact ⟨ne_of_isDecimalDigit digit (by decide), ne_of_isDecimalDigit digit (by decide)⟩
  have marked : (exponent.mark == 'e' || exponent.mark == 'E') = true := by
    rw [Bool.or_eq_true, beq_iff_eq, beq_iff_eq]
    exact right.mark
  simp only [WrittenExponent.text, WrittenExponent.value, List.cons_append, readExponent?, marked,
    if_true, signed, spanned, values, decide_eq_true_eq]

end Digits

section Padding

theorem not_isPadding {c : Char} (plain : isBlank c = false) : isPadding c = false := by
  simp [isPadding, plain]

theorem dropWhile_isPadding {text : List Char} (plain : ∀ c ∈ text, isBlank c = false) :
    text.dropWhile isPadding = text := by
  cases text with
  | nil => rfl
  | cons c rest => rw [List.dropWhile_cons_of_neg (by simp [not_isPadding (plain c (by simp))])]

theorem dropUnderscores?_eq {text : List Char} (without : '_' ∉ text) (afterDigit : Bool) :
    dropUnderscores? afterDigit text = some text := by
  induction text generalizing afterDigit with
  | nil => rfl
  | cons c rest ih =>
      have plain : c ≠ '_' := fun same => without (by simp [same])
      rw [dropUnderscores?.eq_4 _ _ _ plain, ih fun held => without (by simp [held])]
      rfl

theorem toLower_of_isDecimalDigit {c : Char} (digit : isDecimalDigit c = true) : c.toLower = c := by
  unfold Char.toLower
  split
  · rename_i capital
    have none : ∀ code < 91, 65 ≤ code → inRuns decimalDigitRuns code = false := by decide
    have lower : 65 ≤ c.toNat := capital.1
    have upper : c.toNat ≤ 90 := capital.2
    simp [isDecimalDigit, none c.toNat (by omega) lower] at digit
  · rfl

end Padding

namespace Literal

variable {literal : Literal}

/-- A literal goes on with a digit or a point behind its sign. -/
theorem WellFormed.body_head (wellFormed : literal.WellFormed) :
    ∃ c rest, literal.body = c :: rest ∧ (isDecimalDigit c = true ∨ c = '.') := by
  cases front : literal.whole with
  | cons c rest =>
      have digit : isDecimalDigit c = true :=
        wellFormed.whole c (by rw [front]; exact List.mem_cons_self)
      exact ⟨c, _, by rw [body, front, List.cons_append], .inl digit⟩
  | nil =>
      rcases wellFormed.digits with some | ⟨digits, pointed, _⟩
      · exact absurd front some
      · exact ⟨'.', digits ++ literal.exponentText, by rw [body, front, fractionText, pointed]; rfl,
          .inr rfl⟩

theorem WellFormed.splitSign_text (wellFormed : literal.WellFormed) :
    splitSign literal.text = (decide (literal.sign = some '-'), literal.body) := by
  apply splitSign_signed wellFormed.sign
  obtain ⟨c, rest, shape, digit | point⟩ := wellFormed.body_head
  · rw [shape]
    intro other here
    cases here
    exact ⟨ne_of_isDecimalDigit digit (by decide), ne_of_isDecimalDigit digit (by decide)⟩
  · rw [shape, point]
    intro other here
    cases here
    decide

theorem WellFormed.exponentText_head? (wellFormed : literal.WellFormed) {c : Char}
    (here : c ∈ literal.exponentText.head?) : c = 'e' ∨ c = 'E' := by
  cases raised : literal.exponent with
  | none => simp [exponentText, raised] at here
  | some exponent =>
      simp only [exponentText, raised, Option.elim_some, WrittenExponent.text, List.cons_append,
        List.head?_cons, Option.mem_some_iff] at here
      exact here ▸ (wellFormed.exponent exponent raised).mark

theorem WellFormed.exponentText_ended (wellFormed : literal.WellFormed) :
    ∀ c ∈ literal.exponentText.head?, isDecimalDigit c = false := by
  intro c here
  rcases wellFormed.exponentText_head? here with rfl | rfl <;> decide

theorem WellFormed.whole_ended (wellFormed : literal.WellFormed) :
    ∀ c ∈ (literal.fractionText ++ literal.exponentText).head?, isDecimalDigit c = false := by
  cases pointed : literal.fraction with
  | none => simpa [fractionText, pointed] using wellFormed.exponentText_ended
  | some digits =>
      simp only [fractionText, pointed, Option.elim_some, List.cons_append, List.head?_cons,
        Option.mem_some_iff]
      intro c point
      rw [← point]
      decide

/-- Every character of a literal is a digit or one of a few marks. -/
theorem WellFormed.mem_text (wellFormed : literal.WellFormed) {c : Char} (held : c ∈ literal.text) :
    isDecimalDigit c = true ∨ c ∈ ['-', '+', '.', 'e', 'E'] := by
  have signs {c : Char} (sign : c ∈ ['-', '+']) : c ∈ ['-', '+', '.', 'e', 'E'] :=
    List.mem_append_left _ sign
  rw [text, body, List.mem_append, List.mem_append, List.mem_append] at held
  rcases held with held | held | held | held
  · exact .inr (signs (mem_sign wellFormed.sign held))
  · exact .inl (wellFormed.whole c held)
  · cases pointed : literal.fraction with
    | none => simp [fractionText, pointed] at held
    | some digits =>
        simp only [fractionText, pointed, Option.elim_some, List.mem_cons] at held
        rcases held with rfl | held
        · simp
        · exact .inl (wellFormed.fraction digits pointed c held)
  · cases raised : literal.exponent with
    | none => simp [exponentText, raised] at held
    | some exponent =>
        have right := wellFormed.exponent exponent raised
        simp only [exponentText, raised, Option.elim_some, WrittenExponent.text, List.cons_append,
          List.mem_cons, List.mem_append] at held
        rcases held with rfl | held | held
        · rcases right.mark with mark | mark <;> simp [mark]
        · exact .inr (signs (mem_sign right.sign held))
        · exact .inl (right.digits.2 c held)

theorem WellFormed.not_isBlank (wellFormed : literal.WellFormed) {c : Char}
    (held : c ∈ literal.text) :
    isBlank c = false := by
  rcases wellFormed.mem_text held with digit | mark
  · exact not_isBlank_of_isDecimalDigit digit
  · have plain : ∀ c ∈ ['-', '+', '.', 'e', 'E'], isBlank c = false := by decide
    exact plain c mark

theorem WellFormed.without_underscore (wellFormed : literal.WellFormed) : '_' ∉ literal.text := by
  intro held
  rcases wellFormed.mem_text held with digit | mark
  · exact absurd digit (by decide)
  · exact absurd mark (by decide)

theorem WellFormed.readExponent?_exponentText (wellFormed : literal.WellFormed) :
    readExponent? literal.exponentText = some literal.parts.exponent := by
  cases raised : literal.exponent with
  | none => simp [exponentText, parts, raised, readExponent?]
  | some exponent =>
      simpa only [exponentText, parts, raised, Option.elim_some] using
        (wellFormed.exponent exponent raised).readExponent?_text

theorem WellFormed.some_digit (wellFormed : literal.WellFormed) (bare : literal.parts.whole = []) :
    literal.parts.fraction ≠ [] := by
  rcases wellFormed.digits with front | ⟨digits, pointed, back⟩
  · exact absurd bare (digitsOf_ne_nil ⟨front, wellFormed.whole⟩)
  · have shape : literal.fraction = some digits := pointed
    rw [parts, shape]
    exact digitsOf_ne_nil ⟨back, wellFormed.fraction digits pointed⟩

theorem WellFormed.read?_text (wellFormed : literal.WellFormed) :
    Numeral.read? literal.text = some literal.parts := by
  have whole : spanDigits literal.body =
      (digitsOf literal.whole, literal.fractionText ++ literal.exponentText) :=
    spanDigits_append wellFormed.whole wellFormed.whole_ended
  have digit := wellFormed.some_digit
  have tail := wellFormed.readExponent?_exponentText
  cases pointed : literal.fraction with
  | some digits =>
      have fraction :
          spanDigits (digits ++ literal.exponentText) = (digitsOf digits, literal.exponentText) :=
        spanDigits_append (wellFormed.fraction digits pointed) wellFormed.exponentText_ended
      simp only [parts, pointed, Option.elim_some] at digit
      simpa [Numeral.read?, wellFormed.splitSign_text, whole, fractionText, pointed, fraction, tail,
        parts] using digit
  | none =>
      -- What follows the digits is an exponent or nothing, so it is not taken for a point.
      have unpointed : ∀ after, literal.exponentText ≠ '.' :: after := by
        intro after same
        have marked := wellFormed.exponentText_head? (c := '.') (by simp [same])
        exact absurd marked (by decide)
      simp only [parts, pointed, Option.elim_none] at digit
      have front : digitsOf literal.whole ≠ [] := fun bare => digit bare rfl
      simp [Numeral.read?, wellFormed.splitSign_text, whole, fractionText, pointed, tail,
        front, parts]

/-- No literal is a number by name. -/
theorem WellFormed.readNamedNumber?_text (wellFormed : literal.WellFormed) :
    readNamedNumber? literal.text = none := by
  obtain ⟨c, rest, shape, head⟩ := wellFormed.body_head
  have unchanged : c.toLower = c := by
    rcases head with digit | rfl
    · exact toLower_of_isDecimalDigit digit
    · rfl
  -- The names begin with letters, and folding case leaves digits and the point alone.
  have begins (name : String) (first : Char) (letter : isDecimalDigit first = false ∧ first ≠ '.')
      (named : name.toList.head? = some first) (rest : List Char) :
      (String.ofList (c :: rest) == name) = false := by
    rw [beq_eq_false_iff_ne]
    intro same
    rw [← same, String.toList_ofList, List.head?_cons, Option.some.injEq] at named
    rcases head with digit | point
    · exact ne_of_isDecimalDigit digit letter.1 named
    · exact letter.2 (named.symm.trans point)
  simp only [readNamedNumber?, wellFormed.splitSign_text, shape, List.map_cons, unchanged]
  rw [begins "inf" 'i' (by decide) rfl, begins "infinity" 'i' (by decide) rfl,
    begins "nan" 'n' (by decide) rfl]
  rfl

theorem WellFormed.readFloat?_text (wellFormed : literal.WellFormed) :
    readFloat? literal.text = some literal.parts.toFloat := by
  have front : literal.text.dropWhile isPadding = literal.text :=
    dropWhile_isPadding fun c => wellFormed.not_isBlank
  have back : literal.text.reverse.dropWhile isPadding = literal.text.reverse :=
    dropWhile_isPadding fun c held => wellFormed.not_isBlank (List.mem_reverse.mp held)
  simp only [readFloat?, front, back, List.reverse_reverse, wellFormed.readNamedNumber?_text,
    dropUnderscores?_eq wellFormed.without_underscore, Option.bind_eq_bind, Option.bind_some,
    wellFormed.read?_text]
  rfl

theorem rest_eq_nil_iff :
    literal.fractionText ++ literal.exponentText = [] ↔ literal.isWhole = true := by
  unfold fractionText exponentText isWhole
  cases literal.fraction <;> cases literal.exponent <;> simp [WrittenExponent.text]

theorem body_of_isWhole (whole : literal.isWhole = true) : literal.body = literal.whole := by
  rw [body, rest_eq_nil_iff.mpr whole, List.append_nil]

theorem WellFormed.whole_digits (wellFormed : literal.WellFormed) (whole : literal.isWhole = true) :
    IsDigits literal.whole := by
  obtain ⟨c, rest, shape, _⟩ := wellFormed.body_head
  rw [body_of_isWhole whole] at shape
  exact ⟨by simp [shape], wellFormed.whole⟩

theorem WellFormed.readInteger_text (wellFormed : literal.WellFormed)
    (whole : literal.isWhole = true) :
    readInteger literal.text =
      if digitLimit < literal.whole.length then .error (.tooLong literal.whole.length)
        else .ok literal.integer := by
  have front : literal.text.dropWhile isPadding = literal.text :=
    dropWhile_isPadding fun c => wellFormed.not_isBlank
  have runs : ∀ c ∈ literal.whole, (c == '_' || isDecimalDigit c) = true := by
    intro c held
    rw [wellFormed.whole c held, Bool.or_true]
  have taken : (literal.whole ++ []).takeWhile _ = _ := takeWhile_append_of_all runs (by simp)
  have dropped : (literal.whole ++ []).dropWhile _ = _ := dropWhile_append_of_all runs (by simp)
  rw [List.append_nil] at taken dropped
  simp only [readInteger, front, wellFormed.splitSign_text, body_of_isWhole whole, taken, dropped,
    groupedDigits?_eq (wellFormed.whole_digits whole), length_digitsOf wellFormed.whole,
    List.all_nil, if_true, integer, decide_eq_true_eq]

theorem WellFormed.writtenAsInteger_text (wellFormed : literal.WellFormed) :
    ValueKind.writtenAsInteger literal.text = literal.isWhole := by
  have ended := wellFormed.whole_ended
  have bare : _ ↔ literal.isWhole = true := rest_eq_nil_iff
  rw [ValueKind.writtenAsInteger, wellFormed.splitSign_text, body]
  generalize literal.fractionText ++ literal.exponentText = rest at ended bare
  cases rest with
  | nil =>
      have whole := bare.mp rfl
      obtain ⟨some, each⟩ := wellFormed.whole_digits whole
      simpa [whole, some] using each
  | cons c rest =>
      have pointed : literal.isWhole = false :=
        Bool.eq_false_iff.mpr fun held => nomatch bare.mpr held
      simp [pointed, ended c rfl]

/-- A text written as an integer is a literal without point and exponent. -/
theorem spells_integer {text : List Char} (integral : ValueKind.writtenAsInteger text = true) :
    ∃ literal : Literal, literal.WellFormed ∧ literal.isWhole = true ∧ literal.text = text := by
  obtain ⟨sign, spelled, shape, _⟩ := splitSign_spells (Prod.eta (splitSign text)).symm
  rw [ValueKind.writtenAsInteger, Bool.and_eq_true, Bool.not_eq_true', List.isEmpty_eq_false_iff,
    List.all_eq_true] at integral
  obtain ⟨some, digits⟩ := integral
  refine ⟨⟨sign, (splitSign text).2, none, none⟩, ⟨spelled, digits, ?_, .inl some, ?_⟩, rfl, ?_⟩
  · intro _ none
    cases none
  · intro _ none
    cases none
  · rw [Literal.text, body_of_isWhole rfl, ← shape]

end Literal

theorem readExponent?_spells {text : List Char} {value : Int}
    (read : readExponent? text = some value) :
    ∃ exponent : Option WrittenExponent, (∀ each ∈ exponent, each.WellFormed) ∧
      exponent.elim [] WrittenExponent.text = text ∧
      exponent.elim 0 WrittenExponent.value = value := by
  cases text with
  | nil => exact ⟨none, by simp, rfl, Option.some.inj read⟩
  | cons mark rest =>
      cases signed : splitSign rest with
      | mk negative body =>
      cases spanned : spanDigits body with
      | mk digits tail =>
      simp only [readExponent?, signed, spanned] at read
      split at read
      · rename_i marked
        rw [Bool.or_eq_true, beq_iff_eq, beq_iff_eq] at marked
        split at read
        · rename_i digit digits same
          obtain ⟨sign, spelled, rfl, rfl⟩ := splitSign_spells signed
          obtain ⟨run, each, rfl, values⟩ := spanDigits_spells spanned
          cases same
          refine ⟨some ⟨mark, sign, run⟩, ?_, ?_, ?_⟩
          · intro exponent here
            cases here
            have some : run ≠ [] := by
              intro bare
              rw [bare] at values
              cases values
            exact ⟨marked, spelled, some, each⟩
          · simp [WrittenExponent.text]
          · simpa [WrittenExponent.value, ← values] using read
        · cases read
      · cases read

/-- With or without a point, what is left of a numeral is its exponent. -/
theorem Literal.of_parts {sign : Option Char} {whole tail : List Char}
    (fraction : Option (List Char)) {numeral : Numeral} (spelled : IsSign sign)
    (front : ∀ c ∈ whole, isDecimalDigit c = true)
    (behind : ∀ digits ∈ fraction, ∀ c ∈ digits, isDecimalDigit c = true)
    (digit : whole ≠ [] ∨ ∃ digits ∈ fraction, digits ≠ [])
    (raised : (readExponent? tail).map (fun exponent =>
      { negative := decide (sign = some '-'), whole := digitsOf whole,
        fraction := fraction.elim [] digitsOf, exponent }) = some numeral) :
    ∃ literal : Literal, literal.WellFormed ∧
      literal.text = sign.toList ++ (whole ++ (fraction.elim [] ('.' :: ·) ++ tail)) ∧
      literal.parts = numeral := by
  obtain ⟨size, read, rfl⟩ := Option.map_eq_some_iff.mp raised
  obtain ⟨exponent, right, rfl, rfl⟩ := readExponent?_spells read
  exact ⟨⟨sign, whole, fraction, exponent⟩, ⟨spelled, front, behind, digit, right⟩, rfl, rfl⟩

/-- A text that is read as a numeral is a literal. -/
theorem Numeral.read?_spells {text : List Char} {numeral : Numeral}
    (read : Numeral.read? text = some numeral) :
    ∃ literal : Literal, literal.WellFormed ∧ literal.text = text ∧ literal.parts = numeral := by
  cases signed : splitSign text with
  | mk negative body =>
  cases spanned : spanDigits body with
  | mk digits rest =>
  simp only [Numeral.read?, signed, spanned] at read
  obtain ⟨sign, spelled, rfl, rfl⟩ := splitSign_spells signed
  obtain ⟨whole, front, rfl, rfl⟩ := spanDigits_spells spanned
  split at read
  · rename_i after
    cases parted : spanDigits after with
    | mk digits tail =>
    obtain ⟨fraction, behind, rfl, rfl⟩ := spanDigits_spells parted
    rw [parted] at read
    split at read
    · cases read
    · rename_i digit
      apply Literal.of_parts (some fraction) spelled front _ _ read
      · intro digits here
        cases here
        exact behind
      · by_cases bare : whole = []
        · right
          refine ⟨fraction, rfl, ?_⟩
          intro empty
          rw [bare, empty] at digit
          exact digit rfl
        · exact .inl bare
  · split at read
    · cases read
    · rename_i digit
      apply Literal.of_parts none spelled front _ _ read
      · intro digits here
        cases here
      · left
        intro bare
        rw [bare] at digit
        exact digit rfl

end Decimal

namespace ValueKind

open Decimal

variable {literal : Literal}

theorem ofChars_of_chars? {text : Wording} {chars : List Char} (read : text.chars? = some chars) :
    text = .ofChars chars := by
  fun_induction Wording.chars? text generalizing chars with
  | case1 =>
      cases read
      rfl
  | case2 c rest ih =>
      obtain ⟨later, found, rfl⟩ := Option.map_eq_some_iff.mp read
      rw [ih found]
      rfl
  | case3 => cases read

theorem toInteger_literal (wellFormed : literal.WellFormed) (whole : literal.isWhole = true) :
    toInteger (.ofChars literal.text) =
      if digitLimit < literal.whole.length then .error (.tooManyDigits literal.whole.length)
      else .ok (.int literal.integer) := by
  rw [toInteger, Wording.chars?_ofChars, Option.map_some, wellFormed.readInteger_text whole]
  by_cases long : digitLimit < literal.whole.length
  · rw [if_pos long, if_pos long]
  · rw [if_neg long, if_neg long]

theorem toFloat_literal (wellFormed : literal.WellFormed) :
    toFloat (.ofChars literal.text) = .ok (.float literal.parts.toFloat) := by
  rw [toFloat, Wording.chars?_ofChars, Option.bind_some, wellFormed.readFloat?_text]

/-- The kinds of tokens whose texts become numbers. -/
def MayCount (tokenKind : Option TokenKind) : Prop := tokenKind = none ∨ tokenKind = some .number

theorem any_ne_number {tokenKind : Option TokenKind} :
    tokenKind.any (· != .number) = true ↔ ¬ MayCount tokenKind := by
  unfold MayCount
  cases tokenKind <;> simp

theorem toScalar_literal {tokenKind : Option TokenKind} (counts : MayCount tokenKind)
    (wellFormed : literal.WellFormed) :
    toScalar (.ofChars literal.text) tokenKind =
      if literal.isWhole then toInteger (.ofChars literal.text)
        else toFloat (.ofChars literal.text) := by
  rw [toScalar, if_neg (fun other => any_ne_number.mp other counts), Wording.chars?_ofChars,
    Option.any_some, wellFormed.writtenAsInteger_text, Option.any_some, writtenAsDecimal,
    wellFormed.read?_text, Option.isSome_some, if_pos rfl]

/-- What is not a literal is left as it is. -/
theorem toScalar_plain {text : Wording}
    (plain : ∀ literal : Literal, literal.WellFormed → text ≠ .ofChars literal.text)
    (tokenKind : Option TokenKind) : toScalar text tokenKind = .ok (.text text) := by
  have integral : ¬ text.chars?.any writtenAsInteger = true := by
    intro written
    obtain ⟨chars, read, written⟩ := (Option.any_eq_true _ _).mp written
    obtain ⟨literal, wellFormed, _, rfl⟩ := Literal.spells_integer written
    exact plain literal wellFormed (ofChars_of_chars? read)
  have decimal : ¬ text.chars?.any writtenAsDecimal = true := by
    intro written
    obtain ⟨chars, read, written⟩ := (Option.any_eq_true _ _).mp written
    obtain ⟨numeral, numbered⟩ := Option.isSome_iff_exists.mp written
    obtain ⟨literal, wellFormed, rfl, _⟩ := Numeral.read?_spells numbered
    exact plain literal wellFormed (ofChars_of_chars? read)
  rw [toScalar, if_neg integral, if_neg decimal, ite_self]

theorem toScalar_other {tokenKind : Option TokenKind} (other : ¬ MayCount tokenKind)
    (text : Wording) :
    toScalar text tokenKind = .ok (.text text) := by
  rw [toScalar, if_pos (any_ne_number.mpr other)]

/-- A scalar is what the text of a token says it is: an integer, a floating-point number, or the
text itself. -/
structure ScalarAgrees (text : Wording) (tokenKind : Option TokenKind) : Prop where
  whole : MayCount tokenKind → ∀ literal : Literal, literal.WellFormed → literal.isWhole = true →
    text = .ofChars literal.text →
      coerce .scalar text tokenKind = coerce .integer text tokenKind ∧
        coerce .integer text tokenKind =
          if digitLimit < literal.whole.length then .error (.tooManyDigits literal.whole.length)
          else .ok (.int literal.integer)
  pointed : MayCount tokenKind → ∀ literal : Literal, literal.WellFormed → literal.isWhole = false →
    text = .ofChars literal.text →
      coerce .scalar text tokenKind = coerce .float text tokenKind ∧
        coerce .float text tokenKind = .ok (.float literal.parts.toFloat)
  plain : (∀ literal : Literal, literal.WellFormed → text ≠ .ofChars literal.text) →
    coerce .scalar text tokenKind = .ok (.text text)
  other : ¬ MayCount tokenKind → coerce .scalar text tokenKind = .ok (.text text)
  refused : ∀ error, coerce .scalar text tokenKind = .error error →
    ∃ count, error = .tooManyDigits count ∧ digitLimit < count

/-- Whatever is written as a number is read as one, and only the length of an integer can stand in
the way. -/
theorem coerce_scalar (text : Wording) (tokenKind : Option TokenKind) :
    ScalarAgrees text tokenKind := by
  refine ⟨?_, ?_, ?_, ?_, ?_⟩
  · intro counts literal wellFormed whole spelled
    rw [spelled]
    refine ⟨?_, toInteger_literal wellFormed whole⟩
    exact (toScalar_literal counts wellFormed).trans (if_pos whole)
  · intro counts literal wellFormed pointed spelled
    rw [spelled]
    refine ⟨?_, toFloat_literal wellFormed⟩
    exact (toScalar_literal counts wellFormed).trans
      (if_neg (by rw [pointed]; exact Bool.false_ne_true))
  · intro plain
    exact toScalar_plain plain tokenKind
  · intro other
    exact toScalar_other other text
  · intro error refused
    by_cases counts : MayCount tokenKind
    · by_cases spelled : ∃ literal : Literal, literal.WellFormed ∧ text = .ofChars literal.text
      · obtain ⟨literal, wellFormed, rfl⟩ := spelled
        rw [coerce, toScalar_literal counts wellFormed, toFloat_literal wellFormed] at refused
        split at refused
        · rename_i whole
          rw [toInteger_literal wellFormed whole] at refused
          split at refused
          · rename_i long
            cases refused
            exact ⟨_, rfl, long⟩
          · cases refused
        · cases refused
      · rw [coerce, toScalar_plain
          (fun literal wellFormed same => spelled ⟨literal, wellFormed, same⟩)] at refused
        cases refused
    · rw [coerce, toScalar_other counts] at refused
      cases refused

/-- A sign and digits of another script, a point without digits in front of it, and a digit too
many. -/
theorem scalar_written :
    coerce .scalar (.ofString "-٤٢") none = .ok (.int (-42)) ∧
      coerce .scalar (.ofString "+.5e1") (some .number) =
        coerce .float (.ofString "+.5e1") (some .number) ∧
      coerce .scalar (.ofChars (List.replicate 4301 '7')) none = .error (.tooManyDigits 4301) := by
  refine ⟨?_, ?_, ?_⟩
  · have wellFormed : (Literal.mk (some '-') ['٤', '٢'] none none).WellFormed :=
      ⟨.inr (.inl rfl), by decide, by simp, .inl (by simp), by simp⟩
    obtain ⟨agrees, read⟩ :=
      (coerce_scalar (.ofString "-٤٢") none).whole (.inl rfl) _ wellFormed rfl rfl
    rw [agrees, read]
    rfl
  · have raised : (WrittenExponent.mk 'e' none ['1']).WellFormed := ⟨.inl rfl, .inl rfl, by decide⟩
    have wellFormed :
        (Literal.mk (some '+') [] (some ['5']) (some ⟨'e', none, ['1']⟩)).WellFormed :=
      ⟨.inr (.inr rfl), by simp, by simp; decide, .inr ⟨['5'], rfl, by simp⟩, by simpa using raised⟩
    exact ((coerce_scalar (.ofString "+.5e1") (some .number)).pointed
      (.inr rfl) _ wellFormed rfl rfl).1
  · have digits : ∀ c ∈ List.replicate 4301 '7', isDecimalDigit c = true := by
      intro c held
      rw [List.eq_of_mem_replicate held]
      decide
    have wellFormed : (Literal.mk none (List.replicate 4301 '7') none none).WellFormed :=
      ⟨.inl rfl, digits, by simp,
        .inl (List.ne_nil_of_length_pos (by rw [List.length_replicate]; decide)), by simp⟩
    have spelled :
        (Literal.mk none (List.replicate 4301 '7') none none).text = List.replicate 4301 '7' :=
      Literal.body_of_isWhole rfl
    obtain ⟨agrees, read⟩ :=
      (coerce_scalar (.ofChars (List.replicate 4301 '7')) none).whole (.inl rfl) _ wellFormed rfl
      (by rw [spelled])
    rw [agrees, read, List.length_replicate]
    rfl

end ValueKind

end RecordGrammar
