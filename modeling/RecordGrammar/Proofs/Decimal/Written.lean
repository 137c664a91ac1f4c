import RecordGrammar.Proofs.Decimal.Literal

namespace RecordGrammar

open RecordGrammar.Text

/-! Numerals as they are written, and the numbers that they denote. -/

namespace Decimal

/-- A numeral as it is written: a minus or none, digits, perhaps a point and digits, and perhaps an
exponent. -/
structure Written where
  negative : Bool := false
  whole : List Char
  fraction : Option (List Char) := none
  exponent : Option WrittenExponent := none

namespace Written

variable (written : Written)

def signText : List Char := if written.negative then ['-'] else []

def fractionText : List Char := written.fraction.elim [] ('.' :: ·)

def exponentText : List Char := written.exponent.elim [] WrittenExponent.text

def text : List Char :=
  written.signText ++ (written.whole ++ (written.fractionText ++ written.exponentText))

/-- Whether a numeral is an integer's: it has neither a point nor an exponent. -/
def isWhole : Bool := written.fraction.isNone && written.exponent.isNone

/-- The integer that the digits before the point denote. -/
def integer : Int :=
  if written.negative then -(ofDigits (digitsOf written.whole) : Int)
    else ofDigits (digitsOf written.whole)

/-- The parts of the numeral, digit by digit. -/
def parts : Numeral where
  negative := written.negative
  whole := digitsOf written.whole
  fraction := written.fraction.elim [] digitsOf
  exponent := written.exponent.elim 0 WrittenExponent.value

/-- What a numeral denotes: an integer, or else the nearest floating-point number. -/
def value : Value := if written.isWhole then .int written.integer else .float written.parts.toFloat

structure WellFormed : Prop where
  whole : IsDigits written.whole
  fraction : ∀ digits ∈ written.fraction, IsDigits digits
  exponent : ∀ exponent ∈ written.exponent, exponent.WellFormed

/-- A numeral is short enough to be read if it is not an integer's with too many digits. -/
def Short : Prop := written.isWhole = true → written.whole.length ≤ digitLimit

/-- No zero stands in front of other digits. -/
def Proper : Prop :=
  written.whole = ['0'] ∨ ∃ first rest, written.whole = first :: rest ∧ '1' ≤ first ∧ first ≤ '9'

theorem short_of_length (few : written.text.length ≤ digitLimit) : written.Short := by
  intro _
  simp only [text, List.length_append] at few
  omega

end Written

namespace Written

variable {written : Written}

/-- A numeral is a literal with digits on both sides of its point and without a plus. -/
def literal (written : Written) : Literal where
  sign := if written.negative then some '-' else none
  whole := written.whole
  fraction := written.fraction
  exponent := written.exponent

theorem text_literal : written.literal.text = written.text := by
  unfold text signText Literal.text literal
  cases written.negative <;> rfl

theorem parts_literal : written.literal.parts = written.parts := by
  unfold parts Literal.parts literal
  cases written.negative <;> rfl

theorem isWhole_literal : written.literal.isWhole = written.isWhole := rfl

theorem integer_literal : written.literal.integer = written.integer := by
  unfold integer Literal.integer literal
  cases written.negative <;> rfl

theorem WellFormed.literal (wellFormed : written.WellFormed) : written.literal.WellFormed where
  sign := by
    unfold Written.literal
    cases written.negative with
    | true => exact .inr (.inl rfl)
    | false => exact .inl rfl
  whole := wellFormed.whole.2
  fraction digits pointed := (wellFormed.fraction digits pointed).2
  digits := .inl wellFormed.whole.1
  exponent := wellFormed.exponent

theorem WellFormed.exponentText_head? (wellFormed : written.WellFormed) {c : Char}
    (here : c ∈ written.exponentText.head?) : c = 'e' ∨ c = 'E' :=
  wellFormed.literal.exponentText_head? here

/-- No digit follows the digits before the point. -/
theorem WellFormed.whole_ended (wellFormed : written.WellFormed) :
    ∀ c ∈ (written.fractionText ++ written.exponentText).head?, isDecimalDigit c = false :=
  wellFormed.literal.whole_ended

/-- Every character of a numeral is a digit or one of a few marks. -/
theorem WellFormed.mem_text (wellFormed : written.WellFormed) {c : Char} (held : c ∈ written.text) :
    isDecimalDigit c = true ∨ c ∈ ['-', '+', '.', 'e', 'E'] := by
  rw [← text_literal] at held
  exact wellFormed.literal.mem_text held

theorem WellFormed.not_isBlank (wellFormed : written.WellFormed) {c : Char}
    (held : c ∈ written.text) :
    isBlank c = false := by
  rw [← text_literal] at held
  exact wellFormed.literal.not_isBlank held

end Written

section Integers

theorem digitValue?_of_isDigit {c : Char} (digit : c.isDigit = true) :
    digitValue? c = some (c.toNat - '0'.toNat) := by
  have each : ∀ code < 58, 48 ≤ code → digitValue? (Char.ofNat code) = some (code - 48) := by decide
  obtain ⟨low, high⟩ : 48 ≤ c.toNat ∧ c.toNat ≤ 57 := Char.isDigit_iff_toNat.mp digit
  have worth := each c.toNat (by omega) low
  rwa [Char.ofNat_toNat] at worth

theorem isDecimalDigit_of_isDigit {c : Char} (digit : c.isDigit = true) :
    isDecimalDigit c = true := by
  rw [← isSome_digitValue?, digitValue?_of_isDigit digit, Option.isSome_some]

theorem digitsOf_eq_map {text : List Char} (plain : ∀ c ∈ text, c.isDigit = true) :
    digitsOf text = text.map fun c => c.toNat - '0'.toNat := by
  induction text with
  | nil => rfl
  | cons c rest ih =>
      obtain ⟨here, later⟩ := List.forall_mem_cons.mp plain
      have ahead := ih later
      rw [digitsOf] at ahead
      rw [digitsOf, List.filterMap_cons_some (digitValue?_of_isDigit here), ahead, List.map_cons]

/-- The digits of a number denote the number. -/
theorem ofDigits_toDigits (n : Nat) : ofDigits (digitsOf (Nat.toDigits 10 n)) = n := by
  have plain : ∀ c ∈ Nat.toDigits 10 n, c.isDigit = true :=
    fun _ held => Nat.isDigit_of_mem_toDigits (by decide) (by decide) held
  calc ofDigits (digitsOf (Nat.toDigits 10 n))
      = Nat.ofDigitChars 10 (Nat.toDigits 10 n) 0 := by
        rw [digitsOf_eq_map plain, ofDigits, List.foldl_map]; rfl
    _ = n := Nat.ofDigitChars_ten_toDigits

namespace Written

/-- An integer as it is usually written. -/
def ofInt (n : Int) : Written where
  negative := decide (n < 0)
  whole := Nat.toDigits 10 n.natAbs

theorem ofInt_wellFormed (n : Int) : (ofInt n).WellFormed where
  whole := ⟨Nat.toDigits_ne_nil, fun _ held =>
    isDecimalDigit_of_isDigit (Nat.isDigit_of_mem_toDigits (by decide) (by decide) held)⟩
  fraction := by simp [ofInt]
  exponent := by simp [ofInt]

theorem value_ofInt (n : Int) : (ofInt n).value = .int n := by
  have whole : (ofInt n).isWhole = true := rfl
  have denoted : (ofInt n).integer = n := by
    simp only [integer, ofInt, ofDigits_toDigits, decide_eq_true_eq]
    split <;> omega
  rw [value, if_pos whole, denoted]

theorem exists_lead {n : Nat} (positive : 0 < n) :
    ∃ first rest, Nat.toDigits 10 n = first :: rest ∧ '1' ≤ first ∧ first ≤ '9' := by
  induction n using Nat.strongRecOn with
  | ind n ih =>
      by_cases small : n < 10
      · have each : ∀ n < 10, 0 < n → '1' ≤ n.digitChar ∧ n.digitChar ≤ '9' := by decide
        exact ⟨n.digitChar, [], Nat.toDigits_of_lt_base small, each n small positive⟩
      · obtain ⟨first, rest, shape, bounds⟩ := ih (n / 10) (by omega) (by omega)
        exact ⟨first, rest ++ _, by
          rw [Nat.toDigits_of_base_le (by decide) (by omega), shape, List.cons_append], bounds⟩

theorem ofInt_proper (n : Int) : (ofInt n).Proper := by
  rcases Nat.eq_zero_or_pos n.natAbs with zero | positive
  · left
    rw [ofInt, zero, Nat.toDigits_zero]
  · exact .inr (exists_lead positive)

theorem ofInt_short {n : Int} (few : (Nat.toDigits 10 n.natAbs).length ≤ digitLimit) :
    (ofInt n).Short :=
  fun _ => few

end Written

end Integers

end Decimal

namespace ValueKind

open Decimal

variable {written : Written}

/-- The text of a number becomes what the numeral denotes. -/
theorem toScalar_written (wellFormed : written.WellFormed) (short : written.Short) :
    toScalar (.ofChars written.text) (some .number) = .ok written.value := by
  rw [← Written.text_literal, toScalar_literal (.inr rfl) wellFormed.literal,
    Written.isWhole_literal]
  by_cases whole : written.isWhole = true
  · have few : ¬ digitLimit < written.literal.whole.length := Nat.not_lt.mpr (short whole)
    rw [if_pos whole, toInteger_literal wellFormed.literal whole, if_neg few,
      Written.integer_literal, Written.value, if_pos whole]
  · rw [if_neg whole, toFloat_literal wellFormed.literal, Written.parts_literal, Written.value,
      if_neg whole]

/-- An integer with too many digits becomes none. -/
theorem toScalar_long (wellFormed : written.WellFormed) (long : ¬ written.Short) :
    toScalar (.ofChars written.text) (some .number) =
      .error (.tooManyDigits written.whole.length) := by
  obtain ⟨whole, many⟩ : written.isWhole = true ∧ digitLimit < written.whole.length := by
    simpa [Written.Short] using long
  rw [← Written.text_literal, toScalar_literal (.inr rfl) wellFormed.literal,
    Written.isWhole_literal, if_pos whole, toInteger_literal wellFormed.literal whole]
  exact if_pos many

end ValueKind

end RecordGrammar
