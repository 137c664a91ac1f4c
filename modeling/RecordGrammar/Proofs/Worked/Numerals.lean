import RecordGrammar.Proofs.Decimal.Written
import RecordGrammar.Proofs.Pattern.FirstChoice
import RecordGrammar.Worked.Ini
import RecordGrammar.Worked.Json

namespace RecordGrammar.Worked

open RecordGrammar.Text
open RecordGrammar.Decimal (IsDigits Written WrittenExponent)

/-! What the patterns for numbers stand for are numerals, and a numeral is taken as a whole. -/

variable {taken rest : List Char} {written : Written}

theorem isDecimalDigit_of_range {first last c : Char}
    (held : (CharSet.range first last).holds c = true) (lower : '0' ≤ first) (upper : last ≤ '9') :
    isDecimalDigit c = true := by
  have plain : ∀ code < 58, 48 ≤ code → inRuns decimalDigitRuns code = true := by decide
  simp only [CharSet.holds, Bool.and_eq_true, decide_eq_true_eq] at held
  have low : 48 ≤ c.toNat := Char.le_def.mp (Char.le_trans lower held.1)
  have high : c.toNat ≤ 57 := Char.le_def.mp (Char.le_trans held.2 upper)
  exact plain c.toNat (by omega) low

theorem isDigits_of_digits (covers : digits.Covers taken) : IsDigits taken :=
  ⟨covers.ne_nil rfl, covers.holds_of_repeated⟩

/-- Digits before a point have no zero in front of them, unless that is all there is. -/
theorem proper_of_wholeNumber (covers : wholeNumber.Covers taken) :
    IsDigits taken ∧
      (taken = ['0'] ∨ ∃ first rest, taken = first :: rest ∧ '1' ≤ first ∧ first ≤ '9') := by
  rcases Pattern.covers_either_iff.mp covers with zero | more
  · obtain ⟨c, held, rfl⟩ := Pattern.covers_one_iff.mp zero
    have same : c = '0' := by simpa [CharSet.holds] using held
    subst same
    exact ⟨⟨by simp, by decide⟩, .inl rfl⟩
  · obtain ⟨front, back, lead, rest, rfl⟩ := Pattern.covers_both_iff.mp more
    obtain ⟨c, held, rfl⟩ := Pattern.covers_one_iff.mp lead
    have digit : isDecimalDigit c = true := isDecimalDigit_of_range held (by decide) (by decide)
    have bounds : '1' ≤ c ∧ c ≤ '9' := by simpa [CharSet.holds] using held
    exact ⟨⟨by simp, List.forall_mem_cons.mpr ⟨digit, rest.holds_of_repeated⟩⟩,
      .inr ⟨c, back, rfl, bounds⟩⟩

theorem exists_of_fraction (covers : fraction.Covers taken) :
    ∃ places : Option (List Char), (∀ digits ∈ places, IsDigits digits) ∧
      taken = places.elim [] ('.' :: ·) := by
  rcases Pattern.covers_of_optional covers with rfl | covers
  · exact ⟨none, by simp, rfl⟩
  · obtain ⟨front, back, point, rest, rfl⟩ := Pattern.covers_both_iff.mp covers
    obtain ⟨c, held, rfl⟩ := Pattern.covers_one_iff.mp point
    have same : c = '.' := by simpa [CharSet.holds] using held
    subst same
    exact ⟨some back, by simpa using isDigits_of_digits rest, rfl⟩

theorem digits_over {taken : List Char} (size : IsDigits taken)
    (ended : ∀ c ∈ rest.head?, isDecimalDigit c = false) :
    digits.Over taken rest := .plus_one size.1 size.2 ended

theorem wholeNumber_over (wellFormed : written.WellFormed) (proper : written.Proper)
    (ended : ∀ c ∈ rest.head?, isDecimalDigit c = false) : wholeNumber.Over written.whole rest := by
  rcases proper with zero | ⟨first, more, whole, low, high⟩
  · rw [zero]
    exact .left (.one rfl rest)
  · have size := wellFormed.whole.2
    rw [whole] at size ⊢
    refine .right rfl ?_ (.one_both ?_ (.star_one (List.forall_mem_cons.mp size).2 ended))
    · rintro _ ⟨⟩
      have other : first ≠ '0' := by
        rintro rfl
        exact absurd low (by decide)
      simpa [Pattern.mayBegin, CharSet.holds] using other
    · simp [CharSet.holds, low, high]

theorem fraction_over (wellFormed : written.WellFormed)
    (ended : ∀ c ∈ rest.head?, isDecimalDigit c = false ∧ c ≠ '.') :
    fraction.Over written.fractionText rest := by
  cases pointed : written.fraction with
  | none =>
      simp only [Written.fractionText, pointed, Option.elim_none]
      refine .noOptional rfl fun c here => ?_
      simpa [Pattern.mayBegin, Pattern.nullable, CharSet.holds] using (ended c here).2
  | some places =>
      simp only [Written.fractionText, pointed, Option.elim_some]
      exact .optional (.one_both rfl
        (digits_over (wellFormed.fraction places pointed) fun c here => (ended c here).1))

namespace Ini

/-- A number in a settings file is a numeral without a sign and without an exponent. -/
theorem exists_written (covers : number.Covers taken) :
    ∃ written : Written, written.WellFormed ∧ written.Proper ∧ written.negative = false ∧
      written.exponent = none ∧ written.text = taken := by
  obtain ⟨whole, rest, coversWhole, coversRest, rfl⟩ := Pattern.covers_both_iff.mp covers
  obtain ⟨places, digits, rfl⟩ := exists_of_fraction coversRest
  obtain ⟨size, proper⟩ := proper_of_wholeNumber coversWhole
  refine ⟨{ negative := false, whole, fraction := places }, ⟨size, digits, by simp⟩, proper,
    rfl, rfl, ?_⟩
  simp [Written.text, Written.signText, Written.fractionText, Written.exponentText]

end Ini

namespace Json

theorem exists_of_exponent
    (covers : (Pattern.optional (.both (.one (.ofList ['e', 'E']))
      (.both (.optional (.one (.ofList ['-', '+']))) digits))).Covers taken) :
    ∃ exponent : Option WrittenExponent, (∀ part ∈ exponent, part.WellFormed) ∧
      taken = exponent.elim [] WrittenExponent.text := by
  rcases Pattern.covers_of_optional covers with rfl | covers
  · exact ⟨none, by simp, rfl⟩
  · obtain ⟨front, back, mark, rest, rfl⟩ := Pattern.covers_both_iff.mp covers
    obtain ⟨c, held, rfl⟩ := Pattern.covers_one_iff.mp mark
    obtain ⟨sign, size, signed, digits, rfl⟩ := Pattern.covers_both_iff.mp rest
    have marked : c = 'e' ∨ c = 'E' := by simpa using held
    rcases Pattern.covers_of_optional signed with rfl | signed
    · refine ⟨some ⟨c, none, size⟩, ?_, rfl⟩
      rintro part ⟨⟩
      exact ⟨marked, .inl rfl, isDigits_of_digits digits⟩
    · obtain ⟨s, held, rfl⟩ := Pattern.covers_one_iff.mp signed
      refine ⟨some ⟨c, some s, size⟩, ?_, rfl⟩
      rintro part ⟨⟩
      exact ⟨marked, .inr (by simpa using held), isDigits_of_digits digits⟩

/-- A number in a JSON text is a numeral without zeros in front. -/
theorem exists_written (covers : number.Covers taken) :
    ∃ written : Written, written.WellFormed ∧ written.Proper ∧ written.text = taken := by
  obtain ⟨sign, unsigned, signed, coversUnsigned, rfl⟩ := Pattern.covers_both_iff.mp covers
  obtain ⟨whole, rest, coversWhole, coversRest, rfl⟩ := Pattern.covers_both_iff.mp coversUnsigned
  obtain ⟨places, size, coversPlaces, coversSize, rfl⟩ := Pattern.covers_both_iff.mp coversRest
  obtain ⟨fraction, digits, rfl⟩ := exists_of_fraction coversPlaces
  obtain ⟨exponent, right, rfl⟩ := exists_of_exponent coversSize
  obtain ⟨figures, proper⟩ := proper_of_wholeNumber coversWhole
  have wellFormed (negative : Bool) : (Written.mk negative whole fraction exponent).WellFormed :=
    ⟨figures, digits, right⟩
  rcases Pattern.covers_of_optional signed with rfl | signed
  · exact ⟨_, wellFormed false, proper, rfl⟩
  · obtain ⟨c, held, rfl⟩ := Pattern.covers_one_iff.mp signed
    have same : c = '-' := by simpa [CharSet.holds] using held
    subst same
    exact ⟨_, wellFormed true, proper, rfl⟩

end Json

end RecordGrammar.Worked
