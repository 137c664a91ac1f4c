import RecordGrammar.Text.Class

namespace RecordGrammar.Text

/-! How the classes of characters lie to each other. -/

/-- What is to hold of every character of a text is checked along the text, not along all characters
there are. -/
instance decidableAlong {holds : Char → Prop} [DecidablePred holds] (text : List Char) :
    Decidable (∀ c ∈ text, holds c) :=
  List.decidableBAll holds text

theorem isSome_runStart? (runs : List Nat) (code : Nat) :
    (runStart? runs code).isSome = inRuns runs code := by
  fun_induction inRuns runs code with
  | case1 first last rest code below => simp [runStart?, below]
  | case2 first last rest code above below => simp [runStart?, above, below]
  | case3 first last rest code above beyond ih => simp [runStart?, above, beyond, ih]
  | case4 first code => by_cases reached : first ≤ code <;> simp [runStart?, reached]
  | case5 code => rfl

theorem isSome_digitValue? (c : Char) : (digitValue? c).isSome = isDecimalDigit c := by
  rw [digitValue?, Option.isSome_map, isSome_runStart?]
  rfl

/-- The codes of white space. -/
def blankCodes : List Nat :=
  [0x09, 0x0A, 0x0B, 0x0C, 0x0D, 0x1C, 0x1D, 0x1E, 0x1F, 0x20, 0x85, 0xA0, 0x1680,
   0x2000, 0x2001, 0x2002, 0x2003, 0x2004, 0x2005, 0x2006, 0x2007, 0x2008, 0x2009, 0x200A,
   0x2028, 0x2029, 0x202F, 0x205F, 0x3000]

theorem mem_blankCodes {c : Char} (blank : isBlank c = true) : c.toNat ∈ blankCodes := by
  simp only [isBlank, Bool.or_eq_true, Bool.and_eq_true, decide_eq_true_eq, beq_iff_eq] at blank
  simp only [blankCodes, List.mem_cons, List.not_mem_nil, or_false]
  omega

/-- A property of the blanks, told code by code. -/
theorem of_isBlank (holds : Char → Prop) (each : ∀ code ∈ blankCodes, holds (Char.ofNat code))
    {c : Char} (blank : isBlank c = true) : holds c := by
  have told := each c.toNat (mem_blankCodes blank)
  rwa [Char.ofNat_toNat] at told

theorem not_isBlank_of_isDecimalDigit {c : Char} (digit : isDecimalDigit c = true) :
    isBlank c = false := by
  cases blank : isBlank c with
  | false => rfl
  | true =>
      have other : isDecimalDigit c = false :=
        of_isBlank (fun c => isDecimalDigit c = false) (by decide) blank
      simp [digit] at other

theorem ne_of_isDecimalDigit {c other : Char} (digit : isDecimalDigit c = true)
    (differs : isDecimalDigit other = false) : c ≠ other := by
  rintro rfl
  simp [digit] at differs

/-- White space is neither a letter, a digit nor a mark. -/
theorem blank_plain {c : Char} (blank : isBlank c = true) :
    continuesPlainWord c = false ∧ isPlainDigit c = false ∧ c ≠ '.' ∧ c ≠ '/' ∧ c ≠ '*' := by
  exact of_isBlank (fun c => continuesPlainWord c = false ∧ isPlainDigit c = false ∧ c ≠ '.' ∧
    c ≠ '/' ∧ c ≠ '*')
    (by decide) blank

theorem ne_of_quote {mark other : Char} (quotes : mark = '\'' ∨ mark = '"')
    (differs : other ≠ '\'' ∧ other ≠ '"') :
    mark ≠ other := by
  intro same
  subst same
  exact quotes.elim differs.1 differs.2

theorem not_isBlank_of_quote {mark : Char} (quotes : mark = '\'' ∨ mark = '"') :
    isBlank mark = false := by
  rcases quotes with same | same <;> subst same <;> decide

theorem startsPlainWord_code {c : Char} (starts : startsPlainWord c = true) :
    c.toNat = 95 ∨ (97 ≤ c.toNat ∧ c.toNat ≤ 122) ∨ (65 ≤ c.toNat ∧ c.toNat ≤ 90) := by
  simp only [startsPlainWord, Bool.or_eq_true, Bool.and_eq_true, beq_iff_eq,
    decide_eq_true_eq] at starts
  rcases starts with (rfl | lower) | upper
  · exact .inl rfl
  · exact .inr (.inl lower)
  · exact .inr (.inr upper)

theorem isPlainDigit_code {c : Char} (digit : isPlainDigit c = true) :
    48 ≤ c.toNat ∧ c.toNat ≤ 57 := by
  simp only [isPlainDigit, Bool.and_eq_true, decide_eq_true_eq] at digit
  exact digit

theorem not_isPlainDigit_of_startsPlainWord {c : Char} (starts : startsPlainWord c = true) :
    isPlainDigit c = false := by
  have word := startsPlainWord_code starts
  cases digit : isPlainDigit c with
  | false => rfl
  | true =>
      have number := isPlainDigit_code digit
      omega

theorem isBlank_of_startsPlainWord {c : Char} (starts : startsPlainWord c = true) :
    isBlank c = false := by
  have code := startsPlainWord_code starts
  simp only [isBlank, Bool.or_eq_false_iff, Bool.and_eq_false_iff, decide_eq_false_iff_not,
    beq_eq_false_iff_ne]
  omega

theorem ne_of_startsPlainWord {c other : Char} (starts : startsPlainWord c = true)
    (stops : startsPlainWord other = false) : c ≠ other := by
  rintro rfl
  simp [starts] at stops

end RecordGrammar.Text
