import RecordGrammar.Text.Quoted

namespace RecordGrammar.Text

/-! What stands in quotes can be read back, so a message tells the texts apart that it quotes.

Whatever follows a quoted text is not taken for a part of it: inside, the mark has a backslash in
front. -/

/-- The number that hexadecimal digits denote. -/
def ofHexDigits (digits : List Char) : Nat :=
  digits.foldl (fun number digit => 16 * number + (hexValue? digit).getD 0) 0

/-- The code of the character at the front of a quoted text, and what follows it there. -/
def readQuoted : List Char → Option (Nat × List Char)
  | [] => none
  | ['\\'] => none
  | '\\' :: letter :: rest =>
      if letter = 'n' then some ('\n'.toNat, rest)
      else if letter = 'r' then some ('\r'.toNat, rest)
      else if letter = 't' then some ('\t'.toNat, rest)
      else if letter = 'x' then some (ofHexDigits (rest.take 2), rest.drop 2)
      else if letter = 'u' then some (ofHexDigits (rest.take 4), rest.drop 4)
      else if letter = 'U' then some (ofHexDigits (rest.take 8), rest.drop 8)
      else some (letter.toNat, rest)
  | c :: rest => some (c.toNat, rest)

section Hexadecimal

theorem foldl_toDigits (n : Nat) :
    (Nat.toDigits 16 n).foldl (fun number digit => 16 * number + (hexValue? digit).getD 0) 0 =
      n := by
  have each : ∀ n < 16, (hexValue? n.digitChar).getD 0 = n := by decide
  induction n using Nat.strongRecOn with
  | ind n ih =>
      by_cases small : n < 16
      · rw [Nat.toDigits_of_lt_base small, List.foldl_cons, List.foldl_nil, each n small]
        omega
      · rw [Nat.toDigits_of_base_le (by decide) (by omega), List.foldl_append,
          ih (n / 16) (by omega), List.foldl_cons, List.foldl_nil, each (n % 16) (by omega)]
        omega

/-- Zeros in front change nothing. -/
theorem ofHexDigits_hexCode (width code : Nat) : ofHexDigits (hexCode width code) = code := by
  have zeros (count : Nat) : (List.replicate count '0').foldl
      (fun number digit => 16 * number + (hexValue? digit).getD 0) 0 = 0 := by
    induction count with
    | zero => rfl
    | succ count ih =>
        rw [List.replicate_succ, List.foldl_cons]
        exact ih
  rw [ofHexDigits, hexCode, List.foldl_append, zeros, foldl_toDigits]

theorem length_hexCode {width code : Nat} (wide : 0 < width) (fits : code < Nat.pow 16 width) :
    (hexCode width code).length = width := by
  have short := (Nat.length_toDigits_le_iff (by decide) wide).mpr fits
  rw [hexCode, List.length_append, List.length_replicate]
  omega

theorem read_hexCode (width : Nat) {code : Nat} (wide : 0 < width) (fits : code < Nat.pow 16 width)
    (rest : List Char) :
    ofHexDigits ((hexCode width code ++ rest).take width) = code ∧
      (hexCode width code ++ rest).drop width = rest := by
  have length := length_hexCode wide fits
  exact ⟨by rw [List.take_left' length, ofHexDigits_hexCode], List.drop_left' length⟩

end Hexadecimal

section Reading

variable {mark : Char}

theorem quoteMark_cases (text : Wording) : quoteMark text = '\'' ∨ quoteMark text = '"' := by
  unfold quoteMark
  split
  · exact .inr rfl
  · exact .inl rfl

/-- What is written for a character between quotes is read as the character. -/
theorem readQuoted_quoteCharacter (quotes : mark = '\'' ∨ mark = '"') (c : Char)
    (rest : List Char) :
    readQuoted (quoteCharacter mark c ++ rest) = some (c.toNat, rest) := by
  unfold quoteCharacter
  split
  · rename_i escaped
    have same : c = '\'' ∨ c = '"' ∨ c = '\\' := by
      rcases quotes with rfl | rfl <;> simp at escaped <;> grind
    rcases same with rfl | rfl | rfl <;> rfl
  split
  · rename_i line
    rw [eq_of_beq line]
    rfl
  split
  · rename_i carriage
    rw [eq_of_beq carriage]
    rfl
  split
  · rename_i tab
    rw [eq_of_beq tab]
    rfl
  split
  · rename_i escaped _ _ _ _
    have plain : c ≠ '\\' := by
      simp at escaped
      exact escaped.2
    rw [List.singleton_append, readQuoted.eq_4 _ _ (by simp [plain]) (by simp [plain])]
  split
  · rename_i small
    obtain ⟨code, later⟩ := read_hexCode 2 (by decide) small rest
    exact congrArg some (Prod.ext code later)
  split
  · rename_i small
    obtain ⟨code, later⟩ := read_hexCode 4 (by decide) small rest
    exact congrArg some (Prod.ext code later)
  · have valid : c.toNat < 0xD800 ∨ (0xDFFF < c.toNat ∧ c.toNat < 0x110000) := c.valid
    have small : c.toNat < 16 ^ 8 := by omega
    obtain ⟨code, later⟩ := read_hexCode 8 (by decide) small rest
    exact congrArg some (Prod.ext code later)

/-- No character is written with the mark in front, so the mark ends the text. -/
theorem quoteCharacter_append_ne (quotes : mark = '\'' ∨ mark = '"') (c : Char)
    (text rest : List Char) :
    quoteCharacter mark c ++ text ≠ mark :: rest := by
  intro same
  have bare : readQuoted (mark :: rest) = some (mark.toNat, rest) := by
    rcases quotes with rfl | rfl <;> rfl
  have read := congrArg readQuoted same
  rw [readQuoted_quoteCharacter quotes, bare] at read
  have here : c = mark := Char.toNat_inj.mp (Prod.mk.inj (Option.some.inj read)).1
  have slash : mark = '\\' := by simpa [here, quoteCharacter] using (congrArg List.head? same).symm
  rcases quotes with rfl | rfl <;> cases slash

theorem flatMap_quoteCharacter_inj (quotes : mark = '\'' ∨ mark = '"')
    {text other rest later : List Char}
    (same : text.flatMap (quoteCharacter mark) ++ mark :: rest =
      other.flatMap (quoteCharacter mark) ++ mark :: later) :
    text = other ∧ rest = later := by
  induction text generalizing other with
  | nil =>
      cases other with
      | nil => exact ⟨rfl, (List.cons.inj same).2⟩
      | cons c other =>
          rw [List.flatMap_cons, List.append_assoc] at same
          exact absurd same.symm (quoteCharacter_append_ne quotes c _ _)
  | cons c text ih =>
      rw [List.flatMap_cons, List.append_assoc] at same
      cases other with
      | nil => exact absurd same (quoteCharacter_append_ne quotes c _ _)
      | cons d other =>
          have read := congrArg readQuoted same
          rw [List.flatMap_cons, List.append_assoc, readQuoted_quoteCharacter quotes,
            readQuoted_quoteCharacter quotes] at read
          obtain ⟨code, later⟩ := Prod.mk.inj (Option.some.inj read)
          obtain ⟨texts, rests⟩ := ih later
          exact ⟨by rw [Char.toNat_inj.mp code, texts], rests⟩

end Reading

theorem quote_eq (text : String) :
    ∃ mark, (mark = '\'' ∨ mark = '"') ∧
      (quote text).toList = mark :: (text.toList.flatMap (quoteCharacter mark) ++ [mark]) := by
  refine ⟨_, quoteMark_cases (.ofString text), ?_⟩
  rw [quote, quoteWording, String.toList_ofList, Wording.ofString, Wording.ofChars,
    List.flatMap_map]
  rfl

/-- A quoted text tells the text, and where it ends. -/
theorem quote_append_inj {text other : String} {rest later : List Char}
    (same : (quote text).toList ++ rest = (quote other).toList ++ later) :
    text = other ∧ rest = later := by
  obtain ⟨mark, quotes, written⟩ := quote_eq text
  obtain ⟨second, _, writtenToo⟩ := quote_eq other
  rw [written, writtenToo, List.cons_append, List.cons_append, List.append_assoc,
    List.append_assoc] at same
  obtain ⟨rfl, same⟩ := List.cons.inj same
  obtain ⟨texts, rests⟩ := flatMap_quoteCharacter_inj quotes same
  exact ⟨String.toList_inj.mp texts, rests⟩

end RecordGrammar.Text
