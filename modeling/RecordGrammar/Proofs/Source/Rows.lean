import RecordGrammar.Proofs.Source.Places
import RecordGrammar.Proofs.Source.Table

namespace RecordGrammar.Source

open RecordGrammar.Text

/-! Rows and columns that are found in the table of lines are those that are counted on the way. -/

/-- Every carriage return has a line feed right behind it. -/
def Paired : List Char → Prop
  | [] => True
  | c :: rest => (c = '\r' → rest.head? = some '\n') ∧ Paired rest

instance decidablePaired : (text : List Char) → Decidable (Paired text)
  | [] => isTrue trivial
  | c :: rest =>
      have := decidablePaired rest
      inferInstanceAs (Decidable ((c = '\r' → rest.head? = some '\n') ∧ Paired rest))

namespace LineBreaks

variable {passed ahead : List Char} {previous : Option Char} {index : Nat}

/-- Where every carriage return belongs to a line feed, lines end with line feeds. -/
theorem ends_normal_eq {text : List Char} (paired : Paired text) :
    LineBreaks.normal.ends previous index text = LineBreaks.unix.ends previous index text := by
  induction text generalizing previous index with
  | nil => rfl
  | cons c rest ih =>
      obtain ⟨here, later⟩ := paired
      have same :
          LineBreaks.normal.endsAfter previous c rest.head? =
            LineBreaks.unix.endsAfter previous c rest.head? := by
        by_cases feed : c = '\r'
        · simp [endsAfter, feed, here feed]
        · simp [endsAfter, feed]
      rw [ends, ends, same, ih later]

theorem ends_unix_previous (other : Option Char) :
    LineBreaks.unix.ends previous index passed = LineBreaks.unix.ends other index passed := by
  cases passed <;> rfl

theorem ends_unix_append : LineBreaks.unix.ends previous index (passed ++ ahead) =
    LineBreaks.unix.ends previous index passed ++ LineBreaks.unix.ends none
      (index + passed.length) ahead := by
  induction passed generalizing previous index with
  | nil => exact ends_unix_previous none
  | cons c rest ih =>
      have place : index + (c :: rest).length = index + 1 + rest.length := by
        rw [List.length_cons]
        omega
      rw [List.cons_append, ends, ends, ih, place]
      by_cases broken : c = '\n'
      · simp [endsAfter, broken]
      · simp [endsAfter, broken]

theorem length_ends_unix :
    (LineBreaks.unix.ends previous index passed).length = passed.count '\n' := by
  induction passed generalizing previous index with
  | nil => rfl
  | cons c rest ih =>
      rw [ends, List.count_cons]
      by_cases broken : c = '\n'
      · simp [endsAfter, broken, ih]
      · simp [endsAfter, broken, ih]

theorem ends_unix_le :
    ∀ bound ∈ LineBreaks.unix.ends previous index passed, bound ≤ index + passed.length := by
  induction passed generalizing previous index with
  | nil => simp [ends]
  | cons c rest ih =>
      intro bound held
      rw [List.length_cons]
      rw [ends] at held
      split at held
      · rcases List.mem_cons.mp held with same | later
        · omega
        · have few := ih bound later
          omega
      · have few := ih bound held
        omega

/-- The last line of a text lies behind its last line feed. -/
theorem exists_lastLine (passed : List Char) :
    ∃ front back, passed = front ++ back ∧ '\n' ∉ back ∧
      (front = [] ∨ ∃ more, front = more ++ ['\n']) := by
  by_cases broken : '\n' ∈ passed
  · obtain ⟨back, front, split, single⟩ := List.eq_append_cons_of_mem (List.mem_reverse.mpr broken)
    refine ⟨front.reverse ++ ['\n'], back.reverse, ?_, by simpa using single, .inr ⟨_, rfl⟩⟩
    rw [← List.reverse_reverse passed, split]
    simp
  · exact ⟨[], passed, rfl, broken, .inl rfl⟩

theorem length_lastLine {front back : List Char} (single : '\n' ∉ back)
    (begins : front = [] ∨ ∃ more, front = more ++ ['\n']) :
    ((front ++ back).reverse.takeWhile (· != '\n')).length = back.length := by
  have each : ∀ c ∈ back.reverse, (c != '\n') = true := by
    intro c held
    have other : c ≠ '\n' := fun same => single (same ▸ List.mem_reverse.mp held)
    simpa using other
  rw [List.reverse_append, List.takeWhile_append_of_pos each]
  rcases begins with none | ⟨more, line⟩
  · simp [none]
  · simp [line]

/-- The last line that has begun begins as many characters back as the column counts. -/
theorem lastBound (passed : List Char) :
    (0 :: LineBreaks.unix.ends none 0 passed)[passed.count '\n']? =
      some (passed.length - (passed.reverse.takeWhile (· != '\n')).length) := by
  obtain ⟨front, back, split, single, begins⟩ := exists_lastLine passed
  have none : LineBreaks.unix.ends Option.none (0 + front.length) back = [] := by
    rw [← List.length_eq_zero_iff, length_ends_unix, List.count_eq_zero]
    exact single
  have lines :
      LineBreaks.unix.ends Option.none 0 passed = LineBreaks.unix.ends Option.none 0 front := by
    rw [split, ends_unix_append, none, List.append_nil]
  have column : (passed.reverse.takeWhile (· != '\n')).length = back.length := by
    rw [split, length_lastLine single begins]
  have count : passed.count '\n' = front.count '\n' := by
    rw [split, List.count_append, List.count_eq_zero.mpr single, Nat.add_zero]
  have length : passed.length - back.length = front.length := by
    rw [split, List.length_append, Nat.add_sub_cancel]
  rw [lines, column, count, length]
  rcases begins with none | ⟨more, line⟩
  · simp [none]
  · have behind : more.count '\n' = (LineBreaks.unix.ends Option.none 0 more).length :=
      length_ends_unix.symm
    have last : LineBreaks.unix.ends Option.none (0 + more.length) ['\n'] = [more.length + 1] := by
      simp [ends, endsAfter]
    rw [line, ends_unix_append, last, List.count_append, List.count_singleton_self, behind]
    simp

/-- As many lines have begun at a place as line feeds were passed, and the first of all. -/
theorem countP_begun (passed ahead : List Char) :
    ((0 :: LineBreaks.unix.ends none 0 (passed ++ ahead)).countP fun bound : Nat =>
      decide ((bound : Int) ≤ passed.length)) = passed.count '\n' + 1 := by
  have before : ∀ bound ∈ LineBreaks.unix.ends none 0 passed,
      decide ((bound : Int) ≤ passed.length) = true := by
    intro bound held
    have few := ends_unix_le bound held
    exact decide_eq_true (by omega)
  have behind : ∀ bound ∈ LineBreaks.unix.ends none (0 + passed.length) ahead,
      ¬ decide ((bound : Int) ≤ passed.length) = true := by
    intro bound held
    have beyond := (LineBreaks.unix.pairwise_ends none (0 + passed.length) ahead).2 bound held
    simp only [decide_eq_true_eq]
    omega
  rw [List.countP_cons_of_pos (by simp), ends_unix_append, List.countP_append,
    List.countP_eq_length.mpr before, List.countP_eq_zero.mpr behind, length_ends_unix,
    Nat.add_zero]

end LineBreaks

namespace SourceText

variable {source : SourceText} {passed ahead : List Char}

/-- The row and the column of a place are those that were counted on the way to it. -/
theorem rowColumn_behind (normal : source.lineBreaks = "normal")
    (content : source.content = passed ++ ahead) (paired : Paired source.content) :
    source.rowColumn passed.length =
      .ok ((passed.count '\n' : Int) + source.firstLine,
        (passed.reverse.takeWhile (· != '\n')).length) := by
  have known : LineBreaks.named? source.lineBreaks = some .normal := by
    rw [normal]
    rfl
  have lines : LineBreaks.normal.bounds source.content =
      (0 :: LineBreaks.unix.ends none 0 (passed ++ ahead)) ++ [source.content.length] := by
    rw [LineBreaks.bounds, LineBreaks.ends_normal_eq paired, content]
    rfl
  have bounds : source.bounds =
      .ok ((0 :: LineBreaks.unix.ends none 0 (passed ++ ahead)) ++ [source.content.length]) := by
    simp only [SourceText.bounds, known, lines]
  have row :
      rowIn ((0 :: LineBreaks.unix.ends none 0 (passed ++ ahead)) ++ [source.content.length])
        passed.length = (passed.count '\n' : Nat) := by
    rw [rowIn, List.dropLast_concat, LineBreaks.countP_begun]
    omega
  have found :
      itemAt? ((0 :: LineBreaks.unix.ends none 0 (passed ++ ahead)) ++ [source.content.length])
      (passed.count '\n' : Nat) =
        some (passed.length - (passed.reverse.takeWhile (· != '\n')).length) := by
    rw [itemAt?_natCast, LineBreaks.ends_unix_append, ← List.cons_append, List.append_assoc,
      List.getElem?_append_left, LineBreaks.lastBound]
    rw [List.length_cons, LineBreaks.length_ends_unix]
    exact Nat.lt_succ_self _
  have short : (passed.reverse.takeWhile (· != '\n')).length ≤ passed.length := by
    have few := (List.takeWhile_prefix (p := (· != '\n')) (l := passed.reverse)).length_le
    rwa [List.length_reverse] at few
  simp only [rowColumn, bounds, bind, Except.bind, row, found]
  change Except.ok _ = _
  congr 2
  omega

/-- The line of a row holds the character of a place in its column. -/
theorem exists_line_at {breaks : LineBreaks}
    (known : LineBreaks.named? source.lineBreaks = some breaks) {index : Nat}
    (inside : index < source.content.length) :
    ∃ (row column : Nat) (held : List Char),
      source.rowColumn index = .ok (row + source.firstLine, column) ∧
      source.line (row + source.firstLine) = .ok held ∧ held[column]? = source.content[index]? := by
  obtain ⟨row, column, line, placed, held, _, _, within⟩ := exists_place known (Nat.le_of_lt inside)
  refine ⟨row, column, line, placed, ?_, (within inside).2⟩
  rw [line_row known, held]

end SourceText

end RecordGrammar.Source
