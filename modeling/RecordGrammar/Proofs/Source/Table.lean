import RecordGrammar.Source.Lines

namespace RecordGrammar.Source

open RecordGrammar.Text

/-! The table of lines: the lines that it holds make up the text, every one but the last ends with
its first line break, and the row and the column of a place are found where its character stands. -/

namespace LineBreaks

def pairs : LineBreaks → Bool
  | .normal | .unicode | .dos => true
  | .unix | .apple => false

def single (breaks : LineBreaks) (c : Char) : Bool :=
  match breaks with
  | .normal => c == '\r' || c == '\n'
  | .unicode => isLineCharacter c
  | .unix => c == '\n'
  | .apple => c == '\r'
  | .dos => false

/-- The texts that end a line: single characters, or a carriage return and a line feed together. -/
inductive IsBreak (breaks : LineBreaks) : List Char → Prop
  | pair (known : breaks.pairs = true) : IsBreak breaks ['\r', '\n']
  | single (known : breaks.single c = true) : IsBreak breaks [c]

/-- A line ends with a break, no other begins before it, and what comes later does not go on with
it. -/
def Ended (breaks : LineBreaks) (line later : List Char) : Prop :=
  ∃ body ending, line = body ++ ending ∧ breaks.IsBreak ending ∧
    (∀ front other back, line = front ++ (other ++ back) → breaks.IsBreak other →
      body.length ≤ front.length) ∧
    ∀ c ∈ later.head?, ¬ breaks.IsBreak (ending ++ [c])

/-- Lines as a text falls into them: all but the last end with their first break, and the last has
none. -/
inductive Lined (breaks : LineBreaks) : List (List Char) → Prop
  | last (unbroken : ∀ ending, breaks.IsBreak ending → ¬ ending <:+: line) : Lined breaks [line]
  | line (ended : breaks.Ended line (next :: lines).flatten)
      (later : Lined breaks (next :: lines)) :
      Lined breaks (line :: next :: lines)

def lines (breaks : LineBreaks) : List Char → List (List Char)
  | [] => [[]]
  | c :: rest =>
      if breaks.pairs && c == '\r' && rest.head? == some '\n' then [c, '\n'] ::
        lines breaks rest.tail
      else if breaks.single c then [c] :: lines breaks rest
      else (lines breaks rest).modifyHead (c :: ·)
termination_by content => content.length

variable {breaks : LineBreaks} {content part rest ending line : List Char} {previous : Option Char}
  {index : Nat} {c : Char}

theorem exists_lines (breaks : LineBreaks) (content : List Char) :
    ∃ line later, breaks.lines content = line :: later := by
  fun_induction lines breaks content with
  | case1 => exact ⟨_, _, rfl⟩
  | case2 => exact ⟨_, _, rfl⟩
  | case3 => exact ⟨_, _, rfl⟩
  | case4 c rest unpaired unbroken ih =>
      obtain ⟨line, later, same⟩ := ih
      rw [same]
      exact ⟨_, _, rfl⟩

theorem eq_of_paired (paired : (breaks.pairs && c == '\r' && rest.head? == some '\n') = true) :
    breaks.pairs = true ∧ c = '\r' ∧ ∃ later, rest = '\n' :: later := by
  simp only [Bool.and_eq_true, beq_iff_eq] at paired
  obtain ⟨⟨known, same⟩, next⟩ := paired
  exact ⟨known, same, List.head?_eq_some_iff.mp next⟩

theorem flatten_lines (breaks : LineBreaks) (content : List Char) :
    (breaks.lines content).flatten = content := by
  fun_induction lines breaks content with
  | case1 => rfl
  | case2 c rest paired ih =>
      obtain ⟨_, _, later, split⟩ := eq_of_paired paired
      subst split
      rw [List.flatten_cons, ih]
      rfl
  | case3 c rest unpaired broken ih =>
      rw [List.flatten_cons, ih]
      rfl
  | case4 c rest unpaired unbroken ih =>
      obtain ⟨line, later, same⟩ := breaks.exists_lines rest
      rw [same] at ih
      rw [same, List.modifyHead_cons, ← ih]
      rfl

section Breaks

/-- No break begins inside of a part, whatever of what follows it takes. -/
def Unbroken (breaks : LineBreaks) (part rest : List Char) : Prop :=
  ∀ front back, part = front ++ back → back ≠ [] → ∀ ending, breaks.IsBreak ending →
    ¬ ending <+: back ++ rest

theorem IsBreak.length_pos (broken : breaks.IsBreak ending) : 0 < ending.length := by
  cases broken <;> exact Nat.succ_pos _

theorem Unbroken.le {front other back : List Char}
    (unbroken : breaks.Unbroken part (ending ++ rest))
    (split : part ++ ending = front ++ (other ++ back)) (broken : breaks.IsBreak other) :
    part.length ≤ front.length := by
  rcases List.append_eq_append_iff.mp split with ⟨more, longer, _⟩ | ⟨more, shorter, behind⟩
  · rw [longer, List.length_append]
    exact Nat.le_add_right _ _
  · by_cases none : more = []
    · exact Nat.le_of_eq (by rw [shorter, none, List.append_nil])
    · refine absurd ⟨back ++ rest, ?_⟩ (unbroken front more shorter none other broken)
      rw [← List.append_assoc, behind, List.append_assoc]

theorem Unbroken.not_infix (unbroken : breaks.Unbroken part []) (broken : breaks.IsBreak ending) :
    ¬ ending <:+: part := by
  intro inside
  obtain ⟨front, back, split⟩ := inside
  have width := broken.length_pos
  have whole : part ++ [] = front ++ (ending ++ back) := by
    rw [List.append_nil, ← split, List.append_assoc]
  have few := unbroken.le whole broken
  have length := congrArg List.length whole
  rw [List.length_append, List.length_append, List.length_append] at length
  simp only [List.length_nil] at length
  omega

theorem Unbroken.ended (unbroken : breaks.Unbroken part (ending ++ rest))
    (broken : breaks.IsBreak ending) (whole : ∀ c ∈ rest.head?, ¬ breaks.IsBreak (ending ++ [c])) :
    breaks.Ended (part ++ ending) rest :=
  ⟨part, ending, rfl, broken, fun _ _ _ split other => unbroken.le split other, whole⟩

theorem Unbroken.concat (unbroken : breaks.Unbroken part (c :: rest))
    (unpaired : ¬ (breaks.pairs && c == '\r' && rest.head? == some '\n') = true)
    (single : ¬ breaks.single c = true) :
    breaks.Unbroken (part ++ [c]) rest := by
  intro front back split some ending broken begins
  obtain ⟨before, last, same⟩ := (List.eq_nil_or_concat back).resolve_left some
  rw [List.concat_eq_append] at same
  rw [same, ← List.append_assoc] at split
  obtain ⟨shorter, ended⟩ := List.append_inj' split rfl
  cases ended
  rw [same, List.append_assoc, List.singleton_append] at begins
  by_cases none : before = []
  · rw [none, List.nil_append] at begins
    cases broken with
    | pair known =>
        obtain ⟨first, begins⟩ := List.cons_prefix_cons.mp begins
        obtain ⟨back, next⟩ := begins
        exact unpaired (by simp [known, ← first, ← next])
    | single known =>
        obtain ⟨first, _⟩ := List.cons_prefix_cons.mp begins
        exact single (first ▸ known)
  · exact unbroken front before shorter none ending broken begins

theorem unbroken_nil (breaks : LineBreaks) (content : List Char) : breaks.Unbroken [] content := by
  intro front back split some
  exact absurd (List.append_eq_nil_iff.mp split.symm).2 some

/-- What a text falls into behind a part of a line that holds no break. -/
theorem lined_lines (unbroken : breaks.Unbroken part content) :
    breaks.Lined ((breaks.lines content).modifyHead (part ++ ·)) := by
  -- A character that ends no line joins the part in front, so the part has to be general.
  fun_induction lines breaks content generalizing part with
  | case1 =>
      rw [List.modifyHead_cons, List.append_nil]
      exact .last fun ending broken => unbroken.not_infix broken
  | case2 c rest paired ih =>
      obtain ⟨known, same, later, split⟩ := eq_of_paired paired
      subst same split
      have ended : breaks.Ended (part ++ ['\r', '\n']) later :=
        Unbroken.ended unbroken (.pair known) fun c _ longer => by cases longer
      have lined := ih (breaks.unbroken_nil _)
      rw [List.tail_cons] at lined ⊢
      rw [← breaks.flatten_lines later] at ended
      obtain ⟨next, more, same⟩ := breaks.exists_lines later
      rw [same] at lined ended ⊢
      exact .line ended lined
  | case3 c rest unpaired broken ih =>
      have ended : breaks.Ended (part ++ [c]) rest := by
        refine Unbroken.ended unbroken (.single broken) fun next front longer => ?_
        cases longer with
        | pair known => exact unpaired (by simp [known, Option.mem_def.mp front])
      have lined := ih (breaks.unbroken_nil _)
      rw [← breaks.flatten_lines rest] at ended
      obtain ⟨next, more, same⟩ := breaks.exists_lines rest
      rw [same] at lined ended ⊢
      exact .line ended lined
  | case4 c rest unpaired single ih =>
      have lined := ih (unbroken.concat unpaired single)
      obtain ⟨line, later, same⟩ := breaks.exists_lines rest
      rw [same] at lined ⊢
      rwa [List.modifyHead_cons, List.append_assoc] at lined

end Breaks

section Bounds

/-- The text does not go on with the second half of a break. -/
def Clear (breaks : LineBreaks) (previous : Option Char) (content : List Char) : Prop :=
  breaks.pairs = true → previous = some '\r' → content.head? ≠ some '\n'

theorem clear_of_unpaired
    (unpaired : ¬ (breaks.pairs && c == '\r' && rest.head? == some '\n') = true) :
    breaks.Clear (some c) rest := by
  intro known same next
  exact unpaired (by simp [known, Option.some.inj same, next])

/-- A line ends after a single break, and after the second half of a pair. -/
theorem endsAfter_iff {next : Option Char} : breaks.endsAfter previous c next = true ↔
    (breaks.single c = true ∧ ¬ (breaks.pairs && c == '\r' && next == some '\n') = true) ∨
      (breaks.pairs = true ∧ previous = some '\r' ∧ c = '\n') := by
  have feed : isLineCharacter '\n' = true := by decide
  cases breaks <;> grind [endsAfter, single, pairs]

theorem ends_pair (known : breaks.pairs = true) :
    breaks.ends previous index ('\r' :: '\n' :: rest) =
      (index + 2) :: breaks.ends (some '\n') (index + 2) rest := by
  have first : ¬ breaks.endsAfter previous '\r' ('\n' :: rest).head? = true := by
    intro ended
    rcases endsAfter_iff.mp ended with ⟨_, unpaired⟩ | ⟨_, _, same⟩
    · exact unpaired (by simp [known])
    · exact absurd same (by decide)
  have second : breaks.endsAfter (some '\r') '\n' rest.head? = true :=
    endsAfter_iff.mpr (.inr ⟨known, rfl, rfl⟩)
  rw [ends, if_neg first, ends, if_pos second]

theorem ends_single (unpaired : ¬ (breaks.pairs && c == '\r' && rest.head? == some '\n') = true)
    (broken : breaks.single c = true) :
    breaks.ends previous index (c :: rest) =
      (index + 1) :: breaks.ends (some c) (index + 1) rest := by
  rw [ends, if_pos (endsAfter_iff.mpr (.inl ⟨broken, unpaired⟩))]

theorem ends_inside (clear : breaks.Clear previous (c :: rest))
    (unbroken : ¬ breaks.single c = true) :
    breaks.ends previous index (c :: rest) = breaks.ends (some c) (index + 1) rest := by
  have inside : ¬ breaks.endsAfter previous c rest.head? = true := by
    intro ended
    rcases endsAfter_iff.mp ended with ⟨broken, _⟩ | ⟨known, behind, same⟩
    · exact unbroken broken
    · exact clear known behind (congrArg some same)
  rw [ends, if_neg inside]

def starts (index : Nat) : List (List Char) → List Nat
  | [] => []
  | line :: later => index :: starts (index + line.length) later

theorem starts_lines (clear : breaks.Clear previous content) :
    index :: breaks.ends previous index content = starts index (breaks.lines content) := by
  fun_induction lines breaks content generalizing previous index with
  | case1 => rfl
  | case2 c rest paired ih =>
      obtain ⟨known, same, later, split⟩ := eq_of_paired paired
      subst same split
      have fresh : breaks.Clear (some '\n') later := fun _ same => by cases same
      rw [List.tail_cons] at ih
      rw [ends_pair known, ih fresh]
      rfl
  | case3 c rest unpaired broken ih =>
      rw [ends_single unpaired broken, ih (clear_of_unpaired unpaired)]
      rfl
  | case4 c rest unpaired unbroken ih =>
      obtain ⟨line, later, same⟩ := breaks.exists_lines rest
      have place : index + (c :: line).length = index + 1 + line.length := by
        rw [List.length_cons]
        omega
      have behind := @ih (some c) (index + 1) (clear_of_unpaired unpaired)
      rw [same, starts] at behind
      rw [ends_inside clear unbroken, (List.cons.inj behind).2, same, List.modifyHead_cons,
        starts, place]

theorem bounds_eq (content : List Char) :
    breaks.bounds content = starts 0 (breaks.lines content) ++
      [(breaks.lines content).flatten.length] := by
  have clear : breaks.Clear none content := fun _ same => by cases same
  rw [bounds, ← List.cons_append, starts_lines clear, flatten_lines]

end Bounds

end LineBreaks

section Starts

open LineBreaks

variable {index : Nat} {front back lines : List (List Char)} {line : List Char}

theorem starts_append :
    starts index (front ++ back) = starts index front ++
      starts (index + front.flatten.length) back := by
  induction front generalizing index with
  | nil => rfl
  | cons line front ih =>
      rw [List.cons_append, starts, starts, ih, List.flatten_cons, List.length_append,
        Nat.add_assoc]
      rfl

theorem length_starts : (starts index lines).length = lines.length := by
  induction lines generalizing index with
  | nil => rfl
  | cons line lines ih => rw [starts, List.length_cons, List.length_cons, ih]

theorem starts_within :
    ∀ bound ∈ starts index lines, index ≤ bound ∧ bound ≤ index + lines.flatten.length := by
  induction lines generalizing index with
  | nil =>
      intro bound held
      cases held
  | cons line lines ih =>
      intro bound held
      rw [List.flatten_cons, List.length_append]
      rcases List.mem_cons.mp held with same | later
      · omega
      · obtain ⟨least, most⟩ := ih bound later
        omega

/-- A place in a text is in one of its lines, and the end of the text is in the last. -/
theorem exists_split (some : lines ≠ []) (inside : index ≤ lines.flatten.length) :
    ∃ front line back, lines = front ++ line :: back ∧ front.flatten.length ≤ index ∧
      (index < front.flatten.length + line.length ∨ back = []) := by
  induction lines generalizing index with
  | nil => exact absurd rfl some
  | cons line lines ih =>
      rw [List.flatten_cons, List.length_append] at inside
      by_cases here : index < line.length ∨ lines = []
      · exact ⟨[], line, lines, rfl, Nat.zero_le _, by simpa using here⟩
      · have past : line.length ≤ index := Nat.le_of_not_lt fun few => here (.inl few)
        obtain ⟨front, found, back, split, least, most⟩ :=
          @ih (index - line.length) (fun none => here (.inr none)) (by omega)
        refine ⟨line :: front, found, back, by rw [split]; rfl, ?_⟩
        rw [List.flatten_cons, List.length_append]
        exact ⟨by omega, most.imp_left fun few => by omega⟩

theorem rowIn_starts {finish : Nat} (least : front.flatten.length ≤ index)
    (most : index < front.flatten.length + line.length ∨ back = []) :
    SourceText.rowIn (starts 0 (front ++ line :: back) ++ [finish]) index = front.length := by
  -- The lines in front and the line itself have begun, and no line behind it has.
  have before : ∀ bound ∈ starts 0 front, decide ((bound : Int) ≤ index) = true := by
    intro bound held
    have few := (starts_within bound held).2
    exact decide_eq_true (by omega)
  have behind : ∀ bound ∈ starts (0 + front.flatten.length + line.length) back,
      ¬ decide ((bound : Int) ≤ index) = true := by
    intro bound held
    rw [decide_eq_true_eq]
    rcases most with few | none
    · have many := (starts_within bound held).1
      omega
    · rw [none] at held
      cases held
  have count : (starts 0 (front ++ line :: back)).countP
      (fun bound : Nat => decide ((bound : Int) ≤ index)) = front.length + 1 := by
    rw [starts_append, List.countP_append, List.countP_eq_length.mpr before, length_starts, starts,
      List.countP_cons_of_pos (by simp only [decide_eq_true_eq]; omega),
      List.countP_eq_zero.mpr behind]
  rw [SourceText.rowIn, List.dropLast_concat, count]
  omega

theorem rowIn_le (bounds : List Nat) {left right : Int} (order : left ≤ right) :
    SourceText.rowIn bounds left ≤ SourceText.rowIn bounds right := by
  have more :=
    List.countP_mono_left (l := bounds.dropLast)
      (p := fun bound : Nat => decide ((bound : Int) ≤ left))
    (q := fun bound : Nat => decide ((bound : Int) ≤ right)) fun bound _ few => by
      rw [decide_eq_true_eq] at few ⊢
      exact Int.le_trans few order
  simp only [SourceText.rowIn]
  omega

theorem getElem?_starts {finish : Nat} :
    (starts 0 (front ++ line :: back) ++ [finish])[front.length]? = some front.flatten.length := by
  rw [starts_append, List.append_assoc, starts,
    List.getElem?_append_right (Nat.le_of_eq length_starts), length_starts, Nat.sub_self,
    Nat.zero_add]
  rfl

theorem getElem?_starts_succ :
    (starts 0 (front ++ line :: back) ++
      [(front ++ line :: back).flatten.length])[front.length + 1]? =
        some (front.flatten.length + line.length) := by
  have many : (starts 0 front).length ≤ front.length + 1 := by
    rw [length_starts]; exact Nat.le_succ _
  rw [starts_append, List.append_assoc, starts, List.getElem?_append_right many, length_starts,
    Nat.add_sub_cancel_left, Nat.zero_add, List.cons_append, List.getElem?_cons_succ]
  cases back with
  | nil => simp [starts]
  | cons next back => rfl

end Starts

namespace SourceText

open LineBreaks

variable {source : SourceText} {breaks : LineBreaks} {front back lines : List (List Char)}
  {line : List Char} {index : Nat}

theorem bounds_starts (known : LineBreaks.named? source.lineBreaks = some breaks) :
    source.bounds =
      .ok (starts 0 (breaks.lines source.content) ++
        [(breaks.lines source.content).flatten.length]) := by
  simp only [SourceText.bounds, known, bounds_eq]

theorem rowColumn_split (known : LineBreaks.named? source.lineBreaks = some breaks)
    (split : breaks.lines source.content = front ++ line :: back)
    (least : front.flatten.length ≤ index)
    (most : index < front.flatten.length + line.length ∨ back = []) :
    source.rowColumn index =
      .ok (front.length + source.firstLine, (index - front.flatten.length : Nat)) := by
  have bounds := bounds_starts known
  rw [split] at bounds
  have column : ((index - front.flatten.length : Nat) : Int) =
      (index : Int) - front.flatten.length := by omega
  simp only [rowColumn, bounds, bind, Except.bind, rowIn_starts least most, itemAt?_natCast,
    getElem?_starts, column]
  rfl

theorem line_split (known : LineBreaks.named? source.lineBreaks = some breaks)
    (split : breaks.lines source.content = front ++ line :: back) :
    source.line (front.length + source.firstLine) = .ok line := by
  have bounds := bounds_starts known
  have content : front.flatten ++ (line ++ back.flatten) = source.content := by
    rw [← breaks.flatten_lines source.content, split, List.flatten_append, List.flatten_cons]
  have shown : slice source.content front.flatten.length
      (front.flatten.length + line.length : Nat) = line := by
    rw [slice_natCast, ← content, List.drop_left, Nat.add_sub_cancel_left, List.take_left]
  have place : (front.length + source.firstLine - source.firstLine).toNat = front.length := by omega
  rw [split] at bounds
  simp only [SourceText.line, bounds, bind, Except.bind, place, getElem?_starts,
    getElem?_starts_succ, shown]
  rfl

theorem line_beyond (known : LineBreaks.named? source.lineBreaks = some breaks) {row : Nat}
    (beyond : (breaks.lines source.content).length ≤ row) :
    source.line (row + source.firstLine) = .error .noSuchLine := by
  have place : (row + source.firstLine - source.firstLine).toNat = row := by omega
  have length :
      (starts 0 (breaks.lines source.content) ++
        [(breaks.lines source.content).flatten.length]).length ≤
      row + 1 := by
    rw [List.length_append, length_starts]
    exact Nat.succ_le_succ beyond
  simp only [SourceText.line, bounds_starts known, bind, Except.bind, place,
    List.getElem?_eq_none length]
  split
  · rename_i last
    cases last
  · rfl

theorem line_row (known : LineBreaks.named? source.lineBreaks = some breaks) (row : Nat) :
    source.line (row + source.firstLine) = match (breaks.lines source.content)[row]? with
      | some line => .ok line
      | none => .error .noSuchLine := by
  by_cases within : row < (breaks.lines source.content).length
  · have split :=
      (List.take_append_drop row _).symm.trans (congrArg _ (List.drop_eq_getElem_cons within))
    have shown := line_split known split
    rw [List.length_take_of_le (Nat.le_of_lt within)] at shown
    rw [shown, List.getElem?_eq_getElem within]
  · have beyond := Nat.le_of_not_lt within
    rw [line_beyond known beyond, List.getElem?_eq_none beyond]

/-- A place is found in a line that stands there in the text, and in its column there is the
character of the place. -/
theorem exists_place (known : LineBreaks.named? source.lineBreaks = some breaks)
    (inside : index ≤ source.content.length) : ∃ (row column : Nat) (held : List Char),
      source.rowColumn index = .ok (row + source.firstLine, column) ∧
        (breaks.lines source.content)[row]? = some held ∧ column ≤ index ∧
        held <+: source.content.drop (index - column) ∧
        (index < source.content.length → column < held.length ∧
          held[column]? = source.content[index]?) := by
  have whole := breaks.flatten_lines source.content
  have some : breaks.lines source.content ≠ [] := by
    obtain ⟨first, later, same⟩ := breaks.exists_lines source.content
    rw [same]
    exact List.cons_ne_nil _ _
  have reached : index ≤ (breaks.lines source.content).flatten.length := by rwa [whole]
  obtain ⟨front, line, back, split, least, most⟩ := exists_split some reached
  have content : front.flatten ++ (line ++ back.flatten) = source.content := by
    rw [← whole, split, List.flatten_append, List.flatten_cons]
  have place : index - (index - front.flatten.length) = front.flatten.length :=
    Nat.sub_sub_self least
  refine ⟨front.length, index - front.flatten.length, line,
    rowColumn_split known split least most, ?_, Nat.sub_le _ _, ?_, ?_⟩
  · rw [split, List.getElem?_append_right (Nat.le_refl _), Nat.sub_self]
    rfl
  · rw [place, ← content, List.drop_left]
    exact List.prefix_append _ _
  · intro within
    have few : index - front.flatten.length < line.length := by
      rcases most with few | none
      · omega
      · rw [← content, none, List.length_append, List.length_append] at within
        simp only [List.flatten_nil, List.length_nil] at within
        omega
    refine ⟨few, ?_⟩
    rw [← content, List.getElem?_append_right least, List.getElem?_append_left few]

theorem rowColumn_lt {left right row column row' column' : Int} (order : left < right)
    (first : source.rowColumn left = .ok (row, column))
    (second : source.rowColumn right = .ok (row', column')) :
    row < row' ∨ row = row' ∧ column < column' := by
  cases tabled : source.bounds with
  | error error => simp [rowColumn, tabled, bind, Except.bind] at first
  | ok bounds =>
      have few := rowIn_le bounds (Int.le_of_lt order)
      simp only [rowColumn, tabled, bind, Except.bind] at first second
      cases begin : itemAt? bounds (rowIn bounds left) with
      | none => simp [begin] at first
      | some start =>
          cases beginToo : itemAt? bounds (rowIn bounds right) with
          | none => simp [beginToo] at second
          | some startToo =>
              simp only [begin, beginToo, pure, Except.pure, Except.ok.injEq, Prod.mk.injEq]
                at first second
              by_cases same : rowIn bounds left = rowIn bounds right
              · rw [same, beginToo] at begin
                cases begin
                omega
              · omega

/-- What the table of a text's lines tells: the lines that it shows, row by row, and where each
place is in them. -/
structure Tabled (source : SourceText) (breaks : LineBreaks) (lines : List (List Char)) : Prop where
  whole : lines.flatten = source.content
  lined : breaks.Lined lines
  shown (row : Nat) : source.line (row + source.firstLine) = match lines[row]? with
    | some line => .ok line
    | none => .error .noSuchLine
  placed (index : Nat) (inside : index ≤ source.content.length) :
    ∃ (row column : Nat) (held : List Char),
      source.rowColumn index = .ok (row + source.firstLine, column) ∧
      lines[row]? = some held ∧ column ≤ index ∧
      held <+: source.content.drop (index - column) ∧
      (index < source.content.length → column < held.length ∧
        held[column]? = source.content[index]?)
  ordered (left right : Int) (order : left < right) : ∀ row column row' column',
    source.rowColumn left = .ok (row, column) → source.rowColumn right = .ok (row', column') →
      row < row' ∨ row = row' ∧ column < column'

/-- Whatever the line breaks, the rows hold the text line by line, and a place is where its
character stands. -/
theorem exists_tabled (known : LineBreaks.named? source.lineBreaks = some breaks) :
    ∃ lines, source.Tabled breaks lines := by
  have lined := lined_lines (breaks.unbroken_nil source.content)
  obtain ⟨line, later, same⟩ := breaks.exists_lines source.content
  rw [same] at lined
  refine ⟨breaks.lines source.content, breaks.flatten_lines source.content, ?_, ?_, ?_, ?_⟩
  · rwa [same]
  · exact line_row known
  · exact fun index inside => exists_place known inside
  · exact fun left right order row column row' column' first second =>
      rowColumn_lt order first second

/-- A text whose breaks belong to different conventions, the first line of which has the number
five. -/
def varied : SourceText where
  content := ['a', '\r', '\r', '\n', 'b', '\u2028', '\n', 'c']
  lineBreaks := "unicode"
  firstLine := 5

theorem varied_tabled :
    LineBreaks.named? varied.lineBreaks = some .unicode ∧ ∃ lines, varied.Tabled .unicode lines :=
  ⟨rfl, exists_tabled rfl⟩

end SourceText

end RecordGrammar.Source
