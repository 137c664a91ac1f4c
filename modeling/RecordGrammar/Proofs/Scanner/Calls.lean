import RecordGrammar.Scanner.Basic

namespace RecordGrammar

open RecordGrammar.Text

/-! Scanning by calls for the next token, one after the other.

Whatever a scanner takes, it takes off the front of what lies ahead. So a reader that set out from
the front of a text always stands at an offset of that text, and the line and the column that it has
kept up are those of the text before the offset. -/

/-- The place behind some text: a line begins behind every line feed, and columns count from the
last one. -/
def Position.behind (passed : List Char) : Position where
  line := (passed.count '\n' + 1 : Nat)
  column := (passed.reverse.takeWhile (· != '\n')).length
  index := passed.length

def Token.atEnd (text : List Char) : Token where
  kind := some .endOfText
  text := []
  position := .behind text

namespace Reader

theorem columnAfter_append (passed taken : List Char) :
    columnAfter (passed.reverse.takeWhile (· != '\n')).length taken =
      ((passed ++ taken).reverse.takeWhile (· != '\n')).length := by
  unfold columnAfter
  rw [List.reverse_append]
  by_cases broken : '\n' ∈ taken
  · rw [if_pos (by simpa using broken)]
    obtain ⟨last, front, split, unbroken⟩ :=
      List.eq_append_cons_of_mem (List.mem_reverse.mpr broken)
    have each : ∀ c ∈ last, (c != '\n') = true := by
      intro c held
      have other : c ≠ '\n' := fun same => unbroken (same ▸ held)
      simpa using other
    rw [split, List.append_assoc, takeWhile_append_of_all each (by simp),
      takeWhile_append_of_all each (by simp)]
  · have each : ∀ c ∈ taken.reverse, (c != '\n') = true := by
      intro c held
      have other : c ≠ '\n' := fun same => broken (same ▸ List.mem_reverse.mp held)
      simpa using other
    rw [if_neg (by simpa using broken), List.takeWhile_append_of_pos each, List.length_append,
      List.length_reverse]
    omega

/-- A reader stands at an offset of a text, and knows the place. -/
structure At (reader : Reader) (text : List Char) (offset : Nat) : Prop where
  inside : offset ≤ text.length
  whole : reader.text = text
  right : reader.right = offset
  placed : reader.Placed
  here : reader.here = .behind (text.take offset)

variable {reader : Reader} {text : List Char} {offset : Nat}

theorem start_at (text : List Char) : (start text).At text 0 where
  inside := Nat.zero_le _
  whole := rfl
  right := rfl
  placed := start_placed text
  here := rfl

namespace At

theorem spot (stands : reader.At text offset) : reader.spot = .after text offset := by
  rw [show reader.spot = _ from stands.placed, stands.whole, stands.right, Int.toNat_natCast]

theorem rest (stands : reader.At text offset) : reader.spot.rest = text.drop offset := by
  rw [stands.spot]
  rfl

theorem remaining (stands : reader.At text offset) :
    reader.spot.remaining = text.length - offset := by
  rw [reader.spot.counted, stands.rest, List.length_drop]

theorem front (stands : reader.At text offset) : 0 ≤ reader.right := by
  rw [stands.right]
  exact Int.natCast_nonneg offset

theorem hasMore (stands : reader.At text offset) :
    reader.hasMore = decide (offset < text.length) := by
  have more := Reader.hasMore_iff stands.front
  rw [stands.rest] at more
  by_cases short : offset < text.length
  · rw [decide_eq_true short, more]
    exact fun none => absurd (List.drop_eq_nil_iff.mp none) (by omega)
  · rw [decide_eq_false short, ← Bool.not_eq_true, more, ne_eq, Decidable.not_not]
    exact List.drop_eq_nil_iff.mpr (by omega)

theorem passing (stands : reader.At text offset) (width : Nat) :
    reader.passing width = (text.drop offset).take width := by
  have ahead : reader.goesAhead width = true := by simp [Reader.goesAhead, stands.front]
  rw [Reader.passing, if_pos ahead, stands.rest, Int.toNat_natCast]

theorem skip (stands : reader.At text offset) {width : Nat}
    (within : offset + width ≤ text.length) :
    (reader.skip width).At text (offset + width) ∧ (reader.skip width).left = offset := by
  have moved : (reader.skip width).right = (offset + width : Nat) := by
    rw [(Reader.skip_natCast stands.front width).1, stands.right, Int.natCast_add]
  refine ⟨⟨within, stands.whole, moved, Reader.skip_placed stands.placed _, ?_⟩, stands.right⟩
  have here := stands.here
  simp only [Reader.here, Position.behind, Position.mk.injEq, Int.natCast_inj] at here moved ⊢
  obtain ⟨line, column, _⟩ := here
  refine ⟨?_, ?_, ?_⟩
  · have passed : (reader.skip width).line = reader.line + (reader.passing width).count '\n' := rfl
    rw [passed, line, stands.passing, List.take_add, List.count_append]
    omega
  · have passed :
        (reader.skip width).column = columnAfter reader.column (reader.passing width) := rfl
    rw [passed, column, stands.passing, columnAfter_append, List.take_add]
  · rw [moved, List.length_take, Nat.min_eq_left within]

theorem emit (stands : reader.At text offset) (kind : Option TokenKind) (width : Nat)
    (meaning : Option Wording) :
    reader.emit kind width meaning =
      ({ kind
         text := meaning.getD (.ofChars ((text.drop offset).take width))
         position := .behind (text.take offset) },
        reader.skip width) := by
  rw [Reader.emit_natCast stands.front, stands.rest, stands.here]

theorem blocked (stands : reader.At text offset) (condition : String) :
    reader.blocked condition = { position := .behind (text.take offset), condition } := by
  rw [Reader.blocked, stands.here]

theorem finish (stands : reader.At text text.length) : reader.finish.1 = .atEnd text := by
  rw [Reader.finish, stands.here, List.take_length]
  rfl

theorem finished (stands : reader.At text offset) : reader.finish.2.At text offset :=
  ⟨stands.inside, stands.whole, stands.right, stands.placed, stands.here⟩

end At

end Reader

/-- A scanner goes through a text by a reader, by lexemes or by a table, rather than in some way of
its own. -/
def Scanner.ByReader (scanner : Scanner) : Prop :=
  ∀ answers, scanner.dialect ≠ .answers answers

theorem Scanner.standard_byReader : standard.ByReader := by
  intro answers same
  cases same

/-- What is done when the next token is asked for. -/
abbrev Asking := Reader → Except ScanError Token × Reader

/-- The reader after some calls for the next token, whatever they gave. -/
def readerAfter (ask : Asking) (text : List Char) : Nat → Reader
  | 0 => .start text
  | count + 1 => (ask (readerAfter ask text count)).2

/-- What is given after some calls for the next token. -/
def answerAfter (ask : Asking) (text : List Char) (count : Nat) : Except ScanError Token :=
  (ask (readerAfter ask text count)).1

namespace Scanner

variable {scanner : Scanner} {ask : Asking} {text : List Char} {token : Token}

/-- A scanner gives in a text what calls for the next token give. -/
def Follows (scanner : Scanner) (ask : Asking) (text : List Char) : Prop :=
  ∀ count, answerAfter scanner.next text count = answerAfter ask text count

/-- A scanner of which nothing is known but what calls for the next token give. -/
def answering (ask : Asking) (calls : List Char → Nat) : Scanner where
  dialect := .answers { next := answerAfter ask, calls }
  kinds := []
  omitted := []

theorem next_answering (ask : Asking) (calls : List Char → Nat) (reader : Reader) :
    ((answering ask calls).next reader).1 = answerAfter ask reader.text reader.right.toNat := rfl

theorem answering_follows (ask : Asking) (calls : List Char → Nat) (text : List Char) :
    (answering ask calls).Follows ask text := by
  have asked (count : Nat) : (readerAfter (answering ask calls).next text count).text = text ∧
      (readerAfter (answering ask calls).next text count).right = count := by
    induction count with
    | zero => exact ⟨rfl, rfl⟩
    | succ count ih => exact ⟨ih.1, congrArg (· + 1) ih.2⟩
  intro count
  obtain ⟨whole, right⟩ := asked count
  rw [answerAfter, next_answering, whole, right, Int.toNat_natCast]

/-- Each token of a scan is what one of the calls gave. -/
theorem exists_answer_of_mem {fuel count : Nat}
    (held : token ∈ (scanner.scanFrom fuel (readerAfter scanner.next text count)).tokens) :
    ∃ later, answerAfter scanner.next text later = .ok token := by
  induction fuel generalizing count with
  | zero => cases held
  | succ fuel ih =>
      unfold scanFrom at held
      cases given : scanner.next (readerAfter scanner.next text count) with
      | mk result after =>
          have reached : after = readerAfter scanner.next text (count + 1) := by
            rw [readerAfter, given]
          rw [given] at held
          cases result with
          | error error => cases held
          | ok first =>
              have here : answerAfter scanner.next text count = .ok first := by
                rw [answerAfter, given]
              dsimp only at held
              rw [reached] at held
              split at held
              · exact ih held
              · split at held
                · exact ⟨count, List.mem_singleton.mp held ▸ here⟩
                · rcases List.mem_cons.mp held with rfl | later
                  · exact ⟨count, here⟩
                  · exact ih later

end Scanner

structure Call where
  token : Token
  after : Reader

/-- Call after call for the next token, up to one that gives the token at the end or gives none. -/
inductive Calls (ask : Asking) : Reader → List Call → Except ScanError Token × Reader → Prop
  | finish (given : ask reader = (.ok token, after)) (marked : token.isEnd = true) :
      Calls ask reader [] (.ok token, after)
  | stuck (given : ask reader = (.error error, after)) : Calls ask reader [] (.error error, after)
  | token (given : ask reader = (.ok token, after)) (unmarked : token.isEnd = false)
      (later : Calls ask after calls last) : Calls ask reader (⟨token, after⟩ :: calls) last

end RecordGrammar
