import RecordGrammar.Proofs.Scanner.Partition
import RecordGrammar.Proofs.Scanner.Ranking
import RecordGrammar.Proofs.Source.Rows

namespace RecordGrammar

open RecordGrammar.Text

/-! The line and the column that a reader keeps up are those that a recount of its text gives.

A piece that is taken ends the line or goes on with it, whatever was taken before. However a stretch
of text is cut into pieces, the reader comes to the same place. -/

/-- The offset just past the last line feed before an offset, or the front of the text if there is
none. -/
def lineStart (text : List Char) (offset : Nat) : Nat :=
  ((List.range offset).filter fun place => text[place]? = some '\n').getLast?.elim 0 (· + 1)

/-- An offset as a place, found by a count of the line feeds before it. -/
def Position.recount (text : List Char) (offset : Nat) : Position where
  line := 1 + (text.take offset).count '\n'
  column := offset - lineStart text offset
  index := offset

theorem lineStart_eq {text : List Char} {offset : Nat} (inside : offset ≤ text.length) :
    lineStart text offset = offset - ((text.take offset).reverse.takeWhile (· != '\n')).length := by
  obtain ⟨front, back, split, single, begins⟩ :=
    Source.LineBreaks.exists_lastLine (text.take offset)
  have whole : text = front ++ (back ++ text.drop offset) := by
    rw [← List.append_assoc, ← split, List.take_append_drop]
  have length : offset = front.length + back.length := by
    have cut := congrArg List.length split
    rwa [List.length_take, Nat.min_eq_left inside, List.length_append] at cut
  have column : ((text.take offset).reverse.takeWhile (· != '\n')).length = back.length := by
    rw [split, Source.LineBreaks.length_lastLine single begins]
  have unbroken : ((List.range back.length).map (front.length + ·)).filter
      (fun place => text[place]? = some '\n') = [] := by
    rw [List.filter_eq_nil_iff]
    intro place member
    obtain ⟨further, short, same⟩ := List.mem_map.mp member
    have here : text[place]? = back[further]? := by
      rw [whole, ← same, List.getElem?_append_right (Nat.le_add_right _ _), Nat.add_sub_cancel_left,
        List.getElem?_append_left (List.mem_range.mp short)]
    rw [here, decide_eq_true_eq]
    exact fun broken => single (List.mem_of_getElem? broken)
  rw [column, lineStart, length, List.range_add, List.filter_append, unbroken, List.append_nil,
    Nat.add_sub_cancel]
  rcases begins with none | ⟨more, line⟩
  · subst none
    rfl
  · have last : text[more.length]? = some '\n' := by
      rw [whole, line]
      simp
    rw [line, List.length_append, List.length_singleton, List.range_succ, List.filter_append]
    simp [last]

theorem Position.recount_eq {text : List Char} {offset : Nat} (inside : offset ≤ text.length) :
    Position.recount text offset = .behind (text.take offset) := by
  have column := lineStart_eq inside
  have short :=
    (List.takeWhile_prefix (p := (· != '\n')) (l := (text.take offset).reverse)).length_le
  rw [List.length_reverse, List.length_take, Nat.min_eq_left inside] at short
  simp only [recount, behind, Position.mk.injEq, List.length_take, Nat.min_eq_left inside, and_true]
  constructor <;> omega

namespace Reader

inductive Request where
  | skip (width : Int)
  | emit (kind : Option TokenKind) (width : Int) (text : Option Wording)
  | next
  | finish
  | block (condition : String)

inductive Answer where
  | place (position : Position)
  | token (token : Token)

def Answer.position : Answer → Position
  | .place told => told
  | .token given => given.position

/-- What a request comes to: its answer, and the reader that is left behind. -/
def Request.perform (ask : Asking) : Request → Reader → Except ScanError Answer × Reader
  | .skip width, reader => (.ok (.place reader.here), reader.skip width)
  | .emit kind width text, reader =>
      (.ok (.token (reader.emit kind width text).1), (reader.emit kind width text).2)
  | .next, reader => ((ask reader).1.map .token, (ask reader).2)
  | .finish, reader => (.ok (.token reader.finish.1), reader.finish.2)
  | .block condition, reader => (.error (.blocked (reader.blocked condition)), reader)

/-- No more is asked for than lies ahead. -/
def Request.Fits (reader : Reader) : Request → Prop
  | .skip width | .emit _ width _ => 0 ≤ width ∧ reader.right + width ≤ reader.text.length
  | _ => True

instance (reader : Reader) : (request : Request) → Decidable (request.Fits reader)
  | .skip width | .emit _ width _ =>
      inferInstanceAs (Decidable (0 ≤ width ∧ reader.right + width ≤ reader.text.length))
  | .next | .finish | .block _ => isTrue trivial

/-- What a reader of a text becomes by requests, from the front on, whose widths stay inside the
text. -/
inductive Led (ask : Asking) (text : List Char) : Reader → Prop
  | start : Led ask text (.start text)
  | request (led : Led ask text reader) (request : Request) (fits : request.Fits reader) :
      Led ask text (request.perform ask reader).2

/-- The ways to look for the next token: by the lexemes of program text, or by a table of rules,
however they match. -/
inductive Looks : Asking → Prop
  | lexemes (lexemes : Lexemes) : Looks lexemes.next
  | table (within : ScanRule.Within widths rules) :
      Looks fun reader => ScanRule.next rules reader widths

/-- Answers tell the place where the latest match began. Where there is none, the place is the one
where the reader is stuck. -/
def Tells (text : List Char) : Except ScanError Answer × Reader → Prop
  | (.ok answer, after) => ∃ began : Nat, after.left = began ∧ answer.position = .recount text began
  | (.error (.blocked blocked), after) =>
      ∃ place : Nat, after.right = place ∧ blocked.position = .recount text place
  | (.error _, _) => False

theorem looks_next {scanner : Scanner} (byReader : scanner.ByReader) : Looks scanner.next := by
  obtain ⟨dialect, kinds, omitted⟩ := scanner
  cases dialect with
  | lexemes lexemes => exact .lexemes lexemes
  | table rules => exact .table (ScanRule.width?_within rules)
  | answers answers => exact absurd rfl (byReader answers)

variable {ask : Asking} {reader other : Reader} {text : List Char} {offset : Nat}

theorem At.recount (stands : reader.At text offset) : reader.here = .recount text offset := by
  rw [stands.here, Position.recount_eq stands.inside]

/-- The token of a table is told to be where the match begins that the reader knows of. -/
theorem nextWithin_left {widths : ScanRule → Spot → Option Nat} {rules : List ScanRule} {fuel : Nat}
    {token : Token} {after : Reader}
    (given : ScanRule.nextWithin rules fuel reader widths = (.ok token, after)) :
    after.left = token.position.index := by
  induction fuel generalizing reader with
  | zero => cases given
  | succ fuel ih =>
      unfold ScanRule.nextWithin at given
      split at given
      · cases given
        rfl
      · split at given
        · cases given
        · split at given
          · cases given
          · split at given
            · exact ih given
            · cases given
              rfl

theorem tells_behind {token : Token} {after : Reader} {passed : List Char}
    (left : after.left = passed.length) (ahead : passed <+: text)
    (position : token.position = .behind passed) :
    Tells text (.ok (.token token), after) := by
  refine ⟨passed.length, left, ?_⟩
  rw [Answer.position, position, Position.recount_eq ahead.length_le,
    ← List.prefix_iff_eq_take.mp ahead]

theorem At.tells_blocked (stands : reader.At text offset) (condition : String) :
    Tells text (.error (.blocked { position := .behind (text.take offset), condition }), reader) :=
  ⟨offset, stands.right, (Position.recount_eq stands.inside).symm⟩

theorem lexemes_tells (lexemes : Lexemes) (stands : reader.At text offset) :
    (∃ stop, (lexemes.next reader).2.At text stop) ∧
      Tells text ((lexemes.next reader).1.map .token, (lexemes.next reader).2) := by
  have gives := Lexemes.next_gives lexemes stands
  generalize lexemes.next reader = result at gives
  cases gives with
  | finish blank standsToo left =>
      exact ⟨⟨_, standsToo⟩, tells_behind (left.trans standsToo.right) (List.prefix_refl text) rfl⟩
  | @token call left right blank opens wide unmarked position means standsToo =>
      have inside : left ≤ text.length := by
        have short := standsToo.inside
        omega
      have length : call.after.left = (text.take left).length := by
        rw [opens, List.length_take, Nat.min_eq_left inside]
      exact ⟨⟨_, standsToo⟩, tells_behind length (List.take_prefix _ _) position⟩
  | stuck blank more stuck standsToo => exact ⟨⟨_, standsToo⟩, standsToo.tells_blocked _⟩

theorem table_tells {widths : ScanRule → Spot → Option Nat} {rules : List ScanRule}
    (within : ScanRule.Within widths rules) (stands : reader.At text offset) :
    (∃ stop, (ScanRule.next rules reader widths).2.At text stop) ∧
      Tells text ((ScanRule.next rules reader widths).1.map .token,
        (ScanRule.next rules reader widths).2) := by
  have gives := ScanRule.next_gives within stands
  cases given : ScanRule.next rules reader widths with
  | mk result after =>
      rw [given] at gives
      cases gives with
      | finish cut yields standsToo =>
          exact ⟨⟨_, standsToo⟩, tells_behind (nextWithin_left given) (List.prefix_refl text) rfl⟩
      | token cut yields further unmarked placed standsToo =>
          obtain ⟨began, position⟩ := placed
          have left := nextWithin_left given
          rw [position] at left
          exact ⟨⟨_, standsToo⟩, tells_behind left (List.take_prefix _ _) position⟩
      | stuck cut yields more idle standsToo => exact ⟨⟨_, standsToo⟩, standsToo.tells_blocked _⟩

theorem Looks.tells (looks : Looks ask) (stands : reader.At text offset) :
    (∃ stop, (ask reader).2.At text stop) ∧
      Tells text ((ask reader).1.map .token, (ask reader).2) := by
  cases looks with
  | lexemes lexemes => exact lexemes_tells lexemes stands
  | table within => exact table_tells within stands

/-- A width that fits leads from one offset to another. -/
theorem At.skip_fits (stands : reader.At text offset) {width : Int} (front : 0 ≤ width)
    (within : reader.right + width ≤ reader.text.length) :
    ∃ stop, (reader.skip width).At text stop ∧ (reader.skip width).left = offset := by
  obtain ⟨count, same⟩ := Int.eq_ofNat_of_zero_le front
  subst same
  rw [stands.right, stands.whole] at within
  exact ⟨_, stands.skip (by omega)⟩

/-- One request keeps the reader at an offset of its text, and tells a place of it. -/
theorem At.perform (looks : Looks ask) (stands : reader.At text offset) {request : Request}
    (fits : request.Fits reader) :
    (∃ stop, (request.perform ask reader).2.At text stop) ∧
      Tells text (request.perform ask reader) := by
  cases request with
  | skip width =>
      obtain ⟨stop, standsToo, left⟩ := stands.skip_fits fits.1 fits.2
      exact ⟨⟨stop, standsToo⟩, offset, left, stands.recount⟩
  | emit kind width meaning =>
      obtain ⟨stop, standsToo, left⟩ := stands.skip_fits fits.1 fits.2
      exact ⟨⟨stop, standsToo⟩, offset, left, stands.recount⟩
  | next => exact looks.tells stands
  | finish => exact ⟨⟨offset, stands.finished⟩, offset, stands.right, stands.recount⟩
  | block condition => exact ⟨⟨offset, stands⟩, offset, stands.right, stands.recount⟩

theorem Led.exists_at (looks : Looks ask) (led : Led ask text reader) :
    ∃ offset, reader.At text offset := by
  induction led with
  | start => exact ⟨0, start_at text⟩
  | request led request fits ih =>
      obtain ⟨offset, stands⟩ := ih
      exact (stands.perform looks fits).1

theorem At.eq_of_at (stands : reader.At text offset) (also : other.At text offset) :
    { reader with left := other.left } = other := by
  have spot := stands.spot.trans also.spot.symm
  have here := stands.here.trans also.here.symm
  obtain ⟨line, column, right⟩ := Position.mk.inj here
  have whole := stands.whole.trans also.whole.symm
  cases reader
  cases other
  simp only [Int.natCast_inj] at line column right whole spot
  subst line column right whole spot
  rfl

/-- What a reader keeps up from piece to piece is what a recount of its text gives. After any
requests that stay inside the text the reader stands at an offset of it, in the line and the column
that a recount tells, and whatever is asked next tells the place where its match begins, or where
the reader is stuck, as a recount does. Two readers at one offset differ in nothing but the latest
match, however they came there. -/
theorem led_recounts (looks : Looks ask) (text : List Char) :
    (∀ reader, Led ask text reader →
      (∃ offset : Nat, reader.right = offset ∧ offset ≤ text.length ∧
        reader.here = .recount text offset) ∧
      ∀ request : Request, request.Fits reader → Tells text (request.perform ask reader)) ∧
    ∀ reader other, Led ask text reader → Led ask text other → reader.right = other.right →
      { reader with left := other.left } = other := by
  constructor
  · intro reader led
    obtain ⟨offset, stands⟩ := led.exists_at looks
    exact ⟨⟨offset, stands.right, stands.inside, stands.recount⟩,
      fun request fits => (stands.perform looks fits).2⟩
  · intro reader other led also same
    obtain ⟨offset, stands⟩ := led.exists_at looks
    obtain ⟨otherOffset, standsToo⟩ := also.exists_at looks
    have level : offset = otherOffset := by
      rw [stands.right, standsToo.right] at same
      exact Int.ofNat.inj same
    subst level
    exact stands.eq_of_at standsToo

def parted : List Char := ['a', '\n', '\n', 'b', ' ', 'c']

def coarse : Reader := ((start parted).skip 2).skip 2

def fine : Reader := (((start parted).skip 1).emit (some .white) 2 none).2.skip 1

theorem parted_recounts :
    Looks Scanner.standard.next ∧ Led Scanner.standard.next parted coarse ∧
      Led Scanner.standard.next parted fine ∧ coarse.here = .recount parted 4 ∧
      Position.recount parted 4 = ⟨3, 1, 4⟩ ∧ { coarse with left := fine.left } = fine ∧
      Tells parted (Request.next.perform Scanner.standard.next coarse) ∧
      (Request.next.perform Scanner.standard.next coarse).1.map Answer.position =
        .ok ⟨3, 2, 5⟩ := by
  have looks := looks_next Scanner.standard_byReader
  have coarseLed : Led Scanner.standard.next parted coarse :=
    .request (.request .start (.skip 2) (by decide)) (.skip 2) (by decide)
  have fineLed : Led Scanner.standard.next parted fine :=
    .request (.request (.request .start (.skip 1) (by decide)) (.emit (some .white) 2 none)
      (by decide)) (.skip 1)
      (by decide)
  obtain ⟨counted, divided⟩ := led_recounts looks parted
  obtain ⟨⟨offset, right, _, here⟩, tells⟩ := counted coarse coarseLed
  have four : offset = 4 := Int.ofNat.inj right.symm
  exact ⟨looks, coarseLed, fineLed, four ▸ here, by decide, divided _ _ coarseLed fineLed rfl,
    tells .next trivial, rfl⟩

end Reader

end RecordGrammar
