import RecordGrammar.Text.Spot
import RecordGrammar.Token

namespace RecordGrammar

open RecordGrammar.Text

/-! Readers: a text on its way through a scanner.

A reader knows the bounds of the latest match and the line and column where scanning goes on.
Lines are counted by line feeds alone. Widths may be negative or reach beyond the text: offsets
then count as offsets of a slice do.
-/

/-- A text with the bounds of the latest match and the place where scanning goes on. `spot` is that
place seen from within the text; before the front of the text it is the front. -/
structure Reader where
  text : List Char
  left : Int
  right : Int
  line : Nat
  column : Nat
  spot : Spot
deriving DecidableEq, Repr

/-- Why a scanner gives no token: it is stuck, or it was led outside of its text, perhaps so far
that no offset counts it. -/
inductive ScanError where
  | blocked (blocked : Blocked)
  | outOfRange
  | outOfReach
deriving DecidableEq, Repr

namespace Reader

def start (text : List Char) : Reader where
  text := text
  left := 0
  right := 0
  line := 1
  column := 0
  spot := .front text

def hasMore (reader : Reader) : Bool :=
  decide (reader.right < 0) || !reader.spot.rest.isEmpty

def here (reader : Reader) : Position where
  line := reader.line
  column := reader.column
  index := reader.right

def matched (reader : Reader) : List Char :=
  slice reader.text reader.left reader.right

def columnAfter (column : Nat) (passed : List Char) : Nat :=
  if passed.contains '\n' then (passed.reverse.takeWhile (· != '\n')).length
  else column + passed.length

/-- Whether so many characters lie ahead of a place that is not before the front. -/
def goesAhead (reader : Reader) (width : Int) : Bool :=
  decide (0 ≤ reader.right) && decide (0 ≤ width)

/-- The text of the next so many characters. -/
def passing (reader : Reader) (width : Int) : List Char :=
  if reader.goesAhead width then reader.spot.rest.take width.toNat
  else slice reader.text reader.right (reader.right + width)

def spotBehind (reader : Reader) (width : Int) : Spot :=
  if reader.goesAhead width then reader.spot.advance width.toNat
  else .after reader.text (reader.right + width).toNat

/-- Takes so many characters as the latest match. -/
def skip (reader : Reader) (width : Int) : Reader :=
  let passed := reader.passing width
  { text := reader.text
    left := reader.right
    right := reader.right + width
    line := reader.line + passed.count '\n'
    column := columnAfter reader.column passed
    spot := reader.spotBehind width }

/-- Takes so many characters and makes a token of them. The token stands for the matched text
unless another text is given. -/
def emit (reader : Reader) (kind : Option TokenKind) (width : Int) (text : Option Wording) :
    Token × Reader :=
  let stands := match text with
    | some text => text
    | none => .ofChars (reader.passing width)
  ({ kind, text := stands, position := reader.here }, reader.skip width)

def finish (reader : Reader) : Token × Reader :=
  ({ kind := some .endOfText, text := [], position := reader.here },
   { reader with left := reader.right })

def blocked (reader : Reader) (condition : String) : Blocked where
  position := reader.here
  condition := condition

/-- The text from here on. From a place before the front, which counts from the end of the text,
reading goes on at the front once the end is reached. -/
def upcoming? (reader : Reader) : Option (List Char) :=
  if 0 ≤ reader.right then some reader.spot.rest
  else if 0 ≤ reader.text.length + reader.right then
    some (reader.text.drop (reader.text.length + reader.right).toNat ++ reader.text)
  else none

/-- A reader whose spot is the place where scanning goes on. -/
def Placed (reader : Reader) : Prop :=
  reader.spot = .after reader.text reader.right.toNat

theorem start_placed (text : List Char) : (start text).Placed := by
  apply Spot.eq_of_last_rest <;> simp [start, Spot.front, Spot.after]

theorem skip_placed {reader : Reader} (placed : reader.Placed) (width : Int) :
    (reader.skip width).Placed := by
  unfold Placed at placed ⊢
  simp only [skip, spotBehind]
  split
  · rename_i ahead
    simp only [goesAhead, Bool.and_eq_true, decide_eq_true_eq] at ahead
    rw [placed, Spot.advance_after, Int.toNat_add ahead.1 ahead.2]
  · rfl

section Inside

variable {reader : Reader}

theorem skip_natCast (inside : 0 ≤ reader.right) (width : Nat) :
    (reader.skip width).right = reader.right + width ∧
      (reader.skip width).spot = reader.spot.advance width := by
  have ahead : reader.goesAhead width = true := by simp [Reader.goesAhead, inside]
  simp [Reader.skip, Reader.spotBehind, ahead]

theorem emit_natCast (inside : 0 ≤ reader.right) (kind : Option TokenKind) (width : Nat)
    (text : Option Wording) :
    reader.emit kind width text =
      ({ kind, text := text.getD (.ofChars (reader.spot.rest.take width)),
         position := reader.here }, reader.skip width) := by
  have ahead : reader.goesAhead width = true := by simp [Reader.goesAhead, inside]
  cases text <;> simp [Reader.emit, Reader.passing, ahead]

theorem hasMore_iff (inside : 0 ≤ reader.right) :
    reader.hasMore = true ↔ reader.spot.rest ≠ [] := by
  simp [Reader.hasMore, Int.not_lt.mpr inside]

end Inside

end Reader

end RecordGrammar
