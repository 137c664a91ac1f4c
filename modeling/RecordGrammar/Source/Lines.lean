import RecordGrammar.Source.Picture

namespace RecordGrammar.Source

open RecordGrammar.Text

/-! Texts as lines: finding the row and column of a character, the line of a row, and complaining
about a stretch of text with a picture of it.
-/

/-- What ends a line. `normal` is a line feed, a carriage return, or the two together; `unicode`
knows the other line and paragraph characters too; the rest know one sequence each. -/
inductive LineBreaks where
  | normal
  | unicode
  | unix
  | apple
  | dos
deriving DecidableEq, Repr

def LineBreaks.named? : String → Option LineBreaks
  | "normal" => some .normal
  | "unicode" => some .unicode
  | "unix" => some .unix
  | "apple" => some .apple
  | "dos" => some .dos
  | _ => none

/-- The characters that end a line in the widest convention. -/
def isLineCharacter (c : Char) : Bool :=
  let code := c.toNat
  (0x0A ≤ code && code ≤ 0x0D) || (0x1C ≤ code && code ≤ 0x1E) || code == 0x85 ||
    code == 0x2028 || code == 0x2029

/-- Whether a line ends after a character, between its neighbours. A carriage return that a line
feed follows leaves the break to the line feed. -/
def LineBreaks.endsAfter (breaks : LineBreaks) (previous : Option Char) (c : Char)
    (next : Option Char) : Bool :=
  match breaks with
  | .normal => c == '\n' || (c == '\r' && next != some '\n')
  | .unicode => isLineCharacter c && !(c == '\r' && next == some '\n')
  | .unix => c == '\n'
  | .apple => c == '\r'
  | .dos => c == '\n' && previous == some '\r'

/-- The indexes just past the line breaks of a text that starts at `index`. -/
def LineBreaks.ends (breaks : LineBreaks) (previous : Option Char) (index : Nat) :
    List Char → List Nat
  | [] => []
  | c :: rest =>
      let later := breaks.ends (some c) (index + 1) rest
      if breaks.endsAfter previous c rest.head? then (index + 1) :: later else later

/-- The bounds of the lines of a text: where each begins, and where the last one ends. -/
def LineBreaks.bounds (breaks : LineBreaks) (content : List Char) : List Nat :=
  0 :: (breaks.ends none 0 content ++ [content.length])

/-- A text with what is needed to talk about its lines. The convention for line breaks is kept by
name, because only a look at the lines has to know it. -/
structure SourceText where
  content : List Char
  lineBreaks : String := "normal"
  filename : Option String := none
  firstLine : Int := 1
deriving Repr

/-- Why a text cannot be looked at by lines, or not be shown. -/
inductive LineError where
  | unknownBreaks (name : String)
  | noSuchLine
  | picture (error : PictureError)
deriving DecidableEq, Repr

namespace SourceText

/-- The bounds of the lines, if the line breaks are of a known kind. -/
def bounds (source : SourceText) : Except LineError (List Nat) :=
  match LineBreaks.named? source.lineBreaks with
  | some breaks => .ok (breaks.bounds source.content)
  | none => .error (.unknownBreaks source.lineBreaks)

/-- The row, counted from zero, of the last line that begins at or before an index. Without such a
line it is `-1`. The final bound begins no line. -/
def rowIn (bounds : List Nat) (index : Int) : Int :=
  let begun : Nat := bounds.dropLast.countP fun bound : Nat => decide ((bound : Int) ≤ index)
  begun - 1

/-- The row and column of a character by its index. Rows count from the first line's number. -/
def rowColumn (source : SourceText) (index : Int) : Except LineError (Int × Int) := do
  let bounds ← source.bounds
  let row := rowIn bounds index
  -- Before the front the row is -1, which finds the last bound.
  match itemAt? bounds row with
  | some bound => return (row + source.firstLine, index - bound)
  | none => throw .noSuchLine

/-- The line of a row, with its line break. Rows before the first count as the first. -/
def line (source : SourceText) (row : Int) : Except LineError (List Char) := do
  let bounds ← source.bounds
  let index := (row - source.firstLine).toNat
  match bounds[index]?, bounds[index + 1]? with
  | some first, some last => return slice source.content first last
  | _, _ => throw .noSuchLine

/-- A message with the place it is about in front. -/
def located (source : SourceText) (row column : Int) (message : String) : String :=
  let lead := match source.filename with
    | none => "At"
    | some filename => filename ++ ":"
  s!"{lead} line {row}, column {column + 1}: {message}"

/-- Complains about the text between two indexes: the place, the message, and a picture. -/
def complaint (source : SourceText) (left right : Int) (message : String) :
    Except LineError String := do
  let (row, column) ← source.rowColumn left
  let line ← source.line row
  let shown ← (draw line column (right - left) " >>> ".toList defaultCaption).mapError .picture
  return source.located row column message ++ "\n" ++ shown

end SourceText

end RecordGrammar.Source
