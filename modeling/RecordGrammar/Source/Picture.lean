import RecordGrammar.Text.Class
import RecordGrammar.Text.Slice

namespace RecordGrammar.Source

open RecordGrammar.Text

/-! Pictures of a place in a line: the line itself, and below it carets under the place. -/

/-- The caption of a picture that is given no other. -/
def defaultCaption : String := "near here"

/-- Blanks as wide as a text. Tabs stay, so that what follows is lined up under the text. -/
def blanksUnder (text : List Char) : List Char :=
  text.map fun c => if c == '\t' then c else ' '

/-- How many carets mark `width` characters from `start` on: at least one, and none beyond the end
of the line. -/
def caretCount (line : List Char) (start width : Int) : Nat :=
  (max 1 (min width (line.length - start))).toNat

/-- Draws a line after some lead text, with carets and a caption under the marked part. -/
def picture (line : List Char) (start width : Int) (lead : List Char) (caption : String) : String :=
  String.ofList (lead ++ trimRight line ++
    '\n' :: (blanksUnder (lead ++ slice line 0 start) ++
      List.replicate (caretCount line start width) '^' ++ ' ' :: caption.toList))

/-- Why a picture cannot be drawn: it has more carets than a text may have characters, or than fit
into memory. -/
inductive PictureError where
  | tooLong
  | tooLarge
deriving DecidableEq, Repr

/-- Draws a picture if it can be drawn. Only in front of a line can there be more carets than the
line has characters. -/
def draw (line : List Char) (start width : Int) (lead : List Char) (caption : String) :
    Except PictureError String :=
  if 0 ≤ start then .ok (picture line start width lead caption)
  else if lengthLimit ≤ caretCount line start width then .error .tooLong
  else if memoryLimit ≤ caretCount line start width then .error .tooLarge
  else .ok (picture line start width lead caption)

end RecordGrammar.Source
