import RecordGrammar.Text.Class
import RecordGrammar.Text.Wording

namespace RecordGrammar.Text

/-! Quoted text: how a text is displayed in messages.

The quote marks are single unless the text holds a single quote and no double one. The chosen
mark and the backslash get a backslash; line feed, carriage return and tab have letters of their
own; whatever else cannot be printed is written by its code in hexadecimal, and so are halves of
pairs.
-/

def quoteMark (text : Wording) : Char :=
  if text.contains (.char '\'') && !text.contains (.char '"') then '"' else '\''

/-- A code in lower-case hexadecimal, filled up with zeros. -/
def hexCode (width code : Nat) : List Char :=
  let digits := Nat.toDigits 16 code
  List.replicate (width - digits.length) '0' ++ digits

def quoteCharacter (mark c : Char) : List Char :=
  if c == mark || c == '\\' then ['\\', c]
  else if c == '\n' then ['\\', 'n']
  else if c == '\r' then ['\\', 'r']
  else if c == '\t' then ['\\', 't']
  else if isPrintable c then [c]
  else if c.toNat < 0x100 then '\\' :: 'x' :: hexCode 2 c.toNat
  else if c.toNat < 0x10000 then '\\' :: 'u' :: hexCode 4 c.toNat
  else '\\' :: 'U' :: hexCode 8 c.toNat

/-- One code point as it stands between quote marks. -/
def quotePoint (mark : Char) : CodePoint → List Char
  | .char c => quoteCharacter mark c
  | .half code => '\\' :: 'u' :: hexCode 4 code

def quoteWording (text : Wording) : String :=
  let mark := quoteMark text
  String.ofList (mark :: text.flatMap (quotePoint mark) ++ [mark])

def quote (text : String) : String := quoteWording (.ofString text)

/-- A text in quote marks, or the word for no text. -/
def quoteOption : Option String → String
  | some text => quote text
  | none => "None"

end RecordGrammar.Text
