import RecordGrammar.Value

namespace RecordGrammar

open RecordGrammar.Text

/-! Documents: values written as JSON text.

Only printable ASCII characters stand for themselves. Everything is written on one line, or with a
line for each item that is indented by its depth.
-/

namespace Document

def hexDigits (code : Nat) : List Char :=
  let digits := Nat.toDigits 16 code
  List.replicate (4 - digits.length) '0' ++ digits

def unit (code : Nat) : List Char := '\\' :: 'u' :: hexDigits code

/-- One character as it stands in a string. A character beyond the basic plane takes two units. -/
def character (c : Char) : List Char :=
  let code := c.toNat
  if c == '"' || c == '\\' then ['\\', c]
  else if c == '\n' then ['\\', 'n']
  else if c == '\r' then ['\\', 'r']
  else if c == '\t' then ['\\', 't']
  else if code == 0x08 then ['\\', 'b']
  else if code == 0x0C then ['\\', 'f']
  else if ' ' ≤ c && c ≤ '~' then [c]
  else if code < 0x10000 then unit code
  else unit (0xD800 + (code - 0x10000) / 0x400) ++ unit (0xDC00 + (code - 0x10000) % 0x400)

/-- One code point as it stands in a string. -/
def point : CodePoint → List Char
  | .char c => character c
  | .half code => unit code

def string (text : Wording) : String :=
  String.ofList ('"' :: text.flatMap point ++ ['"'])

/-- How the parts of a document are separated. Without an indent everything is on one line. -/
structure Style where
  indent : Option Nat := none
deriving DecidableEq, Repr

/-- The line break and the blanks before an item at a depth. -/
def Style.lead (style : Style) (depth : Nat) : String :=
  match style.indent with
  | none => ""
  | some width => "\n" ++ String.ofList (List.replicate (width * depth) ' ')

/-- What separates two items. A line break makes the blank superfluous. -/
def Style.comma (style : Style) : String :=
  if style.indent.isSome then "," else ", "

/-- Puts brackets around items at a depth. Brackets around nothing stay together. -/
def Style.bracket (style : Style) (depth : Nat) (opening closing : String) (items : List String) :
    String :=
  if items.isEmpty then opening ++ closing
  else
    opening ++ (style.comma).intercalate (items.map (style.lead (depth + 1) ++ ·)) ++
      style.lead depth ++ closing

mutual
/-- A value at a depth. Records, objects and dictionaries are all written by their names. -/
def write (style : Style) (depth : Nat) : Value → String
  | .null => "null"
  | .bool value => if value then "true" else "false"
  | .int value => toString value
  | .float value => Decimal.Layout.document.write value
  | .text value => string value
  | .list items => style.bracket depth "[" "]" (writeItems style (depth + 1) items)
  | .entity _ _ _ attributes =>
      style.bracket depth "\x7b" "\x7d" (writeAttributes style (depth + 1) attributes)
  | .dictionary entries =>
      style.bracket depth "\x7b" "\x7d" (writeEntries style (depth + 1) entries)

def writeItems (style : Style) (depth : Nat) : List Value → List String
  | [] => []
  | item :: rest => write style depth item :: writeItems style depth rest

def writeAttributes (style : Style) (depth : Nat) : List (String × Value) → List String
  | [] => []
  | (name, value) :: rest =>
      (string (.ofString name) ++ ": " ++ write style depth value) ::
        writeAttributes style depth rest

def writeEntries (style : Style) (depth : Nat) : List (Wording × Value) → List String
  | [] => []
  | (key, value) :: rest =>
      (string key ++ ": " ++ write style depth value) :: writeEntries style depth rest
end

def render (style : Style) (value : Value) : String := write style 0 value

end Document

end RecordGrammar
