import RecordGrammar.Text.Category

namespace RecordGrammar.Text

/-! Classes of characters: white space, decimal digits, word characters, printable characters and
the characters that identifiers are made of.
-/

/-- White space: the ASCII blanks and separators, and the space and line characters of the rest of
Unicode. The zero-width space and the byte-order mark are not among them. -/
def isBlank (c : Char) : Bool :=
  let code := c.toNat
  (0x09 ≤ code && code ≤ 0x0D) || (0x1C ≤ code && code ≤ 0x20) || code == 0x85 || code == 0xA0 ||
    code == 0x1680 || (0x2000 ≤ code && code ≤ 0x200A) || code == 0x2028 || code == 0x2029 ||
    code == 0x202F || code == 0x205F || code == 0x3000

/-- A decimal digit of any script. -/
def isDecimalDigit (c : Char) : Bool :=
  inRuns decimalDigitRuns c.toNat

/-- What a decimal digit of any script stands for: its distance from the zero of its own script. -/
def digitValue? (c : Char) : Option Nat :=
  (runStart? decimalDigitRuns c.toNat).map fun first => (c.toNat - first) % 10

/-- A letter or a number of any script. -/
def isAlphanumeric (c : Char) : Bool :=
  let code := c.toNat
  inRuns letterRuns code || inRuns decimalDigitRuns code || inRuns letterNumberRuns code ||
    inRuns otherNumberRuns code

/-- A character that a word of running text may hold. -/
def isWordCharacter (c : Char) : Bool :=
  c == '_' || isAlphanumeric c

/-- A character that stands for itself when text is displayed. The plain space is the only
separator that does. -/
def isPrintable (c : Char) : Bool :=
  let code := c.toNat
  c == ' ' || isAlphanumeric c || inRuns markRuns code || inRuns connectorRuns code ||
    inRuns graphicRuns code

/-- Letters that normalize into something no identifier may hold. -/
private def notInIdentifiers : List Nat :=
  [0x37A, 0x37B, 0x2E2F, 0x2E30, 0xFC5E, 0xFC64, 0xFDFA, 0xFDFC, 0xFE70, 0xFE71, 0xFE72, 0xFE73,
   0xFE74, 0xFE75, 0xFE76, 0xFE77, 0xFE78, 0xFE79, 0xFE7A, 0xFE7B, 0xFE7C, 0xFE7D, 0xFE7E, 0xFE7F]

/-- Letters that may continue an identifier and not start one. -/
private def notAtIdentifierStart : List Nat :=
  [0xE33, 0xE34, 0xEB3, 0xEB4, 0xFF9E, 0xFFA0]

/-- Characters that are no letters and yet may start an identifier. -/
private def extraIdentifierStarts : List Nat :=
  [0x1885, 0x1887, 0x2118, 0x2119, 0x212E, 0x212F]

/-- Characters that are neither letters, marks nor digits and yet may continue an identifier. -/
private def extraIdentifierParts : List Nat :=
  [0xB7, 0xB8, 0x387, 0x388, 0x1369, 0x1372, 0x19DA, 0x19DB, 0x2118, 0x2119, 0x212E, 0x212F]

/-- A character that an identifier may start with. -/
def startsIdentifier (c : Char) : Bool :=
  let code := c.toNat
  c == '_' || inRuns extraIdentifierStarts code ||
    ((inRuns letterRuns code || inRuns letterNumberRuns code) &&
      !inRuns notInIdentifiers code && !inRuns notAtIdentifierStart code)

/-- A character that an identifier may go on with. -/
def continuesIdentifier (c : Char) : Bool :=
  let code := c.toNat
  inRuns extraIdentifierParts code ||
    ((inRuns letterRuns code || inRuns letterNumberRuns code || inRuns markRuns code ||
      inRuns decimalDigitRuns code || inRuns connectorRuns code) && !inRuns notInIdentifiers code)

/-- Whether a text is an identifier. Reserved words of any language are not excluded. -/
def isIdentifier (text : String) : Bool :=
  match text.toList with
  | [] => false
  | first :: rest => startsIdentifier first && rest.all continuesIdentifier

/-- A letter of the basic alphabet, or the underscore. -/
def startsPlainWord (c : Char) : Bool :=
  c == '_' || ('a' ≤ c && c ≤ 'z') || ('A' ≤ c && c ≤ 'Z')

/-- A digit of the basic alphabet. -/
def isPlainDigit (c : Char) : Bool :=
  '0' ≤ c && c ≤ '9'

/-- A letter or digit of the basic alphabet, or the underscore. -/
def continuesPlainWord (c : Char) : Bool :=
  startsPlainWord c || isPlainDigit c

/-- The value of a hexadecimal digit. -/
def hexValue? (c : Char) : Option Nat :=
  if '0' ≤ c && c ≤ '9' then some (c.toNat - '0'.toNat)
  else if 'a' ≤ c && c ≤ 'f' then some (c.toNat - 'a'.toNat + 10)
  else if 'A' ≤ c && c ≤ 'F' then some (c.toNat - 'A'.toNat + 10)
  else none

/-- The text without the white space at its end. -/
def trimRight (text : List Char) : List Char :=
  (text.reverse.dropWhile isBlank).reverse

end RecordGrammar.Text
