import RecordGrammar.Decimal.Numeral
import RecordGrammar.Token
import RecordGrammar.Value

namespace RecordGrammar

open RecordGrammar.Text

/-! What sort of value a field holds, and how the text of a token becomes such a value.

There is exactly one conversion for each kind. Only `scalar` looks at the kind of the token: the
text of a number, or of a token whose kind is not known, becomes an integer if it is written as one
and a decimal if it is written as one; every other text stays what it is.
-/

/-- The sorts of values that a field may hold. -/
inductive ValueKind where
  | text
  | integer
  | float
  | boolean
  | scalar
  | nested
deriving DecidableEq, Repr, Inhabited

/-- Why a text does not become a value of a kind. -/
inductive CoercionError where
  | notAnInteger (text : Wording)
  | tooManyDigits (digits : Nat)
  | notADecimal (text : Wording)
  | notForText (text : Wording)
deriving DecidableEq, Repr

/-- How much of a text is shown when it is not an integer. -/
def CoercionError.shownWidth : Nat := 200

def CoercionError.message : CoercionError → String
  | .notAnInteger text =>
      "invalid literal for int() with base 10: " ++
        String.ofList ((quoteWording text).toList.take CoercionError.shownWidth)
  | .tooManyDigits digits =>
      s!"Exceeds the limit ({Decimal.digitLimit} digits) for integer string conversion: " ++
        s!"value has {digits} digits; use sys.set_int_max_str_digits() to increase the limit"
  | .notADecimal text => "could not convert string to float: " ++ quoteWording text
  | .notForText text =>
      "Nested fields are filled by sub-objects, not by token text: " ++ quoteWording text

namespace ValueKind

def word : ValueKind → String
  | .text => "text"
  | .integer => "integer"
  | .float => "float"
  | .boolean => "boolean"
  | .scalar => "scalar"
  | .nested => "nested"

def toInteger (text : Wording) : Except CoercionError Value :=
  match text.chars?.map Decimal.readInteger with
  | some (.ok number) => .ok (.int number)
  | some (.error (.tooLong digits)) => .error (.tooManyDigits digits)
  | some (.error .malformed) => .error (.notAnInteger text)
  | none => .error (.notAnInteger text)

def toFloat (text : Wording) : Except CoercionError Value :=
  match text.chars?.bind Decimal.readFloat? with
  | some number => .ok (.float number)
  | none => .error (.notADecimal text)

/-- A text written as an integer: an optional sign and digits, and nothing else. -/
def writtenAsInteger (text : List Char) : Bool :=
  let body := (Decimal.splitSign text).2
  !body.isEmpty && body.all isDecimalDigit

/-- A text written as a decimal: an optional sign, digits with a point among them or beside them,
an optional exponent, and nothing else. -/
def writtenAsDecimal (text : List Char) : Bool :=
  (Decimal.Numeral.read? text).isSome

/-- Reads a text as the number it is written as, or leaves it as it is. -/
def toScalar (text : Wording) (tokenKind : Option TokenKind) : Except CoercionError Value :=
  if tokenKind.any (· != .number) then .ok (.text text)
  else if text.chars?.any writtenAsInteger then toInteger text
  else if text.chars?.any writtenAsDecimal then toFloat text
  else .ok (.text text)

/-- Turns the text of a token into a value of a kind. -/
def coerce (kind : ValueKind) (text : Wording) (tokenKind : Option TokenKind) :
    Except CoercionError Value :=
  match kind with
  | .text => .ok (.text text)
  | .integer => toInteger text
  | .float => toFloat text
  | .boolean => .ok (.bool true)
  | .scalar => toScalar text tokenKind
  | .nested => .error (.notForText text)

end ValueKind

end RecordGrammar
