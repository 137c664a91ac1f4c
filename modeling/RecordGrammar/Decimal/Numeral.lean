import RecordGrammar.Decimal.Shortest
import RecordGrammar.Text.Class

namespace RecordGrammar.Decimal

open RecordGrammar.Text

/-! Reading numerals.

Digits of every script count, and the scripts may be mixed. A numeral may have white space around
it and single underscores between its digits. An integer has a limit on the number of its digits;
a decimal has none, and one that is too large for a floating-point number is infinite.
-/

/-- The most digits that an integer may be written with. -/
def digitLimit : Nat := 4300

/-- White space that may surround a numeral. The four information separators may not, although
they are white space elsewhere. -/
def isPadding (c : Char) : Bool :=
  isBlank c && !(0x1C ≤ c.toNat && c.toNat ≤ 0x1F)

/-- Takes off an optional sign and says whether it is a minus. -/
def splitSign : List Char → Bool × List Char
  | '-' :: rest => (true, rest)
  | '+' :: rest => (false, rest)
  | text => (false, text)

def ofDigits (digits : List Nat) : Nat :=
  digits.foldl (fun number digit => 10 * number + digit) 0

/-- The digits of a run in which single underscores may stand between digits. A run has at least
one digit. -/
def groupedDigits? : List Char → Option (List Nat)
  | [] => none
  | [c] => (digitValue? c).map fun digit => [digit]
  | c :: '_' :: rest => do
      let digit ← digitValue? c
      return digit :: (← groupedDigits? rest)
  | c :: rest => do
      let digit ← digitValue? c
      return digit :: (← groupedDigits? rest)

/-- Why a text is not read as an integer. -/
inductive IntegerError where
  | malformed
  | tooLong (digits : Nat)
deriving DecidableEq, Repr

/-- Reads an integer. A run of digits that is too long is reported even if the text after it is
not a numeral's. -/
def readInteger (text : List Char) : Except IntegerError Int :=
  let (negative, body) := splitSign (text.dropWhile isPadding)
  let inRun (c : Char) : Bool := c == '_' || isDecimalDigit c
  match groupedDigits? (body.takeWhile inRun) with
  | none => .error .malformed
  | some digits =>
      if digitLimit < digits.length then .error (.tooLong digits.length)
      else if (body.dropWhile inRun).all isPadding then
        .ok (if negative then -(ofDigits digits : Int) else ofDigits digits)
      else .error .malformed

/-- The parts of a decimal numeral: `±whole.fraction × 10 ^ exponent`, digit by digit. -/
structure Numeral where
  negative : Bool
  whole : List Nat
  fraction : List Nat
  exponent : Int
deriving DecidableEq, Repr

/-- Takes the decimal digits at the front of a text. -/
def spanDigits (text : List Char) : List Nat × List Char :=
  ((text.takeWhile isDecimalDigit).filterMap digitValue?, text.dropWhile isDecimalDigit)

/-- Reads the exponent that ends a numeral; no text at all is the exponent zero. -/
def readExponent? : List Char → Option Int
  | [] => some 0
  | mark :: rest =>
      if mark == 'e' || mark == 'E' then
        let (negative, body) := splitSign rest
        match spanDigits body with
        | (digit :: digits, []) =>
            let size : Int := ofDigits (digit :: digits)
            some (if negative then -size else size)
        | _ => none
      else none

/-- Reads a numeral: an optional sign, digits with a point before, after or among them, and an
optional exponent. Nothing may stand around it or between its digits. -/
def Numeral.read? (text : List Char) : Option Numeral :=
  let (negative, body) := splitSign text
  let (whole, rest) := spanDigits body
  let (fraction, tail) := match rest with
    | '.' :: after => spanDigits after
    | _ => ([], rest)
  if whole.isEmpty && fraction.isEmpty then none
  else (readExponent? tail).map fun exponent => { negative, whole, fraction, exponent }

/-- The positive infinite number. -/
def infinity : Float := Float.ofBits 0x7FF0000000000000

/-- The number that is none. -/
def notANumber : Float := Float.ofBits 0x7FF8000000000000

/-- The floating-point number nearest to `coefficient * 10 ^ exponent`. Numbers far outside the
range are settled by their magnitude alone. -/
def nearestFloat (coefficient : Nat) (exponent : Int) : Float :=
  let top := digitCount coefficient + exponent
  if coefficient == 0 || top < -400 then Float.ofBits 0
  else if 400 < top then infinity
  else Float.ofScientific coefficient (exponent < 0) exponent.natAbs

/-- The floating-point number nearest to a numeral. A negative zero keeps its sign. -/
def Numeral.toFloat (numeral : Numeral) : Float :=
  let size := nearestFloat (ofDigits (numeral.whole ++ numeral.fraction))
    (numeral.exponent - numeral.fraction.length)
  if numeral.negative then -size else size

/-- Drops the underscores of a text, each of which has to stand between two digits. -/
def dropUnderscores? (afterDigit : Bool) : List Char → Option (List Char)
  | [] => some []
  | '_' :: rest =>
      match rest with
      | next :: _ =>
          if afterDigit && isDecimalDigit next then dropUnderscores? false rest else none
      | [] => none
  | c :: rest => (dropUnderscores? (isDecimalDigit c) rest).map (c :: ·)

/-- Reads a number by name: infinity, in short or in full, or the number that is none. Case does
not matter. -/
def readNamedNumber? (text : List Char) : Option Float :=
  let (negative, body) := splitSign text
  let name := String.ofList (body.map Char.toLower)
  if name == "inf" || name == "infinity" then some (if negative then -infinity else infinity)
  else if name == "nan" then some notANumber
  else none

def readFloat? (text : List Char) : Option Float :=
  let front := text.dropWhile isPadding
  let bare := (front.reverse.dropWhile isPadding).reverse
  match readNamedNumber? bare with
  | some number => some number
  | none => do
      let digits ← dropUnderscores? false bare
      return (← Numeral.read? digits).toFloat

end RecordGrammar.Decimal
