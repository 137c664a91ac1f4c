import RecordGrammar.Decimal.Shortest

namespace RecordGrammar.Decimal

/-! The layout of decimal numbers: where positional notation ends, how an exponent is written, and
what stands for the numbers that have no digits.
-/

/-- The decisions of one way of writing floating-point numbers. Exponents from `lowest` up to
`highest` are written positionally; an exponent has a sign and at least `exponentWidth` digits. -/
structure Layout where
  lowest : Int
  highest : Int
  exponentWidth : Nat
  notANumber : String
  infinite : String
deriving Repr

/-- How numbers are displayed: positional from `10 ^ -4` up to below `10 ^ 16`. -/
def Layout.display : Layout where
  lowest := -4
  highest := 15
  exponentWidth := 2
  notANumber := "nan"
  infinite := "inf"

/-- How numbers are written in a document: as they are displayed, with the infinite ones in full. -/
def Layout.document : Layout :=
  { Layout.display with notANumber := "NaN", infinite := "Infinity" }

/-- An exponent with its sign, filled up with zeros. -/
def Layout.writeExponent (layout : Layout) (exponent : Int) : List Char :=
  let digits := Nat.toDigits 10 exponent.natAbs
  'e' :: (if exponent < 0 then '-' else '+') ::
    (List.replicate (layout.exponentWidth - digits.length) '0' ++ digits)

/-- A positive decimal. A number without a fraction gets one zero after the point when it is
written positionally. -/
def Layout.writeScaled (layout : Layout) (d : Scaled) : List Char :=
  let digits := Nat.toDigits 10 d.coefficient
  let exponent : Int := d.exponent + digits.length - 1
  if layout.lowest ≤ exponent && exponent ≤ layout.highest then
    if exponent < 0 then
      '0' :: '.' :: (List.replicate (-exponent - 1).toNat '0' ++ digits)
    else
      let whole := exponent.toNat + 1
      let fraction := digits.drop whole
      digits.take whole ++ List.replicate (whole - digits.length) '0' ++
        '.' :: (if fraction.isEmpty then ['0'] else fraction)
  else
    match digits with
    | [] => []
    | first :: rest =>
        first :: ((if rest.isEmpty then [] else '.' :: rest) ++ layout.writeExponent exponent)

def Layout.write (layout : Layout) (x : Float) : String :=
  let signed (negative : Bool) (text : String) : String := if negative then "-" ++ text else text
  match FloatParts.ofFloat x with
  | .notANumber => layout.notANumber
  | .infinite negative => signed negative layout.infinite
  | .zero negative => signed negative "0.0"
  | .finite negative b => signed negative (String.ofList (layout.writeScaled (shortest b)))

end RecordGrammar.Decimal
