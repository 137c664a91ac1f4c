namespace RecordGrammar.Decimal

/-! The fewest decimal digits that identify a binary floating-point number.

A finite positive number is `significand * 2 ^ exponent`. The reals that round to it form an
interval around it whose ends are half-way to its neighbours; the ends belong to it when the
significand is even. For one digit, two digits, and so on, the two neighbours of the number on the
grid of decimals with so many digits are tried: the first grid with a point in the interval wins,
and of two points the nearer one does. Seventeen digits always suffice.
-/

/-- A decimal number `coefficient * 10 ^ exponent`. -/
structure Scaled where
  coefficient : Nat
  exponent : Int
deriving DecidableEq, Repr

/-- A positive binary number `significand * 2 ^ exponent`. `isLeast` marks a significand with the
smallest value of its length, where the neighbour below is only half as far away. -/
structure Binary where
  significand : Nat
  exponent : Int
  isLeast : Bool
deriving DecidableEq, Repr

/-- The number of decimal digits of a natural number; zero has one. -/
def digitCount (n : Nat) : Nat :=
  (Nat.toDigits 10 n).length

/-- The least `k` with `numerator / denominator < 10 ^ k`. -/
def magnitude (numerator denominator : Nat) : Int :=
  if denominator ≤ numerator then digitCount (numerator / denominator)
  else 1 - (digitCount ((denominator - 1) / numerator) : Int)

/-- Drops the zeros at the end of a coefficient. Each of the `fuel` steps drops one. -/
def Scaled.normalize : Nat → Scaled → Scaled
  | 0, d => d
  | fuel + 1, d =>
      if d.coefficient != 0 && d.coefficient % 10 == 0 then
        Scaled.normalize fuel ⟨d.coefficient / 10, d.exponent + 1⟩
      else d

/-- The grid of decimals with unit `10 ^ unit`, seen from a binary number. In quarters of the
binary unit, the number is `4 * significand`; `scale` turns quarters into the common measure and
`point` is one unit of the grid in the same measure. -/
structure Grid where
  unit : Int
  scale : Nat
  point : Nat

/-- The grid with unit `10 ^ unit` for numbers in quarters of `2 ^ exponent`. -/
def Grid.of (exponent unit : Int) : Grid where
  unit := unit
  scale := Nat.pow 2 (exponent - 2).toNat * Nat.pow 10 (-unit).toNat
  point := Nat.pow 2 (2 - exponent).toNat * Nat.pow 10 unit.toNat

/-- The point of the grid that reads back as the number and is nearest to it, if there is one. An
exact tie goes to the even coefficient. -/
def Grid.nearest? (grid : Grid) (b : Binary) : Option Scaled :=
  let value := 4 * b.significand * grid.scale
  let low := (4 * b.significand - (if b.isLeast then 1 else 2)) * grid.scale
  let high := (4 * b.significand + 2) * grid.scale
  let readsBack (candidate : Nat) : Bool :=
    let place := candidate * grid.point
    if b.significand % 2 == 0 then low ≤ place && place ≤ high else low < place && place < high
  let below := value / grid.point
  let above := below + 1
  let toBelow := value - below * grid.point
  let toAbove := above * grid.point - value
  match readsBack below && below != 0, readsBack above with
  | true, true =>
      if toBelow < toAbove || (toBelow == toAbove && below % 2 == 0) then some ⟨below, grid.unit⟩
      else some ⟨above, grid.unit⟩
  | true, false => some ⟨below, grid.unit⟩
  | false, true => some ⟨above, grid.unit⟩
  | false, false => none

/-- Tries grids of more and more digits, starting from `digits`. -/
def shortestFrom (b : Binary) (width : Int) : Nat → Nat → Option Scaled
  | 0, _ => none
  | fuel + 1, digits =>
      match (Grid.of b.exponent (width - digits)).nearest? b with
      | some found => some found
      | none => shortestFrom b width fuel (digits + 1)

/-- The shortest decimal that reads back as the given number, without zeros at its end. -/
def shortest (b : Binary) : Scaled :=
  let numerator := b.significand * Nat.pow 2 b.exponent.toNat
  let denominator := Nat.pow 2 (-b.exponent).toNat
  let width := magnitude numerator denominator
  match shortestFrom b width 17 1 with
  | some found => Scaled.normalize 20 found
  | none => ⟨b.significand, b.exponent⟩

/-- What a floating-point number is: not a number, an infinity, or a finite number with its sign. -/
inductive FloatParts where
  | notANumber
  | infinite (negative : Bool)
  | zero (negative : Bool)
  | finite (negative : Bool) (magnitude : Binary)
deriving DecidableEq, Repr

/-- Takes a floating-point number apart into sign, exponent and significand. -/
def FloatParts.ofFloat (x : Float) : FloatParts :=
  let bits := x.toBits.toNat
  let negative := bits / Nat.pow 2 63 == 1
  let exponent : Nat := bits / Nat.pow 2 52 % Nat.pow 2 11
  let fraction : Nat := bits % Nat.pow 2 52
  if exponent == 2047 then
    if fraction == 0 then .infinite negative else .notANumber
  else if exponent == 0 then
    if fraction == 0 then .zero negative else .finite negative ⟨fraction, -1074, false⟩
  else
    .finite negative
      ⟨Nat.pow 2 52 + fraction, (exponent : Int) - 1075, fraction == 0 && exponent != 1⟩

end RecordGrammar.Decimal
