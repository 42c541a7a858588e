/-! The shortest decimal of a double: of all decimals that are closer to it than
to any other double, one with the fewest digits, and of those the nearest. -/

namespace Interchange

/-- The number `digits · 10 ^ exponent`. -/
structure Decimal where
  digits : Nat
  exponent : Int
deriving DecidableEq, Repr

/-- The number `significand · 2 ^ exponent`. A power of two has the next smaller
double at half the distance of the next greater one. -/
structure Binary where
  significand : Nat
  exponent : Int
  closerBelow : Bool
deriving DecidableEq, Repr

namespace Binary

/-- The magnitude that the bits of a finite double stand for. -/
def ofBits (bits : Nat) : Binary :=
  let fraction : Nat := bits % Nat.pow 2 52
  let scale : Nat := bits / Nat.pow 2 52 % Nat.pow 2 11
  if scale = 0 then ⟨fraction, -1074, false⟩
  else ⟨fraction + Nat.pow 2 52, (scale : Int) - 1075, fraction = 0 && scale > 1⟩

/-- Boundaries are halfway to the neighbours, so they are counted in quarters. -/
def quarterExponent (binary : Binary) : Int :=
  binary.exponent - 2

def lower (binary : Binary) : Nat :=
  4 * binary.significand - (if binary.closerBelow then 1 else 2)

def upper (binary : Binary) : Nat :=
  4 * binary.significand + 2

/-- Compares a decimal with a number of quarters. -/
def compareQuarters (binary : Binary) (decimal : Decimal) (quarters : Nat) : Ordering :=
  let two := binary.quarterExponent
  let ten := decimal.exponent
  compare (decimal.digits * Nat.pow 10 ten.toNat * Nat.pow 2 (-two).toNat)
    (quarters * Nat.pow 2 two.toNat * Nat.pow 10 (-ten).toNat)

/-- A boundary itself belongs to the neighbour with the even significand. -/
def admits (binary : Binary) (decimal : Decimal) : Bool :=
  let even := binary.significand % 2 == 0
  let above := binary.compareQuarters decimal binary.lower
  let below := binary.compareQuarters decimal binary.upper
  (above == .gt || (even && above == .eq)) && (below == .lt || (even && below == .eq))

/-- The greatest multiple of a power of ten that is not above the number. -/
def floorAt (binary : Binary) (exponent : Int) : Nat :=
  let two := binary.exponent
  (binary.significand * Nat.pow 2 two.toNat * Nat.pow 10 (-exponent).toNat) /
    (Nat.pow 10 exponent.toNat * Nat.pow 2 (-two).toNat)

/-- The least power of ten above the number. -/
def magnitude (binary : Binary) : Int :=
  let powers := (List.range 640).map fun (step : Nat) => (step : Int) - 324
  (powers.find? fun power => binary.floorAt power == 0).getD 0

/-- The nearest admitted multiple of a power of ten; of two at the same distance the even one. -/
def nearestAt (binary : Binary) (exponent : Int) : Option Decimal :=
  let floor := binary.floorAt exponent
  let low : Decimal := ⟨floor, exponent⟩
  let high : Decimal := ⟨floor + 1, exponent⟩
  let middle : Decimal := ⟨2 * floor + 1, exponent⟩
  match binary.admits low, binary.admits high with
  | false, false => none
  | true, false => some low
  | false, true => some high
  | true, true =>
    match binary.compareQuarters middle (8 * binary.significand) with
    | .gt => some low
    | .lt => some high
    | .eq => some (if floor % 2 == 0 then low else high)

end Binary

/-- Moves trailing zeros into the exponent. -/
def Decimal.trim (decimal : Decimal) : Decimal :=
  if decimal.digits ≠ 0 ∧ decimal.digits % 10 = 0 then
    Decimal.trim ⟨decimal.digits / 10, decimal.exponent + 1⟩
  else decimal
termination_by decimal.digits
decreasing_by omega

/-- Seventeen digits are enough to tell any two doubles apart. -/
def Binary.shortest (binary : Binary) : Decimal :=
  let magnitude := binary.magnitude
  let found := (List.range 17).findSome? fun (places : Nat) => binary.nearestAt (magnitude - places - 1)
  (found.getD ⟨0, 0⟩).trim

end Interchange
