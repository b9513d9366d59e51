/-! The shortest decimal that reads back as a given floating-point number.

A finite number is `m · 2 ^ q`, and the reals that round to it form an interval around it,
ends included exactly when `m` is even. For one digit, two digits and so on, the two
neighbours of the number on the grid of that many digits are tried in exact arithmetic;
the first grid with a point in the interval wins, and of two points the nearer.
-/

set_option autoImplicit false

namespace EdgeRoutes.Decimal

structure Scaled where
  significand : Nat
  exponent : Int
  deriving DecidableEq, Repr

/-- A positive number with the ends of its rounding interval, over one denominator. -/
structure Rounding where
  lowest : Nat
  value : Nat
  highest : Nat
  denominator : Nat
  closed : Bool

namespace Rounding

/-- The interval of `m · 2 ^ q`. Below a power of two the numbers are twice as dense. -/
def ofBinary (m : Nat) (q : Int) (powerOfTwo : Bool) : Rounding :=
  let factor := Nat.pow 2 (q - 2).toNat
  { lowest := (4 * m - if powerOfTwo then 1 else 2) * factor
    value := 4 * m * factor
    highest := (4 * m + 2) * factor
    denominator := Nat.pow 2 (2 - q).toNat
    closed := m % 2 == 0 }

/-- The power of ten of the leading digit; four hundred places reach below every number. -/
def leadingPower (rounding : Rounding) : Int :=
  (Nat.toDigits 10 (rounding.value * Nat.pow 10 400 / rounding.denominator)).length - 401

def scales (rounding : Rounding) (point bound : Nat) (power : Int) : Nat × Nat :=
  (point * Nat.pow 10 power.toNat * rounding.denominator, bound * Nat.pow 10 (-power).toNat)

def holds (rounding : Rounding) (point : Nat) (power : Int) : Bool :=
  let (left, low) := rounding.scales point rounding.lowest power
  let (_, high) := rounding.scales point rounding.highest power
  if rounding.closed then low ≤ left && left ≤ high else low < left && left < high

def nearer (rounding : Rounding) (below : Nat) (power : Int) : Nat :=
  let (left, exact) := rounding.scales below rounding.value power
  let (right, _) := rounding.scales (below + 1) rounding.value power
  if exact - left < right - exact then below
  else if right - exact < exact - left then below + 1
  else if below % 2 = 0 then below else below + 1

def onGrid? (rounding : Rounding) (digits : Nat) : Option Scaled :=
  let power := rounding.leadingPower - digits + 1
  let below := rounding.value * Nat.pow 10 (-power).toNat /
    (rounding.denominator * Nat.pow 10 power.toNat)
  match rounding.holds below power, rounding.holds (below + 1) power with
  | true, true => some ⟨rounding.nearer below power, power⟩
  | true, false => some ⟨below, power⟩
  | false, true => some ⟨below + 1, power⟩
  | false, false => none

end Rounding

def Scaled.trim : Nat → Scaled → Scaled
  | 0, number => number
  | bound + 1, number =>
    if number.significand % 10 = 0 then trim bound ⟨number.significand / 10, number.exponent + 1⟩
    else number

/-- Seventeen digits always suffice for a number of 53 bits. -/
def shortest (rounding : Rounding) : Scaled :=
  let found := (List.range 17).findSome? fun digits => rounding.onGrid? (digits + 1)
  Scaled.trim 20 (found.getD ⟨0, 0⟩)

def ofFloat (value : Float) : Scaled :=
  let bits := value.toBits.toNat
  let fraction : Nat := bits % Nat.pow 2 52
  let exponent : Nat := bits / Nat.pow 2 52 % 2048
  if exponent = 0 then shortest (.ofBinary fraction (-1074) false)
  else
    shortest (.ofBinary (fraction + Nat.pow 2 52) ((exponent : Int) - 1075)
      (fraction = 0 && 1 < exponent))

end EdgeRoutes.Decimal
