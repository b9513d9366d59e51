import EdgeRoutes.Decimal.Shortest

/-! How the digits of a number are laid out as text.

A number always shows that it is no whole number of the integer kind: by a fractional part,
if need be `.0`, or by an exponent.
-/

set_option autoImplicit false

namespace EdgeRoutes.Decimal

/-- Which numbers are written without an exponent, by the power of ten of the leading digit. -/
structure Layout where
  positional : Int → Bool

namespace Layout

def always : Layout := { positional := fun _ => true }

/-- Without an exponent from `10 ^ least` up to, but not reaching, `10 ^ (greatest + 1)`. -/
def between (least greatest : Int) : Layout :=
  { positional := fun power => least ≤ power && power ≤ greatest }

def positionalText (digits : List Char) (exponent : Int) : List Char :=
  if 0 ≤ exponent then
    digits ++ List.replicate exponent.toNat '0' ++ ['.', '0']
  else
    let places := (-exponent).toNat
    let padded := List.replicate (places + 1 - digits.length) '0' ++ digits
    padded.take (padded.length - places) ++ '.' :: padded.drop (padded.length - places)

def exponentText (digits : List Char) (power : Int) : List Char :=
  digits.take 1 ++ (if digits.length = 1 then [] else '.' :: digits.drop 1) ++
    'e' :: (if power < 0 then '-' else '+') :: Nat.toDigits 10 power.natAbs

def finiteText (layout : Layout) (value : Float) : List Char :=
  if value == 0.0 then ['0', '.', '0']
  else
    let number := ofFloat value
    let digits := Nat.toDigits 10 number.significand
    let power := number.exponent + digits.length - 1
    if layout.positional power then positionalText digits number.exponent
    else exponentText digits power

def text (layout : Layout) (value : Float) : String :=
  let negative := value.toBits >>> 63 == 1
  if value.isNaN then "NaN"
  else
    let size := if value.isInf then ['i', 'n', 'f'] else layout.finiteText value
    String.ofList (if negative then '-' :: size else size)

end Layout

end EdgeRoutes.Decimal
