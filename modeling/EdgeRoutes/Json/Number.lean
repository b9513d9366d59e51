import EdgeRoutes.Json.Fault

/-! Reading numbers.

A number without fraction and exponent is whole as long as it fits the signed or unsigned
range of 64 bits; `-0` and everything else is a floating-point number. Digits beyond 64
bits only count towards the exponent, and the significand is then scaled by one power of
ten, so the last bit of a long number need not be the nearest one.
-/

set_option autoImplicit false

namespace EdgeRoutes.Json.Scan

def largestSignificand : Nat := Nat.pow 2 64 - 1

def largestExponent : Nat := Nat.pow 2 31 - 1

/-- Takes digits in as long as the number stays within the limit, and returns the others. -/
def accumulate (limit : Nat) : Nat → List Char → Nat × List Char
  | total, [] => (total, [])
  | total, digit :: digits =>
    let next := 10 * total + (digit.toNat - '0'.toNat)
    if limit < next then (total, digit :: digits) else accumulate limit next digits

/-- Multiplies or divides by a power of ten; a number too large to be represented is none.
Three steps of `10 ^ 308` bring every significand to zero. -/
def scaled? : Nat → Float → Int → Option Float
  | 0, _, _ => some 0.0
  | steps + 1, size, exponent =>
    if exponent.natAbs ≤ 308 then
      let power := Float.ofScientific 1 false exponent.natAbs
      if exponent < 0 then some (size / power)
      else
        let product := size * power
        if product.isInf then none else some product
    else if size == 0.0 then some size
    else if 0 ≤ exponent then none
    else scaled? steps (size / 1e308) (exponent + 308)

def float (positive : Bool) (significand : Nat) (exponent : Int) (rest : List Char) :
    Except Fault (Number × List Char) :=
  match scaled? 4 significand.toUInt64.toFloat exponent with
  | none => .error (.before .numberOutOfRange rest)
  | some size => .ok (.float (if positive then size else -size), rest)

def exponentDigits (positive : Bool) (significand : Nat) (shift : Int) (rises : Bool)
    (text : List Char) : Except Fault (Number × List Char) :=
  match text with
  | [] => .error (.before .endInValue [])
  | first :: _ =>
    if first.isDigit then
      let (digits, rest) := text.span Char.isDigit
      match accumulate largestExponent 0 digits with
      | (power, []) =>
        float positive significand (if rises then shift + power else shift - power) rest
      | (_, _ :: unread) =>
        if significand ≠ 0 && rises then .error (.before .numberOutOfRange (unread ++ rest))
        else .ok (.float (if positive then 0.0 else -0.0), rest)
    else .error (.onNext .invalidNumber text)

def exponentPart (positive : Bool) (significand : Nat) (shift : Int) (text : List Char) :
    Except Fault (Number × List Char) :=
  match text with
  | '+' :: rest => exponentDigits positive significand shift true rest
  | '-' :: rest => exponentDigits positive significand shift false rest
  | _ => exponentDigits positive significand shift true text

def fractionPart (positive : Bool) (significand : Nat) (shift : Int) (text : List Char) :
    Except Fault (Number × List Char) :=
  let (digits, rest) := text.span Char.isDigit
  if digits.isEmpty then
    .error (.onNext (if text.isEmpty then .endInValue else .invalidNumber) text)
  else
    let (significand, dropped) := accumulate largestSignificand significand digits
    let shift := shift - (digits.length - dropped.length : Nat)
    match rest with
    | 'e' :: rest | 'E' :: rest => exponentPart positive significand shift rest
    | _ => float positive significand shift rest

def whole (positive : Bool) (significand : Nat) : Number :=
  if positive then .integer significand
  else if 0 < significand && significand ≤ Nat.pow 2 63 then .integer (-significand)
  else .float (-significand.toUInt64.toFloat)

def afterDigits (positive : Bool) (digits rest : List Char) : Except Fault (Number × List Char) :=
  let (significand, dropped) := accumulate largestSignificand 0 digits
  match rest with
  | '.' :: rest => fractionPart positive significand dropped.length rest
  | 'e' :: rest | 'E' :: rest => exponentPart positive significand dropped.length rest
  | _ =>
    if dropped.isEmpty then .ok (whole positive significand, rest)
    else float positive significand dropped.length rest

/-- Reads a number, after its sign. -/
def number (positive : Bool) (text : List Char) : Except Fault (Number × List Char) :=
  match text with
  | [] => .error (.before .endInValue [])
  | '0' :: rest =>
    if rest.head?.any Char.isDigit then .error (.onNext .invalidNumber rest)
    else afterDigits positive ['0'] rest
  | first :: _ =>
    if first.isDigit then
      let (digits, rest) := text.span Char.isDigit
      afterDigits positive digits rest
    else .error (.onNext .invalidNumber text)

end EdgeRoutes.Json.Scan
