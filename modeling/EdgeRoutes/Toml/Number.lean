import EdgeRoutes.Toml.Item

/-! TOML numbers and dates.

The longest form that fits is read off the start of the text. What follows a value is
checked by the caller, so a number with a part that does not fit is refused there.
-/

set_option autoImplicit false

namespace EdgeRoutes.Toml

/-- Digits with single underscores between them; `inside` says whether a digit came before. -/
def digitGroups (isDigit : Char → Bool) (inside : Bool) : List Char → List Char × List Char
  | [] => ([], [])
  | char :: rest =>
    if isDigit char then
      let (digits, rest) := digitGroups isDigit true rest
      (char :: digits, rest)
    else if inside && char == '_' && rest.head?.any isDigit then digitGroups isDigit true rest
    else ([], char :: rest)

def digitValue (char : Char) : Nat :=
  if char.isDigit then char.toNat - '0'.toNat
  else if char.isUpper then char.toNat - 'A'.toNat + 10
  else char.toNat - 'a'.toNat + 10

def valueOf (base : Nat) (digits : List Char) : Nat :=
  digits.foldl (fun number digit => base * number + digitValue digit) 0

def integerBound : Nat := Nat.pow 2 63

def integer? (value : Int) : Option Item :=
  if -integerBound ≤ value ∧ value < integerBound then some (.integer value) else none

def based? (base : Nat) (isDigit : Char → Bool) (text : List Char) : Option (Item × List Char) := do
  let (digits, rest) := digitGroups isDigit false text
  if digits.isEmpty then none else some (← integer? (valueOf base digits), rest)

def isHex (char : Char) : Bool :=
  char.isDigit || ('a' ≤ char && char ≤ 'f') || ('A' ≤ char && char ≤ 'F')

def isOctal (char : Char) : Bool := '0' ≤ char && char ≤ '7'

def isBinary (char : Char) : Bool := char == '0' || char == '1'

/-- The digits before the point: a zero, or digits that do not start with one. -/
def leadingDigits (text : List Char) : List Char × List Char :=
  match text with
  | '0' :: rest => (['0'], rest)
  | _ => digitGroups Char.isDigit false text

def fractionDigits? (text : List Char) : Option (List Char × List Char) :=
  match text with
  | '.' :: rest =>
    let (digits, rest) := digitGroups Char.isDigit false rest
    if digits.isEmpty then none else some (digits, rest)
  | _ => none

def power? (negative : Bool) (text : List Char) : Option (Int × List Char) :=
  let (digits, rest) := digitGroups Char.isDigit false text
  let size : Int := valueOf 10 digits
  if digits.isEmpty then none else some (if negative then -size else size, rest)

def exponent? (text : List Char) : Option (Int × List Char) :=
  match text with
  | 'e' :: '-' :: rest | 'E' :: '-' :: rest => power? true rest
  | 'e' :: '+' :: rest | 'E' :: '+' :: rest => power? false rest
  | 'e' :: rest | 'E' :: rest => power? false rest
  | _ => none

/-- The nearest floating-point number. Numbers of over four hundred places are beyond the
largest, and those that start after four hundred zeros are below the smallest. -/
def nearest (digits : List Char) (exponent : Int) : Float :=
  let number := valueOf 10 digits
  let places := (Nat.toDigits 10 number).length + exponent
  if number = 0 ∨ places < -400 then 0.0
  else if 400 < places then 1.0 / 0.0
  else Float.ofScientific number (exponent < 0) exponent.natAbs

def float? (negative : Bool) (whole fraction : List Char) (exponent : Int) : Option Item :=
  let size := nearest (whole ++ fraction) (exponent - fraction.length)
  if size.isInf && !negative then none else some (.float (if negative then -size else size))

def decimal? (negative : Bool) (text : List Char) : Option (Item × List Char) := do
  let (whole, rest) := leadingDigits text
  if whole.isEmpty then none
  else
    match fractionDigits? rest with
    | some (fraction, rest) =>
      let (exponent, rest) := (exponent? rest).getD (0, rest)
      some (← float? negative whole fraction exponent, rest)
    | none =>
      match exponent? rest with
      | some (exponent, rest) => some (← float? negative whole [] exponent, rest)
      | none =>
        let value : Int := valueOf 10 whole
        some (← integer? (if negative then -value else value), rest)

def special? (negative : Bool) (text : List Char) : Option (Item × List Char) :=
  match text with
  | 'i' :: 'n' :: 'f' :: rest =>
    some (.float (if negative then -(1.0 / 0.0) else 1.0 / 0.0), rest)
  | 'n' :: 'a' :: 'n' :: rest => some (.float (0.0 / 0.0), rest)
  | _ => none

def digitsWithin? (count least greatest : Nat) (text : List Char) : Option (Nat × List Char) :=
  let digits := text.take count
  let number := valueOf 10 digits
  if digits.length = count ∧ digits.all Char.isDigit ∧ least ≤ number ∧ number ≤ greatest then
    some (number, text.drop count)
  else none

def expect? (char : Char) : List Char → Option (List Char)
  | found :: rest => if found = char then some rest else none
  | [] => none

def daysInMonth (year month : Nat) : Nat :=
  if month = 2 then
    if year % 4 = 0 ∧ (year % 100 ≠ 0 ∨ year % 400 = 0) then 29 else 28
  else if month = 4 ∨ month = 6 ∨ month = 9 ∨ month = 11 then 30
  else 31

def date? (text : List Char) : Option (List Char) := do
  let (year, rest) ← digitsWithin? 4 0 9999 text
  let (month, rest) ← digitsWithin? 2 1 12 (← expect? '-' rest)
  let (_, rest) ← digitsWithin? 2 1 (daysInMonth year month) (← expect? '-' rest)
  some rest

/-- Hours, minutes and seconds, with an optional fraction; a leap second is allowed. -/
def time? (text : List Char) : Option (List Char) := do
  let (_, rest) ← digitsWithin? 2 0 23 text
  let (_, rest) ← digitsWithin? 2 0 59 (← expect? ':' rest)
  let (_, rest) ← digitsWithin? 2 0 60 (← expect? ':' rest)
  match rest with
  | '.' :: behind =>
    if behind.head?.any Char.isDigit then some (behind.dropWhile Char.isDigit) else some rest
  | _ => some rest

def hours? (text : List Char) : Option (List Char) := do
  let (_, rest) ← digitsWithin? 2 0 23 text
  let (_, rest) ← digitsWithin? 2 0 59 (← expect? ':' rest)
  some rest

def offset? (text : List Char) : Option (List Char) :=
  match text with
  | 'Z' :: rest | 'z' :: rest => some rest
  | '+' :: rest | '-' :: rest => hours? rest
  | _ => none

/-- A date with or without a time, or a time alone. -/
def datetime? (text : List Char) : Option (List Char) :=
  match date? text with
  | none => time? text
  | some rest =>
    match rest with
    | [] => some rest
    | delimiter :: behind =>
      if delimiter = 'T' ∨ delimiter = 't' ∨ delimiter = ' ' then
        match time? behind with
        | none => some rest
        | some behind => some ((offset? behind).getD behind)
      else some rest

def number? (text : List Char) : Option (Item × List Char) :=
  match datetime? text with
  | some rest => some (.datetime, rest)
  | none =>
    match text with
    | '0' :: 'x' :: rest => based? 16 isHex rest
    | '0' :: 'o' :: rest => based? 8 isOctal rest
    | '0' :: 'b' :: rest => based? 2 isBinary rest
    | '+' :: rest => (decimal? false rest) <|> special? false rest
    | '-' :: rest => (decimal? true rest) <|> special? true rest
    | _ => (decimal? false text) <|> special? false text

end EdgeRoutes.Toml
