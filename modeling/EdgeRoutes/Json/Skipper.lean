import EdgeRoutes.Json.Scanner

/-! Passing over a value that nobody asked for.

The value must be well formed, but nothing is made of it: numbers of any size and any
pairing of surrogates will do, and it may be nested to any depth. Where a comma has been
read the next element must follow, so a comma before a closing bracket is reported as the
missing element.
-/

set_option autoImplicit false

namespace EdgeRoutes.Json.Skip

open Scan (skipBlanks word colon fourHexDigits shortEscape?)

def escape : List Char → Except Fault Nat
  | [] => .error (.before .endInString [])
  | 'u' :: rest => do
    let _ ← fourHexDigits rest
    .ok 5
  | letter :: rest =>
    if (shortEscape? letter).isSome then .ok 1
    else .error (.onNext .invalidEscape (letter :: rest))

def string : Nat → List Char → Except Fault (List Char)
  | _, [] => .error (.before .endInString [])
  | covered + 1, _ :: rest => string covered rest
  | 0, char :: rest =>
    if char = '"' then .ok rest
    else if char = '\\' then do string (← escape rest) rest
    else if char.toNat < 32 then .error (.before .controlCharacter (char :: rest))
    else string 0 rest

def exponent (text : List Char) : Except Fault (List Char) :=
  let digits := if text.head? = some '+' ∨ text.head? = some '-' then text.drop 1 else text
  if digits.head?.any Char.isDigit then .ok (digits.dropWhile Char.isDigit)
  else .error (.onNext .invalidNumber digits)

def fraction (text : List Char) : Except Fault (List Char) :=
  if text.head?.any Char.isDigit then
    match text.dropWhile Char.isDigit with
    | 'e' :: rest | 'E' :: rest => exponent rest
    | rest => .ok rest
  else .error (.onNext .invalidNumber text)

def afterDigits (text : List Char) : Except Fault (List Char) :=
  match text with
  | '.' :: rest => fraction rest
  | 'e' :: rest | 'E' :: rest => exponent rest
  | _ => .ok text

def number (text : List Char) : Except Fault (List Char) :=
  match text with
  | '0' :: rest =>
    if rest.head?.any Char.isDigit then .error (.onNext .invalidNumber rest)
    else afterDigits rest
  | _ =>
    if text.head?.any Char.isDigit then afterDigits (text.dropWhile Char.isDigit)
    else .error (.onNext .invalidNumber text)

/-- Passes over the elements of a list, after its bracket or after an element. The bound on
the number of elements is never reached when it exceeds the length of the text. -/
def items (skip : List Char → Except Fault (List Char)) :
    Nat → Bool → List Char → Except Fault (List Char)
  | 0, _, text => .error (.before .endInList text)
  | bound + 1, first, text =>
    match skipBlanks text with
    | [] => .error (.before .endInList [])
    | ']' :: rest => .ok rest
    | char :: rest =>
      if first then do items skip bound false (← skip (char :: rest))
      else if char = ',' then do items skip bound false (← skip rest)
      else .error (.onNext .expectedListEnd (char :: rest))

def key (text : List Char) : Except Fault (List Char) :=
  match skipBlanks text with
  | '"' :: rest => do colon (← string 0 rest)
  | [] => .error (.before .endInObject [])
  | rest => .error (.onNext .keyNotString rest)

def members (skip : List Char → Except Fault (List Char)) :
    Nat → Bool → List Char → Except Fault (List Char)
  | 0, _, text => .error (.before .endInObject text)
  | bound + 1, first, text =>
    match skipBlanks text with
    | [] => .error (.before .endInObject [])
    | '\x7d' :: rest => .ok rest
    | char :: rest =>
      if first then do members skip bound false (← skip (← key (char :: rest)))
      else if char = ',' then do members skip bound false (← skip (← key rest))
      else .error (.onNext .expectedObjectEnd (char :: rest))

/-- Passes over a value of at most the given depth. -/
def nested : Nat → List Char → Except Fault (List Char)
  | 0, text => .error (.before .endInValue text)
  | depth + 1, text =>
    match skipBlanks text with
    | [] => .error (.before .endInValue [])
    | 'n' :: rest => word ['u', 'l', 'l'] rest
    | 't' :: rest => word ['r', 'u', 'e'] rest
    | 'f' :: rest => word ['a', 'l', 's', 'e'] rest
    | '-' :: rest => number rest
    | '"' :: rest => string 0 rest
    | '[' :: rest => items (nested depth) (rest.length + 1) true rest
    | '\x7b' :: rest => members (nested depth) (rest.length + 1) true rest
    | char :: rest =>
      if char.isDigit then number (char :: rest)
      else .error (.onNext .expectedValue (char :: rest))

/-- Passes over any value; no value is nested deeper than its text is long. -/
def value (text : List Char) : Except Fault (List Char) :=
  nested (text.length + 1) text

end EdgeRoutes.Json.Skip
