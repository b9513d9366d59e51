import EdgeRoutes.Json.Number

/-! The smallest parts of a JSON text: blanks, words, and strings with their escapes. -/

set_option autoImplicit false

namespace EdgeRoutes.Json.Scan

def isBlank (char : Char) : Bool :=
  char == ' ' || char == '\n' || char == '\t' || char == '\r'

def skipBlanks : List Char → List Char
  | [] => []
  | char :: rest => if isBlank char then skipBlanks rest else char :: rest

def word : List Char → List Char → Except Fault (List Char)
  | [], text => .ok text
  | _ :: _, [] => .error (.before .endInValue [])
  | letter :: letters, char :: rest =>
    if char = letter then word letters rest else .error (.onNext .expectedWord (char :: rest))

def hexDigit? (char : Char) : Option Nat :=
  if '0' ≤ char && char ≤ '9' then some (char.toNat - '0'.toNat)
  else if 'a' ≤ char && char ≤ 'f' then some (char.toNat - 'a'.toNat + 10)
  else if 'A' ≤ char && char ≤ 'F' then some (char.toNat - 'A'.toNat + 10)
  else none

/-- The number written by four hexadecimal digits at the start of the text. The fault lies
after four bytes, whatever characters they belong to. -/
def fourHexDigits (text : List Char) : Except Fault Nat :=
  if byteCount (text.take 4) < 4 then .error (.before .endInString [])
  else
    match (text.take 4).mapM hexDigit? with
    | some [first, second, third, fourth] =>
      .ok (((first * 16 + second) * 16 + third) * 16 + fourth)
    | _ => .error ⟨.invalidEscape, text, 4⟩

def isLeadingSurrogate (unit : Nat) : Bool := 0xD800 ≤ unit && unit ≤ 0xDBFF

def isTrailingSurrogate (unit : Nat) : Bool := 0xDC00 ≤ unit && unit ≤ 0xDFFF

def surrogatePair (leading trailing : Nat) : Char :=
  Char.ofNat (0x10000 + (leading - 0xD800) * 0x400 + (trailing - 0xDC00))

/-- The character of a numeric escape and how many characters the escape takes, read from
the four digits on. Two escapes that form a pair of surrogates give one character. -/
def numericEscape (text : List Char) : Except Fault (Char × Nat) := do
  let unit ← fourHexDigits text
  let rest := text.drop 4
  if isTrailingSurrogate unit then
    .error (.before .loneSurrogate rest)
  else if isLeadingSurrogate unit then
    match rest with
    | [] => .error (.before .endInString [])
    | ['\\'] => .error (.before .endInString [])
    | '\\' :: 'u' :: more =>
      let second ← fourHexDigits more
      if isTrailingSurrogate second then .ok (surrogatePair unit second, 10)
      else .error (.before .loneSurrogate (more.drop 4))
    | '\\' :: more => .error (.onNext .unpairedSurrogate more)
    | _ => .error (.onNext .unpairedSurrogate rest)
  else .ok (Char.ofNat unit, 4)

def shortEscape? : Char → Option Char
  | '"' => some '"'
  | '\\' => some '\\'
  | '/' => some '/'
  | 'b' => some '\x08'
  | 'f' => some '\x0c'
  | 'n' => some '\n'
  | 'r' => some '\r'
  | 't' => some '\t'
  | _ => none

def escape : List Char → Except Fault (Char × Nat)
  | [] => .error (.before .endInString [])
  | 'u' :: rest => do
    let (char, taken) ← numericEscape rest
    .ok (char, taken + 1)
  | letter :: rest =>
    match shortEscape? letter with
    | some char => .ok (char, 1)
    | none => .error (.onNext .invalidEscape (letter :: rest))

/-- Reads a string after its opening quote. The count says how many characters an escape
that was just read still covers. -/
def stringBody : Nat → List Char → Except Fault (List Char × List Char)
  | _, [] => .error (.before .endInString [])
  | covered + 1, _ :: rest => stringBody covered rest
  | 0, char :: rest =>
    if char = '"' then .ok ([], rest)
    else if char = '\\' then do
      let (escaped, taken) ← escape rest
      let (chars, rest) ← stringBody taken rest
      .ok (escaped :: chars, rest)
    else if char.toNat < 32 then .error (.onNext .controlCharacter (char :: rest))
    else do
      let (chars, rest) ← stringBody 0 rest
      .ok (char :: chars, rest)

def string (text : List Char) : Except Fault (String × List Char) := do
  let (chars, rest) ← stringBody 0 text
  .ok (String.ofList chars, rest)

def colon (text : List Char) : Except Fault (List Char) :=
  match skipBlanks text with
  | ':' :: rest => .ok rest
  | [] => .error (.before .endInObject [])
  | rest => .error (.onNext .expectedColon rest)

end EdgeRoutes.Json.Scan
