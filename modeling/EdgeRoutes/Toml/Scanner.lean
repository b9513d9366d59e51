import EdgeRoutes.Toml.Item

/-! The smallest parts of a TOML text: blanks, comments, line ends, keys and strings. -/

set_option autoImplicit false

namespace EdgeRoutes.Toml

/-- What is read off the start of a text, with the text behind it. -/
abbrev Scan (Value : Type) := List Char → Option (Value × List Char)

def isBlank (char : Char) : Bool := char == ' ' || char == '\t'

/-- Characters that may stand in a comment or a string; of the control characters only
the tab. -/
def isPlain (char : Char) : Bool := char == '\t' || (32 ≤ char.toNat && char.toNat ≠ 127)

def skipBlanks (text : List Char) : List Char := text.dropWhile isBlank

def skipComment (text : List Char) : List Char := text.dropWhile isPlain

/-- The same text with plain line feeds. A carriage return may only stand before one. -/
def lineFeeds? : List Char → Option (List Char)
  | [] => some []
  | char :: rest =>
    if char = '\r' then
      if rest.head? = some '\n' then lineFeeds? rest else none
    else (lineFeeds? rest).map (char :: ·)

def newline? : List Char → Option (List Char)
  | '\n' :: rest => some rest
  | _ => none

def endOfLine? (text : List Char) : Option (List Char) :=
  if text.isEmpty then some [] else newline? text

def restOfLine? (text : List Char) : Option (List Char) :=
  match skipBlanks text with
  | '#' :: rest => endOfLine? (skipComment rest)
  | rest => endOfLine? rest

/-- Passes over blanks, line ends and comments. A comment needs its line end. The bound is
never reached when it exceeds the length of the text. -/
def skipLines : Nat → List Char → Option (List Char)
  | 0, _ => none
  | bound + 1, text =>
    match skipBlanks text with
    | '#' :: rest => do skipLines bound (← newline? (skipComment rest))
    | '\n' :: rest => skipLines bound rest
    | rest => some rest

def hexDigit? (char : Char) : Option Nat :=
  if char.isDigit then some (char.toNat - '0'.toNat)
  else if 'a' ≤ char && char ≤ 'f' then some (char.toNat - 'a'.toNat + 10)
  else if 'A' ≤ char && char ≤ 'F' then some (char.toNat - 'A'.toNat + 10)
  else none

def codePoint? (digits : Nat) (text : List Char) : Option Char := do
  let values ← (text.take digits).mapM hexDigit?
  let number := values.foldl (fun number digit => 16 * number + digit) 0
  if values.length = digits ∧ number.isValidChar then some (Char.ofNat number) else none

def escape? : List Char → Option (Char × Nat)
  | 'b' :: _ => some ('\x08', 1)
  | 't' :: _ => some ('\t', 1)
  | 'n' :: _ => some ('\n', 1)
  | 'f' :: _ => some ('\x0c', 1)
  | 'r' :: _ => some ('\r', 1)
  | '"' :: _ => some ('"', 1)
  | '\\' :: _ => some ('\\', 1)
  | 'u' :: rest => (codePoint? 4 rest).map fun char => (char, 5)
  | 'U' :: rest => (codePoint? 8 rest).map fun char => (char, 9)
  | _ => none

/-- A string on one line, after its opening quote. The count says how many characters an
escape that was just read still covers. -/
def basicBody : Nat → Scan (List Char)
  | _, [] => none
  | covered + 1, _ :: rest => basicBody covered rest
  | 0, char :: rest =>
    if char = '"' then some ([], rest)
    else if char = '\\' then do
      let (escaped, taken) ← escape? rest
      let (chars, rest) ← basicBody taken rest
      some (escaped :: chars, rest)
    else if isPlain char then do
      let (chars, rest) ← basicBody 0 rest
      some (char :: chars, rest)
    else none

def literalBody (text : List Char) : Option (List Char × List Char) :=
  let (chars, rest) := text.span fun char => char != '\'' && isPlain char
  match rest with
  | '\'' :: rest => some (chars, rest)
  | _ => none

/-- Up to five quotes that end a string of several lines; the first two of five belong to
the string. -/
def closing? (quote : Char) (text : List Char) : Option (List Char × List Char) :=
  let quotes := min 5 (text.takeWhile (· == quote)).length
  if 3 ≤ quotes then some (List.replicate (quotes - 3) quote, text.drop quotes) else none

/-- How many characters a backslash at the end of a line covers, with all blanks and line
ends up to the next character. -/
def continuation? (text : List Char) : Option Nat := do
  let rest ← newline? (skipBlanks text)
  let behind := rest.dropWhile fun char => isBlank char || char == '\n'
  some (text.length - behind.length)

/-- A string of several lines, after its opening quotes. With `escapes` a backslash starts an
escape or joins lines. -/
def linesBody (quote : Char) (escapes : Bool) : Nat → Scan (List Char)
  | _, [] => none
  | covered + 1, _ :: rest => linesBody quote escapes covered rest
  | 0, char :: rest =>
    if char = quote then
      match closing? quote (char :: rest) with
      | some ending => some ending
      | none => do
        let (chars, rest) ← linesBody quote escapes 0 rest
        some (char :: chars, rest)
    else if escapes && char == '\\' then
      match continuation? rest with
      | some taken => linesBody quote escapes taken rest
      | none => do
        let (escaped, taken) ← escape? rest
        let (chars, rest) ← linesBody quote escapes taken rest
        some (escaped :: chars, rest)
    else if char = '\n' || isPlain char then do
      let (chars, rest) ← linesBody quote escapes 0 rest
      some (char :: chars, rest)
    else none

def dropFirstNewline (text : List Char) : List Char := (newline? text).getD text

def string? (text : List Char) : Option (String × List Char) := do
  let (chars, rest) ← match text with
    | '"' :: '"' :: '"' :: rest => linesBody '"' true 0 (dropFirstNewline rest)
    | '\'' :: '\'' :: '\'' :: rest => linesBody '\'' false 0 (dropFirstNewline rest)
    | '"' :: rest => basicBody 0 rest
    | '\'' :: rest => literalBody rest
    | _ => none
  some (String.ofList chars, rest)

def isBare (char : Char) : Bool := char.isAlphanum || char == '-' || char == '_'

def simpleKey? (text : List Char) : Option (String × List Char) := do
  let (chars, rest) ← match text with
    | '"' :: rest => basicBody 0 rest
    | '\'' :: rest => literalBody rest
    | _ =>
      let (chars, rest) := text.span isBare
      if chars.isEmpty then none else some (chars, rest)
  some (String.ofList chars, rest)

def keyPath? : Nat → Scan (List String)
  | 0, _ => none
  | bound + 1, text => do
    let (key, rest) ← simpleKey? (skipBlanks text)
    match skipBlanks rest with
    | '.' :: rest => do
      let (path, rest) ← keyPath? bound rest
      some (key :: path, rest)
    | rest => some ([key], rest)

/-- The greatest number of parts in a key, and of brackets around a value. -/
def depthLimit : Nat := 79

def key? : Scan (List String) := keyPath? depthLimit

end EdgeRoutes.Toml
