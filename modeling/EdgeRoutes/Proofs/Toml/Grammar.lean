import EdgeRoutes.Proofs.Json.Source
import EdgeRoutes.Toml.Expression

/-! How the lines of a TOML text may be written.

Each relation is one between a text and its rest, and says what the part before the rest
stands for. Blanks, remarks, escapes, quotes, underscores and the base of a number are choices of
the writer. No reader has a part in this.
-/

set_option autoImplicit false

namespace EdgeRoutes.Toml.Grammar

open Json (HexDigit)

inductive Gap : List Char → List Char → Prop where
  | none {rest : List Char} : Gap rest rest
  | blank {char : Char} {text rest : List Char} (blank : char = ' ' ∨ char = '\t')
      (more : Gap text rest) : Gap (char :: text) rest

inductive Words : List Char → List Char → Prop where
  | none {rest : List Char} : Words rest rest
  | char {char : Char} {text rest : List Char} (plain : isPlain char = true)
      (more : Words text rest) : Words (char :: text) rest

inductive LineEnd : List Char → List Char → Prop where
  | feed {rest : List Char} : LineEnd ('\n' :: rest) rest
  | last : LineEnd [] []

/-- What may stand on a line behind all that counts. -/
inductive Trailing : List Char → List Char → Prop where
  | blanks {text ending rest : List Char} (gap : Gap text ending) (ends : LineEnd ending rest) :
      Trailing text rest
  | remark {text words ending rest : List Char} (gap : Gap text ('#' :: words))
      (remark : Words words ending) (ends : LineEnd ending rest) : Trailing text rest

/-- What may stand between the elements of an array, over any number of lines. -/
inductive Space : List Char → List Char → Prop where
  | gap {text rest : List Char} (gap : Gap text rest) : Space text rest
  | feed {text more rest : List Char} (gap : Gap text ('\n' :: more)) (others : Space more rest) :
      Space text rest
  | remark {text words more rest : List Char} (gap : Gap text ('#' :: words))
      (remark : Words words ('\n' :: more)) (others : Space more rest) : Space text rest

def shortEscapes : List (Char × Char) := [
  ('b', '\x08'), ('t', '\t'), ('n', '\n'), ('f', '\x0c'), ('r', '\r'), ('"', '"'), ('\\', '\\')]

def number (base : Nat) (digits : List HexDigit) : Nat :=
  digits.foldl (fun number digit => base * number + digit.value) 0

/-- What stands behind a backslash for one character. -/
inductive Escape : Char → List Char → List Char → Prop where
  | short {letter char : Char} {rest : List Char} (known : (letter, char) ∈ shortEscapes) :
      Escape char (letter :: rest) rest
  | numeric {letter char : Char} {digits : List HexDigit} {rest : List Char}
      (form : (letter, digits.length) ∈ [('u', 4), ('U', 8)])
      (code : number 16 digits = char.toNat) :
      Escape char (letter :: (digits.map HexDigit.char ++ rest)) rest

/-- The characters of a string behind its opening quote, with the closing one. -/
inductive Basic : List Char → List Char → List Char → Prop where
  | close {rest : List Char} : Basic ('"' :: rest) [] rest
  | plain {char : Char} {text chars rest : List Char} (plain : isPlain char = true)
      (noQuote : char ≠ '"') (noBackslash : char ≠ '\\') (more : Basic text chars rest) :
      Basic (char :: text) (char :: chars) rest
  | escaped {char : Char} {text behind chars rest : List Char} (escape : Escape char text behind)
      (more : Basic behind chars rest) : Basic ('\\' :: text) (char :: chars) rest

inductive Literal : List Char → List Char → List Char → Prop where
  | close {rest : List Char} : Literal ('\'' :: rest) [] rest
  | plain {char : Char} {text chars rest : List Char} (plain : isPlain char = true)
      (noQuote : char ≠ '\'') (more : Literal text chars rest) :
      Literal (char :: text) (char :: chars) rest

/-- A string of several lines behind its opening quotes. One or two quotes in a row stand for
themselves, also right before the closing ones. With `escapes` a backslash begins an escape or
joins lines. -/
inductive Multiline (quote : Char) (escapes : Bool) : List Char → List Char → List Char → Prop where
  | close {count : Nat} {rest : List Char} (few : count ≤ 2) :
      Multiline quote escapes (List.replicate (3 + count) quote ++ rest)
        (List.replicate count quote) rest
  | quote {text chars rest : List Char} (few : ¬ [quote, quote] <+: text)
      (more : Multiline quote escapes text chars rest) :
      Multiline quote escapes (quote :: text) (quote :: chars) rest
  | plain {char : Char} {text chars rest : List Char} (plain : char = '\n' ∨ isPlain char = true)
      (noQuote : char ≠ quote) (noEscape : escapes = true → char ≠ '\\')
      (more : Multiline quote escapes text chars rest) :
      Multiline quote escapes (char :: text) (char :: chars) rest
  | escaped {char : Char} {text behind chars rest : List Char} (on : escapes = true)
      (escape : Escape char text behind) (more : Multiline quote escapes behind chars rest) :
      Multiline quote escapes ('\\' :: text) (char :: chars) rest
  | joined {text front behind chars rest : List Char} (on : escapes = true)
      (gap : Gap text ('\n' :: (front ++ behind)))
      (empty : ∀ char ∈ front, char ∈ [' ', '\t', '\n'])
      (stops : ∀ char, behind.head? = some char → char ∉ [' ', '\t', '\n'])
      (more : Multiline quote escapes behind chars rest) :
      Multiline quote escapes ('\\' :: text) chars rest

/-- The line end that may stand between the opening quotes and the string. -/
inductive Opened : List Char → List Char → Prop where
  | feed {body : List Char} : Opened ('\n' :: body) body
  | same {body : List Char} (other : body.head? ≠ some '\n') : Opened body body

inductive Quoted : List Char → List Char → List Char → Prop where
  | basic {text chars rest : List Char} (basic : Basic text chars rest) :
      Quoted ('"' :: text) chars rest
  | literal {text chars rest : List Char} (literal : Literal text chars rest) :
      Quoted ('\'' :: text) chars rest
  | basicLines {text body chars rest : List Char} (opened : Opened text body)
      (lines : Multiline '"' true body chars rest) : Quoted ('"' :: '"' :: '"' :: text) chars rest
  | literalLines {text body chars rest : List Char} (opened : Opened text body)
      (lines : Multiline '\'' false body chars rest) :
      Quoted ('\'' :: '\'' :: '\'' :: text) chars rest

inductive Key : String → List Char → List Char → Prop where
  | bare {chars rest : List Char} (nonempty : chars ≠ [])
      (bare : ∀ char ∈ chars, isBare char = true) : Key (String.ofList chars) (chars ++ rest) rest
  | basic {text chars rest : List Char} (basic : Basic text chars rest) :
      Key (String.ofList chars) ('"' :: text) rest
  | literal {text chars rest : List Char} (literal : Literal text chars rest) :
      Key (String.ofList chars) ('\'' :: text) rest

inductive Path : List String → List Char → List Char → Prop where
  | last {name : String} {text key behind rest : List Char} (margin : Gap text key)
      (key : Key name key behind) (gap : Gap behind rest) : Path [name] text rest
  | next {name : String} {path : List String} {text key behind more rest : List Char}
      (margin : Gap text key) (key : Key name key behind) (gap : Gap behind ('.' :: more))
      (others : Path path more rest) : Path (name :: path) text rest

inductive Digits (base : Nat) : List Char → List HexDigit → List Char → Prop where
  | last {digit : HexDigit} {rest : List Char} (small : digit.value < base) :
      Digits base (digit.char :: rest) [digit] rest
  | next {digit : HexDigit} {digits : List HexDigit} {text rest : List Char}
      (small : digit.value < base) (more : Digits base text digits rest) :
      Digits base (digit.char :: text) (digit :: digits) rest
  | underscore {digit : HexDigit} {digits : List HexDigit} {text rest : List Char}
      (small : digit.value < base) (more : Digits base text digits rest) :
      Digits base (digit.char :: '_' :: text) (digit :: digits) rest

/-- Only zero begins with a zero. -/
def Canonical (digits : List HexDigit) : Prop :=
  ∀ digit, digits.head? = some digit → (digit.value : Nat) = 0 → digits.length = 1

/-- The sign of a number: whether it has a minus. -/
inductive Sign : Bool → List Char → List Char → Prop where
  | none {rest : List Char} : Sign false rest rest
  | plus {rest : List Char} : Sign false ('+' :: rest) rest
  | minus {rest : List Char} : Sign true ('-' :: rest) rest

def signed (negative : Bool) (digits : List HexDigit) : Int :=
  if negative then -(number 10 digits : Int) else number 10 digits

/-- A whole number. With a base it has no sign, and its digits may begin with a zero. -/
inductive Integer : Int → List Char → List Char → Prop where
  | decimal {negative : Bool} {digits : List HexDigit} {text unsigned rest : List Char}
      (sign : Sign negative text unsigned) (written : Digits 10 unsigned digits rest)
      (canonical : Canonical digits) : Integer (signed negative digits) text rest
  | based {letter : Char} {base : Nat} {digits : List HexDigit} {text rest : List Char}
      (known : (letter, base) ∈ [('x', 16), ('o', 8), ('b', 2)])
      (written : Digits base text digits rest) :
      Integer (number base digits) ('0' :: letter :: text) rest

inductive Exponent : Int → List Char → List Char → Prop where
  | power {letter : Char} {negative : Bool} {digits : List HexDigit}
      {text unsigned rest : List Char} (known : letter ∈ ['e', 'E'])
      (sign : Sign negative text unsigned) (written : Digits 10 unsigned digits rest) :
      Exponent (signed negative digits) (letter :: text) rest

inductive Tail : List HexDigit → Int → List Char → List Char → Prop where
  | fraction {digits : List HexDigit} {text rest : List Char}
      (written : Digits 10 text digits rest) : Tail digits 0 ('.' :: text) rest
  | exponent {power : Int} {text rest : List Char} (exponent : Exponent power text rest) :
      Tail [] power text rest
  | both {digits : List HexDigit} {power : Int} {text behind rest : List Char}
      (written : Digits 10 text digits behind) (exponent : Exponent power behind rest) :
      Tail digits power ('.' :: text) rest

/-- A floating-point number, as far as its size is finite or it has a minus. -/
inductive Floating : Item → List Char → List Char → Prop where
  | decimal {negative : Bool} {whole fraction : List HexDigit} {power : Int} {item : Item}
      {text unsigned point rest : List Char} (sign : Sign negative text unsigned)
      (written : Digits 10 unsigned whole point) (canonical : Canonical whole)
      (tail : Tail fraction power point rest)
      (value : float? negative (whole.map HexDigit.char) (fraction.map HexDigit.char) power =
        some item) : Floating item text rest
  | infinite {negative : Bool} {text rest : List Char}
      (sign : Sign negative text ('i' :: 'n' :: 'f' :: rest)) :
      Floating (.float (if negative then -(1.0 / 0.0) else 1.0 / 0.0)) text rest
  | undefined {negative : Bool} {text rest : List Char}
      (sign : Sign negative text ('n' :: 'a' :: 'n' :: rest)) :
      Floating (.float (0.0 / 0.0)) text rest

inductive Field (count least greatest : Nat) : Nat → List Char → List Char → Prop where
  | digits {digits : List HexDigit} {rest : List Char} (length : digits.length = count)
      (small : ∀ digit ∈ digits, digit.value < 10) (enough : least ≤ number 10 digits)
      (limited : number 10 digits ≤ greatest) :
      Field count least greatest (number 10 digits) (digits.map HexDigit.char ++ rest) rest

inductive Date : List Char → List Char → Prop where
  | day {year month day : Nat} {text behindYear behindMonth rest : List Char}
      (years : Field 4 0 9999 year text ('-' :: behindYear))
      (months : Field 2 1 12 month behindYear ('-' :: behindMonth))
      (days : Field 2 1 (daysInMonth year month) day behindMonth rest) : Date text rest

inductive Parts : List Char → List Char → Prop where
  | none {rest : List Char} : Parts rest rest
  | digits {digits rest : List Char} (nonempty : digits ≠ [])
      (decimal : ∀ digit ∈ digits, digit.isDigit = true) : Parts ('.' :: (digits ++ rest)) rest

/-- A time of day. There may be a leap second. -/
inductive Time : List Char → List Char → Prop where
  | second {hour minute second : Nat} {text behindHour behindMinute behind rest : List Char}
      (hours : Field 2 0 23 hour text (':' :: behindHour))
      (minutes : Field 2 0 59 minute behindHour (':' :: behindMinute))
      (seconds : Field 2 0 60 second behindMinute behind) (parts : Parts behind rest) :
      Time text rest

inductive Offset : List Char → List Char → Prop where
  | none {letter : Char} {rest : List Char} (known : letter ∈ ['Z', 'z']) :
      Offset (letter :: rest) rest
  | hours {sign : Char} {hour minute : Nat} {text behindHour rest : List Char}
      (known : sign ∈ ['+', '-']) (hours : Field 2 0 23 hour text (':' :: behindHour))
      (minutes : Field 2 0 59 minute behindHour rest) : Offset (sign :: text) rest

inductive Moment : List Char → List Char → Prop where
  | date {text rest : List Char} (date : Date text rest) : Moment text rest
  | time {text rest : List Char} (time : Time text rest) : Moment text rest
  | both {delimiter : Char} {text behind rest : List Char}
      (date : Date text (delimiter :: behind)) (known : delimiter ∈ ['T', 't', ' '])
      (time : Time behind rest) : Moment text rest
  | zoned {delimiter : Char} {text behind zone rest : List Char}
      (date : Date text (delimiter :: behind)) (known : delimiter ∈ ['T', 't', ' '])
      (time : Time behind zone) (offset : Offset zone rest) : Moment text rest

abbrev Form := Item → List Char → List Char → Prop

inductive Numeral : Form where
  | integer {value : Int} {text rest : List Char} (written : Integer value text rest)
      (least : -integerBound ≤ value) (greatest : value < integerBound) :
      Numeral (.integer value) text rest
  | floating {item : Item} {text rest : List Char} (written : Floating item text rest) :
      Numeral item text rest
  | moment {text rest : List Char} (written : Moment text rest) : Numeral .datetime text rest

/-- The elements of an array with the closing bracket. A comma may follow the last. -/
inductive Items (form : Form) : List Item → List Char → List Char → Prop where
  | close {text rest : List Char} (space : Space text (']' :: rest)) : Items form [] text rest
  | last {item : Item} {text spelled behind rest : List Char} (space : Space text spelled)
      (written : form item spelled behind) (ending : Space behind (']' :: rest)) :
      Items form [item] text rest
  | next {item : Item} {items : List Item} {text spelled behind more rest : List Char}
      (space : Space text spelled) (written : form item spelled behind)
      (comma : Space behind (',' :: more)) (others : Items form items more rest) :
      Items form (item :: items) text rest

inductive Pair (form : Form) : List String → Item → List Char → List Char → Prop where
  | equals {path : List String} {item : Item} {text value spelled rest : List Char}
      (key : Path path text ('=' :: value)) (short : path.length ≤ depthLimit)
      (indent : Gap value spelled) (written : form item spelled rest) :
      Pair form path item text rest

/-- The entries of a table in braces with the closing one. No comma follows the last, and each
key must be one that the entries before it leave free. -/
inductive Members (form : Form) : Entries → Entries → List Char → List Char → Prop where
  | last {path : List String} {item : Item} {before after : Entries}
      {text behind rest : List Char} (pair : Pair form path item text behind)
      (free : Entries.define item path .header false before = some after)
      (ending : Gap behind ('\x7d' :: rest)) : Members form before after text rest
  | next {path : List String} {item : Item} {before between after : Entries}
      {text behind more rest : List Char} (pair : Pair form path item text behind)
      (free : Entries.define item path .header false before = some between)
      (comma : Gap behind (',' :: more)) (others : Members form between after more rest) :
      Members form before after text rest

/-- A value, where `inside` are the ways to write the values within brackets if one may be
opened. -/
inductive Within (inside : Option Form) : Form where
  | string {text chars rest : List Char} (quoted : Quoted text chars rest) :
      Within inside (.string (String.ofList chars)) text rest
  | yes {rest : List Char} :
      Within inside (.boolean true) ('t' :: 'r' :: 'u' :: 'e' :: rest) rest
  | no {rest : List Char} :
      Within inside (.boolean false) ('f' :: 'a' :: 'l' :: 's' :: 'e' :: rest) rest
  | numeral {item : Item} {text rest : List Char} (written : Numeral item text rest) :
      Within inside item text rest
  | array {form : Form} {items : List Item} {text rest : List Char} (opened : inside = some form)
      (elements : Items form items text rest) : Within inside (.array items) ('[' :: text) rest
  | empty {form : Form} {text rest : List Char} (opened : inside = some form)
      (gap : Gap text ('\x7d' :: rest)) : Within inside (.inline []) ('\x7b' :: text) rest
  | table {form : Form} {entries : Entries} {text rest : List Char} (opened : inside = some form)
      (members : Members form [] entries text rest) :
      Within inside (.inline entries) ('\x7b' :: text) rest

/-- A value that opens at most the given number of brackets. -/
def Value : Nat → Form
  | 0 => Within none
  | depth + 1 => Within (some (Value depth))

/-- A line with its end. An empty one stands for nothing. -/
inductive Line : Option Expression → List Char → List Char → Prop where
  | empty {text rest : List Char} (trailing : Trailing text rest) : Line none text rest
  | entry {path : List String} {item : Item} {text behind rest : List Char}
      (pair : Pair (Value depthLimit) path item text behind) (trailing : Trailing behind rest) :
      Line (some (.entry path item)) text rest
  | header {path : List String} {text inside behind rest : List Char}
      (margin : Gap text ('[' :: inside)) (key : Path path inside (']' :: behind))
      (short : path.length ≤ depthLimit) (trailing : Trailing behind rest) :
      Line (some (.header path)) text rest
  | element {path : List String} {text inside behind rest : List Char}
      (margin : Gap text ('[' :: '[' :: inside)) (key : Path path inside (']' :: ']' :: behind))
      (short : path.length ≤ depthLimit) (trailing : Trailing behind rest) :
      Line (some (.element path)) text rest

inductive Lines : List Expression → List Char → Prop where
  | done {text : List Char} (gap : Gap text []) : Lines [] text
  | line {found : Option Expression} {expressions : List Expression} {text rest : List Char}
      (line : Line found text rest) (more : Lines expressions rest) :
      Lines (found.toList ++ expressions) text

/-- The same text with line feeds as the only ends of lines. A carriage return may stand before
each of them. -/
inductive LineFeeds : List Char → List Char → Prop where
  | nil : LineFeeds [] []
  | pair {source text : List Char} (more : LineFeeds source text) :
      LineFeeds ('\r' :: '\n' :: source) ('\n' :: text)
  | char {char : Char} {source text : List Char} (other : char ≠ '\r')
      (more : LineFeeds source text) : LineFeeds (char :: source) (char :: text)

inductive Marked : List Char → List Char → Prop where
  | plain {text : List Char} (other : text.head? ≠ some '\ufeff') : Marked text text
  | mark {text : List Char} : Marked ('\ufeff' :: text) text

/-- A source in which the expressions are written in this order. -/
inductive Written (expressions : List Expression) (source : String) : Prop where
  | lines {text body : List Char} (feeds : LineFeeds source.toList text) (marked : Marked text body)
      (lines : Lines expressions body) : Written expressions source

end EdgeRoutes.Toml.Grammar
