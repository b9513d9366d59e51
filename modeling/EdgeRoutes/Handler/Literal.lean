import EdgeRoutes.Json.Printer

/-! String literals of the minified text.

A string stands between the quotes that need the fewest escapes. Backticks are preferred,
then double quotes; between backticks a line feed may stand as it is and saves a character,
while a dollar sign before a brace has to be escaped. Keys of objects stand between double
or single quotes.
-/

set_option autoImplicit false

namespace EdgeRoutes.Handler.Literal

inductive Mark where
  | backtick
  | double
  | single
  deriving DecidableEq, Repr

def Mark.char : Mark → Char
  | .backtick => '\x60'
  | .double => '"'
  | .single => '\''

def countSubstitutions : List Char → Nat
  | [] => 0
  | char :: rest =>
    (if char = '$' ∧ rest.head? = some '\x7b' then 1 else 0) + countSubstitutions rest

/-- What a mark costs: the escapes it needs, less the line feeds that backticks save. -/
def Mark.cost (chars : List Char) : Mark → Int
  | .backtick =>
    (chars.count '\x60' : Int) + countSubstitutions chars - chars.count '\n'
  | .double => chars.count '"'
  | .single => chars.count '\''

def cheapest (chars : List Char) : Mark :=
  if Mark.cost chars .backtick ≤ Mark.cost chars .double then
    if Mark.cost chars .backtick ≤ Mark.cost chars .single then .backtick else .single
  else if Mark.cost chars .double ≤ Mark.cost chars .single then .double
  else .single

def keyMark (chars : List Char) : Mark :=
  if Mark.cost chars .double ≤ Mark.cost chars .single then .double else .single

/-- Whether a slash and the word `script` follow, in letters of any case; such a text would
end the page that holds the program. -/
def closesScript (rest : List Char) : Bool :=
  (rest.take 7).map Char.toLower == "/script".toList

def escapedChar (mark : Mark) (char : Char) (rest : List Char) : List Char :=
  if char = mark.char then ['\\', char]
  else if char = '\\' then ['\\', '\\']
  else if char = '\x00' then
    if rest.head?.any Char.isDigit then ['\\', 'x', '0', '0'] else ['\\', '0']
  else if char = '\x07' then ['\\', 'x', '0', '7']
  else if char = '\x08' then ['\\', 'b']
  else if char = '\x0b' then ['\\', 'v']
  else if char = '\x0c' then ['\\', 'f']
  else if char = '\n' then if mark = .backtick then ['\n'] else ['\\', 'n']
  else if char = '\r' then ['\\', 'r']
  else if char = '\x1b' then ['\\', 'x', '1', 'B']
  else if char = '$' then
    if mark = .backtick ∧ rest.head? = some '\x7b' then ['\\', '$'] else ['$']
  else if char = '<' then if closesScript rest then ['<', '\\'] else ['<']
  else if char = '\u2028' then ['\\', 'u', '2', '0', '2', '8']
  else if char = '\u2029' then ['\\', 'u', '2', '0', '2', '9']
  else if char = '\u00a0' then ['\\', 'x', 'A', '0']
  else [char]

def body (mark : Mark) : List Char → List Char
  | [] => []
  | char :: rest => escapedChar mark char rest ++ body mark rest

def between (mark : Mark) (chars : List Char) : List Char :=
  mark.char :: body mark chars ++ [mark.char]

def style : Json.Style where
  text value := between (cheapest value.toList) value.toList
  key value := between (keyMark value.toList) value.toList

end EdgeRoutes.Handler.Literal
