import EdgeRoutes.Toml.Number
import EdgeRoutes.Toml.Scanner

/-! TOML texts as lists of expressions.

An expression is one entry with its key, or a header that opens a table or an element of a
list of tables. The entries in braces are put together right here, because such a table is
complete as soon as it is read.
-/

set_option autoImplicit false

namespace EdgeRoutes.Toml

inductive Expression where
  | entry (path : List String) (value : Item)
  | header (path : List String)
  | element (path : List String)

namespace Entries

def replace (key : String) (item : Item) (entries : Entries) : Entries :=
  entries.map fun entry => if entry.1 == key then (key, item) else entry

/-- Defines a key of one or more parts. The tables on the way are made where they are
missing; they may have been made by other keys or be implied by a header, but a table that
is finished by its own header stays as it is, and the last table on the way must have been
made by keys alone. -/
def define (item : Item) : List String → Origin → Bool → Entries → Option Entries
  | [], _, _, _ => none
  | [key], origin, inner, entries =>
    if (origin == .dotted) ≠ inner then none
    else if (entries.lookup key).isSome then none
    else some (entries ++ [(key, item)])
  | key :: path, _, _, entries =>
    match entries.lookup key with
    | none => do
      let below ← define item path .dotted true []
      some (entries ++ [(key, .table .dotted below)])
    | some (.table .header _) => none
    | some (.table origin below) => do
      let below ← define item path origin true below
      some (replace key (.table origin below) entries)
    | some (.tables elements) => do
      let last ← elements.getLast?
      let last ← define item path .header true last
      some (replace key (.tables (elements.dropLast ++ [last])) entries)
    | some _ => none

end Entries

def keyValue? (value : Scan Item) (text : List Char) :
    Option (List String × Item × List Char) := do
  let (path, rest) ← key? text
  match rest with
  | '=' :: rest =>
    let (item, rest) ← value (skipBlanks rest)
    some (path, item, rest)
  | _ => none

/-- The elements of an array up to its bracket. They may be spread over lines, and a comma
may follow the last. -/
def arrayItems? (value : Scan Item) : Nat → Scan (List Item)
  | 0, _ => none
  | bound + 1, text => do
    match ← skipLines (text.length + 1) text with
    | ']' :: rest => some ([], rest)
    | rest =>
      let (item, rest) ← value rest
      match ← skipLines (rest.length + 1) rest with
      | ',' :: rest =>
        let (items, rest) ← arrayItems? value bound rest
        some (item :: items, rest)
      | ']' :: rest => some ([item], rest)
      | _ => none

/-- The entries of a table in braces, after the brace or a comma. They stand on one line,
and no comma may follow the last. -/
def inlineEntries? (value : Scan Item) : Nat → Entries → Scan Entries
  | 0, _, _ => none
  | bound + 1, entries, text => do
    let (path, item, rest) ← keyValue? value text
    let entries ← Entries.define item path .header false entries
    match skipBlanks rest with
    | ',' :: rest => inlineEntries? value bound entries rest
    | '\x7d' :: rest => some (entries, rest)
    | _ => none

/-- A value, where `inside` reads the values within brackets if one may be opened. -/
def valueWith? (inside : Option (Scan Item)) (text : List Char) : Option (Item × List Char) :=
  match text with
  | [] => none
  | '"' :: _ | '\'' :: _ => (string? text).map fun found => (.string found.1, found.2)
  | 't' :: 'r' :: 'u' :: 'e' :: rest => some (.boolean true, rest)
  | 'f' :: 'a' :: 'l' :: 's' :: 'e' :: rest => some (.boolean false, rest)
  | '[' :: rest => do
    let (items, rest) ← arrayItems? (← inside) (rest.length + 1) rest
    some (.array items, rest)
  | '\x7b' :: rest => do
    let value ← inside
    match skipBlanks rest with
    | '\x7d' :: rest => some (.inline [], rest)
    | rest =>
      let (entries, rest) ← inlineEntries? value (rest.length + 1) [] rest
      some (.inline entries, rest)
  | _ => number? text

def value? : Nat → Scan Item
  | 0 => valueWith? none
  | depth + 1 => valueWith? (some (value? depth))

/-- One expression with the line end that belongs to it; an empty line has none. -/
def expression? (text : List Char) : Option (Option Expression × List Char) :=
  match skipBlanks text with
  | '#' :: rest => do some (none, ← endOfLine? (skipComment rest))
  | '\n' :: rest => some (none, rest)
  | '[' :: '[' :: rest => do
    let (path, rest) ← key? rest
    match rest with
    | ']' :: ']' :: rest => some (some (.element path), ← restOfLine? rest)
    | _ => none
  | '[' :: rest => do
    let (path, rest) ← key? rest
    match rest with
    | ']' :: rest => some (some (.header path), ← restOfLine? rest)
    | _ => none
  | rest => do
    let (path, item, rest) ← keyValue? (value? depthLimit) rest
    some (some (.entry path item), ← restOfLine? rest)

def expressions? : Nat → List Char → Option (List Expression)
  | 0, _ => none
  | bound + 1, text =>
    if (skipBlanks text).isEmpty then some []
    else do
      let (found, rest) ← expression? text
      let others ← expressions? bound rest
      some (found.toList ++ others)

def Expression.ofText? (source : String) : Option (List Expression) := do
  let text ← lineFeeds? source.toList
  let text := if text.head? = some '\ufeff' then text.drop 1 else text
  expressions? (text.length + 1) text

end EdgeRoutes.Toml
