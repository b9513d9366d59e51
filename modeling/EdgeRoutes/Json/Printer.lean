import EdgeRoutes.Json.Fault

/-! Writing JSON values as text.

The same shape is written with different strings: as JSON, or as literals of another
notation that has objects and arrays. A style says how strings and keys look.
-/

set_option autoImplicit false

namespace EdgeRoutes.Json

/-- The escaped form of a character between double quotes. Control characters have an
escape, and everything else above the space stands for itself. -/
def escapedChar (char : Char) : List Char :=
  if char = '"' then ['\\', '"']
  else if char = '\\' then ['\\', '\\']
  else if char = '\x08' then ['\\', 'b']
  else if char = '\x0c' then ['\\', 'f']
  else if char = '\n' then ['\\', 'n']
  else if char = '\r' then ['\\', 'r']
  else if char = '\t' then ['\\', 't']
  else if char.toNat < 32 then
    ['\\', 'u', '0', '0', Nat.digitChar (char.toNat / 16), Nat.digitChar (char.toNat % 16)]
  else [char]

def quote (text : String) : List Char :=
  '"' :: text.toList.flatMap escapedChar ++ ['"']

structure Style where
  text : String → List Char
  key : String → List Char

def Style.json : Style := { text := quote, key := quote }

def integerChars (value : Int) : List Char :=
  if value < 0 then '-' :: Nat.toDigits 10 value.natAbs else Nat.toDigits 10 value.toNat

def Number.chars : Number → List Char
  | .integer value => integerChars value
  | .float value => (floatLayout.text value).toList

mutual

def chars (style : Style) : Json → List Char
  | .null => ['n', 'u', 'l', 'l']
  | .boolean true => ['t', 'r', 'u', 'e']
  | .boolean false => ['f', 'a', 'l', 's', 'e']
  | .number value => value.chars
  | .string value => style.text value
  | .array [] => ['[', ']']
  | .array (item :: items) => '[' :: item.chars style ++ itemsChars style items
  | .object [] => ['\x7b', '\x7d']
  | .object ((key, value) :: members) =>
    '\x7b' :: style.key key ++ ':' :: value.chars style ++ membersChars style members

def itemsChars (style : Style) : List Json → List Char
  | [] => [']']
  | item :: items => ',' :: item.chars style ++ itemsChars style items

/-- The members after the first, with the closing brace. -/
def membersChars (style : Style) : List (String × Json) → List Char
  | [] => ['\x7d']
  | (key, value) :: members =>
    ',' :: style.key key ++ ':' :: value.chars style ++ membersChars style members

end

def compact (value : Json) : String := String.ofList (value.chars .json)

def newLine (level : Nat) : List Char := '\n' :: List.replicate (2 * level) ' '

mutual

def indentedChars : Nat → Json → List Char
  | level, .array (item :: items) =>
    '[' :: newLine (level + 1) ++ indentedChars (level + 1) item ++ indentedItems level items
  | level, .object ((key, value) :: members) =>
    '\x7b' :: newLine (level + 1) ++ quote key ++ ':' :: ' ' :: indentedChars (level + 1) value ++
      indentedMembers level members
  | _, value => value.chars .json

def indentedItems : Nat → List Json → List Char
  | level, [] => newLine level ++ [']']
  | level, item :: items =>
    ',' :: newLine (level + 1) ++ indentedChars (level + 1) item ++ indentedItems level items

def indentedMembers : Nat → List (String × Json) → List Char
  | level, [] => newLine level ++ ['\x7d']
  | level, (key, value) :: members =>
    ',' :: newLine (level + 1) ++ quote key ++ ':' :: ' ' :: indentedChars (level + 1) value ++
      indentedMembers level members

end

def indented (value : Json) : String := String.ofList (indentedChars 0 value)

end EdgeRoutes.Json
