/-! JSON texts as their grammar builds them.

A source is a JSON text together with the way it is built: every blank, every escape and every
digit that its writer was free to choose is part of it, and whatever breaks the grammar cannot
be built at all. So a statement about all sources is one about all well-formed texts. What the
strings and whole numbers in it stand for is said here as well, without a look at any reader.
-/

set_option autoImplicit false

namespace EdgeRoutes.Json

inductive Blank where
  | space
  | lineFeed
  | tab
  | carriageReturn
  deriving DecidableEq, Repr

def Blank.char : Blank → Char
  | .space => ' '
  | .lineFeed => '\n'
  | .tab => '\t'
  | .carriageReturn => '\r'

abbrev Gap := List Blank

def Gap.chars (gap : Gap) : List Char := gap.map Blank.char

/-- A hexadecimal digit; above nine it is written with a small or a capital letter. -/
structure HexDigit where
  value : Fin 16
  capital : Bool
  deriving DecidableEq, Repr

def HexDigit.char (digit : HexDigit) : Char :=
  if digit.capital then (Nat.digitChar digit.value).toUpper else Nat.digitChar digit.value

structure CodeUnit where
  first : HexDigit
  second : HexDigit
  third : HexDigit
  fourth : HexDigit
  deriving DecidableEq, Repr

namespace CodeUnit

def chars (unit : CodeUnit) : List Char :=
  [unit.first.char, unit.second.char, unit.third.char, unit.fourth.char]

def value (unit : CodeUnit) : Nat :=
  ((unit.first.value * 16 + unit.second.value) * 16 + unit.third.value) * 16 + unit.fourth.value

def Leads (unit : CodeUnit) : Prop := 0xD800 ≤ unit.value ∧ unit.value ≤ 0xDBFF

def Trails (unit : CodeUnit) : Prop := 0xDC00 ≤ unit.value ∧ unit.value ≤ 0xDFFF

instance (unit : CodeUnit) : Decidable unit.Leads := inferInstanceAs (Decidable (_ ∧ _))

instance (unit : CodeUnit) : Decidable unit.Trails := inferInstanceAs (Decidable (_ ∧ _))

def pair (leading trailing : CodeUnit) : Char :=
  Char.ofNat (0x10000 + (leading.value - 0xD800) * 0x400 + (trailing.value - 0xDC00))

end CodeUnit

inductive ShortEscape where
  | quote
  | backslash
  | slash
  | backspace
  | formFeed
  | lineFeed
  | carriageReturn
  | tab
  deriving DecidableEq, Repr

namespace ShortEscape

def letter : ShortEscape → Char
  | .quote => '"'
  | .backslash => '\\'
  | .slash => '/'
  | .backspace => 'b'
  | .formFeed => 'f'
  | .lineFeed => 'n'
  | .carriageReturn => 'r'
  | .tab => 't'

def char : ShortEscape → Char
  | .quote => '"'
  | .backslash => '\\'
  | .slash => '/'
  | .backspace => '\x08'
  | .formFeed => '\x0c'
  | .lineFeed => '\n'
  | .carriageReturn => '\r'
  | .tab => '\t'

end ShortEscape

inductive Part where
  | plain (char : Char) (visible : 32 ≤ char.toNat) (noQuote : char ≠ '"')
      (noBackslash : char ≠ '\\')
  | short (escape : ShortEscape)
  | numeric (unit : CodeUnit)
  deriving DecidableEq

namespace Part

def chars : Part → List Char
  | .plain char _ _ _ => [char]
  | .short escape => ['\\', escape.letter]
  | .numeric unit => '\\' :: 'u' :: unit.chars

def tail (parts : List Part) : List Char := parts.flatMap chars ++ ['"']

/-- The characters that the parts stand for. A surrogate belongs to a pair or the parts stand
for nothing. -/
def decoded? : List Part → Option (List Char)
  | [] => some []
  | .plain char _ _ _ :: parts => (decoded? parts).map (char :: ·)
  | .short escape :: parts => (decoded? parts).map (escape.char :: ·)
  | .numeric leading :: .numeric trailing :: parts =>
    if leading.Leads then
      if trailing.Trails then (decoded? parts).map (leading.pair trailing :: ·) else none
    else if leading.Trails then none
    else (decoded? (.numeric trailing :: parts)).map (Char.ofNat leading.value :: ·)
  | .numeric unit :: parts =>
    if unit.Leads ∨ unit.Trails then none
    else (decoded? parts).map (Char.ofNat unit.value :: ·)

/-- The parts are a way to write the text. -/
def Spell (parts : List Part) (text : String) : Prop := decoded? parts = some text.toList

instance (parts : List Part) (text : String) : Decidable (Spell parts text) :=
  inferInstanceAs (Decidable (_ = _))

def verbatim (text : List Char)
    (clear : ∀ char ∈ text, 32 ≤ char.toNat ∧ char ≠ '"' ∧ char ≠ '\\') : List Part :=
  text.pmap (fun char clear => .plain char clear.1 clear.2.1 clear.2.2) clear

end Part

structure Digits where
  chars : List Char
  nonempty : chars ≠ []
  digits : ∀ char ∈ chars, char.isDigit = true

theorem Digits.exists_cons (digits : Digits) :
    ∃ first others, digits.chars = first :: others ∧ first.isDigit = true := by
  obtain ⟨chars, nonempty, all⟩ := digits
  cases chars with
  | nil => exact absurd rfl nonempty
  | cons first others => exact ⟨first, others, rfl, all first List.mem_cons_self⟩

structure Exponent where
  capital : Bool
  sign : Option Bool
  digits : Digits

def Exponent.power (exponent : Exponent) : List Char :=
  (exponent.sign.map fun negative => if negative then '-' else '+').toList ++ exponent.digits.chars

def Exponent.chars (exponent : Exponent) : List Char :=
  (if exponent.capital then 'E' else 'e') :: exponent.power

structure Numeral where
  negative : Bool
  whole : Digits
  canonical : whole.chars.head? = some '0' → whole.chars = ['0']
  fraction : Option Digits
  exponent : Option Exponent

namespace Numeral

def exponentChars (numeral : Numeral) : List Char :=
  (numeral.exponent.map Exponent.chars).getD []

def suffix (numeral : Numeral) : List Char :=
  (numeral.fraction.map fun digits => '.' :: digits.chars).getD [] ++ numeral.exponentChars

def unsigned (numeral : Numeral) : List Char := numeral.whole.chars ++ numeral.suffix

def chars (numeral : Numeral) : List Char :=
  if numeral.negative then '-' :: numeral.unsigned else numeral.unsigned

def magnitude (numeral : Numeral) : Nat := Nat.ofDigitChars 10 numeral.whole.chars 0

section

variable {numeral : Numeral} {others : List Char}

theorem unsigned_append {first : Char} (chars : numeral.whole.chars = first :: others)
    (rest : List Char) :
    numeral.unsigned ++ rest = first :: (others ++ (numeral.suffix ++ rest)) := by
  simp [unsigned, chars]

theorem single_of_zero (chars : numeral.whole.chars = '0' :: others) : others = [] := by
  simpa [chars] using numeral.canonical (by simp [chars])

end

/-- The numeral writes a whole number that has 64 bits, with or without a sign bit. There is no
negative zero among these. -/
structure Spells (numeral : Numeral) (value : Int) : Prop where
  noFraction : numeral.fraction = none
  noExponent : numeral.exponent = none
  signed : value = if numeral.negative then -(numeral.magnitude : Int) else numeral.magnitude
  nonzero : numeral.negative = true → value ≠ 0
  lower : -(Nat.pow 2 63 : Int) ≤ value
  upper : value < (Nat.pow 2 64 : Int)

end Numeral

/-- Something with the blanks around it. -/
structure Padded (Content : Type) where
  before : Gap
  content : Content
  after : Gap

/-- A JSON text from its first to its last visible character. The blanks inside of brackets are
for those that hold nothing else. -/
inductive Source where
  | null
  | boolean (value : Bool)
  | number (numeral : Numeral)
  | string (parts : List Part)
  | array (inside : Gap) (items : List (Padded Source))
  | object (inside : Gap) (members : List (Padded (List Part) × Padded Source))

abbrev Member := Padded (List Part) × Padded Source

namespace Source

mutual

def chars : Source → List Char
  | .null => ['n', 'u', 'l', 'l']
  | .boolean true => ['t', 'r', 'u', 'e']
  | .boolean false => ['f', 'a', 'l', 's', 'e']
  | .number numeral => numeral.chars
  | .string parts => '"' :: Part.tail parts
  | .array inside items => '[' :: (inside.chars ++ itemsChars items)
  | .object inside members => '\x7b' :: (inside.chars ++ membersChars members)

def itemChars : Padded Source → List Char
  | ⟨before, source, after⟩ => before.chars ++ (source.chars ++ after.chars)

def memberChars : Member → List Char
  | (key, item) =>
    key.before.chars ++
      ('"' :: (Part.tail key.content ++ (key.after.chars ++ ':' :: itemChars item)))

def itemsChars : List (Padded Source) → List Char
  | [] => [']']
  | item :: items => itemChars item ++ itemsTail items

def itemsTail : List (Padded Source) → List Char
  | [] => [']']
  | item :: items => ',' :: (itemChars item ++ itemsTail items)

def membersChars : List Member → List Char
  | [] => ['\x7d']
  | member :: members => memberChars member ++ membersTail members

def membersTail : List Member → List Char
  | [] => ['\x7d']
  | member :: members => ',' :: (memberChars member ++ membersTail members)

end

/-- A value begins with such a character. -/
def Opens (char : Char) : Prop :=
  char ∈ ['n', 't', 'f', '-', '"', '[', '\x7b'] ∨ char.isDigit = true

theorem exists_opens (source : Source) :
    ∃ char chars, source.chars = char :: chars ∧ Opens char := by
  cases source with
  | null => exact ⟨'n', _, rfl, by simp [Opens]⟩
  | boolean value => cases value <;> exact ⟨_, _, rfl, by simp [Opens]⟩
  | number numeral =>
    obtain ⟨first, others, chars, digit⟩ := numeral.whole.exists_cons
    simp only [Source.chars, Numeral.chars]
    split
    · exact ⟨'-', _, rfl, by simp [Opens]⟩
    · exact ⟨first, _, by rw [Numeral.unsigned, chars]; rfl, Or.inr digit⟩
  | string parts => exact ⟨'"', _, rfl, by simp [Opens]⟩
  | array inside items => cases items <;> exact ⟨'[', _, rfl, by simp [Opens]⟩
  | object inside members => cases members <;> exact ⟨'\x7b', _, rfl, by simp [Opens]⟩

theorem itemChars_eq (item : Padded Source) :
    itemChars item = item.before.chars ++ (item.content.chars ++ item.after.chars) := by
  rw [itemChars.eq_def]

theorem memberChars_eq (member : Member) :
    memberChars member = member.1.before.chars ++ ('"' :: (Part.tail member.1.content ++
      (member.1.after.chars ++ ':' :: itemChars member.2))) := by
  rw [memberChars.eq_def]

theorem length_lt_itemsTail (items : List (Padded Source)) :
    items.length < (itemsTail items).length := by
  induction items with
  | nil => simp [itemsTail]
  | cons item items ih =>
    simp only [itemsTail, List.length_cons, List.length_append]
    omega

theorem length_lt_membersTail (members : List Member) :
    members.length < (membersTail members).length := by
  induction members with
  | nil => simp [membersTail]
  | cons member members ih =>
    simp only [membersTail, List.length_cons, List.length_append]
    omega

theorem length_lt_itemsTail_of_mem {item : Padded Source} {items : List (Padded Source)}
    (present : item ∈ items) : item.content.chars.length < (itemsTail items).length := by
  induction items with
  | nil => cases present
  | cons first items ih =>
    simp only [itemsTail, itemChars_eq, List.length_cons, List.length_append]
    rcases List.mem_cons.mp present with rfl | later
    · omega
    · have shorter := ih later
      omega

theorem length_lt_membersTail_of_mem {member : Member} {members : List Member}
    (present : member ∈ members) :
    member.2.content.chars.length < (membersTail members).length := by
  induction members with
  | nil => cases present
  | cons first members ih =>
    simp only [membersTail, memberChars_eq, itemChars_eq, List.length_cons, List.length_append]
    rcases List.mem_cons.mp present with rfl | later
    · omega
    · have shorter := ih later
      omega

theorem length_le_itemsChars (items : List (Padded Source)) :
    items.length ≤ (itemsChars items).length := by
  cases items with
  | nil => simp
  | cons item items =>
    have shorter := length_lt_itemsTail items
    simp only [itemsChars, List.length_append, List.length_cons]
    omega

theorem length_le_membersChars (members : List Member) :
    members.length ≤ (membersChars members).length := by
  cases members with
  | nil => simp
  | cons member members =>
    have shorter := length_lt_membersTail members
    simp only [membersChars, List.length_append, List.length_cons]
    omega

theorem length_lt_array {item : Padded Source} {items : List (Padded Source)}
    (present : item ∈ items) (inside : Gap) :
    item.content.chars.length < (Source.array inside items).chars.length := by
  have shorter := length_lt_itemsTail_of_mem present
  cases items with
  | nil => cases present
  | cons first items =>
    simp only [itemsTail, chars, itemsChars, List.length_cons, List.length_append] at shorter ⊢
    omega

theorem length_lt_object {member : Member} {members : List Member} (present : member ∈ members)
    (inside : Gap) :
    member.2.content.chars.length < (Source.object inside members).chars.length := by
  have shorter := length_lt_membersTail_of_mem present
  cases members with
  | nil => cases present
  | cons first members =>
    simp only [membersTail, chars, membersChars, List.length_cons, List.length_append] at shorter ⊢
    omega

end Source

abbrev Document := Padded Source

def Document.text (document : Document) : String := String.ofList (Source.itemChars document)

end EdgeRoutes.Json
