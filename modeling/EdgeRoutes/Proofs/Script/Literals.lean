import EdgeRoutes.Handler.Literal
import EdgeRoutes.Json.Scanner
import EdgeRoutes.Proofs.Script.Units

/-! String literals of a script, read by the rules of ECMAScript.

A literal denotes a list of units. Between quotes a line may not end, between backticks an
expression may begin at a dollar sign with a brace; and a backslash stands before an escape.
Every string is read back from the literal that it is written as, between any of the three
marks, and the reading ends at the closing mark.
-/

set_option autoImplicit false

namespace EdgeRoutes.Script

namespace Units

/-- The characters that a list of units encodes. A surrogate without its partner encodes
none. -/
def toChars? : Units → Option (List Char)
  | [] => some []
  | unit :: rest =>
    if Json.Scan.isTrailingSurrogate unit.toNat then none
    else if Json.Scan.isLeadingSurrogate unit.toNat then
      match rest with
      | [] => none
      | low :: rest =>
        if Json.Scan.isTrailingSurrogate low.toNat then
          (toChars? rest).map (Json.Scan.surrogatePair unit.toNat low.toNat :: ·)
        else none
    else (toChars? rest).map (Char.ofNat unit.toNat :: ·)

theorem toChars?_ofChar_append (char : Char) (rest : Units) :
    toChars? (ofChar char ++ rest) = (toChars? rest).map (char :: ·) := by
  have valid := toNat_valid char
  -- One unit that is no surrogate, or a leading and a trailing one.
  by_cases basic : char.toNat < 0x10000
  · obtain ⟨unit, units, value⟩ := ofChar_basic basic
    have single : Json.Scan.isTrailingSurrogate unit.toNat = false ∧
        Json.Scan.isLeadingSurrogate unit.toNat = false := by
      simp only [Json.Scan.isTrailingSurrogate, Json.Scan.isLeadingSurrogate, value,
        Bool.and_eq_false_iff, decide_eq_false_iff_not]
      omega
    rw [units, List.singleton_append, toChars?.eq_def]
    simp only [single, Bool.false_eq_true, if_false]
    rw [value, Char.ofNat_toNat]
  · obtain ⟨high, low, units, highVal, lowVal⟩ := ofChar_pair basic
    have leads : Json.Scan.isTrailingSurrogate high.toNat = false ∧
        Json.Scan.isLeadingSurrogate high.toNat = true := by
      simp only [Json.Scan.isTrailingSurrogate, Json.Scan.isLeadingSurrogate,
        Bool.and_eq_false_iff, decide_eq_false_iff_not, Bool.and_eq_true, decide_eq_true_eq]
      omega
    have trails : Json.Scan.isTrailingSurrogate low.toNat = true := by
      simp only [Json.Scan.isTrailingSurrogate, Bool.and_eq_true, decide_eq_true_eq]
      omega
    have pair : Json.Scan.surrogatePair high.toNat low.toNat = char := by
      have number : 0x10000 + (high.toNat - 0xD800) * 0x400 + (low.toNat - 0xDC00) =
          char.toNat := by omega
      rw [Json.Scan.surrogatePair, number, Char.ofNat_toNat]
    rw [units]
    simp only [List.cons_append, List.nil_append, toChars?, leads, trails, pair,
      Bool.false_eq_true, if_false, if_true]

theorem toChars?_ofChars (chars : List Char) : toChars? (ofChars chars) = some chars := by
  induction chars with
  | nil => rfl
  | cons char rest ih => rw [ofChars_cons, toChars?_ofChar_append, ih, Option.map_some]

end Units

namespace Scan

def isLineEnd (char : Char) : Bool :=
  char == '\n' || char == '\r' || char == '\u2028' || char == '\u2029'

def hexadecimal (digits : List Nat) : Nat := digits.foldl (fun total digit => 16 * total + digit) 0

def hexadecimal? (count : Nat) (text : List Char) : Option UInt16 :=
  if count ≤ text.length then
    ((text.take count).mapM Json.Scan.hexDigit?).map fun digits => .ofNat (hexadecimal digits)
  else none

def codePoint? (text : List Char) : Option (Units × Nat) := do
  let written := text.takeWhile (· ≠ '\x7d')
  let number := hexadecimal (← written.mapM Json.Scan.hexDigit?)
  if written = [] ∨ written.length = text.length ∨ 0x10FFFF < number then none
  else some (if number < 0x10000 then [.ofNat number] else Units.ofChar (.ofNat number),
    written.length + 2)

def escaped (letter : Char) : Char :=
  if letter = 'b' then '\x08'
  else if letter = 't' then '\t'
  else if letter = 'n' then '\n'
  else if letter = 'v' then '\x0b'
  else if letter = 'f' then '\x0c'
  else if letter = 'r' then '\r'
  else letter

/-- What an escape stands for, and how many characters it takes after the backslash. A zero
is an escape if no digit follows; an escaped end of a line stands for nothing. -/
def escape? : List Char → Option (Units × Nat)
  | [] => none
  | char :: rest =>
    if char = 'x' then (hexadecimal? 2 rest).map fun unit => ([unit], 3)
    else if char = 'u' then
      if rest.head? = some '\x7b' then
        (codePoint? (rest.drop 1)).map fun (units, taken) => (units, taken + 1)
      else (hexadecimal? 4 rest).map fun unit => ([unit], 5)
    else if char.isDigit then
      if char = '0' ∧ rest.head?.any Char.isDigit = false then some ([0], 1) else none
    else if isLineEnd char then some ([], if char = '\r' ∧ rest.head? = some '\n' then 2 else 1)
    else some (Units.ofChar (escaped char), 1)

/-- What a character without a backslash stands for between the given marks. Between
backticks every end of a line counts as a line feed. -/
def plain? (mark char : Char) (rest : List Char) : Option Units :=
  if mark = '\x60' then
    if char = '$' ∧ rest.head? = some '\x7b' then none
    else if char = '\r' then some (if rest.head? = some '\n' then [] else Units.ofChar '\n')
    else some (Units.ofChar char)
  else if isLineEnd char then none
  else some (Units.ofChar char)

/-- Reads a literal after its opening mark. The count says how many characters an escape that
was just read still covers. -/
def body? (mark : Char) : Nat → List Char → Option (Units × List Char)
  | _, [] => none
  | covered + 1, _ :: rest => body? mark covered rest
  | 0, char :: rest =>
    if char = mark then some ([], rest)
    else if char = '\\' then do
      let (units, taken) ← escape? rest
      let (others, rest) ← body? mark taken rest
      some (units ++ others, rest)
    else do
      let units ← plain? mark char rest
      let (others, rest) ← body? mark 0 rest
      some (units ++ others, rest)

def string? (marks : List Char) : List Char → Option (String × List Char)
  | [] => none
  | mark :: text =>
    if mark ∈ marks then do
      let (units, rest) ← body? mark 0 text
      some (String.ofList (← units.toChars?), rest)
    else none

open Handler.Literal (Mark escapedChar closesScript)

theorem body?_covered (mark : Char) (front rest : List Char) :
    body? mark front.length (front ++ rest) = body? mark 0 rest := by
  induction front with
  | nil => rfl
  | cons char front ih => exact ih

theorem mark_ne_backslash (mark : Mark) : mark.char ≠ '\\' := by
  cases mark <;> decide

theorem body?_escape (mark : Mark) {units : Units} (taken : List Char) {rest : List Char}
    (escaped : escape? (taken ++ rest) = some (units, taken.length)) :
    body? mark.char 0 ('\\' :: (taken ++ rest)) =
      (body? mark.char 0 rest).map fun read => (units ++ read.1, read.2) := by
  simp only [body?, if_neg (mark_ne_backslash mark).symm, if_true, escaped, Option.bind_eq_bind,
    Option.bind_some, body?_covered]
  cases body? mark.char 0 rest <;> rfl

theorem body?_plain (mark : Mark) {char : Char} {units : Units} {rest : List Char}
    (inside : char ≠ mark.char) (unescaped : char ≠ '\\')
    (plain : plain? mark.char char rest = some units) :
    body? mark.char 0 (char :: rest) =
      (body? mark.char 0 rest).map fun read => (units ++ read.1, read.2) := by
  simp only [body?, if_neg inside, if_neg unescaped, plain, Option.bind_eq_bind, Option.bind_some]
  cases body? mark.char 0 rest <;> rfl

/-- The text may stand for these characters: it begins with the first of them, with a
backslash, or with the closing mark. -/
def Follows (mark : Mark) (rest text : List Char) : Prop :=
  ∀ char, text.head? = some char → char = '\\' ∨ char = mark.char ∨ rest.head? = some char

/-- The forms that a character can have: an escape, the character itself, or an angle bracket
with the backslash that keeps it away from a slash. -/
inductive Form (mark : Mark) (char : Char) (rest : List Char) : List Char → Prop where
  | escape (taken : List Char)
      (reads : ∀ text, Follows mark rest text →
        escape? (taken ++ text) = some (Units.ofChar char, taken.length)) :
      Form mark char rest ('\\' :: taken)
  | plain (inside : char ≠ mark.char) (unescaped : char ≠ '\\')
      (reads : ∀ text, Follows mark rest text →
        plain? mark.char char text = some (Units.ofChar char)) : Form mark char rest [char]
  | angle (bracket : char = '<') (closes : closesScript rest = true) :
      Form mark char rest ['<', '\\']

theorem Form.ite {mark : Mark} {char : Char} {rest first second : List Char} {condition : Prop}
    [Decidable condition] (holds : condition → Form mark char rest first)
    (fails : ¬ condition → Form mark char rest second) :
    Form mark char rest (if condition then first else second) := by
  split
  · exact holds ‹_›
  · exact fails ‹_›

theorem Form.known {mark : Mark} {char : Char} {rest second : List Char} (known : Char)
    (taken : List Char)
    (reads : ∀ text, escape? (taken ++ text) = some (Units.ofChar known, taken.length))
    (others : char ≠ known → Form mark char rest second) :
    Form mark char rest (if char = known then '\\' :: taken else second) := by
  apply Form.ite
  · rintro rfl
    exact .escape taken fun text _ => reads text
  · exact others

theorem Follows.head?_any {mark : Mark} {rest text : List Char} (follows : Follows mark rest text)
    (test : Char → Bool) (backslash : test '\\' = false) (closing : test mark.char = false)
    (next : rest.head?.any test = false) : text.head?.any test = false := by
  cases head : text.head? with
  | none => rfl
  | some char =>
    rcases follows char head with rfl | rfl | same
    · exact backslash
    · exact closing
    · rwa [same] at next

theorem null_form (mark : Mark) (rest : List Char) :
    Form mark '\x00' rest
      (if rest.head?.any Char.isDigit then ['\\', 'x', '0', '0'] else ['\\', '0']) := by
  apply Form.ite
  · exact fun _ => .escape ['x', '0', '0'] fun _ _ => rfl
  · intro next
    refine .escape ['0'] fun text follows => ?_
    have digit := follows.head?_any Char.isDigit rfl (by cases mark <;> rfl)
      (Bool.not_eq_true _ ▸ next)
    simp [escape?, digit]
    rfl

theorem dollar_form (mark : Mark) (rest : List Char) :
    Form mark '$' rest
      (if mark = .backtick ∧ rest.head? = some '\x7b' then ['\\', '$'] else ['$']) := by
  have inside : '$' ≠ mark.char := by cases mark <;> decide
  apply Form.ite
  · exact fun _ => .escape ['$'] fun _ _ => rfl
  · intro apart
    refine .plain inside (by decide) fun text follows => ?_
    cases mark with
    | double => rfl
    | single => rfl
    | backtick =>
      have next : rest.head?.any (· == '\x7b') = false := by
        cases head : rest.head? <;> simp_all
      have brace := follows.head?_any (· == '\x7b') rfl rfl next
      have absent : text.head? ≠ some '\x7b' := by
        intro head
        simp [head] at brace
      simp [plain?, Mark.char, absent]

theorem escapedChar_form (mark : Mark) (char : Char) (rest : List Char) :
    Form mark char rest (escapedChar mark char rest) := by
  unfold escapedChar
  -- The characters are tried in the order of the writer; what is left open at each step is a
  -- character whose form depends on the mark or on what follows.
  refine Form.ite ?_ fun inside => .known '\\' ['\\'] (fun _ => rfl) fun unescaped => ?_
  · rintro rfl
    exact .escape [mark.char] fun _ _ => by cases mark <;> rfl
  refine Form.ite ?_ fun _ => .known '\x07' ['x', '0', '7'] (fun _ => rfl) fun _ =>
    .known '\x08' ['b'] (fun _ => rfl) fun _ => .known '\x0b' ['v'] (fun _ => rfl) fun _ =>
    .known '\x0c' ['f'] (fun _ => rfl) fun _ => ?_
  · rintro rfl
    exact null_form mark rest
  refine Form.ite ?_ fun notFeed => .known '\r' ['r'] (fun _ => rfl) fun notReturn =>
    .known '\x1b' ['x', '1', 'B'] (fun _ => rfl) fun _ => ?_
  · rintro rfl
    refine Form.ite ?_ fun _ => .escape ['n'] fun _ _ => rfl
    rintro rfl
    exact .plain inside unescaped fun _ _ => rfl
  refine Form.ite ?_ fun notDollar => Form.ite ?_ fun _ =>
    .known '\u2028' ['u', '2', '0', '2', '8'] (fun _ => rfl) fun notLine =>
    .known '\u2029' ['u', '2', '0', '2', '9'] (fun _ => rfl) fun notParagraph =>
    .known '\u00a0' ['x', 'A', '0'] (fun _ => rfl) fun _ => ?_
  · rintro rfl
    exact dollar_form mark rest
  · rintro rfl
    refine Form.ite (fun closes => .angle rfl closes) fun _ => ?_
    exact .plain inside unescaped fun _ _ => by cases mark <;> rfl
  refine .plain inside unescaped fun _ _ => ?_
  have inLine : isLineEnd char = false := by
    simp [isLineEnd, notFeed, notReturn, notLine, notParagraph]
  unfold plain?
  split
  · simp [notDollar]
  · simp [inLine]

theorem eq_slash_of_toLower {char : Char} (lower : char.toLower = '/') : char = '/' := by
  unfold Char.toLower at lower
  split at lower
  case isTrue capital =>
    have value : char.val + 32 = 47 := congrArg Char.val lower
    have bounds : 65 ≤ char.val ∧ char.val ≤ 90 := capital
    grind
  case isFalse => exact lower

theorem closesScript_slash {rest : List Char} (closes : closesScript rest = true) :
    rest.head? = some '/' := by
  cases rest with
  | nil => exact absurd closes (by decide)
  | cons char rest =>
    have same := eq_of_beq closes
    rw [String.toList_ofList] at same
    rw [List.head?_cons, eq_slash_of_toLower (List.cons.inj same).1]

theorem Form.read {mark : Mark} {char : Char} {rest form text : List Char}
    (written : Form mark char rest form) (follows : Follows mark rest text)
    (slash : closesScript rest = true → text.head? = some '/') :
    body? mark.char 0 (form ++ text) =
      (body? mark.char 0 text).map fun read => (Units.ofChar char ++ read.1, read.2) := by
  cases written with
  | escape taken reads => exact body?_escape mark taken (reads text follows)
  | plain inside unescaped reads => exact body?_plain mark inside unescaped (reads text follows)
  | angle bracket closes =>
    subst bracket
    obtain ⟨more, rfl⟩ := List.head?_eq_some_iff.mp (slash closes)
    -- The backslash makes no difference to the slash.
    have plainSlash : plain? mark.char '/' more = some (Units.ofChar '/') := by
      cases mark <;> rfl
    have same : body? mark.char 0 ('\\' :: '/' :: more) = body? mark.char 0 ('/' :: more) :=
      (body?_escape mark ['/'] rfl).trans
        (body?_plain mark (by cases mark <;> decide) (by decide) plainSlash).symm
    have plainBracket : plain? mark.char '<' ('\\' :: '/' :: more) = some (Units.ofChar '<') := by
      cases mark <;> rfl
    rw [← same]
    exact body?_plain mark (by cases mark <;> decide) (by decide) plainBracket

theorem follows_body (mark : Mark) (chars rest : List Char) :
    Follows mark chars (Handler.Literal.body mark chars ++ mark.char :: rest) := by
  intro next head
  cases chars with
  | nil =>
    cases head
    exact Or.inr (Or.inl rfl)
  | cons char chars =>
    have form := escapedChar_form mark char chars
    rw [Handler.Literal.body, List.append_assoc] at head
    generalize escapedChar mark char chars = written at form head
    cases form with
    | escape taken reads => cases head; exact Or.inl rfl
    | plain inside unescaped reads => exact Or.inr (Or.inr head)
    | angle bracket closes => subst bracket; exact Or.inr (Or.inr head)

theorem head?_body_slash (mark : Mark) {chars : List Char} (slash : chars.head? = some '/')
    (rest : List Char) :
    (Handler.Literal.body mark chars ++ rest).head? = some '/' := by
  obtain ⟨chars, rfl⟩ := List.head?_eq_some_iff.mp slash
  cases mark <;> rfl

theorem body?_body (mark : Mark) (chars rest : List Char) :
    body? mark.char 0 (Handler.Literal.body mark chars ++ mark.char :: rest) =
      some (Units.ofChars chars, rest) := by
  induction chars with
  | nil => simp [Handler.Literal.body, body?, Units.ofChars]
  | cons char chars ih =>
    rw [Handler.Literal.body, List.append_assoc,
      (escapedChar_form mark char chars).read (follows_body mark chars rest)
        fun closes => head?_body_slash mark (closesScript_slash closes) _,
      ih, Option.map_some, Units.ofChars_cons]

/-- Every string is read back from its literal, and the reading ends where the literal ends. -/
theorem string?_between {marks : List Char} {mark : Mark} (allowed : mark.char ∈ marks)
    (text : String) (rest : List Char) :
    string? marks (Handler.Literal.between mark text.toList ++ rest) = some (text, rest) := by
  simp only [Handler.Literal.between, string?, List.cons_append, List.append_assoc,
    List.nil_append, if_pos allowed, body?_body, Option.bind_eq_bind, Option.bind_some,
    Units.toChars?_ofChars, String.ofList_toList]

-- Between backticks an expression may begin, and between quotes no line may end.
example : string? ['\x60'] ['\x60', '$', '\x7b', '\x60'] = none := by decide

example : string? ['"'] ['"', '\n', '"'] = none := by decide

end Scan

end EdgeRoutes.Script
