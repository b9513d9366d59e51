import EdgeRoutes.Json.Printer
import EdgeRoutes.Proofs.Script.Literals
import Mathlib.Tactic.IntervalCases

/-! The strings of a script by the rules of ECMAScript 5.1.

A string stands between double or single quotes. Nothing in it ends a line, be it a line feed,
a carriage return, or one of the separators U+2028 and U+2029; a backslash stands before an
escape, and there are no code points between braces yet. JSON escapes the first two ends of a
line and not the separators. So a string as JSON writes it is one of this edition, and denotes
what JSON means by it, exactly if there is no separator in it.
-/

set_option autoImplicit false

namespace EdgeRoutes.Script.FifthEdition

def escape? (text : List Char) : Option (Units × Nat) :=
  if text.take 2 = ['u', '\x7b'] then none else Scan.escape? text

/-- Reads a literal after its opening mark: what it denotes, and how many characters it takes
with its closing mark. The count says how many of them an escape that was just read covers. -/
def body? (mark : Char) : Nat → List Char → Option (Units × Nat)
  | _, [] => none
  | covered + 1, _ :: rest => (body? mark covered rest).map fun read => (read.1, read.2 + 1)
  | 0, char :: rest =>
    if char = mark then some ([], 1)
    else if char = '\\' then do
      let (units, covered) ← escape? rest
      let (others, taken) ← body? mark covered rest
      some (units ++ others, taken + 1)
    else if Scan.isLineEnd char then none
    else (body? mark 0 rest).map fun read => (Units.ofChar char ++ read.1, read.2 + 1)

def remark? : List Char → Option Nat
  | '/' :: text =>
    let words := text.takeWhile fun char => !Scan.isLineEnd char
    if words.length < text.length then some (words.length + 2) else none
  | _ => none

/-- What the strings of a script denote, in order. A script is not understood if one of them
is no literal, or if a slash stands outside of strings and remarks. -/
def strings? : Nat → List Char → Option (List Units)
  | 0, [] => some []
  | _ + 1, [] => none
  | covered + 1, _ :: rest => strings? covered rest
  | 0, char :: rest =>
    if char = '"' ∨ char = '\'' then do
      let (units, taken) ← body? char 0 rest
      let others ← strings? taken rest
      some (units :: others)
    else if char = '/' then do
      let taken ← remark? rest
      strings? taken rest
    else strings? 0 rest

section

variable {text : List Char} {units : Units} {taken covered : Nat}

theorem hexadecimal?_append {count : Nat} {unit : UInt16} (rest : List Char)
    (read : Scan.hexadecimal? count text = some unit) :
    Scan.hexadecimal? count (text ++ rest) = some unit := by
  unfold Scan.hexadecimal? at read ⊢
  split at read
  case isFalse => cases read
  case isTrue enough =>
    have longer : count ≤ (text ++ rest).length := by
      rw [List.length_append]
      omega
    rw [if_pos longer, List.take_append_of_le_length enough, read]

theorem escape?_append (rest : List Char) (read : escape? text = some (units, taken))
    (inside : taken < text.length) : escape? (text ++ rest) = some (units, taken) := by
  match text, read, inside with
  | [char], read, inside =>
    -- A letter alone is an escape of one character, or the start of one of several.
    exfalso
    simp [escape?, Scan.escape?, Scan.hexadecimal?] at read
    grind
  | char :: next :: others, read, inside =>
    unfold escape? at read ⊢
    by_cases braces : (char :: next :: others).take 2 = ['u', '\x7b']
    case pos =>
      rw [if_pos braces] at read
      cases read
    case neg =>
      rw [if_neg braces] at read
      rw [if_neg (show ¬ (char :: next :: others ++ rest).take 2 = ['u', '\x7b'] from braces)]
      rw [Scan.escape?] at read
      rw [List.cons_append, List.cons_append, Scan.escape?]
      split at read
      case isTrue hexadecimal =>
        obtain ⟨unit, digits, same⟩ := Option.map_eq_some_iff.mp read
        rw [if_pos hexadecimal, ← List.cons_append, hexadecimal?_append rest digits, ← same]
        rfl
      case isFalse other =>
        rw [if_neg other]
        split at read
        case isTrue unicode =>
          have noBrace : ¬ (next :: others).head? = some '\x7b' := by
            rintro ⟨⟩
            exact braces (by simp [unicode])
          rw [if_neg noBrace] at read
          obtain ⟨unit, digits, same⟩ := Option.map_eq_some_iff.mp read
          rw [if_pos unicode, if_neg (show ¬ (next :: (others ++ rest)).head? = _ from noBrace),
            ← List.cons_append, hexadecimal?_append rest digits, ← same]
          rfl
        case isFalse letter =>
          -- What is left looks at one character behind the letter.
          rw [if_neg letter]
          exact read

theorem lt_of_body? {mark : Char} (read : body? mark covered text = some (units, taken)) :
    covered < text.length := by
  induction text generalizing covered units taken with
  | nil => cases covered <;> cases read
  | cons char text ih =>
    cases covered with
    | zero => simp
    | succ covered =>
      obtain ⟨⟨units', taken'⟩, found, _⟩ := Option.map_eq_some_iff.mp read
      have := ih found
      rw [List.length_cons]
      omega

theorem body?_append {mark : Char} (rest : List Char)
    (read : body? mark covered text = some (units, taken)) :
    body? mark covered (text ++ rest) = some (units, taken) := by
  induction text generalizing covered units taken with
  | nil => cases covered <;> cases read
  | cons char text ih =>
    cases covered with
    | succ covered =>
      obtain ⟨⟨units', taken'⟩, found, same⟩ := Option.map_eq_some_iff.mp read
      rw [List.cons_append, body?, ih found, Option.map_some, same]
    | zero =>
      rw [body?] at read
      rw [List.cons_append, body?]
      split at read
      case isTrue closing => rw [if_pos closing, read]
      case isFalse inside =>
        rw [if_neg inside]
        split at read
        -- An escape is complete within the text, because the closing quote stands behind it.
        case isTrue escaped =>
          obtain ⟨⟨units', covered'⟩, escape, read⟩ := Option.bind_eq_some_iff.mp read
          obtain ⟨⟨others, taken'⟩, found, same⟩ := Option.bind_eq_some_iff.mp read
          rw [if_pos escaped, escape?_append rest escape (lt_of_body? found)]
          simp only [Option.bind_eq_bind, Option.bind_some, ih found]
          exact same
        case isFalse unescaped =>
          rw [if_neg unescaped]
          split at read
          case isTrue => cases read
          case isFalse inLine =>
            obtain ⟨⟨others, taken'⟩, found, same⟩ := Option.map_eq_some_iff.mp read
            rw [if_neg inLine, ih found, Option.map_some, same]

theorem remark?_append (rest : List Char) (read : remark? text = some taken) :
    remark? (text ++ rest) = some taken := by
  unfold remark? at read
  split at read
  case h_2 => cases read
  case h_1 words =>
    dsimp only at read
    split at read
    case isFalse => cases read
    case isTrue ends =>
      have apart := Nat.ne_of_lt ends
      simp only [remark?, List.cons_append, List.takeWhile_append, if_neg apart,
        List.length_append]
      rw [if_pos (by omega), read]

end

def join (first second : Option (List Units)) : Option (List Units) := do
  let units ← first
  let others ← second
  some (units ++ others)

theorem strings?_append {covered : Nat} {text : List Char} {found : List Units}
    (rest : List Char) (read : strings? covered text = some found) :
    strings? covered (text ++ rest) = join (some found) (strings? 0 rest) := by
  induction text generalizing covered found with
  | nil =>
    cases covered with
    | succ => cases read
    | zero =>
      cases read
      cases other : strings? 0 rest <;> simp [join, other]
  | cons char text ih =>
    cases covered with
    | succ covered => exact ih read
    | zero =>
      rw [strings?] at read
      rw [List.cons_append, strings?]
      split at read
      case isTrue quoted =>
        obtain ⟨⟨units, taken⟩, body, read⟩ := Option.bind_eq_some_iff.mp read
        obtain ⟨others, later, same⟩ := Option.bind_eq_some_iff.mp read
        cases same
        rw [if_pos quoted, body?_append rest body]
        simp only [Option.bind_eq_bind, Option.bind_some, ih later, join]
        cases strings? 0 rest <;> rfl
      case isFalse unquoted =>
        rw [if_neg unquoted]
        split at read
        case isTrue slash =>
          obtain ⟨taken, remark, read⟩ := Option.bind_eq_some_iff.mp read
          rw [if_pos slash, remark?_append rest remark]
          exact ih read
        case isFalse plain =>
          rw [if_neg plain]
          exact ih read

/-- Neither a line separator nor a paragraph separator is in the text. -/
def Clear (text : String) : Prop := '\u2028' ∉ text.toList ∧ '\u2029' ∉ text.toList

instance (text : String) : Decidable (Clear text) := inferInstanceAs (Decidable (_ ∧ _))

def denoted? (texts : List String) : Option (List Units) :=
  if ∀ text ∈ texts, Clear text then some (texts.map Units.ofText) else none

theorem denoted?_eq_some_iff (texts : List String) :
    denoted? texts = some (texts.map Units.ofText) ↔ ∀ text ∈ texts, Clear text := by
  simp [denoted?]

theorem denoted?_eq_none_iff (texts : List String) :
    denoted? texts = none ↔ ∃ text ∈ texts, ¬ Clear text := by
  simp [denoted?]

theorem denoted?_append (first second : List String) :
    denoted? (first ++ second) = join (denoted? first) (denoted? second) := by
  unfold denoted? join
  by_cases clear : ∀ text ∈ first, Clear text <;> by_cases others : ∀ text ∈ second, Clear text
  · rw [if_pos clear, if_pos others, if_pos (List.forall_mem_append.mpr ⟨clear, others⟩)]
    simp
  all_goals
    rw [if_neg (by rw [List.forall_mem_append]; tauto)]
    simp [clear, others]

theorem body?_covered (mark : Char) (front rest : List Char) :
    body? mark front.length (front ++ rest) =
      (body? mark 0 rest).map fun read => (read.1, read.2 + front.length) := by
  induction front with
  | nil => simp
  | cons char front ih =>
    simp only [List.length_cons, List.cons_append, body?, ih, Option.map_map]
    rfl

theorem body?_escape {units : Units} (taken : List Char) {rest : List Char}
    (escaped : escape? (taken ++ rest) = some (units, taken.length)) :
    body? '"' 0 ('\\' :: (taken ++ rest)) =
      (body? '"' 0 rest).map fun read => (units ++ read.1, read.2 + (taken.length + 1)) := by
  have unmarked : '\\' ≠ '"' := by decide
  simp only [body?, if_neg unmarked, if_true, escaped, Option.bind_eq_bind, Option.bind_some,
    body?_covered]
  cases body? '"' 0 rest <;> rfl

theorem escape?_control {code : Nat} (control : code < 32) (rest : List Char) :
    escape? (['u', '0', '0', Nat.digitChar (code / 16), Nat.digitChar (code % 16)] ++ rest) =
      some ([UInt16.ofNat code], 5) := by
  interval_cases code <;> rfl

theorem escapedChar_cases (char : Char) :
    (∃ taken, Json.escapedChar char = '\\' :: taken ∧ char ≠ '\u2028' ∧ char ≠ '\u2029' ∧
      ∀ rest, escape? (taken ++ rest) = some (Units.ofChar char, taken.length)) ∨
    Json.escapedChar char = [char] ∧ char ≠ '"' ∧ char ≠ '\\' ∧
      (Scan.isLineEnd char = true ↔ char = '\u2028' ∨ char = '\u2029') := by
  have known (known : Char) (taken : List Char) (same : char = known)
      (written : Json.escapedChar known = '\\' :: taken)
      (apart : known ≠ '\u2028' ∧ known ≠ '\u2029')
      (reads : ∀ rest, escape? (taken ++ rest) = some (Units.ofChar known, taken.length)) :
      ∃ taken, Json.escapedChar char = '\\' :: taken ∧ char ≠ '\u2028' ∧ char ≠ '\u2029' ∧
        ∀ rest, escape? (taken ++ rest) = some (Units.ofChar char, taken.length) := by
    subst same
    exact ⟨taken, written, apart.1, apart.2, reads⟩
  by_cases quote : char = '"'
  · exact .inl (known '"' ['"'] quote rfl (by decide) fun _ => rfl)
  by_cases backslash : char = '\\'
  · exact .inl (known '\\' ['\\'] backslash rfl (by decide) fun _ => rfl)
  by_cases backspace : char = '\x08'
  · exact .inl (known '\x08' ['b'] backspace rfl (by decide) fun _ => rfl)
  by_cases formFeed : char = '\x0c'
  · exact .inl (known '\x0c' ['f'] formFeed rfl (by decide) fun _ => rfl)
  by_cases lineFeed : char = '\n'
  · exact .inl (known '\n' ['n'] lineFeed rfl (by decide) fun _ => rfl)
  by_cases carriageReturn : char = '\r'
  · exact .inl (known '\r' ['r'] carriageReturn rfl (by decide) fun _ => rfl)
  by_cases tab : char = '\t'
  · exact .inl (known '\t' ['t'] tab rfl (by decide) fun _ => rfl)
  simp only [Json.escapedChar, if_neg quote, if_neg backslash, if_neg backspace, if_neg formFeed,
    if_neg lineFeed, if_neg carriageReturn, if_neg tab]
  -- No short escape: a control character has a numeric one, all others stand for themselves.
  by_cases control : char.toNat < 32
  · refine .inl ⟨_, if_pos control, ?_, ?_, fun rest => ?_⟩
    · rintro rfl
      exact absurd control (by decide)
    · rintro rfl
      exact absurd control (by decide)
    · rw [escape?_control control rest, Units.ofChar, if_pos (by omega)]
      rfl
  · refine .inr ⟨if_neg control, quote, backslash, ?_⟩
    simp [Scan.isLineEnd, lineFeed, carriageReturn]

/-- A character is read back from its escaped form, unless it is a separator. -/
theorem body?_escapedChar (char : Char) (rest : List Char) :
    body? '"' 0 (Json.escapedChar char ++ rest) =
      if char = '\u2028' ∨ char = '\u2029' then none
      else (body? '"' 0 rest).map fun read =>
        (Units.ofChar char ++ read.1, read.2 + (Json.escapedChar char).length) := by
  rcases escapedChar_cases char with ⟨taken, written, notLine, notParagraph, reads⟩ |
    ⟨written, quote, backslash, lineEnd⟩
  · rw [written, if_neg (by simp [notLine, notParagraph]), List.cons_append,
      body?_escape taken (reads rest)]
    rfl
  · rw [written, List.singleton_append, body?, if_neg quote, if_neg backslash]
    by_cases separator : char = '\u2028' ∨ char = '\u2029'
    · rw [if_pos (lineEnd.mpr separator), if_pos separator]
    · rw [if_neg (mt lineEnd.mp separator), if_neg separator]
      rfl

theorem body?_quoted (chars rest : List Char) :
    body? '"' 0 (chars.flatMap Json.escapedChar ++ '"' :: rest) =
      if '\u2028' ∈ chars ∨ '\u2029' ∈ chars then none
      else some (Units.ofChars chars, (chars.flatMap Json.escapedChar).length + 1) := by
  induction chars with
  | nil => rfl
  | cons char chars ih =>
    rw [List.flatMap_cons, List.append_assoc, body?_escapedChar, ih]
    by_cases separator : char = '\u2028' ∨ char = '\u2029'
    · rw [if_pos separator, if_pos]
      rcases separator with rfl | rfl <;> simp
    · have same : ('\u2028' ∈ char :: chars ∨ '\u2029' ∈ char :: chars) ↔
          ('\u2028' ∈ chars ∨ '\u2029' ∈ chars) := by
        rw [not_or] at separator
        simp [Ne.symm separator.1, Ne.symm separator.2]
      rw [if_neg separator]
      by_cases later : '\u2028' ∈ chars ∨ '\u2029' ∈ chars
      · rw [if_pos later, if_pos (same.mpr later), Option.map_none]
      · rw [if_neg later, if_neg (mt same.mp later), Option.map_some, Units.ofChars_cons,
          List.length_append]
        congr 2
        omega

theorem strings?_covered (front rest : List Char) :
    strings? front.length (front ++ rest) = strings? 0 rest := by
  induction front with
  | nil => rfl
  | cons char front ih => exact ih

/-- The strings of this text are those given, whatever follows it. -/
def Holds (text : List Char) (texts : List String) : Prop :=
  ∀ rest, strings? 0 (text ++ rest) = join (denoted? texts) (strings? 0 rest)

theorem join_assoc (first second third : Option (List Units)) :
    join (join first second) third = join first (join second third) := by
  cases first <;> cases second <;> cases third <;> simp [join]

theorem join_empty (found : Option (List Units)) : join (denoted? []) found = found := by
  cases found <;> simp [join, denoted?]

theorem Holds.append {first second : List Char} {texts others : List String}
    (here : Holds first texts) (there : Holds second others) :
    Holds (first ++ second) (texts ++ others) := by
  intro rest
  rw [List.append_assoc, here, there, denoted?_append, join_assoc]

theorem Holds.strings?_eq {text : List Char} {texts : List String} (holds : Holds text texts) :
    strings? 0 text = denoted? texts := by
  have read := holds []
  rw [List.append_nil] at read
  rw [read]
  cases denoted? texts <;> simp [join, strings?]

theorem holds_plain {char : Char} (apart : char ∉ ['"', '\'', '/']) : Holds [char] [] := by
  intro rest
  simp only [List.mem_cons, List.not_mem_nil, or_false, not_or] at apart
  have unquoted : ¬ (char = '"' ∨ char = '\'') := by tauto
  rw [List.singleton_append, strings?, if_neg unquoted, if_neg apart.2.2, join_empty]

theorem holds_of_read {text : List Char} {texts : List String}
    (read : strings? 0 text = denoted? texts) (clear : ∀ text ∈ texts, Clear text) :
    Holds text texts := by
  intro rest
  unfold denoted? at read ⊢
  rw [if_pos clear] at read ⊢
  exact strings?_append rest read

theorem holds_quote (text : String) : Holds (Json.quote text) [text] := by
  intro rest
  have written : Json.quote text ++ rest =
      '"' :: (text.toList.flatMap Json.escapedChar ++ '"' :: rest) := by simp [Json.quote]
  rw [written, strings?, if_pos (.inl rfl), body?_quoted]
  by_cases separator : '\u2028' ∈ text.toList ∨ '\u2029' ∈ text.toList
  · have unclear : ¬ ∀ other ∈ [text], Clear other := by simp [Clear]; tauto
    rw [if_pos separator, denoted?, if_neg unclear]
    rfl
  · have clear : ∀ other ∈ [text], Clear other := by simp [Clear]; tauto
    have behind : strings? ((text.toList.flatMap Json.escapedChar).length + 1)
        (text.toList.flatMap Json.escapedChar ++ '"' :: rest) = strings? 0 rest := by
      simpa using strings?_covered (text.toList.flatMap Json.escapedChar ++ ['"']) rest
    rw [if_neg separator, denoted?, if_pos clear]
    simp only [Option.bind_eq_bind, Option.bind_some, behind]
    rfl

end EdgeRoutes.Script.FifthEdition
