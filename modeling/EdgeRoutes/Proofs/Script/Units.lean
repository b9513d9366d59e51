import EdgeRoutes.Proofs.Path
import Mathlib.Data.List.Infix

/-! The strings of the edge runtime, and the operations of ECMAScript on them.

A string there is a list of 16-bit units. A character beyond U+FFFF is written with two
units, a high surrogate and a low one; every other character is its own unit. No character
is a surrogate, and a high surrogate is never a low one, so a text begins with another, ends
in it or is cut at a slash in the same places whether one looks at characters or at units.
-/

set_option autoImplicit false

namespace EdgeRoutes.Script

abbrev Units := List UInt16

namespace Units

def ofChar (char : Char) : Units :=
  if char.toNat < 0x10000 then [UInt16.ofNat char.toNat]
  else
    [UInt16.ofNat (0xD800 + (char.toNat - 0x10000) / 0x400),
      UInt16.ofNat (0xDC00 + (char.toNat - 0x10000) % 0x400)]

def ofChars (chars : List Char) : Units := chars.flatMap ofChar

def ofText (text : String) : Units := ofChars text.toList

def indexOf (text part : Units) : Int :=
  match (List.range (text.length + 1)).find? fun position =>
      part.isPrefixOf (text.drop position) with
  | some position => position
  | none => -1

def charAt (text : Units) (position : Int) : Units :=
  if position < 0 then [] else text[position.toNat]?.toList

/-- A position that may be counted from the end, brought inside the text. -/
def clamp (text : Units) (position : Int) : Nat :=
  if position < 0 then (text.length + position).toNat else min position.toNat text.length

/-- The units from one position up to another, or up to the end. -/
def slice (text : Units) (start : Int) (stop : Option Int := none) : Units :=
  let last := clamp text (stop.getD text.length)
  (text.drop (clamp text start)).take (last - clamp text start)

def split (text : Units) (separator : UInt16) : List Units := text.splitOn separator

def slash : UInt16 := 0x2F

def dot : UInt16 := 0x2E

theorem toNat_valid (char : Char) :
    char.toNat < 0xD800 ∨ 0xDFFF < char.toNat ∧ char.toNat < 0x110000 := char.valid

theorem ofChar_basic {char : Char} (basic : char.toNat < 0x10000) :
    ∃ unit : UInt16, ofChar char = [unit] ∧ unit.toNat = char.toNat := by
  refine ⟨_, if_pos basic, ?_⟩
  rw [UInt16.toNat_ofNat']
  omega

theorem ofChar_pair {char : Char} (beyond : ¬ char.toNat < 0x10000) :
    ∃ high low : UInt16, ofChar char = [high, low] ∧
      high.toNat = 0xD800 + (char.toNat - 0x10000) / 0x400 ∧
      low.toNat = 0xDC00 + (char.toNat - 0x10000) % 0x400 := by
  have valid := toNat_valid char
  refine ⟨_, _, if_neg beyond, ?_, ?_⟩
  · rw [UInt16.toNat_ofNat']
    omega
  · rw [UInt16.toNat_ofNat']
    omega

theorem eq_of_pair {first second : Char} (beyondFirst : ¬ first.toNat < 0x10000)
    (beyondSecond : ¬ second.toNat < 0x10000) (same : ofChar first = ofChar second) :
    first = second := by
  obtain ⟨high, low, units, highVal, lowVal⟩ := ofChar_pair beyondFirst
  obtain ⟨high', low', units', highVal', lowVal'⟩ := ofChar_pair beyondSecond
  rw [units, units', List.cons.injEq, List.cons.injEq] at same
  obtain ⟨rfl, rfl, _⟩ := same
  apply Char.toNat_inj.mp
  omega

theorem basic_append_ne {single double : Char} (basic : single.toNat < 0x10000)
    (beyond : ¬ double.toNat < 0x10000) (left right : Units) :
    ofChar single ++ left ≠ ofChar double ++ right := by
  obtain ⟨unit, units, value⟩ := ofChar_basic basic
  obtain ⟨high, low, pair, highVal, _⟩ := ofChar_pair beyond
  have validSingle := toNat_valid single
  have validDouble := toNat_valid double
  intro same
  rw [units, pair] at same
  obtain ⟨rfl, _⟩ := List.cons.inj same
  omega

theorem ofChar_append_inj {first second : Char} {left right : Units}
    (same : ofChar first ++ left = ofChar second ++ right) : first = second ∧ left = right := by
  by_cases basicFirst : first.toNat < 0x10000 <;> by_cases basicSecond : second.toNat < 0x10000
  · obtain ⟨unit, units, value⟩ := ofChar_basic basicFirst
    obtain ⟨other, units', value'⟩ := ofChar_basic basicSecond
    rw [units, units'] at same
    obtain ⟨rfl, rfl⟩ := List.cons.inj same
    exact ⟨Char.toNat_inj.mp (value.symm.trans value'), rfl⟩
  · exact absurd same (basic_append_ne basicFirst basicSecond left right)
  · exact absurd same.symm (basic_append_ne basicSecond basicFirst right left)
  · obtain ⟨high, low, units, _, _⟩ := ofChar_pair basicFirst
    obtain ⟨high', low', units', _, _⟩ := ofChar_pair basicSecond
    have parts := same
    rw [units, units'] at parts
    obtain ⟨rfl, lower⟩ := List.cons.inj parts
    obtain ⟨rfl, rest⟩ := List.cons.inj lower
    exact ⟨eq_of_pair basicFirst basicSecond (units.trans units'.symm), rest⟩

/-- No character begins with a low surrogate. -/
theorem head_not_low {char : Char} {unit : UInt16} {rest after : Units}
    (same : ofChar char ++ rest = unit :: after) :
    unit.toNat < 0xDC00 ∨ 0xDFFF < unit.toNat := by
  have valid := toNat_valid char
  by_cases basic : char.toNat < 0x10000
  · obtain ⟨own, units, value⟩ := ofChar_basic basic
    rw [units] at same
    obtain ⟨rfl, _⟩ := List.cons.inj same
    omega
  · obtain ⟨high, low, units, highVal, _⟩ := ofChar_pair basic
    rw [units] at same
    obtain ⟨rfl, _⟩ := List.cons.inj same
    omega

theorem ofChar_cut {char : Char} {front back : Units} (cut : ofChar char = front ++ back) :
    front = [] ∨ back = [] ∨ ∃ low : UInt16, back = [low] ∧ 0xDC00 ≤ low.toNat ∧
      low.toNat ≤ 0xDFFF := by
  by_cases basic : char.toNat < 0x10000
  · obtain ⟨own, units, _⟩ := ofChar_basic basic
    rw [units] at cut
    rcases List.append_eq_singleton_iff.mp cut.symm with ⟨empty, _⟩ | ⟨_, empty⟩
    · exact Or.inl empty
    · exact Or.inr (Or.inl empty)
  · obtain ⟨high, low, units, _, lowVal⟩ := ofChar_pair basic
    rw [units] at cut
    match front, back, cut with
    | [], _, _ => exact Or.inl rfl
    | [_], _, rfl =>
      refine Or.inr (Or.inr ⟨low, rfl, ?_⟩)
      omega
    | _ :: _ :: _, after, same =>
      have empty := (List.cons.inj (List.cons.inj same).2).2
      exact Or.inr (Or.inl (List.append_eq_nil_iff.mp empty.symm).2)

theorem ofChar_ne_nil (char : Char) : ofChar char ≠ [] := by
  unfold ofChar
  split <;> simp

theorem ofChars_append (first second : List Char) :
    ofChars (first ++ second) = ofChars first ++ ofChars second := List.flatMap_append

theorem ofChars_cons (char : Char) (rest : List Char) :
    ofChars (char :: rest) = ofChar char ++ ofChars rest := List.flatMap_cons

@[simp] theorem ofChars_eq_nil_iff (chars : List Char) : ofChars chars = [] ↔ chars = [] := by
  cases chars with
  | nil => simp [ofChars]
  | cons char rest => simp [ofChars_cons, ofChar_ne_nil]

theorem ofChars_prefix_iff (first second : List Char) :
    ofChars first <+: ofChars second ↔ first <+: second := by
  constructor
  · intro begins
    induction first generalizing second with
    | nil => exact List.nil_prefix
    | cons char rest ih =>
      obtain ⟨after, whole⟩ := begins
      cases second with
      | nil =>
        rw [ofChars_cons, List.append_assoc] at whole
        exact absurd (List.append_eq_nil_iff.mp whole).1 (ofChar_ne_nil char)
      | cons other others =>
        rw [ofChars_cons, ofChars_cons, List.append_assoc] at whole
        obtain ⟨rfl, tails⟩ := ofChar_append_inj whole
        exact List.cons_prefix_cons.mpr ⟨rfl, ih others ⟨after, tails⟩⟩
  · rintro ⟨after, rfl⟩
    exact ⟨ofChars after, (ofChars_append first after).symm⟩

theorem ofChars_injective {first second : List Char} (same : ofChars first = ofChars second) :
    first = second := by
  have forth := (ofChars_prefix_iff first second).mp (by rw [same])
  have back := (ofChars_prefix_iff second first).mp (by rw [same])
  exact forth.eq_of_length_le back.length_le

@[simp] theorem ofText_inj {first second : String} :
    ofText first = ofText second ↔ first = second := by
  constructor
  · intro same
    exact String.toList_injective (ofChars_injective same)
  · rintro rfl
    rfl

/-- One text ends in another in characters exactly if it does in units: what comes before
cannot stop between two surrogates, as no text begins with a low one. -/
theorem ofChars_suffix_iff (first second : List Char) :
    ofChars first <:+ ofChars second ↔ first <:+ second := by
  constructor
  · rintro ⟨before, whole⟩
    induction second generalizing before with
    | nil =>
      have empty : ofChars first = [] := (List.append_eq_nil_iff.mp whole).2
      rw [(ofChars_eq_nil_iff first).mp empty]
    | cons char rest ih =>
      rw [ofChars_cons] at whole
      -- What comes before stops within the first character, or it goes past it.
      rcases List.append_eq_append_iff.mp whole with ⟨between, charEq, firstEq⟩ |
        ⟨between, _, restEq⟩
      · rcases ofChar_cut charEq with rfl | rfl | ⟨low, rfl, lower, upper⟩
        · have whole : ofChars first = ofChars (char :: rest) := by
            rw [ofChars_cons, charEq, firstEq, List.nil_append]
          rw [ofChars_injective whole]
        · rw [ofChars_injective firstEq]
          exact List.suffix_cons char rest
        · -- The ending would begin in the middle of a pair, as no text does.
          cases first with
          | nil => cases firstEq
          | cons other others =>
            rw [ofChars_cons, List.singleton_append] at firstEq
            have head := head_not_low firstEq
            omega
      · exact (ih between restEq.symm).trans (List.suffix_cons char rest)
  · rintro ⟨before, rfl⟩
    exact ⟨ofChars before, (ofChars_append before first).symm⟩

theorem mem_ofChars_iff {char : Char} {unit : UInt16} (basic : ofChar char = [unit])
    (own : unit.toNat < 0xD800) (chars : List Char) : unit ∈ ofChars chars ↔ char ∈ chars := by
  constructor
  · intro member
    obtain ⟨other, otherIn, unitIn⟩ := List.mem_flatMap.mp member
    by_cases beyond : other.toNat < 0x10000
    · obtain ⟨single, units, _⟩ := ofChar_basic beyond
      rw [units, List.mem_singleton] at unitIn
      subst unitIn
      have same : ofChar char ++ [] = ofChar other ++ [] := by rw [basic, units]
      rwa [(ofChar_append_inj same).1]
    · obtain ⟨high, low, units, highVal, lowVal⟩ := ofChar_pair beyond
      rw [units, List.mem_cons, List.mem_singleton] at unitIn
      rcases unitIn with rfl | rfl <;> omega
  · intro member
    exact List.mem_flatMap.mpr ⟨char, member, by simp [basic]⟩

theorem ofChar_slash : ofChar '/' = [slash] := rfl

theorem ofChar_dot : ofChar '.' = [dot] := rfl

theorem indexOf_eq_zero_iff (text part : Units) : indexOf text part = 0 ↔ part <+: text := by
  unfold indexOf
  rw [← List.isPrefixOf_iff_prefix]
  cases begins : part.isPrefixOf text with
  | true => simp [List.range_succ_eq_map, begins]
  | false =>
    simp only [Bool.false_eq_true, iff_false]
    split
    · rename_i position found
      have there := List.find?_some found
      cases position with
      | zero => simp [begins] at there
      | succ position => omega
    · omega

theorem indexOf_ne_neg_one_iff (text part : Units) :
    indexOf text part ≠ -1 ↔ part <:+: text := by
  unfold indexOf
  split
  · rename_i position found
    have there := List.find?_some found
    rw [List.isPrefixOf_iff_prefix] at there
    constructor
    · intro _
      exact there.isInfix.trans (List.drop_suffix position text).isInfix
    · intro _
      omega
  · rename_i missing
    simp only [List.find?_range_eq_none] at missing
    constructor
    · intro impossible
      exact absurd rfl impossible
    · rintro ⟨before, after, rfl⟩
      -- The search goes past every position, so it has looked where the part stands.
      have inside : before.length < (before ++ part ++ after).length + 1 := by
        rw [List.length_append, List.length_append]
        omega
      have here := missing before.length inside
      have begins : part.isPrefixOf (part ++ after) = true :=
        List.isPrefixOf_iff_prefix.mpr (List.prefix_append part after)
      rw [List.append_assoc, List.drop_left, begins] at here
      cases here

theorem indexOf_char_ne_neg_one_iff {char : Char} {unit : UInt16} (basic : ofChar char = [unit])
    (own : unit.toNat < 0xD800) (chars : List Char) :
    indexOf (ofChars chars) [unit] ≠ -1 ↔ char ∈ chars := by
  rw [indexOf_ne_neg_one_iff, List.singleton_infix_iff, mem_ofChars_iff basic own]

theorem charAt_last (text : Units) : charAt text (text.length - 1) = text.getLast?.toList := by
  unfold charAt
  cases text with
  | nil => rfl
  | cons unit rest =>
    have inside : ¬ ((unit :: rest).length : Int) - 1 < 0 := by
      rw [List.length_cons]
      omega
    have position : (((unit :: rest).length : Int) - 1).toNat = (unit :: rest).length - 1 := by
      omega
    rw [if_neg inside, position, List.getLast?_eq_getElem?]

theorem slice_dropLast (text : Units) : slice text 0 (some (-1)) = text.dropLast := by
  have start : clamp text 0 = 0 := by simp [clamp]
  have stop : clamp text (-1) = text.length - 1 := by
    unfold clamp
    split <;> omega
  simp only [slice, Option.getD_some, start, stop, List.drop_zero, Nat.sub_zero,
    List.dropLast_eq_take]

theorem slice_last (text ending : Units) (fits : ending.length ≤ text.length) :
    slice text (text.length - ending.length) = text.drop (text.length - ending.length) := by
  have start : clamp text (text.length - ending.length) = text.length - ending.length := by
    unfold clamp
    split <;> omega
  have stop : clamp text text.length = text.length := by
    unfold clamp
    split <;> omega
  simp only [slice, Option.getD_none, start, stop]
  apply List.take_of_length_le
  rw [List.length_drop]

theorem ends_iff (text ending : Units) :
    text.length ≥ ending.length ∧ slice text (text.length - ending.length) = ending ↔
      ending <:+ text := by
  constructor
  · rintro ⟨fits, same⟩
    rw [slice_last text ending fits] at same
    rw [← same]
    exact List.drop_suffix _ _
  · intro ends
    refine ⟨ends.length_le, ?_⟩
    rw [slice_last text ending ends.length_le]
    exact (List.suffix_iff_eq_drop.mp ends).symm

theorem split_append {separator : UInt16} {front : Units} (free : separator ∉ front)
    (rest : Units) :
    split (front ++ rest) separator = (split rest separator).modifyHead (front ++ ·) := by
  unfold split
  induction front with
  | nil =>
    rw [List.nil_append]
    cases List.splitOn separator rest <;> rfl
  | cons unit front ih =>
    rw [List.mem_cons, not_or] at free
    rw [List.cons_append, List.splitOn_cons_eq_if_modifyHead, ih free.2,
      if_neg (by simpa using Ne.symm free.1)]
    cases List.splitOn separator rest <;> rfl

/-- A text is cut at the same slashes in characters and in units. -/
theorem split_ofChars (chars : List Char) :
    split (ofChars chars) slash = (Path.splitSlash chars).map ofChars := by
  induction chars with
  | nil => rfl
  | cons char rest ih =>
    rw [ofChars_cons, Path.splitSlash]
    by_cases isSlash : char = '/'
    · subst isSlash
      rw [if_pos rfl, List.map_cons, ← ih, ofChar_slash]
      exact List.splitOn_cons_eq_if_modifyHead slash (ofChars rest)
    · -- A slash is a unit of its own, so it is not among those of another character.
      have free : slash ∉ ofChar char := by
        intro member
        have single : slash ∈ ofChars [char] := by simpa [ofChars] using member
        rw [mem_ofChars_iff ofChar_slash (by decide), List.mem_singleton] at single
        exact isSlash single.symm
      rw [if_neg isSlash, split_append free, ih]
      cases pieces : Path.splitSlash rest with
      | nil => exact absurd pieces (Path.splitSlash_ne_nil rest)
      | cons part others => simp [ofChars_cons]

end Units

end EdgeRoutes.Script
