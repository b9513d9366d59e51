import EdgeRoutes.Proofs.Json.Tokens
import Mathlib.Data.List.TakeDrop

/-! Reading the numerals of a source.

A numeral is read up to its end, whatever follows it, as long as no digit, point or letter of an
exponent does. It is a whole number exactly if it spells one, without fraction and exponent and
within 64 bits, and a floating-point number otherwise.
-/

set_option autoImplicit false

namespace EdgeRoutes.Json

/-- No number goes on here. -/
def Ends (rest : List Char) : Prop :=
  ∀ char ∈ rest.head?, char.isDigit = false ∧ char ≠ '.' ∧ char ≠ 'e' ∧ char ≠ 'E'

theorem Ends.nil : Ends [] := by simp [Ends]

theorem Ends.cons {char : Char} {rest : List Char}
    (other : char.isDigit = false ∧ char ≠ '.' ∧ char ≠ 'e' ∧ char ≠ 'E') :
    Ends (char :: rest) := by
  simpa [Ends] using other

def NoDigit (rest : List Char) : Prop := ∀ char ∈ rest.head?, char.isDigit = false

theorem Ends.noDigit {rest : List Char} (ends : Ends rest) : NoDigit rest :=
  fun char first => (ends char first).1

theorem NoDigit.dropWhile {rest : List Char} (noDigit : NoDigit rest) :
    rest.dropWhile Char.isDigit = rest := by
  cases rest with
  | nil => rfl
  | cons char rest => simp [List.dropWhile, noDigit char rfl]

theorem NoDigit.takeWhile {rest : List Char} (noDigit : NoDigit rest) :
    rest.takeWhile Char.isDigit = [] := by
  cases rest with
  | nil => rfl
  | cons char rest => simp [List.takeWhile, noDigit char rfl]

theorem NoDigit.any_head? {rest : List Char} (noDigit : NoDigit rest) :
    rest.head?.any Char.isDigit = false := by
  cases found : rest.head? with
  | none => rfl
  | some char => exact noDigit char found

theorem Digits.dropWhile (digits : Digits) {rest : List Char} (noDigit : NoDigit rest) :
    (digits.chars ++ rest).dropWhile Char.isDigit = rest := by
  rw [List.dropWhile_append_of_pos digits.digits, noDigit.dropWhile]

theorem Digits.span (digits : Digits) {rest : List Char} (noDigit : NoDigit rest) :
    (digits.chars ++ rest).span Char.isDigit = (digits.chars, rest) := by
  rw [List.span_eq_takeWhile_dropWhile, digits.dropWhile noDigit,
    List.takeWhile_append_of_pos digits.digits, noDigit.takeWhile, List.append_nil]

namespace Numeral

theorem noDigit_exponentChars (numeral : Numeral) {rest : List Char} (noDigit : NoDigit rest) :
    NoDigit (numeral.exponentChars ++ rest) := by
  unfold exponentChars
  cases numeral.exponent with
  | none => exact noDigit
  | some exponent =>
    obtain ⟨capital, sign, digits⟩ := exponent
    cases capital <;> simp [NoDigit, Exponent.chars]

theorem noDigit_suffix (numeral : Numeral) {rest : List Char} (noDigit : NoDigit rest) :
    NoDigit (numeral.suffix ++ rest) := by
  unfold suffix
  cases numeral.fraction with
  | none => exact numeral.noDigit_exponentChars noDigit
  | some digits => simp [NoDigit]

end Numeral

namespace Scan

theorem number_unsigned (positive : Bool) (numeral : Numeral) {rest : List Char}
    (noDigit : NoDigit rest) :
    number positive (numeral.unsigned ++ rest) =
      afterDigits positive numeral.whole.chars (numeral.suffix ++ rest) := by
  have behind := numeral.noDigit_suffix noDigit
  have split := numeral.whole.span behind
  obtain ⟨first, others, chars, digit⟩ := numeral.whole.exists_cons
  rw [Numeral.unsigned_append chars]
  -- Behind a leading zero the scanner looks whether there is another digit.
  by_cases zero : first = '0'
  · subst zero
    cases Numeral.single_of_zero chars
    simp only [number, List.nil_append, behind.any_head?, chars]
    rfl
  · rw [chars, List.cons_append] at split
    unfold number
    split
    · simp_all
    · simp_all
    · simp_all

theorem float_ne_integer (positive : Bool) (significand : Nat) (exponent : Int)
    (rest : List Char) (value : Int) (after : List Char) :
    float positive significand exponent rest ≠ .ok (.integer value, after) := by
  unfold float
  cases scaled? 4 significand.toUInt64.toFloat exponent <;> simp

/-- A reading of digits with a fraction or an exponent: its result does not depend on what
follows, and is not a whole number. -/
structure Floating (read : List Char → Except Fault (Number × List Char)) : Prop where
  alone : ∀ rest, Ends rest →
    (read rest).toOption = (read []).toOption.map fun found => (found.1, rest)
  apart : ∀ value after, read [] ≠ .ok (.integer value, after)

theorem float_floating (positive : Bool) (significand : Nat) (exponent : Int) :
    Floating (float positive significand exponent) where
  alone rest _ := by
    unfold float
    cases scaled? 4 significand.toUInt64.toFloat exponent <;> rfl
  apart := float_ne_integer positive significand exponent []

theorem exponentDigits_floating (positive : Bool) (significand : Nat) (shift : Int) (rises : Bool)
    (digits : Digits) :
    Floating fun rest =>
      exponentDigits positive significand shift rises (digits.chars ++ rest) := by
  obtain ⟨first, others, chars, digit⟩ := digits.exists_cons
  have read {rest : List Char} (ends : Ends rest) := digits.span ends.noDigit
  simp only [chars, List.cons_append] at read ⊢
  unfold exponentDigits
  simp only [if_pos digit]
  constructor
  · intro rest ends
    simp only [read ends, read Ends.nil]
    rcases accumulate largestExponent 0 (first :: others) with ⟨power, _ | ⟨next, unread⟩⟩
    · exact (float_floating ..).alone rest ends
    · simp only
      split <;> rfl
  · intro value after
    simp only [read Ends.nil]
    rcases accumulate largestExponent 0 (first :: others) with ⟨power, _ | ⟨next, unread⟩⟩
    · exact (float_floating ..).apart value after
    · simp only
      split <;> simp

theorem exponentPart_floating (positive : Bool) (significand : Nat) (shift : Int)
    (exponent : Exponent) :
    Floating fun rest => exponentPart positive significand shift (exponent.power ++ rest) := by
  obtain ⟨capital, sign, digits⟩ := exponent
  cases sign with
  | some negative => cases negative <;> exact exponentDigits_floating _ _ _ _ digits
  | none =>
    obtain ⟨first, others, chars, digit⟩ := digits.exists_cons
    have unsigned (rest : List Char) :
        exponentPart positive significand shift (digits.chars ++ rest) =
          exponentDigits positive significand shift true (digits.chars ++ rest) := by
      rw [chars]
      unfold exponentPart
      split
      · simp_all
      · simp_all
      · rfl
    simpa only [Exponent.power, Option.map_none, Option.toList_none, List.nil_append, unsigned]
      using exponentDigits_floating _ _ _ _ digits

theorem fractionPart_digits (positive : Bool) (significand : Nat) (shift : Int) (digits : Digits) :
    ∃ (taken : Nat) (moved : Int),
      (∀ (exponent : Exponent) (rest : List Char),
        fractionPart positive significand shift (digits.chars ++ (exponent.chars ++ rest)) =
          exponentPart positive taken moved (exponent.power ++ rest)) ∧
      ∀ rest, Ends rest →
        fractionPart positive significand shift (digits.chars ++ rest) =
          float positive taken moved rest := by
  have nonempty : digits.chars.isEmpty = false := by simp [digits.nonempty]
  -- Digits beyond the largest significand are dropped, and only those taken move the point.
  rcases found : accumulate largestSignificand significand digits.chars with ⟨taken, dropped⟩
  refine ⟨taken, shift - (digits.chars.length - dropped.length : Nat), ?_, ?_⟩
  · rintro ⟨capital, sign, power⟩ rest
    have letter : NoDigit ((Exponent.mk capital sign power).chars ++ rest) := by
      cases capital <;> simp [NoDigit, Exponent.chars]
    have read := digits.span letter
    simp only [fractionPart, read, nonempty, found]
    cases capital <;> rfl
  · intro rest ends
    simp only [fractionPart, digits.span ends.noDigit, nonempty, found]
    split
    · contradiction
    · split
      · simp [Ends] at ends
      · simp [Ends] at ends
      · rfl

theorem Floating.of_eq {read other : List Char → Except Fault (Number × List Char)}
    (floating : Floating read) (same : ∀ rest, Ends rest → other rest = read rest) :
    Floating other where
  alone rest ends := by rw [same rest ends, same [] Ends.nil, floating.alone rest ends]
  apart value after := by rw [same [] Ends.nil]; exact floating.apart value after

theorem fractionPart_floating (positive : Bool) (significand : Nat) (shift : Int) (digits : Digits)
    (numeral : Numeral) :
    Floating fun rest =>
      fractionPart positive significand shift
        (digits.chars ++ (numeral.exponentChars ++ rest)) := by
  obtain ⟨taken, moved, withExponent, without⟩ :=
    fractionPart_digits positive significand shift digits
  unfold Numeral.exponentChars
  cases numeral.exponent with
  | some exponent =>
    exact (exponentPart_floating positive taken moved exponent).of_eq
      fun rest _ => withExponent exponent rest
  | none => exact (float_floating positive taken moved).of_eq without

theorem afterDigits_floating (positive : Bool) {numeral : Numeral}
    (longer : ¬ (numeral.fraction = none ∧ numeral.exponent = none)) :
    Floating fun rest => afterDigits positive numeral.whole.chars (numeral.suffix ++ rest) := by
  unfold Numeral.suffix
  cases fraction : numeral.fraction with
  | some digits =>
    apply (fractionPart_floating positive _ _ digits numeral).of_eq
    intro rest _
    simp only [Option.map_some, Option.getD_some, List.cons_append, List.append_assoc]
    rfl
  | none =>
    unfold Numeral.exponentChars
    cases power : numeral.exponent with
    | some exponent =>
      apply (exponentPart_floating positive _ _ exponent).of_eq
      intro rest _
      obtain ⟨capital, sign, digits⟩ := exponent
      cases capital <;> rfl
    | none => exact absurd ⟨fraction, power⟩ longer

theorem afterDigits_ends (positive : Bool) (digits : List Char) {rest : List Char}
    (ends : Ends rest) :
    afterDigits positive digits rest =
      if (accumulate largestSignificand 0 digits).2.isEmpty then
        .ok (whole positive (accumulate largestSignificand 0 digits).1, rest)
      else
        float positive (accumulate largestSignificand 0 digits).1
          (accumulate largestSignificand 0 digits).2.length rest := by
  unfold afterDigits
  rcases accumulate largestSignificand 0 digits with ⟨significand, dropped⟩
  simp only
  split
  · simp [Ends] at ends
  · simp [Ends] at ends
  · simp [Ends] at ends
  · rfl

theorem le_ofDigitChars (total : Nat) (digits : List Char) :
    total ≤ Nat.ofDigitChars 10 digits total := by
  induction digits generalizing total with
  | nil => exact Nat.le_refl _
  | cons digit digits ih =>
    rw [Nat.ofDigitChars_cons]
    have := ih (10 * total + (digit.toNat - '0'.toNat))
    omega

theorem accumulate_cases (limit total : Nat) (digits : List Char) (within : total ≤ limit) :
    (Nat.ofDigitChars 10 digits total ≤ limit ∧
      accumulate limit total digits = (Nat.ofDigitChars 10 digits total, [])) ∨
    (limit < Nat.ofDigitChars 10 digits total ∧
      (accumulate limit total digits).2.isEmpty = false) := by
  induction digits generalizing total with
  | nil => exact Or.inl ⟨within, rfl⟩
  | cons digit digits ih =>
    rw [Nat.ofDigitChars_cons, accumulate]
    by_cases beyond : limit < 10 * total + (digit.toNat - '0'.toNat)
    · have value := le_ofDigitChars (10 * total + (digit.toNat - '0'.toNat)) digits
      refine Or.inr ⟨Nat.lt_of_lt_of_le beyond value, ?_⟩
      rw [if_pos beyond]
      rfl
    · rw [if_neg beyond]
      exact ih _ (Nat.le_of_not_lt beyond)

theorem whole_eq_integer_iff {numeral : Numeral} (fraction : numeral.fraction = none)
    (exponent : numeral.exponent = none) (within : numeral.magnitude ≤ largestSignificand)
    (value : Int) :
    whole (!numeral.negative) numeral.magnitude = .integer value ↔ numeral.Spells value := by
  have largest : largestSignificand = 18446744073709551615 := rfl
  have signed : Nat.pow 2 63 = 9223372036854775808 := rfl
  have unsigned : Nat.pow 2 64 = 18446744073709551616 := rfl
  unfold whole
  cases sign : numeral.negative with
  | false =>
    simp only [Bool.not_false, if_true, Number.integer.injEq]
    constructor
    · rintro rfl
      exact ⟨fraction, exponent, by simp [sign], by simp [sign], by omega, by omega⟩
    · intro spells
      simpa [sign] using spells.signed.symm
  | true =>
    simp only [Bool.not_true, Bool.false_eq_true, if_false, Bool.and_eq_true, decide_eq_true_eq]
    split
    case isTrue fits =>
      rw [Number.integer.injEq]
      constructor
      · rintro rfl
        exact ⟨fraction, exponent, by simp [sign], fun _ => by omega, by omega, by omega⟩
      · intro spells
        simpa [sign] using spells.signed.symm
    -- Minus zero, or below the least integer: a float, and no integer spells it.
    case isFalse misfit =>
      constructor
      · intro same
        cases same
      · intro spells
        have value := spells.signed
        have nonzero := spells.nonzero sign
        have lower := spells.lower
        rw [if_pos sign] at value
        omega

/-- A whole number is read as what it spells, and as a floating-point number if it has no place
among the whole numbers. -/
theorem afterDigits_integer_iff {numeral : Numeral} (fraction : numeral.fraction = none)
    (exponent : numeral.exponent = none) (value : Int) {rest : List Char} (ends : Ends rest)
    (after : List Char) :
    afterDigits (!numeral.negative) numeral.whole.chars rest = .ok (.integer value, after) ↔
      numeral.Spells value ∧ after = rest := by
  rw [afterDigits_ends _ _ ends]
  have magnitude : numeral.magnitude = Nat.ofDigitChars 10 numeral.whole.chars 0 := rfl
  rcases accumulate_cases largestSignificand 0 numeral.whole.chars (Nat.zero_le _) with
    ⟨within, read⟩ | ⟨beyond, dropped⟩
  · rw [← magnitude] at within read
    rw [read, ← whole_eq_integer_iff fraction exponent within value]
    simp [eq_comm]
  · -- Some digits have been dropped, so what is left of the others is a float.
    rw [if_neg (by simp [dropped])]
    constructor
    · intro read
      exact absurd read (float_ne_integer _ _ _ _ _ _)
    · rintro ⟨spells, _⟩
      have upper := spells.upper
      have lower := spells.lower
      have signed := spells.signed
      have largest : largestSignificand = 18446744073709551615 := rfl
      have half : Nat.pow 2 63 = 9223372036854775808 := rfl
      have full : Nat.pow 2 64 = 18446744073709551616 := rfl
      rw [← magnitude] at beyond
      split at signed <;> omega

end Scan

/-- The numeral is a way to write the number. What floating-point number a fraction or an
exponent gives is left to the scanner. -/
inductive Numeral.Denotes (numeral : Numeral) : Number → Prop where
  | integer {value : Int} (spells : numeral.Spells value) : Denotes numeral (.integer value)
  | float {value : Float}
      (read : Scan.number (!numeral.negative) numeral.unsigned = .ok (.float value, [])) :
      Denotes numeral (.float value)

namespace Scan

theorem number_alone (positive : Bool) (numeral : Numeral) {rest : List Char} (ends : Ends rest) :
    (number positive (numeral.unsigned ++ rest)).toOption =
      (number positive numeral.unsigned).toOption.map fun read => (read.1, rest) := by
  have empty := number_unsigned positive numeral Ends.nil.noDigit
  rw [List.append_nil] at empty
  rw [number_unsigned positive numeral ends.noDigit, empty]
  by_cases short : numeral.fraction = none ∧ numeral.exponent = none
  · obtain ⟨fraction, exponent⟩ := short
    have suffix : numeral.suffix = [] := by
      simp [Numeral.suffix, Numeral.exponentChars, fraction, exponent]
    rw [suffix, List.append_nil, List.nil_append, afterDigits_ends positive _ ends,
      afterDigits_ends positive _ Ends.nil]
    split
    · rfl
    · exact (float_floating ..).alone rest ends
  · exact (afterDigits_floating positive short).alone rest ends

theorem number_integer_iff (numeral : Numeral) (value : Int) :
    number (!numeral.negative) numeral.unsigned = .ok (.integer value, []) ↔
      numeral.Spells value := by
  have empty := number_unsigned (!numeral.negative) numeral Ends.nil.noDigit
  rw [List.append_nil] at empty
  rw [empty]
  by_cases short : numeral.fraction = none ∧ numeral.exponent = none
  · obtain ⟨fraction, exponent⟩ := short
    have suffix : numeral.suffix = [] := by
      simp [Numeral.suffix, Numeral.exponentChars, fraction, exponent]
    rw [suffix, List.append_nil, afterDigits_integer_iff fraction exponent value Ends.nil]
    simp
  · constructor
    · intro read
      exact absurd read ((afterDigits_floating _ short).apart value [])
    · intro spells
      exact absurd ⟨spells.noFraction, spells.noExponent⟩ short

/-- A numeral is read as the number that it denotes, up to its end. -/
theorem number_iff (numeral : Numeral) {rest : List Char} (ends : Ends rest)
    (found : Number × List Char) :
    number (!numeral.negative) (numeral.unsigned ++ rest) = .ok found ↔
      numeral.Denotes found.1 ∧ found.2 = rest := by
  have alone : number (!numeral.negative) numeral.unsigned = .ok (found.1, []) ↔
      numeral.Denotes found.1 := by
    obtain ⟨integer | float, after⟩ := found
    · rw [number_integer_iff]
      constructor
      · exact .integer
      · rintro ⟨spells⟩
        exact spells
    · constructor
      · exact .float
      · rintro (_ | read)
        exact read
  -- What follows the number changes nothing, so it is enough to read it alone.
  have here := number_alone (!numeral.negative) numeral Ends.nil
  rw [← alone, ← toOption_eq_some, ← toOption_eq_some, number_alone _ numeral ends]
  rw [List.append_nil] at here
  cases read : (number (!numeral.negative) numeral.unsigned).toOption with
  | none => simp
  | some result =>
    obtain ⟨number', after⟩ := result
    have nothing : after = [] := by simpa [read] using here
    simp only [Option.map_some, Option.some_inj, nothing, Prod.ext_iff, and_true]
    rw [eq_comm (a := rest)]

end Scan
end EdgeRoutes.Json