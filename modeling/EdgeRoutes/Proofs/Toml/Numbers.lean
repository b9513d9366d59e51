import EdgeRoutes.Proofs.Toml.Dates
import Mathlib.Data.Option.Basic

/-! Reading the numbers of a TOML text.

A decimal number goes on with a fraction and an exponent where they fit. It is no date, because
neither a minus nor a colon stands behind the digits it begins with.
-/

set_option autoImplicit false

namespace EdgeRoutes.Toml

open Json (HexDigit)
open Grammar

variable {text rest chars : List Char} {digits : List HexDigit} {item : Item} {negative : Bool}

theorem integer?_eq_some_iff {value : Int} : integer? value = some item ↔
    item = .integer value ∧ -integerBound ≤ value ∧ value < integerBound := by
  unfold integer?
  split
  next fits => simp [fits, eq_comm]
  next tooLarge => exact iff_of_false nofun fun found => tooLarge found.2

theorem digits_of_leadingDigits (read : leadingDigits text = (chars, rest))
    (nonempty : chars.isEmpty = false) :
    ∃ digits, chars = digits.map HexDigit.char ∧ Digits 10 text digits rest ∧ Canonical digits := by
  unfold leadingDigits at read
  split at read
  · cases read
    exact ⟨[⟨0, false⟩], rfl, @Digits.last 10 ⟨0, false⟩ rest (by decide), fun _ _ _ => rfl⟩
  next noZero =>
    obtain ⟨digits, same, written⟩ := isDigit_test.digits_of_digitGroups read nonempty
    refine ⟨digits, same, written, fun digit first zero => ?_⟩
    obtain ⟨head, more, begins, known, _⟩ := written.head_digit
    rw [known] at first
    cases first
    exact absurd (begins.trans (by rw [(char_eq_zero_iff digit).mpr zero])) (noZero more)

theorem digits_of_fractionDigits? (read : fractionDigits? text = some (chars, rest)) :
    ∃ digits more, text = '.' :: more ∧ chars = digits.map HexDigit.char ∧
      Digits 10 more digits rest := by
  unfold fractionDigits? at read
  split at read
  next more =>
    cases known : digitGroups Char.isDigit false more with
    | mk found behind =>
      rw [known] at read
      dsimp only at read
      split at read
      · cases read
      next nonempty =>
        cases read
        obtain ⟨digits, same, written⟩ :=
          isDigit_test.digits_of_digitGroups known (by simpa using nonempty)
        exact ⟨digits, more, rfl, same, written⟩
  · cases read

theorem digits_of_power? {power : Int} (read : power? negative text = some (power, rest)) :
    ∃ digits, power = signed negative digits ∧ Digits 10 text digits rest := by
  unfold power? at read
  cases known : digitGroups Char.isDigit false text with
  | mk found behind =>
    rw [known] at read
    dsimp only at read
    split at read
    · cases read
    next nonempty =>
      cases read
      obtain ⟨digits, rfl, written⟩ :=
        isDigit_test.digits_of_digitGroups known (by simpa using nonempty)
      refine ⟨digits, ?_, written⟩
      rw [valueOf_digits, signed]

theorem exponent_of_power? {power : Int} {letter : Char} {behind : List Char}
    (known : letter ∈ ['e', 'E']) (sign : Sign negative behind text)
    (read : power? negative text = some (power, rest)) :
    Exponent power (letter :: behind) rest := by
  obtain ⟨digits, rfl, written⟩ := digits_of_power? read
  exact .power known sign written

theorem exponent_of_exponent? {power : Int} (read : exponent? text = some (power, rest)) :
    Exponent power text rest := by
  unfold exponent? at read
  split at read
  · exact exponent_of_power? (by decide) .minus read
  · exact exponent_of_power? (by decide) .minus read
  · exact exponent_of_power? (by decide) .plus read
  · exact exponent_of_power? (by decide) .plus read
  · exact exponent_of_power? (by decide) .none read
  · exact exponent_of_power? (by decide) .none read
  · cases read

/-- A decimal number is whole, or has a fraction or an exponent behind its digits. -/
theorem digits_of_decimal? (read : decimal? negative text = some (item, rest)) :
    ∃ digits point, Digits 10 text digits point ∧ Canonical digits ∧
      (point = rest ∧ integer? (signed negative digits) = some item ∨
        ∃ fraction power, Tail fraction power point rest ∧
          float? negative (digits.map HexDigit.char) (fraction.map HexDigit.char) power =
            some item) := by
  unfold decimal? at read
  cases known : leadingDigits text with
  | mk whole point =>
    rw [known] at read
    dsimp only at read
    split at read
    · cases read
    next nonempty =>
      obtain ⟨digits, rfl, written, canonical⟩ :=
        digits_of_leadingDigits known (by simpa using nonempty)
      refine ⟨digits, point, written, canonical, ?_⟩
      split at read
      next fraction behind found =>
        obtain ⟨item, value, same⟩ := Option.bind_eq_some_iff.mp read
        cases same
        obtain ⟨fraction, more, rfl, rfl, follows⟩ := digits_of_fractionDigits? found
        cases more : exponent? behind with
        | none =>
          rw [more] at value
          exact .inr ⟨fraction, 0, .fraction follows, value⟩
        | some ending =>
          rw [more] at value
          exact .inr ⟨fraction, ending.1, .both follows (exponent_of_exponent? more), value⟩
      next =>
        split at read
        next power behind found =>
          obtain ⟨item, value, same⟩ := Option.bind_eq_some_iff.mp read
          cases same
          exact .inr ⟨[], power, .exponent (exponent_of_exponent? found), value⟩
        next =>
          obtain ⟨item, value, same⟩ := Option.bind_eq_some_iff.mp read
          cases same
          rw [valueOf_digits] at value
          exact .inl ⟨rfl, value⟩

theorem numeral_of_signed {unsigned : List Char} (sign : Sign negative text unsigned)
    (read : (decimal? negative unsigned <|> special? negative unsigned) = some (item, rest)) :
    Numeral item text rest := by
  rw [Option.orElse_eq_some] at read
  rcases read with read | ⟨_, read⟩
  · obtain ⟨digits, point, written, canonical, ⟨rfl, value⟩ | ⟨fraction, power, tail, value⟩⟩ :=
      digits_of_decimal? read
    · obtain ⟨rfl, least, greatest⟩ := integer?_eq_some_iff.mp value
      exact .integer (.decimal sign written canonical) least greatest
    · exact .floating (.decimal sign written canonical tail value)
  · unfold special? at read
    split at read
    · cases read
      exact .floating (.infinite sign)
    · cases read
      exact .floating (.undefined sign)
    · cases read

theorem integer_of_based? {letter : Char} {base : Nat} {isDigit : Char → Bool}
    (test : DigitTest base isDigit) (known : (letter, base) ∈ [('x', 16), ('o', 8), ('b', 2)])
    (read : based? base isDigit text = some (item, rest)) :
    Numeral item ('0' :: letter :: text) rest := by
  unfold based? at read
  cases groups : digitGroups isDigit false text with
  | mk found behind =>
    rw [groups] at read
    dsimp only at read
    split at read
    · cases read
    next nonempty =>
      obtain ⟨item, value, same⟩ := Option.bind_eq_some_iff.mp read
      cases same
      obtain ⟨digits, rfl, written⟩ := test.digits_of_digitGroups groups (by simpa using nonempty)
      rw [valueOf_digits] at value
      obtain ⟨rfl, least, greatest⟩ := integer?_eq_some_iff.mp value
      exact .integer (.based known written) least greatest

theorem numeral_of_number? (read : number? text = some (item, rest)) : Numeral item text rest := by
  unfold number? at read
  split at read
  next found =>
    cases read
    exact .moment (moment_of_datetime? found)
  next =>
    split at read
    · exact integer_of_based? isHex_test (by decide) read
    · exact integer_of_based? isOctal_test (by decide) read
    · exact integer_of_based? isBinary_test (by decide) read
    · exact numeral_of_signed .plus read
    · exact numeral_of_signed .minus read
    · exact numeral_of_signed .none read

/-- The digits of a decimal number end here, be it that its fraction or its exponent follows. -/
def DecimalEnds (rest : List Char) : Prop :=
  ∀ char, rest.head? = some char →
    char ∈ [' ', '\t', '#', '\n', ',', ']', '\x7d', '.', 'e', 'E']

theorem DecimalEnds.digitsEnd (ends : DecimalEnds rest) : DigitsEnd Char.isDigit rest := by
  intro char head
  have member := ends char head
  revert member
  generalize known : [' ', '\t', '#', '\n', ',', ']', '\x7d', '.', 'e', 'E'] = signs
  have apart : signs.all (fun char => !char.isDigit && char != '_') = true := by
    rw [← known]
    decide
  intro member
  simpa using List.all_eq_true.mp apart char member

namespace Grammar

theorem Ends.decimalEnds (ends : Ends rest) : DecimalEnds rest := fun char head =>
  List.mem_append_left ['.', 'e', 'E'] (ends.head char head)

theorem Ends.digitsEnd {base : Nat} {isDigit : Char → Bool} (test : DigitTest base isDigit)
    (ends : Ends rest) : DigitsEnd isDigit rest := by
  have other (digit : HexDigit) : digit.char ∉ [' ', '\t', '#', '\n', ',', ']', '\x7d'] := by
    obtain ⟨value, capital⟩ := digit
    revert value capital
    decide
  intro char head
  have member := ends.head char head
  constructor
  · by_contra holds
    obtain ⟨digit, _, rfl⟩ := test.found char (by simpa using holds)
    exact other digit member
  · rintro rfl
    exact absurd member (by decide)

theorem Exponent.decimalEnds {power : Int} (exponent : Exponent power text rest) :
    DecimalEnds text := by
  cases exponent with
  | power known sign written =>
    intro char head
    cases head
    exact List.mem_append_right [' ', '\t', '#', '\n', ',', ']', '\x7d', '.'] known

theorem Tail.decimalEnds {power : Int} (tail : Tail digits power text rest) :
    DecimalEnds text := by
  cases tail with
  | fraction written =>
    intro char head
    cases head
    decide
  | exponent exponent => exact exponent.decimalEnds
  | both written exponent =>
    intro char head
    cases head
    decide

theorem Digits.eq_cons_of_zero (written : Digits 10 text digits rest)
    (canonical : Canonical digits) {more : List Char} (zero : text = '0' :: more) :
    more = rest ∧ digits.map HexDigit.char = ['0'] := by
  cases written with
  | @last digit rest small =>
    obtain ⟨first, rfl⟩ := List.cons.inj zero
    simp [first]
  | @next digit digits text rest small written =>
    have value : (digit.value : Nat) = 0 := (char_eq_zero_iff digit).mp (List.cons.inj zero).1
    have alone := canonical digit rfl value
    exact absurd (List.eq_nil_of_length_eq_zero (by simpa using alone)) written.ne_nil
  | @underscore digit digits text rest small written =>
    have value : (digit.value : Nat) = 0 := (char_eq_zero_iff digit).mp (List.cons.inj zero).1
    have alone := canonical digit rfl value
    exact absurd (List.eq_nil_of_length_eq_zero (by simpa using alone)) written.ne_nil

theorem Digits.leadingDigits_eq (written : Digits 10 text digits rest)
    (canonical : Canonical digits) (ends : DecimalEnds rest) :
    leadingDigits text = (digits.map HexDigit.char, rest) := by
  unfold leadingDigits
  split
  next more =>
    obtain ⟨rfl, only⟩ := written.eq_cons_of_zero canonical rfl
    rw [only]
  next => exact written.digitGroups_eq isDigit_test ends.digitsEnd false

theorem Digits.fractionDigits?_eq (written : Digits 10 text digits rest)
    (ends : DecimalEnds rest) :
    fractionDigits? ('.' :: text) = some (digits.map HexDigit.char, rest) := by
  simp [fractionDigits?, written.digitGroups_eq isDigit_test ends.digitsEnd, written.ne_nil]

theorem Digits.power?_eq (written : Digits 10 text digits rest) (ends : DecimalEnds rest) :
    power? negative text = some (signed negative digits, rest) := by
  simp [power?, written.digitGroups_eq isDigit_test ends.digitsEnd, written.ne_nil, valueOf_digits,
    signed]

theorem Digits.unsigned {base : Nat} (written : Digits base text digits rest) :
    ∃ first more, text = first :: more ∧ first ≠ '+' ∧ first ≠ '-' := by
  have apart (digit : HexDigit) : digit.char ≠ '+' ∧ digit.char ≠ '-' := by
    obtain ⟨value, capital⟩ := digit
    revert value capital
    decide
  obtain ⟨digit, more, rfl, _⟩ := written.head_digit
  exact ⟨digit.char, more, rfl, apart digit⟩

theorem Exponent.exponent?_eq {power : Int} (exponent : Exponent power text rest)
    (ends : DecimalEnds rest) : exponent? text = some (power, rest) := by
  cases exponent with
  | @power letter negative digits text unsigned rest known sign written =>
    have read := @Digits.power?_eq _ _ _ negative written ends
    simp only [List.mem_cons, List.not_mem_nil, or_false] at known
    cases sign with
    | plus => rcases known with rfl | rfl <;> exact read
    | minus => rcases known with rfl | rfl <;> exact read
    | none =>
      obtain ⟨first, more, rfl, noPlus, noMinus⟩ := written.unsigned
      rcases known with rfl | rfl <;> simp [exponent?, noPlus, noMinus, read]

theorem Ends.fractionDigits?_eq (ends : Ends rest) : fractionDigits? rest = none := by
  unfold fractionDigits?
  split
  next => exact absurd (ends.head '.' rfl) (by decide)
  next => rfl

theorem Exponent.fractionDigits?_eq {power : Int} (exponent : Exponent power text rest) :
    fractionDigits? text = none := by
  cases exponent with
  | power known sign written =>
    simp only [List.mem_cons, List.not_mem_nil, or_false] at known
    rcases known with rfl | rfl <;> rfl

theorem Ends.exponent?_eq (ends : Ends rest) : exponent? rest = none := by
  unfold exponent?
  split
  all_goals first
    | exact absurd (ends.head 'e' rfl) (by decide)
    | exact absurd (ends.head 'E' rfl) (by decide)
    | rfl

theorem Digits.decimal?_eq (written : Digits 10 text digits rest) (canonical : Canonical digits)
    (ends : Ends rest) :
    decimal? negative text = (integer? (signed negative digits)).map fun item => (item, rest) := by
  simp only [decimal?, written.leadingDigits_eq canonical ends.decimalEnds, written.isEmpty_eq,
    ends.fractionDigits?_eq, ends.exponent?_eq, valueOf_digits, signed]
  cases integer? _ <;> rfl

theorem Tail.decimal?_eq {fraction : List HexDigit} {power : Int} {point : List Char}
    (tail : Tail fraction power point rest) (written : Digits 10 text digits point)
    (canonical : Canonical digits) (ends : Ends rest)
    (value : float? negative (digits.map HexDigit.char) (fraction.map HexDigit.char) power =
      some item) : decimal? negative text = some (item, rest) := by
  simp only [decimal?, written.leadingDigits_eq canonical tail.decimalEnds, written.isEmpty_eq]
  cases tail with
  | fraction follows =>
    simp [follows.fractionDigits?_eq ends.decimalEnds, ends.exponent?_eq, value]
  | exponent exponent =>
    rw [List.map_nil] at value
    simp [exponent.fractionDigits?_eq, exponent.exponent?_eq ends.decimalEnds, value]
  | both follows exponent =>
    simp [follows.fractionDigits?_eq exponent.decimalEnds,
      exponent.exponent?_eq ends.decimalEnds, value]

/-- A number without a sign is read as a decimal one if it is no date and has no base. -/
theorem Sign.number?_eq {unsigned : List Char} (sign : Sign negative text unsigned)
    {first : Char} {more : List Char} (begins : unsigned = first :: more)
    (noSign : first ≠ '+' ∧ first ≠ '-') (noDate : datetime? unsigned = .none)
    (noBase : first = '0' → ∀ letter, more.head? = some letter → letter ∉ ['x', 'o', 'b']) :
    number? text = (decimal? negative unsigned <|> special? negative unsigned) := by
  subst begins
  cases sign with
  | plus => simp [number?, datetime?_cons_eq_none (show '+'.isDigit = false from rfl)]
  | minus => simp [number?, datetime?_cons_eq_none (show '-'.isDigit = false from rfl)]
  | none =>
    unfold number?
    rw [noDate]
    dsimp only
    -- All forms but the decimal one begin otherwise.
    split
    next same =>
      cases same
      exact absurd (by decide) (noBase rfl 'x' rfl)
    next same =>
      cases same
      exact absurd (by decide) (noBase rfl 'o' rfl)
    next same =>
      cases same
      exact absurd (by decide) (noBase rfl 'b' rfl)
    next same => exact absurd (List.cons.inj same).1 noSign.1
    next same => exact absurd (List.cons.inj same).1 noSign.2
    next => rfl

/-- The first digits of a decimal number are followed by an underscore, or all its digits by
what may follow them. -/
theorem Digits.datetime?_eq (written : Digits 10 text digits rest) (ends : DecimalEnds rest) :
    datetime? text = none := by
  refine datetime?_eq_none ?_
  induction written with
  | @last digit rest small =>
    rw [List.dropWhile_cons_of_pos (isDigit_test.digit digit small)]
    intro char head
    cases rest with
    | nil => cases head
    | cons first rest =>
      have member := ends first rfl
      rw [List.dropWhile_cons_of_neg (by simp [ends.digitsEnd first rfl])] at head
      cases head
      constructor <;> (rintro rfl; exact absurd member (by decide))
  | next small more ih =>
    rw [List.dropWhile_cons_of_pos (isDigit_test.digit _ small)]
    exact ih ends
  | underscore small more ih =>
    rw [List.dropWhile_cons_of_pos (isDigit_test.digit _ small),
      List.dropWhile_cons_of_neg (by decide)]
    intro char head
    cases head
    decide

theorem Digits.number?_eq (written : Digits 10 text digits rest) (canonical : Canonical digits)
    (ends : DecimalEnds rest) {signed : List Char} (sign : Sign negative signed text) :
    number? signed = (decimal? negative text <|> special? negative text) := by
  have noDate := written.datetime?_eq ends
  obtain ⟨first, more, rfl, noSign⟩ := written.unsigned
  refine sign.number?_eq rfl noSign noDate ?_
  rintro rfl letter head known
  obtain ⟨rfl, _⟩ := written.eq_cons_of_zero canonical rfl
  have member := ends letter head
  simp only [List.mem_cons, List.not_mem_nil, or_false] at known
  rcases known with rfl | rfl | rfl <;> exact absurd member (by decide)

theorem Digits.based?_eq {base : Nat} {isDigit : Char → Bool} (test : DigitTest base isDigit)
    (written : Digits base text digits rest) (ends : Ends rest)
    (value : integer? (number base digits) = some item) :
    based? base isDigit text = some (item, rest) := by
  simp [based?, written.digitGroups_eq test (ends.digitsEnd test), written.ne_nil, valueOf_digits,
    value]

theorem Integer.number?_eq {value : Int} (written : Integer value text rest) (ends : Ends rest)
    (least : -integerBound ≤ value) (greatest : value < integerBound) :
    number? text = some (.integer value, rest) := by
  have fits := integer?_eq_some_iff.mpr ⟨rfl, least, greatest⟩
  cases written with
  | decimal sign written canonical =>
    rw [written.number?_eq canonical ends.decimalEnds sign, written.decimal?_eq canonical ends,
      fits]
    rfl
  | @based letter base digits text rest known written =>
    have noDate : datetime? ('0' :: letter :: text) = none := by
      refine datetime?_eq_none ?_
      simp only [List.mem_cons, Prod.mk.injEq, List.not_mem_nil, or_false] at known
      rcases known with ⟨rfl, _⟩ | ⟨rfl, _⟩ | ⟨rfl, _⟩ <;> (intro char head; cases head; decide)
    simp only [List.mem_cons, Prod.mk.injEq, List.not_mem_nil, or_false] at known
    rcases known with ⟨rfl, rfl⟩ | ⟨rfl, rfl⟩ | ⟨rfl, rfl⟩
    · simp [number?, noDate, written.based?_eq isHex_test ends fits]
    · simp [number?, noDate, written.based?_eq isOctal_test ends fits]
    · simp [number?, noDate, written.based?_eq isBinary_test ends fits]

theorem Sign.number?_special {unsigned : List Char} (sign : Sign negative text unsigned)
    {first : Char} {more : List Char} (begins : unsigned = first :: more)
    (known : first ∈ ['i', 'n']) : number? text = special? negative unsigned := by
  obtain ⟨noDigit, noPlus, noMinus, noZero⟩ :
      first.isDigit = false ∧ first ≠ '+' ∧ first ≠ '-' ∧ first ≠ '0' := by
    simp only [List.mem_cons, List.not_mem_nil, or_false] at known
    rcases known with rfl | rfl <;> decide
  have noDate : datetime? unsigned = .none := begins ▸ datetime?_cons_eq_none noDigit more
  have noDecimal : decimal? negative unsigned = .none := by
    subst begins
    simp [decimal?, leadingDigits, noDigit, noZero, digitGroups]
  rw [sign.number?_eq begins ⟨noPlus, noMinus⟩ noDate fun same => absurd same noZero, noDecimal]
  rfl

theorem Floating.number?_eq (written : Floating item text rest) (ends : Ends rest) :
    number? text = some (item, rest) := by
  cases written with
  | decimal sign written canonical tail value =>
    rw [written.number?_eq canonical tail.decimalEnds sign,
      tail.decimal?_eq written canonical ends value]
    rfl
  | infinite sign =>
    rw [sign.number?_special rfl (by decide)]
    rfl
  | undefined sign =>
    rw [sign.number?_special rfl (by decide)]
    rfl

theorem Numeral.number?_eq (written : Numeral item text rest) (ends : Ends rest) :
    number? text = some (item, rest) := by
  cases written with
  | integer written least greatest => exact written.number?_eq ends least greatest
  | floating written => exact written.number?_eq ends
  | moment written =>
    unfold number?
    rw [written.datetime?_eq ends]

theorem Sign.begins {unsigned : List Char} (sign : Sign negative text unsigned) {first : Char}
    {more : List Char} (begins : unsigned = first :: more)
    (known : first.isDigit = true ∨ first ∈ ['+', '-', 'i', 'n']) :
    ∃ char more, text = char :: more ∧ (char.isDigit = true ∨ char ∈ ['+', '-', 'i', 'n']) := by
  cases sign with
  | none => exact ⟨first, more, begins, known⟩
  | plus => exact ⟨'+', _, rfl, .inr (by decide)⟩
  | minus => exact ⟨'-', _, rfl, .inr (by decide)⟩

theorem Numeral.begins (written : Numeral item text rest) :
    ∃ char more, text = char :: more ∧ (char.isDigit = true ∨ char ∈ ['+', '-', 'i', 'n']) := by
  have decimal {negative : Bool} {digits : List HexDigit} {unsigned rest : List Char}
      (sign : Sign negative text unsigned) (written : Digits 10 unsigned digits rest) :
      ∃ char more, text = char :: more ∧ (char.isDigit = true ∨ char ∈ ['+', '-', 'i', 'n']) := by
    obtain ⟨digit, more, begins, _, small⟩ := written.head_digit
    exact sign.begins begins (.inl (isDigit_test.digit digit small))
  cases written with
  | integer written least greatest =>
    cases written with
    | decimal sign written canonical => exact decimal sign written
    | based known written => exact ⟨_, _, rfl, .inl rfl⟩
  | floating written =>
    cases written with
    | decimal sign written canonical tail value => exact decimal sign written
    | infinite sign => exact sign.begins rfl (.inr (by decide))
    | undefined sign => exact sign.begins rfl (.inr (by decide))
  | moment written =>
    obtain ⟨char, more, begins, digit⟩ := written.begins
    exact ⟨char, more, begins, .inl digit⟩

theorem Sign.suffix (sign : Sign negative text rest) : rest <:+ text := by
  cases sign with
  | none => exact List.suffix_refl _
  | plus => exact List.suffix_cons _ _
  | minus => exact List.suffix_cons _ _

theorem Exponent.suffix {power : Int} (exponent : Exponent power text rest) : rest <:+ text := by
  cases exponent with
  | power known sign written =>
    exact (written.suffix.trans sign.suffix).trans (List.suffix_cons _ _)

theorem Tail.suffix {power : Int} (tail : Tail digits power text rest) : rest <:+ text := by
  cases tail with
  | fraction written => exact written.suffix.trans (List.suffix_cons _ _)
  | exponent exponent => exact exponent.suffix
  | both written exponent =>
    exact (exponent.suffix.trans written.suffix).trans (List.suffix_cons _ _)

theorem Numeral.suffix (written : Numeral item text rest) : rest <:+ text := by
  cases written with
  | integer written least greatest =>
    cases written with
    | decimal sign written canonical => exact written.suffix.trans sign.suffix
    | based known written =>
      exact (written.suffix.trans (List.suffix_cons _ _)).trans (List.suffix_cons _ _)
  | floating written =>
    cases written with
    | decimal sign written canonical tail value =>
      exact (tail.suffix.trans written.suffix).trans sign.suffix
    | infinite sign => exact (List.suffix_append ['i', 'n', 'f'] _).trans sign.suffix
    | undefined sign => exact (List.suffix_append ['n', 'a', 'n'] _).trans sign.suffix
  | moment written => exact written.suffix

end Grammar

end EdgeRoutes.Toml
