import EdgeRoutes.Proofs.Toml.Scanning

/-! Reading digits, alone and in groups with underscores between them. -/

set_option autoImplicit false

namespace EdgeRoutes.Toml

open Json (HexDigit)
open Grammar

variable {text rest chars : List Char} {base : Nat} {digits : List HexDigit} {isDigit : Char → Bool}

theorem forall_ascii {motive : Char → Prop} (holds : ∀ number : Fin 128, motive (Char.ofNat number))
    {char : Char} (small : char.toNat < 128) : motive char := by
  have same : Char.ofNat char.toNat = char := Char.ofNat_toNat char
  exact same ▸ holds ⟨char.toNat, small⟩

theorem toNat_lt_of_le {char limit : Char} (le : char ≤ limit) (small : limit.toNat < 128) :
    char.toNat < 128 :=
  Nat.lt_of_le_of_lt (UInt32.le_iff_toNat_le.mp le) small

theorem toNat_lt_of_isDigit {char : Char} (digit : char.isDigit = true) : char.toNat < 128 := by
  simp only [Char.isDigit, Bool.and_eq_true, decide_eq_true_eq] at digit
  exact toNat_lt_of_le digit.2 (by decide : '9'.toNat < 128)

theorem toNat_lt_of_isHex {char : Char} (digit : isHex char = true) : char.toNat < 128 := by
  simp only [isHex, Bool.or_eq_true, Bool.and_eq_true, decide_eq_true_eq] at digit
  rcases digit with (decimal | lower) | upper
  · exact toNat_lt_of_isDigit decimal
  · exact toNat_lt_of_le lower.2 (by decide)
  · exact toNat_lt_of_le upper.2 (by decide)

/-- The test passes just the digits of the base. -/
structure DigitTest (base : Nat) (isDigit : Char → Bool) : Prop where
  digit : ∀ digit : HexDigit, digit.value < base → isDigit digit.char = true
  found : ∀ char, isDigit char = true → ∃ digit : HexDigit, digit.value < base ∧ digit.char = char

theorem DigitTest.of_ascii (bounded : ∀ char, isDigit char = true → char.toNat < 128)
    (passes : ∀ (value : Fin 16) (capital : Bool), value < base →
      isDigit (HexDigit.char ⟨value, capital⟩) = true)
    (ascii : ∀ number : Fin 128, isDigit (Char.ofNat number) = true →
      ∃ (value : Fin 16) (capital : Bool),
        value < base ∧ HexDigit.char ⟨value, capital⟩ = Char.ofNat number) :
    DigitTest base isDigit where
  digit digit small := passes digit.value digit.capital small
  found char holds := by
    obtain ⟨value, capital, small, same⟩ := forall_ascii
      (motive := fun char => isDigit char = true → ∃ (value : Fin 16) (capital : Bool),
        value < base ∧ HexDigit.char ⟨value, capital⟩ = char) ascii (bounded char holds) holds
    exact ⟨⟨value, capital⟩, small, same⟩

theorem isDigit_test : DigitTest 10 Char.isDigit :=
  .of_ascii (fun _ => toNat_lt_of_isDigit) (by decide) (by decide +kernel)

theorem isHex_test : DigitTest 16 isHex :=
  .of_ascii (fun _ => toNat_lt_of_isHex) (by decide) (by decide +kernel)

theorem isOctal_test : DigitTest 8 isOctal := by
  refine .of_ascii (fun char holds => ?_) (by decide) (by decide +kernel)
  simp only [isOctal, Bool.and_eq_true, decide_eq_true_eq] at holds
  exact toNat_lt_of_le holds.2 (by decide)

theorem isBinary_test : DigitTest 2 isBinary := by
  refine .of_ascii (fun char holds => ?_) (by decide) (by decide +kernel)
  simp only [isBinary, Bool.or_eq_true, beq_iff_eq] at holds
  rcases holds with rfl | rfl <;> decide

theorem digitValue_char (digit : HexDigit) : digitValue digit.char = digit.value := by
  obtain ⟨value, capital⟩ := digit
  revert value capital
  decide

theorem char_eq_zero_iff (digit : HexDigit) : digit.char = '0' ↔ (digit.value : Nat) = 0 := by
  obtain ⟨value, capital⟩ := digit
  revert value capital
  decide

theorem char_ne_underscore (digit : HexDigit) : digit.char ≠ '_' := by
  obtain ⟨value, capital⟩ := digit
  revert value capital
  decide

theorem valueOf_digits (base : Nat) (digits : List HexDigit) :
    valueOf base (digits.map HexDigit.char) = number base digits := by
  simp only [valueOf, number, List.foldl_map, digitValue_char]

namespace DigitTest

theorem underscore (test : DigitTest base isDigit) : isDigit '_' = false := by
  by_contra holds
  obtain ⟨digit, _, same⟩ := test.found '_' (by simpa using holds)
  exact char_ne_underscore digit same

theorem exists_digits (test : DigitTest base isDigit) (all : ∀ char ∈ chars, isDigit char = true) :
    ∃ digits : List HexDigit,
      chars = digits.map HexDigit.char ∧ ∀ digit ∈ digits, digit.value < base := by
  induction chars with
  | nil => exact ⟨[], rfl, nofun⟩
  | cons char chars ih =>
    obtain ⟨digit, small, rfl⟩ := test.found char (all char List.mem_cons_self)
    obtain ⟨digits, rfl, others⟩ := ih fun other member => all other (List.mem_cons_of_mem _ member)
    exact ⟨digit :: digits, rfl, List.forall_mem_cons.mpr ⟨small, others⟩⟩

theorem all_digits (test : DigitTest base isDigit) (small : ∀ digit ∈ digits, digit.value < base) :
    ∀ char ∈ digits.map HexDigit.char, isDigit char = true := by
  intro char member
  obtain ⟨digit, inside, rfl⟩ := List.mem_map.mp member
  exact test.digit digit (small digit inside)

/-- What is read as groups of digits is nothing, groups of digits, or, behind a digit, an
underscore with groups of digits. Nothing is read where no digit stands. -/
theorem digitGroups_cases (test : DigitTest base isDigit) (inside : Bool) (text : List Char) :
    ∃ digits rest, digitGroups isDigit inside text = (digits.map HexDigit.char, rest) ∧
      (digits = [] ∧ rest = text ∧ text.head?.any isDigit = false ∨ Digits base text digits rest ∨
        inside = true ∧ ∃ more, text = '_' :: more ∧ Digits base more digits rest) := by
  induction text generalizing inside with
  | nil => exact ⟨[], [], rfl, .inl ⟨rfl, rfl, rfl⟩⟩
  | cons char text ih =>
    -- Whether a digit or an underscore comes first, what follows is read as behind a digit.
    obtain ⟨digits, rest, read, found⟩ := ih true
    cases isDigit_char : isDigit char with
    | true =>
      obtain ⟨digit, small, rfl⟩ := test.found char isDigit_char
      refine ⟨digit :: digits, rest, by simp [digitGroups, isDigit_char, read], .inr (.inl ?_)⟩
      rcases found with ⟨rfl, rfl, _⟩ | written | ⟨_, more, rfl, written⟩
      · exact .last small
      · exact .next small written
      · exact .underscore small written
    | false =>
      cases joins : inside && char == '_' && text.head?.any isDigit with
      | false =>
        exact ⟨[], char :: text, by simp [digitGroups, isDigit_char, joins],
          .inl ⟨rfl, rfl, isDigit_char⟩⟩
      | true =>
        refine ⟨digits, rest, by simp [digitGroups, isDigit_char, joins, read], .inr (.inr ?_)⟩
        simp only [Bool.and_eq_true, beq_iff_eq] at joins
        obtain ⟨⟨on, rfl⟩, goesOn⟩ := joins
        refine ⟨on, text, rfl, ?_⟩
        rcases found with ⟨_, _, stops⟩ | written | ⟨_, more, rfl, _⟩
        · exact absurd goesOn (by simp [stops])
        · exact written
        · exact absurd goesOn (by simp [test.underscore])

theorem digits_of_digitGroups (test : DigitTest base isDigit)
    (read : digitGroups isDigit false text = (chars, rest)) (nonempty : chars.isEmpty = false) :
    ∃ digits, chars = digits.map HexDigit.char ∧ Digits base text digits rest := by
  obtain ⟨digits, behind, known, found⟩ := test.digitGroups_cases false text
  rw [known] at read
  cases read
  rcases found with ⟨rfl, _, _⟩ | written | ⟨off, _⟩
  · cases nonempty
  · exact ⟨digits, rfl, written⟩
  · cases off

end DigitTest

/-- No digit goes on here. -/
def DigitsEnd (isDigit : Char → Bool) (rest : List Char) : Prop :=
  ∀ char, rest.head? = some char → isDigit char = false ∧ char ≠ '_'

namespace Grammar.Digits

theorem head_digit (written : Digits base text digits rest) :
    ∃ digit more, text = digit.char :: more ∧ digits.head? = some digit ∧ digit.value < base := by
  cases written with
  | last small => exact ⟨_, _, rfl, rfl, small⟩
  | next small more => exact ⟨_, _, rfl, rfl, small⟩
  | underscore small more => exact ⟨_, _, rfl, rfl, small⟩

theorem ne_nil (written : Digits base text digits rest) : digits ≠ [] := by
  cases written <;> simp

theorem isEmpty_eq (written : Digits base text digits rest) :
    (digits.map HexDigit.char).isEmpty = false := by
  simp [written.ne_nil]

theorem suffix (written : Digits base text digits rest) : rest <:+ text := by
  induction written with
  | last small => exact List.suffix_cons _ _
  | next small more ih => exact ih.trans (List.suffix_cons _ _)
  | underscore small more ih => exact ih.trans ((List.suffix_cons _ _).trans (List.suffix_cons _ _))

theorem digitGroups_eq (test : DigitTest base isDigit) (written : Digits base text digits rest)
    (ends : DigitsEnd isDigit rest) (inside : Bool) :
    digitGroups isDigit inside text = (digits.map HexDigit.char, rest) := by
  induction written generalizing inside with
  | @last digit rest small =>
    have stop : digitGroups isDigit true rest = ([], rest) := by
      cases rest with
      | nil => rfl
      | cons char rest => simp [digitGroups, ends char rfl]
    simp [digitGroups, test.digit digit small, stop]
  | next small more ih => simp [digitGroups, test.digit _ small, ih ends]
  | @underscore digit digits text rest small more ih =>
    have goesOn : text.head?.any isDigit = true := by
      obtain ⟨digit, behind, rfl, _, follows⟩ := more.head_digit
      exact test.digit digit follows
    simp [digitGroups, test.digit digit small, test.underscore, goesOn, ih ends]

end Grammar.Digits

end EdgeRoutes.Toml
