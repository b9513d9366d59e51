import EdgeRoutes.Proofs.Json.Numerals

/-! Passing over a source.

Every source is passed over from its first to its last character, whatever its strings and
numbers stand for and however deep it is nested.
-/

set_option autoImplicit false

namespace EdgeRoutes.Json

theorem Ends.gap {rest : List Char} (gap : Gap) (ends : Ends rest) : Ends (gap.chars ++ rest) := by
  cases gap with
  | nil => exact ends
  | cons blank gap => cases blank <;> exact Ends.cons (by decide)

namespace Source

theorem ends_itemsTail (items : List (Padded Source)) (rest : List Char) :
    Ends (itemsTail items ++ rest) := by
  cases items <;> exact Ends.cons (by decide)

theorem ends_membersTail (members : List Member) (rest : List Char) :
    Ends (membersTail members ++ rest) := by
  cases members <;> exact Ends.cons (by decide)

end Source

namespace Skip

theorem exponent_power (exponent : Exponent) {rest : List Char} (ends : Ends rest) :
    Skip.exponent (exponent.power ++ rest) = .ok rest := by
  obtain ⟨capital, sign, digits⟩ := exponent
  have passed := digits.dropWhile ends.noDigit
  obtain ⟨first, others, chars, digit⟩ := digits.exists_cons
  have unsigned : first ≠ '+' ∧ first ≠ '-' := by
    constructor <;> (rintro rfl; cases digit)
  rw [chars, List.cons_append] at passed
  unfold Skip.exponent Exponent.power
  cases sign with
  | none => simp [chars, unsigned, digit, passed]
  | some negative => cases negative <;> simp [chars, digit, passed]

theorem fraction_digits (digits : Digits) (numeral : Numeral) {rest : List Char}
    (ends : Ends rest) :
    Skip.fraction (digits.chars ++ (numeral.exponentChars ++ rest)) = .ok rest := by
  have passed := digits.dropWhile (numeral.noDigit_exponentChars ends.noDigit)
  obtain ⟨first, others, chars, digit⟩ := digits.exists_cons
  rw [chars, List.cons_append] at passed ⊢
  simp only [Skip.fraction, List.head?_cons, Option.any_some, digit, if_true, passed]
  unfold Numeral.exponentChars
  cases numeral.exponent with
  | some exponent =>
    have passed := exponent_power exponent ends
    obtain ⟨capital, sign, power⟩ := exponent
    cases capital <;> exact passed
  | none =>
    simp only [Option.map_none, Option.getD_none, List.nil_append]
    split
    · simp [Ends] at ends
    · simp [Ends] at ends
    · rfl

theorem afterDigits_suffix (numeral : Numeral) {rest : List Char} (ends : Ends rest) :
    Skip.afterDigits (numeral.suffix ++ rest) = .ok rest := by
  unfold Numeral.suffix
  cases numeral.fraction with
  | some digits =>
    simp only [Option.map_some, Option.getD_some, List.cons_append, List.append_assoc]
    exact fraction_digits digits numeral ends
  | none =>
    unfold Numeral.exponentChars
    cases numeral.exponent with
    | some exponent =>
      have passed := exponent_power exponent ends
      obtain ⟨capital, sign, power⟩ := exponent
      cases capital <;> exact passed
    | none =>
      simp only [Option.map_none, Option.getD_none, List.nil_append]
      unfold Skip.afterDigits
      split
      · simp [Ends] at ends
      · simp [Ends] at ends
      · simp [Ends] at ends
      · rfl

theorem number_unsigned (numeral : Numeral) {rest : List Char} (ends : Ends rest) :
    Skip.number (numeral.unsigned ++ rest) = .ok rest := by
  have behind := numeral.noDigit_suffix ends.noDigit
  have passed := numeral.whole.dropWhile behind
  have suffix := afterDigits_suffix numeral ends
  obtain ⟨first, others, chars, digit⟩ := numeral.whole.exists_cons
  rw [chars, List.cons_append] at passed
  rw [Numeral.unsigned_append chars]
  by_cases zero : first = '0'
  · subst zero
    cases Numeral.single_of_zero chars
    simp only [Skip.number, List.nil_append, behind.any_head?]
    exact suffix
  · unfold Skip.number
    split
    · simp_all
    · simp [digit, passed, suffix]

/-- Each of the values is passed over, wherever it stands. -/
def Passes (skip : List Char → Except Fault (List Char)) (source : Source) : Prop :=
  ∀ (gap : Gap) (rest : List Char), Ends rest →
    skip (gap.chars ++ (source.chars ++ rest)) = .ok rest

variable {skip : List Char → Except Fault (List Char)}

theorem Passes.item {item : Padded Source} (passes : Passes skip item.content) {rest : List Char}
    (ends : Ends rest) : skip (Source.itemChars item ++ rest) = .ok (item.after.chars ++ rest) := by
  rw [Source.itemChars_eq, List.append_assoc, List.append_assoc]
  exact passes item.before _ (ends.gap item.after)

theorem items_itemsTail {items : List (Padded Source)}
    (each : ∀ item ∈ items, Passes skip item.content) {bound : Nat}
    (enough : items.length < bound) (gap : Gap) (rest : List Char) :
    Skip.items skip bound false (gap.chars ++ (Source.itemsTail items ++ rest)) = .ok rest := by
  induction items generalizing bound gap with
  | nil =>
    obtain ⟨bound, rfl⟩ := Nat.exists_eq_add_one.mpr enough
    simp [Source.itemsTail, Skip.items, Scan.skipBlanks_token gap ']' rfl]
  | cons item items ih =>
    obtain ⟨bound, rfl⟩ := Nat.exists_eq_add_one.mpr (Nat.zero_lt_of_lt enough)
    have comma := Scan.skipBlanks_token gap ',' rfl
    have passed := (each item List.mem_cons_self).item (Source.ends_itemsTail items rest)
    have others := ih (fun other later => each other (List.mem_cons_of_mem _ later))
      (Nat.lt_of_succ_lt_succ enough) item.after
    simp [Source.itemsTail, Skip.items, comma, passed, others, bind, Except.bind]

theorem items_itemsChars {items : List (Padded Source)}
    (each : ∀ item ∈ items, Passes skip item.content) (inside : Gap) {bound : Nat}
    (enough : items.length < bound) (rest : List Char) :
    Skip.items skip bound true (inside.chars ++ (Source.itemsChars items ++ rest)) = .ok rest := by
  obtain ⟨bound, rfl⟩ := Nat.exists_eq_add_one.mpr (Nat.zero_lt_of_lt enough)
  cases items with
  | nil => simp [Source.itemsChars, Skip.items, Scan.skipBlanks_token inside ']' rfl]
  | cons item items =>
    have passed := (each item List.mem_cons_self) [] _
      ((Source.ends_itemsTail items rest).gap item.after)
    have others := items_itemsTail (fun other later => each other (List.mem_cons_of_mem _ later))
      (Nat.lt_of_succ_lt_succ enough) item.after rest
    have next := Source.skipBlanks_chars (inside ++ item.before) item.content
      (item.after.chars ++ (Source.itemsTail items ++ rest))
    obtain ⟨char, chars, text, opens⟩ := item.content.exists_opens
    rw [text] at passed next
    simp only [Source.itemsChars, Source.itemChars_eq, List.append_assoc, Gap.chars_append, text,
      Skip.items, next]
    split
    case h_1 none => cases none
    case h_2 closed => exact absurd (List.cons.inj closed).1 opens.visible.2.1
    case h_3 same =>
      cases same
      simp only [if_true]
      exact passed ▸ others

theorem key_chars (gap : Gap) (key : Padded (List Part)) (rest : List Char) :
    Skip.key (gap.chars ++ '"' :: (Part.tail key.content ++ (key.after.chars ++ ':' :: rest))) =
      .ok rest := by
  rw [Skip.key, Scan.skipBlanks_token gap '"' rfl]
  simp only [string_tail, bind, Except.bind, Scan.colon_gap]

theorem members_membersTail {members : List Member}
    (each : ∀ member ∈ members, Passes skip member.2.content) {bound : Nat}
    (enough : members.length < bound) (gap : Gap) (rest : List Char) :
    Skip.members skip bound false (gap.chars ++ (Source.membersTail members ++ rest)) =
      .ok rest := by
  induction members generalizing bound gap with
  | nil =>
    obtain ⟨bound, rfl⟩ := Nat.exists_eq_add_one.mpr enough
    simp [Source.membersTail, Skip.members, Scan.skipBlanks_token gap '\x7d' rfl]
  | cons member members ih =>
    obtain ⟨bound, rfl⟩ := Nat.exists_eq_add_one.mpr (Nat.zero_lt_of_lt enough)
    have comma := Scan.skipBlanks_token gap ',' rfl
    have key := key_chars member.1.before member.1
    have passed := (each member List.mem_cons_self).item (Source.ends_membersTail members rest)
    have others := ih (fun other later => each other (List.mem_cons_of_mem _ later))
      (Nat.lt_of_succ_lt_succ enough) member.2.after
    simp [Source.membersTail, Source.memberChars_eq, Skip.members, comma, key, passed, others, bind,
      Except.bind]

theorem members_membersChars {members : List Member}
    (each : ∀ member ∈ members, Passes skip member.2.content) (inside : Gap) {bound : Nat}
    (enough : members.length < bound) (rest : List Char) :
    Skip.members skip bound true (inside.chars ++ (Source.membersChars members ++ rest)) =
      .ok rest := by
  obtain ⟨bound, rfl⟩ := Nat.exists_eq_add_one.mpr (Nat.zero_lt_of_lt enough)
  cases members with
  | nil =>
    simp [Source.membersChars, Skip.members, Scan.skipBlanks_token inside '\x7d' rfl]
  | cons member members =>
    have quote := Scan.skipBlanks_token (inside ++ member.1.before) '"' rfl
    have key := key_chars [] member.1
    have passed := (each member List.mem_cons_self).item (Source.ends_membersTail members rest)
    have others := members_membersTail
      (fun other later => each other (List.mem_cons_of_mem _ later))
      (Nat.lt_of_succ_lt_succ enough) member.2.after rest
    change ∀ rest, Skip.key ('"' :: _) = _ at key
    simp [Source.membersChars, Source.memberChars_eq, Skip.members, Gap.chars_append, quote, key,
      passed, others, bind, Except.bind]

/-- A source is passed over if the bound on the depth exceeds its length. -/
theorem nested_passes (source : Source) {depth : Nat} (enough : source.chars.length < depth) :
    Passes (nested depth) source := by
  -- Whatever stands inside of brackets is shorter than the whole, so one level less is enough.
  induction depth generalizing source with
  | zero => cases enough
  | succ depth ih =>
    intro gap rest ends
    rw [nested, Source.skipBlanks_chars]
    cases source with
    | null => exact Scan.word_append ['u', 'l', 'l'] rest
    | boolean value =>
      cases value
      · exact Scan.word_append ['a', 'l', 's', 'e'] rest
      · exact Scan.word_append ['r', 'u', 'e'] rest
    | number numeral =>
      have passed := number_unsigned numeral ends
      simp only [Source.chars, Numeral.chars]
      cases numeral.negative
      case true => exact passed
      case false =>
        obtain ⟨first, others, chars, digit⟩ := numeral.whole.exists_cons
        simp only [Bool.false_eq_true, if_false, Numeral.unsigned_append chars] at passed ⊢
        split <;> simp_all
    | string parts => exact string_tail parts rest
    | array inside items =>
      have each (item : Padded Source) (present : item ∈ items) :
          Passes (nested depth) item.content :=
        ih item.content (Nat.lt_of_lt_of_le (Source.length_lt_array present inside)
          (Nat.le_of_lt_succ enough))
      have passed (bound : Nat) (enough : items.length < bound) :=
        items_itemsChars each inside enough rest
      have count := Source.length_le_itemsChars items
      simp only [Source.chars, List.cons_append, List.append_assoc]
      apply passed
      simp only [List.length_append]
      omega
    | object inside members =>
      have each (member : Member) (present : member ∈ members) :
          Passes (nested depth) member.2.content :=
        ih member.2.content (Nat.lt_of_lt_of_le (Source.length_lt_object present inside)
          (Nat.le_of_lt_succ enough))
      have passed (bound : Nat) (enough : members.length < bound) :=
        members_membersChars each inside enough rest
      have count := Source.length_le_membersChars members
      simp only [Source.chars, List.cons_append, List.append_assoc]
      apply passed
      simp only [List.length_append]
      omega

theorem value_passes (source : Source) : Passes Skip.value source := by
  intro gap rest ends
  apply nested_passes source _ gap rest ends
  simp only [List.length_append]
  omega

end Skip
end EdgeRoutes.Json
