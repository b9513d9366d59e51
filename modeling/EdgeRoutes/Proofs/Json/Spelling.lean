import EdgeRoutes.Proofs.Json.Skipping
import Mathlib.Data.List.Forall2

/-! What the sources of values of each kind are.

A spelling says which sources write a value. Every reader finds exactly the values that its
source writes: it returns such a value with the text behind the source, and it fails if there is
none.
-/

set_option autoImplicit false

namespace EdgeRoutes.Json

/-- The ways to write a value with at most so many brackets open at one time. -/
abbrev Spelling (Value : Type) := Nat → Source → Value → Prop

namespace Spelling

def text : Spelling String
  | _, .string parts, value => Part.Spell parts value
  | _, _, _ => False

def boolean : Spelling Bool
  | _, .boolean given, value => value = given
  | _, _, _ => False

def natural (limit : Nat) : Spelling Nat
  | _, .number numeral, value => numeral.Spells value ∧ value ≤ limit
  | _, _, _ => False

section

variable {Value : Type} (item : Spelling Value)

def sequence : Spelling (List Value)
  | depth + 1, .array _ items, values =>
    List.Forall₂ (fun padded value => item depth padded.content value) items values
  | _, _, _ => False

/-- Of two members with one key the later counts. -/
def dictionary : Spelling (List (String × Value))
  | depth + 1, .object _ members, values =>
    ∃ entries : List (String × Value), values = Members.ofEntries entries ∧
      List.Forall₂ (fun member entry =>
        Part.Spell member.1.content entry.1 ∧ item depth member.2.content entry.2) members entries
  | _, _, _ => False

def optional : Spelling (Option Value)
  | _, .null, value => value = none
  | depth, source, value => ∃ given, value = some given ∧ item depth source given

end

def value : Spelling Json
  | _, .null, json => json = .null
  | _, .boolean given, json => json = .boolean given
  | _, .number numeral, json => ∃ number, json = .number number ∧ numeral.Denotes number
  | _, .string parts, json => ∃ text, json = .string text ∧ Part.Spell parts text
  | depth + 1, .array _ items, json =>
    ∃ values, json = .array values ∧
      List.Forall₂ (fun padded json => value depth padded.content json) items values
  | depth + 1, .object _ members, json =>
    ∃ entries : List (String × Json), json = .object (Members.ofEntries entries) ∧
      List.Forall₂ (fun member entry =>
        Part.Spell member.1.content entry.1 ∧ value depth member.2.content entry.2) members entries
  | 0, .array _ _, _ => False
  | 0, .object _ _, _ => False

end Spelling

namespace Read

variable {Value : Type}

/-- Reading finds just what the source spells, and stops right behind it. -/
def Finds (read : List Char → Except Fault (Value × List Char)) (source : Source)
    (spelled : Value → Prop) : Prop :=
  ∀ (gap : Gap) (rest : List Char), Ends rest → ∀ found,
    read (gap.chars ++ (source.chars ++ rest)) = .ok found ↔ spelled found.1 ∧ found.2 = rest

theorem ok_eq_iff {Fault' First Second : Type} {first : First} {second : Second}
    {found : First × Second} :
    (Except.ok (first, second) : Except Fault' (First × Second)) = .ok found ↔
      found.1 = first ∧ found.2 = second := by
  obtain ⟨value, after⟩ := found
  simp [eq_comm]

theorem wrapped_iff {First Second : Type} {read : Except Fault (First × List Char)}
    {spelled : First → Prop} {rest : List Char}
    (here : ∀ found, read = .ok found ↔ spelled found.1 ∧ found.2 = rest)
    (wrap : First → Second) (found : Second × List Char) :
    (do
        let (value, rest) ← read
        .ok (wrap value, rest)) = .ok found ↔
      (∃ value, found.1 = wrap value ∧ spelled value) ∧ found.2 = rest := by
  simp only [bind_eq_ok_iff, here]
  constructor
  · rintro ⟨⟨value, after⟩, ⟨written, rfl⟩, same⟩
    obtain ⟨first, second⟩ := ok_eq_iff.mp same
    exact ⟨⟨value, first, written⟩, second⟩
  · rintro ⟨⟨value, first, written⟩, after⟩
    exact ⟨(value, rest), ⟨written, rfl⟩, ok_eq_iff.mpr ⟨first, after⟩⟩

theorem exists_sign_or_digit (numeral : Numeral) :
    ∃ first others, (Source.number numeral).chars = first :: others ∧
      (first = '-' ∨ first.isDigit = true) := by
  obtain ⟨first, others, chars, digit⟩ := numeral.whole.exists_cons
  simp only [Source.chars, Numeral.chars]
  cases numeral.negative
  · exact ⟨first, _, by rw [Numeral.unsigned, chars]; rfl, Or.inr digit⟩
  · exact ⟨'-', _, rfl, Or.inl rfl⟩

theorem text_finds (depth : Nat) (source : Source) :
    Finds (Read.text depth) source (Spelling.text depth source) := by
  intro gap rest ends found
  rw [Read.text, Source.skipBlanks_chars]
  cases source with
  | string parts => exact Scan.string_iff parts rest found
  | number numeral =>
    obtain ⟨first, others, chars, numeric⟩ := exists_sign_or_digit numeral
    rw [chars]
    split <;> simp_all [Spelling.text]
  | boolean value => cases value <;> simp [Source.chars, Spelling.text]
  | _ => simp [Source.chars, Spelling.text]

theorem boolean_finds (depth : Nat) (source : Source) :
    Finds (Read.boolean depth) source (Spelling.boolean depth source) := by
  intro gap rest ends found
  rw [Read.boolean, Source.skipBlanks_chars]
  cases source with
  | boolean value =>
    cases value
    · change (Scan.word ['a', 'l', 's', 'e'] (['a', 'l', 's', 'e'] ++ rest) >>= _) = _ ↔ _
      rw [Scan.word_append]
      exact ok_eq_iff
    · change (Scan.word ['r', 'u', 'e'] (['r', 'u', 'e'] ++ rest) >>= _) = _ ↔ _
      rw [Scan.word_append]
      exact ok_eq_iff
  | number numeral =>
    obtain ⟨first, others, chars, numeric⟩ := exists_sign_or_digit numeral
    rw [chars]
    split <;> simp_all [Spelling.boolean]
  | _ => simp [Source.chars, Spelling.boolean]

theorem natural_number (limit : Nat) (kind : String) (depth : Nat) (gap : Gap) (numeral : Numeral)
    (rest : List Char) :
    Read.natural limit kind depth (gap.chars ++ ((Source.number numeral).chars ++ rest)) = (do
      let (value, rest) ← Scan.number (!numeral.negative) (numeral.unsigned ++ rest)
      match value with
      | .integer value =>
        if 0 ≤ value ∧ value ≤ limit then .ok (value.toNat, rest)
        else .error (.before (.invalidValue (.integer value) kind) rest)
      | .float value => .error (.before (.invalidType (.float value) kind) rest)) := by
  rw [Read.natural, Source.skipBlanks_chars]
  obtain ⟨first, others, chars, digit⟩ := numeral.whole.exists_cons
  simp only [Source.chars, Numeral.chars]
  cases numeral.negative
  · simp only [Bool.false_eq_true, if_false, Numeral.unsigned_append chars]
    split
    case h_1 none => cases none
    case h_2 signed =>
      rw [(List.cons.inj signed).1] at digit
      cases digit
    case h_3 same =>
      obtain ⟨rfl, rfl⟩ := List.cons.inj same
      rw [if_pos digit]
      rfl
  · rfl

theorem natural_finds (limit : Nat) (kind : String) (depth : Nat) (source : Source) :
    Finds (Read.natural limit kind depth) source (Spelling.natural limit depth source) := by
  intro gap rest ends found
  cases source with
  | number numeral =>
    rw [natural_number, bind_eq_ok_iff]
    simp only [Scan.number_iff numeral ends]
    -- A number is read first, and must then be an integer within the limit.
    constructor
    · rintro ⟨⟨number, after⟩, ⟨denotes, rfl⟩, fits⟩
      cases denotes with
      | float => cases fits
      | @integer value spells =>
        simp only at fits
        split at fits
        case isFalse => cases fits
        case isTrue within =>
          obtain ⟨lower, upper⟩ := within
          obtain ⟨same, after⟩ := ok_eq_iff.mp fits
          refine ⟨⟨?_, ?_⟩, after⟩
          · rw [same, Int.toNat_of_nonneg lower]
            exact spells
          · omega
    · rintro ⟨⟨spells, within⟩, after⟩
      refine ⟨(.integer found.1, rest), ⟨.integer spells, rfl⟩, ?_⟩
      have fits : (0 : Int) ≤ found.1 ∧ (found.1 : Int) ≤ limit := by omega
      simp only [if_pos fits]
      exact ok_eq_iff.mpr ⟨rfl, after⟩
  | boolean value =>
    rw [Read.natural, Source.skipBlanks_chars]
    cases value <;> simp [Source.chars, Spelling.natural, Char.isDigit]
  | _ =>
    rw [Read.natural, Source.skipBlanks_chars]
    simp [Source.chars, Spelling.natural, Char.isDigit]

theorem nextItem_closing (first : Bool) (gap : Gap) (rest : List Char) :
    nextItem first (gap.chars ++ ']' :: rest) = .ok (false, ']' :: rest) := by
  rw [nextItem, Scan.skipBlanks_token gap ']' rfl]
  rfl

theorem nextItem_following (gap before : Gap) (source : Source) (rest : List Char) :
    nextItem false (gap.chars ++ ',' :: (before.chars ++ (source.chars ++ rest))) =
      .ok (true, source.chars ++ rest) := by
  have next := Source.skipBlanks_chars before source rest
  obtain ⟨char, chars, text, opens⟩ := source.exists_opens
  rw [text, List.cons_append] at next ⊢
  rw [nextItem, Scan.skipBlanks_token gap ',' rfl]
  simp [next, opens.visible.2.1]

theorem nextItem_leading (gap : Gap) (source : Source) (rest : List Char) :
    nextItem true (gap.chars ++ (source.chars ++ rest)) = .ok (true, source.chars ++ rest) := by
  have next := Source.skipBlanks_chars gap source rest
  obtain ⟨char, chars, text, opens⟩ := source.exists_opens
  rw [text] at next ⊢
  rw [nextItem, next]
  simp [opens.visible.2.1]

abbrev Items (spelled : Source → Value → Prop) (items : List (Padded Source)) :
    List Value → Prop :=
  List.Forall₂ (fun padded value => spelled padded.content value) items

theorem items_closing (read : List Char → Except Fault (Value × List Char)) (first : Bool)
    (bound : Nat) (gap : Gap) (rest : List Char) :
    Read.items read (bound + 1) first (gap.chars ++ ']' :: rest) = .ok ([], rest) := by
  rw [Read.items, nextItem_closing]
  rfl

section

variable {read : List Char → Except Fault (Value × List Char)} {spelled : Source → Value → Prop}

theorem items_more {item : Padded Source} {items : List (Padded Source)}
    (finds : Finds read item.content (spelled item.content)) {first : Bool}
    {text rest final : List Char} (ends : Ends rest)
    (next : nextItem first text = .ok (true, item.content.chars ++ (item.after.chars ++ rest)))
    {bound : Nat}
    (others : ∀ found, Read.items read bound false (item.after.chars ++ rest) = .ok found ↔
      Items spelled items found.1 ∧ found.2 = final)
    (found : List Value × List Char) :
    Read.items read (bound + 1) first text = .ok found ↔
      Items spelled (item :: items) found.1 ∧ found.2 = final := by
  have here := finds [] _ (ends.gap item.after)
  change ∀ found, read (item.content.chars ++ (item.after.chars ++ rest)) = .ok found ↔ _ at here
  rw [Read.items, next, bind_eq_ok_iff]
  simp only [Except.ok.injEq, exists_eq_left', if_true, bind_eq_ok_iff, here, Items,
    List.forall₂_cons_left_iff]
  constructor
  · rintro ⟨⟨value, after⟩, ⟨written, rfl⟩, ⟨values, after⟩, read, rfl⟩
    obtain ⟨each, rfl⟩ := (others _).mp read
    exact ⟨⟨value, values, written, each, rfl⟩, rfl⟩
  · rintro ⟨⟨value, values, written, each, same⟩, after⟩
    refine ⟨(value, _), ⟨written, rfl⟩, (values, found.2), (others _).mpr ⟨each, after⟩, ?_⟩
    rw [← same]

theorem items_tail_iff {items : List (Padded Source)}
    (each : ∀ item ∈ items, Finds read item.content (spelled item.content)) {bound : Nat}
    (enough : items.length < bound) (gap : Gap) (rest : List Char)
    (found : List Value × List Char) :
    Read.items read bound false (gap.chars ++ (Source.itemsTail items ++ rest)) = .ok found ↔
      Items spelled items found.1 ∧ found.2 = rest := by
  induction items generalizing bound gap found with
  | nil =>
    obtain ⟨bound, rfl⟩ := Nat.exists_eq_add_one.mpr enough
    change Read.items read (bound + 1) false (gap.chars ++ ']' :: rest) = _ ↔ _
    rw [items_closing, ok_eq_iff, Items, List.forall₂_nil_left_iff]
  | cons item items ih =>
    obtain ⟨bound, rfl⟩ := Nat.exists_eq_add_one.mpr (Nat.zero_lt_of_lt enough)
    have text : Source.itemsTail (item :: items) ++ rest = ',' :: (item.before.chars ++
        (item.content.chars ++ (item.after.chars ++ (Source.itemsTail items ++ rest)))) := by
      simp [Source.itemsTail, Source.itemChars_eq]
    rw [text]
    apply items_more (each item List.mem_cons_self) (Source.ends_itemsTail items rest)
    · exact nextItem_following gap item.before item.content _
    · exact ih (fun other later => each other (List.mem_cons_of_mem _ later))
        (Nat.lt_of_succ_lt_succ enough) item.after

/-- The elements of a list are found between its brackets. -/
theorem items_iff {items : List (Padded Source)}
    (each : ∀ item ∈ items, Finds read item.content (spelled item.content)) (inside : Gap)
    (rest : List Char) (found : List Value × List Char) :
    let text := inside.chars ++ (Source.itemsChars items ++ rest)
    Read.items read (text.length + 1) true text = .ok found ↔
      Items spelled items found.1 ∧ found.2 = rest := by
  intro text
  cases items with
  | nil =>
    change Read.items read _ true (inside.chars ++ ']' :: rest) = _ ↔ _
    rw [items_closing, ok_eq_iff, Items, List.forall₂_nil_left_iff]
  | cons item items =>
    -- Each item takes a character, so the bound by the length of the text is never reached.
    have enough : items.length < text.length := by
      have shorter := Source.length_lt_itemsTail items
      simp only [text, Source.itemsChars, List.length_append]
      omega
    have opened : text = Gap.chars (inside ++ item.before) ++ (item.content.chars ++
        (item.after.chars ++ (Source.itemsTail items ++ rest))) := by
      simp [text, Source.itemsChars, Source.itemChars_eq, Gap.chars_append]
    apply items_more (each item List.mem_cons_self) (Source.ends_itemsTail items rest)
    · rw [opened]
      exact nextItem_leading (inside ++ item.before) item.content _
    · exact items_tail_iff (fun other later => each other (List.mem_cons_of_mem _ later)) enough
        item.after rest

end

theorem sequence_finds {item : Reader Value} {spelled : Spelling Value}
    (each : ∀ depth source, Finds (item depth) source (spelled depth source)) (depth : Nat)
    (source : Source) :
    Finds (Read.sequence item depth) source (Spelling.sequence spelled depth source) := by
  intro gap rest ends found
  rw [Read.sequence, Source.skipBlanks_chars]
  cases source with
  | array inside items =>
    simp only [Source.chars, List.cons_append, List.append_assoc]
    cases depth with
    | zero => simp [opening, Spelling.sequence]
    | succ depth => exact items_iff (fun item _ => each depth item.content) inside rest found
  | number numeral =>
    obtain ⟨first, others, chars, numeric⟩ := exists_sign_or_digit numeral
    rw [chars]
    split <;> simp_all [Spelling.sequence]
  | boolean value => cases value <;> simp [Source.chars, Spelling.sequence]
  | _ => simp [Source.chars, Spelling.sequence]

theorem nextKey_closing (first : Bool) (gap : Gap) (rest : List Char) :
    nextKey first (gap.chars ++ '\x7d' :: rest) = .ok (false, '\x7d' :: rest) := by
  rw [nextKey, Scan.skipBlanks_token gap '\x7d' rfl]
  rfl

theorem nextKey_following (gap before : Gap) (rest : List Char) :
    nextKey false (gap.chars ++ ',' :: (before.chars ++ '"' :: rest)) =
      .ok (true, '"' :: rest) := by
  rw [nextKey, Scan.skipBlanks_token gap ',' rfl]
  simp [Scan.skipBlanks_token before '"' rfl]

theorem nextKey_leading (gap : Gap) (rest : List Char) :
    nextKey true (gap.chars ++ '"' :: rest) = .ok (true, '"' :: rest) := by
  rw [nextKey, Scan.skipBlanks_token gap '"' rfl]
  rfl

abbrev Entries (spelled : Source → Value → Prop) (members : List Member) :
    List (String × Value) → Prop :=
  List.Forall₂ (fun member entry =>
    Part.Spell member.1.content entry.1 ∧ spelled member.2.content entry.2) members

theorem entries_closing (read : List Char → Except Fault (Value × List Char)) (first : Bool)
    (bound : Nat) (gap : Gap) (rest : List Char) :
    Read.entries read (bound + 1) first (gap.chars ++ '\x7d' :: rest) = .ok ([], rest) := by
  rw [Read.entries, nextKey_closing]
  rfl

section

variable {read : List Char → Except Fault (Value × List Char)} {spelled : Source → Value → Prop}

def keyed (member : Member) (rest : List Char) : List Char :=
  '"' :: (Part.tail member.1.content ++
    (member.1.after.chars ++ ':' :: (member.2.before.chars ++
      (member.2.content.chars ++ (member.2.after.chars ++ rest)))))

theorem membersTail_append (member : Member) (members : List Member) (rest : List Char) :
    Source.membersTail (member :: members) ++ rest =
      ',' :: (member.1.before.chars ++ keyed member (Source.membersTail members ++ rest)) := by
  simp [Source.membersTail, Source.memberChars_eq, Source.itemChars_eq, keyed]

theorem membersChars_append (inside : Gap) (member : Member) (members : List Member)
    (rest : List Char) :
    inside.chars ++ (Source.membersChars (member :: members) ++ rest) =
      Gap.chars (inside ++ member.1.before) ++
        keyed member (Source.membersTail members ++ rest) := by
  simp [Source.membersChars, Source.memberChars_eq, Source.itemChars_eq, keyed, Gap.chars_append]

theorem entries_more {member : Member} {members : List Member}
    (finds : Finds read member.2.content (spelled member.2.content)) {first : Bool}
    {text rest final : List Char} (ends : Ends rest)
    (next : nextKey first text = .ok (true, keyed member rest)) {bound : Nat}
    (others : ∀ found, Read.entries read bound false (member.2.after.chars ++ rest) = .ok found ↔
      Entries spelled members found.1 ∧ found.2 = final)
    (found : List (String × Value) × List Char) :
    Read.entries read (bound + 1) first text = .ok found ↔
      Entries spelled (member :: members) found.1 ∧ found.2 = final := by
  have here := finds member.2.before _ (ends.gap member.2.after)
  rw [Read.entries, next, bind_eq_ok_iff]
  simp only [Except.ok.injEq, exists_eq_left', if_true, bind_eq_ok_iff, keyed, List.drop_succ_cons,
    List.drop_zero, Scan.string_iff, Entries, List.forall₂_cons_left_iff]
  constructor
  · rintro ⟨⟨key, _⟩, ⟨spells, rfl⟩, colon, behind, ⟨value, after⟩, valueRead, ⟨values, _⟩, more,
      rfl⟩
    -- The colon leaves the text at the value.
    cases (Scan.colon_gap member.1.after _).symm.trans behind
    obtain ⟨written, rfl⟩ := (here _).mp valueRead
    obtain ⟨each, rfl⟩ := (others _).mp more
    exact ⟨⟨(key, value), values, ⟨spells, written⟩, each, rfl⟩, rfl⟩
  · rintro ⟨⟨⟨key, value⟩, values, ⟨spells, written⟩, each, same⟩, after⟩
    refine ⟨(key, _), ⟨spells, rfl⟩, _, Scan.colon_gap member.1.after _, (value, _),
      (here _).mpr ⟨written, rfl⟩, (values, found.2), (others _).mpr ⟨each, after⟩, ?_⟩
    rw [← same]

theorem entries_tail_iff {members : List Member}
    (each : ∀ member ∈ members, Finds read member.2.content (spelled member.2.content))
    {bound : Nat} (enough : members.length < bound) (gap : Gap) (rest : List Char)
    (found : List (String × Value) × List Char) :
    Read.entries read bound false (gap.chars ++ (Source.membersTail members ++ rest)) =
        .ok found ↔
      Entries spelled members found.1 ∧ found.2 = rest := by
  induction members generalizing bound gap found with
  | nil =>
    obtain ⟨bound, rfl⟩ := Nat.exists_eq_add_one.mpr enough
    change Read.entries read (bound + 1) false (gap.chars ++ '\x7d' :: rest) = _ ↔ _
    rw [entries_closing, ok_eq_iff, Entries, List.forall₂_nil_left_iff]
  | cons member members ih =>
    obtain ⟨bound, rfl⟩ := Nat.exists_eq_add_one.mpr (Nat.zero_lt_of_lt enough)
    rw [membersTail_append]
    apply entries_more (each member List.mem_cons_self) (Source.ends_membersTail members rest)
    · exact nextKey_following gap member.1.before _
    · exact ih (fun other later => each other (List.mem_cons_of_mem _ later))
        (Nat.lt_of_succ_lt_succ enough) member.2.after

theorem entries_iff {members : List Member}
    (each : ∀ member ∈ members, Finds read member.2.content (spelled member.2.content))
    (inside : Gap) (rest : List Char) (found : List (String × Value) × List Char) :
    let text := inside.chars ++ (Source.membersChars members ++ rest)
    Read.entries read (text.length + 1) true text = .ok found ↔
      Entries spelled members found.1 ∧ found.2 = rest := by
  intro text
  cases members with
  | nil =>
    change Read.entries read _ true (inside.chars ++ '\x7d' :: rest) = _ ↔ _
    rw [entries_closing, ok_eq_iff, Entries, List.forall₂_nil_left_iff]
  | cons member members =>
    have enough : members.length < text.length := by
      have shorter := Source.length_lt_membersTail members
      simp only [text, Source.membersChars, List.length_append]
      omega
    apply entries_more (each member List.mem_cons_self) (Source.ends_membersTail members rest)
    · have opened : text = _ := membersChars_append inside member members rest
      rw [opened]
      exact nextKey_leading (inside ++ member.1.before) _
    · exact entries_tail_iff (fun other later => each other (List.mem_cons_of_mem _ later)) enough
        member.2.after rest

end

theorem dictionary_finds {item : Reader Value} {spelled : Spelling Value}
    (each : ∀ depth source, Finds (item depth) source (spelled depth source)) (depth : Nat)
    (source : Source) :
    Finds (Read.dictionary item depth) source (Spelling.dictionary spelled depth source) := by
  intro gap rest ends found
  rw [Read.dictionary, Source.skipBlanks_chars]
  cases source with
  | object inside members =>
    simp only [Source.chars, List.cons_append, List.append_assoc]
    cases depth with
    | zero => simp [opening, Spelling.dictionary]
    | succ depth =>
      have entries := entries_iff (fun member (_ : member ∈ members) =>
        each depth member.2.content) inside rest
      exact wrapped_iff entries Members.ofEntries found
  | number numeral =>
    obtain ⟨first, others, chars, numeric⟩ := exists_sign_or_digit numeral
    rw [chars]
    split <;> simp_all [Spelling.dictionary]
  | boolean value => cases value <;> simp [Source.chars, Spelling.dictionary]
  | _ => simp [Source.chars, Spelling.dictionary]

theorem optional_finds {item : Reader Value} {spelled : Spelling Value}
    (each : ∀ depth source, Finds (item depth) source (spelled depth source)) (depth : Nat)
    (source : Source) :
    Finds (Read.optional item depth) source (Spelling.optional spelled depth source) := by
  intro gap rest ends found
  rw [Read.optional, Source.skipBlanks_chars]
  -- Without a null the item is read at the same place.
  have here := each depth source [] rest ends
  change ∀ found, item depth (source.chars ++ rest) = .ok found ↔ _ at here
  have given := wrapped_iff here some found
  cases source with
  | null =>
    change (Scan.word ['u', 'l', 'l'] (['u', 'l', 'l'] ++ rest) >>= _) = _ ↔ _
    rw [Scan.word_append]
    exact ok_eq_iff
  | number numeral =>
    obtain ⟨first, others, chars, numeric⟩ := exists_sign_or_digit numeral
    rw [chars] at given ⊢
    split
    case h_1 word =>
      rw [(List.cons.inj word).1] at numeric
      simp at numeric
    case h_2 => exact given
  | boolean value => cases value <;> exact given
  | string => exact given
  | array => exact given
  | object => exact given

theorem valueWith_number (inside : Option (List Char → Except Fault (Json × List Char)))
    (gap : Gap) (numeral : Numeral) (rest : List Char) :
    valueWith inside (gap.chars ++ ((Source.number numeral).chars ++ rest)) = (do
      let (value, rest) ← Scan.number (!numeral.negative) (numeral.unsigned ++ rest)
      .ok (.number value, rest)) := by
  rw [valueWith, Source.skipBlanks_chars]
  obtain ⟨first, others, chars, digit⟩ := numeral.whole.exists_cons
  simp only [Source.chars, Numeral.chars]
  cases numeral.negative
  · simp only [Bool.false_eq_true, if_false, Numeral.unsigned_append chars]
    split <;> simp_all
  · rfl

theorem valueWith_finds {inside : Option (List Char → Except Fault (Json × List Char))}
    {depth : Nat} (bottom : inside = none → depth = 0)
    (deeper : ∀ item, inside = some item → ∃ less, depth = less + 1 ∧
      ∀ source, Finds item source (Spelling.value less source)) (source : Source) :
    Finds (valueWith inside) source (Spelling.value depth source) := by
  intro gap rest ends found
  cases source with
  | null =>
    rw [valueWith, Source.skipBlanks_chars]
    change (Scan.word ['u', 'l', 'l'] (['u', 'l', 'l'] ++ rest) >>= _) = _ ↔ _
    rw [Scan.word_append, Spelling.value]
    exact ok_eq_iff
  | boolean value =>
    rw [valueWith, Source.skipBlanks_chars]
    cases value
    · change (Scan.word ['a', 'l', 's', 'e'] (['a', 'l', 's', 'e'] ++ rest) >>= _) = _ ↔ _
      rw [Scan.word_append, Spelling.value]
      exact ok_eq_iff
    · change (Scan.word ['r', 'u', 'e'] (['r', 'u', 'e'] ++ rest) >>= _) = _ ↔ _
      rw [Scan.word_append, Spelling.value]
      exact ok_eq_iff
  | number numeral =>
    rw [valueWith_number, Spelling.value]
    exact wrapped_iff (Scan.number_iff numeral ends) Json.number found
  | string parts =>
    rw [valueWith, Source.skipBlanks_chars]
    rw [Spelling.value]
    exact wrapped_iff (Scan.string_iff parts rest) Json.string found
  -- At depth zero no bracket may be opened, and no value spells one.
  | array inner items =>
    rw [valueWith, Source.skipBlanks_chars]
    simp only [Source.chars, List.cons_append, List.append_assoc]
    cases inside with
    | none =>
      cases bottom rfl
      simp [Spelling.value]
    | some item =>
      obtain ⟨less, rfl, each⟩ := deeper item rfl
      rw [Spelling.value]
      exact wrapped_iff (items_iff (fun item _ => each item.content) inner rest) Json.array found
  | object inner members =>
    rw [valueWith, Source.skipBlanks_chars]
    simp only [Source.chars, List.cons_append, List.append_assoc]
    cases inside with
    | none =>
      cases bottom rfl
      simp [Spelling.value]
    | some item =>
      obtain ⟨less, rfl, each⟩ := deeper item rfl
      rw [Spelling.value]
      exact wrapped_iff (entries_iff (fun member _ => each member.2.content) inner rest)
        (fun entries => Json.object (Members.ofEntries entries)) found

/-- Any value is found, if it is not nested too deep. -/
theorem value_finds (depth : Nat) (source : Source) :
    Finds (Read.value depth) source (Spelling.value depth source) := by
  induction depth generalizing source with
  | zero => exact valueWith_finds (fun _ => rfl) (fun _ none => by cases none) source
  | succ depth ih =>
    apply valueWith_finds (fun none => by cases none)
    rintro item same
    cases same
    exact ⟨depth, rfl, ih⟩

/-- A document is read as what its value spells, whatever blanks stand around it. -/
theorem whole_iff {reader : Reader Value} {spelling : Spelling Value}
    (finds : ∀ depth source, Finds (reader depth) source (spelling depth source))
    (document : Document) (value : Value) :
    Read.whole reader document.text.toList = .ok value ↔
      spelling depthLimit document.content value := by
  have behind : Scan.skipBlanks document.after.chars = [] := by
    simpa [Scan.skipBlanks] using Scan.skipBlanks_gap document.after []
  have read := finds depthLimit document.content document.before _ (Ends.nil.gap document.after)
  rw [List.append_nil, ← Source.itemChars_eq] at read
  rw [Read.whole, Document.text, String.toList_ofList, bind_eq_ok_iff]
  simp only [read]
  constructor
  · rintro ⟨⟨found, after⟩, ⟨written, rfl⟩, ended⟩
    rw [behind] at ended
    cases ended
    exact written
  · intro written
    refine ⟨(value, document.after.chars), ⟨written, rfl⟩, ?_⟩
    rw [behind]

end Read

end EdgeRoutes.Json
