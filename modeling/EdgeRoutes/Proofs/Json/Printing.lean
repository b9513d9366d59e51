import EdgeRoutes.Proofs.Json.Record

/-! Written values as sources.

The text that a value is written as is that of a source, and this source spells the value again.
-/

set_option autoImplicit false

namespace EdgeRoutes.Json

universe u

/-- The value is written as the text of a source with this property. -/
def Printed (json : Json) (spelled : Source → Prop) : Prop :=
  ∃ source : Source, source.chars = json.chars .json ∧ spelled source

theorem Part.decoded?_scalar {unit : CodeUnit} (alone : ¬ (unit.Leads ∨ unit.Trails))
    (parts : List Part) :
    decoded? (.numeric unit :: parts) = (decoded? parts).map (Char.ofNat unit.value :: ·) := by
  obtain ⟨notLeads, notTrails⟩ := not_or.mp alone
  match parts with
  | [] | .plain _ _ _ _ :: _ | .short _ :: _ => simp [decoded?, alone]
  | .numeric _ :: _ => simp [decoded?, notLeads, notTrails]

theorem exists_part (char : Char) :
    ∃ part : Part, part.chars = escapedChar char ∧
      ∀ parts, Part.decoded? (part :: parts) = (Part.decoded? parts).map (char :: ·) := by
  unfold escapedChar
  split
  case isTrue same => subst same; exact ⟨.short .quote, rfl, fun _ => rfl⟩
  split
  case isTrue same => subst same; exact ⟨.short .backslash, rfl, fun _ => rfl⟩
  split
  case isTrue same => subst same; exact ⟨.short .backspace, rfl, fun _ => rfl⟩
  split
  case isTrue same => subst same; exact ⟨.short .formFeed, rfl, fun _ => rfl⟩
  split
  case isTrue same => subst same; exact ⟨.short .lineFeed, rfl, fun _ => rfl⟩
  split
  case isTrue same => subst same; exact ⟨.short .carriageReturn, rfl, fun _ => rfl⟩
  split
  case isTrue same => subst same; exact ⟨.short .tab, rfl, fun _ => rfl⟩
  split
  case isTrue control =>
    -- A control character is below 32, which takes two of the four digits.
    let unit : CodeUnit := ⟨⟨0, false⟩, ⟨0, false⟩, ⟨⟨char.toNat / 16, by omega⟩, false⟩,
      ⟨⟨char.toNat % 16, by omega⟩, false⟩⟩
    have value : unit.value = char.toNat := by
      simp only [unit, CodeUnit.value, Fin.val_zero]
      omega
    have alone : ¬ (unit.Leads ∨ unit.Trails) := by
      unfold CodeUnit.Leads CodeUnit.Trails
      omega
    refine ⟨.numeric unit, rfl, fun parts => ?_⟩
    rw [Part.decoded?_scalar alone, value, Char.ofNat_toNat]
  case isFalse quote backslash _ _ _ _ _ visible =>
    exact ⟨.plain char (by omega) quote backslash, rfl, fun _ => rfl⟩

theorem exists_parts (text : String) :
    ∃ parts, '"' :: Part.tail parts = quote text ∧ Part.Spell parts text := by
  have written (chars : List Char) :
      ∃ parts : List Part, parts.flatMap Part.chars = chars.flatMap escapedChar ∧
        Part.decoded? parts = some chars := by
    induction chars with
    | nil => exact ⟨[], rfl, rfl⟩
    | cons char chars ih =>
      obtain ⟨part, text, decoded⟩ := exists_part char
      obtain ⟨parts, texts, others⟩ := ih
      refine ⟨part :: parts, by simp [text, texts], ?_⟩
      rw [decoded, others]
      rfl
  obtain ⟨parts, texts, decoded⟩ := written text.toList
  exact ⟨parts, by simp [Part.tail, quote, texts], decoded⟩

theorem printed_string (text : String) :
    Printed (.string text) fun source =>
      ∃ parts, source = .string parts ∧ Part.Spell parts text := by
  obtain ⟨parts, text, spells⟩ := exists_parts text
  exact ⟨.string parts, text, parts, rfl, spells⟩

theorem printed_boolean (value : Bool) : Printed (.boolean value) (· = .boolean value) :=
  ⟨.boolean value, by cases value <;> rfl, rfl⟩

theorem printed_null : Printed .null (· = .null) := ⟨.null, rfl, rfl⟩

def Digits.ofNat (value : Nat) : Digits where
  chars := Nat.toDigits 10 value
  nonempty := Nat.toDigits_ne_nil
  digits := fun _ present => Nat.isDigit_of_mem_toDigits (by decide) (by decide) present

theorem head?_toDigits {value : Nat} (zero : (Nat.toDigits 10 value).head? = some '0') :
    Nat.toDigits 10 value = ['0'] := by
  have value : value = 0 := by
    induction value using Nat.strongRecOn with
    | ind value ih =>
      by_cases single : value < 10
      · rw [Nat.toDigits_of_lt_base single] at zero
        interval_cases value <;> first | rfl | simp [Nat.digitChar] at zero
      · -- The first digit is that of the number without its last.
        rw [Nat.toDigits_of_base_le (by decide) (by omega),
          List.head?_append_of_ne_nil _ Nat.toDigits_ne_nil] at zero
        have front := ih (value / 10) (by omega) zero
        omega
  rw [value]
  rfl

def Numeral.ofInt (value : Int) : Numeral where
  negative := decide (value < 0)
  whole := .ofNat value.natAbs
  canonical := head?_toDigits
  fraction := none
  exponent := none

theorem Numeral.spells_ofInt {value : Int} (lower : -(Nat.pow 2 63 : Int) ≤ value)
    (upper : value < (Nat.pow 2 64 : Int)) : (Numeral.ofInt value).Spells value := by
  have magnitude : (Numeral.ofInt value).magnitude = value.natAbs :=
    Nat.ofDigitChars_toDigits (by decide) (by decide)
  refine ⟨rfl, rfl, ?_, ?_, lower, upper⟩
  · rw [magnitude]
    change value = if decide (value < 0) = true then -(value.natAbs : Int) else value.natAbs
    simp only [decide_eq_true_eq]
    split <;> omega
  · intro negative
    have below : value < 0 := by simpa [Numeral.ofInt] using negative
    omega

theorem Numeral.chars_ofInt (value : Int) : (Numeral.ofInt value).chars = integerChars value := by
  by_cases negative : value < 0
  · simp [Numeral.chars, unsigned, suffix, exponentChars, ofInt, Digits.ofNat, integerChars,
      negative]
  · have same : value.toNat = value.natAbs := by omega
    simp [Numeral.chars, unsigned, suffix, exponentChars, ofInt, Digits.ofNat, integerChars,
      negative, same]

theorem printed_integer {value : Int} (lower : -(Nat.pow 2 63 : Int) ≤ value)
    (upper : value < (Nat.pow 2 64 : Int)) :
    Printed (.number (.integer value)) fun source =>
      ∃ numeral, source = .number numeral ∧ numeral.Spells value := by
  refine ⟨.number (.ofInt value), ?_, _, rfl, Numeral.spells_ofInt lower upper⟩
  exact (Numeral.chars_ofInt value).trans (by simp [Json.chars, Number.chars])

section

variable {Value : Type u} {json : Value → Json} {spelled : Source → Value → Prop}
  {values : List Value}

theorem exists_items (each : ∀ value ∈ values, Printed (json value) (spelled · value)) :
    ∃ items : List (Padded Source),
      Source.itemsTail items = Json.itemsChars .json (values.map json) ∧
      (Source.array [] items).chars = (Json.array (values.map json)).chars .json ∧
      List.Forall₂ (fun padded value => spelled padded.content value) items values := by
  induction values with
  | nil => exact ⟨[], rfl, rfl, .nil⟩
  | cons value values ih =>
    obtain ⟨source, text, written⟩ := each value List.mem_cons_self
    obtain ⟨items, texts, _, others⟩ :=
      ih fun other later => each other (List.mem_cons_of_mem _ later)
    refine ⟨⟨[], source, []⟩ :: items, ?_, ?_, .cons written others⟩
    · simp [Source.itemsTail, Source.itemChars, Json.itemsChars, Gap.chars, text, texts]
    · simp [Source.chars, Source.itemsChars, Source.itemChars, Json.chars, Gap.chars, text, texts]

theorem printed_array (each : ∀ value ∈ values, Printed (json value) (spelled · value)) :
    Printed (.array (values.map json)) fun source =>
      ∃ items, source = .array [] items ∧
        List.Forall₂ (fun padded value => spelled padded.content value) items values := by
  obtain ⟨items, _, text, written⟩ := exists_items each
  exact ⟨_, text, items, rfl, written⟩

variable {key : Value → String}

theorem exists_members (each : ∀ value ∈ values, Printed (json value) (spelled · value)) :
    ∃ members : List Member,
      Source.membersTail members =
        Json.membersChars .json (values.map fun value => (key value, json value)) ∧
      (Source.object [] members).chars =
        (Json.object (values.map fun value => (key value, json value))).chars .json ∧
      List.Forall₂ (fun member value =>
        Part.Spell member.1.content (key value) ∧ spelled member.2.content value)
        members values := by
  induction values with
  | nil => exact ⟨[], rfl, rfl, .nil⟩
  | cons value values ih =>
    obtain ⟨parts, quoted, spells⟩ := exists_parts (key value)
    obtain ⟨source, text, written⟩ := each value List.mem_cons_self
    obtain ⟨members, texts, _, others⟩ :=
      ih fun other later => each other (List.mem_cons_of_mem _ later)
    refine ⟨(⟨[], parts, []⟩, ⟨[], source, []⟩) :: members, ?_, ?_, .cons ⟨spells, written⟩ others⟩
    · simp [Source.membersTail, Source.memberChars, Source.itemChars, Json.membersChars, Gap.chars,
        text, texts, ← quoted]
    · simp [Source.chars, Source.membersChars, Source.memberChars, Source.itemChars, Json.chars,
        Gap.chars, text, texts, ← quoted]

theorem printed_object (each : ∀ value ∈ values, Printed (json value) (spelled · value)) :
    Printed (.object (values.map fun value => (key value, json value))) fun source =>
      ∃ members, source = .object [] members ∧
        List.Forall₂ (fun member value =>
          Part.Spell member.1.content (key value) ∧ spelled member.2.content value)
          members values := by
  obtain ⟨members, _, text, written⟩ := exists_members each
  exact ⟨_, text, members, rfl, written⟩

end

/-- A value without floating-point numbers that is nested no deeper than this. Its whole numbers
fit 64 bits, and each object has its keys in order. -/
inductive Plain : Nat → Json → Prop where
  | null {depth : Nat} : Plain depth .null
  | boolean {depth : Nat} (value : Bool) : Plain depth (.boolean value)
  | integer {depth : Nat} {value : Int} (lower : -(Nat.pow 2 63 : Int) ≤ value)
      (upper : value < (Nat.pow 2 64 : Int)) : Plain depth (.number (.integer value))
  | string {depth : Nat} (value : String) : Plain depth (.string value)
  | array {depth : Nat} {items : List Json} (each : ∀ item ∈ items, Plain depth item) :
      Plain (depth + 1) (.array items)
  | object {depth : Nat} {members : List (String × Json)} (sorted : Members.Sorted members)
      (each : ∀ member ∈ members, Plain depth member.2) : Plain (depth + 1) (.object members)

theorem Plain.printed {depth : Nat} {json : Json} (plain : Plain depth json) :
    Printed json (Spelling.value depth · json) := by
  induction plain with
  | null =>
    obtain ⟨source, text, rfl⟩ := printed_null
    exact ⟨_, text, by simp [Spelling.value]⟩
  | boolean value =>
    obtain ⟨source, text, rfl⟩ := printed_boolean value
    exact ⟨_, text, by simp [Spelling.value]⟩
  | integer lower upper =>
    obtain ⟨source, text, numeral, rfl, spells⟩ := printed_integer lower upper
    exact ⟨_, text, by simpa [Spelling.value] using .integer spells⟩
  | string value =>
    obtain ⟨source, text, parts, rfl, spells⟩ := printed_string value
    exact ⟨_, text, by simpa [Spelling.value] using spells⟩
  | @array depth items each ih =>
    have written : Printed (.array (items.map id)) fun source => ∃ padded,
        source = .array [] padded ∧ Read.Items (Spelling.value depth) padded items :=
      printed_array ih
    rw [List.map_id] at written
    obtain ⟨source, text, padded, rfl, spelled⟩ := written
    exact ⟨_, text, by simpa [Spelling.value] using spelled⟩
  | @object depth members sorted each ih =>
    have written : Printed (.object (members.map fun member => (member.1, member.2)))
        fun source => ∃ padded, source = .object [] padded ∧
          Read.Entries (Spelling.value depth) padded members :=
      printed_object ih
    rw [List.map_id' members] at written
    obtain ⟨source, text, padded, rfl, spelled⟩ := written
    -- The members are sorted, so putting them in order gives them back.
    refine ⟨_, text, ?_⟩
    simp only [Spelling.value]
    exact ⟨members, by rw [sorted.ofEntries_eq], spelled⟩

variable {depth : Nat}

theorem printed_text (text : String) : Printed (.string text) (Spelling.text depth · text) := by
  obtain ⟨source, written, parts, rfl, spells⟩ := printed_string text
  exact ⟨_, written, spells⟩

theorem printed_flag (value : Bool) :
    Printed (.boolean value) (Spelling.boolean depth · value) := by
  obtain ⟨source, text, rfl⟩ := printed_boolean value
  exact ⟨_, text, rfl⟩

theorem printed_natural {limit value : Nat} (within : value ≤ limit)
    (limited : limit < Nat.pow 2 64) :
    Printed (.ofNat value) (Spelling.natural limit depth · value) := by
  have lower : -(Nat.pow 2 63 : Int) ≤ (value : Int) := by omega
  have upper : (value : Int) < (Nat.pow 2 64 : Int) := by omega
  obtain ⟨source, text, numeral, rfl, spells⟩ := printed_integer lower upper
  exact ⟨_, text, spells, within⟩

section

variable {Value : Type} {item : Spelling Value}

theorem printed_sequence {json : Value → Json} {values : List Value}
    (each : ∀ value ∈ values, Printed (json value) (item depth · value)) :
    Printed (.array (values.map json)) (Spelling.sequence item (depth + 1) · values) := by
  obtain ⟨source, text, items, rfl, written⟩ := printed_array each
  exact ⟨_, text, written⟩

theorem printed_dictionary {json : Value → Json} {entries : List (String × Value)}
    (sorted : Members.Sorted entries)
    (each : ∀ entry ∈ entries, Printed (json entry.2) (item depth · entry.2)) :
    Printed (.object (entries.map fun entry => (entry.1, json entry.2)))
      (Spelling.dictionary item (depth + 1) · entries) := by
  have written : Printed (.object (entries.map fun entry => (entry.1, json entry.2)))
      fun source => ∃ members, source = .object [] members ∧
        Read.Entries (item depth) members entries :=
    printed_object each
  obtain ⟨source, text, members, rfl, written⟩ := written
  exact ⟨_, text, entries, sorted.ofEntries_eq.symm, written⟩

theorem printed_given {json : Json} {value : Value}
    (apart : json.chars .json ≠ ['n', 'u', 'l', 'l'])
    (printed : Printed json (item depth · value)) :
    Printed json (Spelling.optional item depth · (some value)) := by
  obtain ⟨source, text, written⟩ := printed
  refine ⟨source, text, ?_⟩
  cases source with
  | null => exact absurd text.symm apart
  | _ => exact ⟨value, rfl, written⟩

end

variable {Record : Type} {slots : List (Slot Record)}

section

variable {holds : Slot Record → Source → Prop} {members : List Member}

theorem named (written : List.Forall₂ (fun member slot =>
      Part.Spell member.1.content slot.name ∧ holds slot member.2.content) members slots) :
    Source.Named members := by
  induction written with
  | nil => exact List.forall_mem_nil _
  | cons here _ ih => exact List.forall_mem_cons.mpr ⟨⟨_, here.1⟩, ih⟩

theorem under_eq_nil (written : List.Forall₂ (fun member slot =>
      Part.Spell member.1.content slot.name ∧ holds slot member.2.content) members slots)
    {name : String} (absent : name ∉ slots.map (·.name)) : Source.under name members = [] := by
  induction written with
  | nil => rfl
  | cons here _ ih =>
    rw [List.map_cons, List.mem_cons, not_or] at absent
    rw [Source.under_cons name _ here.1, if_neg (Ne.symm absent.1), ih absent.2]

theorem under_eq_singleton (written : List.Forall₂ (fun member slot =>
      Part.Spell member.1.content slot.name ∧ holds slot member.2.content) members slots)
    (names : (slots.map (·.name)).Nodup) {slot : Slot Record} (present : slot ∈ slots) :
    ∃ source, Source.under slot.name members = [source] ∧ holds slot source := by
  induction written with
  | nil => cases present
  | @cons member first members slots here others ih =>
    rw [List.map_cons, List.nodup_cons] at names
    rw [Source.under_cons slot.name _ here.1]
    rcases List.mem_cons.mp present with rfl | later
    · rw [if_pos rfl, under_eq_nil others names.1]
      exact ⟨_, rfl, here.2⟩
    · have apart : first.name ≠ slot.name := fun same =>
        names.1 (same ▸ List.mem_map_of_mem later)
      rw [if_neg apart]
      exact ih names.2 later

end

def Slot.Shows (depth : Nat) (record : Record) (slot : Slot Record) (source : Source) : Prop :=
  slot.spelling depth source (slot.get record)

/-- A record is written as the object of its fields. -/
theorem printed_record (lawful : Slot.Lawful slots) {record : Record} {fields : List Json}
    (each : List.Forall₂ (fun slot json => Printed json (slot.Shows depth record)) slots fields) :
    Printed (.object ((slots.map (·.name)).zip fields))
      (Spelling.record slots (depth + 1) · record) := by
  obtain ⟨same, pairs⟩ := List.forall₂_iff_zip.mp each
  have written : Printed (.object ((slots.zip fields).map fun pair => (pair.1.name, pair.2)))
      fun source => ∃ members, source = .object [] members ∧
        List.Forall₂ (fun member (pair : Slot Record × Json) =>
          Part.Spell member.1.content pair.1.name ∧
            pair.1.Shows depth record member.2.content) members (slots.zip fields) :=
    printed_object fun pair present => pairs present
  obtain ⟨source, text, members, rfl, written⟩ := written
  -- The fields that stand in the pairs are all slots in their order.
  have own : List.Forall₂ (fun member slot => Part.Spell member.1.content slot.name ∧
      slot.Shows depth record member.2.content) members slots := by
    have first : (slots.zip fields).map Prod.fst = slots := List.map_fst_zip (Nat.le_of_eq same)
    rw [← first, List.forall₂_map_right_iff]
    exact written
  refine ⟨.object [] members, ?_, named own, fun slot present => ?_⟩
  · rw [text, List.zip_map_left]
    rfl
  · obtain ⟨source, alone, spelled⟩ := under_eq_singleton own lawful.names present
    rw [alone]
    exact spelled

end EdgeRoutes.Json
