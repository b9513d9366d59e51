import EdgeRoutes.Proofs.Json.Record

/-! How records are read.

A reader of records goes through the elements of a list or the members of an object and changes
one record as it goes. From a blank record on this gives what `Spelling.record` says of the
source, if each field of the reader serves one slot.
-/

set_option autoImplicit false

namespace EdgeRoutes.Json.Read

variable {Record : Type}

def Field.Serves (field : Field Record) (slot : Slot Record) : Prop :=
  ∃ reader : Reader slot.Value,
    field = .of slot.name slot.default?.isNone reader slot.set ∧
      ∀ depth source, Finds (reader depth) source (slot.spelling depth source)

/-- A shape reads the records with certain slots. -/
structure Shape.Serves (shape : Shape Record) (slots : List (Slot Record)) : Prop where
  lawful : Slot.Lawful slots
  fields : List.Forall₂ Field.Serves shape.fields slots
  blank : ∀ slot ∈ slots, ∀ value, slot.default? = some value → slot.get shape.blank = value

variable {shape : Shape Record} {slots : List (Slot Record)}

theorem Field.Serves.name {field : Field Record} {slot : Slot Record}
    (serves : Field.Serves field slot) : field.name = slot.name := by
  obtain ⟨reader, rfl, _⟩ := serves
  rfl

theorem Field.Serves.required {field : Field Record} {slot : Slot Record}
    (serves : Field.Serves field slot) : field.required = slot.default?.isNone := by
  obtain ⟨reader, rfl, _⟩ := serves
  rfl

theorem Field.Serves.read_finds {field : Field Record} {slot : Slot Record}
    (serves : Field.Serves field slot) (record : Record) (depth : Nat) (source : Source) :
    Finds (field.read record depth) source fun changed =>
      ∃ value, changed = slot.set record value ∧ slot.spelling depth source value := by
  obtain ⟨reader, rfl, finds⟩ := serves
  intro gap rest ends found
  exact wrapped_iff (finds depth source gap rest ends) (slot.set record) found

theorem find_field {fields : List (Field Record)} (serves : List.Forall₂ Field.Serves fields slots)
    (name : String) :
    (∃ slot ∈ slots, slot.name = name ∧
      ∃ field, fields.find? (·.name == name) = some field ∧ Field.Serves field slot) ∨
    (fields.find? (·.name == name) = none ∧ ∀ slot ∈ slots, slot.name ≠ name) := by
  induction serves with
  | nil => exact Or.inr ⟨rfl, List.forall_mem_nil _⟩
  | @cons field slot fields slots here _ ih =>
    by_cases same : slot.name = name
    · refine Or.inl ⟨slot, List.mem_cons_self, same, field, ?_, here⟩
      simp [here.name, same]
    · have passed : (field :: fields).find? (·.name == name) = fields.find? (·.name == name) := by
        simp [here.name, same]
      rw [passed]
      rcases ih with ⟨other, present, found⟩ | ⟨none, foreign⟩
      · exact Or.inl ⟨other, List.mem_cons_of_mem _ present, found⟩
      · exact Or.inr ⟨none, List.forall_mem_cons.mpr ⟨same, foreign⟩⟩

theorem find_missing {fields : List (Field Record)}
    (serves : List.Forall₂ Field.Serves fields slots) (seen : List String) :
    (fields.find? fun field => field.required && !seen.contains field.name) = none ↔
      ∀ slot ∈ slots, slot.default? = none → slot.name ∈ seen := by
  induction serves with
  | nil => simp
  | @cons field slot fields slots here _ ih =>
    rw [List.forall_mem_cons, ← ih, List.find?_cons, here.name, here.required]
    cases slot.default? with
    | none => by_cases present : slot.name ∈ seen <;> simp [present]
    | some value => simp

theorem byName_closing (serves : shape.Serves slots) (depth bound : Nat) (seen : List String)
    (record : Record) (gap : Gap) (rest : List Char) (found : Record × List Char) :
    shape.byName depth (bound + 1) seen record (gap.chars ++ '\x7d' :: rest) = .ok found ↔
      Slot.Follows slots depth seen record [] found.1 ∧ found.2 = rest := by
  rw [Slot.follows_nil_iff, ← find_missing serves.fields seen, Shape.byName, nextKey_closing]
  simp only [bind, Except.bind, Bool.false_eq_true, if_false, List.drop_succ_cons, List.drop_zero]
  cases (shape.fields.find? fun field => field.required && !seen.contains field.name) with
  | none =>
    simp only [and_true]
    exact ok_eq_iff
  | some field => simp

theorem string_keyed {member : Member} {name : String} (spells : Part.Spell member.1.content name)
    (rest : List Char) :
    Scan.string ((keyed member rest).drop 1) = .ok (name, member.1.after.chars ++
      ':' :: (member.2.before.chars ++
        (member.2.content.chars ++ (member.2.after.chars ++ rest)))) :=
  (Scan.string_iff _ _ (name, _)).mpr ⟨spells, rfl⟩

section

variable {depth bound : Nat} {seen : List String} {record : Record} {member : Member}
  {text rest : List Char} {name : String} {field : Field Record}

theorem byName_unknown (ends : Ends rest)
    (next : nextKey seen.isEmpty text = .ok (true, keyed member rest))
    (spells : Part.Spell member.1.content name)
    (unknown : shape.fields.find? (·.name == name) = none) :
    shape.byName depth (bound + 1) seen record text =
      shape.byName depth bound (name :: seen) record (member.2.after.chars ++ rest) := by
  have passed := Skip.value_passes member.2.content member.2.before _ (ends.gap member.2.after)
  rw [Shape.byName, next]
  change (Scan.string ((keyed member rest).drop 1) >>= _) = _
  rw [string_keyed spells]
  simp only [bind, Except.bind, unknown, Scan.colon_gap, passed]

theorem byName_repeated (next : nextKey seen.isEmpty text = .ok (true, keyed member rest))
    (spells : Part.Spell member.1.content name)
    (known : shape.fields.find? (·.name == name) = some field) (again : name ∈ seen)
    (found : Record × List Char) :
    shape.byName depth (bound + 1) seen record text ≠ .ok found := by
  rw [Shape.byName, next]
  change (Scan.string ((keyed member rest).drop 1) >>= _) ≠ _
  rw [string_keyed spells]
  simp [bind, Except.bind, known, again]

theorem byName_fresh (next : nextKey seen.isEmpty text = .ok (true, keyed member rest))
    (spells : Part.Spell member.1.content name)
    (known : shape.fields.find? (·.name == name) = some field) (fresh : name ∉ seen) :
    shape.byName depth (bound + 1) seen record text =
      (field.read record depth (member.2.before.chars ++
        (member.2.content.chars ++ (member.2.after.chars ++ rest))) >>=
          fun read => shape.byName depth bound (name :: seen) read.1 read.2) := by
  rw [Shape.byName, next]
  change (Scan.string ((keyed member rest).drop 1) >>= _) = _
  rw [string_keyed spells]
  simp [bind, Except.bind, known, fresh, Scan.colon_gap]

end

theorem byName_more (serves : shape.Serves slots) {depth bound : Nat} {seen : List String}
    {record : Record} {member : Member} {members : List Member} {text rest final : List Char}
    (ends : Ends rest) (next : nextKey seen.isEmpty text = .ok (true, keyed member rest))
    (others : ∀ name record found,
      shape.byName depth bound (name :: seen) record (member.2.after.chars ++ rest) = .ok found ↔
        Slot.Follows slots depth (name :: seen) record members found.1 ∧ found.2 = final)
    (found : Record × List Char) :
    shape.byName depth (bound + 1) seen record text = .ok found ↔
      Slot.Follows slots depth seen record (member :: members) found.1 ∧ found.2 = final := by
  constructor
  · intro read
    obtain ⟨name, spells⟩ : ∃ name, Part.Spell member.1.content name := by
      rw [Shape.byName, next] at read
      change (Scan.string ((keyed member rest).drop 1) >>= _) = _ at read
      obtain ⟨⟨name, _⟩, key, _⟩ := bind_eq_ok_iff.mp read
      exact ⟨name, ((Scan.string_iff _ _ _).mp key).1⟩
    rcases find_field serves.fields name with ⟨slot, present, rfl, field, known, reads⟩ |
      ⟨unknown, foreign⟩
    · by_cases again : slot.name ∈ seen
      · exact absurd read (byName_repeated next spells known again found)
      · rw [byName_fresh next spells known again] at read
        obtain ⟨⟨changed, after⟩, taken, more⟩ := bind_eq_ok_iff.mp read
        obtain ⟨⟨value, rfl, written⟩, rfl⟩ :=
          (reads.read_finds record depth member.2.content member.2.before _
            (ends.gap member.2.after) _).mp taken
        obtain ⟨follows, final⟩ := (others _ _ _).mp more
        exact ⟨.taken spells present again written follows, final⟩
    · rw [byName_unknown ends next spells unknown] at read
      obtain ⟨follows, final⟩ := (others _ _ _).mp read
      exact ⟨.passed spells foreign follows, final⟩
  · rintro ⟨follows, final⟩
    cases follows with
    | @passed _ _ _ name _ _ spells foreign follows =>
      rcases find_field serves.fields name with ⟨slot, present, same, _⟩ | ⟨unknown, _⟩
      · exact absurd same (foreign slot present)
      · rw [byName_unknown ends next spells unknown]
        exact (others _ _ _).mpr ⟨follows, final⟩
    | @taken _ _ _ slot _ _ value spells present fresh written follows =>
      rcases find_field serves.fields slot.name with ⟨other, there, same, field, known, reads⟩ |
        ⟨_, foreign⟩
      · cases serves.lawful.eq_of_name there present same
        rw [byName_fresh next spells known fresh]
        have taken := (reads.read_finds record depth member.2.content member.2.before _
          (ends.gap member.2.after) (slot.set record value, _)).mpr ⟨⟨value, rfl, written⟩, rfl⟩
        exact bind_eq_ok_iff.mpr ⟨_, taken, (others _ _ _).mpr ⟨follows, final⟩⟩
      · exact absurd rfl (foreign slot present)

theorem byName_tail_iff (serves : shape.Serves slots) (depth : Nat) {members : List Member}
    {bound : Nat} (enough : members.length < bound) {seen : List String}
    (started : seen.isEmpty = false) (record : Record) (gap : Gap) (rest : List Char)
    (found : Record × List Char) :
    shape.byName depth bound seen record (gap.chars ++ (Source.membersTail members ++ rest)) =
        .ok found ↔
      Slot.Follows slots depth seen record members found.1 ∧ found.2 = rest := by
  induction members generalizing bound seen record gap found with
  | nil =>
    obtain ⟨bound, rfl⟩ := Nat.exists_eq_add_one.mpr enough
    exact byName_closing serves depth bound seen record gap rest found
  | cons member members ih =>
    obtain ⟨bound, rfl⟩ := Nat.exists_eq_add_one.mpr (Nat.zero_lt_of_lt enough)
    rw [membersTail_append]
    apply byName_more serves (Source.ends_membersTail members rest)
    · rw [started]
      exact nextKey_following gap member.1.before _
    · intro name record
      exact ih (Nat.lt_of_succ_lt_succ enough) rfl record member.2.after

/-- The fields of a record are found between the braces, in whatever order they come. -/
theorem byName_iff (serves : shape.Serves slots) (depth : Nat) (members : List Member)
    (inside : Gap) (rest : List Char) (found : Record × List Char) :
    let text := inside.chars ++ (Source.membersChars members ++ rest)
    shape.byName depth (text.length + 1) [] shape.blank text = .ok found ↔
      (Source.Named members ∧ ∀ slot ∈ slots,
        slot.Given depth found.1 (Source.under slot.name members)) ∧ found.2 = rest := by
  intro text
  -- The blank record holds the defaults, so a field without a source is given its default.
  have given (slot : Slot Record) (present : slot ∈ slots) (sources : List Source) :
      slot.Becomes depth [] shape.blank found.1 sources ↔ slot.Given depth found.1 sources := by
    match sources with
    | [] =>
      have blank := serves.blank slot present
      cases default : slot.default? with
      | none => simp [Slot.Becomes, Slot.Given, Slot.Gives, default]
      | some value =>
        simp [Slot.Becomes, Slot.Given, Slot.Gives, default, blank value default, eq_comm]
    | [source] => simp [Slot.Becomes, Slot.Given, Slot.Gives]
    | _ :: _ :: _ => simp [Slot.Becomes, Slot.Given, Slot.Gives]
  have follows : shape.byName depth (text.length + 1) [] shape.blank text = .ok found ↔
      Slot.Follows slots depth [] shape.blank members found.1 ∧ found.2 = rest := by
    cases members with
    | nil => exact byName_closing serves depth _ [] shape.blank inside rest found
    | cons member members =>
      have enough : members.length < text.length := by
        have shorter := Source.length_lt_membersTail members
        simp only [text, Source.membersChars, List.length_append]
        omega
      have opened : text = _ := membersChars_append inside member members rest
      apply byName_more serves (Source.ends_membersTail members rest)
      · rw [opened]
        exact nextKey_leading (inside ++ member.1.before) _
      · intro name record
        exact byName_tail_iff serves depth enough rfl record member.2.after rest
  rw [follows, Slot.follows_iff serves.lawful]
  have each : (∀ slot ∈ slots, slot.Becomes depth [] shape.blank found.1
      (Source.under slot.name members)) ↔
      ∀ slot ∈ slots, slot.Given depth found.1 (Source.under slot.name members) :=
    forall₂_congr fun slot present => given slot present _
  rw [each]

/-- A list goes on with these elements, whether or not one has been read before. -/
structure Pending (first : Bool) (text : List Char) (items : List (Padded Source))
    (rest : List Char) : Prop where
  closing : items = [] → nextItem first text = .ok (false, ']' :: rest) ∧
    Shape.listEnd text = .ok rest
  more : ∀ item others, items = item :: others →
    nextItem first text = .ok (true, item.content.chars ++
      (item.after.chars ++ (Source.itemsTail others ++ rest))) ∧
    ∀ unread, Shape.listEnd text ≠ .ok unread

theorem pending_tail (gap : Gap) (items : List (Padded Source)) (rest : List Char) :
    Pending false (gap.chars ++ (Source.itemsTail items ++ rest)) items rest where
  closing := by
    rintro rfl
    refine ⟨nextItem_closing false gap rest, ?_⟩
    change Shape.listEnd (gap.chars ++ ']' :: rest) = _
    rw [Shape.listEnd, Scan.skipBlanks_token gap ']' rfl]
    rfl
  more := by
    rintro item others rfl
    have text : Source.itemsTail (item :: others) ++ rest = ',' :: (item.before.chars ++
        (item.content.chars ++ (item.after.chars ++ (Source.itemsTail others ++ rest)))) := by
      simp [Source.itemsTail, Source.itemChars_eq]
    rw [text]
    refine ⟨nextItem_following gap item.before item.content _, fun unread => ?_⟩
    rw [Shape.listEnd, Scan.skipBlanks_token gap ',' rfl]
    simp only
    split <;> simp

theorem pending_first (inside : Gap) (items : List (Padded Source)) (rest : List Char) :
    Pending true (inside.chars ++ (Source.itemsChars items ++ rest)) items rest where
  closing := by
    rintro rfl
    refine ⟨nextItem_closing true inside rest, ?_⟩
    change Shape.listEnd (inside.chars ++ ']' :: rest) = _
    rw [Shape.listEnd, Scan.skipBlanks_token inside ']' rfl]
    rfl
  more := by
    rintro item others rfl
    have text : inside.chars ++ (Source.itemsChars (item :: others) ++ rest) =
        Gap.chars (inside ++ item.before) ++ (item.content.chars ++
          (item.after.chars ++ (Source.itemsTail others ++ rest))) := by
      simp [Source.itemsChars, Source.itemChars_eq, Gap.chars_append]
    rw [text]
    refine ⟨nextItem_leading (inside ++ item.before) item.content _, fun unread => ?_⟩
    rw [Shape.listEnd, Source.skipBlanks_chars]
    obtain ⟨char, chars, written, opens⟩ := item.content.exists_opens
    rw [written]
    split
    case h_1 closed => exact absurd (List.cons.inj closed).1 opens.visible.2.1
    case h_2 => split <;> simp
    case h_3 => simp
    case h_4 => simp

theorem findIdx?_required {fields : List (Field Record)} {slots : List (Slot Record)}
    (serves : List.Forall₂ Field.Serves fields slots) :
    fields.findIdx? (·.required) = none ↔ ∀ slot ∈ slots, slot.default? ≠ none := by
  induction serves with
  | nil => simp
  | @cons field slot fields slots here _ ih =>
    rw [List.findIdx?_cons, List.forall_mem_cons, ← ih, here.required]
    cases slot.default? <;> simp

/-- The fields are found in the elements still to come. -/
theorem inOrder_iff (shape : Shape Record) (depth : Nat) {fields : List (Field Record)}
    {slots : List (Slot Record)} (serves : List.Forall₂ Field.Serves fields slots)
    (position : Nat) (record : Record) {items : List (Padded Source)} {text rest : List Char}
    (pending : Pending (position == 0) text items rest) (found : Record × List Char) :
    shape.inOrder depth fields position record text = .ok found ↔
      Slot.Fills depth slots record (items.map (·.content)) found.1 ∧ found.2 = rest := by
  induction serves generalizing position record items text with
  | nil =>
    cases items with
    | nil =>
      obtain ⟨_, ended⟩ := pending.closing rfl
      rw [Shape.inOrder, ended]
      change Except.ok (record, rest) = _ ↔ _
      rw [ok_eq_iff, List.map_nil, Slot.fills_nil_iff]
      simp
    | cons item items =>
      obtain ⟨_, unended⟩ := pending.more item items rfl
      constructor
      · intro read
        rw [Shape.inOrder] at read
        obtain ⟨unread, ended, _⟩ := bind_eq_ok_iff.mp read
        exact absurd ended (unended unread)
      · rintro ⟨⟨⟩, _⟩
  | @cons field slot fields slots reads others ih =>
    cases items with
    | nil =>
      obtain ⟨closed, _⟩ := pending.closing rfl
      rw [Shape.inOrder, closed, List.map_nil, Slot.fills_nil_iff,
        ← findIdx?_required (.cons reads others)]
      simp only [bind, Except.bind, Bool.false_eq_true, if_false, List.drop_succ_cons,
        List.drop_zero]
      cases (field :: fields).findIdx? (·.required) with
      | none =>
        simp only [true_and]
        exact ok_eq_iff
      | some missing => simp
    | cons item items =>
      obtain ⟨next, _⟩ := pending.more item items rfl
      -- One item goes to one field, and the rest of the list to the fields behind it.
      have step : shape.inOrder depth (field :: fields) position record text =
          (field.read record depth
            (item.content.chars ++ (item.after.chars ++ (Source.itemsTail items ++ rest))) >>=
              fun read => shape.inOrder depth fields (position + 1) read.1 read.2) := by
        rw [Shape.inOrder, next]
        rfl
      have read := reads.read_finds record depth item.content [] _
        ((Source.ends_itemsTail items rest).gap item.after)
      have later (record : Record) := ih (position + 1) record (pending_tail item.after items rest)
      rw [step, bind_eq_ok_iff]
      constructor
      · rintro ⟨⟨changed, after⟩, taken, more⟩
        obtain ⟨⟨value, rfl, written⟩, rfl⟩ := (read _).mp taken
        obtain ⟨fills, final⟩ := (later _).mp more
        exact ⟨.taken written fills, final⟩
      · rintro ⟨fills, final⟩
        cases fills with
        | @taken _ _ _ _ value _ _ written fills =>
          have taken := (read (slot.set record value, _)).mpr ⟨⟨value, rfl, written⟩, rfl⟩
          exact ⟨_, taken, (later _).mpr ⟨fills, final⟩⟩

theorem Shape.Serves.finds (serves : shape.Serves slots) (depth : Nat) (source : Source) :
    Finds (shape.read depth) source (Spelling.record slots depth source) := by
  intro gap rest ends found
  rw [Shape.read, Source.skipBlanks_chars]
  cases source with
  | array inside items =>
    simp only [Source.chars, List.cons_append, List.append_assoc]
    cases depth with
    | zero => simp [opening, Spelling.record]
    | succ depth =>
      have read := inOrder_iff shape depth serves.fields 0 shape.blank
        (pending_first inside items rest) found
      rw [Slot.fills_iff [] serves.lawful serves.blank] at read
      simpa [opening, Spelling.record] using read
  | object inside members =>
    simp only [Source.chars, List.cons_append, List.append_assoc]
    cases depth with
    | zero => simp [opening, Spelling.record]
    | succ depth => exact byName_iff serves depth members inside rest found
  | number numeral =>
    obtain ⟨first, others, chars, numeric⟩ := exists_sign_or_digit numeral
    rw [chars]
    split <;> simp_all [Spelling.record]
  | boolean value => cases value <;> simp [Source.chars, Spelling.record]
  | _ => simp [Source.chars, Spelling.record]

end EdgeRoutes.Json.Read
