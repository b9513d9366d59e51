import EdgeRoutes.Proofs.Toml.Keys
import EdgeRoutes.Proofs.Toml.Numbers

/-! Reading the values of a TOML text.

A reader finds the values of a form if it reads just those, up to where a value may end. An array
and a table in braces are found where the values within them are, so all values are found by
induction on the number of brackets that may be opened.
-/

set_option autoImplicit false

namespace EdgeRoutes.Toml

open Grammar

variable {text rest : List Char} {item : Item} {read : Scan Item} {form : Form}

/-- The reader reads just what is written in the form, up to where a value may end. -/
structure Finds (read : Scan Item) (form : Form) : Prop where
  sound : ∀ {item text rest}, read text = some (item, rest) → form item text rest
  complete : ∀ {item text rest}, form item text rest → Ends rest → read text = some (item, rest)
  visible : ∀ {item text rest}, form item text rest → Visible text
  apart : ∀ {item text rest}, form item text rest → text.head? ≠ some ']'
  suffix : ∀ {item text rest}, form item text rest → rest <:+ text

theorem visible_cons {char : Char} (known : char ∈ [',', ']', '\x7d']) (rest : List Char) :
    Visible (char :: rest) := by
  refine ⟨char, rest, rfl, ?_⟩
  simp only [List.mem_cons, List.not_mem_nil, or_false] at known
  rcases known with rfl | rfl | rfl <;> decide

namespace Grammar

theorem Pair.indent {path : List String} {middle : List Char} (gap : Gap text middle)
    (pair : Pair form path item middle rest) : Pair form path item text rest := by
  cases pair with
  | equals key short indent written => exact .equals (key.indent gap) short indent written

theorem Pair.strip {path : List String} (pair : Pair form path item text rest) :
    Pair form path item (skipBlanks text) rest := by
  cases pair with
  | equals key short indent written => exact .equals key.strip short indent written

theorem Members.indent {before after : Entries} {middle : List Char} (gap : Gap text middle)
    (members : Members form before after middle rest) : Members form before after text rest := by
  cases members with
  | last pair free ending => exact .last (pair.indent gap) free ending
  | next pair free comma others => exact .next (pair.indent gap) free comma others

theorem Members.strip {before after : Entries} (members : Members form before after text rest) :
    Members form before after (skipBlanks text) rest := by
  cases members with
  | last pair free ending => exact .last pair.strip free ending
  | next pair free comma others => exact .next pair.strip free comma others

/-- The first entry of a table in braces begins with its key. -/
theorem Members.visible {before after : Entries} (members : Members form before after text rest) :
    ∃ char more, skipBlanks text = char :: more ∧ isBlank char = false ∧
      char ∉ ['#', '\n', '[', '\x7d'] := by
  have begins {path : List String} {item : Item} {rest : List Char}
      (pair : Pair form path item text rest) : ∃ char more, skipBlanks text = char :: more ∧
        isBlank char = false ∧ char ∉ ['#', '\n', '[', '\x7d'] := by
    cases pair with
    | equals key short indent written => exact key.visible
  cases members with
  | last pair free ending => exact begins pair
  | next pair free comma others => exact begins pair

end Grammar

namespace Finds

theorem items_suffix (finds : Finds read form) {items : List Item}
    (elements : Items form items text rest) : rest <:+ text := by
  induction elements with
  | close space => exact (List.suffix_cons _ _).trans space.suffix
  | last space written ending =>
    have behind := (List.suffix_cons _ _).trans ending.suffix
    exact behind.trans ((finds.suffix written).trans space.suffix)
  | next space written comma others ih =>
    have behind := (ih.trans (List.suffix_cons _ _)).trans comma.suffix
    exact behind.trans ((finds.suffix written).trans space.suffix)

theorem pair_suffix (finds : Finds read form) {path : List String}
    (pair : Pair form path item text rest) : rest <:+ text := by
  cases pair with
  | equals key short indent written =>
    have value := (finds.suffix written).trans indent.suffix
    exact (value.trans (List.suffix_cons _ _)).trans key.suffix

theorem members_suffix (finds : Finds read form) {before after : Entries}
    (members : Members form before after text rest) : rest <:+ text := by
  induction members with
  | last pair free ending =>
    exact ((List.suffix_cons _ _).trans ending.suffix).trans (finds.pair_suffix pair)
  | next pair free comma others ih =>
    have behind := (ih.trans (List.suffix_cons _ _)).trans comma.suffix
    exact behind.trans (finds.pair_suffix pair)

theorem items_of_arrayItems? (finds : Finds read form) {bound : Nat} {items : List Item}
    (found : arrayItems? read bound text = some (items, rest)) : Items form items text rest := by
  induction bound generalizing text items with
  | zero => cases found
  | succ bound ih =>
    obtain ⟨spelled, space, found⟩ := Option.bind_eq_some_iff.mp found
    replace space := space_of_skipLines space
    split at found
    · cases found
      exact .close space
    · obtain ⟨⟨item, behind⟩, value, found⟩ := Option.bind_eq_some_iff.mp found
      obtain ⟨following, ending, found⟩ := Option.bind_eq_some_iff.mp found
      replace ending := space_of_skipLines ending
      split at found
      · obtain ⟨⟨others, behind⟩, more, same⟩ := Option.bind_eq_some_iff.mp found
        cases same
        exact .next space (finds.sound value) ending (ih more)
      · cases found
        exact .last space (finds.sound value) ending
      · cases found

theorem arrayItems?_eq (finds : Finds read form) {items : List Item}
    (elements : Items form items text rest) {bound : Nat} (fits : text.length < bound) :
    arrayItems? read bound text = some (items, rest) := by
  induction elements generalizing bound with
  | close space =>
    obtain ⟨bound, rfl⟩ := Nat.exists_eq_succ_of_ne_zero (Nat.ne_zero_of_lt fits)
    unfold arrayItems?
    rw [space.skipLines_eq (visible_cons (by decide) _) (Nat.lt_succ_self _)]
    rfl
  | @last item text spelled behind rest space written ending =>
    obtain ⟨bound, rfl⟩ := Nat.exists_eq_succ_of_ne_zero (Nat.ne_zero_of_lt fits)
    have value := finds.complete written (ending.ends (by decide))
    have follows := ending.skipLines_eq (visible_cons (by decide) _) (Nat.lt_succ_self _)
    unfold arrayItems?
    rw [space.skipLines_eq (finds.visible written) (Nat.lt_succ_self _)]
    simp only [Option.bind_eq_bind, Option.bind_some]
    split
    next => exact absurd rfl (finds.apart written)
    next => simp [value, follows]
  | @next item items text spelled behind more rest space written comma others ih =>
    obtain ⟨bound, rfl⟩ := Nat.exists_eq_succ_of_ne_zero (Nat.ne_zero_of_lt fits)
    have value := finds.complete written (comma.ends (by decide))
    have follows := comma.skipLines_eq (visible_cons (by decide) _) (Nat.lt_succ_self _)
    -- The comma makes what is left shorter, so the bound still exceeds it.
    have shorter : (',' :: more).length ≤ text.length :=
      ((comma.suffix.trans (finds.suffix written)).trans space.suffix).length_le
    rw [List.length_cons] at shorter
    have remaining := @ih bound (by omega)
    unfold arrayItems?
    rw [space.skipLines_eq (finds.visible written) (Nat.lt_succ_self _)]
    simp only [Option.bind_eq_bind, Option.bind_some]
    split
    next => exact absurd rfl (finds.apart written)
    next => simp [value, follows, remaining]

theorem pair_of_keyValue? (finds : Finds read form) {path : List String}
    (found : keyValue? read text = some (path, item, rest)) : Pair form path item text rest := by
  obtain ⟨⟨path, behind⟩, key, found⟩ := Option.bind_eq_some_iff.mp found
  dsimp only at found
  split at found
  · obtain ⟨⟨item, behind⟩, value, same⟩ := Option.bind_eq_some_iff.mp found
    cases same
    obtain ⟨written, short⟩ := path_of_keyPath? key
    exact .equals written short (gap_skipBlanks _) (finds.sound value)
  · cases found

theorem keyValue?_eq (finds : Finds read form) {path : List String}
    (pair : Pair form path item text rest) (ends : Ends rest) :
    keyValue? read text = some (path, item, rest) := by
  cases pair with
  | equals key short indent written =>
    obtain ⟨char, more, rfl, visible, _⟩ := finds.visible written
    simp [keyValue?, key?, key.keyPath?_eq rfl (by decide) short, indent.skipBlanks_cons visible,
      finds.complete written ends]

theorem members_of_inlineEntries? (finds : Finds read form) {bound : Nat} {before after : Entries}
    (found : inlineEntries? read bound before text = some (after, rest)) :
    Members form before after text rest := by
  induction bound generalizing text before with
  | zero => cases found
  | succ bound ih =>
    obtain ⟨⟨path, item, behind⟩, pair, found⟩ := Option.bind_eq_some_iff.mp found
    obtain ⟨between, free, found⟩ := Option.bind_eq_some_iff.mp found
    replace pair := finds.pair_of_keyValue? pair
    have gap := gap_skipBlanks behind
    split at found
    next same => exact .next pair free (same ▸ gap) (ih found)
    next same =>
      cases found
      exact .last pair free (same ▸ gap)
    next => cases found

theorem inlineEntries?_eq (finds : Finds read form) {before after : Entries}
    (members : Members form before after text rest) {bound : Nat} (fits : text.length < bound) :
    inlineEntries? read bound before text = some (after, rest) := by
  induction members generalizing bound with
  | last pair free ending =>
    obtain ⟨bound, rfl⟩ := Nat.exists_eq_succ_of_ne_zero (Nat.ne_zero_of_lt fits)
    simp [inlineEntries?, finds.keyValue?_eq pair (ending.ends (by decide)), free,
      ending.skipBlanks_cons rfl]
  | @next path item before between after text behind more rest pair free comma others ih =>
    obtain ⟨bound, rfl⟩ := Nat.exists_eq_succ_of_ne_zero (Nat.ne_zero_of_lt fits)
    have shorter : (',' :: more).length ≤ text.length :=
      (comma.suffix.trans (finds.pair_suffix pair)).length_le
    rw [List.length_cons] at shorter
    have remaining := @ih bound (by omega)
    simp [inlineEntries?, finds.keyValue?_eq pair (comma.ends (by decide)), free,
      comma.skipBlanks_cons rfl, remaining]

end Finds

section

variable {inside : Option (Scan Item)} {forms : Option Form}

theorem finds_of_some (known : Option.Rel Finds inside forms) {read : Scan Item}
    (opened : inside = some read) : ∃ form, forms = some form ∧ Finds read form := by
  cases known with
  | none => cases opened
  | some finds =>
    cases opened
    exact ⟨_, rfl, finds⟩

theorem exists_finds (known : Option.Rel Finds inside forms) {form : Form}
    (opened : forms = some form) : ∃ read, inside = some read ∧ Finds read form := by
  cases known with
  | none => cases opened
  | some finds =>
    cases opened
    exact ⟨_, rfl, finds⟩

theorem within_of_valueWith? (known : Option.Rel Finds inside forms)
    (found : valueWith? inside text = some (item, rest)) : Within forms item text rest := by
  unfold valueWith? at found
  split at found
  · cases found
  · obtain ⟨⟨value, behind⟩, read, same⟩ := Option.map_eq_some_iff.mp found
    cases same
    obtain ⟨chars, rfl, quoted⟩ := quoted_of_string? read
    exact .string quoted
  · obtain ⟨⟨value, behind⟩, read, same⟩ := Option.map_eq_some_iff.mp found
    cases same
    obtain ⟨chars, rfl, quoted⟩ := quoted_of_string? read
    exact .string quoted
  · cases found
    exact .yes
  · cases found
    exact .no
  · obtain ⟨read, opened, found⟩ := Option.bind_eq_some_iff.mp found
    obtain ⟨⟨items, behind⟩, elements, same⟩ := Option.bind_eq_some_iff.mp found
    cases same
    obtain ⟨form, opens, finds⟩ := finds_of_some known opened
    exact .array opens (finds.items_of_arrayItems? elements)
  next more =>
    obtain ⟨read, opened, found⟩ := Option.bind_eq_some_iff.mp found
    obtain ⟨form, opens, finds⟩ := finds_of_some known opened
    have gap := gap_skipBlanks more
    split at found
    next same =>
      cases found
      exact .empty opens (same ▸ gap)
    next =>
      obtain ⟨⟨entries, behind⟩, members, same⟩ := Option.bind_eq_some_iff.mp found
      cases same
      exact .table opens ((finds.members_of_inlineEntries? members).indent gap)
  · exact .numeral (numeral_of_number? found)

namespace Grammar

theorem Quoted.begins {chars : List Char} (quoted : Quoted text chars rest) :
    ∃ more, text = '"' :: more ∨ text = '\'' :: more := by
  cases quoted with
  | basic basic => exact ⟨_, .inl rfl⟩
  | literal literal => exact ⟨_, .inr rfl⟩
  | basicLines opened lines => exact ⟨_, .inl rfl⟩
  | literalLines opened lines => exact ⟨_, .inr rfl⟩

theorem Numeral.valueWith?_eq (written : Numeral item text rest) (ends : Ends rest) :
    valueWith? inside text = some (item, rest) := by
  have read := written.number?_eq ends
  obtain ⟨char, more, rfl, start⟩ := written.begins
  have other {sign : Char} (same : char = sign)
      (known : sign ∈ ['"', '\'', 't', 'f', '[', '\x7b']) : False := by
    subst same
    revert start
    simp only [List.mem_cons, List.not_mem_nil, or_false] at known
    rcases known with rfl | rfl | rfl | rfl | rfl | rfl <;> decide
  unfold valueWith?
  split
  next same => cases same
  next same => exact (other (List.cons.inj same).1 (by decide)).elim
  next same => exact (other (List.cons.inj same).1 (by decide)).elim
  next same => exact (other (List.cons.inj same).1 (by decide)).elim
  next same => exact (other (List.cons.inj same).1 (by decide)).elim
  next same => exact (other (List.cons.inj same).1 (by decide)).elim
  next same => exact (other (List.cons.inj same).1 (by decide)).elim
  next => exact read

theorem Within.valueWith?_eq (known : Option.Rel Finds inside forms)
    (written : Within forms item text rest) (ends : Ends rest) :
    valueWith? inside text = some (item, rest) := by
  cases written with
  | string quoted =>
    have read := quoted.string?_eq ends
    obtain ⟨more, rfl | rfl⟩ := quoted.begins
    · simp [valueWith?, read]
    · simp [valueWith?, read]
  | yes => rfl
  | no => rfl
  | numeral written => exact written.valueWith?_eq ends
  | array opens elements =>
    obtain ⟨read, rfl, finds⟩ := exists_finds known opens
    simp [valueWith?, finds.arrayItems?_eq elements (Nat.lt_succ_self _)]
  | empty opens gap =>
    obtain ⟨read, rfl, finds⟩ := exists_finds known opens
    simp [valueWith?, gap.skipBlanks_cons rfl]
  | @table form entries text rest opens members =>
    obtain ⟨read, rfl, finds⟩ := exists_finds known opens
    have entriesRead : inlineEntries? read ((skipBlanks text).length + 1) [] (skipBlanks text) =
        some (entries, rest) := finds.inlineEntries?_eq members.strip (Nat.lt_succ_self _)
    -- The first key shows that the table is not empty.
    obtain ⟨char, more, same, visible, others⟩ := members.visible
    rw [same, List.length_cons] at entriesRead
    unfold valueWith?
    simp only [Option.bind_eq_bind, Option.bind_some, same]
    split
    next closes => exact absurd (by simp [(List.cons.inj closes).1]) others
    next => simp [entriesRead]

theorem Within.begins (written : Within forms item text rest) :
    ∃ char more, text = char :: more ∧ isBlank char = false ∧ char ∉ ['#', '\n', ']'] := by
  cases written with
  | string quoted =>
    obtain ⟨more, rfl | rfl⟩ := quoted.begins
    · exact ⟨_, _, rfl, by decide⟩
    · exact ⟨_, _, rfl, by decide⟩
  | yes => exact ⟨_, _, rfl, by decide⟩
  | no => exact ⟨_, _, rfl, by decide⟩
  | numeral written =>
    obtain ⟨char, more, rfl, start⟩ := written.begins
    refine ⟨char, more, rfl, ?_, ?_⟩
    · rw [isBlank, Bool.or_eq_false_iff, beq_eq_false_iff_ne, beq_eq_false_iff_ne]
      constructor <;> (rintro rfl; revert start; decide)
    · intro member
      simp only [List.mem_cons, List.not_mem_nil, or_false] at member
      rcases member with rfl | rfl | rfl <;> (revert start; decide)
  | array opens elements => exact ⟨_, _, rfl, by decide⟩
  | empty opens gap => exact ⟨_, _, rfl, by decide⟩
  | table opens members => exact ⟨_, _, rfl, by decide⟩

theorem Within.suffix (known : Option.Rel Finds inside forms)
    (written : Within forms item text rest) : rest <:+ text := by
  cases written with
  | string quoted => exact quoted.suffix
  | yes => exact List.suffix_append ['t', 'r', 'u', 'e'] _
  | no => exact List.suffix_append ['f', 'a', 'l', 's', 'e'] _
  | numeral written => exact written.suffix
  | array opens elements =>
    obtain ⟨read, _, finds⟩ := exists_finds known opens
    exact (finds.items_suffix elements).trans (List.suffix_cons _ _)
  | empty opens gap =>
    exact ((List.suffix_cons _ _).trans gap.suffix).trans (List.suffix_cons _ _)
  | table opens members =>
    obtain ⟨read, _, finds⟩ := exists_finds known opens
    exact (finds.members_suffix members).trans (List.suffix_cons _ _)

end Grammar

theorem Finds.within (known : Option.Rel Finds inside forms) :
    Finds (valueWith? inside) (Within forms) where
  sound found := within_of_valueWith? known found
  complete written ends := written.valueWith?_eq known ends
  visible written := by
    obtain ⟨char, more, rfl, visible, others⟩ := written.begins
    exact ⟨char, more, rfl, visible, by simp_all⟩
  apart written := by
    obtain ⟨char, more, rfl, visible, others⟩ := written.begins
    simp_all
  suffix written := written.suffix known

end

/-- Values of any depth are found just as they are written. -/
theorem value?_finds (depth : Nat) : Finds (value? depth) (Value depth) := by
  induction depth with
  | zero => exact .within .none
  | succ depth ih => exact .within (.some ih)

end EdgeRoutes.Toml
