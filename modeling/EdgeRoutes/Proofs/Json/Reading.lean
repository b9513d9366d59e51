import EdgeRoutes.Json.Printer
import EdgeRoutes.Json.Reader
import EdgeRoutes.Proofs.Json.Members
import Mathlib.Tactic.IntervalCases

/-! Reading what has been written.

A string that is written between quotes is read back, whatever characters it has, and the
reading ends at its own closing quote. So are lists and objects of strings: no text that
follows can change what is read, and none of it is taken in.
-/

set_option autoImplicit false

namespace EdgeRoutes.Json

namespace Scan

theorem stringBody_covered (front rest : List Char) :
    stringBody front.length (front ++ rest) = stringBody 0 rest := by
  induction front with
  | nil => rfl
  | cons char front ih => exact ih

theorem stringBody_escape {char : Char} (taken : List Char) {rest : List Char}
    (escaped : escape (taken ++ rest) = .ok (char, taken.length)) :
    stringBody 0 ('\\' :: (taken ++ rest)) =
      (stringBody 0 rest).map fun read => (char :: read.1, read.2) := by
  simp only [stringBody, escaped]
  change (stringBody taken.length (taken ++ rest) >>= _) = _
  rw [stringBody_covered]
  cases stringBody 0 rest <;> rfl

theorem numericEscape_control {code : Nat} (control : code < 32) (rest : List Char) :
    numericEscape ('0' :: '0' :: Nat.digitChar (code / 16) :: Nat.digitChar (code % 16) :: rest) =
      .ok (Char.ofNat code, 4) := by
  interval_cases code <;> rfl

theorem stringBody_escapedChar (char : Char) (rest : List Char) :
    stringBody 0 (escapedChar char ++ rest) =
      (stringBody 0 rest).map fun read => (char :: read.1, read.2) := by
  unfold escapedChar
  split
  case isTrue same => subst same; exact stringBody_escape ['"'] rfl
  split
  case isTrue same => subst same; exact stringBody_escape ['\\'] rfl
  split
  case isTrue same => subst same; exact stringBody_escape ['b'] rfl
  split
  case isTrue same => subst same; exact stringBody_escape ['f'] rfl
  split
  case isTrue same => subst same; exact stringBody_escape ['n'] rfl
  split
  case isTrue same => subst same; exact stringBody_escape ['r'] rfl
  split
  case isTrue same => subst same; exact stringBody_escape ['t'] rfl
  split
  case isTrue control =>
    apply stringBody_escape
      ['u', '0', '0', Nat.digitChar (char.toNat / 16), Nat.digitChar (char.toNat % 16)]
    have read := numericEscape_control control rest
    rw [Char.ofNat_toNat] at read
    change (numericEscape ('0' :: '0' :: _ :: _ :: rest) >>= _) = _
    rw [read]
    rfl
  case isFalse quote backslash _ _ _ _ _ plain =>
    simp only [List.singleton_append, stringBody, if_neg quote, if_neg backslash, if_neg plain]
    cases stringBody 0 rest <;> rfl

theorem string_quote (text : String) (rest : List Char) :
    string (text.toList.flatMap escapedChar ++ '"' :: rest) = .ok (text, rest) := by
  have body (chars : List Char) :
      stringBody 0 (chars.flatMap escapedChar ++ '"' :: rest) = .ok (chars, rest) := by
    induction chars with
    | nil => rfl
    | cons char chars ih =>
      rw [List.flatMap_cons, List.append_assoc, stringBody_escapedChar, ih]
      rfl
  unfold string
  rw [body]
  simp [bind, Except.bind]

end Scan

/-- Strings, and lists and objects of such values; the keys of an object are sorted. -/
inductive Textual : Json → Prop where
  | string (value : String) : Textual (.string value)
  | array {items : List Json} (each : ∀ item ∈ items, Textual item) : Textual (.array items)
  | object {members : List (String × Json)} (sorted : Members.Sorted members)
      (each : ∀ member ∈ members, Textual member.2) : Textual (.object members)

@[simp] theorem Style.json_text (text : String) : Style.json.text text = quote text := rfl

@[simp] theorem Style.json_key (key : String) : Style.json.key key = quote key := rfl

section

variable (style : Style)

theorem length_lt_itemsChars (items : List Json) :
    items.length < (itemsChars style items).length := by
  induction items with
  | nil => simp [itemsChars]
  | cons item items ih =>
    simp only [itemsChars, List.length_cons, List.length_append]
    omega

theorem length_lt_membersChars (members : List (String × Json)) :
    members.length < (membersChars style members).length := by
  induction members with
  | nil => simp [membersChars]
  | cons member members ih =>
    simp only [membersChars, List.length_cons, List.length_append]
    omega

theorem length_lt_itemsChars_of_mem {item : Json} {items : List Json} (member : item ∈ items) :
    (item.chars style).length < (itemsChars style items).length := by
  induction items with
  | nil => cases member
  | cons first items ih =>
    simp only [itemsChars, List.length_cons, List.length_append]
    rcases List.mem_cons.mp member with rfl | later
    · omega
    · have shorter := ih later
      omega

theorem length_lt_membersChars_of_mem {member : String × Json} {members : List (String × Json)}
    (present : member ∈ members) :
    (member.2.chars style).length < (membersChars style members).length := by
  induction members with
  | nil => cases present
  | cons first members ih =>
    simp only [membersChars, List.length_cons, List.length_append]
    rcases List.mem_cons.mp present with rfl | later
    · omega
    · have shorter := ih later
      omega

theorem length_lt_array {item : Json} {items : List Json} (member : item ∈ items) :
    (item.chars style).length < ((Json.array items).chars style).length := by
  have shorter := length_lt_itemsChars_of_mem style member
  cases items with
  | nil => cases member
  | cons first items => simpa [chars, itemsChars] using shorter

theorem length_lt_object {member : String × Json} {members : List (String × Json)}
    (present : member ∈ members) :
    (member.2.chars style).length < ((Json.object members).chars style).length := by
  have shorter := length_lt_membersChars_of_mem style present
  cases members with
  | nil => cases present
  | cons first members => simpa [chars, membersChars] using shorter

end

namespace Read

/-- An element may begin here: neither a blank nor a closing bracket comes next. -/
def Begins (text : List Char) : Prop :=
  ∃ char rest, text = char :: rest ∧ Scan.isBlank char = false ∧ char ≠ ']'

theorem nextItem_comma {text : List Char} (begins : Begins text) :
    nextItem false (',' :: text) = .ok (true, text) := by
  obtain ⟨char, rest, rfl, visible, inside⟩ := begins
  have here : Scan.skipBlanks (char :: rest) = char :: rest := by simp [Scan.skipBlanks, visible]
  have comma : Scan.skipBlanks (',' :: char :: rest) = ',' :: char :: rest := rfl
  simp [nextItem, comma, here, inside]

theorem nextItem_first {text : List Char} (begins : Begins text) :
    nextItem true text = .ok (true, text) := by
  obtain ⟨char, rest, rfl, visible, inside⟩ := begins
  have here : Scan.skipBlanks (char :: rest) = char :: rest := by simp [Scan.skipBlanks, visible]
  simp only [nextItem, here, if_true]

variable {read : List Char → Except Fault (Json × List Char)}

theorem items_comma (bound : Nat) {text : List Char} (begins : Begins text) :
    items read (bound + 1) false (',' :: text) = (do
      let (value, text) ← read text
      let (values, text) ← items read bound false text
      .ok (value :: values, text)) := by
  rw [items, nextItem_comma begins]
  rfl

theorem items_first (bound : Nat) {text : List Char} (begins : Begins text) :
    items read (bound + 1) true text = items read (bound + 1) false (',' :: text) := by
  rw [items_comma bound begins, items, nextItem_first begins]
  rfl

theorem items_itemsChars {values : List Json}
    (begins : ∀ value ∈ values, ∀ rest, Begins (value.chars .json ++ rest))
    (each : ∀ value ∈ values, ∀ rest, read (value.chars .json ++ rest) = .ok (value, rest))
    {bound : Nat} (enough : values.length < bound) (rest : List Char) :
    items read bound false (itemsChars .json values ++ rest) = .ok (values, rest) := by
  induction values generalizing bound with
  | nil =>
    obtain ⟨bound, rfl⟩ := Nat.exists_eq_add_one.mpr enough
    rfl
  | cons value values ih =>
    obtain ⟨bound, rfl⟩ := Nat.exists_eq_add_one.mpr (Nat.zero_lt_of_lt enough)
    have others := ih (fun other member => begins other (List.mem_cons_of_mem _ member))
      (fun other member => each other (List.mem_cons_of_mem _ member))
      (Nat.lt_of_succ_lt_succ enough)
    simp only [itemsChars, List.cons_append, List.append_assoc]
    rw [items_comma bound (begins value List.mem_cons_self _), each value List.mem_cons_self]
    change (items read bound false _ >>= _) = _
    rw [others]
    rfl

theorem entries_comma (bound : Nat) (key : String) (rest : List Char) :
    entries read (bound + 1) false (',' :: quote key ++ ':' :: rest) = (do
      let (value, text) ← read rest
      let (values, text) ← entries read bound false text
      .ok ((key, value) :: values, text)) := by
  have next : nextKey false (',' :: quote key ++ ':' :: rest) =
      .ok (true, quote key ++ ':' :: rest) := rfl
  have text : (quote key ++ ':' :: rest).drop 1 =
      key.toList.flatMap escapedChar ++ '"' :: ':' :: rest := by simp [quote]
  have found : Scan.string ((quote key ++ ':' :: rest).drop 1) = .ok (key, ':' :: rest) := by
    rw [text, Scan.string_quote]
  rw [entries, next]
  change (Scan.string ((quote key ++ ':' :: rest).drop 1) >>= _) = _
  rw [found]
  rfl

theorem entries_first (bound : Nat) (key : String) (rest : List Char) :
    entries read (bound + 1) true (quote key ++ rest) =
      entries read (bound + 1) false (',' :: quote key ++ rest) := rfl

theorem entries_membersChars {members : List (String × Json)}
    (each : ∀ member ∈ members, ∀ rest,
      read (member.2.chars .json ++ rest) = .ok (member.2, rest))
    {bound : Nat} (enough : members.length < bound) (rest : List Char) :
    entries read bound false (membersChars .json members ++ rest) = .ok (members, rest) := by
  induction members generalizing bound with
  | nil =>
    obtain ⟨bound, rfl⟩ := Nat.exists_eq_add_one.mpr enough
    rfl
  | cons member members ih =>
    obtain ⟨bound, rfl⟩ := Nat.exists_eq_add_one.mpr (Nat.zero_lt_of_lt enough)
    have others := ih (fun other present => each other (List.mem_cons_of_mem _ present))
      (Nat.lt_of_succ_lt_succ enough)
    simp only [membersChars, Style.json_key, List.cons_append, List.append_assoc]
    rw [← List.cons_append, entries_comma, each member List.mem_cons_self]
    change (entries read bound false _ >>= _) = _
    rw [others]
    rfl

theorem items_array {values : List Json}
    (begins : ∀ value ∈ values, ∀ rest, Begins (value.chars .json ++ rest))
    (each : ∀ value ∈ values, ∀ rest, read (value.chars .json ++ rest) = .ok (value, rest))
    (rest : List Char) :
    ∃ text, (Json.array values).chars .json = '[' :: text ∧
      items read ((text ++ rest).length + 1) true (text ++ rest) = .ok (values, rest) := by
  cases values with
  | nil => exact ⟨[']'], rfl, rfl⟩
  | cons value values =>
    refine ⟨value.chars .json ++ itemsChars .json values, rfl, ?_⟩
    have count := length_lt_itemsChars .json values
    have enough : (value :: values).length <
        (value.chars .json ++ itemsChars .json values ++ rest).length + 1 := by
      simp only [List.length_cons, List.length_append]
      omega
    have found := items_itemsChars begins each enough rest
    rw [List.append_assoc] at found ⊢
    rw [items_first _ (begins value List.mem_cons_self _)]
    simpa [itemsChars] using found

theorem entries_object {members : List (String × Json)}
    (each : ∀ member ∈ members, ∀ rest,
      read (member.2.chars .json ++ rest) = .ok (member.2, rest))
    (rest : List Char) :
    ∃ text, (Json.object members).chars .json = '\x7b' :: text ∧
      entries read ((text ++ rest).length + 1) true (text ++ rest) = .ok (members, rest) := by
  cases members with
  | nil => exact ⟨['\x7d'], rfl, rfl⟩
  | cons member members =>
    refine ⟨quote member.1 ++ ':' :: member.2.chars .json ++ membersChars .json members, rfl, ?_⟩
    have count := length_lt_membersChars .json members
    have enough : (member :: members).length < (quote member.1 ++
        ':' :: member.2.chars .json ++ membersChars .json members ++ rest).length + 1 := by
      simp only [List.length_cons, List.length_append]
      omega
    have found := entries_membersChars each enough rest
    rw [List.append_assoc, List.append_assoc] at found ⊢
    rw [entries_first]
    simpa [membersChars] using found

end Read

theorem Textual.begins {value : Json} (textual : Textual value) (rest : List Char) :
    Read.Begins (value.chars .json ++ rest) := by
  cases textual with
  | string value => exact ⟨'"', _, rfl, rfl, by decide⟩
  | @array items =>
    cases items with
    | nil => exact ⟨'[', _, rfl, rfl, by decide⟩
    | cons => exact ⟨'[', _, rfl, rfl, by decide⟩
  | @object members =>
    cases members with
    | nil => exact ⟨'\x7b', _, rfl, rfl, by decide⟩
    | cons => exact ⟨'\x7b', _, rfl, rfl, by decide⟩

theorem Textual.length_pos {value : Json} (textual : Textual value) :
    0 < (value.chars .json).length := by
  obtain ⟨char, rest, written, _⟩ := textual.begins []
  rw [List.append_nil] at written
  simp [written]

/-- A value is read back if as many brackets may be opened as its text has characters. -/
theorem Textual.read_chars {value : Json} (textual : Textual value) {depth : Nat}
    (fits : (value.chars .json).length ≤ depth) (rest : List Char) :
    Read.value depth (value.chars .json ++ rest) = .ok (value, rest) := by
  induction textual generalizing depth rest with
  | string value =>
    obtain ⟨depth, rfl⟩ := Nat.exists_eq_add_one.mpr
      (Nat.lt_of_lt_of_le (Textual.string value).length_pos fits)
    simp only [chars, Style.json_text, quote, List.cons_append, List.append_assoc,
      List.nil_append]
    change (Scan.string _ >>= _) = _
    rw [Scan.string_quote]
    rfl
  | @array items each ih =>
    obtain ⟨depth, rfl⟩ := Nat.exists_eq_add_one.mpr
      (Nat.lt_of_lt_of_le (Textual.array each).length_pos fits)
    -- One bracket takes at least one character, so the bound goes down with the depth.
    have inside (item : Json) (member : item ∈ items) : (item.chars .json).length ≤ depth :=
      Nat.le_of_lt_succ (Nat.lt_of_lt_of_le (length_lt_array .json member) fits)
    obtain ⟨text, written, found⟩ := Read.items_array
      (fun item member => (each item member).begins)
      (fun item member => ih item member (inside item member)) rest
    rw [written]
    change (Read.items (Read.value depth) ((text ++ rest).length + 1) true (text ++ rest) >>= _) = _
    rw [found]
    rfl
  | @object members sorted each ih =>
    obtain ⟨depth, rfl⟩ := Nat.exists_eq_add_one.mpr
      (Nat.lt_of_lt_of_le (Textual.object sorted each).length_pos fits)
    have inside (member : String × Json) (present : member ∈ members) :
        (member.2.chars .json).length ≤ depth :=
      Nat.le_of_lt_succ (Nat.lt_of_lt_of_le (length_lt_object .json present) fits)
    obtain ⟨text, written, found⟩ := Read.entries_object
      (fun member present => ih member present (inside member present)) rest
    rw [written]
    change (Read.entries (Read.value depth) ((text ++ rest).length + 1) true (text ++ rest) >>= _)
      = _
    rw [found]
    change Except.ok (Json.object (Members.ofEntries members), rest) = _
    rw [sorted.ofEntries_eq]

end EdgeRoutes.Json
