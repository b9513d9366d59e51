import EdgeRoutes.Proofs.Json.Reading
import EdgeRoutes.Proofs.Script.Literals

/-! Constants of a script: string literals, and lists and objects of constants.

They are read where no blanks stand between them. A key stands between quotes only, since a
template is no key; its value is read by the same rules. What is written in the style of the
minified text is read back, and the reading ends where the constant ends.
-/

set_option autoImplicit false

namespace EdgeRoutes.Script.Scan

variable {Item : Type}

def others? (close : Char) (read : List Char → Option (Item × List Char)) :
    Nat → List Char → Option (List Item × List Char)
  | 0, _ => none
  | _ + 1, [] => none
  | bound + 1, char :: text =>
    if char = close then some ([], text)
    else if char = ',' then do
      let (item, text) ← read text
      let (items, text) ← others? close read bound text
      some (item :: items, text)
    else none

def elements? (close : Char) (read : List Char → Option (Item × List Char)) (text : List Char) :
    Option (List Item × List Char) :=
  if text.head? = some close then some ([], text.tail)
  else others? close read (text.length + 1) (',' :: text)

def member? (read : List Char → Option (Json × List Char)) (text : List Char) :
    Option ((String × Json) × List Char) := do
  let (key, text) ← string? ['"', '\''] text
  if text.head? = some ':' then
    let (value, text) ← read text.tail
    some ((key, value), text)
  else none

/-- Reads a constant in which no more brackets than `depth` are open at once. -/
def constant? : Nat → List Char → Option (Json × List Char)
  | 0, _ => none
  | _ + 1, [] => none
  | depth + 1, char :: text =>
    if char = '[' then
      (elements? ']' (constant? depth) text).map fun (items, rest) => (.array items, rest)
    else if char = '\x7b' then
      (elements? '\x7d' (member? (constant? depth)) text).map fun (members, rest) =>
        (.object members, rest)
    else (string? ['\x60', '"', '\''] (char :: text)).map fun (text, rest) => (.string text, rest)

def otherChars (write : Item → List Char) (items : List Item) : List Char :=
  items.flatMap fun item => ',' :: write item

variable {read : List Char → Option (Item × List Char)} {write : Item → List Char} {close : Char}

theorem length_le_otherChars (write : Item → List Char) (items : List Item) :
    items.length ≤ (otherChars write items).length := by
  induction items with
  | nil => exact Nat.zero_le _
  | cons item items ih =>
    simp only [otherChars, List.flatMap_cons, List.length_cons, List.length_append] at ih ⊢
    omega

theorem others?_otherChars (apart : close ≠ ',') {items : List Item}
    (each : ∀ item ∈ items, ∀ rest, read (write item ++ rest) = some (item, rest))
    {bound : Nat} (enough : items.length < bound) (rest : List Char) :
    others? close read bound (otherChars write items ++ close :: rest) = some (items, rest) := by
  induction items generalizing bound with
  | nil =>
    obtain ⟨bound, rfl⟩ := Nat.exists_eq_add_one.mpr enough
    simp [otherChars, others?]
  | cons item items ih =>
    obtain ⟨bound, rfl⟩ := Nat.exists_eq_add_one.mpr (Nat.zero_lt_of_lt enough)
    have later := ih (fun other member => each other (List.mem_cons_of_mem _ member))
      (Nat.lt_of_succ_lt_succ enough)
    have here := each item List.mem_cons_self (otherChars write items ++ close :: rest)
    simp only [otherChars, List.flatMap_cons, List.cons_append, List.append_assoc, others?,
      if_neg apart.symm, if_true, Option.bind_eq_bind] at here later ⊢
    rw [here, Option.bind_some, later, Option.bind_some]

theorem elements?_nil (rest : List Char) :
    elements? close read (close :: rest) = some ([], rest) := by
  simp [elements?]

theorem elements?_cons (apart : close ≠ ',') {item : Item} {items : List Item}
    (opens : ∃ char text, write item = char :: text ∧ char ≠ close)
    (each : ∀ other ∈ item :: items, ∀ rest, read (write other ++ rest) = some (other, rest))
    (rest : List Char) :
    elements? close read (write item ++ (otherChars write items ++ close :: rest)) =
      some (item :: items, rest) := by
  obtain ⟨char, text, written, inside⟩ := opens
  have head : (write item ++ (otherChars write items ++ close :: rest)).head? ≠ some close := by
    simpa [written] using inside
  have count := length_le_otherChars write items
  have enough : (item :: items).length <
      (write item ++ (otherChars write items ++ close :: rest)).length + 1 := by
    simp only [List.length_cons, List.length_append]
    omega
  have found := others?_otherChars apart each enough rest
  rw [elements?, if_neg head]
  simpa [otherChars] using found

open Handler.Literal (style keyMark cheapest)

theorem itemsChars_eq (items : List Json) :
    Json.itemsChars style items = otherChars (Json.chars style) items ++ [']'] := by
  induction items with
  | nil => rfl
  | cons item items ih => simp [Json.itemsChars, ih, otherChars]

def memberChars (member : String × Json) : List Char :=
  style.key member.1 ++ ':' :: member.2.chars style

theorem membersChars_eq (members : List (String × Json)) :
    Json.membersChars style members = otherChars memberChars members ++ ['\x7d'] := by
  induction members with
  | nil => rfl
  | cons member members ih => simp [Json.membersChars, ih, otherChars, memberChars]

theorem keyMark_mem (chars : List Char) : (keyMark chars).char ∈ ['"', '\''] := by
  unfold keyMark
  split <;> decide

theorem mark_mem (mark : Handler.Literal.Mark) : mark.char ∈ ['\x60', '"', '\''] := by
  cases mark <;> decide

theorem member?_memberChars {read : List Char → Option (Json × List Char)}
    {member : String × Json}
    (reads : ∀ rest, read (member.2.chars style ++ rest) = some (member.2, rest))
    (rest : List Char) :
    member? read (memberChars member ++ rest) = some (member, rest) := by
  have key : string? ['"', '\''] (style.key member.1 ++ ':' :: (member.2.chars style ++ rest)) =
      some (member.1, ':' :: (member.2.chars style ++ rest)) :=
    string?_between (keyMark_mem _) member.1 _
  simp only [member?, memberChars, List.append_assoc, List.cons_append, key, Option.bind_eq_bind,
    Option.bind_some, List.head?_cons, if_true, List.tail_cons, reads]

theorem textual_opens {value : Json} (textual : value.Textual) :
    ∃ char text, value.chars style = char :: text ∧ char ≠ ']' := by
  cases textual with
  | string value =>
    refine ⟨_, _, rfl, ?_⟩
    cases cheapest value.toList <;> decide
  | @array items =>
    cases items with
    | nil => exact ⟨'[', _, rfl, by decide⟩
    | cons => exact ⟨'[', _, rfl, by decide⟩
  | @object members =>
    cases members with
    | nil => exact ⟨'\x7b', _, rfl, by decide⟩
    | cons => exact ⟨'\x7b', _, rfl, by decide⟩

theorem length_pos {value : Json} (textual : value.Textual) :
    0 < (value.chars style).length := by
  obtain ⟨char, text, written, _⟩ := textual_opens textual
  rw [written, List.length_cons]
  exact Nat.succ_pos _

theorem elements?_items {read : List Char → Option (Json × List Char)} {items : List Json}
    (opens : ∀ item ∈ items, ∃ char text, item.chars style = char :: text ∧ char ≠ ']')
    (each : ∀ item ∈ items, ∀ rest, read (item.chars style ++ rest) = some (item, rest))
    (rest : List Char) :
    ∃ text, (Json.array items).chars style = '[' :: text ∧
      elements? ']' read (text ++ rest) = some (items, rest) := by
  cases items with
  | nil => exact ⟨[']'], rfl, elements?_nil rest⟩
  | cons item items =>
    refine ⟨item.chars style ++ (otherChars (Json.chars style) items ++ [']']), ?_, ?_⟩
    · rw [Json.chars, itemsChars_eq, List.cons_append]
    · simpa using elements?_cons (by decide) (opens item List.mem_cons_self) each rest

theorem elements?_members {read : List Char → Option (Json × List Char)}
    {members : List (String × Json)}
    (each : ∀ member ∈ members, ∀ rest,
      read (member.2.chars style ++ rest) = some (member.2, rest))
    (rest : List Char) :
    ∃ text, (Json.object members).chars style = '\x7b' :: text ∧
      elements? '\x7d' (member? read) (text ++ rest) = some (members, rest) := by
  cases members with
  | nil => exact ⟨['\x7d'], rfl, elements?_nil rest⟩
  | cons member members =>
    have opens : ∃ char text, memberChars member = char :: text ∧ char ≠ '\x7d' := by
      refine ⟨_, _, rfl, ?_⟩
      cases keyMark member.1.toList <;> decide
    refine ⟨memberChars member ++ (otherChars memberChars members ++ ['\x7d']), ?_, ?_⟩
    · rw [Json.chars, membersChars_eq, memberChars, List.cons_append, List.cons_append,
        List.append_assoc]
    · have read := elements?_cons (by decide) opens
        (fun other present => member?_memberChars (each other present)) rest
      simpa using read

theorem constant?_string (depth : Nat) (value : String) (rest : List Char) :
    constant? (depth + 1) ((Json.string value).chars style ++ rest) =
      some (.string value, rest) := by
  -- Whatever mark is chosen, it is neither of the brackets that are tried before it.
  let mark := cheapest value.toList
  have read : string? ['\x60', '"', '\''] ((Json.string value).chars style ++ rest) =
      some (value, rest) := string?_between (mark_mem mark) value rest
  have noList : mark.char ≠ '[' := by cases mark <;> decide
  have noObject : mark.char ≠ '\x7b' := by cases mark <;> decide
  have opened : (Json.string value).chars style ++ rest = mark.char ::
      (Handler.Literal.body mark value.toList ++ [mark.char] ++ rest) := rfl
  rw [opened] at read ⊢
  rw [constant?, if_neg noList, if_neg noObject, read, Option.map_some]

/-- A constant is read back if as many brackets may be opened as it has characters. -/
theorem constant?_chars {value : Json} (textual : value.Textual) {depth : Nat}
    (fits : (value.chars style).length ≤ depth) (rest : List Char) :
    constant? depth (value.chars style ++ rest) = some (value, rest) := by
  induction textual generalizing depth rest with
  | string value =>
    obtain ⟨depth, rfl⟩ := Nat.exists_eq_add_one.mpr
      (Nat.lt_of_lt_of_le (length_pos (.string value)) fits)
    exact constant?_string depth value rest
  | @array items each ih =>
    obtain ⟨depth, rfl⟩ := Nat.exists_eq_add_one.mpr
      (Nat.lt_of_lt_of_le (length_pos (.array each)) fits)
    -- An element is shorter than its list, so one bracket less is enough for it.
    have inside (item : Json) (member : item ∈ items) : (item.chars style).length ≤ depth :=
      Nat.le_of_lt_succ (Nat.lt_of_lt_of_le (Json.length_lt_array style member) fits)
    obtain ⟨text, written, found⟩ := elements?_items
      (fun item member => textual_opens (each item member))
      (fun item member => ih item member (inside item member)) rest
    rw [written]
    change Option.map _ (elements? ']' (constant? depth) (text ++ rest)) = _
    rw [found]
    rfl
  | @object members sorted each ih =>
    obtain ⟨depth, rfl⟩ := Nat.exists_eq_add_one.mpr
      (Nat.lt_of_lt_of_le (length_pos (.object sorted each)) fits)
    have inside (member : String × Json) (present : member ∈ members) :
        (member.2.chars style).length ≤ depth :=
      Nat.le_of_lt_succ (Nat.lt_of_lt_of_le (Json.length_lt_object style present) fits)
    obtain ⟨text, written, found⟩ := elements?_members
      (fun member present => ih member present (inside member present)) rest
    rw [written]
    change Option.map _ (elements? '\x7d' (member? (constant? depth)) (text ++ rest)) = _
    rw [found]
    rfl

end EdgeRoutes.Script.Scan
