import EdgeRoutes.Proofs.Template

/-! How a template is split, and how it is gone over.

A template has one split: from left to right, the first key in order that begins what is left
becomes a hole, and where no key does the next character stays as it is. The values have no
part in this. Filling goes over the template in turns, each of which takes a key or one
character off it. As no key is empty, each turn shortens what is left, and at the end the
pieces of the split have been written with a value for each hole.
-/

set_option autoImplicit false

namespace EdgeRoutes.Template

variable {Hole : Type}

/-- The pieces of a text. A key is replaced only if no key before it begins the text. -/
inductive Splits (entries : List (List Char × Hole)) : List Char → List (Piece Hole) → Prop where
  | nil : Splits entries [] []
  | char {char : Char} {rest : List Char} {pieces : List (Piece Hole)}
      (plain : ∀ entry ∈ entries, ¬ entry.1 <+: char :: rest) (later : Splits entries rest pieces) :
      Splits entries (char :: rest) (.char char :: pieces)
  | hole {before after : List (List Char × Hole)} {key : List Char} {hole : Hole}
      {rest : List Char} {pieces : List (Piece Hole)}
      (inOrder : entries = before ++ (key, hole) :: after)
      (first : ∀ entry ∈ before, ¬ entry.1 <+: key ++ rest) (later : Splits entries rest pieces) :
      Splits entries (key ++ rest) (.hole hole :: pieces)

/-- Filling in turns, until nothing of the template is left: from what has been written and
what is left of the template to the result. -/
inductive Fills (values : List (List Char × List Char)) :
    List Char → List Char → List Char → Prop where
  | done {written : List Char} : Fills values written [] written
  | value {written rest result key value : List Char} {char : Char}
      (found : startingAt? values (char :: rest) = some (key, value))
      (later : Fills values (written ++ value) ((char :: rest).drop key.length) result) :
      Fills values written (char :: rest) result
  | char {written rest result : List Char} {char : Char}
      (missing : startingAt? values (char :: rest) = none)
      (later : Fills values (written ++ [char]) rest result) :
      Fills values written (char :: rest) result

section

variable {Value : Type} {entries : List (List Char × Value)} {text : List Char}

theorem startingAt?_eq_none_iff :
    startingAt? entries text = none ↔ ∀ entry ∈ entries, ¬ entry.1 <+: text := by
  simp [startingAt?]

theorem startingAt?_eq_some_iff {key : List Char} {value : Value} :
    startingAt? entries text = some (key, value) ↔
      key <+: text ∧ ∃ before after, entries = before ++ (key, value) :: after ∧
        ∀ entry ∈ before, ¬ entry.1 <+: text := by
  simp only [startingAt?, List.find?_eq_some_iff_append, List.isPrefixOf_iff_prefix,
    Bool.not_eq_true', ← Bool.not_eq_true]

end

section

variable {entries : List (List Char × Hole)}

theorem splitFrom_covered (front rest : List Char) :
    splitFrom entries front.length (front ++ rest) = splitFrom entries 0 rest := by
  induction front with
  | nil => rfl
  | cons char front ih => exact ih

theorem split_char {char : Char} {rest : List Char}
    (missing : startingAt? entries (char :: rest) = none) :
    split entries (char :: rest) = .char char :: split entries rest := by
  simp only [split, splitFrom, missing]

theorem split_hole {key rest : List Char} {hole : Hole} (nonempty : key ≠ [])
    (found : startingAt? entries (key ++ rest) = some (key, hole)) :
    split entries (key ++ rest) = .hole hole :: split entries rest := by
  obtain ⟨char, others, rfl⟩ := List.exists_cons_of_ne_nil nonempty
  simp only [List.cons_append] at found
  simp only [split, List.cons_append, splitFrom, found, List.length_cons, Nat.add_sub_cancel,
    splitFrom_covered]

variable (nonempty : ∀ entry ∈ entries, entry.1 ≠ [])
include nonempty

theorem splits_split (text : List Char) : Splits entries text (split entries text) := by
  induction length : text.length using Nat.strongRecOn generalizing text with
  | ind length shorter =>
    subst length
    cases text with
    | nil => exact .nil
    | cons char rest =>
      cases found : startingAt? entries (char :: rest) with
      | none =>
        rw [split_char found]
        exact .char (startingAt?_eq_none_iff.mp found)
          (shorter rest.length (Nat.lt_succ_self _) rest rfl)
      | some entry =>
        obtain ⟨key, hole⟩ := entry
        obtain ⟨⟨behind, whole⟩, before, after, inOrder, first⟩ := startingAt?_eq_some_iff.mp found
        have some_key : key ≠ [] := nonempty (key, hole) (by simp [inOrder])
        rw [← whole] at found first shorter ⊢
        rw [split_hole some_key found]
        refine .hole inOrder first (shorter behind.length ?_ behind rfl)
        have positive := List.length_pos_iff.mpr some_key
        rw [List.length_append]
        omega

theorem Splits.eq_split {text : List Char} {pieces : List (Piece Hole)}
    (splits : Splits entries text pieces) : pieces = split entries text := by
  induction splits with
  | nil => rfl
  | char plain later ih => rw [split_char (startingAt?_eq_none_iff.mpr plain), ih]
  | @hole before after key hole rest pieces inOrder first later ih =>
    have found : startingAt? entries (key ++ rest) = some (key, hole) :=
      startingAt?_eq_some_iff.mpr ⟨List.prefix_append key rest, before, after, inOrder, first⟩
    rw [split_hole (nonempty (key, hole) (by simp [inOrder])) found, ih]

end

theorem Splits.flatMap_key {entries : List (List Char × Hole)} {text : List Char}
    {pieces : List (Piece Hole)} (splits : Splits entries text pieces) {key : Hole → List Char}
    (own : ∀ entry ∈ entries, key entry.2 = entry.1) : pieces.flatMap (Piece.text key) = text := by
  induction splits with
  | nil => rfl
  | char plain later ih => rw [List.flatMap_cons, ih]; rfl
  | hole inOrder first later ih =>
    have here := own _ (inOrder ▸ List.mem_append_right _ List.mem_cons_self)
    rw [List.flatMap_cons, ih, Piece.text, here]

theorem Splits.fills {entries : List (List Char × Hole)} {text : List Char}
    {pieces : List (Piece Hole)} (splits : Splits entries text pieces)
    (nonempty : ∀ entry ∈ entries, entry.1 ≠ []) (value : Hole → List Char)
    (written : List Char) :
    Fills (entries.map fun entry => (entry.1, value entry.2)) written text
      (written ++ pieces.flatMap (Piece.text value)) := by
  induction splits generalizing written with
  | nil => simpa using Fills.done
  | @char char rest pieces plain later ih =>
    have missing := startingAt?_eq_none_iff.mpr plain
    refine .char (by rw [startingAt?_map, missing, Option.map_none]) ?_
    simpa [Piece.text] using ih (written ++ [char])
  | @hole before after key hole rest pieces inOrder first later ih =>
    have found : startingAt? entries (key ++ rest) = some (key, hole) :=
      startingAt?_eq_some_iff.mpr ⟨List.prefix_append key rest, before, after, inOrder, first⟩
    obtain ⟨char, others, rfl⟩ :=
      List.exists_cons_of_ne_nil (nonempty (key, hole) (by simp [inOrder]))
    rw [List.cons_append] at found ⊢
    refine .value (by rw [startingAt?_map, found, Option.map_some]) ?_
    simpa [Piece.text] using ih (written ++ value hole)

/-- There is one way to go over a template. -/
theorem Fills.unique {values : List (List Char × List Char)} {written text first second : List Char}
    (one : Fills values written text first) (other : Fills values written text second) :
    first = second := by
  induction one with
  | done => cases other; rfl
  | value found later ih =>
    cases other with
    | value found' later' =>
      cases found.symm.trans found'
      exact ih later'
    | char missing => cases found.symm.trans missing
  | char missing later ih =>
    cases other with
    | value found => cases missing.symm.trans found
    | char _ later' => exact ih later'

def plainTexts : List (Piece Hole) → List (List Char)
  | [] => [[]]
  | .char char :: pieces => (plainTexts pieces).modifyHead (char :: ·)
  | .hole _ :: pieces => [] :: plainTexts pieces

def interleave : List (List Char) → List (List Char) → List Char
  | text :: texts, value :: values => text ++ value ++ interleave texts values
  | text :: _, [] => text
  | [], _ => []

theorem length_plainTexts (pieces : List (Piece Hole)) :
    (plainTexts pieces).length = (holes pieces).length + 1 := by
  induction pieces with
  | nil => rfl
  | cons piece pieces ih =>
    cases piece with
    | char => simpa [plainTexts] using ih
    | hole => simpa [plainTexts] using ih

theorem interleave_modifyHead (char : Char) {texts : List (List Char)} (some_text : texts ≠ [])
    (values : List (List Char)) :
    interleave (texts.modifyHead (char :: ·)) values = char :: interleave texts values := by
  obtain ⟨text, texts, rfl⟩ := List.exists_cons_of_ne_nil some_text
  cases values <;> simp [interleave]

theorem flatMap_text_eq_interleave (value : Hole → List Char) (pieces : List (Piece Hole)) :
    pieces.flatMap (Piece.text value) =
      interleave (plainTexts pieces) ((holes pieces).map value) := by
  induction pieces with
  | nil => rfl
  | cons piece pieces ih =>
    cases piece with
    | char char =>
      have some_text : plainTexts pieces ≠ [] := by
        intro none
        have length := length_plainTexts pieces
        simp [none] at length
      rw [plainTexts, holes_char, interleave_modifyHead char some_text, ← ih]
      rfl
    | hole hole =>
      rw [plainTexts, holes_hole, List.map_cons, interleave, ← ih]
      rfl

end EdgeRoutes.Template
